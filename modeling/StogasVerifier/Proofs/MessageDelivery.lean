import StogasVerifier.Proofs.MessageFlow

/-! When a delivered message is offered its key: it is at most 256 indices ahead
of the receive chain, or its key is stored and live. -/

namespace StogasVerifier.Channel
open Std Lib

variable {S : Suite}

namespace Flow

variable {exchange : Exchange S} {id : S.Bytes} {turns : Side → Nat} {peers : Side → Peer S} {sent : Side → List (Stream S)}
  {side : Side} {index turn number request : Nat} {key : SendKey S}

theorem next_turn (flow : Flow exchange id turns peers sent)
    (position : Position exchange side.other (turns side.other) index turn number) (late : turns side ≤ turn) :
    turns side = turn := by
  by_contra different
  have before := (side.owns_pred (show turn ≠ 0 by omega)).mpr ((side.owns_other turn).mp position.owned)
  have entered := flow.paired.begun side (turn - 1) (by have := position.started; omega) before
  omega

theorem ready (flow : Flow exchange id turns peers sent) (theirs : side.other.Owns (turns side)) :
    ((peers side).active.receive.isSome → (peers side).active.send.isSome) ∧ (peers side).active.localKeys.isSome := by
  have tracks := flow.tracks side
  cases sending : (peers side).active.send with
  | some current => exact ⟨fun _ => rfl, tracks.holds.mpr (.inl (by rw [sending]; rfl))⟩
  | none =>
    have start : turns side = 0 := by
      rcases tracks.idle sending with start | foreign
      · exact start
      · by_contra late
        exact foreign ((side.owns_pred late).mpr ((side.owns_other _).mp theirs))
    have unheard : (peers side).active.receive = none := by
      cases received : (peers side).active.receive with
      | none => rfl
      | some receive =>
        have entered := (tracks.receives received).1
        omega
    have responds : side = .responder := by
      rw [start] at theirs
      cases side with
      | initiator => simp [Side.Owns, Side.other, Side.first] at theirs
      | responder => rfl
    exact ⟨by rw [unheard]; simp, tracks.holds.mpr (.inr ⟨responds, unheard⟩)⟩

section Offered

variable (flow : Flow exchange id turns peers sent) (ideal : S.Ideal) (validates : S.Validates)
  (position : Position exchange side.other (turns side.other) index turn number)
  (message : Paired.Message exchange turn number request key)
include flow ideal validates position message

/-- The first message that the receiver gets of a turn, and the keys that it skips. -/
private theorem admits (entering : turns side = turn) (short : index ≤ u64Max) :
    (peers side).active.Admits (exchange.header turn number) ∧
      exchange.previous turn + number + exchange.reached side (peers side).active = (peers side).active.received + index := by
  have joined := flow.paired.joined side.other turn position.started
  have tracks := flow.tracks side
  have theirs : side.other.Owns (turns side) := by rw [entering]; exact position.owned
  obtain ⟨alternates, held⟩ := flow.ready theirs
  obtain ⟨localKeys, present⟩ := Option.isSome_iff_exists.mp held
  obtain ⟨seed, generated⟩ := joined.generated
  have place := position.index
  have recipient := (flow.paired.placed side).localKeys present
  rw [entering] at recipient
  have agreed := (joined.recovered ideal.commutes ideal.decapsulates
    (flow.paired.generated (show turn ≤ turns side from entering.ge)) number).1
  obtain ⟨-, epochs⟩ := tracks.enters held alternates
  have valid : (exchange.header turn number).publicKeys.validate = .ok () := by
    simp only [Exchange.header, generated, PublicKeys.validate, KeyPair.fromSeed, validates _ _, if_true]
  have keys : ∃ localKeys dh, (peers side).active.localKeys = some localKeys ∧
      localKeys.agree (exchange.header turn number).publicKeys = .ok dh := ⟨localKeys, _, present, by rw [recipient]; exact agreed⟩
  cases received : (peers side).active.receive with
  | none =>
    rw [received, Option.elim_none, entering] at epochs
    have early : turn < 2 := by have := side.other.first_le; simp only [Side.receives] at epochs; omega
    have start := (flow.outgoing side.other).first turn position.started position.owned early
    have offset : exchange.offset turn = 0 := by
      obtain rfl | rfl : turn = 0 ∨ turn = 1 := by omega
      · rfl
      · rfl
    have reached : exchange.reached side (peers side).active = 0 := by simp [Exchange.reached, received]
    have silent : (peers side).active.received = 0 := by simp [Active.received, received]
    refine ⟨⟨alternates, valid, keys, message.short, joined.previous, ?_, fun _ => start, by rw [received]; simp⟩, by omega⟩
    rw [silent]
    exact Nat.zero_le _
  | some receive =>
    rw [received, Option.elim_some, entering] at epochs
    have following : turn = side.receives receive.epoch + 2 := by simp only [Side.receives] at epochs ⊢; omega
    obtain ⟨positive, recent, last⟩ := (flow.incoming side).current received
    have inside := last.inside (by rw [← following]; exact position.started)
    have announced : exchange.offset turn = exchange.offset (side.receives receive.epoch) + exchange.previous turn := by
      rw [following, Exchange.offset]
    have reached : exchange.reached side (peers side).active = exchange.offset (side.receives receive.epoch) + receive.chain.count := by
      simp only [Exchange.reached, received, Option.elim_some, Exchange.indexOf]
    have count : (peers side).active.received = receive.chain.count := by simp only [Active.received, received, Option.elim_some]
    rw [← following] at inside
    refine ⟨⟨alternates, valid, keys, message.short, joined.previous, ?_, by rw [received]; simp, ?_⟩, by omega⟩
    · simp only [Exchange.header, count]
      omega
    · intro current same
      cases received.symm.trans same
      omega

private theorem ahead_cases (short : index ≤ u64Max) (ahead : exchange.reached side (peers side).active ≤ index) :
    (∃ receive, (peers side).active.receive = some receive ∧
      (peers side).openHeader key.header request = .ok (.current (exchange.header turn number)) ∧
      number + exchange.reached side (peers side).active = receive.chain.count + index) ∨
    (peers side).openHeader key.header request = .ok (.next (exchange.header turn number)) ∧
      (peers side).active.Admits (exchange.header turn number) ∧
      exchange.previous turn + number + exchange.reached side (peers side).active = (peers side).active.received + index := by
  have placed := flow.paired.placed side
  have joined := flow.paired.joined side.other turn position.started
  have genuine := message.genuine joined
  rcases Nat.lt_or_ge turn (turns side) with entered | late
  · -- A turn entered before is the current one, or the message would be behind the chain.
    cases received : (peers side).active.receive with
    | none =>
      have early := placed.follows.tracks.waits received
      have owned := position.owned
      simp only [Side.Owns] at owned
      omega
    | some receive =>
      obtain ⟨positive, -, last⟩ := (flow.incoming side).current received
      have reached := (flow.incoming side).reached_some received
      have after := last.lt_iff position
      have recent := (placed.follows.tracks.receives received).2.1
      have owned := position.owned
      have lastOwned := last.owned
      have same : side.receives receive.epoch = turn := by
        simp only [Side.Owns] at owned lastOwned
        omega
      have place := position.index
      have here : exchange.reached side (peers side).active = exchange.offset turn + receive.chain.count := by
        simp only [Exchange.reached, received, Option.elim_some, Exchange.indexOf, same]
      exact .inl ⟨receive, rfl, placed.follows.opens_current genuine ideal received same joined.digest.symm, by omega⟩
  · have entering := flow.next_turn position late
    refine .inr ⟨placed.follows.opens_next genuine ideal ?_, flow.admits ideal validates position message entering short⟩
    rw [entering, Side.nextOwn_owned position.owned]

private theorem offers_ahead (room : exchange.reached side (peers side).active + maxSkippedKeys ≤ u64Max)
    (ahead : exchange.reached side (peers side).active ≤ index)
    (near : index ≤ exchange.reached side (peers side).active + maxSkippedKeys) :
    ∃ offer, (peers side).offer key.header request = .ok offer := by
  have order : (peers side).orderRoom := Nat.le_trans (Nat.add_le_add_right (flow.incoming side).orders _) room
  obtain ⟨receive, received, opened, count⟩ | ⟨opened, admits, count⟩ :=
    flow.ahead_cases ideal validates position message (near.trans room) ahead
  · apply Peer.offer_current opened received
    · simp only [Exchange.header]
      omega
    · exact message.short
    · simp only [Exchange.header]
      omega
    · exact order
  · apply Peer.offer_next opened admits _ order
    simp only [Exchange.header]
    omega

variable (side) in
theorem refuses (short : index ≤ u64Max) (far : exchange.reached side (peers side).active + maxSkippedKeys < index) :
    (peers side).offer key.header request = .error .limit := by
  obtain ⟨receive, received, opened, count⟩ | ⟨opened, admits, count⟩ :=
    flow.ahead_cases ideal validates position message short (by omega)
  · apply Peer.offer_current_far opened received message.short
    simp only [Exchange.header]
    omega
  · apply Peer.offer_next_far opened admits
    simp only [Exchange.header]
    omega

omit validates in
private theorem offers_behind {slot : KeyId} {stored : Skipped S} (found : (peers side).lookup slot = some stored)
    (here : exchange.indexOf side slot = index) (fresh : Peer.live (peers side).lastNow stored = true) :
    ∃ offer, (peers side).offer key.header request = .ok offer := by
  have placed := flow.paired.placed side
  have joined := flow.paired.joined side.other turn position.started
  have genuine := message.genuine joined
  have place := (flow.incoming side).stored found
  rw [here] at place
  obtain ⟨same, numbered⟩ := place.unique position
  have present : (peers side).stored slot.1 slot.2 (peers side).lastNow = some stored := Peer.stored_some.mpr ⟨found, fresh⟩
  rw [numbered] at present
  obtain ⟨receive, received, before⟩ := (flow.store side).passed found
  by_cases current : receive.epoch = slot.1
  · have passed : number < receive.chain.count := by
      simp only [Precedes] at before
      omega
    rw [← current] at present same
    exact ⟨_, Peer.offer_passed (placed.follows.opens_current genuine ideal received same joined.digest.symm) received passed present⟩
  · have grouped : ∃ group, (peers side).skipped[slot.1]? = some group := by
      obtain ⟨group, inMap, -⟩ := Option.bind_eq_some_iff.mp found
      exact ⟨group, inMap⟩
    obtain ⟨group, inMap⟩ := grouped
    have old := placed.follows.stored_turn found
    rw [same] at old
    refine ⟨_, Peer.offer_skipped (placed.follows.opens_skipped genuine ideal inMap same old joined.digest.symm ?_) present⟩
    intro other again
    cases received.symm.trans again
    exact current

variable (side) in
theorem offers (room : exchange.reached side (peers side).active + maxSkippedKeys ≤ u64Max)
    (ahead : exchange.reached side (peers side).active ≤ index →
      index ≤ exchange.reached side (peers side).active + maxSkippedKeys)
    (behind : index < exchange.reached side (peers side).active → ∃ slot stored, (peers side).lookup slot = some stored ∧
      exchange.indexOf side slot = index ∧ Peer.live (peers side).lastNow stored = true) :
    ∃ offer, (peers side).offer key.header request = .ok offer := by
  rcases Nat.lt_or_ge index (exchange.reached side (peers side).active) with passed | forward
  · obtain ⟨slot, stored, found, here, fresh⟩ := behind passed
    exact flow.offers_behind ideal position message found here fresh
  · exact flow.offers_ahead ideal validates position message room forward (ahead forward)

end Offered

variable (side) in
theorem sends (flow : Flow exchange id turns peers sent) (sealing : S.Sealing) (contributory : S.Contributory)
    (known : (peers side).active.remote.isSome) {entropy : Entropy S} {seed randomness : S.Secret}
    (seeded : entropy.seed = .ok seed) (drawn : entropy.randomness = .ok randomness)
    (short : ∀ sending, (peers side).active.send = some sending → sending.chain.count < maxChainMessages) (request : Nat) :
    ∃ key active, (peers side).active.sendWith request entropy = .ok (key, active) := by
  have wire : ∀ (cipher : HeaderCipher S) (header : Header S), ∃ bytes, cipher.sealHeader header request = .ok bytes := by
    intro cipher header
    obtain ⟨bytes, encrypted⟩ := sealing.total cipher.key (nonce S request) (protocol S) header.encode
      (by rw [header.encode_length]; decide)
    exact ⟨bytes, HeaderCipher.sealHeader_ok.mpr encrypted⟩
  cases silent : (peers side).active.send with
  | some sending =>
    obtain ⟨bytes, sealed⟩ := wire sending.cipher { sending.header with number := sending.chain.count }
    exact ⟨_, _, Active.sendWith_ok.mpr ⟨(peers side).active, sending, bytes, by simp [silent], silent, short sending silent, sealed,
      rfl, rfl⟩⟩
  | none =>
    obtain ⟨remote, present⟩ := Option.isSome_iff_exists.mp known
    have addressee := (flow.paired.placed side).remote present silent
    obtain ⟨other, generated⟩ := flow.paired.generated (Nat.le_refl (turns side))
    obtain ⟨dh, agreed⟩ : ∃ dh, (KeyPair.fromSeed seed).agree remote = .ok dh := by
      obtain ⟨dh, shared⟩ := Option.isSome_iff_exists.mp (contributory (S.expand .keyGeneration other 0) (S.expand .keyGeneration seed 0))
      refine ⟨dh, ?_⟩
      simp only [addressee, generated, KeyPair.agree, KeyPair.fromSeed, shared]
    obtain ⟨bytes, sealed⟩ := wire (peers side).active.nextSend
      ⟨(KeyPair.fromSeed seed).publicKeys, (remote.encapsulate randomness).1, (peers side).active.previousSent, 0⟩
    refine ⟨_, _, Active.sendWith_ok.mpr ⟨(peers side).active.started (KeyPair.fromSeed seed) (remote.encapsulate randomness).1 dh
      (remote.encapsulate randomness).2, _, bytes, ?_, rfl, (by decide : 0 < maxChainMessages), sealed, rfl, rfl⟩⟩
    rw [silent, Option.isNone_none, if_pos rfl]
    exact Active.startTurn_ok.mpr ⟨remote, seed, randomness, dh, present, seeded, drawn, agreed, rfl⟩

end Flow
end StogasVerifier.Channel
