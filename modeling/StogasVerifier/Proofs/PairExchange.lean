import StogasVerifier.Proofs.PeerOpening

/-! Two honest peers of one session. Both follow one script: a turn that one
side starts mixes in the secrets that the other side recovers from its header. -/

namespace StogasVerifier.Channel
open Std Lib

variable {S : Suite}

/-- What the two sides did in each turn. -/
structure Exchange (S : Suite) where
  script : Script S
  initial : KeyPair S
  keys : Nat → KeyPair S
  ciphertext : Nat → S.Ciphertext
  previous : Nat → Nat

namespace Exchange

def recipient (exchange : Exchange S) : Nat → KeyPair S
  | 0 => exchange.initial
  | turn + 1 => exchange.keys turn

def header (exchange : Exchange S) (turn number : Nat) : Header S :=
  ⟨(exchange.keys turn).publicKeys, exchange.ciphertext turn, exchange.previous turn, number⟩

/-- The two ends agree on what a turn mixes in. -/
structure Joined (exchange : Exchange S) (turn : Nat) : Prop where
  generated : ∃ seed, exchange.keys turn = KeyPair.fromSeed seed
  agreed : (exchange.keys turn).agree (exchange.recipient turn).publicKeys = .ok (exchange.script.dh turn)
  encapsulated : ∃ randomness, (exchange.recipient turn).publicKeys.encapsulate randomness =
    (exchange.ciphertext turn, exchange.script.kem turn)
  digest : exchange.script.digest turn = (exchange.header turn 0).turn
  previous : exchange.previous turn ≤ maxChainMessages

structure Agrees (turns : Nat) (first second : Exchange S) : Prop where
  script : Script.Agrees turns first.script second.script
  initial : first.initial = second.initial
  keys : ∀ turn < turns, first.keys turn = second.keys turn
  ciphertext : ∀ turn < turns, first.ciphertext turn = second.ciphertext turn
  previous : ∀ turn < turns, first.previous turn = second.previous turn

namespace Agrees

variable {turns turn : Nat} {first second : Exchange S}

theorem refl (turns : Nat) (exchange : Exchange S) : Agrees turns exchange exchange :=
  ⟨.refl _ _, rfl, fun _ _ => rfl, fun _ _ => rfl, fun _ _ => rfl⟩

theorem mono {fewer : Nat} (agrees : Agrees turns first second) (less : fewer ≤ turns) : Agrees fewer first second :=
  ⟨agrees.script.mono less, agrees.initial, fun turn below => agrees.keys turn (by omega),
    fun turn below => agrees.ciphertext turn (by omega), fun turn below => agrees.previous turn (by omega)⟩

theorem trans {third : Exchange S} (before : Agrees turns first second) (after : Agrees turns second third) :
    Agrees turns first third :=
  ⟨before.script.trans after.script, before.initial.trans after.initial,
    fun turn below => (before.keys turn below).trans (after.keys turn below),
    fun turn below => (before.ciphertext turn below).trans (after.ciphertext turn below),
    fun turn below => (before.previous turn below).trans (after.previous turn below)⟩

theorem recipient (agrees : Agrees turns first second) (below : turn ≤ turns) :
    first.recipient turn = second.recipient turn := by
  cases turn with
  | zero => exact agrees.initial
  | succ turn => exact agrees.keys turn below

theorem header (agrees : Agrees turns first second) (below : turn < turns) (number : Nat) :
    first.header turn number = second.header turn number := by
  simp only [Exchange.header, agrees.keys turn below, agrees.ciphertext turn below, agrees.previous turn below]

theorem joined (agrees : Agrees turns first second) (below : turn < turns) (joined : first.Joined turn) :
    second.Joined turn := by
  have same := agrees.recipient below.le
  refine ⟨?_, ?_, ?_, ?_, ?_⟩
  · rw [← agrees.keys turn below]
    exact joined.generated
  · rw [← agrees.keys turn below, ← same, ← agrees.script.dh turn below]
    exact joined.agreed
  · rw [← same, ← agrees.ciphertext turn below, ← agrees.script.kem turn below]
    exact joined.encapsulated
  · rw [← agrees.header below, ← agrees.script.digest turn below]
    exact joined.digest
  · rw [← agrees.previous turn below]
    exact joined.previous

end Agrees

def record (exchange : Exchange S) (turn : Nat) (keys : KeyPair S) (ciphertext : S.Ciphertext) (previous : Nat)
    (dh kem : S.Secret) : Exchange S where
  script := exchange.script.record turn dh kem (Header.turn ⟨keys.publicKeys, ciphertext, previous, 0⟩)
  initial := exchange.initial
  keys := Function.update exchange.keys turn keys
  ciphertext := Function.update exchange.ciphertext turn ciphertext
  previous := Function.update exchange.previous turn previous

theorem agrees_record (exchange : Exchange S) (turn : Nat) (keys : KeyPair S) (ciphertext : S.Ciphertext) (previous : Nat)
    (dh kem : S.Secret) : Agrees turn exchange (exchange.record turn keys ciphertext previous dh kem) := by
  refine ⟨exchange.script.agrees_record .., rfl, ?_, ?_, ?_⟩ <;>
    · intro earlier below
      simp [record, Nat.ne_of_lt below]

theorem Joined.recovered {exchange : Exchange S} {turn : Nat} (joined : exchange.Joined turn) (commutes : S.Commutes)
    (decapsulates : S.Decapsulates) (addressed : ∃ seed, exchange.recipient turn = KeyPair.fromSeed seed) (number : Nat) :
    (exchange.recipient turn).agree (exchange.header turn number).publicKeys = .ok (exchange.script.dh turn) ∧
      (exchange.recipient turn).decapsulate (exchange.header turn number).ciphertext = exchange.script.kem turn ∧
      (exchange.header turn number).turn = exchange.script.digest turn := by
  obtain ⟨seed, generated⟩ := joined.generated
  obtain ⟨other, addressed⟩ := addressed
  obtain ⟨randomness, encapsulated⟩ := joined.encapsulated
  have agreed := joined.agreed
  refine ⟨?_, ?_, joined.digest.symm⟩
  · rw [generated, addressed] at agreed
    simp only [header, generated, addressed]
    simp only [KeyPair.agree, KeyPair.fromSeed] at agreed ⊢
    rw [commutes]
    exact agreed
  · rw [addressed] at encapsulated ⊢
    have recovered := decapsulates (S.expand .keyGeneration other 1) (S.expand .keyGeneration other 2) randomness
    simp only [PublicKeys.encapsulate, KeyPair.fromSeed] at encapsulated
    simp only [header, KeyPair.decapsulate, KeyPair.fromSeed]
    rw [encapsulated] at recovered
    exact recovered

end Exchange

/-- One peer's place in an exchange: what it holds is what its next turn needs. -/
structure Placed (exchange : Exchange S) (side : Side) (turns : Nat) (peer : Peer S) : Prop where
  follows : peer.Follows side exchange.script turns
  localKeys : ∀ {keys}, peer.active.localKeys = some keys → keys = exchange.recipient turns
  remote : ∀ {remote}, peer.active.remote = some remote → peer.active.send = none →
    remote = (exchange.recipient turns).publicKeys
  sending : ∀ {sending}, peer.active.send = some sending →
    (∃ number, sending.header = exchange.header (turns - 1) number) ∧ sending.chain.count ≤ maxChainMessages
  counted : peer.active.previousSent ≤ maxChainMessages

namespace Placed

variable {exchange longer : Exchange S} {side : Side} {turns : Nat} {peer next : Peer S}

theorem congr (placed : Placed exchange side turns peer) (agrees : Exchange.Agrees turns exchange longer) :
    Placed longer side turns peer := by
  refine ⟨placed.follows.congr agrees.script, ?_, ?_, ?_, placed.counted⟩
  · intro keys held
    rw [placed.localKeys held, agrees.recipient (Nat.le_refl _)]
  · intro remote known silent
    rw [placed.remote known silent, agrees.recipient (Nat.le_refl _)]
  · intro sending present
    obtain ⟨⟨number, header⟩, count⟩ := placed.sending present
    have positive := (placed.follows.tracks.sends present).1
    exact ⟨⟨number, by rw [header, agrees.header (by omega)]⟩, count⟩

theorem stored (placed : Placed exchange side turns peer) (follows : next.Follows side exchange.script turns)
    (same : next.active = peer.active) : Placed exchange side turns next :=
  ⟨follows, by rw [same]; exact placed.localKeys, by rw [same]; exact placed.remote, by rw [same]; exact placed.sending,
    by rw [same]; exact placed.counted⟩

theorem expire (placed : Placed exchange side turns peer) (now : Nat) : Placed exchange side turns (peer.expire now) :=
  placed.stored (placed.follows.expire now) (Peer.expire_frame peer now).1

theorem discardDelayed (placed : Placed exchange side turns peer) : Placed exchange side turns peer.discardDelayed :=
  placed.stored placed.follows.discardDelayed rfl

end Placed

structure Paired (exchange : Exchange S) (turns : Side → Nat) (peers : Side → Peer S) : Prop where
  placed : ∀ side, Placed exchange side (turns side) (peers side)
  begun : ∀ side turn, turn < turns side.other → side.Owns turn → turn < turns side
  joined : ∀ side turn, turn < turns side → exchange.Joined turn
  addressed : ∃ seed, exchange.initial = KeyPair.fromSeed seed

namespace Side

theorem eq_other {side other : Side} (different : other ≠ side) : other = side.other := by
  cases side <;> cases other <;> first | rfl | exact absurd rfl different

theorem other_ne (side : Side) : side.other ≠ side := by
  cases side <;> decide

end Side

namespace Paired

variable {exchange longer : Exchange S} {turns : Side → Nat} {peers : Side → Peer S} {side : Side}

theorem initial {root seed : S.Secret} (initiator : Peer.initiator root (KeyPair.fromSeed seed).publicKeys = .ok (peers .initiator))
    (responder : peers .responder = Peer.responder root (KeyPair.fromSeed seed)) : ∃ exchange, Paired exchange (fun _ => 0) peers := by
  let keys : KeyPair S := KeyPair.fromSeed seed
  refine ⟨⟨.blank root, keys, fun _ => keys, fun _ => (keys.publicKeys.encapsulate root).1, fun _ => 0⟩, ?_, (by simp), (by simp), seed, rfl⟩
  intro side
  cases side with
  | initiator =>
    have follows := Peer.Follows.initiator (.blank root) initiator
    simp only [Peer.initiator, bind_ok, pure_ok] at initiator
    obtain ⟨-, -, first⟩ := initiator
    rw [← first] at follows ⊢
    refine ⟨follows, by simp [Peer.new], ?_, by simp [Peer.new], Nat.zero_le _⟩
    intro remote known _
    cases known
    rfl
  | responder =>
    rw [responder]
    refine ⟨Peer.Follows.responder (.blank root) _, ?_, by simp [Peer.responder, Peer.new], by simp [Peer.responder, Peer.new], Nat.zero_le _⟩
    intro held same
    cases same
    rfl

theorem generated (paired : Paired exchange turns peers) {turn : Nat} (below : turn ≤ turns side) :
    ∃ seed, exchange.recipient turn = KeyPair.fromSeed seed := by
  cases turn with
  | zero => exact paired.addressed
  | succ turn => exact (paired.joined side turn below).generated

theorem ahead (paired : Paired exchange turns peers) (owned : side.Owns (turns side)) (other : Side) :
    turns other ≤ turns side := by
  by_cases same : other = side
  · rw [same]
  · rw [Side.eq_other same]
    by_contra further
    exact Nat.lt_irrefl _ (paired.begun side _ (Nat.lt_of_not_le further) owned)

theorem set (paired : Paired exchange turns peers) {peer : Peer S} {later : Nat} (more : turns side ≤ later)
    (placed : Placed exchange side later peer)
    (begun : ∀ turn < later, side.other.Owns turn → turn < turns side.other)
    (joined : ∀ turn < later, exchange.Joined turn) :
    Paired exchange (Function.update turns side later) (Function.update peers side peer) := by
  have away := side.other_ne
  refine ⟨?_, ?_, ?_, paired.addressed⟩
  · intro other
    by_cases same : other = side
    · subst same
      simpa using placed
    · simpa [same] using paired.placed other
  · intro other turn below owned
    by_cases same : other = side
    · subst same
      simp only [Function.update_of_ne away, Function.update_self] at below ⊢
      exact Nat.lt_of_lt_of_le (paired.begun _ turn below owned) more
    · obtain rfl := Side.eq_other same
      simp only [Side.other_other, Function.update_self, Function.update_of_ne away] at below ⊢
      exact begun turn below owned
  · intro other turn below
    by_cases same : other = side
    · subst same
      exact joined turn (by simpa using below)
    · exact paired.joined other turn (by simpa [same] using below)

theorem setStored (paired : Paired exchange turns peers) {peer : Peer S} (placed : Placed exchange side (turns side) peer) :
    Paired exchange turns (Function.update peers side peer) := by
  have same := paired.set (Nat.le_refl _) placed (fun turn below owned => paired.begun side.other turn (by simpa using below) owned)
    fun turn below => paired.joined side turn below
  rwa [Function.update_eq_self] at same

/-- A genuine message: the header of a turn and number, sealed for a request,
and the secret of its position. -/
structure Message (exchange : Exchange S) (turn number request : Nat) (key : SendKey S) : Prop where
  short : number < maxChainMessages
  secret : key.secret = exchange.script.keyAt turn number
  sent : (exchange.script.cipherAt turn).sealHeader (exchange.header turn number) request = .ok key.header

theorem Message.congr {turn number request bound : Nat} {key : SendKey S} (message : Message exchange turn number request key)
    (agrees : Exchange.Agrees bound exchange longer) (below : turn < bound) : Message longer turn number request key :=
  ⟨message.short, by rw [message.secret, agrees.script.keyAt below],
    by rw [← agrees.script.cipherAt (show turn < bound + 2 by omega), ← agrees.header below]; exact message.sent⟩

private theorem startTurn_joined (paired : Paired exchange turns peers) {entropy : Entropy S} {started : Active S}
    (silent : (peers side).active.send = none) (opened : (peers side).active.startTurn entropy = .ok started) :
    ∃ longer keys, Exchange.Agrees (turns side) exchange longer ∧ longer.Joined (turns side) ∧
      longer.keys (turns side) = keys ∧ longer.previous (turns side) = (peers side).active.previousSent ∧
      SendsAs longer.script (turns side) (peers side).active entropy ∧
      started = (peers side).active.started keys (longer.ciphertext (turns side)) (longer.script.dh (turns side))
        (longer.script.kem (turns side)) := by
  obtain ⟨remote, seed, randomness, dh, known, seeded, drawn, agreed, rfl⟩ := Active.startTurn_ok.mp opened
  have addressee := (paired.placed side).remote known silent
  let longer := exchange.record (turns side) (KeyPair.fromSeed seed) (remote.encapsulate randomness).1
    (peers side).active.previousSent dh (remote.encapsulate randomness).2
  have agrees : Exchange.Agrees (turns side) exchange longer := exchange.agrees_record ..
  have keys : longer.keys (turns side) = KeyPair.fromSeed seed := Function.update_self ..
  have ciphertext : longer.ciphertext (turns side) = (remote.encapsulate randomness).1 := Function.update_self ..
  have previous : longer.previous (turns side) = (peers side).active.previousSent := Function.update_self ..
  have mixedDh : longer.script.dh (turns side) = dh := Function.update_self ..
  have mixedKem : longer.script.kem (turns side) = (remote.encapsulate randomness).2 := Function.update_self ..
  have digest : longer.script.digest (turns side) = (longer.header (turns side) 0).turn := by
    simp only [Exchange.header, keys, ciphertext, previous]
    exact Function.update_self ..
  have recipient : remote = (longer.recipient (turns side)).publicKeys := by
    rw [addressee, agrees.recipient (Nat.le_refl _)]
  refine ⟨longer, _, agrees, ⟨⟨seed, keys⟩, ?_, ⟨randomness, ?_⟩, digest, ?_⟩, keys, previous, ?_, ?_⟩
  · rw [keys, ← recipient, mixedDh]
    exact agreed
  · rw [← recipient, ciphertext, mixedKem]
  · rw [previous]
    exact (paired.placed side).counted
  · intro _ other otherSeed otherRandomness otherDh known' seeded' drawn' agreed'
    cases known.symm.trans known'
    cases seeded.symm.trans seeded'
    cases drawn.symm.trans drawn'
    cases agreed.symm.trans agreed'
    exact ⟨mixedDh, mixedKem⟩
  · rw [ciphertext, mixedDh, mixedKem]

private theorem sendTurn (paired : Paired exchange turns peers) {entropy : Entropy S} {middle : Active S}
    (opened : if (peers side).active.send.isNone then (peers side).active.startTurn entropy = .ok middle
      else middle = (peers side).active) :
    ∃ longer, (∀ other, Exchange.Agrees (turns other) exchange longer) ∧
      SendsAs longer.script (turns side) (peers side).active entropy ∧
      (∀ turn < if (peers side).active.send.isNone then turns side + 1 else turns side, longer.Joined turn) ∧
      middle.localKeys = ((peers side).active.send.elim
        (some (longer.recipient (turns side + 1))) fun _ => (peers side).active.localKeys) ∧
      middle.previousSent = (peers side).active.previousSent ∧ middle.receive = (peers side).active.receive ∧
      ((peers side).active.send = none → longer.previous (turns side) = (peers side).active.previousSent) ∧
      ∀ {sending}, middle.send = some sending →
        sending.chain.count = ((peers side).active.send.elim 0 fun before => before.chain.count) ∧
        ∃ number, sending.header =
          longer.header ((if (peers side).active.send.isNone then turns side + 1 else turns side) - 1) number := by
  have placed := paired.placed side
  cases silent : (peers side).active.send with
  | some current =>
    simp only [silent, Option.isNone_some, Bool.false_eq_true, if_false] at opened ⊢
    subst opened
    refine ⟨exchange, fun other => .refl _ _, fun absent => ?_, paired.joined side, rfl, rfl, rfl, nofun, ?_⟩
    · rw [silent] at absent
      cases absent
    · intro sending present
      cases silent.symm.trans present
      exact ⟨rfl, (placed.sending present).1⟩
  | none =>
    simp only [silent, Option.isNone_none, if_true] at opened ⊢
    have known : (peers side).active.remote.isSome := by
      obtain ⟨remote, _, _, _, known, -⟩ := Active.startTurn_ok.mp opened
      rw [known]
      rfl
    have owned := placed.follows.tracks.starts silent known
    obtain ⟨longer, keys, agrees, joined, same, previous, entries, rfl⟩ := paired.startTurn_joined silent opened
    refine ⟨longer, fun other => agrees.mono (paired.ahead owned other), entries, ?_, ?_, rfl, rfl, fun _ => previous, ?_⟩
    · intro turn below
      rcases Nat.lt_succ_iff_lt_or_eq.mp below with earlier | here
      · exact agrees.joined earlier (paired.joined side turn earlier)
      · rw [here]
        exact joined
    · exact congrArg some same.symm
    · intro sending present
      cases present
      refine ⟨rfl, 0, ?_⟩
      simp only [Exchange.header, Nat.add_sub_cancel, same, previous]

structure Sends (exchange longer : Exchange S) (turns : Side → Nat) (peers : Side → Peer S) (side : Side) (request : Nat)
    (key : SendKey S) (active : Active S) (turn number : Nat) : Prop where
  agrees : ∀ other, Exchange.Agrees (turns other) exchange longer
  owned : side.Owns turn
  moved : turn + 1 = if (peers side).active.send.isNone then turns side + 1 else turns side
  message : Message longer turn number request key
  counted : ∃ sending, active.send = some sending ∧ sending.chain.count = number + 1
  numbered : number = (peers side).active.send.elim 0 fun before => before.chain.count
  previous : (peers side).active.send = none → longer.previous turn = (peers side).active.previousSent
  receive : active.receive = (peers side).active.receive
  paired : Paired longer (Function.update turns side (turn + 1)) (Function.update peers side { peers side with active })

theorem send (paired : Paired exchange turns peers) {request : Nat} {entropy : Entropy S} {key : SendKey S} {active : Active S}
    (sent : (peers side).active.sendWith request entropy = .ok (key, active)) :
    ∃ longer turn number, Sends exchange longer turns peers side request key active turn number := by
  obtain ⟨middle, current, bytes, opened, present, room, -, -, rfl⟩ := Active.sendWith_ok.mp sent
  obtain ⟨longer, agrees, entries, joined, keys, previous, received, announced, template⟩ := paired.sendTurn opened
  have extended : Paired longer turns peers := by
    refine ⟨fun other => (paired.placed other).congr (agrees other), paired.begun, ?_, ?_⟩
    · intro other turn below
      exact (agrees other).joined below (paired.joined other turn below)
    · rw [← (agrees side).initial]
      exact paired.addressed
  have placed := extended.placed side
  obtain ⟨turn, sending, number, moved, sends, count, labelled, short, owned, secret, wire, tracks⟩ :=
    placed.follows.tracks.sendWith sent entries
  cases sends
  obtain ⟨before, _, header⟩ := template present
  rw [← moved] at joined header
  have shape : ({ current.header with number := current.chain.count } : Header S) = longer.header turn number := by
    rw [header, ← labelled]
    rfl
  refine ⟨longer, turn, number, agrees, owned, moved, ⟨short, secret, shape ▸ wire⟩, ⟨_, rfl, count⟩, ?_, ?_, received, ?_⟩
  · rw [← before, ← labelled]
  · intro silent
    have here : turn = turns side := by simpa [silent] using moved
    rw [here]
    exact announced silent
  apply extended.set
  · rw [moved]
    split <;> omega
  · refine ⟨placed.follows.withActive tracks received, ?_, nofun, ?_, ?_⟩
    · intro held same
      change middle.localKeys = some held at same
      rw [keys] at same
      cases silent : (peers side).active.send with
      | none =>
        simp only [silent, Option.elim_none, Option.some.injEq] at same
        simp only [silent, Option.isNone_none, if_true] at moved
        rw [← same, moved]
      | some before =>
        simp only [silent, Option.elim_some] at same
        simp only [silent, Option.isNone_some, Bool.false_eq_true, if_false] at moved
        rw [placed.localKeys same, moved]
    · intro sending same
      cases same
      refine ⟨⟨number, shape⟩, ?_⟩
      simp only [Chain.after]
      omega
    · change middle.previousSent ≤ _
      rw [previous]
      exact placed.counted
  · intro other below theirs
    by_cases here : other = turn
    · subst here
      exact absurd owned ((side.owns_other _).mp theirs)
    · have within : other < turns side := by
        rw [moved] at below
        split at below
        · rename_i silent
          simp only [silent, if_true] at moved
          omega
        · exact below
      exact paired.begun side.other other (by simpa using within) theirs
  · exact joined

theorem Message.genuine {turn number request : Nat} {key : SendKey S} (message : Message exchange turn number request key)
    (joined : exchange.Joined turn) : Genuine exchange.script turn request (exchange.header turn number) key.header := by
  have short := message.short
  have previous := joined.previous
  refine ⟨message.sent, ?_, ?_⟩ <;>
    · simp only [Exchange.header, maxChainMessages, u64Max] at *
      omega

section Receiving

variable {turn number request : Nat} {key : SendKey S} {offer : Peer.Offer S}

theorem entersAs (paired : Paired exchange turns peers) (ideal : S.Ideal) (message : Message exchange turn number request key)
    (started : turn < turns side.other) {header : Header S}
    (opened : (peers side).openHeader key.header request = .ok (.next header)) :
    EntersAs exchange.script (turns side) (peers side).active header := by
  intro alternates localKeys dh held agreed
  have placed := paired.placed side
  have joined := paired.joined side.other turn started
  obtain ⟨foreign, -⟩ := placed.follows.tracks.enters (by rw [held]; rfl) alternates
  have theirs : side.other.Owns (turns side) := (side.owns_other _).mpr foreign
  have route := placed.follows.opened (message.genuine joined) ideal opened
  simp only [reduceCtorEq, Opened.next.injEq, false_and, or_false, false_or, exists_false] at route
  obtain ⟨rfl, here⟩ := route
  rw [Side.nextOwn_owned theirs] at here
  subst here
  have same := placed.localKeys held
  obtain ⟨dhs, kem, digest⟩ := joined.recovered ideal.commutes ideal.decapsulates (paired.generated (Nat.le_refl _)) number
  subst same
  rw [agreed] at dhs
  exact ⟨(Except.ok.inj dhs).symm, kem.symm, digest.symm⟩

/-- What a message of this turn does to the active state, apart from the receive
chain: nothing, unless it starts the turn. -/
def Moves (before after : Active S) (turns later turn : Nat) : Prop :=
  later = turns ∧ (∃ receive, after = { before with receive }) ∨
    later = turns + 1 ∧ turns = turn ∧
      ∃ header dh kem epoch receive, after = { before.turned header dh kem epoch with receive }

theorem Moves.le {before after : Active S} {earlier later turn : Nat} (moves : Moves before after earlier later turn) :
    earlier ≤ later := by
  obtain ⟨same, -⟩ | ⟨same, -⟩ := moves <;> omega

theorem offered (paired : Paired exchange turns peers) (ideal : S.Ideal) (message : Message exchange turn number request key)
    (started : turn < turns side.other) (offered : (peers side).offer key.header request = .ok offer) :
    offer.key = key.secret ∧ offer.id.2 = number ∧ side.receives offer.id.1 = turn ∧
      ∃ later, turn < later ∧ Moves (peers side).active offer.after.active (turns side) later turn ∧
        Paired exchange (Function.update turns side later) (Function.update peers side offer.after) := by
  have placed := paired.placed side
  have joined := paired.joined side.other turn started
  have genuine := message.genuine joined
  obtain ⟨later, header, secret, numbered, below, follows, route⟩ :=
    placed.follows.offered offered fun header opened => paired.entersAs ideal message started opened
  have located : header = exchange.header turn number ∧ side.receives offer.id.1 = turn := by
    obtain ⟨-, -, opened | ⟨opened, receive, received, epoch⟩⟩ | ⟨-, -, opened, reached, foreign⟩ := route
    · have here := placed.follows.opened genuine ideal opened
      simp only [reduceCtorEq, Opened.skipped.injEq, false_and, false_or] at here
      obtain ⟨epoch, ⟨rfl, rfl⟩, same⟩ := here
      exact ⟨rfl, same⟩
    · have here := placed.follows.opened genuine ideal opened
      simp only [reduceCtorEq, Opened.current.injEq, false_and, or_false, exists_false] at here
      obtain ⟨rfl, current, present, same⟩ := here
      cases received.symm.trans present
      exact ⟨rfl, epoch ▸ same⟩
    · have here := placed.follows.opened genuine ideal opened
      simp only [reduceCtorEq, Opened.next.injEq, false_and, or_false, false_or, exists_false] at here
      obtain ⟨rfl, same⟩ := here
      rw [Side.nextOwn_owned ((side.owns_other _).mpr foreign)] at same
      exact ⟨rfl, reached.trans same.symm⟩
  obtain ⟨rfl, reached⟩ := located
  refine ⟨by rw [secret, reached, message.secret]; rfl, numbered, reached, later, reached ▸ below, ?_⟩
  obtain ⟨rfl, ⟨receive, active⟩, -⟩ | ⟨rfl, ⟨dh, kem, epoch, receive, active⟩, -, here, foreign⟩ := route
  · refine ⟨.inl ⟨rfl, receive, active⟩, paired.set (Nat.le_refl _) ?_ ?_ (paired.joined side)⟩
    · exact ⟨follows, by rw [active]; exact placed.localKeys, by rw [active]; exact placed.remote,
        by rw [active]; exact placed.sending, by rw [active]; exact placed.counted⟩
    · intro earlier inside owned
      exact paired.begun side.other earlier (by simpa using inside) owned
  · have entering : turns side = turn := here.symm.trans reached
    refine ⟨.inr ⟨rfl, entering, _, dh, kem, epoch, receive, active⟩, paired.set (Nat.le_succ _) ?_ ?_ ?_⟩
    · refine ⟨follows, by rw [active]; nofun, ?_, by rw [active]; nofun, ?_⟩
      · rw [active, entering]
        intro remote known _
        cases known
        rfl
      · rw [active]
        change ((peers side).active.send.elim 0 fun sending => sending.chain.count) ≤ _
        cases present : (peers side).active.send with
        | none => exact Nat.zero_le _
        | some sending => exact (placed.sending present).2
    · intro earlier inside owned
      rw [entering] at inside
      rcases Nat.lt_succ_iff_lt_or_eq.mp inside with before | same
      · exact paired.begun side.other earlier (by simpa [entering] using before) owned
      · exact same ▸ started
    · intro earlier inside
      rw [entering] at inside
      exact paired.joined side.other earlier (by omega)

end Receiving

end Paired
end StogasVerifier.Channel
