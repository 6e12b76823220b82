import StogasVerifier.Proofs.LinkStages

/-! How many messages one turn can have. The client sends at most a window of
starts before one is confirmed, and the server answers at most that window and
the keys it had stored, so no chain of an honest session comes near its limit. -/

namespace StogasVerifier.Channel
open Std Lib

variable {S : Suite}

namespace Active

/-- At most so many messages were sent and passed in the current turns. -/
structure Bounded (active : Active S) (sent received : Nat) : Prop where
  sends : ∀ {sending}, active.send = some sending → sending.chain.count ≤ sent
  receives : ∀ {receive}, active.receive = some receive → receive.chain.count ≤ received

/-- No call steps a full chain: neither a send, whose randomness has its own
errors, nor the reception of any header that passes its checks. -/
structure Roomy (active : Active S) : Prop where
  sends : ∀ request entropy, Avoids entropy.seed .limit → Avoids entropy.randomness .limit →
    Avoids (active.sendWith request entropy) .limit
  receives : ∀ {header next count}, active.skippedCount header next = .ok count → Avoids (active.receiveKey header next []) .limit

variable {active : Active S}

private theorem startTurn_avoids {entropy : Entropy S} (seed : Avoids entropy.seed .limit)
    (randomness : Avoids entropy.randomness .limit) : Avoids (active.startTurn entropy) .limit := by
  unfold startTurn
  split
  · exact .other (by decide)
  · refine seed.bind fun _ _ => randomness.bind fun _ _ => Avoids.bind ?_ fun _ _ => .ok _
    unfold KeyPair.agree
    split
    · exact .ok _
    · exact .other (by decide)

private theorem sendWith_avoids (short : ∀ {sending}, active.send = some sending → sending.chain.count < maxChainMessages)
    (request : Nat) (entropy : Entropy S) (seed : Avoids entropy.seed .limit) (randomness : Avoids entropy.randomness .limit) :
    Avoids (active.sendWith request entropy) .limit := by
  unfold sendWith
  apply Avoids.bind
  · split
    · exact startTurn_avoids seed randomness
    · exact .ok _
  intro turn opened
  cases present : turn.send with
  | none => exact .other (by decide)
  | some sending =>
    have room : sending.chain.count < maxChainMessages := by
      split at opened
      · obtain ⟨remote, keySeed, drawn, dh, -, -, -, -, rfl⟩ := startTurn_ok.mp opened
        cases present
        exact (by decide : 0 < maxChainMessages)
      · cases opened
        exact short present
    apply Avoids.bind
    · unfold Chain.step
      rw [if_neg (Nat.not_le.mpr room)]
      exact .ok _
    · intro _ _
      apply Avoids.bind
      · unfold HeaderCipher.sealHeader
        split
        · exact .ok _
        · exact .other (by decide)
      · exact fun _ _ => .ok _

private theorem skip_avoids {target : Nat} {pending : List (PendingKey S)}
    (near : ∀ {receive}, active.receive = some receive →
      target ≤ receive.chain.count + (maxSkippedKeys - pending.length) ∧ target ≤ maxChainMessages) :
    Avoids (active.skip target pending) .limit := by
  unfold skip
  cases received : active.receive with
  | none =>
    dsimp only
    split
    · exact .ok _
    · exact .other (by decide)
  | some receive =>
    obtain ⟨fits, room⟩ := near received
    apply Avoids.bind
    · unfold checkedSub
      split
      · exact .ok _
      · exact .other (by decide)
    intro count counted
    rw [checkedSub_ok] at counted
    apply Avoids.bind
    · unfold reject
      rw [if_neg (by omega)]
      exact .ok _
    intro _ _
    apply Avoids.bind
    · rw [Receiving.skip_ok.mpr ⟨by omega, rfl, rfl⟩]
      exact .ok _
    · exact fun _ _ => .ok _

private theorem nextTurn_avoids {header : Header S}
    (near : ∀ {receive}, active.receive = some receive →
      header.previous ≤ receive.chain.count + maxSkippedKeys ∧ header.previous ≤ maxChainMessages ∧ receive.epoch < u64Max) :
    Avoids (active.nextTurn header []) .limit := by
  unfold nextTurn
  apply Avoids.bind
  · unfold reject
    split
    · exact .other (by decide)
    · exact .ok _
  intro _ _
  apply Avoids.bind
  · unfold PublicKeys.validate
    split
    · exact .ok _
    · exact .other (by decide)
  intro _ _
  apply Avoids.bind
  · apply skip_avoids
    intro receive received
    obtain ⟨fits, room, -⟩ := near received
    exact ⟨fits, room⟩
  rintro ⟨middle, pending⟩ skipped
  have epochs : ∀ {receive}, middle.receive = some receive → receive.epoch < u64Max := by
    intro receive received
    obtain ⟨absent, -, rfl, -⟩ | ⟨before, count, present, -, -, -, rfl, -⟩ := skip_ok.mp skipped
    · rw [absent] at received
      cases received
    · cases received
      exact (near present).2.2
  dsimp only
  split
  · exact .other (by decide)
  · apply Avoids.bind
    · unfold KeyPair.agree
      split
      · exact .ok _
      · exact .other (by decide)
    intro dh _
    apply Avoids.bind
    · cases received : middle.receive with
      | none => simp only [advance, received, Option.elim_none]; exact .ok _
      | some receive =>
        have below := epochs received
        simp only [advance, received, Option.elim_some, checkedAdd]
        rw [if_pos (by omega)]
        exact .ok _
    · exact fun _ _ => .ok _

/-- The last steps of `receive_key`, in the turn of the header. -/
private theorem release_avoids {header : Header S} {pending : List (PendingKey S)} (short : header.number < maxChainMessages)
    (near : ∀ {receive}, active.receive = some receive → header.number ≤ receive.chain.count + (maxSkippedKeys - pending.length)) :
    Avoids (active.receiveKey header false pending) .limit := by
  unfold receiveKey
  apply Avoids.bind
  · exact .ok _
  rintro ⟨start, keys⟩ same
  cases same
  apply Avoids.bind
  · exact skip_avoids fun received => ⟨near received, short.le⟩
  rintro ⟨last, keys⟩ skipped
  dsimp only
  split
  · exact .other (by decide)
  next receive received =>
    have position : receive.chain.count = header.number := by
      obtain ⟨absent, -, rfl, -⟩ | ⟨before, count, -, same, -, -, rfl, -⟩ := skip_ok.mp skipped
      · rw [absent] at received
        cases received
      · cases received
        exact same.symm
    apply Avoids.bind
    · unfold Chain.step
      rw [if_neg (by omega)]
      exact .ok _
    · exact fun _ _ => .ok _

theorem Bounded.roomy {sent received : Nat} (bounded : active.Bounded sent received) (brief : sent < maxChainMessages)
    (far : received + maxSkippedKeys ≤ maxChainMessages) (epochs : ∀ {receive}, active.receive = some receive → receive.epoch < u64Max) :
    active.Roomy := by
  refine ⟨fun request entropy => sendWith_avoids (fun present => (bounded.sends present).trans_lt brief) request entropy, ?_⟩
  intro header next count counted
  obtain ⟨short, few, -, sizes⟩ := skippedCount_ok.mp counted
  cases next with
  | false =>
    apply release_avoids short
    intro receive present
    simp only [present, Option.elim_some, List.length_nil] at sizes ⊢
    omega
  | true =>
    obtain ⟨-, -, total, -⟩ := sizes
    have enters : Avoids (active.nextTurn header []) .limit := by
      apply nextTurn_avoids
      intro receive present
      have bound := bounded.receives present
      simp only [present, Option.elim_some] at total
      exact ⟨by omega, by omega, epochs present⟩
    cases entered : active.nextTurn header [] with
    | error error =>
      rw [entered] at enters
      simp only [receiveKey, if_true, entered]
      exact enters.bind (by simp)
    | ok output =>
      obtain ⟨middle, tail⟩ := output
      have continues : active.receiveKey header true [] = middle.receiveKey header false tail := by
        simp only [receiveKey, if_true, entered, Bool.false_eq_true, if_false]
      rw [continues]
      apply release_avoids short
      intro receive present
      obtain ⟨localKeys, dh, epoch, -, -, -, -, rfl, shape⟩ := nextTurn_ok.mp entered
      cases present
      obtain ⟨absent, zero, -, rfl⟩ | ⟨before, gap, found, place, -, -, -, -, rfl⟩ := shape
      · simp only [absent, Option.elim_none, List.length_nil] at total ⊢
        omega
      · simp only [found, Option.elim_some, Receiving.keys_length] at total ⊢
        omega

end Active

def Stream.Brief (stream : Stream S) : Prop :=
  ∃ bytes cipher header, stream.records.header = some bytes ∧ HeaderCipher.openHeader cipher bytes stream.number = .ok header ∧
    header.number < 2 * replayWindow

namespace Link

namespace Carried

variable {exchange : Exchange S} {turns : Side → Nat} {peers : Side → Peer S} {link : Link S}

theorem client_turn (carried : Carried exchange turns peers link) {sending : Sending S}
    (present : (peers .initiator).active.send = some sending) : sending.chain.count ≤ replayWindow := by
  rcases Nat.eq_zero_or_pos sending.chain.count with none | some
  · omega
  · have total := (carried.flow.outgoing .initiator).sending present
    obtain ⟨positive, owned, -⟩ := (carried.flow.tracks .initiator).sends present
    obtain ⟨turn, number, position, short⟩ := carried.short.short
      (show (link.sent .initiator).length - 1 < (link.sent .initiator).length by omega)
    have started := position.started
    have place := position.index
    -- The last start lies in the current turn, after everything before it.
    have here : turn = turns .initiator - 1 := by
      by_contra different
      have earlier := position.lt_offset owned (by omega) (by omega)
      omega
    subst here
    omega

private theorem brief_answer (carried : Carried exchange turns peers link) (ideal : S.Ideal) (paid : Paced (peers .responder) 1)
    {request : Nat} {entropy : Entropy S} {key : SendKey S} {active : Active S}
    (sent : (peers .responder).active.sendWith request entropy = .ok (key, active)) (id : S.Bytes) :
    Stream.Brief ⟨request, Records.new key.secret id request .response key.header⟩ := by
  obtain ⟨longer, turn, number, sends, -, newest, flow⟩ := carried.flow.send sent
  have joined := flow.paired.joined .responder turn (by rw [Function.update_self]; exact Nat.lt_succ_self turn)
  refine ⟨key.header, longer.script.cipherAt turn, longer.header turn number, rfl,
    (sends.message.genuine joined).opens ideal.sealing, ?_⟩
  change number < 2 * replayWindow
  rw [sends.numbered]
  cases silent : (peers .responder).active.send with
  | none => exact (by decide : 0 < 2 * replayWindow)
  | some before => exact carried.server_turn paid silent

private theorem client_heard (carried : Carried exchange turns peers link) (ideal : S.Ideal)
    (brief : ∀ stream ∈ link.sent .responder, stream.Brief) {receive : Receiving S}
    (received : (peers .initiator).active.receive = some receive) : receive.chain.count ≤ 2 * replayWindow := by
  have incoming := carried.flow.incoming .initiator
  obtain ⟨positive, -, last⟩ := incoming.current received
  have bounded : exchange.reached .initiator (peers .initiator).active ≤ (link.sent .responder).length := incoming.bounded
  have reached := incoming.reached_some received
  have inside : exchange.reached .initiator (peers .initiator).active - 1 < (link.sent .responder).length := by omega
  obtain ⟨stream, found⟩ : ∃ stream, (link.sent .responder)[exchange.reached .initiator (peers .initiator).active - 1]? = some stream :=
    ⟨_, List.getElem?_eq_getElem inside⟩
  obtain ⟨turn, number, key, position, message, shape⟩ := (carried.flow.outgoing .responder).messages found
  obtain ⟨rfl, rfl⟩ := position.unique last
  have genuine := message.genuine (carried.flow.paired.joined .responder _ position.started)
  obtain ⟨bytes, cipher, header, held, opens, short⟩ := brief stream (List.mem_of_getElem? found)
  rw [shape] at held
  cases held
  obtain rfl := HeaderCipher.openHeader_key ideal.committing genuine.sent opens
  cases (genuine.opens ideal.sealing).symm.trans opens
  change receive.chain.count - 1 < 2 * replayWindow at short
  omega

private theorem epochs (carried : Carried exchange turns peers link) (side : Side) {receive : Receiving S}
    (received : (peers side).active.receive = some receive) : receive.epoch < u64Max := by
  have current := ((carried.flow.incoming side).current received).2.1
  have spent := carried.spent
  have replies := carried.replies
  have bounded := (carried.flow.incoming .initiator).bounded
  cases side with
  | initiator =>
    simp only [maxSessionStarts, u64Max, Side.other] at *
    omega
  | responder =>
    simp only [maxSessionStarts, u64Max] at *
    omega

theorem client_bounded (carried : Carried exchange turns peers link) (ideal : S.Ideal)
    (brief : ∀ stream ∈ link.sent .responder, stream.Brief) :
    (peers .initiator).active.Bounded replayWindow (2 * replayWindow) ∧ (peers .initiator).active.Roomy := by
  have bounded : (peers .initiator).active.Bounded replayWindow (2 * replayWindow) :=
    ⟨carried.client_turn, carried.client_heard ideal brief⟩
  exact ⟨bounded, bounded.roomy (by decide) (by decide) (carried.epochs .initiator)⟩

theorem server_bounded (carried : Carried exchange turns peers link) :
    (peers .responder).active.Bounded (2 * replayWindow) replayWindow ∧ (peers .responder).active.Roomy := by
  have bounded : (peers .responder).active.Bounded (2 * replayWindow) replayWindow := by
    refine ⟨fun present => carried.server_turn carried.paced present, fun received => ?_⟩
    have heard := carried.heard_short
    simp only [Active.received, received, Option.elim_some] at heard
    exact heard
  exact ⟨bounded, bounded.roomy (by decide) (by decide) (carried.epochs .responder)⟩

end Carried

private theorem Sound.brief_step {spaced : Prop} {link next : Link S} {arrival : Arrival} (sound : Sound spaced link) (ideal : S.Ideal)
    (brief : ∀ stream ∈ link.sent .responder, stream.Brief) (moved : Step link arrival next) :
    ∀ stream ∈ next.sent .responder, stream.Brief := by
  cases moved with
  | @deliver start kind content bytes sent starts now entropy =>
    have accepts := link.server.acceptStart_accepts start.number bytes now entropy
    generalize link.server.acceptStart start.number bytes now entropy = outcome at accepts ⊢
    obtain ⟨result, after⟩ := outcome
    cases accepts with
    | refuse => exact brief
    | reject => exact brief
    | unanswered => exact brief
    | @admission _ peer header offer incoming kind metadata response active current screened framed budget offered authentic answered =>
      obtain ⟨before, exchange, turns, peers, carried, -⟩ := sound
      obtain ⟨paid, -, _, after, _, same, received⟩ := carried.takes ideal before current sent starts framed offered budget
      rw [← same] at paid answered
      have answer := received.brief_answer ideal paid answered link.server.id
      intro stream member
      simp only [served, Function.update_self, List.mem_append, List.mem_singleton] at member
      rcases member with earlier | rfl
      · exact brief stream earlier
      · exact answer
  | @inject number now bytes forged entropy =>
    have accepts := link.server.acceptStart_accepts number bytes now entropy
    generalize link.server.acceptStart number bytes now entropy = outcome at accepts ⊢
    obtain ⟨result, after⟩ := outcome
    cases accepts with
    | refuse => exact brief
    | reject => exact brief
    | unanswered => exact brief
    | admission current screened framed budget offered authentic => exact absurd authentic (forged _ _ _ _ current framed offered)
  | @read response kind content bytes sent starts waiting now =>
    cases heard : link.client.shared.readStart link.client.session.id response.number bytes now with
    | mk result shared => cases result <;> exact brief
  | @misread number now bytes waiting forged =>
    cases heard : link.client.shared.readStart link.client.session.id number bytes now with
    | mk result shared => cases result <;> exact brief
  | request | fail | drop | expireClient | closeClient | expireServer | closeServer => exact brief

private theorem brief_run {root seed : S.Secret} {first link : Link S} {arrivals : List Arrival} (ideal : S.Ideal)
    (started : Initial root seed first) (run : Trace Step first arrivals link) : ∀ stream ∈ link.sent .responder, stream.Brief := by
  have both : Sound False link ∧ ∀ stream ∈ link.sent .responder, stream.Brief := by
    apply run.invariant fun _ link => Sound False link ∧ ∀ stream ∈ link.sent .responder, stream.Brief
    · refine ⟨.initial started, ?_⟩
      rw [started.quiet.2.2.1]
      nofun
    · intro _ before arrival after held moved
      exact ⟨held.1.step ideal moved False.elim, held.1.brief_step ideal held.2 moved⟩
  exact both.2

/-- In every run, a turn of the client has at most a window of messages and a turn
of the server at most two, counted where they are sent and where they are
received, far below the limit of a chain, and no call on either session steps a full chain. The last part is
about the state in which the server answers a start that it has taken. -/
theorem turns_bounded {root seed : S.Secret} {first link : Link S} {arrivals : List Arrival} (ideal : S.Ideal)
    (started : Initial root seed first) (run : Trace Step first arrivals link) :
    2 * replayWindow < maxChainMessages ∧
    link.client.shared.peer.active.Bounded replayWindow (2 * replayWindow) ∧ link.client.shared.peer.active.Roomy ∧
    ∀ peer, link.server.peer = some peer →
      peer.active.Bounded (2 * replayWindow) replayWindow ∧ peer.active.Roomy ∧
      ∀ stream kind content bytes header now offer, stream ∈ link.sent .initiator → stream.Starts kind content bytes →
        0 < link.server.remainingStarts → startHeader bytes = .ok header →
        (peer.expire now).offer header stream.number = .ok offer →
        offer.after.active.Bounded (2 * replayWindow) replayWindow ∧ offer.after.active.Roomy := by
  have brief := brief_run ideal started run
  obtain ⟨dated, exchange, turns, peers, carried, -⟩ : Sound False link := Sound.run ideal started run
  obtain ⟨bounded, roomy⟩ := carried.client_bounded ideal brief
  rw [carried.client]
  refine ⟨by decide, bounded, roomy, ?_⟩
  intro peer current
  obtain ⟨answers, room⟩ := carried.server_bounded
  refine ⟨carried.server current ▸ answers, carried.server current ▸ room, ?_⟩
  intro stream kind content bytes header now offer sent starts budget framed offered
  obtain ⟨-, -, _, after, _, same, received⟩ := carried.takes ideal dated current sent starts framed offered budget
  rw [← same]
  exact received.server_bounded

theorem turns_bounded_sample : ∃ (arrivals : List Arrival) (link : Link symbolic) (peer : Peer symbolic),
    Trace Step sampleLink arrivals link ∧ (link.sent .initiator).map Stream.number = [0, 1, 2] ∧
    (link.sent .responder).map Stream.number = [2, 0] ∧ link.server.peer = some peer ∧
    link.client.shared.peer.active.Bounded replayWindow (2 * replayWindow) ∧ link.client.shared.peer.active.Roomy ∧
    peer.active.Bounded (2 * replayWindow) replayWindow ∧ peer.active.Roomy := by
  obtain ⟨-, -, link, -, -, stage, -⟩ := overtaken
  obtain ⟨arrivals, spaced⟩ := stage.run
  obtain ⟨peer, current, -⟩ := stage.current
  have run := spaced.mono fun move => move.1
  obtain ⟨-, bounded, roomy, answers⟩ := turns_bounded Symbolic.ideal sampleLink_initial run
  obtain ⟨boundedToo, roomyToo, -⟩ := answers peer current
  exact ⟨arrivals, link, peer, run, stage.numbers, stage.answered, current, bounded, roomy, boundedToo, roomyToo⟩

end Link
end StogasVerifier.Channel
