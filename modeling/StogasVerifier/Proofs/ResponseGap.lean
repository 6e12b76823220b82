import StogasVerifier.Proofs.LinkStages
import StogasVerifier.Proofs.ResponseOpening

/-! A run in which the response to a waiting request is refused. The client's
window counts request numbers, but its receive chain counts responses: requests
that are cancelled after the server has answered them make room in the window and
still stand between the chain and the next response. -/

namespace StogasVerifier.Channel
open Std Lib

namespace Link

namespace Stage

variable {link : Link symbolic} {given : Nat} {answers : List Nat}

theorem read (stage : Stage link given answers) (number : Nat) (first : answers.head? = some number)
    (waiting : number ∈ link.client.unread) :
    ∃ next, Stage next given answers ∧ next.client.owners = link.client.owners ∧ next.opened = number :: link.opened ∧
      next.client.shared.starts.confirmedNext = max link.client.shared.starts.confirmedNext (number + 1) ∧
      next.client.shared.starts.firstPending = link.client.shared.starts.firstPending := by
  obtain ⟨⟨arrivals, run⟩, sound, attached, numbers, following, answered, delivered, budget, current, deadlines, few⟩ := stage
  have numbered : (link.sent .responder)[0]?.map Stream.number = some number := by
    rw [← List.getElem?_map, answered, ← List.head?_eq_getElem?, first]
  obtain ⟨stream, found, rfl⟩ := Option.map_eq_some_iff.mp numbered
  have member := List.mem_of_getElem? found
  obtain ⟨bytes, starts⟩ : ∃ bytes, stream.Starts .metadata [(7 : Nat)] bytes := by
    obtain ⟨-, exchange, turns, peers, carried, -⟩ := sound
    exact (carried.flow.outgoing .responder).exists_starts Symbolic.sealing found _ (List.cons_ne_nil _ _) (by decide)
  have spaced : link.Spaced (.response stream.number) := by
    intro last response place other here same _ _ _
    have once : ((link.sent .responder).map Stream.number).Nodup := by
      obtain ⟨-, exchange, turns, peers, carried, -⟩ := sound
      exact carried.window.once
    obtain rfl : last = 0 := by
      have left : ((link.sent .responder).map Stream.number)[last]? = some stream.number := by simp [here, same]
      have right : ((link.sent .responder).map Stream.number)[0]? = some stream.number := by simp [found]
      exact (List.getElem?_inj (List.getElem?_eq_some_iff.mp left).1 once).mp (left.trans right.symm)
    simp [unopened]
  have opens := sound.opens Symbolic.ideal Symbolic.validates member starts waiting spaced 0
  have moved := Step.read member starts waiting 0
  have kept := sound.step Symbolic.ideal moved fun _ => spaced
  have trace := run.snoc (show SpacedStep _ (.response stream.number) _ from ⟨moved, spaced⟩)
  have reads := link.client.shared.readStart_reads link.client.session.id stream.number bytes 0
  rw [ResponseReader.openRecord_waiting] at opens
  generalize link.client.shared.readStart link.client.session.id stream.number bytes 0 = outcome at reads opens kept trace
  obtain ⟨result, after⟩ := outcome
  cases reads with
  | misframed framed => cases opens
  | reject framed failed settled => cases opens
  | accept framed offered authentic settled =>
    subst settled
    exact ⟨_, ⟨⟨_, trace⟩, kept, attached, numbers, following, answered, delivered, budget, current, deadlines, few⟩, rfl, rfl, rfl, rfl⟩

/-- A request is cancelled. The window moves past its number if it was the first
pending one. -/
theorem drop (stage : Stage link given answers) {number : Nat} (owned : number ∈ link.client.owners) :
    ∃ next, Stage next given answers ∧ next.client.owners = link.client.owners.erase number ∧ next.opened = link.opened ∧
      next.client.shared.starts.confirmedNext = link.client.shared.starts.confirmedNext ∧
      link.client.shared.starts.firstPending ≤ next.client.shared.starts.firstPending ∧
      number ≠ next.client.shared.starts.firstPending := by
  obtain ⟨⟨arrivals, run⟩, sound, attached, numbers, following, answered, delivered, budget, current, deadlines, few⟩ := stage
  have released : (link.client.shared.dropPending number).starts = link.client.shared.starts.release number := by
    unfold Shared.dropPending
    simp only
    split <;> rfl
  obtain ⟨low, high, narrow⟩ : link.client.shared.starts.firstPending ≤ link.client.shared.starts.next ∧ number < link.client.shared.starts.next ∧
      link.client.shared.starts.next ≤ link.client.shared.starts.firstPending + replayWindow := by
    obtain ⟨-, exchange, turns, peers, carried, -⟩ := sound
    exact ⟨carried.ledger.ordered, carried.ledger.below _ (carried.ledger.owned _ owned).1, carried.ledger.narrow⟩
  obtain ⟨first, shape, more, bounded, -, stops⟩ := Starts.advancePending_spec _
    { link.client.shared.starts with pending := link.client.shared.starts.pending.clear number } (Nat.le_refl _) low
  have release : link.client.shared.starts.release number = _ := shape
  refine ⟨_, ⟨⟨_, run.snoc ⟨.drop owned, trivial⟩⟩, sound.drop owned, attached, numbers, ?_, answered, delivered, budget, current, deadlines, few⟩,
    rfl, rfl, ?_, ?_, ?_⟩
  · simp only [Client.dropped, released, Starts.release_next]
    exact following
  · simp only [Client.dropped, released, Starts.release_confirmedNext]
  · simp only [Client.dropped, released, release]
    exact more
  · simp only [Client.dropped, released, release]
    intro same
    subst same
    have set := stops high
    simp [Bitmap.test_clear] at set

theorem drops (stage : Stage link given answers) (count : Nat) (first : link.client.shared.starts.firstPending = 0)
    (owned : ∀ number ≤ count, number ∈ link.client.owners) :
    ∃ next, Stage next given answers ∧ next.opened = link.opened ∧
      next.client.shared.starts.confirmedNext = link.client.shared.starts.confirmedNext ∧
      next.client.shared.starts.firstPending = count ∧ ∀ number ∈ link.client.owners, count ≤ number → number ∈ next.client.owners := by
  induction count with
  | zero => exact ⟨link, stage, rfl, rfl, first, fun number member _ => member⟩
  | succ count ih =>
    obtain ⟨middle, reached, opened, confirmed, pending, kept⟩ := ih fun number below => owned number (by omega)
    have here := kept count (owned count (by omega)) (Nat.le_refl _)
    have other := kept (count + 1) (owned _ (Nat.le_refl _)) (by omega)
    obtain ⟨next, later, owners, same, confirmed', more, passed⟩ := reached.drop here
    have once : middle.client.owners.Nodup := by
      obtain ⟨-, exchange, turns, peers, carried, -⟩ := reached.sound
      exact carried.ledger.once
    have still : ∀ number ∈ link.client.owners, count + 1 ≤ number → number ∈ next.client.owners := by
      intro number member low
      rw [owners]
      exact once.mem_erase_iff.mpr ⟨by omega, kept number member (by omega)⟩
    refine ⟨next, later, same.trans opened, confirmed'.trans confirmed, ?_, still⟩
    have below : next.client.shared.starts.firstPending ≤ count + 1 := by
      obtain ⟨-, exchange, turns, peers, carried, -⟩ := later.sound
      exact (carried.ledger.owned _ (still _ (owned _ (Nat.le_refl _)) (Nat.le_refl _))).2.1
    omega

end Stage

/-- 256 requests are answered, the last one first, and only that answer is read.
Cancelling the three oldest requests lets the client send three more. -/
private theorem crowded : ∃ link, Stage link 259 ((255 :: List.range' 0 255) ++ List.range' 256 3) ∧ link.opened = [255] ∧
    258 ∈ link.client.unread := by
  obtain ⟨asked, stage, -, owned, opened, -, confirmed, pending⟩ := Stage.start.requests 256 (by decide) (by decide) (by decide)
  obtain ⟨last, stage, lastClient, lastOpened, -⟩ := stage.deliver 255 (by decide) (owned 255 (by decide) (by decide)).1 nofun (by decide)
  obtain ⟨answered, stage, client, same⟩ := stage.deliver_range 255 0 (by decide)
    (fun number low high => by rw [lastClient]; exact (owned number (by omega) (by omega)).1)
    (fun number member => by
      rw [List.mem_singleton.mp member]
      decide) (by decide)
  rw [lastClient] at client
  have answers : Stage answered 256 (255 :: List.range' 0 255) := by simpa using stage
  obtain ⟨heard, stage, owners, first, confirmed', pending'⟩ := answers.read 255 rfl
    (by rw [client]; exact (owned 255 (by decide) (by decide)).2)
  rw [client] at owners confirmed' pending'
  obtain ⟨cancelled, stage, kept, later, free, -⟩ := stage.drops 3 (by rw [pending', pending]; rfl)
    (fun number below => by rw [owners]; exact (owned number (by omega) (by omega)).1)
  obtain ⟨more, stage, -, waiting, still, -⟩ := stage.requests 3 (by decide)
    (by rw [later, confirmed']; exact Nat.le_trans (by decide) (Nat.add_le_add_right (Nat.le_max_right _ _) _)) (by rw [free]; decide)
  obtain ⟨link, stage, final, open_⟩ := stage.deliver_range 3 256 (by decide) (fun number low high => (waiting number low high).1)
    (fun number member => by
      rcases List.mem_cons.mp member with rfl | rest
      · decide
      · have := List.mem_range'_1.mp rest
        omega) (by simp [maxSessionStarts])
  rw [show 256 + 3 = 259 from rfl] at stage
  refine ⟨link, stage, ?_, ?_⟩
  · rw [open_, still, kept, first, same, lastOpened, opened]
    rfl
  · rw [final]
    exact (waiting 258 (by decide) (by decide)).2

/-- The answer to the last of these requests is 257 responses ahead of the
client's chain, and refused. -/
theorem response_refused : ∃ (arrivals : List Arrival) (link : Link symbolic) (stream : Stream symbolic) (bytes : symbolic.Bytes),
    Trace Step sampleLink arrivals link ∧ stream ∈ link.sent .responder ∧ stream.Starts .metadata [(7 : Nat)] bytes ∧
    stream.number = 258 ∧ stream.number ∈ link.client.unread ∧
    ((ResponseReader.waiting stream.number link.client.session.id).openRecord link.client.shared bytes 0).1 = .error .limit := by
  obtain ⟨link, stage, opened, waiting⟩ := crowded
  obtain ⟨arrivals, run⟩ := stage.run
  have numbered : (link.sent .responder)[258]?.map Stream.number = some 258 := by
    rw [← List.getElem?_map, stage.answered]
    rfl
  obtain ⟨stream, found, number⟩ := Option.map_eq_some_iff.mp numbered
  have front : link.front ≤ 1 := by
    apply front_le
    intro place marked
    obtain ⟨other, here, member⟩ := openedAt_true.mp marked
    rw [opened, List.mem_singleton] at member
    have once : ((link.sent .responder).map Stream.number).Nodup := by
      obtain ⟨-, exchange, turns, peers, carried, -⟩ := stage.sound
      exact carried.window.once
    have left : ((link.sent .responder).map Stream.number)[place]? = some 255 := by simp [here, member]
    have right : ((link.sent .responder).map Stream.number)[0]? = some 255 := by
      rw [stage.answered]
      rfl
    rw [(List.getElem?_inj (List.getElem?_eq_some_iff.mp left).1 once).mp (left.trans right.symm)]
    decide
  obtain ⟨-, exchange, turns, peers, carried, responses⟩ := stage.sound.expireClient 0
  obtain ⟨bytes, starts⟩ := (carried.flow.outgoing .responder).exists_starts Symbolic.sealing found [(7 : Nat)] (List.cons_ne_nil _ _)
    (by decide)
  obtain ⟨turn, place, key, position, message, wire, -⟩ := (carried.flow.outgoing .responder).starts Symbolic.sealing found starts
  have reached : exchange.reached .initiator (peers .initiator).active = link.front := (responses trivial).front
  have refused := carried.flow.refuses .initiator Symbolic.ideal Symbolic.validates position message (by decide)
    (by rw [reached]; exact Nat.lt_of_le_of_lt (Nat.add_le_add_right front _) (by decide))
  rw [← show link.client.shared.peer.expire 0 = peers .initiator from carried.client] at refused
  refine ⟨arrivals, link, stream, bytes, run.mono And.left, List.mem_of_getElem? found, starts, number, number ▸ waiting, ?_⟩
  rw [ResponseReader.openRecord_waiting]
  simp [Shared.readStart, wire, Peer.receive_settles, refused, Peer.settle, Except.map]

/-- In every run whose arrivals are all spaced, the first response that the
server sealed for a waiting request opens when it arrives, if this arrival is
spaced too. -/
theorem response_opens {S : Suite} {link : Link S} {stream : Stream S} {kind : Kind} {content bytes : S.Bytes} {root seed : S.Secret}
    {first : Link S} {arrivals : List Arrival} (ideal : S.Ideal) (validates : S.Validates)
    (started : Initial root seed first) (run : Trace SpacedStep first arrivals link) (sent : stream ∈ link.sent .responder)
    (starts : stream.Starts kind content bytes) (waiting : stream.number ∈ link.client.unread)
    (spaced : link.Spaced (.response stream.number)) (now : Nat) :
    ((ResponseReader.waiting stream.number link.client.session.id).openRecord link.client.shared bytes now).1 = .ok (kind, content) :=
  (Sound.run_spaced ideal started run).opens ideal validates sent starts waiting spaced now

theorem response_opens_sample : ∃ (arrivals : List Arrival) (link : Link symbolic) (stream : Stream symbolic) (bytes : symbolic.Bytes),
    Trace SpacedStep sampleLink arrivals link ∧ stream ∈ link.sent .responder ∧ stream.Starts .metadata [(7 : Nat)] bytes ∧
    ((ResponseReader.waiting stream.number link.client.session.id).openRecord link.client.shared bytes 9).1 = .ok (.metadata, [(7 : Nat)]) := by
  obtain ⟨asked, stage, -, owned, -⟩ := Stage.start.requests 1 (by decide) (by decide) (by decide)
  obtain ⟨link, stage, client, -⟩ := stage.deliver 0 (by decide) (owned 0 (by decide) (by decide)).1 nofun (by decide)
  obtain ⟨arrivals, run⟩ := stage.run
  have numbered : (link.sent .responder)[0]?.map Stream.number = some 0 := by
    rw [← List.getElem?_map, stage.answered]
    rfl
  obtain ⟨stream, found, number⟩ := Option.map_eq_some_iff.mp numbered
  have length : (link.sent .responder).length = 1 := by
    rw [← List.length_map, stage.answered]
    rfl
  have spaced : link.Spaced (.response stream.number) := by
    intro last response place other here _ _ _ _
    have inside := (List.getElem?_eq_some_iff.mp here).1
    obtain rfl : last = 0 := by omega
    simp [unopened]
  obtain ⟨-, exchange, turns, peers, carried, -⟩ := stage.sound
  obtain ⟨bytes, starts⟩ := (carried.flow.outgoing .responder).exists_starts Symbolic.sealing found [(7 : Nat)] (List.cons_ne_nil _ _)
    (by decide)
  exact ⟨arrivals, link, stream, bytes, run, List.mem_of_getElem? found, starts,
    response_opens Symbolic.ideal Symbolic.validates sampleLink_initial run (List.mem_of_getElem? found) starts
      (by rw [number, client]; exact (owned 0 (by decide) (by decide)).2) spaced 9⟩

end Link
end StogasVerifier.Channel
