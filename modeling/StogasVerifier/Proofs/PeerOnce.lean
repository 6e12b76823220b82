import StogasVerifier.Proofs.LinkStages
import StogasVerifier.Proofs.PeerFollows

/-! Every message key is used at most once. A used position is passed, so the
chain cannot release it again, and its key is not stored. -/

namespace StogasVerifier.Channel
open Std Lib

variable {S : Suite}

def acceptances (events : List (Event S)) : List (KeyId × S.Secret) :=
  events.filterMap fun
    | .accepted _ id key _ => some (id, key)
    | _ => none

theorem mem_acceptances {events : List (Event S)} {id : KeyId} {key : S.Secret} :
    (id, key) ∈ acceptances events ↔ ∃ now stored, .accepted now id key stored ∈ events := by
  simp only [acceptances, List.mem_filterMap]
  constructor
  · rintro ⟨event, member, found⟩
    cases event <;> cases found
    exact ⟨_, _, member⟩
  · rintro ⟨now, stored, member⟩
    exact ⟨_, member, rfl⟩

namespace Peer

/-- An accepted message changes the sending side only by ending its turn. -/
theorem offer_sending {peer : Peer S} {bytes : S.Bytes} {request : Nat} {offer : Offer S}
    (offered : peer.offer bytes request = .ok offer) :
    offer.after.active.send = none ∧ offer.after.active.localKeys = none ∨
      offer.after.active.send = peer.active.send ∧ offer.after.active.localKeys = peer.active.localKeys := by
  cases offer_cases offered with
  | stored opened number found secret quiet after =>
    rw [after]
    exact .inr ⟨rfl, rfl⟩
  | @chain header next active pending opened counted derived room number between stored after =>
    rw [after, (committed_frame _ _ (receiveKey_fits derived)).1]
    cases next with
    | false =>
      obtain ⟨receive, count, -, -, -, -, -, rfl, -⟩ := Active.receiveKey_current.mp derived
      exact .inr ⟨rfl, rfl⟩
    | true =>
      obtain ⟨middle, tail, entered, rest⟩ := Active.receiveKey_next.mp derived
      obtain ⟨localKeys, dh, epoch, -, -, -, -, rfl, -⟩ := Active.nextTurn_ok.mp entered
      obtain ⟨receive, count, -, -, -, -, -, rfl, -⟩ := Active.receiveKey_current.mp rest
      exact .inl ⟨rfl, rfl⟩

/-- No accepted position can be accepted again. -/
structure Spent (events : List (Event S)) (peer : Peer S) : Prop where
  once : ((acceptances events).map Prod.fst).Nodup
  passed : ∀ {id}, id ∈ (acceptances events).map Prod.fst → peer.active.Passed id
  gone : ∀ {id}, id ∈ (acceptances events).map Prod.fst → peer.lookup id = none

section Preservation

variable {events : List (Event S)} {peer : Peer S}

private theorem Spent.quiet (spent : Spent events peer) {event : Event S} {next : Peer S}
    (silent : acceptances [event] = []) (passed : ∀ {id}, peer.active.Passed id → next.active.Passed id)
    (subset : ∀ {id key}, next.lookup id = some key → peer.lookup id = some key) : Spent (events ++ [event]) next := by
  have same : acceptances (events ++ [event]) = acceptances events := by
    rw [acceptances, List.filterMap_append, ← acceptances, ← acceptances, silent, List.append_nil]
  refine ⟨by rw [same]; exact spent.once, fun member => passed (spent.passed (same ▸ member)), fun {id} member => ?_⟩
  cases found : next.lookup id with
  | none => rfl
  | some key =>
    have absent := spent.gone (same ▸ member)
    rw [subset found] at absent
    cases absent

private theorem Spent.use (spent : Spent events peer) {now : Nat} {id : KeyId} {key : S.Secret} {stored : List KeyId}
    {next : Peer S} (unused : id ∉ (acceptances events).map Prod.fst) (last : next.active.Passed id)
    (used : next.lookup id = none) (passed : ∀ {other}, peer.active.Passed other → next.active.Passed other)
    (kept : ∀ {other}, peer.active.Passed other → peer.lookup other = none → next.lookup other = none) :
    Spent (events ++ [.accepted now id key stored]) next := by
  have grown : (acceptances (events ++ [.accepted now id key stored])).map Prod.fst =
      (acceptances events).map Prod.fst ++ [id] := by
    simp [acceptances, List.filterMap_append]
  refine ⟨?_, ?_, ?_⟩
  · rw [grown]
    exact List.nodup_append.mpr ⟨spent.once, List.nodup_singleton id, fun other member _ inLast same =>
      unused (List.mem_singleton.mp inLast ▸ same ▸ member)⟩
  · intro other member
    rw [grown] at member
    rcases List.mem_append.mp member with earlier | here
    · exact passed (spent.passed earlier)
    · exact List.mem_singleton.mp here ▸ last
  · intro other member
    rw [grown] at member
    rcases List.mem_append.mp member with earlier | here
    · exact kept (spent.passed earlier) (spent.gone earlier)
    · exact List.mem_singleton.mp here ▸ used

theorem Spent.accept (spent : Spent events peer) (store : KeyStore peer) {bytes : S.Bytes} {request now : Nat}
    {offer : Offer S} (offered : peer.offer bytes request = .ok offer) :
    Spent (events ++ [.accepted now offer.id offer.key offer.stored]) offer.after := by
  cases offer_cases offered with
  | @stored header key opened number found secret quiet after =>
    obtain ⟨found, -⟩ := stored_some.mp found
    have unused : offer.id ∉ (acceptances events).map Prod.fst := by
      intro member
      rw [spent.gone member] at found
      cases found
    rw [after]
    refine spent.use unused (store.passed found) (by rw [lookup_remove, if_pos rfl]) (fun passed => passed) ?_
    intro other _ absent
    rw [lookup_remove]
    split
    · rfl
    · exact absent
  | @chain header next active pending opened counted derived room number between stored after =>
    have fits := receiveKey_fits derived
    have unused : offer.id ∉ (acceptances events).map Prod.fst := fun member => between.released (spent.passed member)
    have unstored : ∀ {id}, (∀ skipped ∈ pending, skipped.id ≠ id) → peer.lookup id = none →
        (peer.committed active pending).lookup id = none := by
      intro id different absent
      cases found : (peer.committed active pending).lookup id with
      | none => rfl
      | some key =>
        obtain old | ⟨skipped, member, same, -⟩ := lookup_committed between store fits found
        · rw [old] at absent
          cases absent
        · exact absurd same (different skipped member)
    rw [after]
    refine spent.use unused ?_ (unstored (fun skipped member => (between.earlier skipped member).ne) ?_) ?_ ?_
    · rw [(committed_frame _ _ fits).1]
      exact between.passed
    · cases found : peer.lookup offer.id with
      | none => rfl
      | some key => exact absurd (store.passed found) between.released
    · intro other passed
      rw [(committed_frame _ _ fits).1]
      exact between.kept other passed
    · intro other passed absent
      exact unstored (fun skipped member same => between.fresh skipped member (same ▸ passed)) absent

theorem Spent.step (spent : Spent events peer) (store : KeyStore peer) {event : Event S} {next : Peer S}
    (move : Step peer event next) : Spent (events ++ [event]) next := by
  have expired : ∀ now, Spent events (peer.expire now) := by
    intro now
    refine ⟨spent.once, fun member => by rw [(expire_frame peer now).1]; exact spent.passed member, fun {id} member => ?_⟩
    cases found : (peer.expire now).lookup id with
    | none => rfl
    | some key =>
      have absent := spent.gone member
      rw [expire_subset store now found] at absent
      cases absent
  cases move with
  | send _ request entropy =>
    obtain ⟨active, shape, same⟩ := send_frame peer request entropy
    rw [shape]
    exact spent.quiet rfl (fun ⟨receive, received, order⟩ => ⟨receive, same.trans received, order⟩) fun found => found
  | refuse failed =>
    rw [receive_error failed]
    exact (expired _).quiet rfl (fun passed => passed) fun found => found
  | accept offered accepted =>
    obtain ⟨offer, again, -, rfl⟩ := receive_ok.mp accepted
    cases offered.symm.trans again
    exact (expired _).accept (store.expire _) offered
  | expire _ now => exact (expired now).quiet rfl (fun passed => passed) fun found => found
  | discard =>
    exact spent.quiet rfl (fun passed => passed) fun found => by simp [discardDelayed, lookup] at found

end Preservation

/-- In every run of a peer no position is accepted twice, whichever of the three
routes its key is reached by. The key of a position is the one its epoch's chain
releases there. -/
theorem accepts_once {first last : Peer S} {events : List (Event S)} (initial : Initial first) (run : Run first events last) :
    ((acceptances events).map Prod.fst).Nodup ∧
      ∃ seed : Nat → S.Secret, ∀ id key, (id, key) ∈ acceptances events → key = messageKey (seed id.1) id.2 := by
  have spent : Kept events last ∧ Spent events last := by
    refine Trace.invariant (fun events peer => Kept events peer ∧ Spent events peer) ⟨.initial initial, ?_⟩ ?_ run
    · exact ⟨List.nodup_nil, nofun, nofun⟩
    · rintro events before event after ⟨kept, spent⟩ move
      exact ⟨kept.step move, spent.step kept.store move⟩
  obtain ⟨side, script, turns, -, explained⟩ := Run.follows initial run
  refine ⟨spent.2.once, fun epoch => script.seedAt (side.receives epoch), fun id key member => ?_⟩
  obtain ⟨now, stored, member⟩ := mem_acceptances.mp member
  exact (explained _ member).2

/-- The server's peer accepts the third message and then the first, whose key it had stored. -/
theorem accepts_once_sample : ∃ (peer : Peer symbolic) (events : List (Event symbolic)),
    Run sampleResponder events peer ∧ (acceptances events).length = 2 ∧ ((acceptances events).map Prod.fst).Nodup := by
  obtain ⟨asked, ahead, behind, -, middle, final, fresh, -, jump, back⟩ := Link.overtaken
  obtain ⟨between, known, -⟩ := middle.current
  obtain ⟨peer, last, -⟩ := final.current
  rw [fresh] at jump
  obtain ⟨_, _, _, _, _, once⟩ := ServerSession.accepted_run .nil jump rfl known
  obtain ⟨_, _, _, _, _, run⟩ := ServerSession.accepted_run once back known last
  exact ⟨_, _, run, rfl, (accepts_once (.responder _ _) run).1⟩

end Peer
end StogasVerifier.Channel
