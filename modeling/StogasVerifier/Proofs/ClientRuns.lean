import StogasVerifier.Channel.Session
import StogasVerifier.Proofs.PeerRuns

/-! Runs of a client session under arbitrary randomness, times and response
bytes, with the requests whose first responses are pending. -/

namespace StogasVerifier.Channel
open Std Lib

variable {S : Suite}

namespace Starts

variable {starts after : Starts} {number : Nat}

theorem allocate_ok : starts.allocate = .ok (number, after) ↔
    starts.next ≠ u64Max ∧ starts.next - starts.confirmedNext < replayWindow ∧
      starts.next - starts.firstPending < replayWindow ∧ number = starts.next ∧
      after = { starts with pending := starts.pending.mark starts.next, next := starts.next + 1 } := by
  unfold allocate
  split
  · simp_all
  split
  next wide => exact ⟨nofun, fun ⟨_, narrow, _⟩ => absurd wide (Nat.not_le.mpr narrow)⟩
  split
  next wide => exact ⟨nofun, fun ⟨_, _, narrow, _⟩ => absurd wide (Nat.not_le.mpr narrow)⟩
  next last confirmed open_ =>
    rw [Except.ok.injEq, Prod.mk.injEq]
    exact ⟨fun ⟨same, shape⟩ => ⟨last, Nat.not_le.mp confirmed, Nat.not_le.mp open_, same.symm, shape.symm⟩,
      fun ⟨_, _, _, same, shape⟩ => ⟨same.symm, shape.symm⟩⟩

/-- The loop of `release` stops at the first pending number. -/
theorem advancePending_spec (count : Nat) (starts : Starts) (enough : starts.next - starts.firstPending ≤ count)
    (ordered : starts.firstPending ≤ starts.next) :
    ∃ first, advancePending count starts = { starts with firstPending := first } ∧ starts.firstPending ≤ first ∧
      first ≤ starts.next ∧ (∀ number, starts.firstPending ≤ number → number < first → starts.pending.test number = false) ∧
      (first < starts.next → starts.pending.test first = true) := by
  induction count generalizing starts with
  | zero => exact ⟨starts.firstPending, rfl, Nat.le_refl _, ordered, fun number low high => absurd high (by omega), by omega⟩
  | succ count ih =>
    rw [advancePending]
    split
    next room =>
      split
      next found => exact ⟨starts.firstPending, rfl, Nat.le_refl _, ordered, fun number low high => absurd high (by omega), fun _ => found⟩
      next clear =>
        obtain ⟨first, shape, more, bounded, skipped, stops⟩ :=
          ih { starts with firstPending := starts.firstPending + 1 } (by simp only; omega) (by simp only; omega)
        refine ⟨first, shape, by simp only at more; omega, bounded, ?_, stops⟩
        intro number low high
        rcases Nat.eq_or_lt_of_le low with rfl | later
        · exact Bool.eq_false_iff.mpr clear
        · exact skipped number later high
    next full => exact ⟨starts.firstPending, rfl, Nat.le_refl _, ordered, fun number low high => absurd high (by omega), by omega⟩

@[simp] theorem advancePending_frame (count : Nat) (starts : Starts) : (advancePending count starts).next = starts.next ∧
    (advancePending count starts).confirmedNext = starts.confirmedNext := by
  induction count generalizing starts with
  | zero => exact ⟨rfl, rfl⟩
  | succ count ih =>
    rw [advancePending]
    split
    · split
      · exact ⟨rfl, rfl⟩
      · exact ih _
    · exact ⟨rfl, rfl⟩

@[simp] theorem release_next (starts : Starts) (number : Nat) : (starts.release number).next = starts.next :=
  (advancePending_frame _ _).1

@[simp] theorem release_confirmedNext (starts : Starts) (number : Nat) :
    (starts.release number).confirmedNext = starts.confirmedNext :=
  (advancePending_frame _ _).2

end Starts

namespace ClientSession

variable {session : ClientSession S} {shared after : Shared S} {entropy : Entropy S}

theorem requestWith_ok {request : ClientRequest S} (done : session.requestWith shared entropy = (.ok request, after)) :
    session.attached = true ∧ ∃ number starts key active, shared.starts.allocate = .ok (number, starts) ∧
      shared.peer.active.sendWith number entropy = .ok (key, active) ∧ after = ⟨starts, { shared.peer with active }⟩ ∧
      request = ⟨⟨session.id, number, Records.new key.secret session.id number .request key.header⟩,
        ⟨some number, session.id, none, false⟩⟩ := by
  unfold requestWith at done
  split at done
  next attached =>
    split at done
    · cases done
    next number starts allocated =>
      unfold Peer.send at done
      cases sent : shared.peer.active.sendWith number entropy with
      | error error => simp only [sent] at done; cases done
      | ok result =>
        simp only [sent] at done
        cases done
        exact ⟨attached, number, starts, result.1, result.2, allocated, sent, rfl, rfl⟩
  · cases done

theorem requestWith_succeeds {number : Nat} {starts : Starts} {key : SendKey S} {active : Active S} (attached : session.attached = true)
    (allocated : shared.starts.allocate = .ok (number, starts))
    (sent : shared.peer.active.sendWith number entropy = .ok (key, active)) :
    session.requestWith shared entropy =
      (.ok ⟨⟨session.id, number, Records.new key.secret session.id number .request key.header⟩,
        ⟨some number, session.id, none, false⟩⟩, ⟨starts, { shared.peer with active }⟩) := by
  simp only [requestWith, attached, if_true, allocated, Peer.send, sent]

theorem requestWith_error {error : Error} (done : session.requestWith shared entropy = (.error error, after)) :
    after = shared ∨ ∃ number starts, shared.starts.allocate = .ok (number, starts) ∧
      after = ⟨starts.release number, shared.peer⟩ := by
  unfold requestWith at done
  split at done
  · split at done
    · cases done
      exact .inl rfl
    next number starts allocated =>
      unfold Peer.send at done
      cases sent : shared.peer.active.sendWith number entropy with
      | error error =>
        simp only [sent] at done
        cases done
        exact .inr ⟨number, starts, allocated, rfl⟩
      | ok result => simp only [sent] at done; cases done
  · cases done
    exact .inl rfl

end ClientSession

namespace Shared

/-- Everything the critical section of a first read can do. -/
inductive Reads (shared : Shared S) (sessionId : S.Bytes) (number : Nat) (encoded : S.Bytes) (now : Nat) :
    Except Error (Records S × Kind × S.Bytes) → Shared S → Prop where
  | misframed {error : Error} (framed : startHeader encoded = .error error) :
      Reads shared sessionId number encoded now (.error error) shared
  | reject {header : S.Bytes} {error : Error} {after : Shared S} (framed : startHeader encoded = .ok header)
      (failed : shared.peer.receive header number now
        (fun secret => Records.authenticateStart secret sessionId number .response encoded) = (.error error, shared.peer.expire now))
      (settled : after = { shared with peer := shared.peer.expire now }) :
      Reads shared sessionId number encoded now (.error error) after
  | accept {header : S.Bytes} {offer : Peer.Offer S} {output : Records S × Kind × S.Bytes} {after : Shared S}
      (framed : startHeader encoded = .ok header) (offered : (shared.peer.expire now).offer header number = .ok offer)
      (authentic : Records.authenticateStart offer.key sessionId number .response encoded = .ok output)
      (settled : after = ⟨{ shared.starts with confirmedNext := max shared.starts.confirmedNext (number + 1) }, offer.after⟩) :
      Reads shared sessionId number encoded now (.ok output) after

theorem readStart_reads (shared : Shared S) (sessionId : S.Bytes) (number : Nat) (encoded : S.Bytes) (now : Nat) :
    Reads shared sessionId number encoded now (shared.readStart sessionId number encoded now).1
      (shared.readStart sessionId number encoded now).2 := by
  unfold readStart
  cases framed : startHeader encoded with
  | error error => exact .misframed framed
  | ok header =>
    cases received : shared.peer.receive header number now fun secret =>
        Records.authenticateStart secret sessionId number .response encoded with
    | mk result next =>
      cases result with
      | error error =>
        obtain rfl := Peer.receive_error received
        simp only [received]
        exact .reject framed received rfl
      | ok output =>
        obtain ⟨offer, offered, authentic, rfl⟩ := Peer.receive_ok.mp received
        simp only [received]
        exact .accept framed offered authentic rfl

end Shared

/-- A session with the numbers of the requests that wait for a first response,
and of those whose `PendingStart` is not dropped yet. Reading a first response
takes a request off the first list; it leaves the second one when the call
returns. -/
structure Client (S : Suite) where
  session : ClientSession S
  shared : Shared S
  unread : List Nat
  owners : List Nat

namespace Client

def Initial (client : Client S) : Prop :=
  ∃ root id idleSeconds responder, ClientSession.new root id idleSeconds responder = .ok (client.session, client.shared) ∧
    client.unread = [] ∧ client.owners = []

def allocated (client : Client S) (shared : Shared S) (number : Nat) : Client S :=
  { client with shared, unread := number :: client.unread, owners := number :: client.owners }

def taken (client : Client S) (shared : Shared S) (number : Nat) : Client S :=
  { client with shared, unread := client.unread.erase number }

def dropped (client : Client S) (number : Nat) : Client S :=
  { client with
    shared := client.shared.dropPending number
    unread := client.unread.erase number
    owners := client.owners.erase number }

end Client
end StogasVerifier.Channel
