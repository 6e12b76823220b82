import StogasVerifier.Channel.Server
import StogasVerifier.Proofs.PeerRuns

/-! What one call to `accept_start` does to a server session. -/

namespace StogasVerifier.Channel
open Std Lib

variable {S : Suite}

namespace ServerSession

variable {session : ServerSession S}

def settleBudget (session : ServerSession S) : ServerSession S :=
  if session.remainingStarts = 0 then session.close else session

def spend (session : ServerSession S) (peer : Peer S) : ServerSession S :=
  { session with peer := some peer, remainingStarts := session.remainingStarts - 1 }

@[simp] theorem settleBudget_next (session : ServerSession S) : session.settleBudget.next = session.next := by
  unfold settleBudget close
  split <;> rfl

@[simp] theorem settleBudget_accepted (session : ServerSession S) : session.settleBudget.accepted = session.accepted := by
  unfold settleBudget close
  split <;> rfl

@[simp] theorem settleBudget_id (session : ServerSession S) : session.settleBudget.id = session.id := by
  unfold settleBudget close
  split <;> rfl

@[simp] theorem settleBudget_remaining (session : ServerSession S) :
    session.settleBudget.remainingStarts = session.remainingStarts := by
  unfold settleBudget close
  split <;> rfl

theorem settleBudget_open (left : 0 < session.remainingStarts) : session.settleBudget = session := if_neg (Nat.ne_of_gt left)

theorem settleBudget_peer {peer : Peer S} (found : session.settleBudget.peer = some peer) : session.peer = some peer := by
  unfold settleBudget close at found
  split at found
  · cases found
  · exact found

@[simp] theorem markAccepted_peer (session : ServerSession S) (number : Nat) :
    (session.markAccepted number).peer = session.peer := by
  unfold markAccepted clearStale
  split <;> rfl

@[simp] theorem markAccepted_id (session : ServerSession S) (number : Nat) :
    (session.markAccepted number).id = session.id := by
  unfold markAccepted clearStale
  split <;> rfl

@[simp] theorem markAccepted_remaining (session : ServerSession S) (number : Nat) :
    (session.markAccepted number).remainingStarts = session.remainingStarts := by
  unfold markAccepted clearStale
  split <;> rfl

theorem markAccepted_next (session : ServerSession S) (number : Nat) :
    (session.markAccepted number).next = max session.next (number + 1) := by
  unfold markAccepted clearStale
  split
  · simp only
    omega
  · simp only
    omega

section Reaches

variable {peer : Peer S} {number now : Nat} {encoded header : S.Bytes} {entropy : Entropy S} (current : session.peer = some peer)
  (screened : session.screen number = .ok ()) (framed : startHeader encoded = .ok header) (budget : 0 < session.remainingStarts)
include current screened framed budget

/-- A start that passes the checks is paid for before its keys are tried. -/
theorem acceptStart_reaches {result : Except Error (Admitted S)} {after : ServerSession S}
    (done : authenticateStart { session with remainingStarts := session.remainingStarts - 1, peer := some peer }
      number encoded header now entropy = (result, after)) :
    session.acceptStart number encoded now entropy = (result, after.settleBudget) := by
  unfold acceptStart
  simp only [current, screened, framed, Nat.ne_of_gt budget, if_false]
  rw [done]
  rfl

section Takes

variable {offer : Peer.Offer S} {incoming : Records S} {kind : Kind} {metadata : S.Bytes}
  (offered : (peer.expire now).offer header number = .ok offer)
  (authentic : session.authenticate number encoded offer.key = .ok (incoming, kind, metadata))
include offered authentic

omit current screened framed budget in
private theorem receive_takes : peer.receive header number now (authenticate
      { session with remainingStarts := session.remainingStarts - 1, peer := some peer } number encoded) =
    (.ok (incoming, kind, metadata), offer.after) :=
  Peer.receive_ok.mpr ⟨offer, offered, authentic, rfl⟩

theorem acceptStart_admits {response : SendKey S} {active : Active S}
    (answered : offer.after.active.sendWith number entropy = .ok (response, active)) :
    session.acceptStart number encoded now entropy =
      (.ok ⟨incoming, Records.new response.secret session.id number .response response.header, metadata⟩,
        ((session.spend { offer.after with active }).markAccepted number).settleBudget) := by
  apply acceptStart_reaches current screened framed budget
  simp only [authenticateStart, receive_takes offered authentic, Peer.send, answered]
  rfl

theorem acceptStart_unanswered {error : Error} (failed : offer.after.active.sendWith number entropy = .error error) :
    session.acceptStart number encoded now entropy = (.error error, (session.spend offer.after).settleBudget) := by
  apply acceptStart_reaches current screened framed budget
  simp only [authenticateStart, receive_takes offered authentic, Peer.send, failed]
  rfl

end Takes

theorem acceptStart_rejects {error : Error}
    (failed : peer.receive header number now (session.authenticate number encoded) = (.error error, peer.expire now)) :
    session.acceptStart number encoded now entropy = (.error error, (session.spend (peer.expire now)).settleBudget) := by
  apply acceptStart_reaches current screened framed budget
  have received : peer.receive header number now (authenticate
      { session with remainingStarts := session.remainingStarts - 1, peer := some peer } number encoded) =
    (.error error, peer.expire now) := failed
  simp only [authenticateStart, received]
  rfl

end Reaches

/-- Everything one call can do. -/
inductive Accepts (session : ServerSession S) (number : Nat) (encoded : S.Bytes) (now : Nat) (entropy : Entropy S) :
    Except Error (Admitted S) → ServerSession S → Prop where
  | refuse {error : Error} : Accepts session number encoded now entropy (.error error) session
  | reject {after : ServerSession S} {peer : Peer S} {header : S.Bytes} {error : Error} (current : session.peer = some peer)
      (screened : session.screen number = .ok ()) (framed : startHeader encoded = .ok header)
      (budget : 0 < session.remainingStarts)
      (failed : peer.receive header number now (session.authenticate number encoded) = (.error error, peer.expire now))
      (settled : after = (session.spend (peer.expire now)).settleBudget) :
      Accepts session number encoded now entropy (.error error) after
  | unanswered {after : ServerSession S} {peer : Peer S} {header : S.Bytes} {offer : Peer.Offer S}
      {output : Records S × Kind × S.Bytes} {error : Error}
      (current : session.peer = some peer) (screened : session.screen number = .ok ())
      (framed : startHeader encoded = .ok header) (budget : 0 < session.remainingStarts)
      (offered : (peer.expire now).offer header number = .ok offer)
      (authentic : session.authenticate number encoded offer.key = .ok output)
      (failed : offer.after.active.sendWith number entropy = .error error)
      (settled : after = (session.spend offer.after).settleBudget) :
      Accepts session number encoded now entropy (.error error) after
  | admission {after : ServerSession S} {peer : Peer S} {header : S.Bytes} {offer : Peer.Offer S} {incoming : Records S}
      {kind : Kind} {metadata : S.Bytes} {response : SendKey S} {active : Active S}
      (current : session.peer = some peer) (screened : session.screen number = .ok ())
      (framed : startHeader encoded = .ok header) (budget : 0 < session.remainingStarts)
      (offered : (peer.expire now).offer header number = .ok offer)
      (authentic : session.authenticate number encoded offer.key = .ok (incoming, kind, metadata))
      (answered : offer.after.active.sendWith number entropy = .ok (response, active))
      (settled : after = ((session.spend { offer.after with active }).markAccepted number).settleBudget) :
      Accepts session number encoded now entropy
        (.ok ⟨incoming, Records.new response.secret session.id number .response response.header, metadata⟩) after

/-- A call that does not reach its keys changes nothing. -/
theorem acceptStart_refuses (session : ServerSession S) (number : Nat) (encoded : S.Bytes) (now : Nat) (entropy : Entropy S)
    (early : session.peer.isSome → session.screen number = .ok () → (∃ header, startHeader encoded = .ok header) →
      session.remainingStarts = 0) :
    ∃ error, session.acceptStart number encoded now entropy = (.error error, session) := by
  unfold acceptStart
  cases current : session.peer with
  | none => exact ⟨_, rfl⟩
  | some peer =>
    cases screened : session.screen number with
    | error error => exact ⟨_, rfl⟩
    | ok done =>
      cases framed : startHeader encoded with
      | error error => exact ⟨_, rfl⟩
      | ok header =>
        have spent := early (by rw [current]; rfl) screened ⟨header, framed⟩
        simp only [spent, if_true]
        exact ⟨_, rfl⟩

theorem acceptStart_accepts (session : ServerSession S) (number : Nat) (encoded : S.Bytes) (now : Nat) (entropy : Entropy S) :
    Accepts session number encoded now entropy (session.acceptStart number encoded now entropy).1
      (session.acceptStart number encoded now entropy).2 := by
  by_cases early : session.peer.isSome → session.screen number = .ok () → (∃ header, startHeader encoded = .ok header) →
      session.remainingStarts = 0
  · obtain ⟨error, refused⟩ := acceptStart_refuses session number encoded now entropy early
    rw [refused]
    exact .refuse
  · simp only [not_forall] at early
    obtain ⟨present, screened, ⟨header, framed⟩, unspent⟩ := early
    obtain ⟨peer, current⟩ := Option.isSome_iff_exists.mp present
    have budget := Nat.pos_of_ne_zero unspent
    cases received : peer.receive header number now (session.authenticate number encoded) with
    | mk result next =>
      cases result with
      | error error =>
        obtain rfl := Peer.receive_error received
        rw [acceptStart_rejects current screened framed budget received]
        exact .reject current screened framed budget received rfl
      | ok output =>
        obtain ⟨incoming, kind, metadata⟩ := output
        obtain ⟨offer, offered, authentic, rfl⟩ := Peer.receive_ok.mp received
        cases answered : offer.after.active.sendWith number entropy with
        | error error =>
          rw [acceptStart_unanswered current screened framed budget offered authentic answered]
          exact .unanswered current screened framed budget offered authentic answered rfl
        | ok sent =>
          obtain ⟨response, active⟩ := sent
          rw [acceptStart_admits current screened framed budget offered authentic answered]
          exact .admission current screened framed budget offered authentic answered rfl

end ServerSession
end StogasVerifier.Channel
