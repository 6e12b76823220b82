import StogasVerifier.Evidence.Verifier
import StogasVerifier.Proofs.ApprovalOrder
import StogasVerifier.Proofs.KeyOrder
import StogasVerifier.Proofs.RevocationOrder

/-! A refresh installs a complete snapshot or none. What it learns about keys and
revocations stays in both cases and only advances, and never touches the accepted decision. -/

namespace StogasVerifier.Evidence
open Lib
open Sigstore (Bytes)
open Approvals (Environment RootKey KeyState VerifiedApprovals ApprovalVerifier Succeeds)

variable {L : Libraries}

namespace Verifier

def learning (verifier : Verifier L) (keyState : KeyState) (revocations : Revocations) : Verifier L :=
  { verifier with approvals := { verifier.approvals with keyState }, revocations }

def installing (verifier : Verifier L) (snapshot : Snapshot L) : Verifier L where
  approvals := { verifier.approvals with accepted := some snapshot.approvals }
  current := some snapshot
  revocations := verifier.revocations
  snapshots := verifier.snapshots + 1

theorem observeKeys_learning (verifier : ApprovalVerifier L.toApprovals) (bytes : Bytes) (trust : Sigstore.TrustedRoot)
    (nowUnixMs : Int) : ∃ keyState, (verifier.observeKeys bytes trust nowUnixMs).2 = { verifier with keyState } := by
  unfold ApprovalVerifier.observeKeys
  cases verifier.verifyKeys bytes trust nowUnixMs with
  | error error => exact ⟨verifier.keyState, rfl⟩
  | ok keys => exact ⟨(verifier.keyState.learn keys).2, rfl⟩

theorem observe_learning (verifier : Verifier L) (body : L.Value) (nowUnixMs : Int) :
    ∃ keyState, (verifier.observeKeys body nowUnixMs).2 = verifier.learning keyState verifier.revocations := by
  unfold observeKeys
  cases verifier.sigstore (L.index body "sigstore") with
  | error error => exact ⟨verifier.approvals.keyState, rfl⟩
  | ok found =>
    cases L.toVec (L.index body "keys") with
    | error error => exact ⟨verifier.approvals.keyState, rfl⟩
    | ok bytes =>
      obtain ⟨keyState, learned⟩ := observeKeys_learning verifier.approvals bytes found.1.trustedRoot nowUnixMs
      exact ⟨keyState, by simp only [learned, learning]⟩

theorem install_cases (verifier : Verifier L) (snapshot : Snapshot L) :
    (∃ error keyState, verifier.install snapshot = (.error error, verifier.learning keyState verifier.revocations)) ∨
    (verifier.approvals.checkUpdate snapshot.approvals = .ok () ∧ ∃ keyState,
      verifier.install snapshot = (.ok snapshot, (verifier.learning keyState verifier.revocations).installing snapshot)) := by
  unfold install
  rcases ApprovalVerifier.accept_cases verifier.approvals snapshot.approvals with
    ⟨error, keyState, failed⟩ | ⟨checked, keyState, accepted⟩
  · rw [failed]
    exact .inl ⟨.approval error, keyState, rfl⟩
  · rw [accepted]
    exact .inr ⟨checked, keyState, rfl⟩

/-- Everything that a refresh can do: only learn, or install what its last stages
verified after it learned. -/
theorem refresh_cases (verifier : Verifier L) (bytes : Bytes) (nowUnixMs : Int) :
    (∃ error keyState revocations,
      verifier.refresh bytes nowUnixMs = (.error error, verifier.learning keyState revocations)) ∨
    ∃ value keys keyState revocations snapshot final,
      L.parseJson bytes = .ok value ∧ (verifier.observeKeys (L.index value "body") nowUnixMs).1 = .ok keys ∧
      (verifier.learning keyState revocations).verifyCandidate value keys nowUnixMs = .ok snapshot ∧
      (verifier.learning keyState revocations).approvals.checkUpdate snapshot.approvals = .ok () ∧
      verifier.refresh bytes nowUnixMs = (.ok snapshot, (verifier.learning final revocations).installing snapshot) := by
  unfold refresh
  cases parsed : L.parseJson bytes with
  | error error => exact .inl ⟨error, verifier.approvals.keyState, verifier.revocations, rfl⟩
  | ok value =>
    obtain ⟨keyState, learned⟩ := observe_learning verifier (L.index value "body") nowUnixMs
    rcases observed : verifier.observeKeys (L.index value "body") nowUnixMs with ⟨keys, next⟩
    obtain rfl : next = verifier.learning keyState verifier.revocations := by rw [← learned, observed]
    rcases vendor : Revocations.observe L (verifier.learning keyState verifier.revocations).revocations (L.index value "body")
      nowUnixMs with ⟨outcome, revocations⟩
    simp only [observed, vendor]
    split
    next error failed => exact .inl ⟨error, keyState, revocations, rfl⟩
    next snapshot verified =>
      simp only [bind_ok, exists_unit] at verified
      obtain ⟨authorities, authority, -, candidate⟩ := verified
      rcases install_cases (verifier.learning keyState revocations) snapshot with
        ⟨error, last, failed⟩ | ⟨checked, last, done⟩
      · exact .inl ⟨error, last, revocations, failed⟩
      · have known : (verifier.observeKeys (L.index value "body") nowUnixMs).1 = .ok authorities := by rw [observed, authority]
        exact .inr ⟨value, authorities, keyState, revocations, snapshot, last, rfl, known, candidate, checked, done⟩

variable {verifier : Verifier L}

theorem refresh_installs {bytes : Bytes} {nowUnixMs : Int} {snapshot : Snapshot L}
    (ok : (verifier.refresh bytes nowUnixMs).1 = .ok snapshot) :
    (verifier.refresh bytes nowUnixMs).2.current = some snapshot ∧
      (verifier.refresh bytes nowUnixMs).2.approvals.accepted = some snapshot.approvals := by
  rcases refresh_cases verifier bytes nowUnixMs with
    ⟨error, keyState, revocations, failed⟩ | ⟨value, keys, keyState, revocations, installed, final, -, -, -, -, done⟩
  · rw [failed] at ok
    cases ok
  · rw [done] at ok ⊢
    cases ok
    exact ⟨rfl, rfl⟩

def observed (verifier : Verifier L) (body : L.Value) (nowUnixMs : Int) : Verifier L :=
  { (verifier.observeKeys body nowUnixMs).2 with
    revocations := (Revocations.observe L (verifier.observeKeys body nowUnixMs).2.revocations body nowUnixMs).2 }

theorem install_result (verifier : Verifier L) (snapshot : Snapshot L) :
    (verifier.install snapshot).1 =
      ((verifier.approvals.accept snapshot.approvals).1.mapError .approval).map fun _ => snapshot := by
  unfold install
  rcases verifier.approvals.accept snapshot.approvals with ⟨error | done, next⟩ <;> rfl

/-- What a refresh returns, stage by stage. -/
theorem refresh_result (verifier : Verifier L) (bytes : Bytes) (nowUnixMs : Int) :
    (verifier.refresh bytes nowUnixMs).1 = (do
      let value ← L.parseJson bytes
      let body := L.index value "body"
      let keys ← (verifier.observeKeys body nowUnixMs).1
      (Revocations.observe L (verifier.observeKeys body nowUnixMs).2.revocations body nowUnixMs).1
      let snapshot ← (verifier.observed body nowUnixMs).verifyCandidate value keys nowUnixMs
      ((verifier.observed body nowUnixMs).install snapshot).1) := by
  unfold refresh
  cases L.parseJson bytes with
  | error error => rfl
  | ok value =>
    rw [ok_bind]
    dsimp only [observed]
    rcases verifier.observeKeys (L.index value "body") nowUnixMs with ⟨error | keys, next⟩
    · rfl
    rcases Revocations.observe L next.revocations (L.index value "body") nowUnixMs with ⟨error | done, revocations⟩
    · rfl
    simp only [ok_bind]
    cases verifyCandidate { next with revocations } value keys nowUnixMs <;> rfl

structure Advances (before after : Verifier L) : Prop where
  keys : before.approvals.keyState.Advances after.approvals.keyState
  revocations : before.revocations.Advances after.revocations

theorem Advances.trans_keys {first second third : Verifier L} (begun : first.Advances second)
    (keys : second.approvals.keyState.Advances third.approvals.keyState) (same : third.revocations = second.revocations) :
    first.Advances third :=
  ⟨begun.keys.trans keys, same ▸ begun.revocations⟩

theorem observeKeys_advances (verifier : Verifier L) (body : L.Value) (nowUnixMs : Int) :
    verifier.approvals.keyState.Advances (verifier.observeKeys body nowUnixMs).2.approvals.keyState := by
  have advances : ∀ bytes trust, verifier.approvals.keyState.Advances (verifier.approvals.observeKeys bytes trust nowUnixMs).2.keyState := by
    intro bytes trust
    unfold ApprovalVerifier.observeKeys
    split
    next => exact KeyState.Advances.refl _
    next => exact KeyState.learn_advances _ _
  unfold observeKeys
  split
  next => exact KeyState.Advances.refl _
  next sigstore reused _ =>
    split
    next => exact KeyState.Advances.refl _
    next bytes _ => exact advances bytes sigstore.trustedRoot

theorem observed_advances (verifier : Verifier L) (body : L.Value) (nowUnixMs : Int) :
    verifier.Advances (verifier.observed body nowUnixMs) := by
  obtain ⟨keyState, learned⟩ := observe_learning verifier body nowUnixMs
  have same : (verifier.observeKeys body nowUnixMs).2.revocations = verifier.revocations := by rw [learned]; rfl
  refine ⟨observeKeys_advances verifier body nowUnixMs, ?_⟩
  rw [observed, same]
  exact Revocations.observe_advances _ _ _

theorem install_advances (verifier : Verifier L) (snapshot : Snapshot L) :
    verifier.approvals.keyState.Advances (verifier.install snapshot).2.approvals.keyState ∧
      (verifier.install snapshot).2.revocations = verifier.revocations := by
  have accepted : verifier.approvals.keyState.Advances (verifier.approvals.accept snapshot.approvals).2.keyState := by
    have learned := KeyState.learn_advances verifier.approvals.keyState ⟨snapshot.approvals.keys, snapshot.approvals.keysDigest⟩
    unfold ApprovalVerifier.accept
    split
    next => exact KeyState.Advances.refl _
    next =>
      split
      all_goals
        next done =>
          rw [done] at learned
          exact learned
  unfold install
  generalize verifier.approvals.accept snapshot.approvals = outcome at accepted ⊢
  rcases outcome with ⟨error | done, approvals⟩ <;> exact ⟨accepted, rfl⟩

/-- The state after a refresh: the one in which both authorities were processed, possibly with
the snapshot of the last stages. -/
theorem refresh_state (verifier : Verifier L) (bytes : Bytes) (nowUnixMs : Int) :
    (verifier.refresh bytes nowUnixMs).2 = verifier ∨ ∃ body, (verifier.refresh bytes nowUnixMs).2 = verifier.observed body nowUnixMs ∨
      ∃ snapshot, (verifier.refresh bytes nowUnixMs).2 = ((verifier.observed body nowUnixMs).install snapshot).2 := by
  unfold refresh
  cases L.parseJson bytes with
  | error error => exact .inl rfl
  | ok value =>
    refine .inr ⟨L.index value "body", ?_⟩
    dsimp only
    split
    next => exact .inl rfl
    next snapshot _ => exact .inr ⟨snapshot, rfl⟩

theorem refresh_advances (verifier : Verifier L) (bytes : Bytes) (nowUnixMs : Int) :
    verifier.Advances (verifier.refresh bytes nowUnixMs).2 := by
  rcases refresh_state verifier bytes nowUnixMs with same | ⟨body, same | ⟨snapshot, same⟩⟩
  all_goals rw [same]
  · exact ⟨.refl _, .refl _⟩
  · exact observed_advances verifier body nowUnixMs
  · obtain ⟨keys, revocations⟩ := install_advances (verifier.observed body nowUnixMs) snapshot
    exact (observed_advances verifier body nowUnixMs).trans_keys keys revocations

inductive Call where
  | refresh (bytes : Bytes) (nowUnixMs : Int)
  | verifyKeyManifest (bytes : Bytes) (nowUnixMs : Int)

def perform (verifier : Verifier L) : Call → Verifier L
  | .refresh bytes nowUnixMs => (verifier.refresh bytes nowUnixMs).2
  | .verifyKeyManifest bytes nowUnixMs => (verifier.verifyKeyManifest bytes nowUnixMs).2

def run (verifier : Verifier L) (calls : List Call) : Verifier L := calls.foldl perform verifier

def Agrees (verifier : Verifier L) : Prop := verifier.approvals.accepted = verifier.current.map Snapshot.approvals

theorem verifyKeyManifest_learning (verifier : Verifier L) (bytes : Bytes) (nowUnixMs : Int) :
    ∃ keyState, (verifier.verifyKeyManifest bytes nowUnixMs).2 = verifier.learning keyState verifier.revocations := by
  unfold verifyKeyManifest
  dsimp only
  split
  · exact ⟨verifier.approvals.keyState, rfl⟩
  next trust chosen =>
    obtain ⟨keyState, learned⟩ := observeKeys_learning verifier.approvals bytes trust nowUnixMs
    refine ⟨keyState, ?_⟩
    simp only [ApprovalVerifier.verifyKeyManifest, learned, learning]

theorem perform_cases (verifier : Verifier L) (call : Call) :
    (∃ keyState revocations, verifier.perform call = verifier.learning keyState revocations) ∨
    ∃ keyState revocations snapshot, verifier.perform call = (verifier.learning keyState revocations).installing snapshot ∧
      ∀ previous, verifier.approvals.accepted = some previous → Succeeds previous snapshot.approvals := by
  cases call with
  | verifyKeyManifest bytes nowUnixMs =>
    obtain ⟨keyState, learned⟩ := verifyKeyManifest_learning verifier bytes nowUnixMs
    exact .inl ⟨keyState, verifier.revocations, learned⟩
  | refresh bytes nowUnixMs =>
    rcases refresh_cases verifier bytes nowUnixMs with
      ⟨error, keyState, revocations, failed⟩ | ⟨value, keys, keyState, revocations, snapshot, final, -, -, -, checked, done⟩
    · exact .inl ⟨keyState, revocations, by rw [perform, failed]⟩
    · refine .inr ⟨final, revocations, snapshot, by rw [perform, done], fun previous accepted => ?_⟩
      exact ApprovalVerifier.checkUpdate_ok checked accepted

theorem Agrees.perform (agrees : verifier.Agrees) (call : Call) : (verifier.perform call).Agrees := by
  rcases perform_cases verifier call with ⟨keyState, revocations, same⟩ | ⟨keyState, revocations, snapshot, same, -⟩
  · rw [same]
    exact agrees
  · rw [same]
    rfl

theorem current_succeeds (agrees : verifier.Agrees) (calls : List Call) {before : Snapshot L} (current : verifier.current = some before) :
    ∃ after, (verifier.run calls).current = some after ∧ (after = before ∨ Succeeds before.approvals after.approvals) := by
  induction calls generalizing verifier before with
  | nil => exact ⟨before, current, .inl rfl⟩
  | cons call calls ih =>
    have accepted : verifier.approvals.accepted = some before.approvals := by rw [agrees, current, Option.map_some]
    rcases perform_cases verifier call with ⟨keyState, revocations, same⟩ | ⟨keyState, revocations, snapshot, same, follows⟩
    · exact ih (agrees.perform call) (by rw [same]; exact current)
    · have installed : (verifier.perform call).current = some snapshot := by rw [same]; rfl
      obtain ⟨after, reached, order⟩ := ih (agrees.perform call) installed
      refine ⟨after, reached, .inr ?_⟩
      rcases order with rfl | later
      · exact follows _ accepted
      · exact (follows _ accepted).trans later

theorem new_agrees {environment : Environment} {root : RootKey}
    (created : Verifier.new L environment root = .ok verifier) : verifier.Agrees := by
  simp only [Verifier.new, ApprovalVerifier.new, bind_ok, mapError_ok, pure_ok] at created
  obtain ⟨approvals, ⟨rootDer, -, rfl⟩, rfl⟩ := created
  rfl

theorem Agrees.run (agrees : verifier.Agrees) (calls : List Call) : (verifier.run calls).Agrees := by
  induction calls generalizing verifier with
  | nil => exact agrees
  | cons call calls ih => exact ih (agrees.perform call)

theorem run_environment (verifier : Verifier L) (calls : List Call) :
    (verifier.run calls).approvals.environment = verifier.approvals.environment := by
  induction calls generalizing verifier with
  | nil => rfl
  | cons call calls ih =>
    refine (ih (verifier.perform call)).trans ?_
    rcases perform_cases verifier call with ⟨keyState, revocations, same⟩ | ⟨keyState, revocations, snapshot, same, -⟩ <;>
      (rw [same]; rfl)

def position (snapshot : Snapshot L) : Nat ×ₗ Nat :=
  toLex (snapshot.approvals.keys.generation, snapshot.approvals.manifest.revision)

/-- A refresh that fails has only learned keys and revocations, which advance; one that succeeds
makes its snapshot the current one and its decision the accepted one. The position of the current
snapshot never decreases over the calls that follow the verifier's creation. -/
theorem refresh_all_or_nothing (environment : Environment) (root : RootKey) :
    (∀ (verifier : Verifier L) bytes nowUnixMs,
      (∀ error, (verifier.refresh bytes nowUnixMs).1 = .error error →
        ∃ keyState revocations, (verifier.refresh bytes nowUnixMs).2 = verifier.learning keyState revocations ∧
          verifier.approvals.keyState.Advances keyState ∧ verifier.revocations.Advances revocations) ∧
      (∀ snapshot, (verifier.refresh bytes nowUnixMs).1 = .ok snapshot →
        (verifier.refresh bytes nowUnixMs).2.current = some snapshot ∧
        (verifier.refresh bytes nowUnixMs).2.approvals.accepted = some snapshot.approvals)) ∧
    ∀ verifier, Verifier.new L environment root = .ok verifier → ∀ calls later before,
      (verifier.run calls).current = some before →
      ∃ after, (verifier.run (calls ++ later)).current = some after ∧ position before ≤ position after := by
  refine ⟨fun verifier bytes nowUnixMs => ⟨fun error failed => ?_, fun snapshot => refresh_installs⟩,
    fun verifier created calls later before current => ?_⟩
  · rcases refresh_cases verifier bytes nowUnixMs with
      ⟨error, keyState, revocations, same⟩ | ⟨value, keys, keyState, revocations, installed, final, -, -, -, -, done⟩
    · have advances := refresh_advances verifier bytes nowUnixMs
      rw [same] at advances
      exact ⟨keyState, revocations, by rw [same], advances.keys, advances.revocations⟩
    · rw [done] at failed
      cases failed
  · obtain ⟨after, reached, order⟩ := current_succeeds ((new_agrees created).run calls) later current
    refine ⟨after, by rw [run, List.foldl_append]; exact reached, ?_⟩
    rcases order with rfl | later
    · exact le_rfl
    · exact later.lex

end Verifier
end StogasVerifier.Evidence
