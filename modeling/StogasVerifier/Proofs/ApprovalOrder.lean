import Mathlib
import StogasVerifier.Approvals.Verifier

/-! The decisions that one verifier accepts, over all of its calls. Each candidate
is compared with the latest decision only; the order of the whole history follows,
since one decision's place after another is transitive. -/

namespace StogasVerifier.Approvals
open Lib
open Sigstore (Bytes TrustedRoot)

variable {L : Libraries}

inductive Call (L : Libraries) where
  | observeKeys (bytes : Bytes) (trust : TrustedRoot) (nowUnixMs : Int)
  | verifyKeyManifest (bytes : Bytes) (trust : TrustedRoot) (nowUnixMs : Int)
  | verifyWithKeys (keys : VerifiedKeys) (approvals : L.SignedApprovals) (sigstore : VerifiedSigstore) (nowUnixMs : Int)
  | accept (candidate : VerifiedApprovals L)

namespace ApprovalVerifier

def perform (verifier : ApprovalVerifier L) : Call L → Option (VerifiedApprovals L) × ApprovalVerifier L
  | .observeKeys bytes trust nowUnixMs => (none, (verifier.observeKeys bytes trust nowUnixMs).2)
  | .verifyKeyManifest bytes trust nowUnixMs => (none, (verifier.verifyKeyManifest bytes trust nowUnixMs).2)
  | .verifyWithKeys _ _ _ _ => (none, verifier)
  | .accept candidate =>
    match verifier.accept candidate with
    | (.ok (), after) => (some candidate, after)
    | (.error _, after) => (none, after)

def run (verifier : ApprovalVerifier L) : List (Call L) → List (VerifiedApprovals L) × ApprovalVerifier L
  | [] => ([], verifier)
  | call :: calls =>
    let (decision, next) := verifier.perform call
    let (decisions, last) := next.run calls
    (decision.toList ++ decisions, last)

end ApprovalVerifier

/-- Two decisions of one key generation, in the order of their acceptance. -/
structure SameGeneration (older newer : VerifiedApprovals L) : Prop where
  keys : older.keysDigest = newer.keysDigest
  revision : older.manifest.revision ≤ newer.manifest.revision
  decision : older.manifest.revision = newer.manifest.revision → older.approvalsDigest = newer.approvalsDigest
  version : older.manifest.hardwarePolicy.version ≤ newer.manifest.hardwarePolicy.version
  rules : older.manifest.hardwarePolicy.version = newer.manifest.hardwarePolicy.version →
    ∃ digest, L.hardwareSha256 older.manifest.hardwarePolicy = .ok digest ∧
      L.hardwareSha256 newer.manifest.hardwarePolicy = .ok digest

/-- A decision may be accepted after another one. -/
structure Succeeds (older newer : VerifiedApprovals L) : Prop where
  generation : older.keys.generation ≤ newer.keys.generation
  within : older.keys.generation = newer.keys.generation → SameGeneration older newer

variable {first second third : VerifiedApprovals L}

theorem SameGeneration.trans (earlier : SameGeneration first second) (later : SameGeneration second third) :
    SameGeneration first third where
  keys := earlier.keys.trans later.keys
  revision := earlier.revision.trans later.revision
  decision := by
    intro same
    have before := earlier.revision
    have after := later.revision
    exact (earlier.decision (by omega)).trans (later.decision (by omega))
  version := earlier.version.trans later.version
  rules := by
    intro same
    have before := earlier.version
    have after := later.version
    obtain ⟨digest, one, two⟩ := earlier.rules (by omega)
    obtain ⟨other, also, three⟩ := later.rules (by omega)
    rw [two] at also
    cases also
    exact ⟨digest, one, three⟩

theorem Succeeds.trans (earlier : Succeeds first second) (later : Succeeds second third) : Succeeds first third where
  generation := earlier.generation.trans later.generation
  within := by
    intro same
    have before := earlier.generation
    have after := later.generation
    exact (earlier.within (by omega)).trans (later.within (by omega))

theorem Succeeds.lex (order : Succeeds first second) :
    toLex (first.keys.generation, first.manifest.revision) ≤ toLex (second.keys.generation, second.manifest.revision) := by
  rw [Prod.Lex.toLex_le_toLex]
  rcases Nat.lt_or_eq_of_le order.generation with older | same
  · exact .inl older
  · exact .inr ⟨same, (order.within same).revision⟩

namespace ApprovalVerifier

variable {verifier after : ApprovalVerifier L} {candidate previous : VerifiedApprovals L}

theorem checkOrder_ok (ok : checkOrder previous candidate = .ok ()) : Succeeds previous candidate := by
  simp only [checkOrder, bind_ok, rejectIf_ok, exists_unit] at ok
  obtain ⟨forward, within⟩ := ok
  refine ⟨Nat.le_of_not_lt forward, ?_⟩
  intro same
  simp only [if_pos same.symm, bind_ok, rejectIf_ok, exists_unit] at within
  obtain ⟨keys, revision, decision, version, rules⟩ := within
  refine ⟨(not_not.mp keys).symm, Nat.le_of_not_lt revision, ?_, Nat.le_of_not_lt version, ?_⟩
  · intro equal
    by_contra differ
    exact decision ⟨equal.symm, fun digest => differ digest.symm⟩
  · intro equal
    simp only [if_pos equal.symm, bind_ok, rejectIf_ok] at rules
    obtain ⟨digest, hardware, other, accepted, agree⟩ := rules
    exact ⟨digest, (not_not.mp agree) ▸ accepted, hardware⟩

theorem checkUpdate_ok (ok : verifier.checkUpdate candidate = .ok ()) (accepted : verifier.accepted = some previous) :
    Succeeds previous candidate := by
  simp only [checkUpdate, bind_ok, exists_unit, accepted] at ok
  obtain ⟨-, -, order⟩ := ok
  exact checkOrder_ok order

theorem accept_cases (verifier : ApprovalVerifier L) (candidate : VerifiedApprovals L) :
    (∃ error keyState, verifier.accept candidate = (.error error, { verifier with keyState })) ∨
    (verifier.checkUpdate candidate = .ok () ∧
      ∃ keyState, verifier.accept candidate = (.ok (), { verifier with keyState, accepted := some candidate })) := by
  unfold accept
  split
  · next error checked => exact .inl ⟨error, verifier.keyState, rfl⟩
  · next checked =>
    split
    · next error keyState learned => exact .inl ⟨error, keyState, rfl⟩
    · next keyState learned => exact .inr ⟨checked, keyState, rfl⟩

theorem observeKeys_accepted (bytes : Bytes) (trust : TrustedRoot) (nowUnixMs : Int) :
    (verifier.observeKeys bytes trust nowUnixMs).2.accepted = verifier.accepted := by
  unfold observeKeys
  split <;> rfl

theorem perform_cases (verifier : ApprovalVerifier L) (call : Call L) :
    ((verifier.perform call).1 = none ∧ (verifier.perform call).2.accepted = verifier.accepted) ∨
    ∃ candidate, (verifier.perform call).1 = some candidate ∧ (verifier.perform call).2.accepted = some candidate ∧
      ∀ previous, verifier.accepted = some previous → Succeeds previous candidate := by
  cases call with
  | observeKeys bytes trust nowUnixMs => exact .inl ⟨rfl, observeKeys_accepted bytes trust nowUnixMs⟩
  | verifyKeyManifest bytes trust nowUnixMs => exact .inl ⟨rfl, observeKeys_accepted bytes trust nowUnixMs⟩
  | verifyWithKeys => exact .inl ⟨rfl, rfl⟩
  | accept candidate =>
    rcases accept_cases verifier candidate with ⟨error, keyState, failed⟩ | ⟨checked, keyState, done⟩
    · refine .inl ⟨?_, ?_⟩ <;> simp only [perform, failed]
    · refine .inr ⟨candidate, ?_, ?_, fun previous accepted => checkUpdate_ok checked accepted⟩ <;> simp only [perform, done]

theorem run_succeeds (verifier : ApprovalVerifier L) (calls : List (Call L)) :
    (verifier.accepted.toList ++ (verifier.run calls).1).Pairwise Succeeds ∧
    (verifier.run calls).2.accepted = (verifier.accepted.toList ++ (verifier.run calls).1).getLast? := by
  induction calls generalizing verifier with
  | nil => cases accepted : verifier.accepted <;> simp [run, accepted]
  | cons call calls ih =>
    obtain ⟨order, last⟩ := ih (verifier.perform call).2
    simp only [run]
    rcases perform_cases verifier call with ⟨nothing, same⟩ | ⟨candidate, decided, accepted, follows⟩
    · simp only [nothing, Option.toList_none, List.nil_append]
      rw [same] at order last
      exact ⟨order, last⟩
    · simp only [accepted, Option.toList_some, List.singleton_append] at order last
      simp only [decided, Option.toList_some, List.singleton_append]
      cases before : verifier.accepted with
      | none => exact ⟨order, last⟩
      | some previous =>
        refine ⟨List.Pairwise.cons ?_ order, by simpa using last⟩
        intro decision member
        rcases List.mem_cons.mp member with rfl | later
        · exact follows previous before
        · exact (follows previous before).trans (List.rel_of_pairwise_cons order later)

/-- Over every sequence of calls the accepted decisions never roll back, and
neither a key generation, a revision nor a hardware-policy version is used twice
for different contents. -/
theorem accepted_order (verifier : ApprovalVerifier L) (calls : List (Call L)) :
    (verifier.accepted.toList ++ (verifier.run calls).1).Pairwise (fun older newer =>
      toLex (older.keys.generation, older.manifest.revision) ≤ toLex (newer.keys.generation, newer.manifest.revision) ∧
      (older.keys.generation = newer.keys.generation →
        older.keysDigest = newer.keysDigest ∧
        (older.manifest.revision = newer.manifest.revision → older.approvalsDigest = newer.approvalsDigest) ∧
        older.manifest.hardwarePolicy.version ≤ newer.manifest.hardwarePolicy.version ∧
        (older.manifest.hardwarePolicy.version = newer.manifest.hardwarePolicy.version →
          ∃ digest, L.hardwareSha256 older.manifest.hardwarePolicy = .ok digest ∧
            L.hardwareSha256 newer.manifest.hardwarePolicy = .ok digest))) ∧
    (verifier.run calls).2.accepted = (verifier.accepted.toList ++ (verifier.run calls).1).getLast? ∧
    ∀ (current : ApprovalVerifier L) (candidate : VerifiedApprovals L) (error : Error),
      (current.accept candidate).1 = .error error → (current.accept candidate).2.accepted = current.accepted := by
  obtain ⟨order, last⟩ := run_succeeds verifier calls
  refine ⟨order.imp ?_, last, ?_⟩
  · intro older newer follows
    refine ⟨follows.lex, fun same => ?_⟩
    have level := follows.within same
    exact ⟨level.keys, level.decision, level.version, level.rules⟩
  · intro current candidate error failed
    rcases accept_cases current candidate with ⟨reason, keyState, result⟩ | ⟨checked, keyState, result⟩
    · rw [result]
    · rw [result] at failed
      cases failed

end ApprovalVerifier
end StogasVerifier.Approvals
