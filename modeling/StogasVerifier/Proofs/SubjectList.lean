import StogasVerifier.Sigstore.Attestation

/-! The subjects of an accepted statement are the expected ones: the lookups go one way
only, and the other way is a count. -/

namespace StogasVerifier.Sigstore
open Lib

def LowerDigest (text : String) : Prop :=
  text.toList.length = 64 ∧ ∀ char ∈ text.toList, ('0' ≤ char ∧ char ≤ '9') ∨ ('a' ≤ char ∧ char ≤ 'f')

structure Expectable (expected : List SubjectDigest) : Prop where
  nonempty : 1 ≤ expected.length
  bounded : expected.length ≤ 1024
  distinct : (expected.map SubjectDigest.name).Nodup
  named : ∀ subject ∈ expected, subject.name ≠ ""
  digests : ∀ subject ∈ expected, LowerDigest subject.sha256

theorem isLowerSha256_iff (text : String) : isLowerSha256 text = true ↔ LowerDigest text := by
  have narrow {char : Char} (hex : ('0' ≤ char ∧ char ≤ '9') ∨ ('a' ≤ char ∧ char ≤ 'f')) : char.utf8Size = 1 := by
    have small : char.toNat ≤ 127 := by
      rcases hex with digit | letter
      · exact Nat.le_trans (Char.le_def.mp digit.2) (by decide)
      · exact Nat.le_trans (Char.le_def.mp letter.2) (by decide)
    rw [Char.utf8Size_eq_one_iff]
    exact UInt32.le_iff_toNat_le.mpr small
  have size (chars : List Char) (hex : ∀ char ∈ chars, ('0' ≤ char ∧ char ≤ '9') ∨ ('a' ≤ char ∧ char ≤ 'f')) :
      String.utf8Len chars = chars.length := by
    induction chars with
    | nil => rfl
    | cons char rest ih =>
      rw [String.utf8Len_cons, ih fun next member => hex next (.tail _ member), narrow (hex char (.head _)), List.length_cons]
  have whole : text.utf8ByteSize = String.utf8Len text.toList := by
    rw [← String.utf8ByteSize_ofList, String.ofList_toList]
  simp only [isLowerSha256, LowerDigest, decide_eq_true_eq, List.all_eq_true, Bool.or_eq_true]
  constructor
  · rintro ⟨bytes, hex⟩
    exact ⟨(whole.trans (size _ hex)).symm.trans bytes, hex⟩
  · rintro ⟨count, hex⟩
    exact ⟨(whole.trans (size _ hex)).trans count, hex⟩

theorem checkExpected_iff (names : List String) (expected : List SubjectDigest) : checkExpected names expected = true ↔
    (expected.map SubjectDigest.name).Nodup ∧ (∀ subject ∈ expected, subject.name ∉ names) ∧
      (∀ subject ∈ expected, subject.name ≠ "") ∧ ∀ subject ∈ expected, LowerDigest subject.sha256 := by
  induction expected generalizing names with
  | nil => simp [checkExpected]
  | cons subject rest ih =>
    rw [List.forall_mem_cons, List.forall_mem_cons, List.forall_mem_cons]
    simp only [checkExpected, Bool.and_eq_true, Bool.not_eq_true', ih, isLowerSha256_iff, decide_eq_true_eq, List.map_cons, List.nodup_cons,
      List.mem_map, not_exists, not_and, List.mem_cons, not_or, ← Bool.not_eq_true, List.contains_iff_mem]
    constructor
    · rintro ⟨⟨⟨named, fresh⟩, digest⟩, distinct, others, rest, digests⟩
      exact ⟨⟨fun other member => (others other member).1, distinct⟩, ⟨fresh, fun other member => (others other member).2⟩, ⟨named, rest⟩,
        digest, digests⟩
    · rintro ⟨⟨apart, distinct⟩, ⟨fresh, others⟩, ⟨named, rest⟩, digest, digests⟩
      exact ⟨⟨⟨named, fresh⟩, digest⟩, distinct, fun other member => ⟨apart other member, others other member⟩, rest, digests⟩

theorem lastDigest_some {subjects : List SubjectDigest} {subject : SubjectDigest}
    (found : lastDigest subjects subject.name = some subject.sha256) : subject ∈ subjects := by
  obtain ⟨other, found, same⟩ := Option.map_eq_some_iff.mp found
  have named : other.name = subject.name := by simpa using List.find?_some found
  have member := List.mem_reverse.mp (List.mem_of_find?_eq_some found)
  obtain ⟨_, _⟩ := other
  obtain ⟨_, _⟩ := subject
  cases named
  cases same
  exact member

theorem lastDigest_mem {subjects : List SubjectDigest} (distinct : (subjects.map SubjectDigest.name).Nodup) {subject : SubjectDigest}
    (member : subject ∈ subjects) : lastDigest subjects subject.name = some subject.sha256 := by
  unfold lastDigest
  cases found : subjects.reverse.find? fun other => other.name = subject.name with
  | none => exact absurd (List.find?_eq_none.mp found subject (List.mem_reverse.mpr member)) (by simp)
  | some other =>
    have named : other.name = subject.name := by simpa using List.find?_some found
    have present := List.mem_reverse.mp (List.mem_of_find?_eq_some found)
    rw [List.inj_on_of_nodup_map distinct present member named]
    rfl

/-- Equally many subjects, all of the distinct expected ones among them, are the
expected ones. -/
theorem checkSubjects_iff (statement : Statement) (expected : List SubjectDigest) :
    checkSubjects statement expected = .ok () ↔ Expectable expected ∧ statement.subject.Perm expected := by
  simp only [checkSubjects, bind_ok, rejectIf_ok, exists_unit, checkExpected_iff, not_or, not_lt, not_not]
  constructor
  · rintro ⟨⟨nonempty, bounded⟩, count, ⟨distinct, -, named, digests⟩, apart, lookups⟩
    have subset : expected ⊆ statement.subject := by
      intro subject member
      split at lookups
      · cases lookups
      next absent => exact lastDigest_some (by simpa using List.find?_eq_none.mp absent subject member)
    have within := List.subperm_of_subset (List.Nodup.of_map _ distinct) subset
    exact ⟨⟨List.length_pos_of_ne_nil nonempty, bounded, distinct, named, digests⟩, (within.perm_of_length_le count.le).symm⟩
  · rintro ⟨expectable, same⟩
    have apart : (statement.subject.map SubjectDigest.name).Nodup := (same.map _).nodup_iff.mpr expectable.distinct
    refine ⟨⟨List.ne_nil_of_length_pos expectable.nonempty, expectable.bounded⟩, same.length_eq,
      ⟨expectable.distinct, fun _ _ => List.not_mem_nil, expectable.named, expectable.digests⟩, apart, ?_⟩
    rw [List.find?_eq_none.mpr]
    intro subject member
    simpa using lastDigest_mem apart (same.mem_iff.mpr member)

/-- The check accepts exactly the expected subjects. -/
theorem subjects_exact (statement : Statement) (expected : List SubjectDigest) :
    checkSubjects statement expected = .ok () ↔ Expectable expected ∧ (statement.subject : Multiset SubjectDigest) = expected := by
  rw [checkSubjects_iff, Multiset.coe_eq_coe]

theorem verifyStatement_subjects {L : Libraries} {trust value expected predicateType certificate nowUnixMs verified}
    (ok : L.verifyStatement trust value expected predicateType certificate nowUnixMs = .ok verified) :
    Expectable expected ∧ (verified.subjects : Multiset SubjectDigest) = expected := by
  simp only [Libraries.verifyStatement, bind_ok, mapError_ok, rejectIf_ok, pure_ok, exists_unit] at ok
  obtain ⟨-, _, -, _, -, statement, -, checked, -, _, -, rfl⟩ := ok
  rwa [checkSubjects_iff, ← Multiset.coe_eq_coe] at checked

end StogasVerifier.Sigstore
