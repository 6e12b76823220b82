import StogasVerifier.Evidence.Releases

/-! The sequence of a release tag orders releases as their versions, and a version has
one tag. -/

namespace StogasVerifier.Evidence
open Lib

structure Version where
  major : Nat
  minor : Nat
  patch : Nat
  deriving DecidableEq

namespace Version

def ofTag (tag : String) : Option Version := do
  let rest ← dropStart ['v'] tag.toList
  let [major, minor, patch] := rest.splitOn '.' | none
  return ⟨← parseComponent major, ← parseComponent minor, ← parseComponent patch⟩

def key (version : Version) : ℕ ×ₗ ℕ ×ₗ ℕ := toLex (version.major, toLex (version.minor, version.patch))

def sequence (version : Version) : Nat :=
  version.major * (componentBase * componentBase) + version.minor * componentBase + version.patch

def InRange (version : Version) : Prop := version.minor < componentBase ∧ version.patch < componentBase

instance (version : Version) : Decidable version.InRange := inferInstanceAs (Decidable (_ ∧ _))

def accepted (version : Version) : Option Nat :=
  if version.InRange ∧ 0 < version.sequence ∧ version.sequence ≤ maxSafeInteger then some version.sequence else none

theorem key_lt {version later : Version} : version.key < later.key ↔
    version.major < later.major ∨ version.major = later.major ∧
      (version.minor < later.minor ∨ version.minor = later.minor ∧ version.patch < later.patch) := by
  simp only [key, Prod.Lex.toLex_lt_toLex]

theorem sequence_lt {version later : Version} (inRange : version.InRange) (also : later.InRange) :
    version.sequence < later.sequence ↔ version.key < later.key := by
  obtain ⟨minor, patch⟩ := inRange
  obtain ⟨laterMinor, laterPatch⟩ := also
  simp only [key_lt, sequence, componentBase] at *
  omega

theorem sequence_inj {version later : Version} (inRange : version.InRange) (also : later.InRange)
    (same : version.sequence = later.sequence) : version = later := by
  obtain ⟨minor, patch⟩ := inRange
  obtain ⟨laterMinor, laterPatch⟩ := also
  simp only [sequence, componentBase] at *
  obtain ⟨_, _, _⟩ := version
  obtain ⟨_, _, _⟩ := later
  simp only [mk.injEq] at *
  omega

end Version

private def digitValue (char : Char) : Nat := char.toNat - 48

private theorem digit_lt {char : Char} (digit : char.isDigit = true) : digitValue char < 10 := by
  simp only [Char.isDigit, Bool.and_eq_true, decide_eq_true_eq] at digit
  have high : char.toNat ≤ 57 := digit.2
  unfold digitValue
  omega

private theorem digit_inj {char other : Char} (digit : char.isDigit = true) (also : other.isDigit = true)
    (same : digitValue char = digitValue other) : char = other := by
  simp only [Char.isDigit, Bool.and_eq_true, decide_eq_true_eq] at digit also
  have low : 48 ≤ char.toNat := digit.1
  have otherLow : 48 ≤ other.toNat := also.1
  unfold digitValue at same
  exact Char.toNat_inj.mp (by omega)

private theorem foldl_digits (digits : List Char) :
    digits.foldl (fun total digit => total * 10 + (digit.toNat - 48)) 0 = Nat.ofDigits 10 (digits.map digitValue).reverse := by
  rw [Nat.ofDigits_eq_foldr, List.foldr_reverse, List.foldl_map]
  congr 1
  funext total digit
  simp only [digitValue, Nat.cast_id]
  omega

structure Canonical (part : List Char) : Prop where
  nonempty : part ≠ []
  digits : ∀ char ∈ part, char.isDigit = true
  leading : part.head? = some '0' → part.length ≤ 1

theorem parseComponent_some {part : List Char} {number : Nat} (parsed : parseComponent part = some number) :
    Canonical part ∧ number = Nat.ofDigits 10 (part.map digitValue).reverse := by
  unfold parseComponent at parsed
  split at parsed
  · cases parsed
  next shape =>
    simp only [not_or, not_and, not_not, List.all_eq_true] at shape
    obtain ⟨nonempty, leading, digits⟩ := shape
    obtain ⟨read, -⟩ := Option.filter_eq_some_iff.mp parsed
    unfold Sigstore.parseDigits at read
    split at read
    · cases read
    · rw [foldl_digits] at read
      cases read
      refine ⟨⟨nonempty, digits, fun zero => ?_⟩, rfl⟩
      by_contra long
      exact leading (by omega) zero

private theorem canonical_digits {part : List Char} (canonical : Canonical part) (other : part ≠ ['0']) :
    Nat.digits 10 (Nat.ofDigits 10 (part.map digitValue).reverse) = (part.map digitValue).reverse := by
  apply Nat.digits_ofDigits 10 (by decide)
  · intro digit member
    obtain ⟨char, present, rfl⟩ := List.mem_map.mp (List.mem_reverse.mp member)
    exact digit_lt (canonical.digits char present)
  · intro nonempty
    rw [List.getLast_reverse]
    obtain _ | ⟨first, rest⟩ := part
    · exact absurd rfl canonical.nonempty
    · intro zero
      have same : first = '0' := digit_inj (canonical.digits first (.head _)) rfl zero
      have alone := canonical.leading (congrArg some same)
      have none : rest = [] := List.eq_nil_of_length_eq_zero (Nat.le_zero.mp (Nat.le_of_succ_le_succ alone))
      rw [same, none] at other
      exact other rfl

private theorem map_digits_inj {part other : List Char} (digits : ∀ char ∈ part, char.isDigit = true)
    (also : ∀ char ∈ other, char.isDigit = true) (same : part.map digitValue = other.map digitValue) : part = other := by
  induction part generalizing other with
  | nil => exact (List.map_eq_nil_iff.mp same.symm).symm
  | cons char rest ih =>
    obtain ⟨first, more, rfl, head, tail⟩ := List.map_eq_cons_iff.mp same.symm
    rw [digit_inj (digits char (.head _)) (also first (.head _)) head.symm,
      ih (fun next member => digits next (.tail _ member)) (fun next member => also next (.tail _ member)) tail.symm]

private theorem canonical_zero {other : List Char} (canonical : Canonical other)
    (zero : Nat.ofDigits 10 (other.map digitValue).reverse = 0) : other = ['0'] := by
  by_contra different
  have digits := canonical_digits canonical different
  rw [zero, Nat.digits_zero, eq_comm, List.reverse_eq_nil_iff, List.map_eq_nil_iff] at digits
  exact canonical.nonempty digits

theorem parseComponent_inj {part other : List Char} {number : Nat} (parsed : parseComponent part = some number)
    (again : parseComponent other = some number) : part = other := by
  obtain ⟨canonical, rfl⟩ := parseComponent_some parsed
  obtain ⟨also, same⟩ := parseComponent_some again
  by_cases zero : part = ['0']
  · rw [zero] at same ⊢
    exact (canonical_zero also same.symm).symm
  · by_cases otherZero : other = ['0']
    · rw [otherZero] at same
      exact absurd (canonical_zero canonical same) zero
    · have digits := canonical_digits canonical zero
      rw [same, canonical_digits also otherZero] at digits
      exact map_digits_inj canonical.digits also.digits (List.reverse_injective digits).symm

namespace Version

theorem ofTag_some {tag : String} {version : Version} (read : ofTag tag = some version) :
    ∃ major minor patch, tag.toList = 'v' :: ['.'].intercalate [major, minor, patch] ∧ parseComponent major = some version.major ∧
      parseComponent minor = some version.minor ∧ parseComponent patch = some version.patch := by
  obtain ⟨rest, started, read⟩ := Option.bind_eq_some_iff.mp read
  unfold dropStart at started
  split at started
  next starts =>
    cases started
    obtain ⟨rest, whole⟩ := List.isPrefixOf_iff_prefix.mp starts
    rw [← whole] at read ⊢
    split at read
    next major minor patch parts =>
      obtain ⟨first, parsedMajor, read⟩ := Option.bind_eq_some_iff.mp read
      obtain ⟨second, parsedMinor, read⟩ := Option.bind_eq_some_iff.mp read
      obtain ⟨third, parsedPatch, read⟩ := Option.bind_eq_some_iff.mp read
      cases read
      refine ⟨major, minor, patch, ?_, parsedMajor, parsedMinor, parsedPatch⟩
      rw [← parts, List.intercalate_splitOn]
      rfl
    · cases read
  · cases started

theorem ofTag_inj {tag other : String} {version : Version} (read : ofTag tag = some version) (again : ofTag other = some version) :
    tag = other := by
  obtain ⟨major, minor, patch, whole, parsedMajor, parsedMinor, parsedPatch⟩ := ofTag_some read
  obtain ⟨otherMajor, otherMinor, otherPatch, otherWhole, againMajor, againMinor, againPatch⟩ := ofTag_some again
  apply String.toList_inj.mp
  rw [whole, otherWhole, parseComponent_inj parsedMajor againMajor, parseComponent_inj parsedMinor againMinor,
    parseComponent_inj parsedPatch againPatch]

end Version

theorem checkedMul_some {first second product : Nat} :
    checkedMul first second = some product ↔ first * second < 2 ^ 64 ∧ product = first * second := by
  unfold checkedMul
  split
  next fits => simp only [fits, true_and, Option.some.injEq, eq_comm]
  next large => simp only [large, false_and, reduceCtorEq]

theorem checkedAdd_some {first second sum : Nat} : checkedAdd first second = some sum ↔ first + second < 2 ^ 64 ∧ sum = first + second := by
  unfold checkedAdd
  split
  next fits => simp only [fits, true_and, Option.some.injEq, eq_comm]
  next large => simp only [large, false_and, reduceCtorEq]

/-- What is too large for 64 bits is also too large for a sequence. -/
theorem checked_sequence (version : Version) :
    (do
      let high ← checkedMul version.major (componentBase * componentBase)
      let sum ← checkedAdd high (← checkedMul version.minor componentBase)
      let sequence ← checkedAdd sum version.patch
      if 0 < sequence ∧ sequence ≤ maxSafeInteger then some sequence else none) =
    if 0 < version.sequence ∧ version.sequence ≤ maxSafeInteger then some version.sequence else none := by
  have limit : maxSafeInteger < 2 ^ 64 := by decide
  apply Option.ext
  intro sequence
  simp only [Option.bind_eq_bind, Option.bind_eq_some_iff, checkedMul_some, checkedAdd_some, Option.ite_none_right_eq_some, Option.some.injEq]
  constructor
  · rintro ⟨_, ⟨-, rfl⟩, _, ⟨-, rfl⟩, _, ⟨-, rfl⟩, _, ⟨-, rfl⟩, range, rfl⟩
    exact ⟨range, rfl⟩
  · rintro ⟨range, rfl⟩
    have whole : version.sequence = version.major * (componentBase * componentBase) + version.minor * componentBase + version.patch := rfl
    exact ⟨_, ⟨by omega, rfl⟩, _, ⟨by omega, rfl⟩, _, ⟨by omega, rfl⟩, _, ⟨by omega, rfl⟩, range, rfl⟩

/-- The checked arithmetic agrees with unbounded arithmetic on every tag. -/
theorem gatewayReleaseSequence_eq (tag : String) : gatewayReleaseSequence tag = (Version.ofTag tag).bind Version.accepted := by
  unfold gatewayReleaseSequence Version.ofTag
  cases dropStart ['v'] tag.toList with
  | none => rfl
  | some rest =>
    simp only [Option.bind_eq_bind, Option.bind_some]
    generalize rest.splitOn '.' = parts
    rcases parts with _ | ⟨major, _ | ⟨minor, _ | ⟨patch, _ | _⟩⟩⟩
    case cons.cons.cons.nil =>
      -- The arms of the two matches, whose matchers may be one.
      simp only
      cases parseComponent major with
      | none => rfl
      | some major =>
        cases parseComponent minor with
        | none => rfl
        | some minor =>
          cases parseComponent patch with
          | none => rfl
          | some patch =>
            have checked := checked_sequence ⟨major, minor, patch⟩
            simp only [Option.bind_eq_bind] at checked
            simp only [Option.bind_some, Option.pure_def, Version.accepted, Version.InRange]
            split
            next large =>
              refine (if_neg fun valid => ?_).symm
              omega
            next small =>
              rw [not_or, not_le, not_le] at small
              rw [checked]
              simp only [small, and_self, true_and]
    all_goals rfl

/-- The sequences of two tags compare as their versions, the tag of a sequence is
unique, and no step of the arithmetic wraps. -/
theorem release_order {tag other : String} {first second : Nat} (accepted : gatewayReleaseSequence tag = some first)
    (also : gatewayReleaseSequence other = some second) :
    ∃ version later, Version.ofTag tag = some version ∧ Version.ofTag other = some later ∧
      (first < second ↔ version.key < later.key) ∧ (first = second ↔ version.key = later.key) ∧ (first = second → tag = other) ∧
      first = version.sequence ∧ 1 ≤ first ∧ first ≤ 2 ^ 53 - 1 ∧
      ∀ text, gatewayReleaseSequence text = (Version.ofTag text).bind Version.accepted := by
  have read {text : String} {number : Nat} (sequence : gatewayReleaseSequence text = some number) :
      ∃ version, Version.ofTag text = some version ∧ version.InRange ∧ number = version.sequence ∧ 1 ≤ number ∧ number ≤ maxSafeInteger := by
    rw [gatewayReleaseSequence_eq] at sequence
    obtain ⟨version, tagged, sequence⟩ := Option.bind_eq_some_iff.mp sequence
    unfold Version.accepted at sequence
    split at sequence
    next valid =>
      cases sequence
      exact ⟨version, tagged, valid.1, rfl, valid.2.1, valid.2.2⟩
    · cases sequence
  obtain ⟨version, tagged, inRange, rfl, low, high⟩ := read accepted
  obtain ⟨later, otherTagged, otherRange, rfl, -, -⟩ := read also
  refine ⟨version, later, tagged, otherTagged, Version.sequence_lt inRange otherRange, ?_, ?_, rfl, low, high, gatewayReleaseSequence_eq⟩
  · constructor
    · intro same
      rw [Version.sequence_inj inRange otherRange same]
    · intro same
      cases version
      cases later
      cases same
      rfl
  · intro same
    obtain rfl := Version.sequence_inj inRange otherRange same
    exact Version.ofTag_inj tagged otherTagged

private structure TagEvaluation : Prop where
  first : gatewayReleaseSequence "v0.9.10" = some 9000010
  second : gatewayReleaseSequence "v1.0.0" = some 1000000000000

private theorem tagEvaluation : TagEvaluation := by constructor <;> decide +kernel

theorem release_order_sample : ∃ version later, Version.ofTag "v0.9.10" = some version ∧ Version.ofTag "v1.0.0" = some later ∧
    version.key < later.key := by
  obtain ⟨version, later, tagged, also, order, -⟩ := release_order tagEvaluation.first tagEvaluation.second
  exact ⟨version, later, tagged, also, order.mp (by decide)⟩

end StogasVerifier.Evidence
