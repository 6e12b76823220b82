import Mathlib

/-! Checks that end a computation in `Except`, and inversion of successful ones. -/

namespace StogasVerifier.Lib

universe u v
variable {ε : Type u} {α β : Type v}

def rejectIf (condition : Prop) [Decidable condition] (error : ε) : Except ε Unit :=
  if condition then .error error else .ok ()

def required (value : Option α) (error : ε) : Except ε α :=
  match value with
  | some value => .ok value
  | none => .error error

theorem bind_ok {first : Except ε α} {next : α → Except ε β} {result : β} :
    (first >>= next) = .ok result ↔ ∃ value, first = .ok value ∧ next value = .ok result := by
  cases first <;> simp [bind, Except.bind]

theorem ok_bind (value : α) (next : α → Except ε β) : (Except.ok value >>= next) = next value := rfl

theorem throw_ok {error : ε} {result : α} : (throw error : Except ε α) = .ok result ↔ False := by
  simp [throw, throwThe, MonadExceptOf.throw]

theorem pure_ok {value result : α} : (pure value : Except ε α) = .ok result ↔ value = result := by
  simp [pure, Except.pure]

theorem exists_unit {holds : Unit → Prop} : (∃ done, holds done) ↔ holds () :=
  ⟨fun found => found.elim fun _ held => held, fun held => ⟨(), held⟩⟩

theorem rejectIf_ok {condition : Prop} [Decidable condition] {error : ε} {done : Unit} :
    rejectIf condition error = .ok done ↔ ¬ condition := by
  unfold rejectIf
  split <;> simp_all

theorem required_ok {value : Option α} {error : ε} {result : α} : required value error = .ok result ↔ value = some result := by
  cases value <;> simp [required]

theorem mapError_ok {δ : Type u} {first : Except ε α} {change : ε → δ} {result : α} :
    first.mapError change = .ok result ↔ first = .ok result := by
  cases first <;> simp [Except.mapError]

theorem map_ok {first : Except ε α} {change : α → β} {result : β} :
    first.map change = .ok result ↔ ∃ value, first = .ok value ∧ change value = result := by
  cases first <;> simp [Except.map]

theorem toOption_some {first : Except ε α} {result : α} : first.toOption = some result ↔ first = .ok result := by
  cases first <;> simp [Except.toOption]

theorem mapM_ok {γ δ : Type} {write : γ → Except ε δ} {items : List γ} {parts : List δ} :
    items.mapM write = .ok parts ↔ List.Forall₂ (fun item part => write item = .ok part) items parts := by
  induction items generalizing parts with
  | nil =>
    rw [List.mapM_nil, pure_ok, List.forall₂_nil_left_iff]
    exact eq_comm
  | cons item items ih =>
    rw [List.mapM_cons, List.forall₂_cons_left_iff]
    constructor
    · intro written
      obtain ⟨part, first, written⟩ := bind_ok.mp written
      obtain ⟨more, later, written⟩ := bind_ok.mp written
      exact ⟨part, more, first, ih.mp later, (pure_ok.mp written).symm⟩
    · rintro ⟨part, more, first, later, rfl⟩
      exact bind_ok.mpr ⟨part, first, bind_ok.mpr ⟨more, ih.mpr later, rfl⟩⟩

/-- Whatever the first computation returns, the second returns too. -/
def Keeps (first second : Except ε α) : Prop := ∀ ⦃result⦄, first = .ok result → second = .ok result

namespace Keeps
variable {first second : Except ε α}

theorem refl (first : Except ε α) : Keeps first first := fun _ ok => ok

theorem bind {next after : α → Except ε β} (start : Keeps first second)
    (rest : ∀ value, first = .ok value → Keeps (next value) (after value)) : Keeps (first >>= next) (second >>= after) := by
  intro result ok
  obtain ⟨value, ran, finished⟩ := bind_ok.mp ok
  exact bind_ok.mpr ⟨value, start ran, rest value ran finished⟩

theorem after {next later : α → Except ε β} (rest : ∀ value, first = .ok value → Keeps (next value) (later value)) :
    Keeps (first >>= next) (first >>= later) :=
  (refl first).bind rest

theorem mapError {δ : Type u} (kept : Keeps first second) (change : ε → δ) :
    Keeps (first.mapError change) (second.mapError change) :=
  fun _ ok => mapError_ok.mpr (kept (mapError_ok.mp ok))

theorem rejectIf {condition other : Prop} [Decidable condition] [Decidable other] {error : ε} (weaker : other → condition) :
    Keeps (rejectIf condition error) (Lib.rejectIf other error) :=
  fun _ ok => rejectIf_ok.mpr fun held => rejectIf_ok.mp ok (weaker held)

end Keeps

/-- The computation does not end in this error. -/
def Avoids (first : Except ε α) (error : ε) : Prop := first ≠ .error error

namespace Avoids
variable {first : Except ε α} {error : ε}

theorem ok (value : α) : Avoids (.ok value) error := nofun

theorem other {reason : ε} (different : reason ≠ error) : Avoids (.error reason : Except ε α) error :=
  fun same => different (Except.error.inj same)

theorem bind {next : α → Except ε β} (start : Avoids first error) (rest : ∀ value, first = .ok value → Avoids (next value) error) :
    Avoids (first >>= next) error := by
  cases first with
  | error reason => exact fun same => start (congrArg Except.error (Except.error.inj same))
  | ok value => exact rest value rfl

theorem rejectIf {condition : Prop} [Decidable condition] {reason : ε} (different : reason ≠ error) :
    Avoids (Lib.rejectIf condition reason) error := by
  unfold Lib.rejectIf
  split
  · exact other different
  · exact ok ()

theorem required {value : Option α} {reason : ε} (different : reason ≠ error) : Avoids (Lib.required value reason) error := by
  cases value with
  | none => exact other different
  | some value => exact ok value

theorem present {value : Option α} {reason : ε} (held : value.isSome) : Avoids (Lib.required value reason) error := by
  cases value with
  | none => cases held
  | some value => exact ok value

theorem mapError {δ : Type u} {change : ε → δ} {bad : δ} (avoids : ∀ reason, first = .error reason → change reason ≠ bad) :
    Avoids (first.mapError change) bad := by
  cases first with
  | error reason => exact other (avoids reason rfl)
  | ok value => exact ok value

end Avoids

/-- Both computations fail alike, or both return, with related results. -/
inductive SameOutcome (related : α → β → Prop) : Except ε α → Except ε β → Prop
  | error (error : ε) : SameOutcome related (.error error) (.error error)
  | ok {first : α} {second : β} (results : related first second) : SameOutcome related (.ok first) (.ok second)

namespace SameOutcome
variable {γ δ : Type v} {related : α → β → Prop} {first : Except ε α} {second : Except ε β}

theorem bind {outer : γ → δ → Prop} {next : α → Except ε γ} {after : β → Except ε δ} (start : SameOutcome related first second)
    (rest : ∀ one two, related one two → SameOutcome outer (next one) (after two)) :
    SameOutcome outer (first >>= next) (second >>= after) := by
  cases start with
  | error error => exact .error error
  | ok results => exact rest _ _ results

theorem after {outer : γ → δ → Prop} {first : Except ε α} {next : α → Except ε γ} {later : α → Except ε δ}
    (rest : ∀ value, first = .ok value → SameOutcome outer (next value) (later value)) :
    SameOutcome outer (first >>= next) (first >>= later) := by
  cases first with
  | error error => exact .error error
  | ok value => exact rest value rfl

end SameOutcome
end StogasVerifier.Lib
