import Mathlib

/-! Calls that may submit a request more than once. A call logs its submissions, of
which some are known to have come to nothing. -/

namespace StogasVerifier.Lib.Resend

variable {α β γ ε : Type} {refused : α → Prop} {late : ε → Prop}

def Tells (refused : α → Prop) (late : ε → Prop) (call : Except ε β × List α) : Prop :=
  ∀ error, call.1 = .error error → (∃ attempt ∈ call.2, ¬ refused attempt) → late error

/-- A call with one submission at most. -/
structure Single (refused : α → Prop) (late : ε → Prop) (call : Except ε β × List α) : Prop where
  one : call.2.length ≤ 1
  tells : Tells refused late call

structure Double (refused : α → Prop) (late : ε → Prop) (call : Except ε β × List α) : Prop where
  two : call.2.length ≤ 2
  earlier : ∀ attempt ∈ call.2.dropLast, refused attempt
  tells : Tells refused late call

variable {call : Except ε β × List α}

theorem Tells.of_refused (all : ∀ attempt ∈ call.2, refused attempt) : Tells refused late call := by
  intro error _ submitted
  obtain ⟨attempt, member, unrefused⟩ := submitted
  exact absurd (all attempt member) unrefused

theorem Tells.of_late (errors : ∀ error, call.1 = .error error → late error) : Tells refused late call :=
  fun error failed _ => errors error failed

theorem Tells.passed {error : ε} {attempts : List α} (tells : Tells refused late ((.error error : Except ε β), attempts)) :
    Tells refused late ((.error error : Except ε γ), attempts) := by
  rintro _ ⟨⟩ submitted
  exact tells error rfl submitted

theorem Single.silent (result : Except ε β) : Single refused late (result, ([] : List α)) :=
  ⟨Nat.zero_le 1, Tells.of_refused nofun⟩

private theorem dropLast_single {attempts : List α} (one : attempts.length ≤ 1) : attempts.dropLast = [] := by
  apply List.length_eq_zero_iff.mp
  rw [List.length_dropLast]
  omega

theorem Single.double (single : Single refused late call) : Double refused late call where
  two := Nat.le_succ_of_le single.one
  earlier attempt member := by
    rw [dropLast_single single.one] at member
    cases member
  tells := single.tells

theorem Single.resent {attempts : List α} (single : Single refused late call) (one : attempts.length ≤ 1)
    (all : ∀ attempt ∈ attempts, refused attempt) : Double refused late (call.1, attempts ++ call.2) where
  two := by
    rw [List.length_append]
    exact Nat.add_le_add one single.one
  earlier attempt member := by
    apply all
    rw [List.dropLast_append, dropLast_single single.one, List.append_nil] at member
    split at member
    · exact List.mem_of_mem_dropLast member
    · exact member
  tells := by
    intro error failed submitted
    apply single.tells error failed
    obtain ⟨attempt, member, unrefused⟩ := submitted
    rcases List.mem_append.mp member with before | after
    · exact absurd (all attempt before) unrefused
    · exact ⟨attempt, after, unrefused⟩

theorem Double.countP_le (double : Double refused late call) {processed : α → Bool}
    (truthful : ∀ attempt ∈ call.2, refused attempt → processed attempt = false) : call.2.countP processed ≤ 1 := by
  rcases List.eq_nil_or_concat call.2 with none | ⟨earlier, last, split⟩
  · simp [none]
  · have unprocessed : earlier.countP processed = 0 := by
      apply List.countP_eq_zero.mpr
      intro attempt member
      have before : attempt ∈ call.2.dropLast := by rwa [split, List.concat_eq_append, List.dropLast_concat]
      rw [truthful attempt (List.mem_of_mem_dropLast before) (double.earlier attempt before)]
      exact Bool.false_ne_true
    rw [split, List.concat_eq_append, List.countP_append, unprocessed, Nat.zero_add]
    exact List.countP_le_length

end StogasVerifier.Lib.Resend
