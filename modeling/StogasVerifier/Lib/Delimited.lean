import Mathlib

/-! The search for a delimiter in a stream. -/

namespace StogasVerifier.Lib

variable {α : Type*}

section
variable [DecidableEq α] {needle stream : List α}

def search (needle : List α) : List α → Option Nat
  | [] => if needle.isPrefixOf [] then some 0 else none
  | head :: tail => if needle.isPrefixOf (head :: tail) then some 0 else (search needle tail).map (· + 1)

def searchLast (needle : List α) : List α → Option Nat
  | [] => if needle.isPrefixOf [] then some 0 else none
  | head :: tail =>
    match searchLast needle tail with
    | some position => some (position + 1)
    | none => if needle.isPrefixOf (head :: tail) then some 0 else none

theorem searchLast_some {position : Nat} (found : searchLast needle stream = some position) :
    stream = stream.take position ++ needle ++ stream.drop (position + needle.length) := by
  have here {stream : List α} (start : needle.isPrefixOf stream) :
      stream = stream.take 0 ++ needle ++ stream.drop (0 + needle.length) := by
    obtain ⟨rest, rfl⟩ := List.isPrefixOf_iff_prefix.mp start
    rw [Nat.zero_add, List.drop_left]
    rfl
  induction stream generalizing position with
  | nil =>
    rw [searchLast] at found
    split at found
    next start =>
      cases found
      exact here start
    · cases found
  | cons head tail ih =>
    rw [searchLast] at found
    split at found
    next before later =>
      cases found
      have rest := ih later
      rw [Nat.add_right_comm, List.take_succ_cons, List.drop_succ_cons, List.cons_append, List.cons_append, ← rest]
    · split at found
      next start =>
        cases found
        exact here start
      · cases found

theorem searchLast_behind {before rest : List α} {mark : α} (unique : ¬ mark :: needle <:+: needle ++ rest) :
    searchLast (mark :: needle) (before ++ (mark :: needle ++ rest)) = some before.length := by
  induction before with
  | nil =>
    rw [List.nil_append, List.cons_append, searchLast]
    split
    next position found =>
      refine absurd ?_ unique
      rw [searchLast_some found, List.append_assoc]
      exact ⟨_, _, by rw [List.append_assoc]⟩
    next none => exact if_pos (List.isPrefixOf_iff_prefix.mpr ⟨rest, rfl⟩)
  | cons head tail ih => rw [List.cons_append, searchLast, ih, List.length_cons]

end

end StogasVerifier.Lib
