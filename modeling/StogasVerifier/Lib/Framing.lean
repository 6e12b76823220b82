import StogasVerifier.Lib.BigEndian
import StogasVerifier.Lib.Fallible

/-! Pieces of a byte string by their lengths. -/

namespace StogasVerifier.Lib

variable {α : Type}

/-- `split_at_checked` -/
def splitAtChecked (input : List α) (length : Nat) : Option (List α × List α) :=
  if length ≤ input.length then some (input.take length, input.drop length) else none

/-- A slice by its bounds, which are absent if they are out of range. -/
def slice (input : List α) (start finish : Nat) : Option (List α) :=
  if start ≤ finish ∧ finish ≤ input.length then some ((input.take finish).drop start) else none

theorem splitAtChecked_some {input front rest : List α} {length : Nat} :
    splitAtChecked input length = some (front, rest) ↔ input = front ++ rest ∧ front.length = length := by
  unfold splitAtChecked
  constructor
  · intro split
    split at split
    next long =>
      cases split
      exact ⟨(List.take_append_drop length input).symm, List.length_take_of_le long⟩
    next => cases split
  · rintro ⟨rfl, rfl⟩
    rw [if_pos (by rw [List.length_append]; omega), List.take_left, List.drop_left]

theorem slice_some {input piece : List α} {start finish : Nat} :
    slice input start finish = some piece ↔ (start ≤ finish ∧ finish ≤ input.length) ∧ (input.take finish).drop start = piece := by
  unfold slice
  split
  next inside => rw [Option.some_inj, and_iff_right inside]
  next outside => exact ⟨nofun, fun held => absurd held.1 outside⟩

theorem slice_middle {front middle rest : List α} {start finish : Nat} (starts : front.length = start)
    (finishes : start + middle.length = finish) : slice (front ++ middle ++ rest) start finish = some middle := by
  subst starts finishes
  apply slice_some.mpr
  rw [← List.length_append, List.take_left, List.drop_left]
  refine ⟨?_, rfl⟩
  simp only [List.length_append]
  omega

theorem slice_last {front last : List α} {start finish : Nat} (starts : front.length = start) (finishes : (front ++ last).length = finish) :
    slice (front ++ last) start finish = some last := by
  subst starts finishes
  apply slice_some.mpr
  rw [List.take_length, List.drop_left, List.length_append]
  exact ⟨⟨Nat.le_add_right .., Nat.le_refl _⟩, rfl⟩

theorem slice_whole (input : List α) : slice input 0 input.length = some input := by
  apply slice_some.mpr
  rw [List.take_length]
  exact ⟨⟨Nat.zero_le _, Nat.le_refl _⟩, rfl⟩

theorem slice_append {input first second : List α} {start middle finish : Nat} (front : slice input start middle = some first)
    (back : slice input middle finish = some second) : slice input start finish = some (first ++ second) := by
  obtain ⟨⟨starts, _⟩, rfl⟩ := slice_some.mp front
  obtain ⟨⟨meets, finishes⟩, rfl⟩ := slice_some.mp back
  apply slice_some.mpr
  refine ⟨⟨Nat.le_trans starts meets, finishes⟩, ?_⟩
  have inside : start ≤ ((input.take finish).take middle).length := by
    rw [List.take_take, List.length_take]
    omega
  calc (input.take finish).drop start
      = ((input.take finish).take middle ++ (input.take finish).drop middle).drop start := by rw [List.take_append_drop]
    _ = ((input.take finish).take middle).drop start ++ (input.take finish).drop middle := List.drop_append_of_le_length inside
    _ = (input.take middle).drop start ++ (input.take finish).drop middle := by rw [List.take_take, Nat.min_eq_left meets]

theorem slice_single {input : List α} {place : Nat} {symbol : α} (found : input[place]? = some symbol) :
    slice input place (place + 1) = some [symbol] := by
  obtain ⟨inside, rfl⟩ := List.getElem?_eq_some_iff.mp found
  apply slice_some.mpr
  refine ⟨⟨Nat.le_succ _, inside⟩, ?_⟩
  rw [List.drop_take, Nat.add_sub_cancel_left, List.take_one, List.head?_drop, found]
  rfl

end StogasVerifier.Lib
