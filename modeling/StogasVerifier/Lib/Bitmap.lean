import Mathlib

/-! A circular bitmap of machine words. A number has the bit of its residue, so
the map can tell apart the numbers of one window that is no wider than it. -/

namespace StogasVerifier.Lib

abbrev Bitmap (count : Nat) : Type := Vector (BitVec 64) count

namespace Bitmap

variable {count : Nat}

def empty (count : Nat) : Bitmap count := Vector.replicate count 0

def mask (position : Nat) : BitVec 64 := 1#64 <<< (position % 64)

def word (map : Bitmap count) (position : Nat) : BitVec 64 := map.toArray.getD (position / 64) 0

def test (map : Bitmap count) (number : Nat) : Bool :=
  let position := number % (64 * count)
  map.word position &&& mask position != 0

def mark (map : Bitmap count) (number : Nat) : Bitmap count :=
  let position := number % (64 * count)
  map.setIfInBounds (position / 64) (map.word position ||| mask position)

def clear (map : Bitmap count) (number : Nat) : Bitmap count :=
  let position := number % (64 * count)
  map.setIfInBounds (position / 64) (map.word position &&& ~~~ mask position)

private theorem getLsbD_mask (position index : Nat) (inside : index < 64) :
    (mask position).getLsbD index = decide (index = position % 64) := by
  have small : position % 64 < 64 := Nat.mod_lt _ (by decide)
  rw [mask, BitVec.getLsbD_shiftLeft, BitVec.getLsbD_one]
  simp only [inside, decide_true, Bool.true_and, ← decide_not, ← Bool.decide_and, decide_eq_decide]
  omega

private theorem and_mask_ne_zero (bits : BitVec 64) (position : Nat) :
    (bits &&& mask position != 0) = bits.getLsbD (position % 64) := by
  have small : position % 64 < 64 := Nat.mod_lt _ (by decide)
  cases set : bits.getLsbD (position % 64) with
  | true =>
    rw [bne_iff_ne]
    intro zero
    have bit := congrArg (fun word : BitVec 64 => word.getLsbD (position % 64)) zero
    simp [getLsbD_mask _ _ small, set] at bit
  | false =>
    rw [bne_eq_false_iff_eq]
    apply BitVec.eq_of_getLsbD_eq
    intro index inside
    rw [BitVec.getLsbD_and, getLsbD_mask _ _ inside]
    by_cases same : index = position % 64
    · simp [same, set]
    · simp [same]

theorem test_eq (map : Bitmap count) (number : Nat) :
    map.test number = (map.word (number % (64 * count))).getLsbD (number % (64 * count) % 64) :=
  and_mask_ne_zero _ _

private theorem word_set (map : Bitmap count) (value : BitVec 64) (first second : Nat) (inside : first < 64 * count) :
    word (map.setIfInBounds (first / 64) value) second = if first / 64 = second / 64 then value else map.word second := by
  have bound : first / 64 < count := by omega
  simp only [word, Vector.toArray_setIfInBounds, Array.getD_eq_getD_getElem?, Array.getElem?_setIfInBounds]
  split <;> simp_all

private theorem update_test (map : Bitmap count) (change : BitVec 64 → BitVec 64) (first second : Nat) (bit : Bool)
    (width : 0 < count)
    (changed : ∀ bits index, index < 64 → (change bits).getLsbD index =
      if index = first % (64 * count) % 64 then bit else bits.getLsbD index) :
    test (map.setIfInBounds (first % (64 * count) / 64) (change (map.word (first % (64 * count))))) second =
      if first % (64 * count) = second % (64 * count) then bit else map.test second := by
  have inside : first % (64 * count) < 64 * count := Nat.mod_lt _ (by omega)
  have small : second % (64 * count) % 64 < 64 := Nat.mod_lt _ (by decide)
  rw [test_eq, test_eq, word_set _ _ _ _ inside]
  generalize first % (64 * count) = a at *
  generalize second % (64 * count) = b at *
  by_cases same : a / 64 = b / 64
  · have words : map.word a = map.word b := by rw [word, word, same]
    rw [if_pos same, changed _ _ small, words]
    by_cases equal : a = b
    · simp [equal]
    · rw [if_neg equal, if_neg (by omega)]
  · rw [if_neg same, if_neg (fun equal => same (by rw [equal]))]

variable (map : Bitmap count) (first second : Nat) (width : 0 < count)
include width

theorem test_mark : (map.mark first).test second =
    if first % (64 * count) = second % (64 * count) then true else map.test second := by
  apply update_test map (fun bits => bits ||| mask (first % (64 * count))) first second true width
  intro bits index inside
  rw [BitVec.getLsbD_or, getLsbD_mask _ _ inside]
  split
  next here => simp only [here, decide_true, Bool.or_true]
  next elsewhere => simp only [elsewhere, decide_false, Bool.or_false]

theorem test_clear : (map.clear first).test second =
    if first % (64 * count) = second % (64 * count) then false else map.test second := by
  apply update_test map (fun bits => bits &&& ~~~ mask (first % (64 * count))) first second false width
  intro bits index inside
  rw [BitVec.getLsbD_and, BitVec.getLsbD_not, getLsbD_mask _ _ inside]
  split
  next here => simp only [here, decide_true, Bool.not_true, Bool.and_false]
  next elsewhere => simp only [elsewhere, inside, decide_true, decide_false, Bool.not_false, Bool.and_true]

theorem test_foldl_clear (numbers : List Nat) : (numbers.foldl clear map).test second = true ↔
    map.test second = true ∧ ∀ number ∈ numbers, number % (64 * count) ≠ second % (64 * count) := by
  induction numbers generalizing map with
  | nil => simp
  | cons number rest ih =>
    rw [List.foldl_cons, ih, test_clear map number second width, List.forall_mem_cons]
    split
    next same => simp [same]
    next different => simp [different]

omit width in
theorem test_empty (number : Nat) : (empty count).test number = false := by
  rw [test_eq, word, empty, Vector.toArray_replicate, Array.getD_eq_getD_getElem?, Array.getElem?_replicate]
  split <;> simp

end Bitmap
end StogasVerifier.Lib
