import Mathlib

/-! Merkle trees that split at the largest power of two below their size, as in
RFC 6962 and RFC 9162. The tree over a function from places to leaves is never
built: its hash, the audit path of a leaf and the side of each node on the way
up are computed from the size. -/

namespace StogasVerifier.Lib.Merkle

/-- The size of the left subtree: the largest power of two below the size. -/
def split (size : Nat) : Nat := 2 ^ (size - 1).log2

variable {size : Nat}

theorem split_eq {power : Nat} (low : 2 ^ power < size) (high : size ≤ 2 ^ (power + 1)) : split size = 2 ^ power := by
  have log : (size - 1).log2 = power := (Nat.log2_eq_iff (by omega)).mpr ⟨by omega, by omega⟩
  rw [split, log]

theorem split_spec (many : 1 < size) :
    ∃ power, split size = 2 ^ power ∧ 2 ^ power < size ∧ size ≤ 2 ^ (power + 1) := by
  obtain ⟨low, high⟩ := (Nat.log2_eq_iff (by omega : size - 1 ≠ 0)).mp rfl
  exact ⟨_, rfl, by omega, by omega⟩

theorem split_pos (size : Nat) : 0 < split size := Nat.two_pow_pos _

theorem split_lt (many : 1 < size) : split size < size := by
  obtain ⟨power, same, low, -⟩ := split_spec many
  rwa [same]

theorem split_halve (many : 2 < size) : split size = 2 * split ((size + 1) / 2) := by
  obtain ⟨power, same, low, high⟩ := split_spec (by omega : 1 < size)
  cases power with
  | zero => omega
  | succ power =>
    rw [pow_succ] at low
    rw [pow_succ, pow_succ] at high
    rw [same, split_eq (by omega : 2 ^ power < (size + 1) / 2) (by rw [pow_succ]; omega), pow_succ, Nat.mul_comm]

theorem split_induction {motive : (size : Nat) → 0 < size → Prop} (one : motive 1 Nat.one_pos)
    (node : ∀ size (many : 1 < size), motive (split size) (split_pos size) →
      motive (size - split size) (Nat.sub_pos_of_lt (split_lt many)) → motive size (Nat.zero_lt_of_lt many))
    (size : Nat) (filled : 0 < size) : motive size filled := by
  induction size using Nat.strong_induction_on with
  | _ size ih =>
    by_cases many : 1 < size
    · exact node size many (ih _ (split_lt many) _) (ih _ (Nat.sub_lt filled (split_pos size)) _)
    · obtain rfl : size = 1 := by omega
      exact one

/-- The side of a node under its parent. -/
inductive Side where
  | left | right
  deriving DecidableEq

/-- The sides of the nodes from a leaf up to the root. -/
def sides (size index : Nat) : List Side :=
  if 1 < size then
    if index < split size then sides (split size) index ++ [.left]
    else sides (size - split size) (index - split size) ++ [.right]
  else []
termination_by size
decreasing_by
  · exact split_lt (by assumption)
  · exact Nat.sub_lt (by omega) (split_pos size)

theorem sides_one (single : size ≤ 1) (index : Nat) : sides size index = [] := by
  rw [sides, if_neg (by omega)]

theorem sides_left {index : Nat} (many : 1 < size) (left : index < split size) :
    sides size index = sides (split size) index ++ [.left] := by
  rw [sides, if_pos many, if_pos left]

theorem sides_right {index : Nat} (many : 1 < size) (right : split size ≤ index) :
    sides size index = sides (size - split size) (index - split size) ++ [.right] := by
  rw [sides, if_pos many, if_neg (by omega)]

theorem sides_ne_nil (many : 1 < size) (index : Nat) : sides size index ≠ [] := by
  by_cases left : index < split size
  · rw [sides_left many left]
    exact List.concat_ne_nil _ _
  · rw [sides_right many (by omega)]
    exact List.concat_ne_nil _ _

/-- The side of a node by its place in its level. -/
def side (index : Nat) : Side := if index % 2 = 0 then .left else .right

/-- One level up. A last node without a sibling is promoted. -/
theorem sides_halve {index : Nat} (many : 1 < size) (inside : index < size) :
    sides size index = if index + 1 = size ∧ index % 2 = 0 then sides ((size + 1) / 2) (index / 2)
      else side index :: sides ((size + 1) / 2) (index / 2) := by
  induction size using Nat.strong_induction_on generalizing index with
  | _ size ih =>
    by_cases two : size = 2
    · subst two
      have one : split 2 = 1 := rfl
      rw [sides_one (by decide : (2 + 1) / 2 ≤ 1)]
      match index, inside with
      | 0, _ => rw [sides_left many (by omega), one, sides_one (Nat.le_refl 1)]; rfl
      | 1, _ => rw [sides_right many (by omega), one, sides_one (Nat.le_refl 1)]; rfl
    · have halves := split_halve (by omega : 2 < size)
      have below := split_lt many
      have upper : 1 < (size + 1) / 2 := by omega
      have smaller := split_lt upper
      generalize half : split ((size + 1) / 2) = width at halves smaller
      have positive : 0 < width := half ▸ split_pos _
      by_cases left : index < split size
      · have up : sides ((size + 1) / 2) (index / 2) = sides width (index / 2) ++ [.left] := by
          rw [sides_left upper (by omega), half]
        rw [sides_left many left, ih _ below (by omega) left, up, if_neg (by omega), if_neg (by omega), halves,
          (by omega : (2 * width + 1) / 2 = width), List.cons_append]
      · have up : sides ((size + 1) / 2) (index / 2) = sides ((size + 1) / 2 - width) (index / 2 - width) ++ [.right] := by
          rw [sides_right upper (by omega), half]
        rw [sides_right many (by omega), up]
        by_cases single : size - split size = 1
        · rw [if_pos (by omega), sides_one (by omega), sides_one (by omega)]
        · have parity : side (index - split size) = side index := by
            unfold side
            rw [(by omega : (index - split size) % 2 = index % 2)]
          rw [ih _ (by omega) (by omega) (by omega), parity, (by omega : (size - split size + 1) / 2 = (size + 1) / 2 - width),
            (by omega : (index - split size) / 2 = index / 2 - width)]
          by_cases promoted : index + 1 = size ∧ index % 2 = 0
          · rw [if_pos promoted, if_pos (by omega)]
          · rw [if_neg promoted, if_neg (by omega), List.cons_append]

theorem sides_last (filled : 0 < size) : ∀ side ∈ sides size (size - 1), side = .right := by
  induction size, filled using split_induction with
  | one =>
    rw [sides_one (Nat.le_refl 1)]
    nofun
  | node size many _ right =>
    have below := split_lt many
    intro side member
    rw [sides_right many (by omega), (by omega : size - 1 - split size = size - split size - 1)] at member
    rcases List.mem_append.mp member with lower | top
    · exact right side lower
    · exact List.mem_singleton.mp top

/-- A tree of at most `2 ^ height` leaves has at most that height. -/
theorem sides_length_le {index height : Nat} (fits : size ≤ 2 ^ height) : (sides size index).length ≤ height := by
  induction height generalizing size index with
  | zero =>
    rw [sides_one fits]
    rfl
  | succ height ih =>
    by_cases many : 1 < size
    · obtain ⟨power, same, low, high⟩ := split_spec many
      have order : power ≤ height := by
        have := (Nat.pow_lt_pow_iff_right (by decide : 1 < 2)).mp (low.trans_le fits)
        omega
      have small : split size ≤ 2 ^ height := same ▸ Nat.pow_le_pow_right (by decide) order
      rw [pow_succ] at high
      by_cases left : index < split size
      · rw [sides_left many left, List.length_append]
        exact Nat.succ_le_succ (ih small)
      · rw [sides_right many (by omega), List.length_append]
        exact Nat.succ_le_succ (ih (by omega))
    · rw [sides_one (by omega)]
      exact Nat.zero_le _

variable {α : Type} (node : α → α → α)

def climb (hash : α) : List (Side × α) → α
  | [] => hash
  | (.left, sibling) :: rest => climb (node hash sibling) rest
  | (.right, sibling) :: rest => climb (node sibling hash) rest

theorem climb_append (hash : α) (lower upper : List (Side × α)) :
    climb node hash (lower ++ upper) = climb node (climb node hash lower) upper := by
  induction lower generalizing hash with
  | nil => rfl
  | cons step lower ih =>
    obtain ⟨side, sibling⟩ := step
    cases side with
    | left => exact ih _
    | right => exact ih _

/-- The hash of the tree over the leaves from `start` on. -/
def treeHash (leaf : Nat → α) (start size : Nat) : α :=
  if 1 < size then node (treeHash leaf start (split size)) (treeHash leaf (start + split size) (size - split size))
  else leaf start
termination_by size
decreasing_by
  · exact split_lt (by assumption)
  · exact Nat.sub_lt (by omega) (split_pos size)

def auditPath (leaf : Nat → α) (start size index : Nat) : List α :=
  if 1 < size then
    if index < split size then
      auditPath leaf start (split size) index ++ [treeHash node leaf (start + split size) (size - split size)]
    else auditPath leaf (start + split size) (size - split size) (index - split size) ++ [treeHash node leaf start (split size)]
  else []
termination_by size
decreasing_by
  · exact split_lt (by assumption)
  · exact Nat.sub_lt (by omega) (split_pos size)

section Paths

variable {node} {leaf : Nat → α} {start size index : Nat}

theorem treeHash_one (single : size ≤ 1) : treeHash node leaf start size = leaf start := by
  rw [treeHash, if_neg (by omega)]

theorem treeHash_node (many : 1 < size) : treeHash node leaf start size =
    node (treeHash node leaf start (split size)) (treeHash node leaf (start + split size) (size - split size)) := by
  rw [treeHash, if_pos many]

theorem auditPath_one (single : size ≤ 1) : auditPath node leaf start size index = [] := by
  rw [auditPath, if_neg (by omega)]

theorem auditPath_left (many : 1 < size) (left : index < split size) : auditPath node leaf start size index =
    auditPath node leaf start (split size) index ++ [treeHash node leaf (start + split size) (size - split size)] := by
  rw [auditPath, if_pos many, if_pos left]

theorem auditPath_right (many : 1 < size) (right : split size ≤ index) : auditPath node leaf start size index =
    auditPath node leaf (start + split size) (size - split size) (index - split size) ++
      [treeHash node leaf start (split size)] := by
  rw [auditPath, if_pos many, if_neg (by omega)]

theorem auditPath_length (filled : 0 < size) : (auditPath node leaf start size index).length = (sides size index).length := by
  induction size, filled using split_induction generalizing start index with
  | one => rw [auditPath_one (Nat.le_refl 1), sides_one (Nat.le_refl 1)]; rfl
  | node size many left right =>
    by_cases side : index < split size
    · rw [auditPath_left many side, sides_left many side, List.length_append, List.length_append, left]
      rfl
    · rw [auditPath_right many (by omega), sides_right many (by omega), List.length_append, List.length_append, right]
      rfl

theorem climb_snoc (hash : α) {sides : List Side} {siblings : List α} (same : siblings.length = sides.length) (side : Side)
    (sibling : α) : climb node hash ((sides ++ [side]).zip (siblings ++ [sibling])) =
      climb node (climb node hash (sides.zip siblings)) [(side, sibling)] := by
  rw [List.zip_append same.symm, climb_append]
  rfl

theorem climb_auditPath (inside : index < size) :
    climb node (leaf (start + index)) ((sides size index).zip (auditPath node leaf start size index)) =
      treeHash node leaf start size := by
  have filled := Nat.zero_lt_of_lt inside
  induction size, filled using split_induction generalizing start index with
  | one =>
    cases Nat.lt_one_iff.mp inside
    rw [sides_one (Nat.le_refl 1), treeHash_one (Nat.le_refl 1)]
    rfl
  | node size many left right =>
    have below := split_lt many
    have above := split_pos size
    rw [treeHash_node many]
    by_cases side : index < split size
    · rw [sides_left many side, auditPath_left many side, climb_snoc _ (auditPath_length above), left side]
      rfl
    · have place : start + index = start + split size + (index - split size) := by omega
      rw [sides_right many (by omega), auditPath_right many (by omega), climb_snoc _ (auditPath_length (by omega)), place,
        right (by omega)]
      rfl

private theorem snoc_of_length {siblings : List α} {count : Nat} (length : siblings.length = count + 1) :
    ∃ lower top, siblings = lower ++ [top] ∧ lower.length = count := by
  cases siblings using List.reverseRecOn with
  | nil => cases length
  | append_singleton lower top => exact ⟨lower, top, rfl, by rw [List.length_append] at length; exact Nat.succ.inj length⟩

/-- What climbs to the hash of a tree is the leaf at that place, and the path is
its audit path. -/
theorem climb_sound (injective : ∀ {left right left' right' : α}, node left right = node left' right' → left = left' ∧ right = right')
    (inside : index < size) {hash : α} {siblings : List α} (length : siblings.length = (sides size index).length)
    (climbs : climb node hash ((sides size index).zip siblings) = treeHash node leaf start size) :
    hash = leaf (start + index) ∧ siblings = auditPath node leaf start size index := by
  have filled := Nat.zero_lt_of_lt inside
  induction size, filled using split_induction generalizing start index siblings with
  | one =>
    cases Nat.lt_one_iff.mp inside
    rw [sides_one (Nat.le_refl 1)] at climbs length
    rw [treeHash_one (Nat.le_refl 1)] at climbs
    rw [auditPath_one (Nat.le_refl 1)]
    exact ⟨climbs, List.length_eq_zero_iff.mp length⟩
  | node size many left right =>
    have below := split_lt many
    have above := split_pos size
    rw [treeHash_node many] at climbs
    by_cases side : index < split size
    · rw [sides_left many side] at climbs length
      obtain ⟨lower, top, rfl, short⟩ := snoc_of_length (length.trans List.length_append)
      rw [climb_snoc _ short] at climbs
      obtain ⟨reached, rfl⟩ := injective climbs
      obtain ⟨found, rfl⟩ := left side short reached
      exact ⟨found, (auditPath_left many side).symm⟩
    · rw [sides_right many (by omega)] at climbs length
      obtain ⟨lower, top, rfl, short⟩ := snoc_of_length (length.trans List.length_append)
      rw [climb_snoc _ short] at climbs
      obtain ⟨rfl, reached⟩ := injective climbs
      obtain ⟨found, rfl⟩ := right (by omega) short reached
      rw [(by omega : start + split size + (index - split size) = start + index)] at found
      exact ⟨found, (auditPath_right many (by omega)).symm⟩

end Paths

end StogasVerifier.Lib.Merkle
