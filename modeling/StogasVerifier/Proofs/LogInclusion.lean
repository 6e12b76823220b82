import StogasVerifier.Lib.Merkle
import StogasVerifier.Sigstore.Tlog

/-! The inclusion proofs of the transparency log are audit paths, although the
code looks at the levels of the tree in another way than its definition. -/

namespace StogasVerifier.Sigstore
open Lib Lib.Merkle

variable {H : Hashing 32}

theorem expectedProofLength_eq {index size : Nat} (inside : index < size) :
    expectedProofLength index size = (sides size index).length := by
  fun_induction expectedProofLength index size with
  | case1 index size many ih =>
    rw [ih (by omega), sides_halve many inside]
    by_cases promoted : index + 1 = size ∧ index % 2 = 0
    · rw [if_pos promoted, if_pos (by omega), Nat.zero_add]
    · rw [if_neg promoted, if_neg (by omega), List.length_cons, Nat.add_comm]
  | case2 index size single =>
    rw [sides_one (by omega)]
    rfl

theorem hashSiblings_right {index last : Nat} (right : index % 2 = 1 ∨ index = last) (sibling : H.Digest)
    (siblings : List H.Digest) (hash : H.Digest) : hashSiblings (sibling :: siblings) hash index last =
      hashSiblings siblings (H.nodeHash sibling hash) (index / 2) (last / 2) := by
  simp only [hashSiblings, if_pos right]
  rfl

theorem hashSiblings_left {index last : Nat} (left : ¬ (index % 2 = 1 ∨ index = last)) (sibling : H.Digest)
    (siblings : List H.Digest) (hash : H.Digest) : hashSiblings (sibling :: siblings) hash index last =
      hashSiblings siblings (H.nodeHash hash sibling) (index / 2) (last / 2) := by
  simp only [hashSiblings, if_neg left]
  rfl

theorem hashSiblings_edge {path : List Side} (edge : ∀ side ∈ path, side = .right) {siblings : List H.Digest}
    (length : siblings.length = path.length) (index : Nat) (hash : H.Digest) :
    hashSiblings siblings hash index index = climb H.nodeHash hash (path.zip siblings) := by
  induction siblings generalizing path index hash with
  | nil =>
    rw [List.zip_nil_right]
    rfl
  | cons sibling siblings ih =>
    cases path with
    | nil => cases length
    | cons side path =>
      obtain rfl := edge side List.mem_cons_self
      rw [hashSiblings_right (.inr rfl), ih (fun side member => edge side (List.mem_cons_of_mem _ member)) (Nat.succ.inj length)]
      rfl

theorem hashSiblings_climbs {size index : Nat} (inside : index < size) {siblings : List H.Digest} {hash : H.Digest}
    (length : siblings.length = (sides size index).length) :
    hashSiblings siblings hash index (size - 1) = climb H.nodeHash hash ((sides size index).zip siblings) := by
  induction siblings generalizing size index hash with
  | nil =>
    rw [List.zip_nil_right]
    rfl
  | cons sibling siblings ih =>
    by_cases edge : index = size - 1
    · rw [edge] at length ⊢
      exact hashSiblings_edge (sides_last (by omega)) length _ _
    · have many : 1 < size := by omega
      have levels := sides_halve many inside
      rw [if_neg (by omega)] at levels
      have last : (size - 1) / 2 = (size + 1) / 2 - 1 := by omega
      rw [levels] at length ⊢
      by_cases even : index % 2 = 0
      · rw [hashSiblings_left (by omega), last, ih (by omega) (Nat.succ.inj length), side, if_pos even]
        rfl
      · rw [hashSiblings_right (by omega), last, ih (by omega) (Nat.succ.inj length), side, if_neg even]
        rfl

theorem verifyMerkle_ok {body : H.Bytes} {index size : Nat} (inside : index < size) {siblings : List H.Digest} {root : H.Digest} :
    verifyMerkle body index size siblings root = .ok () ↔ siblings.length = (sides size index).length ∧
      climb H.nodeHash (H.leafHash body) ((sides size index).zip siblings) = root := by
  unfold verifyMerkle
  rw [if_neg (by omega), expectedProofLength_eq inside]
  by_cases length : siblings.length = (sides size index).length
  · have climbs : hashSiblings siblings (H.hash (H.u8 0 :: body)) index (size - 1) = _ := hashSiblings_climbs inside length
    simp [length, climbs, Hashing.leafHash]
  · simp [length]

/-- An inclusion proof is accepted exactly if it is of the length of the audit
path and leads to the root along it, and then it fixes the leaf. -/
theorem merkle_audit (body : H.Bytes) (index size : Nat) (siblings : List H.Digest) (root : H.Digest) (word : size < 2 ^ 64)
    (inside : index < size) :
    (verifyMerkle body index size siblings root = .ok () ↔ siblings.length = (sides size index).length ∧
      climb H.nodeHash (H.leafHash body) ((sides size index).zip siblings) = root) ∧
    expectedProofLength index size = (sides size index).length ∧ expectedProofLength index size ≤ 64 ∧
    ∀ data : Nat → H.Bytes, treeHash H.nodeHash (fun place => H.leafHash (data place)) 0 size = root →
      (auditPath H.nodeHash (fun place => H.leafHash (data place)) 0 size index).length = expectedProofLength index size ∧
      verifyMerkle (data index) index size (auditPath H.nodeHash (fun place => H.leafHash (data place)) 0 size index) root = .ok () ∧
      (H.CollisionFree → verifyMerkle body index size siblings root = .ok () →
        body = data index ∧ siblings = auditPath H.nodeHash (fun place => H.leafHash (data place)) 0 size index) := by
  have expected := expectedProofLength_eq inside
  refine ⟨verifyMerkle_ok inside, expected, expected ▸ sides_length_le (Nat.le_of_lt word), ?_⟩
  intro data tree
  have length : (auditPath H.nodeHash (fun place => H.leafHash (data place)) 0 size index).length = (sides size index).length :=
    auditPath_length (Nat.zero_lt_of_lt inside)
  have climbs := @climb_auditPath _ H.nodeHash (fun place => H.leafHash (data place)) 0 size index inside
  rw [Nat.zero_add, tree] at climbs
  refine ⟨length.trans expected.symm, (verifyMerkle_ok inside).mpr ⟨length, climbs⟩, ?_⟩
  intro free accepted
  obtain ⟨minimal, reaches⟩ := (verifyMerkle_ok inside).mp accepted
  obtain ⟨leaf, path⟩ := climb_sound free.node inside minimal (reaches.trans tree.symm)
  rw [Nat.zero_add] at leaf
  exact ⟨free.leaf leaf, path⟩

def sampleLog (place : Nat) : (Hashing.free 31).Bytes := ([place] : List Nat)

theorem merkle_audit_sample : ∃ siblings root, siblings.length = 1 ∧ expectedProofLength 2 3 = 1 ∧
    verifyMerkle (H := Hashing.free 31) (sampleLog 2) 2 3 siblings root = .ok () ∧
    ∀ body, verifyMerkle (H := Hashing.free 31) body 2 3 siblings root = .ok () → body = sampleLog 2 := by
  have audit (body : (Hashing.free 31).Bytes) (siblings : List (Hashing.free 31).Digest) (root : (Hashing.free 31).Digest) :=
    merkle_audit body 2 3 siblings root (by decide) (by decide)
  have one : expectedProofLength 2 3 = 1 := by simp [expectedProofLength]
  obtain ⟨-, -, -, fixes⟩ := audit (sampleLog 2) [] (treeHash (Hashing.free 31).nodeHash
    (fun place => (Hashing.free 31).leafHash (sampleLog place)) 0 3)
  obtain ⟨length, accepted, -⟩ := fixes sampleLog rfl
  refine ⟨_, _, length.trans one, one, accepted, ?_⟩
  intro body also
  obtain ⟨-, -, -, fixes⟩ := audit body _ _
  exact ((fixes sampleLog rfl).2.2 (Hashing.free_collisionFree 31) also).1

end StogasVerifier.Sigstore
