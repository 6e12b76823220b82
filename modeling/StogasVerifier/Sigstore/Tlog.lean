import StogasVerifier.Lib.Hashing

/-! Inclusion proofs of the transparency log (`verify_merkle` of `tlog.rs`). The
hash function is SHA-256, and indices and sizes are 64-bit words. -/

namespace StogasVerifier.Sigstore
open Lib

def maxProofHashes : Nat := 64

variable {H : Hashing 32}

def expectedProofLength (index size : Nat) : Nat :=
  if 1 < size then
    (if size % 2 = 1 ∧ index = size - 1 then 0 else 1) + expectedProofLength (index / 2) ((size + 1) / 2)
  else 0
termination_by size
decreasing_by omega

/-- The loop of `verify_merkle` over the siblings. -/
def hashSiblings : List H.Digest → H.Digest → Nat → Nat → H.Digest
  | [], hash, _, _ => hash
  | sibling :: siblings, hash, index, lastNode =>
    let (left, right) := if index % 2 = 1 ∨ index = lastNode then (sibling, hash) else (hash, sibling)
    hashSiblings siblings (H.hash ([H.u8 1] ++ left.toList ++ right.toList)) (index / 2) (lastNode / 2)

def verifyMerkle (body : H.Bytes) (leafIndex treeSize : Nat) (siblings : List H.Digest) (expectedRoot : H.Digest) :
    Except String Unit :=
  if treeSize = 0 ∨ treeSize ≤ leafIndex then .error "Rekor inclusion proof has an invalid index or tree size"
  else
    let count := siblings.length
    let expected := expectedProofLength leafIndex treeSize
    if count ≠ expected then .error s!"Rekor inclusion proof has {count} siblings; expected {expected}"
    else if hashSiblings siblings (H.hash (H.u8 0 :: body)) leafIndex (treeSize - 1) ≠ expectedRoot then
      .error "Rekor inclusion proof root differs"
    else .ok ()

end StogasVerifier.Sigstore
