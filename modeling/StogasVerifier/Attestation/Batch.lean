import StogasVerifier.Lib.Hashing
import StogasVerifier.Lib.Merkle
import StogasVerifier.Approvals.Keys

/-! Inclusion proofs for channel attestations (`attestation.rs`), and the batches
that the gateway commits to in one report (`quote_batch` of `gateway.rs`). The
hash function is SHA-512. -/

namespace StogasVerifier.Attestation
open Lib Lib.Merkle Approvals

def maxBatchLeaves : Nat := 1024
def maxProofHashes : Nat := 10

variable {H : Hashing 64}

/-- What a leaf commits a channel to. -/
inductive Binding (H : Hashing 64) where
  | nativeTls (environment : Environment) (bootEvidenceSha256 challenge signerSpkiSha256 : List.Vector H.Symbol 32)
  | e2eeSession (environment : Environment) (bootEvidenceSha256 transcriptSha256 : List.Vector H.Symbol 32)

def environmentByte : Environment → Nat
  | .production => 1
  | .staging => 2

def batchDomain (H : Hashing 64) : H.Bytes := text H.toOctets "stogas.quote-batch.v1\x00"
def tlsDomain (H : Hashing 64) : H.Bytes := text H.toOctets "stogas.native-tls.v1\x00"
def e2eeDomain (H : Hashing 64) : H.Bytes := text H.toOctets "stogas.e2ee-session.v1\x00"

/-- The bytes that `leaf_hash` hashes. -/
def Binding.leafInput : Binding H → H.Bytes
  | .nativeTls environment boot challenge signer =>
    [H.u8 0] ++ tlsDomain H ++ [H.u8 (environmentByte environment)] ++ boot.toList ++ challenge.toList ++ signer.toList
  | .e2eeSession environment boot transcript =>
    [H.u8 0] ++ e2eeDomain H ++ [H.u8 (environmentByte environment)] ++ boot.toList ++ transcript.toList

def Binding.leafHash (binding : Binding H) : H.Digest := H.hash binding.leafInput

inductive Error where
  | length | shape | binding
  deriving DecidableEq, Repr

def parentHash (left right : H.Digest) : H.Digest := H.nodeHash left right

def batchReportData (leafCount : Nat) (root : H.Digest) : H.Digest :=
  H.hash (batchDomain H ++ toBe H.toOctets 2 leafCount ++ root.toList)

structure BatchProof (H : Hashing 64) where
  leafCount : Nat
  leafIndex : Nat
  siblings : List H.Digest

namespace BatchProof

/-- The loop of `from_bytes`: how many siblings a leaf has. -/
def pathDepth (count index : Nat) : Nat :=
  if 1 < count then
    if index < split count then pathDepth (split count) index + 1
    else pathDepth (count - split count) (index - split count) + 1
  else 0
termination_by count
decreasing_by
  · exact split_lt (by assumption)
  · exact Nat.sub_lt (by omega) (split_pos count)

def chunksExact : Nat → H.Bytes → List H.Digest
  | 0, _ => []
  | count + 1, bytes =>
    if whole : (bytes.take 64).length = 64 then ⟨bytes.take 64, whole⟩ :: chunksExact count (bytes.drop 64) else []

def fromBytes (bytes : H.Bytes) : Except Error (BatchProof H) :=
  if bytes.length < 4 ∨ 4 + 64 * maxProofHashes < bytes.length ∨ (bytes.length - 4) % 64 ≠ 0 then .error .length
  else
    let leafCount := ofBe H.toOctets (bytes.take 2)
    let leafIndex := ofBe H.toOctets ((bytes.drop 2).take 2)
    if leafCount = 0 ∨ maxBatchLeaves < leafCount ∨ leafCount ≤ leafIndex then .error .shape
    else if pathDepth leafCount leafIndex ≠ (bytes.length - 4) / 64 then .error .shape
    else .ok ⟨leafCount, leafIndex, chunksExact ((bytes.length - 4) / 64) (bytes.drop 4)⟩

/-- The inner loop of `verify_leaf`: levels where the last node has no sibling. -/
def skipLevels (index last : Nat) : Nat × Nat :=
  if index ≠ 0 ∧ index % 2 = 0 then skipLevels (index / 2) (last / 2) else (index, last)
termination_by index
decreasing_by exact Nat.div_lt_self (by omega) (by decide)

/-- The loop of `verify_leaf` over the siblings. -/
def walk : List H.Digest → H.Digest → Nat → Nat → H.Digest × Nat
  | [], root, _, last => (root, last)
  | sibling :: siblings, root, index, last =>
    if index % 2 = 1 ∨ index = last then
      let (index, last) := skipLevels index last
      walk siblings (parentHash sibling root) (index / 2) (last / 2)
    else walk siblings (parentHash root sibling) (index / 2) (last / 2)

def verifyLeaf (proof : BatchProof H) (leaf reportData : H.Digest) : Except Error Unit :=
  let (root, last) := walk proof.siblings leaf proof.leafIndex (proof.leafCount - 1)
  if last ≠ 0 ∨ batchReportData proof.leafCount root ≠ reportData then .error .binding else .ok ()

def verify (proof : BatchProof H) (binding : Binding H) (reportData : H.Digest) : Except Error Unit :=
  proof.verifyLeaf binding.leafHash reportData

def toBytes (proof : BatchProof H) : H.Bytes :=
  toBe H.toOctets 2 proof.leafCount ++ toBe H.toOctets 2 proof.leafIndex ++
    (proof.siblings.map List.Vector.toList).flatten

end BatchProof

/-- The tree hash over some leaves. The path of each leaf receives its siblings,
deepest first. -/
def subtree (leaves : List H.Digest) (filled : 0 < leaves.length) (paths : List (List H.Digest)) :
    H.Digest × List (List H.Digest) :=
  if many : 1 < leaves.length then
    have below := split_lt many
    have above := split_pos leaves.length
    let left := subtree (leaves.take (split leaves.length)) (by rw [List.length_take]; omega) (paths.take (split leaves.length))
    let right := subtree (leaves.drop (split leaves.length)) (by rw [List.length_drop]; omega) (paths.drop (split leaves.length))
    (parentHash left.1 right.1, left.2.map (· ++ [right.1]) ++ right.2.map (· ++ [left.1]))
  else (leaves[0], paths)
termination_by leaves.length
decreasing_by
  · rw [List.length_take]; omega
  · rw [List.length_drop]; omega

inductive GatewayError where
  | input (field : String)
  deriving DecidableEq, Repr

def quoteBatch (leaves : List H.Digest) : Except GatewayError (H.Digest × List (BatchProof H)) :=
  if sized : 1 ≤ leaves.length ∧ leaves.length ≤ maxBatchLeaves then
    let (root, siblings) := subtree leaves sized.1 (List.replicate leaves.length [])
    .ok (batchReportData leaves.length root, siblings.mapIdx fun index siblings => ⟨leaves.length, index, siblings⟩)
  else .error (.input "quote batch size")

end StogasVerifier.Attestation
