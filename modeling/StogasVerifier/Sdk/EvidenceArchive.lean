import StogasVerifier.Evidence.History
import StogasVerifier.Evidence.Releases
import StogasVerifier.Lib.Json
import StogasVerifier.Sdk.EvidenceClient

/-! Archived evidence (`evidence_archive.rs`): an index names content-addressed objects,
which are downloaded and copied into the bundle that is rebuilt. The objects arrive in any
order into a map, which a list in the order of the names models. -/

namespace StogasVerifier.Sdk.Archive
open Lib
open Std (TreeMap)
open Sigstore (Bytes hexEncode)
open Approvals (maxInputBytes)
open Evidence (checkedAdd maxArchiveBytes)

def maxIndexBytes : Nat := 128 * 1024
def maxObjects : Nat := 1024

def isSha256 (value : String) : Bool :=
  value.utf8ByteSize = 64 ∧ value.toList.all fun char => decide ('0' ≤ char ∧ char ≤ '9') || decide ('a' ≤ char ∧ char ≤ 'f')

structure Collateral where
  der : String
  metadata : List (String × Json)

structure Index where
  schema : String
  bodySha256 : String
  sizes : TreeMap String Nat compare
  sigstore : String
  keys : String
  approvals : String
  vendorCollateral : List Collateral

/-- Reading and writing of JSON, and the digests. -/
structure Formats where
  readValue : Bytes → Except String Json
  readIndex : Bytes → Except String Index
  toVec : Json → Except String Bytes
  sha256 : Bytes → Bytes
  payloadSha256 : Json → Except String String

structure Origin where
  url : String
  answers : String → Response

/-- The loop of `get` over the chunks. -/
def getChunks (url : String) (maxBytes : Nat) (complete : Bool) : List Bytes → Bytes → Except String Bytes
  | [], bytes => if complete then .ok bytes else .error s!"{url}: body"
  | chunk :: chunks, bytes =>
    if maxBytes - bytes.length < chunk.length then .error s!"{url} is too large" else getChunks url maxBytes complete chunks (bytes ++ chunk)

def get (origin : Origin) (path : String) (maxBytes : Nat) : Except String Bytes :=
  let url := origin.url ++ path
  match origin.answers path with
  | .failed => .error s!"{url}: request"
  | .answered status _ _ chunks complete => do
    rejectIf (status ≠ 200) s!"{url} returned HTTP {status}"
    getChunks url maxBytes complete chunks []

namespace Index

/-- The references as they stand in the index, with repetitions. -/
def sources (index : Index) : List String :=
  [index.sigstore, index.keys, index.approvals] ++ index.vendorCollateral.map Collateral.der

/-- A set in the order of its elements. -/
def references (index : Index) : List String := index.sources.dedup.mergeSort (· ≤ ·)

def total (index : Index) : Option Nat := (index.sizes.toList.map Prod.snd).foldlM checkedAdd 0

def parse (F : Formats) (bytes : Bytes) (bodySha256 : String) : Except String Index := do
  let index ← (F.readIndex bytes).mapError fun _ => "invalid evidence archive index"
  rejectIf (¬ (index.schema = "stogas.evidence-archive.v1" ∧ index.bodySha256 = bodySha256)) "evidence archive identity differs"
  rejectIf (¬ (index.references.length ≤ maxObjects ∧ index.references.all isSha256 ∧ index.sizes.size = index.references.length ∧
      (index.references.all fun hash => index.sizes.contains hash) ∧ index.total.any (· ≤ maxInputBytes)))
    "invalid evidence archive references"
  return index

def fetch (F : Formats) (origin : Origin) (index : Index) (hash : String) : Except String Bytes := do
  -- Indexing with a name that has no size would panic.
  let size ← required index.sizes[hash]? "no entry found for key"
  let bytes ← get origin s!"/ledger/objects/{hash}.json" size
  rejectIf (hexEncode (F.sha256 bytes) ≠ hash) s!"evidence object {hash} differs from its digest"
  return bytes

def object (objects : List (String × Json)) (hash : String) : Except String Json :=
  required (objects.lookup hash) "evidence archive object is missing"

/-- `insert` of a map. -/
def setMember (entries : List (String × Json)) (key : String) (value : Json) : List (String × Json) :=
  entries.filter (·.1 ≠ key) ++ [(key, value)]

def assemble (F : Formats) (index : Index) (objects : List (String × Json)) : Except String Bytes := do
  let collateral ← index.vendorCollateral.mapM fun entry =>
    return Json.object (setMember entry.metadata "der_base64url" (← object objects entry.der))
  let body := Json.object [("schema", .string "stogas.confidential-bundle.v1"), ("sigstore", ← object objects index.sigstore),
    ("keys", ← object objects index.keys), ("approvals", ← object objects index.approvals), ("vendor_collateral", .array collateral)]
  rejectIf ((← F.payloadSha256 body) ≠ index.bodySha256) "rebuilt evidence differs from its archived digest"
  F.toVec (.object [("schema", .string "stogas.confidential-bundle-envelope.v1"), ("body_sha256", .string index.bodySha256), ("body", body)])

end Index

def namedEvidence (F : Formats) (boot : Bytes) : Option String :=
  ((F.readValue boot).toOption.bind fun archive => ((archive.get "document").bind (·.get "evidence_sha256")).bind Json.asStr).filter isSha256

/-- `download_from`: the boot archive and the rebuilt evidence. -/
def downloadFrom (F : Formats) (origin : Origin) (bootSha256 : String) : Except String (Bytes × Bytes) := do
  let boot ← get origin s!"/ledger/boots/{bootSha256}.json" maxArchiveBytes
  let evidenceSha256 ← required (namedEvidence F boot) "boot archive names no evidence"
  let index ← Index.parse F (← get origin s!"/ledger/snapshots/{evidenceSha256}.json" maxIndexBytes) evidenceSha256
  let objects ← index.references.mapM fun hash => do
    let bytes ← index.fetch F origin hash
    return (hash, ← F.readValue bytes)
  return (boot, ← index.assemble F objects)

end StogasVerifier.Sdk.Archive
