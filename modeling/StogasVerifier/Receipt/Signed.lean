import StogasVerifier.Evidence.Session
import StogasVerifier.Receipt.Buffered

/-! One signature over exact content hashes and the metadata (`receipt.rs`). -/

namespace StogasVerifier.Receipt
open Lib
open Sigstore (Bytes hexEncode)

def schema : String := "stogas.receipt.v1"
def maxBytes : Nat := 5 * 1024
def signingPublicKeyBytes : Nat := 1952 + 32
def signatureBytes : Nat := 3309 + 64

abbrev Digest := List.Vector UInt8 32

/-- What receipts take from other libraries. -/
structure Libraries where
  strictJson : Bytes → Except String Json
  /-- `serde_json::to_vec` -/
  toVec : Json → Except String Bytes
  /-- `serde_json_canonicalizer::to_vec` of an object -/
  canonicalize : List (String × Json) → Except String Bytes
  sha256 : Bytes → Digest
  urlSafeDecode : String → Except String Bytes
  urlSafeEncode : Bytes → String
  verifySigning : Bytes → Bytes → Bytes → Except String Unit

/-- A member is replaced where it stands, or added behind the others. -/
def insertMember (entries : List (String × Json)) (name : String) (value : Json) : List (String × Json) :=
  match entries.findIdx? (·.1 = name) with
  | some position => entries.set position (name, value)
  | none => entries ++ [(name, value)]

/-- `Map::remove` where the order of members is kept: the last one takes the place. -/
def removeMember (entries : List (String × Json)) (name : String) : List (String × Json) :=
  match entries.findIdx? (·.1 = name), entries.getLast? with
  | some position, some last => (entries.set position last).dropLast
  | _, _ => entries

namespace Signed

inductive Error where
  | invalid
  | content
  | identity
  | signature
  deriving DecidableEq, Repr

end Signed

structure ContentReceipt where
  schema : String
  bootSha256 : String
  requestSha256 : String
  responseSha256 : String
  signature : String
  deriving DecidableEq, Repr

structure VerifiedReceipt where
  nodeId : String
  bootSha256 : String
  requestSha256 : String
  responseSha256 : String

def message (request response metadata : Digest) : Bytes :=
  ascii schema ++ [0] ++ request.toList ++ response.toList ++ metadata.toList

namespace ContentReceipt

def fields : List String := ["schema", "boot_sha256", "request_sha256", "response_sha256", "signature"]

def members (receipt : ContentReceipt) : List (String × String) :=
  fields.zip [receipt.schema, receipt.bootSha256, receipt.requestSha256, receipt.responseSha256, receipt.signature]

/-- `serde_json::to_value` -/
def value (receipt : ContentReceipt) : Json := .object (receipt.members.map fun member => (member.1, .string member.2))

/-- `serde_json::from_value`: an object with these members and no other, or an array in
their order. -/
def ofValue : Json → Option ContentReceipt
  | .object entries => do
    let field (name : String) : Option String := (entries.lookup name).bind Json.asStr
    if entries.all fun entry => fields.contains entry.1 then
      return {
        schema := ← field "schema"
        bootSha256 := ← field "boot_sha256"
        requestSha256 := ← field "request_sha256"
        responseSha256 := ← field "response_sha256"
        signature := ← field "signature" }
    else none
  | .array [.string schema, .string bootSha256, .string requestSha256, .string responseSha256, .string signature] =>
    some { schema, bootSha256, requestSha256, responseSha256, signature }
  | _ => none

end ContentReceipt

namespace Libraries
variable (L : Libraries)

/-- Unpadded base64url in its one form. -/
def decode (value : String) : Except Signed.Error Bytes := do
  let bytes ← (L.urlSafeDecode value).mapError fun _ => .invalid
  rejectIf (L.urlSafeEncode bytes ≠ value) .invalid
  return bytes

def metadataDigest (metadata : Json) : Except Signed.Error Digest := do
  let object ← required metadata.asObject .invalid
  let canonical ← (L.canonicalize (removeMember object "receipt")).mapError fun _ => .invalid
  rejectIf (maxMetadataBytes < canonical.length) .invalid
  return L.sha256 canonical

def parse (bytes : Bytes) : Except Signed.Error ContentReceipt := do
  rejectIf (maxBytes < bytes.length) .invalid
  let value ← (L.strictJson bytes).mapError fun _ => .invalid
  required (ContentReceipt.ofValue value) .invalid

def verifyKey (receipt : ContentReceipt) (publicKey : String) (boot request response metadata : Digest) : Except Signed.Error Unit := do
  rejectIf (receipt.schema ≠ schema) .invalid
  rejectIf (receipt.bootSha256 ≠ hexEncode boot.toList) .identity
  rejectIf (receipt.requestSha256 ≠ hexEncode request.toList ∨ receipt.responseSha256 ≠ hexEncode response.toList) .content
  let key ← L.decode publicKey
  rejectIf (key.length ≠ signingPublicKeyBytes) .identity
  let signature ← L.decode receipt.signature
  (L.verifySigning key (message request response metadata) signature).mapError fun _ => .signature

def verify (receipt : ContentReceipt) (boot : Evidence.VerifiedBoot) (request response : Digest) (metadata : Json) :
    Except Signed.Error VerifiedReceipt := do
  let digest ← L.metadataDigest metadata
  L.verifyKey receipt boot.record.reportData.signingPublicKey boot.identity.documentSha256 request response digest
  return {
    nodeId := boot.hardware.nodeId
    bootSha256 := receipt.bootSha256
    requestSha256 := receipt.requestSha256
    responseSha256 := receipt.responseSha256 }

end Libraries

structure VerifiedMetadata where
  metadata : Json
  receipt : VerifiedReceipt

/-- Content hashes and metadata before the boot is appraised. Nothing here is
authenticated until `verify` succeeds. -/
structure Signed where
  metadata : Json
  request : Digest
  response : Digest

namespace Signed
variable (L : Libraries)

def detached (request : Digest) (metadata : Bytes) (response : Digest) : Except Error Signed := do
  rejectIf (maxMetadataBytes < metadata.length) .invalid
  let value ← (L.strictJson metadata).mapError fun _ => .invalid
  return { metadata := value, request, response }

def buffered (request : Digest) (body : Bytes) : Except Error Signed := do
  let (metadata, content) ← (splitBufferedResponse L.strictJson body maxBufferedBody).mapError fun _ => .invalid
  detached L request metadata (L.sha256 content)

/-- A complete stream, read before its boot is appraised (`Stream::signed`). -/
def streamed (request : Digest) (body : SseBody) : Except Error Signed := do
  let (metadata, hashed) ← body.finish.mapError fun _ => .invalid
  detached L request metadata (L.sha256 hashed)

def bootSha256 (signed : Signed) : Option String := do
  let receipt ← signed.metadata.get "receipt"
  let boot ← receipt.get "boot_sha256"
  boot.asStr

def verify (signed : Signed) (boot : Evidence.VerifiedBoot) : Except Error VerifiedMetadata := do
  let receipt ← required (signed.metadata.get "receipt") .invalid
  let bytes ← (L.toVec receipt).mapError fun _ => .invalid
  let receipt ← L.parse bytes
  let verified ← L.verify receipt boot signed.request signed.response signed.metadata
  return { metadata := signed.metadata, receipt := verified }

end Signed
end StogasVerifier.Receipt
