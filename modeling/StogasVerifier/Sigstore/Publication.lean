import StogasVerifier.Lib.Fallible
import StogasVerifier.Sigstore.Tlog

/-! Publication of exact documents in the transparency log
(`verify_rekor_document_inclusion`, `hashedrekord.rs` and `verify_publication` of
`tlog.rs`). Decoding and cryptography of other libraries are parameters. -/

namespace StogasVerifier.Sigstore
open Lib

abbrev Bytes := List UInt8

def hexDigit (value : Nat) : Char := Char.ofNat (if value < 10 then 48 + value else 87 + value)

/-- `hex::encode` -/
def hexEncode (bytes : Bytes) : String :=
  String.ofList (bytes.flatMap fun byte => [hexDigit (byte.toNat / 16), hexDigit (byte.toNat % 16)])

structure InclusionProof where
  logIndex : String
  rootHash : String
  treeSize : String
  hashes : List String
  checkpointEnvelope : String

structure TransparencyLogEntry where
  logIndex : String
  logIdKeyId : String
  kind : String
  version : String
  integratedTime : String
  /-- The signed entry timestamp. -/
  inclusionPromise : Option String
  inclusionProof : Option InclusionProof
  canonicalizedBody : String

structure Bundle where
  mediaType : String
  messageDigestAlgorithm : String
  messageDigest : String
  signature : String
  publicKeyHint : String
  tlogEntries : List TransparencyLogEntry

structure Body where
  apiVersion : String
  kind : String
  hashAlgorithm : String
  hashValue : String
  signatureContent : String
  publicKeyContent : String

structure RekorSetPayload where
  body : String
  integratedTime : Int
  logIndex : Int
  logId : String

structure Validity where
  start : Option String
  finish : Option String
  deriving DecidableEq, Repr

structure LogKey where
  id : Bytes
  spki : Bytes
  validity : Option Validity
  deriving DecidableEq, Repr

structure Authority where
  certificates : List Bytes
  validity : Option Validity
  deriving DecidableEq, Repr

structure TrustedRoot where
  fulcio : List Authority
  rekor : List LogKey
  ct : List LogKey
  tsa : List Authority
  deriving DecidableEq, Repr

structure SubjectDigest where
  name : String
  sha256 : String
  deriving DecidableEq, Repr

structure Statement where
  kind : String
  subject : List SubjectDigest
  predicateType : String

structure DsseSignature where
  keyid : String
  sig : String

structure DsseEnvelope where
  payload : String
  payloadType : String
  signatures : List DsseSignature

structure DsseBundle where
  mediaType : String
  dsseEnvelope : DsseEnvelope
  /-- The signing certificate, in base64. -/
  certificate : String
  tlogEntries : List TransparencyLogEntry
  rfc3161Timestamps : List String

structure RekorDsseBody where
  apiVersion : String
  kind : String
  envelopeHashAlgorithm : String
  envelopeHash : String
  payloadHashAlgorithm : String
  payloadHash : String
  /-- Signatures with their verifiers. -/
  signatures : List (String × String)

/-- A Fulcio certificate as it is decoded; times are in seconds since 1970. -/
structure FulcioCertificate where
  notBefore : Nat
  notAfter : Nat
  spki : Except String Bytes
  /-- Whether the alternative names are critical, and each one that is a URI. -/
  subjectAltName : Except String (Option (Bool × List (Option String)))
  extensions : List (String × Bytes)

structure Sct where
  timestampMs : Nat
  logId : Bytes
  algorithm : Nat
  signature : Bytes
  signedData : Bytes → Except String Bytes

inductive Scheme where
  | ecdsaP256Sha256 | ecdsaP384Sha384 | rsaPkcs1Sha256 | rsaPkcs1Sha384 | rsaPkcs1Sha512
  deriving DecidableEq, Repr

/-- What the log checks take from other libraries. -/
structure Libraries where
  /-- A JSON value. -/
  Value : Type
  strictJson : Bytes → Except String Value
  null : Value
  /-- A member of an object, absent for any other value. -/
  get : Value → String → Option Value
  isObject : Value → Bool
  asArray : Value → Option (List Value)
  asStr : Value → Option String
  readStatement : Value → Except String Statement
  readDsseBundle : Value → Except String DsseBundle
  readDsseBody : Bytes → Except String RekorDsseBody
  fulcioFromDer : Bytes → Except String FulcioCertificate
  utf8FromDer : Bytes → Except String String
  /-- The issuer's key of a code-signing certificate under these anchors at a time. -/
  verifyForUsage : List Bytes → Bytes → Int → Except String Bytes
  parseSct : Bytes → Except String Sct
  verifySpki : Bytes → Scheme → Bytes → Bytes → Except String Unit
  /-- The time of an RFC 3161 token over a signature, not yet authenticated. -/
  timestampTime : Bytes → Bytes → Except String Int
  /-- The signer of a token and its chain under some authorities at a time. -/
  verifyTimestampSigner : Bytes → List Authority → Int → Except String Unit
  readBundle : Value → Except String Bundle
  readBody : Value → Except String Body
  standardDecode : String → Except String Bytes
  parseTime : String → Except String Int
  sha256 : Bytes → List.Vector UInt8 32
  sha512 : Bytes → Bytes
  /-- The tag and contents of a PEM file. -/
  parsePem : Bytes → Option (String × Bytes)
  Ed25519Key : Type
  ed25519FromDer : Bytes → Option Ed25519Key
  verifyPrehashedStrict : Ed25519Key → Bytes → Bytes → Bool
  canonicalSet : RekorSetPayload → Except String Bytes
  verifySpkiAuto : Bytes → Bytes → Bytes → Except String Unit
  /-- `verify_checkpoint`: the signed note, the tree size and root it must have,
  the log and its key. -/
  verifyCheckpoint : String → Nat → List.Vector UInt8 32 → Bytes → Bytes → Except String Unit

def parseDigits (digits : List Char) : Option Nat :=
  if digits = [] ∨ ¬ digits.all Char.isDigit then none
  else some (digits.foldl (fun total digit => total * 10 + (digit.toNat - 48)) 0)

def parseI64 (value label : String) : Except String Int :=
  let number : Option Int := match value.toList with
    | '-' :: digits => (parseDigits digits).map fun magnitude => -(magnitude : Int)
    | '+' :: digits => (parseDigits digits).map fun magnitude => (magnitude : Int)
    | digits => (parseDigits digits).map fun magnitude => (magnitude : Int)
  match number with
  | some number => if -2 ^ 63 ≤ number ∧ number < 2 ^ 63 then .ok number else .error s!"invalid {label}"
  | none => .error s!"invalid {label}"

def parseU64 (value label : String) : Except String Nat :=
  let number := match value.toList with
    | '+' :: digits => parseDigits digits
    | digits => parseDigits digits
  match number with
  | some number => if number < 2 ^ 64 then .ok number else .error s!"invalid {label}"
  | none => .error s!"invalid {label}"

namespace Libraries
variable (L : Libraries)

def logHash : Hashing 32 where
  Symbol := UInt8
  u8 := UInt8.ofNat
  value := UInt8.toNat
  value_u8 := fun _ fits => UInt8.toNat_ofNat_of_lt' fits
  symbolEq := inferInstance
  hash := L.sha256

def decode32 (value label : String) : Except String (List.Vector UInt8 32) :=
  match L.standardDecode value with
  | .error error => .error s!"invalid {label} encoding: {error}"
  | .ok bytes => if size : bytes.length = 32 then .ok ⟨bytes, size⟩ else .error s!"{label} must contain 32 bytes"

def containsSeconds (validity : Validity) (time : Int) : Except String Bool := do
  let start ← validity.start.mapM L.parseTime
  let finish ← validity.finish.mapM L.parseTime
  return start.all (· ≤ time) && finish.all (time ≤ ·)

/-- The first key of a log that was valid at a time (`key_at`). -/
def keyAt (keys : List LogKey) (id : Bytes) (time : Int) (label : String) : Except String LogKey :=
  match keys with
  | [] => .error s!"no {label} key was valid for the authenticated time"
  | key :: keys =>
    if key.id ≠ id then keyAt keys id time label
    else match key.validity with
      | none => .ok key
      | some validity => do if ← L.containsSeconds validity time then return key else keyAt keys id time label

def rekorKeyAt (root : TrustedRoot) (id : Bytes) (time : Int) : Except String LogKey := L.keyAt root.rekor id time "Rekor"

def verifySet (entry : TransparencyLogEntry) (logId : Bytes) (key : Bytes) : Except String Unit := do
  let promise ← required entry.inclusionPromise "GitHub Sigstore profile requires a Rekor SET"
  let signature ← (L.standardDecode promise).mapError fun error => s!"invalid Rekor SET encoding: {error}"
  let integratedTime ← parseI64 entry.integratedTime "integrated time"
  let logIndex ← parseI64 entry.logIndex "log index"
  let canonical ← (L.canonicalSet ⟨entry.canonicalizedBody, integratedTime, logIndex, hexEncode logId⟩).mapError
    fun error => s!"could not canonicalize Rekor SET: {error}"
  (L.verifySpkiAuto key canonical signature).mapError fun error => s!"Rekor SET verification failed: {error}"

def maxCheckpointBytes : Nat := 16 * 1024

def verifyInclusion (entry : TransparencyLogEntry) (logId : Bytes) (key : Bytes) : Except String Unit := do
  let proof ← required entry.inclusionProof "GitHub Sigstore profile requires a Rekor inclusion proof"
  rejectIf (maxProofHashes < proof.hashes.length ∨ maxCheckpointBytes < proof.checkpointEnvelope.utf8ByteSize)
      "Rekor proof exceeds resource limits"
  let leafIndex ← parseU64 proof.logIndex "proof log index"
  let treeSize ← parseU64 proof.treeSize "proof tree size"
  let expectedRoot ← L.decode32 proof.rootHash "proof root hash"
  let siblings ← proof.hashes.mapM fun hash => L.decode32 hash "proof sibling hash"
  let body ← (L.standardDecode entry.canonicalizedBody).mapError fun error => s!"invalid Rekor body encoding: {error}"
  verifyMerkle (H := L.logHash) body leafIndex treeSize siblings expectedRoot
  L.verifyCheckpoint proof.checkpointEnvelope treeSize expectedRoot logId key

def verifyPublication (entry : TransparencyLogEntry) (nowSeconds : Int) (root : TrustedRoot) : Except String Int := do
  let integratedTime ← parseI64 entry.integratedTime "integrated time"
  rejectIf (integratedTime ≤ 0 ∨ nowSeconds + 60 < integratedTime) "Rekor integrated time is invalid or in the future"
  let logId ← L.decode32 entry.logIdKeyId "Rekor log id"
  let logKey ← L.rekorKeyAt root logId.toList integratedTime
  L.verifySet entry logId.toList logKey.spki
  L.verifyInclusion entry logId.toList logKey.spki
  return integratedTime

def decode (value : String) : Except String Bytes := (L.standardDecode value).mapError fun _ => "invalid Rekor base64 encoding"

def verifyBinding (bundle : Bundle) (entry : TransparencyLogEntry) (artifact : Bytes) : Except String Unit := do
  rejectIf (entry.kind ≠ "hashedrekord" ∨ entry.version ≠ "0.0.1")
      "only Rekor hashedrekord v0.0.1 is supported for document inclusion"
  let raw ← L.decode entry.canonicalizedBody
  let value ← L.strictJson raw
  let body ← (L.readBody value).mapError fun error => s!"invalid Rekor document body: {error}"
  let digest := L.sha512 artifact
  rejectIf (body.kind ≠ "hashedrekord" ∨ body.apiVersion ≠ "0.0.1" ∨ body.hashAlgorithm ≠ "sha512" ∨
        body.hashValue ≠ hexEncode digest ∨ bundle.messageDigestAlgorithm ≠ "SHA2_512")
      "Rekor document hash does not bind the exact artifact bytes"
  rejectIf ((← L.decode bundle.messageDigest) ≠ digest) "Rekor document hash does not bind the exact artifact bytes"
  let (tag, contents) ← required (L.parsePem (← L.decode body.publicKeyContent)) "invalid Rekor submission public key"
  rejectIf (tag ≠ "PUBLIC KEY" ∨ bundle.publicKeyHint ≠ hexEncode (L.sha256 contents).toList)
      "Rekor submission key differs from its bundle hint"
  let key ← required (L.ed25519FromDer contents) "Rekor document profile requires an Ed25519 submission key"
  let signature ← L.decode body.signatureContent
  rejectIf (signature ≠ (← L.decode bundle.signature)) "Rekor submission signature differs from the bundle"
  rejectIf (signature.length ≠ 64) "invalid Rekor signature length"
  rejectIf (¬ L.verifyPrehashedStrict key artifact signature) "invalid Rekor Ed25519ph submission signature"

def bundleMediaType : String := "application/vnd.dev.sigstore.bundle.v0.3+json"

/-- `hashedrekord::verify` -/
def verifyHashedRekord (value : L.Value) (artifact : Bytes) (nowUnixMs : Int) (root : TrustedRoot) : Except String Int := do
  let bundle ← (L.readBundle value).mapError fun error => s!"invalid Rekor document bundle: {error}"
  rejectIf (bundle.mediaType ≠ bundleMediaType) "unsupported or ambiguous Rekor document bundle"
  let [entry] := bundle.tlogEntries | throw "unsupported or ambiguous Rekor document bundle"
  L.verifyBinding bundle entry artifact
  L.verifyPublication entry (nowUnixMs / 1000) root

def maxBundleBytes : Nat := 1048576
def maxDocumentBytes : Nat := 16 * 1024 * 1024

def verifyRekorDocumentInclusion (trust : TrustedRoot) (bundle artifact : Bytes) (nowUnixMs : Int) : Except String Int := do
  rejectIf (maxBundleBytes < bundle.length ∨ maxDocumentBytes < artifact.length)
      s!"sigstore bundle exceeds {maxBundleBytes} bytes"
  let value ← (L.strictJson bundle).mapError fun error => s!"invalid Sigstore bundle: {error}"
  (L.verifyHashedRekord value artifact nowUnixMs trust).mapError fun error =>
    s!"Sigstore cryptographic verification failed: {error}"

end Libraries
end StogasVerifier.Sigstore
