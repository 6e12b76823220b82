import StogasVerifier.Types
import StogasVerifier.Approvals.Keys
import StogasVerifier.Sigstore.Publication

/-! Signed and logged documents (`approvals.rs`): their digests, signatures,
publication and deadlines. -/

namespace StogasVerifier.Approvals
open Lib
open Sigstore (Bytes TrustedRoot hexEncode)

def keyManifestSchema : String := "stogas.keys.v1"
def approvalManifestSchema : String := "stogas.approvals.v1"
def maxRevision : Nat := 2 ^ 53 - 1
def maxInputBytes : Nat := 16 * 1024 * 1024
def stogasSignatureDomain : String := "stogas signed document v1\n"
def signatureBytes : Nat := 3373

structure RootKey where
  keyId : String
  publicKey : String
  deriving DecidableEq, Repr

structure ApprovalManifest (Gateway Catalog : Type) where
  schema : String
  environment : Environment
  revision : Nat
  keyManifestSha256 : String
  sigstoreSha256 : String
  gateways : List Gateway
  catalogs : List Catalog
  hardwarePolicy : HardwarePolicy

/-- A time that was read from text, and that text in the form `%Y-%m-%dT%H:%M:%SZ`. -/
structure Timestamp where
  millis : Int
  subsecNanos : Nat
  formatted : String

structure Libraries extends Sigstore.Libraries where
  keysValue : KeyManifest → Except String Value
  approvalsValue : ApprovalManifest (AllowedIgvm Value) (AllowedCatalog Value) → Except String Value
  hardwareValue : HardwarePolicy → Except String Value
  /-- A document and its signature as one object. -/
  signedValue : Value → StogasSignature → Value
  readKeys : Value → Except String (LoggedDocument Value KeyManifest)
  toVec : Value → Except String Bytes
  canonicalize : Value → Except String String
  standardEncode : Bytes → String
  urlSafeDecode : String → Except String Bytes
  urlSafeEncode : Bytes → String
  publicKeyFromSpki : Bytes → Except String Bytes
  verifySigning : Bytes → Bytes → Bytes → Except String Unit
  /-- Whether an Ed25519 key is weak. -/
  ed25519IsWeak : Bytes → Except String Bool
  parseRfc3339 : String → Option Timestamp

def invalid (reason : String) : Error := .invalid reason

def validRevision (revision : Nat) : Bool := 0 < revision ∧ revision ≤ maxRevision

def validKeyId (keyId : String) : Bool :=
  keyId ≠ "" ∧ keyId.utf8ByteSize ≤ 128 ∧ keyId.toList.all fun char => char.isAlphanum || ['.', '_', '-'].contains char

def increasing (previous : Nat) : List Nat → Bool
  | [] => true
  | sequence :: sequences => decide (previous < sequence) && increasing sequence sequences

/-- `checked_mul(1000)` on 64-bit integers. -/
def checkedThousand (seconds : Int) : Option Int :=
  if -2 ^ 63 ≤ seconds * 1000 ∧ seconds * 1000 < 2 ^ 63 then some (seconds * 1000) else none

namespace Libraries
variable (L : Libraries)

/-- `canonical_json`: canonical text with a newline. -/
def canonicalJson (value : L.Value) : Except String String :=
  match L.canonicalize value with
  | .error error => .error s!"unsupported or invalid bundle: canonical JSON: {error}"
  | .ok text => .ok (text ++ "\n")

def pop (text : String) : String := String.ofList text.toList.dropLast

/-- The canonical text without the newline, which is not signed or hashed. -/
def canonicalPayload (value : L.Value) : Except Error Bytes := do
  let canonical ← (L.canonicalJson value).mapError invalid
  return (pop canonical).toUTF8.toList

def digestHex (value : L.Value) : Except Error String := do
  return hexEncode (L.sha256 (← L.canonicalPayload value)).toList

def keysSha256 (keys : KeyManifest) : Except Error String := do L.digestHex (← (L.keysValue keys).mapError invalid)
def hardwareSha256 (policy : HardwarePolicy) : Except Error String := do
  L.digestHex (← (L.hardwareValue policy).mapError invalid)

def expiryUnixMs (keys : KeyManifest) : Except Error Int :=
  if keys.expiresAt.utf8ByteSize ≠ 20 then .error (.invalid "key manifest expiry must use whole UTC seconds")
  else match L.parseRfc3339 keys.expiresAt with
    | none => .error (.invalid "key manifest expiry is not a UTC timestamp")
    | some expiry =>
      if expiry.subsecNanos ≠ 0 ∨ expiry.formatted ≠ keys.expiresAt then
        .error (.invalid "key manifest expiry must use whole UTC seconds")
      else .ok expiry.millis

def decodeKey (keyId publicKey : String) : Except Error Bytes := do
  rejectIf (¬ validKeyId keyId) (.invalid "key identifier")
  let bytes ← (L.standardDecode publicKey).mapError invalid
  rejectIf (L.standardEncode bytes ≠ publicKey) (.invalid "public key encoding")
  let _ ← (L.publicKeyFromSpki bytes).mapError invalid
  return bytes

def decodeRekorKey (key : OnlineKey) : Except Error Bytes := do
  let bytes ← (L.standardDecode key.rekorPublicKey).mapError invalid
  rejectIf (bytes.length ≠ 44 ∨ L.standardEncode bytes ≠ key.rekorPublicKey) (.invalid "Rekor public key encoding")
  rejectIf (← (L.ed25519IsWeak bytes).mapError invalid) (.invalid "weak Rekor public key")
  return bytes

def verifyStogasSignature (publicDer : String) (payload : Bytes) (signatureText : String) : Except String Unit := do
  let der ← L.standardDecode publicDer
  rejectIf (L.standardEncode der ≠ publicDer) "non-canonical Stogas public key"
  let key ← L.publicKeyFromSpki der
  let signature ← L.urlSafeDecode signatureText
  rejectIf (signature.length ≠ signatureBytes ∨ L.urlSafeEncode signature ≠ signatureText) "invalid Stogas signature encoding"
  L.verifySigning key payload signature

def verifySignature (document : L.Value) (signature : StogasSignature) (keyId publicKey : String) : Except Error Unit := do
  rejectIf (signature.keyId ≠ keyId) .inactiveKey
  let _ ← L.decodeKey keyId publicKey
  let payload := stogasSignatureDomain.toUTF8.toList ++ (← L.canonicalPayload document)
  (L.verifyStogasSignature publicKey payload signature.signature).mapError fun _ => .signature

/-- When the log integrated a signed document, in seconds. -/
def verifyDocumentInclusion (document : L.Value) (signature : StogasSignature) (inclusion : L.Value) (trust : TrustedRoot)
    (nowUnixMs : Int) : Except Error Int := do
  let artifact ← (L.canonicalJson (L.signedValue document signature)).mapError invalid
  let bundle ← (L.toVec inclusion).mapError invalid
  (L.verifyRekorDocumentInclusion trust bundle artifact.toUTF8.toList nowUnixMs).mapError .transparency

/-- The loop of `validate_keys` over the operational keys. -/
def validateEach (ids publicKeys : List String) : List OnlineKey → Except Error Unit
  | [] => .ok ()
  | key :: keys => do
    let _ ← L.decodeKey key.keyId key.publicKey
    let _ ← L.decodeRekorKey key
    rejectIf (key.keyId ∈ ids ∨ key.publicKey ∈ publicKeys) (.invalid "duplicate or root operational key")
    validateEach (key.keyId :: ids) (key.publicKey :: publicKeys) keys

def sortedKeys : List OnlineKey → Bool
  | first :: second :: keys => decide (first.keyId < second.keyId) && sortedKeys (second :: keys)
  | _ => true

def validateKeys (keys : KeyManifest) (environment : Environment) (root : RootKey) : Except Error Unit := do
  rejectIf (keys.schema ≠ keyManifestSchema ∨ ¬ validRevision keys.generation) (.invalid "key manifest schema or generation")
  rejectIf (keys.environment ≠ environment) .authority
  let _ ← L.expiryUnixMs keys
  rejectIf (¬ sortedKeys keys.retiredKeys) (.invalid "retired keys must be sorted and unique")
  L.validateEach [root.keyId] [root.publicKey] (keys.activeKey :: keys.retiredKeys)

end Libraries
end StogasVerifier.Approvals
