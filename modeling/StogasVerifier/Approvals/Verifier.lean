import StogasVerifier.Approvals.Documents

/-! The approval verifier (`ApprovalVerifier` of `approvals.rs`). It keeps the latest
accepted decision; the learned key state is shared and may advance between calls. -/

namespace StogasVerifier.Approvals
open Lib
open Sigstore (Bytes TrustedRoot)

variable {L : Libraries}

abbrev Libraries.Manifest (L : Libraries) := ApprovalManifest (AllowedIgvm L.Value) (AllowedCatalog L.Value)
abbrev Libraries.SignedApprovals (L : Libraries) := LoggedDocument L.Value L.Manifest

/-- Log keys that approvals select by their digest. -/
structure VerifiedSigstore where
  digest : String
  trustedRoot : TrustedRoot
  deriving DecidableEq, Repr

structure VerifiedApprovals (L : Libraries) where
  authority : List.Vector UInt8 32
  keys : KeyManifest
  approvals : L.SignedApprovals
  sigstore : VerifiedSigstore
  keysDigest : String
  approvalsDigest : String
  expiresUnixMs : Int

namespace VerifiedApprovals

def manifest (approvals : VerifiedApprovals L) : L.Manifest := approvals.approvals.document

def validUntil (approvals : VerifiedApprovals L) (nowUnixMs : Int) : Except Error Int :=
  if approvals.expiresUnixMs ≤ nowUnixMs then .error .expired else .ok approvals.expiresUnixMs

end VerifiedApprovals

structure ApprovalVerifier (L : Libraries) where
  environment : Environment
  root : RootKey
  authority : List.Vector UInt8 32
  accepted : Option (VerifiedApprovals L)
  keyState : KeyState

def verifyOnlineApproval (authority : List.Vector UInt8 32) (keys : KeyManifest) (signed : L.SignedApprovals)
    (sigstore : VerifiedSigstore) : Except Error (VerifiedApprovals L) := do
  let approvals := signed.document
  rejectIf (approvals.schema ≠ approvalManifestSchema ∨ ¬ validRevision approvals.revision)
      (.invalid "approval schema or revision")
  rejectIf (approvals.environment ≠ keys.environment) .authority
  let keysDigest ← L.keysSha256 keys
  rejectIf (approvals.keyManifestSha256 ≠ keysDigest) (.invalid "key manifest digest mismatch")
  rejectIf (approvals.sigstoreSha256 ≠ sigstore.digest) (.invalid "Sigstore files digest mismatch")
  rejectIf (¬ increasing 0 (approvals.gateways.map fun release => release.document.sequence) ∨
        ¬ increasing 0 (approvals.catalogs.map fun release => release.document.sequence))
      (.invalid "approved releases must be ordered by unique sequence")
  let document ← (L.approvalsValue approvals).mapError invalid
  L.verifySignature document signed.signature keys.activeKey.keyId keys.activeKey.publicKey
  let approvalsDigest ← L.digestHex document
  let expiresUnixMs ← L.expiryUnixMs keys
  return { authority, keys, approvals := signed, sigstore, keysDigest, approvalsDigest, expiresUnixMs }

namespace ApprovalVerifier

def new (L : Libraries) (environment : Environment) (root : RootKey) : Except Error (ApprovalVerifier L) := do
  let rootDer ← L.decodeKey root.keyId root.publicKey
  return { environment, root, authority := L.sha256 rootDer, accepted := none, keyState := none }

def verifyKeys (verifier : ApprovalVerifier L) (bytes : Bytes) (trust : TrustedRoot) (nowUnixMs : Int) :
    Except Error VerifiedKeys := do
  rejectIf (maxInputBytes < bytes.length) .tooLarge
  let value ← (L.strictJson bytes).mapError invalid
  let keys ← (L.readKeys value).mapError invalid
  L.validateKeys keys.document verifier.environment verifier.root
  let document ← (L.keysValue keys.document).mapError invalid
  L.verifySignature document keys.signature verifier.root.keyId verifier.root.publicKey
  let published ← L.verifyDocumentInclusion document keys.signature keys.inclusion trust nowUnixMs
  let published ← required (checkedThousand published) (.invalid "log time overflow")
  rejectIf ((← L.expiryUnixMs keys.document) ≤ published) (.invalid "key authorization expired before publication")
  return { digest := ← L.keysSha256 keys.document, document := keys.document }

def observeKeys (verifier : ApprovalVerifier L) (bytes : Bytes) (trust : TrustedRoot) (nowUnixMs : Int) :
    Except Error VerifiedKeys × ApprovalVerifier L :=
  match verifier.verifyKeys bytes trust nowUnixMs with
  | .error error => (.error error, verifier)
  | .ok keys =>
    let (learned, keyState) := verifier.keyState.learn keys
    (learned.map fun _ => keys, { verifier with keyState })

def verifyKeyManifest (verifier : ApprovalVerifier L) (bytes : Bytes) (trust : TrustedRoot) (nowUnixMs : Int) :
    Except Error KeyManifest × ApprovalVerifier L :=
  let (observed, after) := verifier.observeKeys bytes trust nowUnixMs
  (do
    let keys := (← observed).document
    rejectIf ((← L.expiryUnixMs keys) ≤ nowUnixMs) .expired
    return keys, after)

/-- The comparison of `check_update` with the accepted decision. -/
def checkOrder (previous candidate : VerifiedApprovals L) : Except Error Unit := do
  rejectIf (candidate.keys.generation < previous.keys.generation) .rollback
  if candidate.keys.generation = previous.keys.generation then
    rejectIf (candidate.keysDigest ≠ previous.keysDigest) .equivocation
    rejectIf (candidate.manifest.revision < previous.manifest.revision) .rollback
    rejectIf (candidate.manifest.revision = previous.manifest.revision ∧ candidate.approvalsDigest ≠ previous.approvalsDigest)
      .equivocation
    let hardware := candidate.manifest.hardwarePolicy
    let accepted := previous.manifest.hardwarePolicy
    rejectIf (hardware.version < accepted.version) .rollback
    if hardware.version = accepted.version then
      rejectIf ((← L.hardwareSha256 hardware) ≠ (← L.hardwareSha256 accepted)) .equivocation

def checkUpdate (verifier : ApprovalVerifier L) (candidate : VerifiedApprovals L) : Except Error Unit := do
  rejectIf (candidate.authority ≠ verifier.authority ∨ candidate.keys.environment ≠ verifier.environment) .authority
  verifier.keyState.check candidate.keys candidate.keysDigest
  match verifier.accepted with
  | none => return
  | some previous => checkOrder previous candidate

def verifyWithKeys (verifier : ApprovalVerifier L) (keys : VerifiedKeys) (approvals : L.SignedApprovals)
    (sigstore : VerifiedSigstore) (nowUnixMs : Int) : Except Error (VerifiedApprovals L) := do
  let document ← (L.approvalsValue approvals.document).mapError invalid
  let _ ← L.verifyDocumentInclusion document approvals.signature approvals.inclusion sigstore.trustedRoot nowUnixMs
  let candidate ← verifyOnlineApproval verifier.authority keys.document approvals sigstore
  let _ ← candidate.validUntil nowUnixMs
  verifier.checkUpdate candidate
  return candidate

def accept (verifier : ApprovalVerifier L) (candidate : VerifiedApprovals L) : Except Error Unit × ApprovalVerifier L :=
  match verifier.checkUpdate candidate with
  | .error error => (.error error, verifier)
  | .ok () =>
    match verifier.keyState.learn ⟨candidate.keys, candidate.keysDigest⟩ with
    | (.error error, keyState) => (.error error, { verifier with keyState })
    | (.ok (), keyState) => (.ok (), { verifier with keyState, accepted := some candidate })

end ApprovalVerifier
end StogasVerifier.Approvals
