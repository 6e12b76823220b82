import StogasVerifier.Evidence.Releases
import StogasVerifier.Evidence.Platforms

/-! The networkless verifier (`Verifier` of `evidence.rs`). Its snapshots share the learned
keys and revocations with it; here they stand in its approvals and its revocations. -/

namespace StogasVerifier.Evidence
open Lib Std
open Sigstore (Bytes TrustedRoot)
open Approvals (Environment RootKey ApprovalVerifier VerifiedApprovals VerifiedKeys VerifiedSigstore KeyManifest maxInputBytes)

def bundleEnvelopeSchema : String := "stogas.confidential-bundle-envelope.v1"
def bundleSchema : String := "stogas.confidential-bundle.v1"

namespace Libraries
variable (L : Libraries)

/-- A member of an object; null without one. -/
def index (value : L.Value) (name : String) : L.Value := (L.get value name).getD L.null

/-- `payload_sha256` of a value that was serialized. -/
def payloadSha256 (value : Except String L.Value) : Except Approvals.Error String := do
  L.digestHex (← value.mapError Approvals.invalid)

def decodeFile (text : String) : Except Approvals.Error Bytes := (L.standardDecode text).mapError fun _ => .sigstore "base64"

/-- `VerifiedSigstore::verify` -/
def verifySigstoreFiles (files : SigstoreFiles) : Except Approvals.Error VerifiedSigstore := do
  let roots ← files.roots.mapM L.decodeFile
  let targets ← L.decodeFile files.targets
  let trustedRoot ← L.decodeFile files.trustedRoot
  let trustedRoot ← (L.verifyTrustUpdate roots targets trustedRoot).mapError .sigstore
  let digest ← L.payloadSha256 (L.sigstoreFilesValue files)
  return { digest, trustedRoot }

def parseJson (bytes : Bytes) : Except Error L.Value := do
  rejectIf (maxInputBytes < bytes.length) .tooLarge
  (L.strictJson bytes).mapError .invalid

def parseEnvelope (value : L.Value) : Except Error (Envelope L.Value) := do
  let digest ← (L.payloadSha256 (.ok (L.index value "body"))).mapError .approval
  let envelope ← (L.readEnvelope value).mapError .invalid
  rejectIf (envelope.schema ≠ bundleEnvelopeSchema ∨ envelope.bodySchema ≠ bundleSchema) (.invalid "unsupported bundle schema")
  rejectIf (digest ≠ envelope.bodySha256) (.invalid "bundle body checksum differs")
  return envelope

end Libraries

/-- The prior result for the same object, unless the clock went back; else a new one. -/
def cached {Result : Type} (prior : Option (Cached Result)) (digest : String) (nowUnixMs : Int)
    (verify : Except Approvals.Error Result) : Except Error (Cached Result) :=
  match prior.filter fun entry => entry.digest = digest ∧ entry.verifiedAt ≤ nowUnixMs with
  | some entry => .ok { digest, verifiedAt := entry.verifiedAt, value := entry.value }
  | none => do
    let value ← verify.mapError .approval
    return { digest, verifiedAt := nowUnixMs, value }

/-- Releases of one kind: the digest of the document names each, and the digest of the
whole listed object decides about reuse. -/
structure ReleaseKind (Release Result : Type) where
  releaseId : Release → Except Approvals.Error String
  digest : Release → Except Approvals.Error String
  verify : Release → Int → Except Approvals.Error Result

/-- The loops of `verify_snapshot` over the listed releases. -/
def ReleaseKind.verifyEach {Release Result : Type} (kind : ReleaseKind Release Result)
    (prior : String → Option (Cached Result)) (nowUnixMs : Int) :
    List Release → TreeMap String (Cached Result) compare → Except Error (TreeMap String (Cached Result) compare)
  | [], entries => .ok entries
  | release :: releases, entries => do
    let id ← (kind.releaseId release).mapError .approval
    let digest ← (kind.digest release).mapError .approval
    let entry ← cached (prior id) digest nowUnixMs (kind.verify release nowUnixMs)
    verifyEach kind prior nowUnixMs releases (entries.insert id entry)

section
variable {L : Libraries}

def gatewayKind (approvals : VerifiedApprovals L.toApprovals) : ReleaseKind (AllowedIgvm L.Value) VerifiedRelease where
  releaseId := fun gateway => L.payloadSha256 (L.gatewayValue gateway.document)
  digest := fun gateway => L.payloadSha256 (L.allowedGatewayValue gateway)
  verify := verifyGateway approvals

def catalogKind (approvals : VerifiedApprovals L.toApprovals) : ReleaseKind (AllowedCatalog L.Value) VerifiedCatalogRelease where
  releaseId := fun catalog => L.payloadSha256 (L.catalogValue catalog.document)
  digest := fun catalog => L.payloadSha256 (L.allowedCatalogValue catalog)
  verify := verifyCatalog approvals

/-- An envelope whose approval passed; its objects are not yet verified. -/
structure Candidate (L : Libraries) where
  bodySha256 : String
  approvals : VerifiedApprovals L.toApprovals
  /-- Whether the Sigstore keys are those of the current snapshot, not equal copies. -/
  sigstoreReused : Bool
  vendorCollateral : List L.Value

structure Verifier (L : Libraries) where
  approvals : ApprovalVerifier L.toApprovals
  current : Option (Snapshot L)
  revocations : Revocations
  /-- How many snapshots were made, which tells the next one from all of them. -/
  snapshots : Nat

namespace Verifier

def new (L : Libraries) (environment : Environment) (root : RootKey) : Except Error (Verifier L) := do
  let approvals ← (ApprovalVerifier.new L.toApprovals environment root).mapError .approval
  return { approvals, current := none, revocations := ∅, snapshots := 0 }

/-- What every snapshot of the verifier sees of its later decisions. -/
def learned (verifier : Verifier L) : Learned := ⟨verifier.approvals.keyState, verifier.revocations⟩

def verifyKeyManifest (verifier : Verifier L) (bytes : Bytes) (nowUnixMs : Int) : Except Error KeyManifest × Verifier L :=
  let trust : Except String TrustedRoot := match verifier.current with
    | some snapshot => .ok snapshot.approvals.sigstore.trustedRoot
    | none => L.embedded
  match trust with
  | .error error => (.error (.approval (.sigstore error)), verifier)
  | .ok trust =>
    let (verified, approvals) := verifier.approvals.verifyKeyManifest bytes trust nowUnixMs
    (verified.mapError .approval, { verifier with approvals })

/-- The Sigstore keys of the evidence, and whether the current snapshot's were reused. -/
def sigstore (verifier : Verifier L) (files : L.Value) : Except Error (VerifiedSigstore × Bool) := do
  let files ← (L.readSigstoreFiles files).mapError .invalid
  let digest ← (L.payloadSha256 (L.sigstoreFilesValue files)).mapError .approval
  match verifier.current.filter fun snapshot => snapshot.approvals.sigstore.digest = digest with
  | some snapshot => return (snapshot.approvals.sigstore, true)
  | none =>
    let verified ← (L.verifySigstoreFiles files).mapError .approval
    return (verified, false)

def observeKeys (verifier : Verifier L) (body : L.Value) (nowUnixMs : Int) :
    Except Error (VerifiedSigstore × Bool × VerifiedKeys) × Verifier L :=
  match verifier.sigstore (L.index body "sigstore") with
  | .error error => (.error error, verifier)
  | .ok (sigstore, reused) =>
    match L.toVec (L.index body "keys") with
    | .error error => (.error (.invalid error), verifier)
    | .ok bytes =>
      let (observed, approvals) := verifier.approvals.observeKeys bytes sigstore.trustedRoot nowUnixMs
      ((observed.mapError .approval).map fun keys => (sigstore, reused, keys), { verifier with approvals })

def verifySnapshot (verifier : Verifier L) (candidate : Candidate L) (nowUnixMs : Int) : Except Error (Snapshot L) := do
  let approvals := candidate.approvals
  let releases := verifier.current.filter fun _ => candidate.sigstoreReused
  let gateways ← (gatewayKind approvals).verifyEach (fun id => releases.bind fun snapshot => snapshot.gateways[id]?) nowUnixMs
    approvals.manifest.gateways ∅
  let catalogs ← (catalogKind approvals).verifyEach (fun id => releases.bind fun snapshot => snapshot.catalogs[id]?) nowUnixMs
    approvals.manifest.catalogs ∅
  let hardware ← (L.verifyHardwarePolicy approvals.manifest.hardwarePolicy).mapError fun error => .approval (.evidence error.text)
  let collateral ← Store.verify L candidate.vendorCollateral (verifier.current.map Snapshot.collateral)
  return { bodySha256 := candidate.bodySha256, identity := verifier.snapshots, approvals, gateways, catalogs, hardware, collateral }

/-- The stages of a refresh that change nothing: envelope, approvals and listed objects. -/
def verifyCandidate (verifier : Verifier L) (value : L.Value) (keys : VerifiedSigstore × Bool × VerifiedKeys) (nowUnixMs : Int) :
    Except Error (Snapshot L) := do
  let (sigstore, sigstoreReused, keys) := keys
  let envelope ← L.parseEnvelope value
  let approvals ← (verifier.approvals.verifyWithKeys keys envelope.approvals sigstore nowUnixMs).mapError .approval
  verifier.verifySnapshot ⟨envelope.bodySha256, approvals, sigstoreReused, envelope.vendorCollateral⟩ nowUnixMs

/-- The last stage of a refresh: only a complete candidate replaces the snapshot. -/
def install (verifier : Verifier L) (snapshot : Snapshot L) : Except Error (Snapshot L) × Verifier L :=
  let (accepted, approvals) := verifier.approvals.accept snapshot.approvals
  match accepted with
  | .error error => (.error (.approval error), { verifier with approvals })
  | .ok () => (.ok snapshot, { verifier with approvals, current := some snapshot, snapshots := verifier.snapshots + 1 })

/-- Both independent authorities are processed before either failure is returned. -/
def refresh (verifier : Verifier L) (bytes : Bytes) (nowUnixMs : Int) : Except Error (Snapshot L) × Verifier L :=
  match L.parseJson bytes with
  | .error error => (.error error, verifier)
  | .ok value =>
    let body := L.index value "body"
    let (keys, verifier) := verifier.observeKeys body nowUnixMs
    let (vendor, revocations) := Revocations.observe L verifier.revocations body nowUnixMs
    let verifier := { verifier with revocations }
    let candidate : Except Error (Snapshot L) := do
      let keys ← keys
      vendor
      verifier.verifyCandidate value keys nowUnixMs
    match candidate with
    | .error error => (.error error, verifier)
    | .ok snapshot => verifier.install snapshot

end Verifier
end
end StogasVerifier.Evidence
