import StogasVerifier.Evidence.Snapshot

/-! Logged boots and the sessions of their guests (`evidence/boot.rs`,
`evidence/session.rs`). -/

namespace StogasVerifier.Evidence
open Lib
open Sigstore (Bytes hexEncode)

def bootSchema : String := "stogas.node-boot.v1"
def bootPublicationSchema : String := "stogas.node-registration.v1"
def reportDataSchema : String := "stogas.node-report.v1"
def maxEvidenceBytes : Nat := 58 * 1024
def signingPublicKeyBytes : Nat := 1984
def hpkePublicKeyBytes : Nat := 1216

/-- `invalid` of `boot.rs` and `session.rs` -/
def attestation (reason : String) : Error := .attestation reason

def lowerHex (size : Nat) (value : String) : Except Error Bytes := do
  rejectIf (¬ isLowerHex value size) (.attestation "noncanonical boot digest or challenge")
  required (hexDecode value) (.attestation "boot digest length")

variable {L : Libraries}

def Libraries.decodeField (L : Libraries) (value : String) (size : Nat) : Except Error Bytes := do
  rejectIf (value.utf8ByteSize ≠ (size * 8 + 5) / 6) (.attestation "boot public field size")
  let bytes ← (L.urlSafeDecode value).mapError attestation
  rejectIf (bytes.length ≠ size ∨ L.urlSafeEncode bytes ≠ value) (.attestation "noncanonical boot public field")
  return bytes

def Libraries.commitment (L : Libraries) (data : BootReportData) : Except Error Bytes := do
  rejectIf (data.schema ≠ reportDataSchema) (.attestation "unsupported boot report-data schema")
  let _ ← lowerHex 32 data.tlsSpkiSha256
  let _ ← lowerHex 32 data.registrationChallenge
  let _ ← L.decodeField data.signingPublicKey signingPublicKeyBytes
  let recipient ← L.decodeField data.hpkePublicKey hpkePublicKeyBytes
  (L.xWingPublicKey recipient).mapError attestation
  let value ← (L.reportDataValue data).mapError attestation
  let canonical ← (L.canonicalJson value).mapError attestation
  return L.sha512 (Approvals.Libraries.pop canonical).toUTF8.toList

def Libraries.parseRecord (L : Libraries) (document : Bytes) : Except Error BootRecord := do
  rejectIf (maxEvidenceBytes < document.length) .tooLarge
  let value ← (L.strictJson document).mapError attestation
  let canonical ← (L.canonicalJson value).mapError attestation
  rejectIf (canonical.toUTF8.toList ≠ document) (.attestation "noncanonical boot document")
  let record ← (L.readRecord value).mapError attestation
  rejectIf (record.schema ≠ bootSchema) (.attestation "unsupported boot schema")
  let _ ← lowerHex 32 record.gatewayReleaseId
  return record

structure VerifiedRegistration where
  record : BootRecord
  hardware : VerifiedSnpReport
  documentSha256 : List.Vector UInt8 32

structure VerifiedBoot where
  identity : VerifiedRegistration
  integratedTimeUnixMs : Int

def VerifiedBoot.record (boot : VerifiedBoot) : BootRecord := boot.identity.record
def VerifiedBoot.hardware (boot : VerifiedBoot) : VerifiedSnpReport := boot.identity.hardware

structure Artifacts where
  report : Bytes
  bootDocument : Bytes
  bootInclusion : Bytes
  deriving DecidableEq, Repr

structure VerifiedSession where
  boot : VerifiedBoot
  live : VerifiedSnpReport
  validity : Validity
  snapshotIdentity : Nat
  artifacts : Artifacts

namespace Snapshot

def verifyBootReport (snapshot : Snapshot L) (learned : Learned) (document : Bytes) (record : BootRecord) (nowUnixMs : Int) :
    Except Error VerifiedRegistration := do
  rejectIf (record.reportData.environment ≠ snapshot.approvals.keys.environment) (.approval .authority)
  let report ← L.decodeField record.report reportBytes
  let commitment ← L.commitment record.reportData
  let hardware ← snapshot.verifySnpReport learned report commitment record.gatewayReleaseId nowUnixMs
  return { record, hardware, documentSha256 := L.sha256 document }

/-- An immutable logged boot under the current authorization. -/
def verifyLoggedBoot (snapshot : Snapshot L) (learned : Learned) (document inclusion : Bytes) (nowUnixMs : Int) :
    Except Error VerifiedBoot := do
  let record ← L.parseRecord document
  rejectIf (maxEvidenceBytes < document.length + inclusion.length) .tooLarge
  let value ← (L.strictJson inclusion).mapError attestation
  let proof ← (L.readInclusion value).mapError attestation
  rejectIf (¬ isLowerHex proof.evidenceSha256 32) (.attestation "invalid initial evidence identity")
  let keys := snapshot.approvals.keys
  let signer ← required ((keys.activeKey :: keys.retiredKeys).find? fun key => key.keyId = proof.signature.keyId)
    (.approval .inactiveKey)
  let publication ← (L.publicationValue ⟨bootPublicationSchema, record, proof.evidenceSha256⟩).mapError attestation
  (L.verifySignature publication proof.signature signer.keyId signer.publicKey).mapError .approval
  let integrated ← (L.verifyDocumentInclusion publication proof.signature proof.inclusion snapshot.approvals.sigstore.trustedRoot
    nowUnixMs).mapError .approval
  let identity ← snapshot.verifyBootReport learned document record nowUnixMs
  let integratedTimeUnixMs ← required (Approvals.checkedThousand integrated) (.attestation "boot log time overflow")
  return { identity, integratedTimeUnixMs }

def appraiseSession (snapshot : Snapshot L) (learned : Learned) (artifacts : Artifacts) (nowUnixMs : Int) :
    Except Error VerifiedSession := do
  let boot ← snapshot.verifyLoggedBoot learned artifacts.bootDocument artifacts.bootInclusion nowUnixMs
  rejectIf (artifacts.report.length < 0x90) (.attestation "report length")
  let commitment := slice artifacts.report 0x50 0x90
  let live ← snapshot.verifySnpReport learned artifacts.report commitment boot.record.gatewayReleaseId nowUnixMs
  rejectIf (live.reportId ≠ boot.hardware.reportId ∨ live.chipId ≠ boot.hardware.chipId)
    (.attestation "live report belongs to a different boot")
  return {
    boot, live, artifacts
    validity := boot.hardware.validity.intersect live.validity
    snapshotIdentity := snapshot.identity }

def reappraiseSession (snapshot : Snapshot L) (learned : Learned) (session : VerifiedSession) (nowUnixMs : Int) :
    Except Error VerifiedSession :=
  snapshot.appraiseSession learned session.artifacts nowUnixMs

def checkSession (snapshot : Snapshot L) (learned : Learned) (session : VerifiedSession) (nowUnixMs : Int) :
    Except Error Validity := do
  rejectIf (snapshot.identity ≠ session.snapshotIdentity) (.attestation "session needs appraisal against this snapshot")
  snapshot.requireCurrentKeys learned
  let boot := session.boot.hardware
  let first ← snapshot.collateralValidity learned boot.chipId boot.reportedTcb nowUnixMs
  let second ← snapshot.collateralValidity learned session.live.chipId session.live.reportedTcb nowUnixMs
  return first.intersect second

end Snapshot
end StogasVerifier.Evidence
