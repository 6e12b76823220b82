import StogasVerifier.Evidence.Session

/-! Registered boots (`evidence/boot.rs`): the complete document again, or the compact
facts that an authority kept of it. -/

namespace StogasVerifier.Evidence
open Lib
open Sigstore (Bytes hexEncode)

/-- `reported_tcb` of the retained facts, as the report has it. -/
def SnpHardwareFacts.reportedTcbHex (facts : SnpHardwareFacts) : String :=
  let tcb := facts.reportedTcb
  hexEncode [tcb.bootloader, tcb.tee, 0, 0, 0, 0, tcb.snp, tcb.microcode]

structure RegisteredBootFacts where
  nodeId : String
  chipId : String
  gatewayReleaseId : String
  hardware : SnpHardwareFacts

def VerifiedRegistration.registeredFacts (registration : VerifiedRegistration) : RegisteredBootFacts where
  nodeId := registration.hardware.nodeId
  chipId := registration.hardware.chipId
  gatewayReleaseId := registration.record.gatewayReleaseId
  hardware := registration.hardware.facts

namespace Snapshot
variable {L : Libraries}

def verifyRegistration (snapshot : Snapshot L) (learned : Learned) (document : Bytes) (challenge : List.Vector UInt8 32)
    (nowUnixMs : Int) : Except Error VerifiedRegistration := do
  let record ← L.parseRecord document
  rejectIf ((← lowerHex 32 record.reportData.registrationChallenge) ≠ challenge.toList) (.attestation "registration challenge differs")
  snapshot.verifyBootReport learned document record nowUnixMs

/-- The exact boot that was registered before, under the current policy. -/
def verifyRegisteredBoot (snapshot : Snapshot L) (learned : Learned) (document : Bytes) (registeredSha256 : List.Vector UInt8 32)
    (nowUnixMs : Int) : Except Error VerifiedRegistration := do
  let record ← L.parseRecord document
  rejectIf (L.sha256 document ≠ registeredSha256) (.attestation "boot differs from registered digest")
  snapshot.verifyBootReport learned document record nowUnixMs

def appraiseRegisteredBoot (snapshot : Snapshot L) (learned : Learned) (facts : RegisteredBootFacts) (nowUnixMs : Int) :
    Except Error Unit := do
  snapshot.requireCurrentKeys learned
  let _ ← required (snapshot.gateway facts.gatewayReleaseId) (.approval (.notApproved "gateway"))
  (appraiseHardware snapshot.approvals.manifest.hardwarePolicy facts.chipId fun profile =>
    facts.hardware.appraise profile facts.nodeId).mapError attestationError
  let _ ← snapshot.collateralValidity learned facts.chipId facts.hardware.reportedTcbHex nowUnixMs
  return

end Snapshot
end StogasVerifier.Evidence
