import StogasVerifier.Lib.Fallible
import StogasVerifier.Types
import StogasVerifier.Sigstore.Publication

/-! Raw SNP attestation reports: their fields, and the checks of a report against
a release's launch values and the hardware policy (`lib.rs`, `evidence/snp.rs`). -/

namespace StogasVerifier.Evidence
open Lib
open Sigstore (Bytes hexEncode)

/-- The crate's own errors, as far as these checks return them. -/
inductive ReportError where
  | invalidBundle (reason : String)
  | release (reason : String)
  | node (reason : String)
  deriving DecidableEq, Repr

def ReportError.text : ReportError → String
  | .invalidBundle reason => s!"unsupported or invalid bundle: {reason}"
  | .release reason => s!"release verification failed: {reason}"
  | .node reason => s!"node verification failed: {reason}"

inductive AmdTcbLayout where
  | family19h | family1ah
  deriving DecidableEq, Repr

def snpPolicyPageSwapDisable : Nat := 2 ^ 25
def snpPolicyMemAes256Xts : Nat := 2 ^ 22
def snpPolicyCxlAllow : Nat := 2 ^ 21
def snpPolicySingleSocket : Nat := 2 ^ 20
def snpPolicyDebug : Nat := 2 ^ 19
def snpPolicyMigrateMa : Nat := 2 ^ 18
def snpPolicyReservedMustBeOne : Nat := 2 ^ 17

structure AmdProductProfile where
  productName : String
  rootSpkiSha384 : String
  structVersion : UInt8
  tcbLayout : AmdTcbLayout
  minimumPolicyAbi : Nat × Nat
  requiredPolicyBits : Nat
  deriving DecidableEq, Repr

def milan : AmdProductProfile where
  productName := "Milan"
  rootSpkiSha384 := "1249f67f15cf229a4069195e1a9ce537d1765ef706a1f4a123c36be9518786515d25ecc007f366b564d2b3f31c48082e"
  structVersion := 0
  tcbLayout := .family19h
  minimumPolicyAbi := (1, 58)
  requiredPolicyBits := 0

def genoa : AmdProductProfile where
  productName := "Genoa"
  rootSpkiSha384 := "32ab53a6ce5ec14926207396e5c475ae768a6a9831b7e860b5acf2e1c1dff222bc5a8bfc43eb5e06393189c1f246d880"
  structVersion := 0
  tcbLayout := .family19h
  minimumPolicyAbi := (1, 58)
  requiredPolicyBits := snpPolicyMemAes256Xts

def siena : AmdProductProfile := { genoa with productName := "Siena" }

def turin : AmdProductProfile where
  productName := "Turin"
  rootSpkiSha384 := "3475f08a9727f8ac9a1deaea5f2a2097aa59d64d05c2a678c229c873e6359d3a6926287a2a22cd5f88a385e333a2fcc5"
  structVersion := 1
  tcbLayout := .family1ah
  minimumPolicyAbi := (1, 58)
  requiredPolicyBits := snpPolicyMemAes256Xts

def amdProductProfiles : List AmdProductProfile := [milan, genoa, siena, turin]

def snpPlatformInfoKnownMask : Nat := 0xbf
def reportBytes : Nat := 0x4a0

def slice (bytes : Bytes) (start stop : Nat) : Bytes := (bytes.drop start).take (stop - start)
def byteAt (bytes : Bytes) (offset : Nat) : UInt8 := bytes.getD offset 0
def littleEndian (bytes : Bytes) : Nat := bytes.foldr (fun byte total => byte.toNat + 256 * total) 0
def u32At (bytes : Bytes) (offset : Nat) : Nat := littleEndian (slice bytes offset (offset + 4))
def u64At (bytes : Bytes) (offset : Nat) : Nat := littleEndian (slice bytes offset (offset + 8))
def allZero (bytes : Bytes) : Bool := bytes.all (· = 0)

def hexValue (char : Char) : Option Nat :=
  if '0' ≤ char ∧ char ≤ '9' then some (char.toNat - 48)
  else if 'a' ≤ char ∧ char ≤ 'f' then some (char.toNat - 87)
  else if 'A' ≤ char ∧ char ≤ 'F' then some (char.toNat - 55)
  else none

/-- `hex::decode` -/
def hexDecode (text : String) : Option Bytes := decodePairs text.toList
where
  decodePairs : List Char → Option Bytes
    | [] => some []
    | [_] => none
    | high :: low :: rest => do
      let high ← hexValue high
      let low ← hexValue low
      return UInt8.ofNat (16 * high + low) :: (← decodePairs rest)

/-- `u64::from_str_radix(_, 16)` -/
def parseRadix16 (chars : List Char) : Option Nat := do
  let digits := match chars with
    | '+' :: digits => digits
    | digits => digits
  let values ← digits.mapM hexValue
  let number := values.foldl (fun total value => 16 * total + value) 0
  if digits = [] ∨ 2 ^ 64 ≤ number then none else some number

def trimStartMarks : List Char → List Char
  | '0' :: 'x' :: rest => trimStartMarks rest
  | chars => chars

def isLowerHex (value : String) (bytes : Nat) : Bool :=
  value.utf8ByteSize = bytes * 2 ∧
    value.toList.all fun char => decide ('0' ≤ char ∧ char ≤ '9') || decide ('a' ≤ char ∧ char ≤ 'f')

def parseU64Hex (value label : String) : Except ReportError Nat :=
  let number := match value.toList with
    | '0' :: 'x' :: hex => if isLowerHex (String.ofList hex) 8 then parseRadix16 hex else none
    | _ => none
  required number (.invalidBundle s!"hardware policy {label} is invalid")

def amdProductFromCpuid (family model : UInt8) : Option AmdProductProfile :=
  let named (name : String) := amdProductProfiles.find? fun profile => profile.productName = name
  match family.toNat, model.toNat / 16 with
  | 0x19, 0x0 => named "Milan"
  | 0x19, 0x1 => named "Genoa"
  | 0x19, 0xa => named "Siena"
  | 0x1a, 0x0 => named "Turin"
  | 0x1a, 0x1 => named "Turin"
  | _, _ => none

def dropStart (marker : List Char) (chars : List Char) : Option (List Char) :=
  if marker.isPrefixOf chars then some (chars.drop marker.length) else none

def amdProductFromVcekName (value : String) : Option AmdProductProfile :=
  amdProductProfiles.find? fun profile =>
    value = profile.productName ||
      match (dropStart profile.productName.toList value.toList).bind (dropStart ['-']) with
      | none => false
      | some stepping => stepping ≠ [] ∧ stepping.length ≤ 8 ∧ stepping.all Char.isAlphanum

/-- The processor that a report names: family, model, stepping and product. Reports
of version 2 have no such fields. -/
def inspectReportProduct (report : Bytes) (reportVersion : Nat) :
    Except ReportError (Option UInt8 × Option UInt8 × Option UInt8 × Option AmdProductProfile) :=
  if reportVersion = 2 then do
    rejectIf (allZero (slice report 0x1a8 0x1e0) ∧ ¬ allZero (slice report 0x1a0 0x1a8))
      (.node "Family 1Ah-shaped CHIP_ID requires a report with CPUID fields")
    return (none, none, none, none)
  else do
    let family := byteAt report 0x188
    let model := byteAt report 0x189
    let stepping := byteAt report 0x18a
    let product ← required (amdProductFromCpuid family model) (.node "unsupported AMD processor family or model")
    rejectIf (product.tcbLayout = .family1ah ∧ reportVersion < 5)
      (.node "Family 1Ah requires SNP attestation report version 5 or newer")
    return (some family, some model, some stepping, some product)

def family19hTcb (bytes : Bytes) : AmdTcb where
  bootloader := byteAt bytes 0
  tee := byteAt bytes 1
  snp := byteAt bytes 6
  microcode := byteAt bytes 7

def tcbAtLeast (actual minimum : AmdTcb) : Bool :=
  minimum.bootloader ≤ actual.bootloader ∧ minimum.tee ≤ actual.tee ∧ minimum.snp ≤ actual.snp ∧
    minimum.microcode ≤ actual.microcode

structure SnpHardwareFacts where
  reportVersion : Nat
  cpuid : Bytes
  currentTcb : AmdTcb
  reportedTcb : AmdTcb
  committedTcb : AmdTcb
  launchTcb : AmdTcb
  currentVersion : Bytes
  committedVersion : Bytes
  platformInfo : Nat
  launchMitigations : Nat
  currentMitigations : Nat

namespace SnpHardwareFacts

def fromReport (report : Bytes) : SnpHardwareFacts where
  reportVersion := u32At report 0
  cpuid := [byteAt report 0x188, byteAt report 0x189, byteAt report 0x18a]
  currentTcb := family19hTcb (slice report 0x38 0x40)
  reportedTcb := family19hTcb (slice report 0x180 0x188)
  committedTcb := family19hTcb (slice report 0x1e0 0x1e8)
  launchTcb := family19hTcb (slice report 0x1f0 0x1f8)
  currentVersion := [byteAt report 0x1ea, byteAt report 0x1e9, byteAt report 0x1e8]
  committedVersion := [byteAt report 0x1ee, byteAt report 0x1ed, byteAt report 0x1ec]
  platformInfo := u64At report 0x40
  launchMitigations := u64At report 0x1f8
  currentMitigations := u64At report 0x200

def checkMitigations (actual : Nat) (mask nodeId reason : String) : Except ReportError Unit := do
  let mask ← parseU64Hex mask "required mitigation mask"
  rejectIf (actual &&& mask ≠ mask) (.node s!"{nodeId} {reason}")

def checkTcb (actual minimum : AmdTcb) (nodeId label : String) : Except ReportError Unit :=
  rejectIf (¬ tcbAtLeast actual minimum) (.node s!"{nodeId} SNP {label} TCB is below hardware policy")

/-- One approved configuration, as a whole. -/
def appraise (facts : SnpHardwareFacts) (profile : AmdSevSnpPolicy) (nodeId : String) : Except ReportError Unit := do
  rejectIf (facts.reportVersion ≠ 5) (.node s!"{nodeId} SNP report version is below hardware policy")
  rejectIf (facts.cpuid ≠ [profile.cpuidFamily, profile.cpuidModel, profile.cpuidStepping])
    (.node s!"{nodeId} CPUID differs from hardware policy")
  checkTcb facts.currentTcb profile.minimumTcb nodeId "current"
  checkTcb facts.reportedTcb profile.minimumTcb nodeId "reported"
  checkTcb facts.committedTcb profile.minimumTcb nodeId "committed"
  checkTcb facts.launchTcb profile.minimumTcb nodeId "launch"
  rejectIf (¬ tcbAtLeast facts.committedTcb facts.reportedTcb ∨ ¬ tcbAtLeast facts.currentTcb facts.committedTcb)
    (.node s!"{nodeId} SNP TCB fields have an invalid downgrade order")
  rejectIf (facts.currentVersion < facts.committedVersion)
    (.node s!"{nodeId} SNP committed firmware version exceeds current version")
  let platform := facts.platformInfo
  let mask ← parseU64Hex profile.requiredPlatformInfoMask "required platform-info mask"
  let forbidden ← parseU64Hex profile.forbiddenPlatformInfoMask "forbidden platform-info mask"
  rejectIf (platform &&& mask ≠ mask ∨ platform &&& forbidden ≠ 0)
    (.node s!"{nodeId} SNP platform information is below hardware policy")
  checkMitigations facts.launchMitigations profile.requiredLaunchMitigationMask nodeId
    "SNP launch mitigations are below hardware policy"
  checkMitigations facts.currentMitigations profile.requiredCurrentMitigationMask nodeId
    "SNP current mitigations are below hardware policy"

end SnpHardwareFacts

def appraiseSnpReport (report : Bytes) (product : Option AmdProductProfile) (profile : AmdSevSnpPolicy) (nodeId : String) :
    Except ReportError Unit := do
  rejectIf (amdProductFromCpuid profile.cpuidFamily profile.cpuidModel ≠ product)
    (.node s!"{nodeId} SNP processor identity differs from hardware policy")
  (SnpHardwareFacts.fromReport report).appraise profile nodeId

/-- The loop of `appraise_hardware`: the first profile that passes, or the first error. -/
def appraiseEach (appraise : AmdSevSnpPolicy → Except ReportError Unit) :
    List AmdSevSnpPolicy → Option ReportError → Except ReportError Unit
  | [], firstError => .error (firstError.getD (.node "chip id is absent from the signed hardware policy"))
  | profile :: profiles, firstError =>
    match appraise profile with
    | .ok () => .ok ()
    | .error error => appraiseEach appraise profiles (some (firstError.getD error))

def appraiseHardware (policy : HardwarePolicy) (chipId : String) (appraise : AmdSevSnpPolicy → Except ReportError Unit) :
    Except ReportError Unit :=
  appraiseEach appraise
    (policy.policies.filter fun profile => profile.chipIds.any fun candidate => candidate.toLower = chipId.toLower) none

def checkReserved (report : Bytes) (nodeId : String) (offset : Nat) (label : String) : Except ReportError Unit :=
  rejectIf (¬ allZero (slice report (offset + 2) (offset + 6))) (.node s!"{nodeId} SNP {label} TCB reserved bytes are nonzero")

def validateRawSnpReportEncoding (report : Bytes) (reportVersion : Nat) (product : Option AmdProductProfile) (nodeId : String) :
    Except ReportError Unit := do
  let zeroRanges : List (Nat × Nat) :=
    if reportVersion = 5 then [(0x4c, 0x50), (0x18b, 0x1a0), (0x208, 0x2a0)]
    else [(0x4c, 0x50), (0x188, 0x1a0), (0x1f8, 0x2a0)]
  rejectIf ((zeroRanges.any fun range => !allZero (slice report range.1 range.2)) ∨ byteAt report 0x1eb ≠ 0 ∨
      byteAt report 0x1ef ≠ 0)
    (.node s!"{nodeId} SNP report reserved bytes are nonzero")
  rejectIf (u64At report 0x40 &&& (2 ^ 64 - 1 - snpPlatformInfoKnownMask) ≠ 0)
    (.node s!"{nodeId} SNP platform information sets reserved bits")
  if product.any fun profile => profile.tcbLayout = .family19h then
    checkReserved report nodeId 0x38 "current"
    checkReserved report nodeId 0x180 "reported"
    checkReserved report nodeId 0x1e0 "committed"
    checkReserved report nodeId 0x1f0 "launch"

def isAbsentSnpMigrationAgentId (value : Bytes) : Bool := value.all (· = 0) || value.all (· = 0xff)

structure ExpectedSnpReport where
  nodeId : String
  chipId : String
  reportedTcb : String
  reportDataSha512 : String

def hexBytes (size : Nat) (value label : String) : Except ReportError Bytes := do
  let decoded ← required (hexDecode value) (.node s!"invalid {label}")
  rejectIf (decoded.length ≠ size) (.node s!"invalid {label} length")
  return decoded

def checkRawReportBindings (node : ExpectedSnpReport) (measurement : String) (launch : LaunchValues) (report : Bytes)
    (hardwarePolicy : Option HardwarePolicy) : Except ReportError Unit := do
  rejectIf (report.length ≠ reportBytes) (.node "SNP report has the wrong size")
  let expectedPolicy ← required (parseRadix16 (trimStartMarks launch.policy.toList)) (.node "invalid launch policy value")
  let reportVersion := u32At report 0
  let nodeId := node.nodeId
  rejectIf (reportVersion < 2 ∨ 5 < reportVersion) (.node s!"{nodeId} SNP report version differs")
  let (_, _, _, reportProduct) ← inspectReportProduct report reportVersion
  validateRawSnpReportEncoding report reportVersion reportProduct nodeId
  let reportInfo := u32At report 0x48
  let authorKeyPresent := launch.authorKeyDigest.toList.any (· ≠ '0')
  let familyId ← hexBytes 16 launch.familyId "family id"
  let imageId ← hexBytes 16 launch.imageId "image id"
  let reportData ← hexBytes 64 node.reportDataSha512 "report data"
  let measured ← hexBytes 48 measurement "measurement"
  let hostData ← hexBytes 32 launch.hostData "host data"
  let idKeyDigest ← hexBytes 48 launch.idKeyDigest "id key digest"
  let authorKeyDigest ← hexBytes 48 launch.authorKeyDigest "author key digest"
  let reportedTcb ← hexBytes 8 node.reportedTcb "reported TCB"
  let chipId ← hexBytes 64 node.chipId "chip id"
  let checks : List (Bool × String) := [
    (slice report 0x10 0x20 = familyId, "family id"),
    (slice report 0x20 0x30 = imageId, "image id"),
    (slice report 0x50 0x90 = reportData, "report data"),
    (slice report 0x90 0xc0 = measured, "measurement"),
    (slice report 0xc0 0xe0 = hostData, "host data"),
    (slice report 0xe0 0x110 = idKeyDigest, "id key digest"),
    (slice report 0x110 0x140 = authorKeyDigest, "author key digest"),
    (slice report 0x180 0x188 = reportedTcb, "reported TCB"),
    (slice report 0x1a0 0x1e0 = chipId, "chip id"),
    (u32At report 0x30 = launch.vmpl.toNat, "VMPL"),
    (u64At report 0x08 = expectedPolicy, "guest policy"),
    (u32At report 0x34 = 1, "signature algorithm"),
    (reportInfo &&& (2 ^ 32 - 2) = 0, "VCEK signing key information"),
    (decide (reportInfo &&& 1 ≠ 0) = authorKeyPresent, "author key flag"),
    (expectedPolicy &&& snpPolicyMigrateMa ≠ 0 ∨ isAbsentSnpMigrationAgentId (slice report 0x160 0x180),
      "migration-agent report id")]
  match checks.find? fun check => !check.1 with
  | some (_, label) => throw (.node s!"{nodeId} SNP {label} differs")
  | none =>
    match hardwarePolicy with
    | none => return
    | some policy =>
      appraiseHardware policy node.chipId fun profile => appraiseSnpReport report reportProduct profile nodeId

def compatibleLaunchPolicy (policies : LaunchPolicies) (product : AmdProductProfile) : Except ReportError LaunchValues :=
  let name := product.productName
  required ((policies.policies.find? fun policy => policy.productName = name).map AmdSevSnpLaunchPolicy.launch)
    (.node s!"the release has no launch policy for AMD {name}")

def adjectives : List String :=
  ["amber", "bright", "clear", "direct", "early", "firm", "green", "high", "inner", "level", "prime", "quiet", "ready", "solid",
    "steady", "true"]

def nouns : List String :=
  ["anchor", "beacon", "bridge", "forge", "guard", "harbor", "index", "keystone", "ledger", "marker", "nexus", "pivot", "relay",
    "signal", "vector", "watch"]

/-- `snp_node_id` of `attestation/identity.rs` -/
def snpNodeId (reportId : Bytes) : String :=
  let first := (byteAt reportId 0).toNat
  adjectives.getD (first / 16) "" ++ "-" ++ nouns.getD (first % 16) "" ++ "-" ++ hexEncode reportId

end StogasVerifier.Evidence
