import StogasVerifier.Sigstore.Attestation
import StogasVerifier.Evidence.Snapshot

/-! The objects that an approval lists (`lib.rs`): release manifests with their build
proofs, and the hardware policy. -/

namespace StogasVerifier.Evidence
open Lib
open Sigstore (Bytes hexEncode SubjectDigest GithubPolicy TrustedRoot)
open Approvals (VerifiedApprovals Environment)

def maxNodes : Nat := 1024
def maxSafeInteger : Nat := 9007199254740991
def stagingProvenanceType : String := "https://stogas.ai/attestations/staging-development/v1"

def checkedMul (first second : Nat) : Option Nat := if first * second < 2 ^ 64 then some (first * second) else none
def checkedAdd (first second : Nat) : Option Nat := if first + second < 2 ^ 64 then some (first + second) else none

def parseComponent (part : List Char) : Option Nat :=
  if part = [] ∨ (1 < part.length ∧ part.head? = some '0') ∨ ¬ part.all Char.isDigit then none
  else (Sigstore.parseDigits part).filter (· < 2 ^ 64)

def componentBase : Nat := 1000000

/-- The sequence of a tag `v{major}.{minor}.{patch}`. -/
def gatewayReleaseSequence (releaseTag : String) : Option Nat := do
  let rest ← dropStart ['v'] releaseTag.toList
  let [major, minor, patch] := rest.splitOn '.' | none
  let major ← parseComponent major
  let minor ← parseComponent minor
  let patch ← parseComponent patch
  if componentBase ≤ minor ∨ componentBase ≤ patch then none
  else
    let high ← checkedMul major (componentBase * componentBase)
    let sum ← checkedAdd high (← checkedMul minor componentBase)
    let sequence ← checkedAdd sum patch
    if 0 < sequence ∧ sequence ≤ maxSafeInteger then some sequence else none

def isPrefixedLowerHex (value : String) (bytes : Nat) : Bool :=
  match dropStart ['0', 'x'] value.toList with
  | some hex => isLowerHex (String.ofList hex) bytes
  | none => false

def validArtifact (artifact : ReleaseArtifact) (maximumBytes : Nat) : Bool :=
  isLowerHex artifact.sha256 32 ∧ 1 ≤ artifact.sizeBytes ∧ artifact.sizeBytes ≤ maximumBytes

def validateCatalogShape (manifest : CatalogReleaseManifest) : Except ReportError Unit :=
  rejectIf (manifest.schema ≠ "stogas.catalog.release.v1" ∨ manifest.minimumGatewaySequence = 0 ∨
      maxSafeInteger < manifest.minimumGatewaySequence ∨ manifest.sequence = 0 ∨ maxSafeInteger < manifest.sequence ∨
      manifest.source.repository ≠ "https://github.com/StogasAI/catalog" ∨
      manifest.source.tag ≠ s!"catalog-v{manifest.sequence}" ∨ ¬ isLowerHex manifest.source.commit 20 ∨
      ¬ isLowerHex manifest.source.sha256 32 ∨ ¬ validArtifact manifest.artifacts.runtime (64 * 1024 * 1024) ∨
      ¬ validArtifact manifest.artifacts.public_ (64 * 1024 * 1024))
    (.invalidBundle "invalid catalog release shape")

def gatewayReleaseManifestShapeIsValid (manifest : GatewayReleaseManifest) : Bool :=
  let sevSnp := manifest.sevSnp
  let build := manifest.build
  manifest.schema = "stogas.gateway.release.v1" ∧
  manifest.source.repository = "https://github.com/StogasAI/gateway" ∧
  gatewayReleaseSequence manifest.source.tag = some manifest.sequence ∧
  0 < manifest.minimumCatalogSequence ∧ manifest.minimumCatalogSequence ≤ maxSafeInteger ∧
  manifest.source.tag.utf8ByteSize ≤ 100 ∧
  isLowerHex manifest.source.commit 20 ∧ isLowerHex manifest.source.sha256 32 ∧
  isLowerHex manifest.artifacts.gatewayIgvm.sha256 32 ∧
  0 < manifest.artifacts.gatewayIgvm.sizeBytes ∧ manifest.artifacts.gatewayIgvm.sizeBytes ≤ 128 * 1024 * 1024 ∧
  sevSnp.checkKvm ∧ sevSnp.platform = "SEV_SNP" ∧ sevSnp.vmm = "qemu-kvm" ∧
  sevSnp.measurementCommand = "igvmmeasure --check-kvm gateway.igvm measure" ∧ sevSnp.measurementTool = "igvmmeasure" ∧
  sevSnp.measurementToolVersion ≠ "" ∧ sevSnp.measurementToolVersion.utf8ByteSize ≤ 100 ∧
  isLowerHex sevSnp.measurementToolSha256 32 ∧ isLowerHex sevSnp.launchMeasurement 48 ∧
  0 < sevSnp.vcpuCount ∧ sevSnp.vcpuCount ≤ 1024 ∧
  build.environment.lcAll = "C" ∧ build.environment.sourceDateEpoch = "1" ∧ build.environment.tz = "UTC" ∧
  build.environment.umask = "022" ∧ build.guestCaBundlePath = "/etc/ssl/certs/ca-certificates.crt" ∧
  isLowerHex build.guixChannelCommit 20 ∧
  build.inputSha256 ≠ [] ∧ build.inputSha256.length ≤ 256 ∧
  build.goVersion ≠ "" ∧ build.goVersion.utf8ByteSize ≤ 200 ∧
  build.kernelVersion ≠ "" ∧ build.kernelVersion.utf8ByteSize ≤ 100

def gatewayBuildInputs : List String :=
  ["core/go.mod", "core/go.sum", "transports/go.mod", "transports/go.sum", "guix/nss-certs/ca-certificates.crt",
    "stogas/release/guix/cmdline.txt", "stogas/release/guix/os-release", "stogas/release/pins.lock.json"]

def validateGatewayReleaseBuild (build : GatewayReleaseBuild) : Except ReportError Unit := do
  match gatewayBuildInputs.find? fun path => !(build.inputSha256.any fun input => input.1 = path) with
  | some path => throw (.invalidBundle s!"gateway build input is absent: {path}")
  | none =>
    rejectIf (¬ [build.goVendorTreeSha256, build.kernelConfigSha256, build.linuxBzImageSha256, build.ovmfSha256,
        build.systemdStubSha256, build.ukiSha256].all fun digest => isLowerHex digest 32)
      (.invalidBundle "gateway release build digest is invalid")
    rejectIf (build.inputSha256.any fun input => input.1 = "" || decide (256 < input.1.utf8ByteSize) || !isLowerHex input.2 32)
      (.invalidBundle "gateway release build input is invalid")

def snpPolicyCommonRequired : Nat := snpPolicyPageSwapDisable ||| snpPolicySingleSocket ||| snpPolicyReservedMustBeOne
def snpPolicyCommonForbidden : Nat := snpPolicyCxlAllow ||| snpPolicyDebug ||| snpPolicyMigrateMa

def validateSnpLaunchPolicy (policy : Nat) (product : AmdProductProfile) : Except ReportError Unit := do
  rejectIf (policy >>> 26 ≠ 0) (.node "authorized SNP launch policy sets reserved high bits")
  let mask := snpPolicyCommonRequired ||| product.requiredPolicyBits
  rejectIf (policy &&& mask ≠ mask) (.node s!"authorized SNP launch policy lacks required {product.productName} protections")
  rejectIf (policy &&& snpPolicyCommonForbidden ≠ 0)
    (.node "authorized SNP launch policy permits CXL, debugging, or migration")
  let major := (policy >>> 8) &&& 0xff
  let minor := policy &&& 0xff
  let minimum := product.minimumPolicyAbi
  rejectIf (major < minimum.1 ∨ (major = minimum.1 ∧ minor < minimum.2))
    (.node s!"authorized SNP launch policy ABI {major}.{minor} is older than required {minimum.1}.{minimum.2}")

def validateGatewayLaunchPolicy (launch : LaunchValues) (product : AmdProductProfile) : Except ReportError Unit := do
  rejectIf (¬ isLowerHex launch.familyId 16 ∨ ¬ isLowerHex launch.imageId 16 ∨ ¬ isLowerHex launch.hostData 32 ∨
      ¬ isLowerHex launch.idKeyDigest 48 ∨ ¬ isLowerHex launch.authorKeyDigest 48 ∨ launch.vmpl ≠ 0 ∨
      ¬ isPrefixedLowerHex launch.policy 8)
    (.invalidBundle "invalid gateway launch policy")
  let policy ← required (parseRadix16 (launch.policy.toList.drop 2)) (.invalidBundle "invalid SNP launch policy")
  (validateSnpLaunchPolicy policy product).mapError fun error => .invalidBundle s!"invalid gateway launch policy: {error.text}"

/-- The loop of `validate_gateway_launch_policies`: products in increasing order. -/
def validateLaunchPolicies (previous : Option String) : List AmdSevSnpLaunchPolicy → Except ReportError Unit
  | [] => .ok ()
  | policy :: policies => do
    rejectIf (previous.any fun previous => policy.productName ≤ previous)
      (.invalidBundle "gateway launch policies are duplicated or not sorted by product")
    let product ← required (amdProductProfiles.find? fun profile => profile.productName = policy.productName)
      (.invalidBundle "gateway launch policy names an unsupported AMD product")
    validateGatewayLaunchPolicy policy.launch product
    validateLaunchPolicies (some policy.productName) policies

def validateGatewayLaunchPolicies (policies : LaunchPolicies) : Except ReportError Unit := do
  rejectIf (policies.schema ≠ "stogas.snp-launch-policies.v1" ∨ policies.policies = [])
    (.invalidBundle "invalid gateway launch policies")
  validateLaunchPolicies none policies.policies

/-- Chip identifiers in increasing order. -/
def validChipIds (previous : Option String) : List String → Bool
  | [] => true
  | chipId :: chipIds =>
    isLowerHex chipId 64 && !(previous.any fun previous => chipId ≤ previous) && validChipIds (some chipId) chipIds

def validPlatformMasks (mask forbidden : Nat) : Bool :=
  mask &&& forbidden = 0 ∧ mask &&& (2 ^ 64 - 1 - snpPlatformInfoKnownMask) = 0 ∧
    forbidden &&& (2 ^ 64 - 1 - snpPlatformInfoKnownMask) = 0

namespace Libraries
variable (L : Libraries)

/-- `canonical_json` with the crate's own error. -/
def canonicalText (value : L.Value) : Except ReportError String :=
  match L.canonicalize value with
  | .error error => .error (.invalidBundle s!"canonical JSON: {error}")
  | .ok text => .ok (text ++ "\n")

def textSha256 (text : String) : String := hexEncode (L.sha256 text.toUTF8.toList).toList

/-- The loop of `validate_hardware_policy` over the groups, in their canonical order. -/
def validateProfiles (previous : Option String) : List AmdSevSnpPolicy → Except ReportError Unit
  | [] => .ok ()
  | profile :: profiles => do
    rejectIf (profile.chipIds = [] ∨ maxNodes < profile.chipIds.length)
      (.invalidBundle "hardware policy group has no chip ids or is too large")
    rejectIf (¬ validChipIds none profile.chipIds)
      (.invalidBundle "hardware policy has an invalid, unsorted, or duplicate chip id")
    let value ← (L.profileValue profile).mapError fun error => .invalidBundle s!"hardware policy: {error}"
    let group ← L.canonicalText value
    rejectIf (previous.any fun previous => group ≤ previous)
      (.invalidBundle "hardware policy groups are duplicated or not canonically ordered")
    let builtIn ← required (amdProductFromCpuid profile.cpuidFamily profile.cpuidModel)
      (.invalidBundle "hardware policy has an unsupported CPUID")
    rejectIf (builtIn.tcbLayout ≠ .family19h)
      (.invalidBundle "hardware policy CPUID is not supported by this policy format")
    let mask ← parseU64Hex profile.requiredPlatformInfoMask "required platform-info mask"
    let forbidden ← parseU64Hex profile.forbiddenPlatformInfoMask "forbidden platform-info mask"
    rejectIf (¬ validPlatformMasks mask forbidden) (.invalidBundle "hardware policy has invalid platform-info masks")
    let _ ← parseU64Hex profile.requiredLaunchMitigationMask "required launch mitigation mask"
    let _ ← parseU64Hex profile.requiredCurrentMitigationMask "required current mitigation mask"
    validateProfiles (some group) profiles

def validateHardwarePolicy (policy : HardwarePolicy) : Except ReportError String := do
  rejectIf (policy.schema ≠ "stogas.hardware-policies.v1" ∨ ¬ Approvals.validRevision policy.version ∨ policy.policies = [] ∨
      maxNodes < policy.policies.length)
    (.invalidBundle "unsupported or invalid hardware policy")
  L.validateProfiles none policy.policies
  let value ← (L.hardwareValue policy).mapError fun error => .invalidBundle s!"hardware policy: {error}"
  L.canonicalText value

def verifyHardwarePolicy (policy : HardwarePolicy) : Except ReportError VerifiedHardwarePolicy := do
  let canonical ← L.validateHardwarePolicy policy
  return {
    chipIds := ((policy.policies.flatMap AmdSevSnpPolicy.chipIds).mergeSort fun first second => first ≤ second).eraseDups
    policyCount := policy.policies.length
    sha256 := L.textSha256 canonical
    version := policy.version }

def validateGatewayReleaseManifest (manifest : GatewayReleaseManifest) : Except ReportError Unit := do
  rejectIf (¬ gatewayReleaseManifestShapeIsValid manifest) (.invalidBundle "invalid gateway release manifest shape")
  validateGatewayReleaseBuild manifest.build
  validateGatewayLaunchPolicies manifest.sevSnp.launchPolicies
  let value ← (L.launchPoliciesValue manifest.sevSnp.launchPolicies).mapError fun error =>
    .invalidBundle s!"launch policy serialization: {error}"
  let launchPolicies ← L.canonicalText value
  rejectIf ((manifest.build.inputSha256.lookup "stogas/release/snp-launch-policies.json") ≠ some (L.textSha256 launchPolicies))
    (.invalidBundle "gateway launch policy artifact does not match the release manifest")

/-- `release_manifest_sha256` of a serialized manifest. -/
def releaseManifestSha256 (value : Except String L.Value) : Except ReportError String := do
  let value ← value.mapError .release
  return L.textSha256 (← L.canonicalText value)

def stagingSubjects : List (String × List (String × String)) → List (String × String) → Except ReportError (List (String × String))
  | [], actual => .ok actual
  | (name, digests) :: subjects, actual => do
    rejectIf (digests.length ≠ 1) (.release "staging development provenance subject digest is invalid")
    let digest ← required (digests.lookup "sha256") (.release "staging development provenance requires SHA-256 subjects")
    rejectIf (actual.any fun other => other.1 = name) (.release "staging development provenance has duplicate subjects")
    stagingSubjects subjects ((name, digest) :: actual)

def isStagingDevelopmentProvenance (bytes : Bytes) (expected : List SubjectDigest) : Except ReportError Bool := do
  let value ← (L.jsonFromSlice bytes).mapError fun error => .release s!"invalid provenance JSON: {error}"
  if L.textAt value "predicateType" ≠ some stagingProvenanceType then return false
  else
    let statement ← (L.readStaging value).mapError fun error => .release s!"invalid staging development provenance: {error}"
    rejectIf (statement.statementType ≠ "https://in-toto.io/Statement/v1" ∨ statement.predicateType ≠ stagingProvenanceType ∨
        statement.environment ≠ "staging" ∨ statement.subject.length ≠ expected.length)
      (.release "invalid staging development provenance policy")
    let actual ← stagingSubjects statement.subject []
    rejectIf (¬ expected.all fun subject => actual.lookup subject.name = some subject.sha256)
      (.release "staging development provenance subjects differ")
    return true

def verifyGithubProvenance (trust : TrustedRoot) (attestation : Bytes) (expected : List SubjectDigest) (policy : GithubPolicy)
    (nowUnixMs : Int) (context : String) : Except ReportError (Option Int × ReleaseProvenance) := do
  let verified ← (L.verifyGithubAttestation trust attestation expected policy nowUnixMs).mapError fun error =>
    .release s!"{context}: {error.text}"
  let integratedTime ← required (Approvals.checkedThousand verified.integratedTime)
    (.release s!"{context} GitHub integration time overflows")
  return (some integratedTime, .github)

def verifyProvenance (trust : TrustedRoot) (attestation : Bytes) (expected : List SubjectDigest) (policy : GithubPolicy)
    (nowUnixMs : Int) (context : String) : Except ReportError (Option Int × ReleaseProvenance) := do
  let placeholder ← if L.stagingBuild then L.isStagingDevelopmentProvenance attestation expected else pure false
  if placeholder then return (none, .staging)
  else L.verifyGithubProvenance trust attestation expected policy nowUnixMs context

def releasePolicy (source : ReleaseSource) (workflow : String) : GithubPolicy where
  repository := source.repository
  workflowIdentity := s!"{workflow}@refs/tags/{source.tag}"
  sourceRef := s!"refs/tags/{source.tag}"
  sourceCommit := source.commit
  predicateType := "https://slsa.dev/provenance/v1"

def verifyReleaseProvenance (attestation : Bytes) (manifest : GatewayReleaseManifest) (manifestDigest : String)
    (trust : TrustedRoot) (nowUnixMs : Int) : Except ReportError (Option Int × ReleaseProvenance) :=
  L.verifyProvenance trust attestation
    [⟨"release-manifest.json", manifestDigest⟩, ⟨"gateway.igvm", manifest.artifacts.gatewayIgvm.sha256⟩]
    (releasePolicy manifest.source "https://github.com/StogasAI/gateway/.github/workflows/gateway-igvm-release.yml")
    nowUnixMs "gateway provenance"

def verifyCatalogProvenance (attestation : Bytes) (manifest : CatalogReleaseManifest) (manifestDigest : String)
    (trust : TrustedRoot) (nowUnixMs : Int) : Except ReportError (Option Int × ReleaseProvenance) :=
  L.verifyProvenance trust attestation
    [⟨"catalog-release.json", manifestDigest⟩, ⟨"catalog.runtime.json", manifest.artifacts.runtime.sha256⟩,
      ⟨"catalog.public.json", manifest.artifacts.public_.sha256⟩]
    (releasePolicy manifest.source "https://github.com/StogasAI/catalog/.github/workflows/catalog-release.yml")
    nowUnixMs "catalog provenance"

def verifyGatewayRelease (release : AllowedIgvm L.Value) (trust : TrustedRoot) (nowUnixMs : Int) :
    Except ReportError VerifiedRelease := do
  let manifest := release.document
  L.validateGatewayReleaseManifest manifest
  let manifestDigest ← L.releaseManifestSha256 (L.gatewayValue manifest)
  let attestation ← (L.toVec release.provenance).mapError .release
  let (githubIntegratedTimeUnixMs, provenance) ← L.verifyReleaseProvenance attestation manifest manifestDigest trust nowUnixMs
  return {
    githubIntegratedTimeUnixMs, provenance
    igvmSha256 := manifest.artifacts.gatewayIgvm.sha256
    launchPolicies := manifest.sevSnp.launchPolicies
    measurement := manifest.sevSnp.launchMeasurement
    minimumCatalogSequence := manifest.minimumCatalogSequence
    releaseManifestSha256 := manifestDigest
    releaseTag := manifest.source.tag
    sequence := manifest.sequence
    sourceCommit := manifest.source.commit
    sourceRepository := manifest.source.repository
    sourceSha256 := manifest.source.sha256
    vcpuCount := manifest.sevSnp.vcpuCount }

def verifyCatalogRelease (catalog : AllowedCatalog L.Value) (trust : TrustedRoot) (nowUnixMs : Int) :
    Except ReportError VerifiedCatalogRelease := do
  let manifest := catalog.document
  validateCatalogShape manifest
  let manifestDigest ← L.releaseManifestSha256 (L.catalogValue manifest)
  let attestation ← (L.toVec catalog.provenance).mapError .release
  let (githubIntegratedTimeUnixMs, provenance) ← L.verifyCatalogProvenance attestation manifest manifestDigest trust nowUnixMs
  return {
    githubIntegratedTimeUnixMs, provenance
    minimumGatewaySequence := manifest.minimumGatewaySequence
    publicDigest := s!"sha256:{manifest.artifacts.public_.sha256}"
    publicSizeBytes := manifest.artifacts.public_.sizeBytes
    runtimeDigest := s!"sha256:{manifest.artifacts.runtime.sha256}"
    runtimeSizeBytes := manifest.artifacts.runtime.sizeBytes
    sequence := manifest.sequence
    sourceCommit := manifest.source.commit
    sourceRepository := manifest.source.repository
    sourceSha256 := manifest.source.sha256
    sourceTag := manifest.source.tag }

end Libraries

def acceptsProvenance : Environment → ReleaseProvenance → Bool
  | .production, .github => true
  | .staging, _ => true
  | .production, .staging => false

variable {L : Libraries}

def verifyGateway (approvals : VerifiedApprovals L.toApprovals) (release : AllowedIgvm L.Value) (nowUnixMs : Int) :
    Except Approvals.Error VerifiedRelease := do
  let verified ← (L.verifyGatewayRelease release approvals.sigstore.trustedRoot nowUnixMs).mapError fun error => .evidence error.text
  rejectIf (¬ acceptsProvenance approvals.keys.environment verified.provenance) .authority
  return verified

def verifyCatalog (approvals : VerifiedApprovals L.toApprovals) (catalog : AllowedCatalog L.Value) (nowUnixMs : Int) :
    Except Approvals.Error VerifiedCatalogRelease := do
  let verified ← (L.verifyCatalogRelease catalog approvals.sigstore.trustedRoot nowUnixMs).mapError fun error => .evidence error.text
  rejectIf (¬ acceptsProvenance approvals.keys.environment verified.provenance) .authority
  return verified

end StogasVerifier.Evidence
