/-! The documents that the checks share (`types.rs`). -/

namespace StogasVerifier

/-- A release manifest and the build proof that names its files. -/
structure ReleaseEvidence (Value Document : Type) where
  document : Document
  provenance : Value

structure StogasSignature where
  keyId : String
  signature : String
  deriving DecidableEq, Repr

/-- A signed document and its proof of publication, which is some JSON value. -/
structure LoggedDocument (Value Document : Type) where
  document : Document
  signature : StogasSignature
  inclusion : Value

structure AmdTcb where
  bootloader : UInt8
  microcode : UInt8
  snp : UInt8
  tee : UInt8
  deriving DecidableEq, Repr

structure AmdSevSnpPolicy where
  chipIds : List String
  cpuidFamily : UInt8
  cpuidModel : UInt8
  cpuidStepping : UInt8
  forbiddenPlatformInfoMask : String
  minimumTcb : AmdTcb
  requiredCurrentMitigationMask : String
  requiredLaunchMitigationMask : String
  requiredPlatformInfoMask : String
  deriving DecidableEq, Repr

structure HardwarePolicy where
  policies : List AmdSevSnpPolicy
  schema : String
  version : Nat
  deriving DecidableEq, Repr

structure LaunchValues where
  authorKeyDigest : String
  familyId : String
  hostData : String
  idKeyDigest : String
  imageId : String
  policy : String
  vmpl : UInt8
  deriving DecidableEq, Repr

structure AmdSevSnpLaunchPolicy where
  launch : LaunchValues
  productName : String
  deriving DecidableEq, Repr

structure LaunchPolicies where
  policies : List AmdSevSnpLaunchPolicy
  schema : String
  deriving DecidableEq, Repr

structure ReleaseArtifact where
  sha256 : String
  sizeBytes : Nat
  deriving DecidableEq, Repr

structure ReleaseSource where
  commit : String
  repository : String
  sha256 : String
  tag : String
  deriving DecidableEq, Repr

structure CatalogReleaseArtifacts where
  public_ : ReleaseArtifact
  runtime : ReleaseArtifact
  deriving DecidableEq, Repr

structure CatalogReleaseManifest where
  minimumGatewaySequence : Nat
  artifacts : CatalogReleaseArtifacts
  schema : String
  sequence : Nat
  source : ReleaseSource
  deriving DecidableEq, Repr

structure GatewayReleaseArtifacts where
  gatewayIgvm : ReleaseArtifact
  deriving DecidableEq, Repr

structure GatewayReleaseBuildEnvironment where
  lcAll : String
  sourceDateEpoch : String
  tz : String
  umask : String
  deriving DecidableEq, Repr

/-- The inputs are a map from paths to digests, as a list in the order of the paths. -/
structure GatewayReleaseBuild where
  environment : GatewayReleaseBuildEnvironment
  goVendorTreeSha256 : String
  goVersion : String
  guestCaBundlePath : String
  guixChannelCommit : String
  inputSha256 : List (String × String)
  kernelConfigSha256 : String
  kernelVersion : String
  linuxBzImageSha256 : String
  ovmfSha256 : String
  systemdStubSha256 : String
  ukiSha256 : String
  deriving DecidableEq, Repr

structure GatewayReleaseSevSnp where
  checkKvm : Bool
  launchMeasurement : String
  launchPolicies : LaunchPolicies
  measurementCommand : String
  measurementTool : String
  measurementToolSha256 : String
  measurementToolVersion : String
  platform : String
  vcpuCount : Nat
  vmm : String
  deriving DecidableEq, Repr

structure GatewayReleaseManifest where
  artifacts : GatewayReleaseArtifacts
  build : GatewayReleaseBuild
  minimumCatalogSequence : Nat
  source : ReleaseSource
  schema : String
  sequence : Nat
  sevSnp : GatewayReleaseSevSnp
  deriving DecidableEq, Repr

abbrev AllowedIgvm (Value : Type) := ReleaseEvidence Value GatewayReleaseManifest
abbrev AllowedCatalog (Value : Type) := ReleaseEvidence Value CatalogReleaseManifest

inductive ReleaseProvenance where
  | github | staging
  deriving DecidableEq, Repr

structure VerifiedRelease where
  githubIntegratedTimeUnixMs : Option Int
  igvmSha256 : String
  launchPolicies : LaunchPolicies
  measurement : String
  minimumCatalogSequence : Nat
  provenance : ReleaseProvenance
  releaseTag : String
  releaseManifestSha256 : String
  sequence : Nat
  sourceCommit : String
  sourceRepository : String
  sourceSha256 : String
  vcpuCount : Nat
  deriving DecidableEq, Repr

structure VerifiedCatalogRelease where
  githubIntegratedTimeUnixMs : Option Int
  minimumGatewaySequence : Nat
  provenance : ReleaseProvenance
  publicDigest : String
  publicSizeBytes : Nat
  runtimeDigest : String
  runtimeSizeBytes : Nat
  sequence : Nat
  sourceCommit : String
  sourceRepository : String
  sourceSha256 : String
  sourceTag : String
  deriving DecidableEq, Repr

structure VerifiedHardwarePolicy where
  chipIds : List String
  policyCount : Nat
  sha256 : String
  version : Nat
  deriving DecidableEq, Repr

end StogasVerifier
