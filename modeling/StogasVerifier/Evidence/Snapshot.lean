import StogasVerifier.Approvals.Verifier
import StogasVerifier.Evidence.Collateral

/-! A snapshot of accepted evidence, and its appraisal of one SNP report
(`evidence.rs`, `evidence/snp.rs`). Learned keys and revocations are shared with the
verifier and change after the snapshot was made, so every check receives them. -/

namespace StogasVerifier.Evidence
open Lib Std
open Sigstore (Bytes hexEncode)
open Approvals (Environment KeyState VerifiedApprovals)

structure BootReportData where
  schema : String
  environment : Environment
  signingPublicKey : String
  hpkePublicKey : String
  tlsSpkiSha256 : String
  registrationChallenge : String
  deriving DecidableEq, Repr

structure BootRecord where
  schema : String
  gatewayReleaseId : String
  report : String
  reportData : BootReportData
  deriving DecidableEq, Repr

structure BootPublication where
  schema : String
  boot : BootRecord
  evidenceSha256 : String
  deriving DecidableEq, Repr

structure BootInclusion (Value : Type) where
  evidenceSha256 : String
  signature : StogasSignature
  inclusion : Value

structure AlgorithmIdentifier where
  algorithm : String
  parameters : Option Bytes
  deriving DecidableEq, Repr

inductive ParsedExtension where
  | authorityKeyIdentifier (keyIdentifier : Option Bytes)
  | subjectKeyIdentifier (key : Bytes)
  | crlNumber
  | parseError
  | other
  deriving DecidableEq, Repr

structure X509Extension where
  oid : String
  critical : Bool
  value : Bytes
  parsed : ParsedExtension
  deriving DecidableEq, Repr

/-- A parsed certificate, and what remains of the input after it. Times are in seconds. -/
structure X509Certificate where
  remaining : Bytes
  extensions : List X509Extension
  publicKey : Bytes
  subject : Bytes
  issuer : Bytes
  rawSerial : Bytes
  notBefore : Int
  notAfter : Int
  signatureAlgorithm : AlgorithmIdentifier
  tbsSignature : AlgorithmIdentifier

structure RevokedCertificate where
  rawSerial : Bytes
  extensions : List X509Extension

structure X509Crl where
  remaining : Bytes
  issuer : Bytes
  lastUpdate : Int
  nextUpdate : Option Int
  signatureAlgorithm : AlgorithmIdentifier
  tbsSignature : AlgorithmIdentifier
  tbsCertList : Bytes
  signatureValue : Bytes
  extensions : List X509Extension
  crlNumber : Option Nat
  revokedCertificates : List RevokedCertificate

structure RsaPssParameters where
  hashAlgorithmOid : String
  maskGenAlgorithm : Option (String × String)
  saltLength : Nat
  trailerField : Nat

structure StagingDevelopmentProvenance where
  statementType : String
  predicateType : String
  environment : String
  /-- Names with their digests by algorithm. -/
  subject : List (String × List (String × String))

structure SigstoreFiles where
  roots : List String
  targets : String
  trustedRoot : String
  deriving DecidableEq, Repr

structure Envelope (Value : Type) where
  schema : String
  bodySha256 : String
  bodySchema : String
  approvals : LoggedDocument Value (Approvals.ApprovalManifest (AllowedIgvm Value) (AllowedCatalog Value))
  vendorCollateral : List Value

structure AmdKdsPayload where
  caProductName : String
  chipId : Option String
  collateralType : String
  derBase64url : String
  fetchedAt : String
  reportedTcb : Option String
  schema : String
  sha256 : String
  source : String
  sourceUrl : String
  deriving DecidableEq, Repr

/-- What the evidence checks take from other libraries. -/
structure Libraries extends toApprovals : Approvals.Libraries where
  /-- Whether the verifier was built for staging as well. -/
  stagingBuild : Bool
  jsonFromSlice : Bytes → Except String Value
  gatewayValue : GatewayReleaseManifest → Except String Value
  catalogValue : CatalogReleaseManifest → Except String Value
  allowedGatewayValue : AllowedIgvm Value → Except String Value
  allowedCatalogValue : AllowedCatalog Value → Except String Value
  launchPoliciesValue : LaunchPolicies → Except String Value
  profileValue : AmdSevSnpPolicy → Except String Value
  readStaging : Value → Except String StagingDevelopmentProvenance
  readSigstoreFiles : Value → Except String SigstoreFiles
  sigstoreFilesValue : SigstoreFiles → Except String Value
  /-- `verify_trust_update`: the keys that Sigstore's own TUF metadata authorizes. -/
  verifyTrustUpdate : List Bytes → Bytes → Bytes → Except String Sigstore.TrustedRoot
  embedded : Except String Sigstore.TrustedRoot
  readEnvelope : Value → Except String (Envelope Value)
  readAmdKds : Value → Except String AmdKdsPayload
  readRecord : Value → Except String BootRecord
  readInclusion : Value → Except String (BootInclusion Value)
  readArchive : Value → Except String (LoggedDocument Value BootPublication)
  recordValue : BootRecord → Except String Value
  inclusionValue : BootInclusion Value → Value
  reportDataValue : BootReportData → Except String Value
  publicationValue : BootPublication → Except String Value
  xWingPublicKey : Bytes → Except String Unit
  parseX509Certificate : Bytes → Except String X509Certificate
  parseX509Crl : Bytes → Except String X509Crl
  /-- The parameters of RSA-PSS, if it is that algorithm; absent when they cannot be read. -/
  signatureAlgorithm : AlgorithmIdentifier → Option (Option RsaPssParameters)
  RsaPublicKey : Type
  PssSignature : Type
  rsaFromPublicKeyDer : Bytes → Except String RsaPublicKey
  pssSignature : Bytes → Except String PssSignature
  pssVerifySha384 : RsaPublicKey → Bytes → PssSignature → Except String Unit
  SevCertificate : Type
  sevCertificateFromDer : Bytes → Except String SevCertificate
  /-- Whether the first certificate signed the second. -/
  sevVerify : SevCertificate → SevCertificate → Except String Unit
  SevChain : Type
  sevChainFromDer : Bytes → Bytes → Bytes → Except String SevChain
  sevChainVerify : SevChain → Except String Unit
  sha384 : Bytes → Bytes
  P384Key : Type
  P384Signature : Type
  p384FromDer : Bytes → Except String P384Key
  p384FromScalars : Bytes → Bytes → Except String P384Signature
  p384VerifyPrehash : P384Key → Bytes → P384Signature → Except String Unit
  toLowercase : String → String

def parseDerIa5String : Bytes → Option String
  | 0x16 :: length :: bytes =>
    if length.toNat ≠ bytes.length ∨ 0x80 ≤ length.toNat ∨ ¬ bytes.all (· < 0x80) then none
    else some (String.ofList (bytes.map fun byte => Char.ofNat byte.toNat))
  | _ => none

namespace Libraries
variable (L : Libraries)

def validateReportProductBinding (vekDer report : Bytes) : Except ReportError AmdProductProfile := do
  let vek ← (L.parseX509Certificate vekDer).mapError fun error => .node s!"AMD VEK: {error}"
  rejectIf (vek.remaining ≠ []) (.node "AMD VEK contains trailing data")
  let extension := vek.extensions.find? fun extension => extension.oid = "1.3.6.1.4.1.3704.1.2"
  let productName ← required (extension.bind fun extension => parseDerIa5String extension.value)
    (.node "AMD VCEK productName is malformed")
  let certificateProduct ← required (amdProductFromVcekName productName) (.node "AMD VCEK productName is unsupported")
  let reportVersion := u32At report 0
  rejectIf (reportVersion < 2 ∨ 5 < reportVersion) (.node "unsupported SNP report version")
  let (_, _, _, reportProduct) ← inspectReportProduct report reportVersion
  match reportProduct with
  | some product =>
    rejectIf (product ≠ certificateProduct) (.node "AMD VCEK product differs from the report CPUID")
    return certificateProduct
  | none =>
    rejectIf (certificateProduct.tcbLayout ≠ .family19h) (.node "Family 1Ah VCEK requires report CPUID fields")
    return certificateProduct

def verifyRawSnpReportSignature (report publicKeyDer : Bytes) (label : String) : Except ReportError Unit := do
  rejectIf (report.length ≠ reportBytes) (.node s!"{label} SNP report has the wrong size")
  let key ← (L.p384FromDer publicKeyDer).mapError fun error => .node s!"{label} AMD report signing key: {error}"
  let signature := slice report 0x2a0 0x4a0
  rejectIf (¬ allZero (slice signature 48 72) ∨ ¬ allZero (slice signature 120 144) ∨ ¬ allZero (signature.drop 144))
    (.node s!"{label} SNP signature reserved bytes are nonzero")
  let r := (slice signature 0 48).reverse
  let s := (slice signature 72 120).reverse
  let signature ← (L.p384FromScalars r s).mapError fun error => .node s!"{label} SNP signature encoding: {error}"
  (L.p384VerifyPrehash key (L.sha384 (report.take 0x2a0)) signature).mapError fun error =>
    .node s!"{label} SNP signature: {error}"

def verifyRawSnpReportSignatureWithVcek (report vcekDer : Bytes) (nodeId : String) : Except ReportError Unit := do
  let vcek ← (L.parseX509Certificate vcekDer).mapError fun error => .node s!"{nodeId} AMD VCEK: {error}"
  rejectIf (vcek.remaining ≠ []) (.node s!"{nodeId} AMD VCEK contains trailing data")
  L.verifyRawSnpReportSignature report vcek.publicKey nodeId

end Libraries

structure Learned where
  keyState : KeyState
  revocations : Revocations

/-- An immutable result, and when it was first obtained. -/
structure Cached (Result : Type) where
  digest : String
  verifiedAt : Int
  value : Result

structure Snapshot (L : Libraries) where
  bodySha256 : String
  /-- Which snapshot this is, whatever it holds. -/
  identity : Nat
  approvals : VerifiedApprovals L.toApprovals
  gateways : TreeMap String (Cached VerifiedRelease) compare
  catalogs : TreeMap String (Cached VerifiedCatalogRelease) compare
  hardware : VerifiedHardwarePolicy
  collateral : Store

structure VerifiedSnpReport where
  nodeId : String
  reportId : Bytes
  chipId : String
  reportedTcb : String
  facts : SnpHardwareFacts
  validity : Validity

def attestationError (error : ReportError) : Error := .attestation error.text

namespace Snapshot
variable {L : Libraries}

def requireCurrentKeys (snapshot : Snapshot L) (learned : Learned) : Except Error Unit :=
  (learned.keyState.requireCurrent snapshot.approvals.keys).mapError .approval

def gateway (snapshot : Snapshot L) (releaseId : String) : Option VerifiedRelease :=
  snapshot.gateways[releaseId]?.map Cached.value

def catalog (snapshot : Snapshot L) (releaseId : String) : Option VerifiedCatalogRelease :=
  snapshot.catalogs[releaseId]?.map Cached.value

/-- The interval for one chip and TCB, up to the root's deadline. -/
def collateralValidity (snapshot : Snapshot L) (learned : Learned) (chipId reportedTcb : String) (nowUnixMs : Int) :
    Except Error Validity := do
  let expires ← (snapshot.approvals.validUntil nowUnixMs).mapError .approval
  let validity ← snapshot.collateral.validity L.toLowercase learned.revocations chipId reportedTcb nowUnixMs
  return { validity with notAfterUnixMs := min validity.notAfterUnixMs expires }

def verifySnpReport (snapshot : Snapshot L) (learned : Learned) (report expectedReportData : Bytes) (releaseId : String)
    (nowUnixMs : Int) : Except Error VerifiedSnpReport := do
  snapshot.requireCurrentKeys learned
  rejectIf (report.length ≠ reportBytes) (.attestation "SNP report has the wrong size")
  let release ← required (snapshot.gateway releaseId) (.approval (.notApproved "gateway"))
  let reportId := slice report 0x140 0x160
  let nodeId := snpNodeId reportId
  let chipId := hexEncode (slice report 0x1a0 0x1e0)
  let reportedTcb := hexEncode (slice report 0x180 0x188)
  let vcek ← snapshot.collateral.vcek L.toLowercase chipId reportedTcb
  let product ← (L.validateReportProductBinding vcek report).mapError attestationError
  let launch ← (compatibleLaunchPolicy release.launchPolicies product).mapError attestationError
  (checkRawReportBindings ⟨nodeId, chipId, reportedTcb, hexEncode expectedReportData⟩ release.measurement launch report
    (some snapshot.approvals.manifest.hardwarePolicy)).mapError attestationError
  (L.verifyRawSnpReportSignatureWithVcek report vcek nodeId).mapError attestationError
  let validity ← snapshot.collateralValidity learned chipId reportedTcb nowUnixMs
  return { nodeId, reportId, chipId, reportedTcb, facts := SnpHardwareFacts.fromReport report, validity }

end Snapshot
end StogasVerifier.Evidence
