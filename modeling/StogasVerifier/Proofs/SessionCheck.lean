import Mathlib
import StogasVerifier.Evidence.Session

/-! A session that a snapshot appraised once needs only the current checks later.
The other checks read immutable bytes, except that the log's time must not lie in
the future, and time only makes that easier. -/

namespace StogasVerifier
open Lib

namespace Sigstore.Libraries
variable {L : Libraries} {now later : Int}

theorem verifyPublication_mono {entry root} {time : Int} (order : now ≤ later)
    (ok : L.verifyPublication entry now root = .ok time) : L.verifyPublication entry later root = .ok time := by
  simp only [verifyPublication, bind_ok, rejectIf_ok, pure_ok, exists_unit] at ok ⊢
  obtain ⟨integrated, parsed, past, rest⟩ := ok
  exact ⟨integrated, parsed, by omega, rest⟩

theorem verifyHashedRekord_mono {value : L.Value} {artifact : Bytes} {root} {time : Int} (order : now ≤ later)
    (ok : L.verifyHashedRekord value artifact now root = .ok time) :
    L.verifyHashedRekord value artifact later root = .ok time := by
  simp only [verifyHashedRekord, bind_ok, rejectIf_ok, mapError_ok, exists_unit] at ok ⊢
  obtain ⟨bundle, read, media, rest⟩ := ok
  refine ⟨bundle, read, media, ?_⟩
  rcases entries : bundle.tlogEntries with _ | ⟨entry, _ | _⟩
  · simp [entries, throw_ok] at rest
  · simp only [entries, bind_ok, exists_unit] at rest ⊢
    exact ⟨rest.1, verifyPublication_mono (Int.ediv_le_ediv (by decide) order) rest.2⟩
  · simp [entries, throw_ok] at rest

theorem verifyRekorDocumentInclusion_mono {trust} {bundle artifact : Bytes} {time : Int} (order : now ≤ later)
    (ok : L.verifyRekorDocumentInclusion trust bundle artifact now = .ok time) :
    L.verifyRekorDocumentInclusion trust bundle artifact later = .ok time := by
  simp only [verifyRekorDocumentInclusion, bind_ok, rejectIf_ok, mapError_ok, exists_unit] at ok ⊢
  obtain ⟨sizes, value, parsed, verified⟩ := ok
  exact ⟨sizes, value, parsed, verifyHashedRekord_mono order verified⟩

end Sigstore.Libraries

namespace Approvals.Libraries

theorem verifyDocumentInclusion_mono {L : Libraries} {document inclusion : L.Value} {signature : StogasSignature}
    {trust : Sigstore.TrustedRoot} {now later time : Int} (order : now ≤ later)
    (ok : L.verifyDocumentInclusion document signature inclusion trust now = .ok time) :
    L.verifyDocumentInclusion document signature inclusion trust later = .ok time := by
  simp only [verifyDocumentInclusion, bind_ok, mapError_ok] at ok ⊢
  obtain ⟨artifact, canonical, bundle, bytes, verified⟩ := ok
  exact ⟨artifact, canonical, bundle, bytes, Sigstore.Libraries.verifyRekorDocumentInclusion_mono order verified⟩

end Approvals.Libraries

namespace Evidence
open Sigstore (Bytes hexEncode)

def chipIdOf (report : Bytes) : String := hexEncode (slice report 0x1a0 0x1e0)
def reportedTcbOf (report : Bytes) : String := hexEncode (slice report 0x180 0x188)

def appraisedReport (report : Bytes) (validity : Validity) : VerifiedSnpReport where
  nodeId := snpNodeId (slice report 0x140 0x160)
  reportId := slice report 0x140 0x160
  chipId := chipIdOf report
  reportedTcb := reportedTcbOf report
  facts := SnpHardwareFacts.fromReport report
  validity := validity

namespace Snapshot
variable {L : Libraries} {snapshot : Snapshot L} {learned : Learned} {now later : Int}

def Binds (snapshot : Snapshot L) (report expectedReportData : Bytes) (releaseId : String) : Prop :=
  report.length = reportBytes ∧ ∃ release, snapshot.gateway releaseId = some release ∧
    ∃ vcek, snapshot.collateral.vcek L.toLowercase (chipIdOf report) (reportedTcbOf report) = .ok vcek ∧
    ∃ product, L.validateReportProductBinding vcek report = .ok product ∧
    ∃ launch, compatibleLaunchPolicy release.launchPolicies product = .ok launch ∧
    checkRawReportBindings ⟨snpNodeId (slice report 0x140 0x160), chipIdOf report, reportedTcbOf report,
      hexEncode expectedReportData⟩ release.measurement launch report (some snapshot.approvals.manifest.hardwarePolicy) = .ok () ∧
    L.verifyRawSnpReportSignatureWithVcek report vcek (snpNodeId (slice report 0x140 0x160)) = .ok ()

theorem verifySnpReport_ok {report expectedReportData : Bytes} {releaseId : String} {verified} :
    snapshot.verifySnpReport learned report expectedReportData releaseId now = .ok verified ↔
      snapshot.requireCurrentKeys learned = .ok () ∧ snapshot.Binds report expectedReportData releaseId ∧
      ∃ validity, snapshot.collateralValidity learned (chipIdOf report) (reportedTcbOf report) now = .ok validity ∧
        appraisedReport report validity = verified := by
  simp only [verifySnpReport, bind_ok, rejectIf_ok, required_ok, mapError_ok, pure_ok, exists_unit, not_not]
  constructor
  · intro ok
    obtain ⟨current, size, release, approved, vcek, stored, product, bound, launch, compatible, checked, signed, rest⟩ := ok
    exact ⟨current, ⟨size, release, approved, vcek, stored, product, bound, launch, compatible, checked, signed⟩, rest⟩
  · intro ok
    obtain ⟨current, ⟨size, release, approved, vcek, stored, product, bound, launch, compatible, checked, signed⟩, rest⟩ := ok
    exact ⟨current, size, release, approved, vcek, stored, product, bound, launch, compatible, checked, signed, rest⟩

/-- The checks of a logged boot that depend on bytes alone: what was logged, with
which proof, and the report and the commitment inside. -/
structure Logs (snapshot : Snapshot L) (document inclusion : Bytes) (record : BootRecord) (report commitment : Bytes)
    (publication : L.Value) (proof : BootInclusion L.Value) : Prop where
  parsed : L.parseRecord document = .ok record
  size : ¬ maxEvidenceBytes < document.length + inclusion.length
  read : ∃ value, L.strictJson inclusion = .ok value ∧ L.readInclusion value = .ok proof
  named : isLowerHex proof.evidenceSha256 32 = true
  published : L.publicationValue ⟨bootPublicationSchema, record, proof.evidenceSha256⟩ = .ok publication
  signed : ∃ signer, ((snapshot.approvals.keys.activeKey :: snapshot.approvals.keys.retiredKeys).find? fun key =>
      key.keyId = proof.signature.keyId) = some signer ∧
    L.verifySignature publication proof.signature signer.keyId signer.publicKey = .ok ()
  environment : record.reportData.environment = snapshot.approvals.keys.environment
  decoded : L.decodeField record.report reportBytes = .ok report
  committed : L.commitment record.reportData = .ok commitment

theorem verifyLoggedBoot_ok {document inclusion : Bytes} {boot} :
    snapshot.verifyLoggedBoot learned document inclusion now = .ok boot ↔
      ∃ record report commitment publication proof,
        snapshot.Logs document inclusion record report commitment publication proof ∧
        ∃ integrated, L.verifyDocumentInclusion publication proof.signature proof.inclusion
          snapshot.approvals.sigstore.trustedRoot now = .ok integrated ∧
        ∃ hardware, snapshot.verifySnpReport learned report commitment record.gatewayReleaseId now = .ok hardware ∧
        ∃ millis, Approvals.checkedThousand integrated = some millis ∧
          VerifiedBoot.mk ⟨record, hardware, L.sha256 document⟩ millis = boot := by
  simp only [verifyLoggedBoot, verifyBootReport, bind_ok, rejectIf_ok, required_ok, mapError_ok, pure_ok, exists_unit, not_not]
  constructor
  · intro ok
    obtain ⟨record, parsed, size, value, json, proof, read, named, signer, found, publication, published, signed, integrated,
      included, identity, ⟨environment, report, decoded, commitment, committed, hardware, appraised, rfl⟩, millis, fits, rfl⟩ := ok
    exact ⟨record, report, commitment, publication, proof,
      ⟨parsed, size, ⟨value, json, read⟩, named, published, ⟨signer, found, signed⟩, environment, decoded, committed⟩,
      integrated, included, hardware, appraised, millis, fits, rfl⟩
  · intro ok
    obtain ⟨record, report, commitment, publication, proof,
      ⟨parsed, size, ⟨value, json, read⟩, named, published, ⟨signer, found, signed⟩, environment, decoded, committed⟩,
      integrated, included, hardware, appraised, millis, fits, rfl⟩ := ok
    exact ⟨record, parsed, size, value, json, proof, read, named, signer, found, publication, published, signed, integrated,
      included, _, ⟨environment, report, decoded, commitment, committed, hardware, appraised, rfl⟩, millis, fits, rfl⟩

/-- The checks of a session that depend on bytes alone, with both of its reports
and the time that the log gives. -/
structure Identifies (snapshot : Snapshot L) (artifacts : Artifacts) (record : BootRecord) (report commitment : Bytes)
    (publication : L.Value) (proof : BootInclusion L.Value) (integrated millis : Int) : Prop where
  logged : snapshot.Logs artifacts.bootDocument artifacts.bootInclusion record report commitment publication proof
  boot : snapshot.Binds report commitment record.gatewayReleaseId
  fits : Approvals.checkedThousand integrated = some millis
  length : ¬ artifacts.report.length < 0x90
  live : snapshot.Binds artifacts.report (slice artifacts.report 0x50 0x90) record.gatewayReleaseId
  sameReport : slice artifacts.report 0x140 0x160 = slice report 0x140 0x160
  sameChip : chipIdOf artifacts.report = chipIdOf report

def appraisedSession (snapshot : Snapshot L) (artifacts : Artifacts) (record : BootRecord) (report : Bytes) (millis : Int)
    (first second : Validity) : VerifiedSession where
  boot := ⟨⟨record, appraisedReport report first, L.sha256 artifacts.bootDocument⟩, millis⟩
  live := appraisedReport artifacts.report second
  validity := first.intersect second
  snapshotIdentity := snapshot.identity
  artifacts := artifacts

theorem appraiseSession_ok {artifacts session} :
    snapshot.appraiseSession learned artifacts now = .ok session ↔
      snapshot.requireCurrentKeys learned = .ok () ∧
      ∃ record report commitment publication proof integrated millis,
        snapshot.Identifies artifacts record report commitment publication proof integrated millis ∧
        L.verifyDocumentInclusion publication proof.signature proof.inclusion
          snapshot.approvals.sigstore.trustedRoot now = .ok integrated ∧
        ∃ first, snapshot.collateralValidity learned (chipIdOf report) (reportedTcbOf report) now = .ok first ∧
        ∃ second, snapshot.collateralValidity learned (chipIdOf artifacts.report) (reportedTcbOf artifacts.report) now =
          .ok second ∧ snapshot.appraisedSession artifacts record report millis first second = session := by
  simp only [appraiseSession, bind_ok, rejectIf_ok, pure_ok, exists_unit, not_or, not_not, verifyLoggedBoot_ok,
    verifySnpReport_ok]
  constructor
  · intro ok
    obtain ⟨boot, ⟨record, report, commitment, publication, proof, logged, integrated, included, hardware,
      ⟨current, binds, first, valid, rfl⟩, millis, fits, rfl⟩, length, live, ⟨-, liveBinds, second, also, rfl⟩,
      ⟨sameReport, sameChip⟩, rfl⟩ := ok
    exact ⟨current, record, report, commitment, publication, proof, integrated, millis,
      ⟨logged, binds, fits, length, liveBinds, sameReport, sameChip⟩, included, first, valid, second, also, rfl⟩
  · intro ok
    obtain ⟨current, record, report, commitment, publication, proof, integrated, millis,
      ⟨logged, binds, fits, length, liveBinds, sameReport, sameChip⟩, included, first, valid, second, also, rfl⟩ := ok
    exact ⟨_, ⟨record, report, commitment, publication, proof, logged, integrated, included, _,
      ⟨current, binds, first, valid, rfl⟩, millis, fits, rfl⟩, length, _, ⟨current, liveBinds, second, also, rfl⟩,
      ⟨sameReport, sameChip⟩, rfl⟩

theorem checkSession_ok {artifacts record} {report : Bytes} {millis : Int} {before after validity : Validity} :
    snapshot.checkSession learned (snapshot.appraisedSession artifacts record report millis before after) now = .ok validity ↔
      snapshot.requireCurrentKeys learned = .ok () ∧
      ∃ first, snapshot.collateralValidity learned (chipIdOf report) (reportedTcbOf report) now = .ok first ∧
      ∃ second, snapshot.collateralValidity learned (chipIdOf artifacts.report) (reportedTcbOf artifacts.report) now =
        .ok second ∧ first.intersect second = validity := by
  simp only [checkSession, bind_ok, rejectIf_ok, pure_ok, exists_unit, not_not]
  exact ⟨fun ok => ok.2, fun ok => ⟨rfl, ok⟩⟩

theorem Logs.report_unique {document inclusion report commitment report' commitment' : Bytes} {record record'}
    {publication publication' : L.Value} {proof proof'}
    (first : snapshot.Logs document inclusion record report commitment publication proof)
    (second : snapshot.Logs document inclusion record' report' commitment' publication' proof') : report = report' := by
  have same := first.parsed.symm.trans second.parsed
  cases same
  have equal := first.decoded.symm.trans second.decoded
  cases equal
  rfl

/-- At every later time and whatever was learned meanwhile, the current checks of
a session pass exactly if its complete appraisal passes again, and then both give
the same validity. -/
theorem check_session_iff {earlier learned : Learned} {artifacts : Artifacts} {session : VerifiedSession} {start now : Int}
    (appraised : snapshot.appraiseSession earlier artifacts start = .ok session) (order : start ≤ now) :
    ((∃ validity, snapshot.checkSession learned session now = .ok validity) ↔
      ∃ again, snapshot.reappraiseSession learned session now = .ok again) ∧
    ∀ validity again, snapshot.checkSession learned session now = .ok validity →
      snapshot.reappraiseSession learned session now = .ok again → again.validity = validity := by
  obtain ⟨-, record, report, commitment, publication, proof, integrated, millis, identified, included, before, -, after, -, rfl⟩ :=
    appraiseSession_ok.mp appraised
  have included := Approvals.Libraries.verifyDocumentInclusion_mono order included
  -- Both sides evaluate the same two intervals, of the same two reports.
  have same : ∀ validity, snapshot.checkSession learned (snapshot.appraisedSession artifacts record report millis before after)
        now = .ok validity ↔
      ∃ again, snapshot.appraiseSession learned artifacts now = .ok again ∧ again.validity = validity := by
    intro validity
    rw [checkSession_ok]
    constructor
    · intro ok
      obtain ⟨current, first, valid, second, also, rfl⟩ := ok
      exact ⟨_, appraiseSession_ok.mpr ⟨current, record, report, commitment, publication, proof, integrated, millis, identified,
        included, first, valid, second, also, rfl⟩, rfl⟩
    · intro ok
      obtain ⟨again, ok, rfl⟩ := ok
      obtain ⟨current, record', report', commitment', publication', proof', integrated', millis', identified', -, first, valid,
        second, also, rfl⟩ := appraiseSession_ok.mp ok
      cases identified.logged.report_unique identified'.logged
      exact ⟨current, first, valid, second, also, rfl⟩
  refine ⟨⟨?_, ?_⟩, ?_⟩
  · intro ok
    obtain ⟨validity, ok⟩ := ok
    obtain ⟨again, done, -⟩ := (same validity).mp ok
    exact ⟨again, done⟩
  · intro ok
    obtain ⟨again, done⟩ := ok
    exact ⟨again.validity, (same again.validity).mpr ⟨again, done, rfl⟩⟩
  · intro validity again ok done
    obtain ⟨other, also, rfl⟩ := (same validity).mp ok
    have equal : Except.ok again = Except.ok other := done.symm.trans also
    cases equal
    rfl

end Snapshot

def repeated (char : Char) (count : Nat) : String := String.ofList (List.replicate count char)
def zeros (count : Nat) : String := repeated '0' count
def blank (count : Nat) : String := repeated 'A' count

def sampleReport : Bytes :=
  [5] ++ List.replicate 0x33 0 ++ [1] ++ List.replicate 0x153 0 ++ [0x19, 1, 1] ++ List.replicate 0x315 0

def sampleKey : Approvals.OnlineKey := ⟨"key", "", ""⟩
def sampleKeys : Approvals.KeyManifest := ⟨"stogas.keys.v1", .production, 1, "2100-01-01T00:00:00Z", sampleKey, []⟩

def sampleRecord : BootRecord :=
  ⟨bootSchema, zeros 64, blank 1579, ⟨reportDataSchema, .production, blank 2646, blank 1622, zeros 64, zeros 64⟩⟩

def sampleEntry : Sigstore.TransparencyLogEntry where
  logIndex := "0"
  logIdKeyId := "log"
  kind := "hashedrekord"
  version := "0.0.1"
  integratedTime := "1"
  inclusionPromise := some "promise"
  inclusionProof := some ⟨"0", "root", "1", [], "checkpoint"⟩
  canonicalizedBody := "body"

def sampleCertificate : X509Certificate where
  remaining := []
  extensions := [⟨"1.3.6.1.4.1.3704.1.2", false, [0x16, 5, 0x4d, 0x69, 0x6c, 0x61, 0x6e], .other⟩]
  publicKey := []
  subject := []
  issuer := []
  rawSerial := []
  notBefore := 0
  notAfter := 100
  signatureAlgorithm := ⟨"", none⟩
  tbsSignature := ⟨"", none⟩

/-- Every signature holds and every digest is zero. -/
def sampleLibraries : Libraries where
  Value := Unit
  strictJson := fun _ => .ok ()
  null := ()
  get := fun _ _ => none
  isObject := fun _ => false
  asArray := fun _ => none
  asStr := fun _ => none
  readStatement := fun _ => .error "no statement"
  readDsseBundle := fun _ => .error "no bundle"
  readDsseBody := fun _ => .error "no body"
  fulcioFromDer := fun _ => .error "no certificate"
  utf8FromDer := fun _ => .error "no text"
  verifyForUsage := fun _ _ _ => .ok []
  parseSct := fun _ => .error "no timestamp"
  verifySpki := fun _ _ _ _ => .ok ()
  timestampTime := fun _ _ => .error "no token"
  verifyTimestampSigner := fun _ _ _ => .ok ()
  readBundle := fun _ => .ok ⟨Sigstore.Libraries.bundleMediaType, "SHA2_512", "signature", "signature", zeros 64, [sampleEntry]⟩
  readBody := fun _ => .ok ⟨"0.0.1", "hashedrekord", "sha512", zeros 128, "signature", "submitter"⟩
  standardDecode := fun text => .ok (List.replicate (if text = "signature" then 64 else 32) 0)
  parseTime := fun _ => .ok 0
  sha256 := fun _ => List.Vector.replicate 32 0
  sha512 := fun _ => List.replicate 64 0
  parsePem := fun _ => some ("PUBLIC KEY", [])
  Ed25519Key := Unit
  ed25519FromDer := fun _ => some ()
  verifyPrehashedStrict := fun _ _ _ => true
  canonicalSet := fun _ => .ok []
  verifySpkiAuto := fun _ _ _ => .ok ()
  verifyCheckpoint := fun _ _ _ _ _ => .ok ()
  keysValue := fun _ => .ok ()
  approvalsValue := fun _ => .ok ()
  hardwareValue := fun _ => .ok ()
  signedValue := fun _ _ => ()
  readKeys := fun _ => .ok ⟨sampleKeys, ⟨"root", ""⟩, ()⟩
  toVec := fun _ => .ok []
  canonicalize := fun _ => .ok ""
  standardEncode := fun _ => ""
  urlSafeDecode := fun text => .ok (if text.utf8ByteSize = 1579 then sampleReport else List.replicate (text.utf8ByteSize * 6 / 8) 0)
  urlSafeEncode := fun bytes => blank ((bytes.length * 8 + 5) / 6)
  publicKeyFromSpki := fun bytes => .ok bytes
  verifySigning := fun _ _ _ => .ok ()
  ed25519IsWeak := fun _ => .ok false
  parseRfc3339 := fun text => some ⟨0, 0, text⟩
  stagingBuild := false
  jsonFromSlice := fun _ => .ok ()
  gatewayValue := fun _ => .ok ()
  catalogValue := fun _ => .ok ()
  allowedGatewayValue := fun _ => .ok ()
  allowedCatalogValue := fun _ => .ok ()
  launchPoliciesValue := fun _ => .ok ()
  profileValue := fun _ => .ok ()
  readStaging := fun _ => .error "no provenance"
  readSigstoreFiles := fun _ => .error "no files"
  sigstoreFilesValue := fun _ => .ok ()
  verifyTrustUpdate := fun _ _ _ => .error "no update"
  embedded := .error "no root"
  readEnvelope := fun _ => .error "no envelope"
  readAmdKds := fun _ => .error "no collateral"
  readRecord := fun _ => .ok sampleRecord
  readInclusion := fun _ => .ok ⟨zeros 64, ⟨"key", blank 4498⟩, ()⟩
  readArchive := fun _ => .error "no archive"
  recordValue := fun _ => .ok ()
  inclusionValue := fun _ => ()
  reportDataValue := fun _ => .ok ()
  publicationValue := fun _ => .ok ()
  xWingPublicKey := fun _ => .ok ()
  parseX509Certificate := fun _ => .ok sampleCertificate
  parseX509Crl := fun _ => .error "no CRL"
  signatureAlgorithm := fun _ => none
  RsaPublicKey := Unit
  PssSignature := Unit
  rsaFromPublicKeyDer := fun _ => .ok ()
  pssSignature := fun _ => .ok ()
  pssVerifySha384 := fun _ _ _ => .ok ()
  SevCertificate := Unit
  sevCertificateFromDer := fun _ => .ok ()
  sevVerify := fun _ _ => .ok ()
  SevChain := Unit
  sevChainFromDer := fun _ _ _ => .ok ()
  sevChainVerify := fun _ => .ok ()
  sha384 := fun bytes => bytes
  P384Key := Unit
  P384Signature := Unit
  p384FromDer := fun _ => .ok ()
  p384FromScalars := fun _ _ => .ok ()
  p384VerifyPrehash := fun _ _ _ => .ok ()
  toLowercase := id

def sampleProfile : AmdSevSnpPolicy :=
  ⟨[zeros 128], 0x19, 1, 1, "0x0000000000000000", ⟨0, 0, 0, 0⟩, "0x0000000000000000", "0x0000000000000000", "0x0000000000000000"⟩

def samplePolicy : HardwarePolicy := ⟨[sampleProfile], "stogas.hardware-policies.v1", 1⟩

def sampleLaunch : LaunchValues := ⟨zeros 96, zeros 32, zeros 64, zeros 96, zeros 32, "0x0", 0⟩
def sampleRelease : VerifiedRelease where
  githubIntegratedTimeUnixMs := none
  igvmSha256 := ""
  launchPolicies := ⟨[⟨sampleLaunch, "Milan"⟩], "stogas.snp-launch-policies.v1"⟩
  measurement := zeros 96
  minimumCatalogSequence := 1
  provenance := .github
  releaseTag := "v0.0.1"
  releaseManifestSha256 := ""
  sequence := 1
  sourceCommit := ""
  sourceRepository := ""
  sourceSha256 := ""
  vcpuCount := 1

def samplePlatform : Platform := ⟨"", "issuer", [], ⟨0, 100⟩, []⟩

def sampleSnapshot : Snapshot sampleLibraries where
  bodySha256 := zeros 64
  identity := 0
  approvals :=
    { authority := List.Vector.replicate 32 0, keys := sampleKeys, sigstore := ⟨"", ⟨[], [⟨List.replicate 32 0, [], none⟩], [], []⟩⟩,
      keysDigest := "", approvalsDigest := "", expiresUnixMs := 100,
      approvals := ⟨⟨"stogas.approvals.v1", .production, 1, "", "", [], [], samplePolicy⟩, ⟨"key", ""⟩, ()⟩ }
  gateways := (∅ : Std.TreeMap String (Cached VerifiedRelease) compare).insert (zeros 64) ⟨zeros 64, 0, sampleRelease⟩
  catalogs := ∅
  hardware := ⟨[zeros 128], 1, zeros 64, 1⟩
  collateral := (∅ : Std.TreeMap String Platform compare).insert (zeros 128 ++ ":" ++ zeros 16) samplePlatform

def sampleCrl : Crl := ⟨1, List.Vector.replicate 32 0, [], ⟨0, 100⟩, []⟩
def sampleIssuer : Issuer := ⟨[], some sampleCrl, false⟩

def sampleLearned : Learned where
  keyState := some ⟨⟨sampleKeys, ""⟩, false⟩
  revocations := (∅ : Std.TreeMap String Issuer compare).insert "issuer" sampleIssuer

theorem repeated_size {char : Char} (ascii : char.utf8Size = 1) (count : Nat) : (repeated char count).utf8ByteSize = count := by
  rw [repeated, String.utf8ByteSize_ofList]
  induction count with
  | zero => rfl
  | succ count ih => simp [List.replicate_succ, ih, ascii]

theorem hexDecode_zeros (count : Nat) : hexDecode (zeros (2 * count)) = some (List.replicate count 0) := by
  simp only [hexDecode, zeros, repeated, String.toList_ofList]
  induction count with
  | zero => rfl
  | succ count ih =>
    rw [Nat.mul_succ, List.replicate_succ, List.replicate_succ, hexDecode.decodePairs, ih]
    rfl

theorem hexBytes_zeros (count : Nat) (label : String) :
    hexBytes count (zeros (2 * count)) label = .ok (List.replicate count 0) := by
  simp only [hexBytes, bind_ok, rejectIf_ok, required_ok, pure_ok, exists_unit]
  exact ⟨_, hexDecode_zeros count, by simp, rfl⟩

theorem hexEncode_zeros (count : Nat) : Sigstore.hexEncode (List.replicate count 0) = zeros (2 * count) := by
  rw [Sigstore.hexEncode, zeros, repeated]
  congr 1
  induction count with
  | zero => rfl
  | succ count ih =>
    rw [List.replicate_succ, List.flatMap_cons, ih, Nat.mul_succ, List.replicate_succ, List.replicate_succ]
    rfl

theorem toList_zeros (count : Nat) : (zeros count).toList = List.replicate count '0' := by
  rw [zeros, repeated, String.toList_ofList]

theorem size_zeros (count : Nat) : (zeros count).utf8ByteSize = count := repeated_size (by decide) count

theorem isLowerHex_zeros {count bytes : Nat} (fits : count = bytes * 2) : isLowerHex (zeros count) bytes = true := by
  simp only [isLowerHex, size_zeros, toList_zeros, fits, true_and, decide_eq_true_eq]
  exact List.all_eq_true.mpr fun char member => by rw [List.eq_of_mem_replicate member]; decide

theorem amdPlatformKey_zeros : amdPlatformKey id (zeros 128) (zeros 16) = zeros 128 ++ ":" ++ zeros 16 := by
  have trimmed (count : Nat) : trim (zeros count) = zeros count := by
    have plain : List.dropWhile Sigstore.isWhitespace (List.replicate count '0') = List.replicate count '0' := by
      rw [List.dropWhile_replicate, if_neg (by decide)]
    rw [trim, toList_zeros, plain, List.reverse_replicate, plain, List.reverse_replicate]
    rfl
  rw [amdPlatformKey, trimmed, trimmed]
  rfl

theorem lowerHex_zeros : lowerHex 32 (zeros 64) = .ok (List.replicate 32 0) := by
  simp only [lowerHex, bind_ok, rejectIf_ok, required_ok, exists_unit]
  exact ⟨by rw [isLowerHex_zeros (by decide)]; decide, hexDecode_zeros 32⟩

theorem decodeField_blank {L : Libraries} {count size : Nat} {bytes : Bytes} (fits : count = (size * 8 + 5) / 6)
    (length : bytes.length = size) (decoded : L.urlSafeDecode (blank count) = .ok bytes)
    (encoded : L.urlSafeEncode bytes = blank ((bytes.length * 8 + 5) / 6)) : L.decodeField (blank count) size = .ok bytes := by
  simp only [Libraries.decodeField, bind_ok, rejectIf_ok, mapError_ok, pure_ok, exists_unit]
  refine ⟨?_, bytes, decoded, ?_, rfl⟩
  · rw [not_not, ← fits]
    exact repeated_size (by decide) count
  · rw [encoded, length, fits]
    simp

private theorem urlSafeDecode_blank {count : Nat} (other : count ≠ 1579) :
    sampleLibraries.urlSafeDecode (blank count) = .ok (List.replicate (count * 6 / 8) 0) := by
  have size : (blank count).utf8ByteSize = count := repeated_size (by decide) count
  simp only [sampleLibraries, size, if_neg other]

private theorem sample_chip : chipIdOf sampleReport = zeros 128 := hexEncode_zeros 64
private theorem sample_tcb : reportedTcbOf sampleReport = zeros 16 := hexEncode_zeros 8

def sampleNode : String := snpNodeId (slice sampleReport 0x140 0x160)

private structure SampleEvaluation : Prop where
  appraised : appraiseSnpReport sampleReport (some milan) sampleProfile sampleNode = .ok ()
  size : sampleReport.length = reportBytes
  policy : parseRadix16 (trimStartMarks sampleLaunch.policy.toList) = some 0
  version : ¬ (u32At sampleReport 0 < 2 ∨ 5 < u32At sampleReport 0)
  product : inspectReportProduct sampleReport (u32At sampleReport 0) = .ok (some 0x19, some 1, some 1, some milan)
  encoding : validateRawSnpReportEncoding sampleReport (u32At sampleReport 0) (some milan) sampleNode = .ok ()
  vcek : sampleLibraries.validateReportProductBinding [] sampleReport = .ok milan
  launch : compatibleLaunchPolicy sampleRelease.launchPolicies milan = .ok sampleLaunch
  signed : sampleLibraries.verifyRawSnpReportSignatureWithVcek sampleReport [] sampleNode = .ok ()
  canonical : "\n".toUTF8.toList = [10]
  payload : sampleLibraries.canonicalPayload () = .ok []
  included : sampleLibraries.verifyDocumentInclusion () ⟨"key", blank 4498⟩ ()
    sampleSnapshot.approvals.sigstore.trustedRoot 0 = .ok 1
  data : slice sampleReport 0x50 0x90 = List.replicate 64 0

private theorem sample_evaluation : SampleEvaluation := by constructor <;> decide +kernel

private theorem sample_platform :
    sampleSnapshot.collateral[amdPlatformKey sampleLibraries.toLowercase (zeros 128) (zeros 16)]? = some samplePlatform := by
  rw [show sampleLibraries.toLowercase = id from rfl, amdPlatformKey_zeros]
  simp [sampleSnapshot]

private theorem sample_valid {now : Int} (started : 0 ≤ now) (early : now < 100) :
    sampleSnapshot.collateralValidity sampleLearned (chipIdOf sampleReport) (reportedTcbOf sampleReport) now = .ok ⟨0, 100⟩ := by
  rw [sample_chip, sample_tcb]
  simp only [Snapshot.collateralValidity, Store.validity, bind_ok, mapError_ok, required_ok, pure_ok, sample_platform]
  refine ⟨100, if_neg (by change ¬ 100 ≤ now; omega), ⟨0, 100⟩, ⟨samplePlatform, rfl, ?_⟩, rfl⟩
  simp only [Revocations.validity, bind_ok, required_ok, rejectIf_ok, exists_unit]
  refine ⟨sampleIssuer, by simp [sampleLearned, samplePlatform], sampleCrl, rfl, by decide, by decide, if_neg ?_⟩
  simp only [samplePlatform, sampleCrl, Validity.intersect]
  omega

def sampleArtifacts : Artifacts := ⟨sampleReport, [10], []⟩

def sampleSession : VerifiedSession :=
  sampleSnapshot.appraisedSession sampleArtifacts sampleRecord sampleReport 1000 ⟨0, 100⟩ ⟨0, 100⟩

section
-- A variable and not the theorem, so that the lemmas do not wait for the evaluation.
variable (facts : SampleEvaluation)
include facts

private theorem sample_hardware : appraiseHardware samplePolicy (zeros 128)
    (fun profile => appraiseSnpReport sampleReport (some milan) profile sampleNode) = .ok () := by
  have passes := facts.appraised
  simp [appraiseHardware, samplePolicy, sampleProfile, appraiseEach] at passes ⊢
  rw [passes]

private theorem sample_bindings : checkRawReportBindings ⟨sampleNode, zeros 128, zeros 16, zeros 128⟩ (zeros 96) sampleLaunch
    sampleReport (some samplePolicy) = .ok () := by
  simp only [checkRawReportBindings, bind_ok, rejectIf_ok, required_ok, exists_unit, not_not]
  refine ⟨facts.size, 0, facts.policy, facts.version, _, facts.product,
    facts.encoding, _, hexBytes_zeros 16 _, _, hexBytes_zeros 16 _, _, hexBytes_zeros 64 _, _, hexBytes_zeros 48 _, _,
    hexBytes_zeros 32 _, _, hexBytes_zeros 48 _, _, hexBytes_zeros 48 _, _, hexBytes_zeros 8 _, _, hexBytes_zeros 64 _, ?_⟩
  rw [show List.find? _ _ = none by decide +kernel]
  exact sample_hardware facts

private theorem sample_binds : sampleSnapshot.Binds sampleReport (List.replicate 64 0) (zeros 64) := by
  refine ⟨facts.size, sampleRelease, by simp [Snapshot.gateway, sampleSnapshot], [], ?_, milan, facts.vcek,
    sampleLaunch, facts.launch, ?_, facts.signed⟩
  · rw [sample_chip, sample_tcb, Store.vcek, sample_platform]
    rfl
  · rw [sample_chip, sample_tcb, hexEncode_zeros]
    exact sample_bindings facts

private theorem sample_logs : sampleSnapshot.Logs [10] [] sampleRecord sampleReport (List.replicate 64 0) ()
    ⟨zeros 64, ⟨"key", blank 4498⟩, ()⟩ where
  parsed := by
    simp only [Libraries.parseRecord, bind_ok, rejectIf_ok, mapError_ok, pure_ok, exists_unit, not_not]
    exact ⟨by decide, (), rfl, "\n", rfl, facts.canonical, sampleRecord, rfl, rfl, _, lowerHex_zeros, rfl⟩
  size := by decide
  read := ⟨(), rfl, rfl⟩
  named := isLowerHex_zeros (by decide)
  published := rfl
  signed := by
    refine ⟨sampleKey, rfl, ?_⟩
    simp only [Approvals.Libraries.verifySignature, Approvals.Libraries.verifyStogasSignature, bind_ok, rejectIf_ok, mapError_ok,
      exists_unit]
    refine ⟨by decide, _, rfl, [], facts.payload, _, rfl, by decide, _, rfl, List.replicate 3373 0,
      urlSafeDecode_blank (by decide), ?_, rfl⟩
    rintro (other | other)
    · exact other List.length_replicate
    · rw [show sampleLibraries.urlSafeEncode (List.replicate 3373 0) = blank (((List.replicate 3373 (0 : UInt8)).length * 8 + 5) / 6)
        from rfl, List.length_replicate] at other
      exact other (congrArg blank (by decide))
  environment := rfl
  decoded := by
    refine decodeField_blank (by decide) facts.size ?_ rfl
    have size : (blank 1579).utf8ByteSize = 1579 := repeated_size (by decide) 1579
    simp [sampleLibraries, size]
  committed := by
    simp only [Libraries.commitment, bind_ok, rejectIf_ok, mapError_ok, pure_ok, exists_unit]
    exact ⟨by decide, _, lowerHex_zeros, _, lowerHex_zeros,
      _, decodeField_blank (by decide) List.length_replicate (urlSafeDecode_blank (by decide)) rfl,
      _, decodeField_blank (by decide) List.length_replicate (urlSafeDecode_blank (by decide)) rfl, rfl, (), rfl, "\n", rfl, rfl⟩

private theorem sample_appraised : sampleSnapshot.appraiseSession sampleLearned sampleArtifacts 0 = .ok sampleSession := by
  have valid := sample_valid (Int.le_refl 0) (by decide)
  exact Snapshot.appraiseSession_ok.mpr ⟨rfl, sampleRecord, sampleReport, List.replicate 64 0, (), _, 1, 1000,
    ⟨sample_logs facts, sample_binds facts, by decide, by rw [show sampleArtifacts.report = sampleReport from rfl, facts.size]; decide,
      facts.data ▸ sample_binds facts, rfl, rfl⟩, facts.included, _, valid, _, valid, rfl⟩

end

theorem check_session_iff_sample : ∃ again, sampleSnapshot.reappraiseSession sampleLearned sampleSession 50 = .ok again := by
  have valid := sample_valid (by decide : (0 : Int) ≤ 50) (by decide)
  exact (Snapshot.check_session_iff (sample_appraised sample_evaluation) (by decide)).1.mp
    ⟨_, Snapshot.checkSession_ok.mpr ⟨rfl, _, valid, _, valid, rfl⟩⟩

end Evidence
end StogasVerifier
