import StogasVerifier.Evidence.Registration
import StogasVerifier.Proofs.ReleaseCache
import StogasVerifier.Proofs.SessionCheck

/-! The compact facts of a verified boot decide like its complete document. The first
verification checked what the facts leave out, and it holds for every later policy. -/

namespace StogasVerifier.Evidence
open Lib
open Sigstore (Bytes hexEncode)
open Approvals (Environment RootKey)

theorem appraiseEach_ok {appraise : AmdSevSnpPolicy → Except ReportError Unit} {profiles firstError} :
    appraiseEach appraise profiles firstError = .ok () ↔ ∃ profile ∈ profiles, appraise profile = .ok () := by
  induction profiles generalizing firstError with
  | nil => simp [appraiseEach]
  | cons profile profiles ih =>
    cases passed : appraise profile with
    | ok done => simp [appraiseEach, passed]
    | error error => simp [appraiseEach, passed, ih]

theorem appraiseHardware_ok {policy} {chipId : String} {appraise : AmdSevSnpPolicy → Except ReportError Unit} :
    appraiseHardware policy chipId appraise = .ok () ↔ ∃ profile ∈ policy.policies,
      (profile.chipIds.any fun candidate => candidate.toLower = chipId.toLower) = true ∧ appraise profile = .ok () := by
  simp only [appraiseHardware, appraiseEach_ok, List.mem_filter, and_assoc]

section
variable {T : Type} {attempt : Except ReportError T} {next more : T → Except ReportError Unit}

private theorem bind_further {further : Prop} (each : ∀ value, more value = .ok () ↔ next value = .ok () ∧ further) :
    (attempt >>= more) = .ok () ↔ (attempt >>= next) = .ok () ∧ further := by
  simp only [bind_ok, each, ← and_assoc, exists_and_right]

private theorem bind_also {also : T → Prop} (each : ∀ value, more value = .ok () ↔ next value = .ok () ∧ also value) :
    (attempt >>= more) = .ok () ↔ (attempt >>= next) = .ok () ∧ ∃ value, attempt = .ok value ∧ also value := by
  cases attempt with
  | error error => simp [bind_ok]
  | ok value => simp [ok_bind, each]

end

theorem checkRawReportBindings_some {node} {measurement : String} {launch} {report : Bytes} {policy} :
    checkRawReportBindings node measurement launch report (some policy) = .ok () ↔
      checkRawReportBindings node measurement launch report none = .ok () ∧
      ∃ processor, inspectReportProduct report (u32At report 0) = .ok processor ∧
        appraiseHardware policy node.chipId (fun profile => appraiseSnpReport report processor.2.2.2 profile node.nodeId) = .ok () := by
  refine bind_further fun _ => bind_further fun _ => bind_further fun _ => bind_also fun _ => ?_
  iterate 10 refine bind_further fun _ => ?_
  dsimp only
  generalize List.find? _ _ = found
  cases found with
  | none => simp [pure_ok]
  | some check => simp [throw_ok]

theorem checkRawReportBindings_encoded {node} {measurement : String} {launch} {report : Bytes}
    {policy} (ok : checkRawReportBindings node measurement launch report policy = .ok ()) {processor}
    (inspected : inspectReportProduct report (u32At report 0) = .ok processor) :
    validateRawSnpReportEncoding report (u32At report 0) processor.2.2.2 node.nodeId = .ok () := by
  simp only [checkRawReportBindings, bind_ok, rejectIf_ok, required_ok, exists_unit] at ok
  obtain ⟨-, _, -, -, again, same, encoded, -⟩ := ok
  rw [inspected] at same
  cases same
  exact encoded

theorem inspectReportProduct_five {report : Bytes} {processor} (inspected : inspectReportProduct report 5 = .ok processor) :
    processor.2.2.2 = amdProductFromCpuid (byteAt report 0x188) (byteAt report 0x189) := by
  rw [inspectReportProduct, if_neg (by decide)] at inspected
  simp only [bind_ok, rejectIf_ok, required_ok, pure_ok, exists_unit] at inspected
  obtain ⟨product, named, -, rfl⟩ := inspected
  exact named.symm

theorem appraiseSnpReport_ok {report : Bytes} {processor}
    (inspected : inspectReportProduct report (u32At report 0) = .ok processor) {profile} {nodeId : String} :
    appraiseSnpReport report processor.2.2.2 profile nodeId = .ok () ↔
      (SnpHardwareFacts.fromReport report).appraise profile nodeId = .ok () := by
  simp only [appraiseSnpReport, bind_ok, rejectIf_ok, exists_unit, not_not]
  refine ⟨fun ok => ok.2, fun ok => ⟨?_, ok⟩⟩
  -- The configuration names the processor that the report names.
  simp only [SnpHardwareFacts.appraise, bind_ok, rejectIf_ok, exists_unit, not_not] at ok
  obtain ⟨version, cpuid, -⟩ := ok
  rw [show u32At report 0 = 5 from version] at inspected
  simp only [SnpHardwareFacts.fromReport, List.cons.injEq] at cpuid
  rw [inspectReportProduct_five inspected, cpuid.1, cpuid.2.1]

theorem validateProfiles_family {L : Libraries} {previous : Option String} {profiles : List AmdSevSnpPolicy}
    (valid : L.validateProfiles previous profiles = .ok ()) {profile : AmdSevSnpPolicy} (member : profile ∈ profiles) :
    ∃ product, amdProductFromCpuid profile.cpuidFamily profile.cpuidModel = some product ∧ product.tcbLayout = .family19h := by
  induction profiles generalizing previous with
  | nil => cases member
  | cons first profiles ih =>
    simp only [Libraries.validateProfiles, bind_ok, rejectIf_ok, required_ok, exists_unit, not_not] at valid
    obtain ⟨-, -, value, -, group, -, -, builtIn, named, layout, _, -, _, -, -, _, -, _, -, rest⟩ := valid
    rcases List.mem_cons.mp member with rfl | later
    · exact ⟨builtIn, named, layout⟩
    · exact ih rest later

theorem slice_eight (report : Bytes) (start : Nat) (fits : start + 8 ≤ report.length) :
    ∃ a b c d e f g h, slice report start (start + 8) = [a, b, c, d, e, f, g, h] ∧
      slice report (start + 2) (start + 6) = [c, d, e, f] := by
  have whole : slice report start (start + 8) = (report.drop start).take 8 := by rw [slice, Nat.add_sub_cancel_left]
  have middle : slice report (start + 2) (start + 6) = ((report.drop start).drop 2).take 4 := by
    rw [slice, List.drop_drop, Nat.add_sub_add_left]
  have long : 8 ≤ (report.drop start).length := by
    rw [List.length_drop]
    omega
  rw [whole, middle]
  match report.drop start, long with
  | a :: b :: c :: d :: e :: f :: g :: h :: _, _ => exact ⟨a, b, c, d, e, f, g, h, rfl, rfl⟩

theorem reportedTcbHex_fromReport {report : Bytes} (size : report.length = reportBytes)
    (reserved : allZero (slice report 0x182 0x186) = true) :
    (SnpHardwareFacts.fromReport report).reportedTcbHex = reportedTcbOf report := by
  obtain ⟨a, b, c, d, e, f, g, h, whole, middle⟩ := slice_eight report 0x180 (by rw [size]; decide)
  simp only [Nat.reduceAdd] at whole middle
  simp only [middle, allZero, List.all_cons, List.all_nil, Bool.and_true, Bool.and_eq_true, decide_eq_true_eq] at reserved
  obtain ⟨rfl, rfl, rfl, rfl⟩ := reserved
  simp only [SnpHardwareFacts.reportedTcbHex, SnpHardwareFacts.fromReport, reportedTcbOf, whole]
  rfl

theorem validateRawSnpReportEncoding_reserved {report : Bytes} {version : Nat} {product} {nodeId : String}
    (family : product.tcbLayout = .family19h) (ok : validateRawSnpReportEncoding report version (some product) nodeId = .ok ()) :
    allZero (slice report 0x182 0x186) = true := by
  simp only [validateRawSnpReportEncoding, checkReserved, bind_ok, rejectIf_ok, exists_unit, Option.any_some, family, decide_true,
    if_true, not_not] at ok
  exact ok.2.2.2.1

section
variable {L : Libraries}

def ReleaseIdsDistinct (L : Libraries) (evidence : List Bytes) : Prop :=
  ∀ first second id, L.ListedGateway evidence first → L.ListedGateway evidence second →
    L.payloadSha256 (L.gatewayValue first.document) = .ok id → L.payloadSha256 (L.gatewayValue second.document) = .ok id →
    first.document = second.document

theorem verifyGateway_release {approvals : Approvals.VerifiedApprovals L.toApprovals} {release : AllowedIgvm L.Value} {now : Int}
    {verified : VerifiedRelease} (ok : verifyGateway approvals release now = .ok verified) :
    verified.launchPolicies = release.document.sevSnp.launchPolicies ∧
      verified.measurement = release.document.sevSnp.launchMeasurement := by
  simp only [verifyGateway, Libraries.verifyGatewayRelease, bind_ok, rejectIf_ok, mapError_ok, pure_ok, exists_unit] at ok
  obtain ⟨_, ⟨-, _, -, _, -, _, -, rfl⟩, -, rfl⟩ := ok
  exact ⟨rfl, rfl⟩

theorem gateway_same {evidence : List Bytes} (distinct : ReleaseIdsDistinct L evidence) {one two : Verifier L}
    (caches : one.Caches evidence) (others : two.Caches evidence) {first second : Snapshot L} (held : one.current = some first)
    (holds : two.current = some second) {id : String} {release again : VerifiedRelease} (listed : first.gateway id = some release)
    (relisted : second.gateway id = some again) :
    release.launchPolicies = again.launchPolicies ∧ release.measurement = again.measurement := by
  obtain ⟨entry, found, rfl⟩ := Option.map_eq_some_iff.mp listed
  obtain ⟨entry', found', rfl⟩ := Option.map_eq_some_iff.mp relisted
  obtain ⟨source, known, named, -, verified⟩ := caches.gateways first held id entry found
  obtain ⟨source', known', named', -, verified'⟩ := others.gateways second holds id entry' found'
  have same : source.document = source'.document := distinct source source' id known known' named named'
  obtain ⟨policies, measurement⟩ := verifyGateway_release verified
  obtain ⟨policies', measurement'⟩ := verifyGateway_release verified'
  exact ⟨by rw [policies, policies', same], by rw [measurement, measurement', same]⟩

namespace Snapshot

def Registers (snapshot : Snapshot L) (document : Bytes) (registration : VerifiedRegistration) : Prop :=
  ∃ learned now, (∃ challenge, snapshot.verifyRegistration learned document challenge now = .ok registration) ∨
    ∃ digest, snapshot.verifyRegisteredBoot learned document digest now = .ok registration

theorem verifyBootReport_ok {snapshot : Snapshot L} {learned : Learned} {document : Bytes} {record : BootRecord} {now : Int}
    {registration : VerifiedRegistration} :
    snapshot.verifyBootReport learned document record now = .ok registration ↔
      record.reportData.environment = snapshot.approvals.keys.environment ∧
      ∃ report, L.decodeField record.report reportBytes = .ok report ∧
      ∃ commitment, L.commitment record.reportData = .ok commitment ∧
      snapshot.requireCurrentKeys learned = .ok () ∧ snapshot.Binds report commitment record.gatewayReleaseId ∧
      ∃ validity, snapshot.collateralValidity learned (chipIdOf report) (reportedTcbOf report) now = .ok validity ∧
        ⟨record, appraisedReport report validity, L.sha256 document⟩ = registration := by
  simp only [verifyBootReport, bind_ok, rejectIf_ok, pure_ok, exists_unit, not_not, verifySnpReport_ok]
  constructor
  · rintro ⟨environment, report, decoded, commitment, committed, _, ⟨current, binds, validity, valid, rfl⟩, rfl⟩
    exact ⟨environment, report, decoded, commitment, committed, current, binds, validity, valid, rfl⟩
  · rintro ⟨environment, report, decoded, commitment, committed, current, binds, validity, valid, rfl⟩
    exact ⟨environment, report, decoded, commitment, committed, _, ⟨current, binds, validity, valid, rfl⟩, rfl⟩

theorem Registers.report {snapshot : Snapshot L} {document : Bytes} {registration : VerifiedRegistration}
    (registers : snapshot.Registers document registration) : ∃ record, L.parseRecord document = .ok record ∧
      ∃ learned now, snapshot.verifyBootReport learned document record now = .ok registration := by
  obtain ⟨learned, now, ⟨challenge, verified⟩ | ⟨digest, verified⟩⟩ := registers
  · simp only [verifyRegistration, bind_ok, rejectIf_ok, exists_unit] at verified
    obtain ⟨record, parsed, _, -, -, verified⟩ := verified
    exact ⟨record, parsed, learned, now, verified⟩
  · simp only [verifyRegisteredBoot, bind_ok, rejectIf_ok, exists_unit] at verified
    obtain ⟨record, parsed, -, verified⟩ := verified
    exact ⟨record, parsed, learned, now, verified⟩

variable {first other : Snapshot L} {report commitment : Bytes} {id : String}

theorem Binds.reported_tcb (binds : first.Binds report commitment id)
    (valid : L.verifyHardwarePolicy first.approvals.manifest.hardwarePolicy = .ok first.hardware) :
    (SnpHardwareFacts.fromReport report).reportedTcbHex = reportedTcbOf report := by
  obtain ⟨size, release, -, vcek, -, product, -, launch, -, checked, -⟩ := binds
  obtain ⟨-, processor, inspected, hardware⟩ := checkRawReportBindings_some.mp checked
  obtain ⟨profile, member, -, passed⟩ := appraiseHardware_ok.mp hardware
  simp only [Libraries.verifyHardwarePolicy, Libraries.validateHardwarePolicy, bind_ok, rejectIf_ok, exists_unit] at valid
  obtain ⟨_, ⟨-, profiles, -⟩, -⟩ := valid
  obtain ⟨approved, named, family⟩ := validateProfiles_family profiles member
  simp only [appraiseSnpReport, bind_ok, rejectIf_ok, exists_unit, not_not] at passed
  have encoded := checkRawReportBindings_encoded checked inspected
  rw [← passed.1, named] at encoded
  exact reportedTcbHex_fromReport size (validateRawSnpReportEncoding_reserved family encoded)

/-- A report that one snapshot bound needs from another one the release and its own
hardware policy only. -/
theorem Binds.again (binds : first.Binds report commitment id)
    (sameKey : other.collateral.vcek L.toLowercase (chipIdOf report) (reportedTcbOf report) =
      first.collateral.vcek L.toLowercase (chipIdOf report) (reportedTcbOf report))
    (sameRelease : ∀ release again, first.gateway id = some release → other.gateway id = some again →
      release.launchPolicies = again.launchPolicies ∧ release.measurement = again.measurement) :
    other.Binds report commitment id ↔ (∃ release, other.gateway id = some release) ∧
      appraiseHardware other.approvals.manifest.hardwarePolicy (chipIdOf report) (fun profile =>
        (SnpHardwareFacts.fromReport report).appraise profile (snpNodeId (slice report 0x140 0x160))) = .ok () := by
  obtain ⟨size, release, listed, vcek, stored, product, bound, launch, compatible, checked, signed⟩ := binds
  obtain ⟨fixed, processor, inspected, -⟩ := checkRawReportBindings_some.mp checked
  have hardware (policy : HardwarePolicy) :
      appraiseHardware policy (chipIdOf report) (fun profile =>
        appraiseSnpReport report processor.2.2.2 profile (snpNodeId (slice report 0x140 0x160))) = .ok () ↔
      appraiseHardware policy (chipIdOf report) (fun profile =>
        (SnpHardwareFacts.fromReport report).appraise profile (snpNodeId (slice report 0x140 0x160))) = .ok () := by
    simp only [appraiseHardware_ok, appraiseSnpReport_ok inspected]
  constructor
  · rintro ⟨-, again, relisted, _, -, _, -, _, -, rechecked, -⟩
    obtain ⟨-, other, reinspected, passed⟩ := checkRawReportBindings_some.mp rechecked
    obtain rfl : processor = other := Except.ok.inj (inspected.symm.trans reinspected)
    exact ⟨⟨again, relisted⟩, (hardware _).mp passed⟩
  · rintro ⟨⟨again, relisted⟩, passed⟩
    obtain ⟨policies, measurement⟩ := sameRelease release again listed relisted
    refine ⟨size, again, relisted, vcek, sameKey.trans stored, product, bound, launch, policies ▸ compatible, ?_, signed⟩
    refine checkRawReportBindings_some.mpr ⟨measurement ▸ fixed, processor, inspected, (hardware _).mpr passed⟩

end Snapshot

/-- A boot that one snapshot of a verifier verified is appraised by another one alike from
its facts and from its document, at every time. The facts write down the TCB of its report. -/
theorem registered_facts_decide (environment : Environment) (root : RootKey) (verifier : Verifier L)
    (created : Verifier.new L environment root = .ok verifier) (calls others : List Verifier.Call) (first other : Snapshot L)
    (held : (verifier.run calls).current = some first) (holds : (verifier.run others).current = some other)
    (distinct : ReleaseIdsDistinct L ((calls ++ others).filterMap Verifier.Call.evidence)) (document : Bytes)
    (registration : VerifiedRegistration) (registered : first.Registers document registration)
    (sameKey : other.collateral.vcek L.toLowercase registration.hardware.chipId registration.hardware.reportedTcb =
      first.collateral.vcek L.toLowercase registration.hardware.chipId registration.hardware.reportedTcb)
    (learned : Learned) (now : Int) :
    (other.appraiseRegisteredBoot learned registration.registeredFacts now = .ok () ↔
      ∃ again, other.verifyRegisteredBoot learned document registration.documentSha256 now = .ok again) ∧
    ∃ report, L.decodeField registration.record.report reportBytes = .ok report ∧
      registration.registeredFacts.hardware.reportedTcbHex = hexEncode (slice report 0x180 0x188) := by
  have evidence (some : List Verifier.Call) (part : some ⊆ calls ++ others) :
      (verifier.run some).Caches ((calls ++ others).filterMap Verifier.Call.evidence) :=
    (Verifier.new_caches created _).run fun call member _ carried => List.mem_filterMap.mpr ⟨call, part member, carried⟩
  have caches := evidence calls (List.subset_append_left _ _)
  have recaches := evidence others (List.subset_append_right _ _)
  obtain ⟨record, parsed, earlier, start, verified⟩ := registered.report
  obtain ⟨environment, report, decoded, commitment, committed, -, binds, validity, -, rfl⟩ :=
    Snapshot.verifyBootReport_ok.mp verified
  have tcb := binds.reported_tcb (caches.hardware first held)
  have again := binds.again sameKey fun _ _ => gateway_same distinct caches recaches held holds
  have sameEnvironment : record.reportData.environment = other.approvals.keys.environment := by
    rw [environment, caches.environment first held, recaches.environment other holds, Verifier.run_environment,
      Verifier.run_environment]
  refine ⟨?_, report, decoded, tcb⟩
  simp only [Snapshot.appraiseRegisteredBoot, Snapshot.verifyRegisteredBoot, VerifiedRegistration.registeredFacts, appraisedReport,
    bind_ok, rejectIf_ok, required_ok, mapError_ok, pure_ok, exists_unit, not_not, parsed, tcb]
  constructor
  · rintro ⟨current, release, listed, hardware, now, valid, -⟩
    refine ⟨_, record, rfl, trivial, Snapshot.verifyBootReport_ok.mpr ⟨sameEnvironment, report, decoded, commitment, committed, current,
      again.mpr ⟨⟨release, listed⟩, hardware⟩, now, valid, rfl⟩⟩
  · rintro ⟨_, _, ⟨⟩, -, reverified⟩
    obtain ⟨-, _, redecoded, _, recommitted, current, rebinds, later, valid, -⟩ := Snapshot.verifyBootReport_ok.mp reverified
    cases redecoded.symm.trans decoded
    cases recommitted.symm.trans committed
    obtain ⟨⟨release, listed⟩, hardware⟩ := again.mp rebinds
    exact ⟨current, release, listed, hardware, later, valid, trivial⟩

end
def labLearned : Learned where
  keyState := some ⟨⟨labKeys, digestOf 3⟩, false⟩
  revocations := (∅ : Std.TreeMap String Issuer compare).insert milan.rootSpkiSha384 labIssuer

def labNode : String := snpNodeId (slice labReport 0x140 0x160)

/-- What the checks of the sample's report and record evaluate to. -/
private structure LabReport : Prop where
  appraised : appraiseSnpReport labReport (some milan) sampleProfile labNode = .ok ()
  size : labReport.length = reportBytes
  policy : parseRadix16 (trimStartMarks labLaunch.policy.toList) = some 0x2120200
  version : ¬ (u32At labReport 0 < 2 ∨ 5 < u32At labReport 0)
  product : inspectReportProduct labReport (u32At labReport 0) = .ok (some 0x19, some 1, some 1, some milan)
  encoding : validateRawSnpReportEncoding labReport (u32At labReport 0) (some milan) labNode = .ok ()
  vcek : labLibraries.validateReportProductBinding [4] labReport = .ok milan
  launch : compatibleLaunchPolicy labRelease.launchPolicies milan = .ok labLaunch
  signed : labLibraries.verifyRawSnpReportSignatureWithVcek labReport [4] labNode = .ok ()
  canonical : "\x14\n".toUTF8.toList = [20, 10]
  release : lowerHex 32 (digestOf 12) = .ok (List.replicate 32 12)

private theorem lab_report : LabReport := by constructor <;> decide +kernel

private theorem lab_chip : chipIdOf labReport = zeros 128 := hexEncode_zeros 64
private theorem lab_tcb : reportedTcbOf labReport = zeros 16 := hexEncode_zeros 8

private theorem lab_blank {count : Nat} (other : count ≠ 1579) (long : 100 < count) :
    labLibraries.urlSafeDecode (blank count) = .ok (List.replicate (count * 6 / 8) 0) := by
  have size : (blank count).utf8ByteSize = count := repeated_size (by decide) count
  simp only [labLibraries, size, if_neg other, if_pos long]

private theorem lab_encoded {bytes : Bytes} {size : Nat} (length : bytes.length = size) (other : size ≠ 3373) :
    labLibraries.urlSafeEncode bytes = blank ((bytes.length * 8 + 5) / 6) := if_neg (length ▸ other)

theorem lab_valid {snapshot : Snapshot labLibraries} {learned : Learned} (approvals : snapshot.approvals = labApprovals)
    (platform : snapshot.collateral[zeros 128 ++ ":" ++ zeros 16]? = some labPlatform)
    (known : learned.revocations[milan.rootSpkiSha384]? = some labIssuer) :
    snapshot.collateralValidity learned (chipIdOf labReport) (reportedTcbOf labReport) 1000 = .ok ⟨0, 100000⟩ := by
  have key : amdPlatformKey labLibraries.toLowercase (zeros 128) (zeros 16) = _ := amdPlatformKey_zeros
  rw [lab_chip, lab_tcb]
  simp only [Snapshot.collateralValidity, Store.validity, Revocations.validity, bind_ok, mapError_ok, required_ok, rejectIf_ok, pure_ok,
    exists_unit, key, platform, approvals]
  exact ⟨100000, by decide, ⟨0, 100000⟩, ⟨labPlatform, rfl, labIssuer, known, _, rfl, by decide,
    by decide, by decide⟩, rfl⟩

section
variable (facts : LabReport)
include facts

private theorem lab_bindings : checkRawReportBindings ⟨labNode, zeros 128, zeros 16, zeros 128⟩ (zeros 96) labLaunch labReport
    (some samplePolicy) = .ok () := by
  simp only [checkRawReportBindings, bind_ok, rejectIf_ok, required_ok, exists_unit, not_not]
  refine ⟨facts.size, 0x2120200, facts.policy, facts.version, _, facts.product, facts.encoding,
    _, hexBytes_zeros 16 _, _, hexBytes_zeros 16 _, _, hexBytes_zeros 64 _, _, hexBytes_zeros 48 _, _, hexBytes_zeros 32 _,
    _, hexBytes_zeros 48 _, _, hexBytes_zeros 48 _, _, hexBytes_zeros 8 _, _, hexBytes_zeros 64 _, ?_⟩
  rw [show List.find? _ _ = none by decide +kernel]
  exact appraiseHardware_ok.mpr ⟨sampleProfile, List.mem_singleton.mpr rfl, by simp [sampleProfile], facts.appraised⟩

private theorem lab_binds {snapshot : Snapshot labLibraries} (approvals : snapshot.approvals = labApprovals)
    (gateway : snapshot.gateway (digestOf 12) = some labRelease)
    (platform : snapshot.collateral[zeros 128 ++ ":" ++ zeros 16]? = some labPlatform) :
    snapshot.Binds labReport (List.replicate 64 0) (digestOf 12) := by
  refine ⟨facts.size, labRelease, gateway, [4], ?_, milan, facts.vcek, labLaunch, facts.launch, ?_, facts.signed⟩
  · rw [lab_chip, lab_tcb, Store.vcek, show labLibraries.toLowercase = id from rfl, amdPlatformKey_zeros, platform]
    rfl
  · rw [lab_chip, lab_tcb, hexEncode_zeros, approvals]
    exact lab_bindings facts

private theorem lab_registers {snapshot : Snapshot labLibraries} (approvals : snapshot.approvals = labApprovals)
    (gateway : snapshot.gateway (digestOf 12) = some labRelease)
    (platform : snapshot.collateral[zeros 128 ++ ":" ++ zeros 16]? = some labPlatform) :
    snapshot.verifyRegistration labLearned [20, 10] (List.Vector.replicate 32 0) 1000 =
      .ok ⟨labRecord, appraisedReport labReport ⟨0, 100000⟩, labLibraries.sha256 [20, 10]⟩ := by
  have parsed : labLibraries.parseRecord [20, 10] = .ok labRecord := by
    simp only [Libraries.parseRecord, bind_ok, rejectIf_ok, mapError_ok, pure_ok, exists_unit, not_not]
    exact ⟨by decide, (20 : Fin 32), rfl, _, rfl, facts.canonical, labRecord, rfl, rfl, _, facts.release, rfl⟩
  have committed : labLibraries.commitment labRecord.reportData = .ok (List.replicate 64 0) := by
    simp only [Libraries.commitment, bind_ok, rejectIf_ok, mapError_ok, pure_ok, exists_unit]
    exact ⟨by decide, _, lowerHex_zeros, _, lowerHex_zeros,
      _, decodeField_blank (by decide) List.length_replicate (lab_blank (by decide) (by decide))
        (lab_encoded List.length_replicate (by decide)),
      _, decodeField_blank (by decide) List.length_replicate (lab_blank (by decide) (by decide))
        (lab_encoded List.length_replicate (by decide)),
      rfl, (31 : Fin 32), rfl, _, rfl, rfl⟩
  have decoded : labLibraries.decodeField labRecord.report reportBytes = .ok labReport := by
    have size : (blank 1579).utf8ByteSize = 1579 := repeated_size (by decide) 1579
    exact decodeField_blank (by decide) facts.size (congrArg Except.ok (if_pos size)) (lab_encoded facts.size (by decide))
  simp only [Snapshot.verifyRegistration, bind_ok, rejectIf_ok, exists_unit, not_not]
  refine ⟨labRecord, parsed, _, lowerHex_zeros, rfl, Snapshot.verifyBootReport_ok.mpr ⟨?_, labReport, decoded,
    _, committed, ?_, lab_binds facts approvals gateway platform, ⟨0, 100000⟩, lab_valid approvals platform (by simp [labLearned]), rfl⟩⟩
  · rw [approvals]
    rfl
  · rw [Snapshot.requireCurrentKeys, approvals]
    rfl

end

/-- A boot that the sample's snapshot registered and, as nothing changed, approves again. -/
theorem registered_facts_decide_lab : ∃ snapshot registration,
    (labVerifier.refresh [0] 1000).1 = .ok snapshot ∧ snapshot.Registers [20, 10] registration ∧
    (snapshot.appraiseRegisteredBoot labLearned registration.registeredFacts 1000 = .ok () ↔
      ∃ again, snapshot.verifyRegisteredBoot labLearned [20, 10] registration.documentSha256 1000 = .ok again) := by
  obtain ⟨snapshot, refreshed, approvals, gateway, platform⟩ := lab_refresh
  have held : (labVerifier.run [.refresh [0] 1000]).current = some snapshot := by
    rw [Verifier.run, List.foldl_cons, List.foldl_nil, Verifier.perform]
    exact (Verifier.refresh_installs refreshed).1
  have distinct : ReleaseIdsDistinct labLibraries [[0], [0]] := by
    intro first second id one two _ _
    cases lab_listed one
    cases lab_listed two
    rfl
  have registers : snapshot.Registers [20, 10] _ := ⟨labLearned, 1000, .inl ⟨_, lab_registers lab_report approvals gateway platform⟩⟩
  exact ⟨snapshot, _, refreshed, registers, (registered_facts_decide .staging labRoot labVerifier lab_created [.refresh [0] 1000]
    [.refresh [0] 1000] snapshot snapshot held held distinct [20, 10] _ registers rfl labLearned 1000).1⟩

end StogasVerifier.Evidence
