import StogasVerifier.Proofs.ReceiptSigning
import StogasVerifier.Proofs.SessionCheck

/-! The boot documents of the gateway under the checks of the verifier. Both sides hash
one report data, and the verifier reads from a document the record that was written. -/

namespace StogasVerifier.Evidence
open Lib
open Approvals (Environment)
open Gateway (NodeKeys)
open Receipt (Digest Unescaped quoted memberText flatText)
open Sigstore (Bytes hexEncode)

def environmentName : Environment → String
  | .production => "prod"
  | .staging => "staging"

namespace BootReportData

def members (data : BootReportData) : List (String × String) :=
  [("environment", environmentName data.environment), ("hpke_public_key", data.hpkePublicKey),
    ("registration_challenge", data.registrationChallenge), ("schema", data.schema), ("signing_public_key", data.signingPublicKey),
    ("tls_spki_sha256", data.tlsSpkiSha256)]

end BootReportData

namespace BootRecord

def text (record : BootRecord) : Bytes :=
  123 :: ([44].intercalate [memberText ("gateway_release_id", record.gatewayReleaseId), memberText ("report", record.report),
    quoted "report_data" ++ 58 :: flatText record.reportData.members, memberText ("schema", record.schema)] ++ [125])

def Plain (record : BootRecord) : Prop :=
  Unescaped record.gatewayReleaseId ∧ Unescaped record.report ∧ Unescaped record.schema ∧
    ∀ member ∈ record.reportData.members, Unescaped member.2

end BootRecord

/-- What is assumed of the libraries: unpadded base64url; that the canonical text of a
record is its compact text with sorted names, from which the same value and the same
record are read again; and that canonical texts and report data are injective. -/
structure DocumentLaws (L : Libraries) : Prop where
  base64 : Base64.Laws L.urlSafeEncode L.urlSafeDecode
  text : ∀ record value canonical, L.recordValue record = .ok value → L.canonicalize value = .ok canonical → record.Plain →
    canonical.toUTF8.toList = record.text
  parses : ∀ record value canonical, L.recordValue record = .ok value → L.canonicalize value = .ok canonical →
    L.strictJson (canonical ++ "\n").toUTF8.toList = .ok value
  reads : ∀ record value, L.recordValue record = .ok value → L.readRecord value = .ok record
  canonical : ∀ value other canonical, L.canonicalize value = .ok canonical → L.canonicalize other = .ok canonical → value = other
  data : ∀ data other value, L.reportDataValue data = .ok value → L.reportDataValue other = .ok value → data = other

section
variable {L : Libraries}

theorem canonicalJson_ok {value : L.Value} {text : String} :
    L.canonicalJson value = .ok text ↔ ∃ canonical, L.canonicalize value = .ok canonical ∧ text = canonical ++ "\n" := by
  unfold Approvals.Libraries.canonicalJson
  cases L.canonicalize value with
  | error error => simp
  | ok canonical => simp [eq_comm]

theorem pop_newline (text : String) : Approvals.Libraries.pop (text ++ "\n") = text := by
  rw [Approvals.Libraries.pop, String.toList_append]
  have newline : "\n".toList = ['\n'] := rfl
  rw [newline, List.dropLast_concat, String.ofList_toList]

structure BootReportData.Checked (L : Libraries) (data : BootReportData) : Prop where
  schema : data.schema = reportDataSchema
  tls : isLowerHex data.tlsSpkiSha256 32 = true
  challenge : isLowerHex data.registrationChallenge 32 = true
  signing : ∃ bytes, bytes.length = signingPublicKeyBytes ∧ L.urlSafeEncode bytes = data.signingPublicKey
  hpke : ∃ bytes, bytes.length = hpkePublicKeyBytes ∧ L.urlSafeEncode bytes = data.hpkePublicKey

theorem decodeField_ok {value : String} {size : Nat} {bytes : Bytes} (decoded : L.decodeField value size = .ok bytes) :
    bytes.length = size ∧ L.urlSafeEncode bytes = value := by
  simp only [Libraries.decodeField, bind_ok, rejectIf_ok, mapError_ok, pure_ok, exists_unit, not_or, not_not] at decoded
  obtain ⟨-, _, -, held, rfl⟩ := decoded
  exact held

theorem decodeField_encode (laws : Base64.Laws L.urlSafeEncode L.urlSafeDecode) {bytes : Bytes} {size : Nat} (fits : bytes.length = size) :
    L.decodeField (L.urlSafeEncode bytes) size = .ok bytes := by
  simp only [Libraries.decodeField, bind_ok, rejectIf_ok, mapError_ok, pure_ok, exists_unit, not_or, not_not]
  refine ⟨?_, bytes, laws.decodes bytes, ⟨fits, rfl⟩, rfl⟩
  rw [laws.utf8ByteSize, fits]

theorem commitment_ok {data : BootReportData} {digest : Bytes} (committed : L.commitment data = .ok digest) :
    data.Checked L ∧ ∃ value canonical, L.reportDataValue data = .ok value ∧ L.canonicalize value = .ok canonical ∧
      digest = L.sha512 canonical.toUTF8.toList := by
  simp only [Libraries.commitment, lowerHex, bind_ok, rejectIf_ok, mapError_ok, required_ok, pure_ok, exists_unit, not_not, canonicalJson_ok] at committed
  obtain ⟨schema, _, ⟨tls, -⟩, _, ⟨challenge, -⟩, signing, signed, recipient, received, -, value, valued, _, ⟨canonical, written, rfl⟩, rfl⟩ :=
    committed
  refine ⟨⟨schema, tls, challenge, ⟨signing, decodeField_ok signed⟩, ⟨recipient, decodeField_ok received⟩⟩, value, canonical, valued, written, ?_⟩
  rw [pop_newline]

theorem commitment_injective (laws : DocumentLaws L) (free : Function.Injective L.sha512) {data other : BootReportData} {digest : Bytes}
    (first : L.commitment data = .ok digest) (second : L.commitment other = .ok digest) : data = other := by
  obtain ⟨-, value, canonical, valued, written, rfl⟩ := commitment_ok first
  obtain ⟨-, value', canonical', valued', written', same⟩ := commitment_ok second
  cases utf8_injective (free same)
  cases laws.canonical _ _ _ written written'
  exact laws.data _ _ _ valued valued'

theorem encode_unescaped (laws : Base64.Laws L.urlSafeEncode L.urlSafeDecode) (bytes : Bytes) : Unescaped (L.urlSafeEncode bytes) :=
  fun char known => Receipt.alphabet_unescaped char (laws.letters bytes char known)

private structure TextFacts : Prop where
  plain : ["stogas.node-boot.v1", "stogas.node-report.v1", "prod", "staging"].all
    (fun text => text.toList.all fun char => decide (32 ≤ char.toNat ∧ char ≠ '"' ∧ char ≠ '\\'))
  sizes : (["stogas.node-boot.v1", "stogas.node-report.v1", "prod", "staging", "gateway_release_id", "report", "report_data", "schema",
    "environment", "hpke_public_key", "registration_challenge", "signing_public_key", "tls_spki_sha256"].map String.utf8ByteSize) =
    [19, 21, 4, 7, 18, 6, 11, 6, 11, 15, 22, 18, 15]

private theorem textFacts : TextFacts := by constructor <;> decide +kernel

private theorem fixed_unescaped {text : String} (known : text ∈ ["stogas.node-boot.v1", "stogas.node-report.v1", "prod", "staging"]) :
    Unescaped text :=
  fun char member => of_decide_eq_true (List.all_eq_true.mp (List.all_eq_true.mp textFacts.plain text known) char member)

theorem environmentName_unescaped (environment : Environment) : Unescaped (environmentName environment) := by
  cases environment <;> exact fixed_unescaped (by simp [environmentName])

theorem environmentName_size (environment : Environment) : (environmentName environment).utf8ByteSize ≤ 7 := by
  cases environment <;> decide +kernel

structure BootRecord.Sized (record : BootRecord) : Prop where
  schema : record.schema = bootSchema
  release : record.gatewayReleaseId.utf8ByteSize = 64
  report : record.report.utf8ByteSize = 1579
  dataSchema : record.reportData.schema = reportDataSchema
  hpke : record.reportData.hpkePublicKey.utf8ByteSize = 1622
  signing : record.reportData.signingPublicKey.utf8ByteSize = 2646
  tls : record.reportData.tlsSpkiSha256.utf8ByteSize = 64
  challenge : record.reportData.registrationChallenge.utf8ByteSize = 64

theorem BootRecord.Sized.short {record : BootRecord} (sized : record.Sized) : record.text.length + 1 ≤ maxEvidenceBytes := by
  have sizes := textFacts.sizes
  simp only [List.map_cons, List.map_nil, List.cons.injEq] at sizes
  have name := environmentName_size record.reportData.environment
  have schema : record.schema.utf8ByteSize = 19 := by rw [sized.schema]; exact sizes.1
  have dataSchema : record.reportData.schema.utf8ByteSize = 21 := by rw [sized.dataSchema]; exact sizes.2.1
  simp only [text, BootReportData.members, flatText, List.map_cons, List.map_nil, List.intercalate, List.intersperse, List.flatten_cons,
    List.flatten_nil, List.length_cons, List.length_append, List.length_nil, memberText, Receipt.quoted_length, sized.release, sized.report,
    sized.hpke, sized.signing, sized.tls, sized.challenge, schema, dataSchema, sizes, maxEvidenceBytes]
  omega

variable {keys : NodeKeys} {environment : Environment} {tlsSpkiSha256 challenge gatewayReleaseId : Digest} {report document : Bytes}

def bootRecord (L : Libraries) (keys : NodeKeys) (environment : Environment) (tlsSpkiSha256 challenge : Digest) (report : Bytes)
    (gatewayReleaseId : Digest) : BootRecord :=
  ⟨bootSchema, hexEncode gatewayReleaseId.toList, L.urlSafeEncode report, keys.bootReportData L environment tlsSpkiSha256 challenge⟩

theorem bootDocument_ok (made : keys.bootDocument L environment tlsSpkiSha256 challenge report gatewayReleaseId = .ok document) :
    report.length = reportBytes ∧
      L.commitment (keys.bootReportData L environment tlsSpkiSha256 challenge) = .ok (slice report 0x50 0x90) ∧
      ∃ value canonical, L.recordValue (bootRecord L keys environment tlsSpkiSha256 challenge report gatewayReleaseId) = .ok value ∧
        L.canonicalize value = .ok canonical ∧ document = (canonical ++ "\n").toUTF8.toList := by
  simp only [NodeKeys.bootDocument, bind_ok, rejectIf_ok, mapError_ok, pure_ok, exists_unit, not_or, not_not, canonicalJson_ok] at made
  obtain ⟨_, committed, ⟨sized, rfl⟩, value, valued, _, ⟨canonical, written, rfl⟩, rfl⟩ := made
  exact ⟨sized, committed, value, canonical, valued, written, rfl⟩

theorem digest_size (digest : Digest) : (hexEncode digest.toList).utf8ByteSize = 64 := by
  rw [(hexEncode_ascii _).size, hexEncode_length, digest.toList_length]

theorem bootRecord_sized (laws : Base64.Laws L.urlSafeEncode L.urlSafeDecode) (sized : report.length = reportBytes)
    (checked : (keys.bootReportData L environment tlsSpkiSha256 challenge).Checked L) :
    (bootRecord L keys environment tlsSpkiSha256 challenge report gatewayReleaseId).Sized ∧
      (bootRecord L keys environment tlsSpkiSha256 challenge report gatewayReleaseId).Plain := by
  obtain ⟨recipient, recipientSize, received⟩ := checked.hpke
  have received : L.urlSafeEncode recipient = keys.recipientPublic := received
  constructor
  · refine ⟨rfl, digest_size gatewayReleaseId, ?_, rfl, ?_, ?_, digest_size tlsSpkiSha256, digest_size challenge⟩
    · rw [bootRecord, laws.utf8ByteSize, sized, reportBytes]
    · rw [bootRecord, NodeKeys.bootReportData, ← received, laws.utf8ByteSize, recipientSize, hpkePublicKeyBytes]
    · rw [bootRecord, NodeKeys.bootReportData, laws.utf8ByteSize, keys.signingPublicKey.toList_length, Receipt.signingPublicKeyBytes]
  · refine ⟨Receipt.hexEncode_unescaped _, encode_unescaped laws _, fixed_unescaped (by simp [bootRecord, bootSchema]), ?_⟩
    simp only [bootRecord, NodeKeys.bootReportData, BootReportData.members, List.forall_mem_cons, ← received]
    exact ⟨environmentName_unescaped _, encode_unescaped laws _, Receipt.hexEncode_unescaped _,
      fixed_unescaped (by simp [reportDataSchema]), encode_unescaped laws _, Receipt.hexEncode_unescaped _, nofun⟩

theorem bootDocument_parses (laws : DocumentLaws L)
    (made : keys.bootDocument L environment tlsSpkiSha256 challenge report gatewayReleaseId = .ok document) :
    L.parseRecord document = .ok (bootRecord L keys environment tlsSpkiSha256 challenge report gatewayReleaseId) := by
  obtain ⟨sized, committed, value, canonical, valued, written, rfl⟩ := bootDocument_ok made
  obtain ⟨fields, plain⟩ := @bootRecord_sized L keys environment tlsSpkiSha256 challenge gatewayReleaseId report laws.base64 sized
    (commitment_ok committed).1
  have short : (canonical ++ "\n").toUTF8.toList.length ≤ maxEvidenceBytes := by
    have newline : "\n".toUTF8.toList.length = 1 := by decide +kernel
    rw [utf8_append, List.length_append, laws.text _ _ _ valued written plain, newline]
    exact fields.short
  have release : lowerHex 32 (bootRecord L keys environment tlsSpkiSha256 challenge report gatewayReleaseId).gatewayReleaseId =
      .ok gatewayReleaseId.toList := lowerHex_hexEncode gatewayReleaseId.toList_length
  simp only [Libraries.parseRecord, bind_ok, rejectIf_ok, mapError_ok, pure_ok, exists_unit, not_not, canonicalJson_ok]
  exact ⟨Nat.not_lt.mpr short, value, laws.parses _ _ _ valued written, _, ⟨canonical, written, rfl⟩, rfl, _, laws.reads _ _ valued, rfl,
    _, release, rfl⟩

end

/-- The verifier accepts every boot document byte for byte, with the report and the
commitment that the gateway gave; and a commitment determines the report data, so that
boot documents with one commitment are of the same environment, keys and challenge. -/
theorem boot_document_agrees {L : Libraries} (laws : DocumentLaws L) :
    (∀ (keys : NodeKeys) (environment : Environment) (tlsSpkiSha256 challenge : Digest) (report : Bytes) (gatewayReleaseId : Digest)
      (document : Bytes), keys.bootDocument L environment tlsSpkiSha256 challenge report gatewayReleaseId = .ok document →
      ∃ record, L.parseRecord document = .ok record ∧ L.decodeField record.report reportBytes = .ok report ∧
        L.commitment record.reportData = .ok (slice report 0x50 0x90)) ∧
    (Function.Injective L.sha512 →
      (∀ (keys others : NodeKeys) (environment other : Environment) (tlsSpkiSha256 challenge tlsSpkiSha256' challenge' : Digest)
        (report report' : Bytes) (gatewayReleaseId gatewayReleaseId' : Digest) (document document' : Bytes),
        keys.bootDocument L environment tlsSpkiSha256 challenge report gatewayReleaseId = .ok document →
        others.bootDocument L other tlsSpkiSha256' challenge' report' gatewayReleaseId' = .ok document' →
        slice report 0x50 0x90 = slice report' 0x50 0x90 →
        environment = other ∧ keys.signingPublicKey = others.signingPublicKey ∧ keys.recipientPublic = others.recipientPublic ∧
          tlsSpkiSha256 = tlsSpkiSha256' ∧ challenge = challenge') ∧
      ∀ (document document' commitment : Bytes) (record record' : BootRecord), L.parseRecord document = .ok record →
        L.parseRecord document' = .ok record' → L.commitment record.reportData = .ok commitment →
        L.commitment record'.reportData = .ok commitment → record.reportData = record'.reportData) := by
  constructor
  · intro keys environment tlsSpkiSha256 challenge report gatewayReleaseId document made
    obtain ⟨sized, committed, -⟩ := bootDocument_ok made
    exact ⟨_, bootDocument_parses laws made, decodeField_encode laws.base64 sized, committed⟩
  · intro free
    constructor
    · intro keys others environment other tls challenge tls' challenge' report report' release release' document document' made made' same
      obtain ⟨-, committed, -⟩ := bootDocument_ok made
      obtain ⟨-, committed', -⟩ := bootDocument_ok made'
      rw [← same] at committed'
      have equal := commitment_injective laws free committed committed'
      simp only [NodeKeys.bootReportData, BootReportData.mk.injEq] at equal
      obtain ⟨-, environments, signings, recipients, keysSame, challenges⟩ := equal
      refine ⟨environments, ?_, recipients, ?_, ?_⟩
      · have decoded := laws.base64.decodes keys.signingPublicKey.toList
        rw [signings, laws.base64.decodes] at decoded
        exact List.Vector.eq _ _ (Except.ok.inj decoded).symm
      · exact List.Vector.eq _ _ (hexEncode_injective keysSame)
      · exact List.Vector.eq _ _ (hexEncode_injective challenges)
    · intro document document' commitment record record' _ _ committed committed'
      exact commitment_injective laws free committed committed'

/-! ## The document of one boot -/

def zeroDigest : Digest := List.Vector.replicate 32 0

def zeroReport : Bytes := List.replicate 1184 0

def bootKeys : NodeKeys where
  signingPublicKey := List.Vector.replicate Receipt.signingPublicKeyBytes 0
  sign _ := .error ""
  recipientPublic := Base64.encode (List.replicate hpkePublicKeyBytes 0)

def zeroRecord : BootRecord where
  schema := bootSchema
  gatewayReleaseId := hexEncode zeroDigest.toList
  report := Base64.encode zeroReport
  reportData := ⟨reportDataSchema, .production, Base64.encode bootKeys.signingPublicKey.toList, bootKeys.recipientPublic,
    hexEncode zeroDigest.toList, hexEncode zeroDigest.toList⟩

private def memberString (name value : String) : String := "\"" ++ name ++ "\":\"" ++ value ++ "\""

private def recordParts (record : BootRecord) : List String :=
  ["\x7b", memberString "gateway_release_id" record.gatewayReleaseId, ",", memberString "report" record.report, ",", "\"", "report_data", "\"",
    ":", "\x7b", memberString "environment" (environmentName record.reportData.environment), ",",
    memberString "hpke_public_key" record.reportData.hpkePublicKey, ",",
    memberString "registration_challenge" record.reportData.registrationChallenge, ",", memberString "schema" record.reportData.schema, ",",
    memberString "signing_public_key" record.reportData.signingPublicKey, ",",
    memberString "tls_spki_sha256" record.reportData.tlsSpkiSha256, "\x7d", ",", memberString "schema" record.schema, "\x7d"]

def recordString (record : BootRecord) : String := (recordParts record).foldr (· ++ ·) ""

private theorem parts_bytes (parts : List String) :
    (parts.foldr (· ++ ·) "").toUTF8.toList = parts.flatMap fun part => part.toUTF8.toList := by
  induction parts with
  | nil => decide +kernel
  | cons part parts hypothesis => rw [List.foldr_cons, utf8_append, hypothesis, List.flatMap_cons]

private theorem memberString_bytes (name value : String) : (memberString name value).toUTF8.toList = memberText (name, value) := by
  have quote : "\"".toUTF8.toList = [34] ∧ "\":\"".toUTF8.toList = [34, 58, 34] := by decide +kernel
  simp only [memberString, utf8_append, quote.1, quote.2, memberText, quoted, List.append_assoc, List.cons_append, List.nil_append]

private theorem recordString_bytes (record : BootRecord) : (recordString record).toUTF8.toList = record.text := by
  have marks : "\x7b".toUTF8.toList = [123] ∧ ",".toUTF8.toList = [44] ∧ "\"".toUTF8.toList = [34] ∧ ":".toUTF8.toList = [58] ∧
      "\x7d".toUTF8.toList = [125] := by decide +kernel
  rw [recordString, parts_bytes, recordParts]
  simp only [memberString_bytes, marks, BootRecord.text, BootReportData.members, flatText, quoted, List.map_cons, List.map_nil, List.intercalate,
    List.intersperse, List.flatMap_cons, List.flatMap_nil, List.flatten_cons, List.flatten_nil, List.append_assoc, List.cons_append,
    List.nil_append, List.append_nil]

def bootLibraries : Libraries :=
  { sampleLibraries with
    canonicalize := fun _ => .ok (recordString zeroRecord)
    recordValue := fun record => if record = zeroRecord then .ok () else .error ""
    reportDataValue := fun data => if data = zeroRecord.reportData then .ok () else .error ""
    readRecord := fun _ => .ok zeroRecord
    urlSafeDecode := Base64.decode
    urlSafeEncode := Base64.encode
    sha512 := Equiv.swap (recordString zeroRecord).toUTF8.toList (List.replicate 64 0) }

private theorem bootLibraries_record {record : BootRecord} {value : Unit} (valued : bootLibraries.recordValue record = .ok value) :
    record = zeroRecord := by
  by_contra other
  have failed : bootLibraries.recordValue record = .error "" := if_neg other
  rw [failed] at valued
  cases valued

private theorem bootLibraries_data {data : BootReportData} {value : Unit} (valued : bootLibraries.reportDataValue data = .ok value) :
    data = zeroRecord.reportData := by
  by_contra other
  have failed : bootLibraries.reportDataValue data = .error "" := if_neg other
  rw [failed] at valued
  cases valued

private theorem bootLibraries_laws : DocumentLaws bootLibraries where
  base64 := Base64.laws
  text record value canonical valued written _ := by
    rw [bootLibraries_record valued, ← recordString_bytes]
    exact congrArg (fun text : String => text.toUTF8.toList) (Except.ok.inj written).symm
  parses _ _ _ _ _ := rfl
  reads record value valued := by
    rw [bootLibraries_record valued]
    rfl
  canonical _ _ _ _ _ := rfl
  data data other value first second := (bootLibraries_data first).trans (bootLibraries_data second).symm

private theorem valued_data (data : BootReportData) (same : data = zeroRecord.reportData) : bootLibraries.reportDataValue data = .ok () :=
  if_pos same

private theorem valued_record (record : BootRecord) (same : record = zeroRecord) : bootLibraries.recordValue record = .ok () := if_pos same

private theorem sample_commitment :
    bootLibraries.commitment (bootKeys.bootReportData bootLibraries .production zeroDigest zeroDigest) = .ok (slice zeroReport 0x50 0x90) := by
  have hex : lowerHex 32 (hexEncode zeroDigest.toList) = .ok zeroDigest.toList := lowerHex_hexEncode zeroDigest.toList_length
  have signing : bootLibraries.decodeField (Base64.encode bootKeys.signingPublicKey.toList) signingPublicKeyBytes =
      .ok bootKeys.signingPublicKey.toList := decodeField_encode bootLibraries_laws.base64 bootKeys.signingPublicKey.toList_length
  have recipient : bootLibraries.decodeField bootKeys.recipientPublic hpkePublicKeyBytes = .ok (List.replicate hpkePublicKeyBytes 0) :=
    decodeField_encode bootLibraries_laws.base64 List.length_replicate
  have quote : slice zeroReport 0x50 0x90 = List.replicate 64 0 := by
    rw [slice, zeroReport, List.drop_replicate, List.take_replicate]
    rfl
  have digest : bootLibraries.sha512 (Approvals.Libraries.pop (recordString zeroRecord ++ "\n")).toUTF8.toList = slice zeroReport 0x50 0x90 := by
    rw [pop_newline, quote]
    exact Equiv.swap_apply_left _ _
  simp only [Libraries.commitment, bind_ok, rejectIf_ok, mapError_ok, pure_ok, exists_unit, not_not, canonicalJson_ok]
  exact ⟨rfl, _, hex, _, hex, _, signing, _, recipient, rfl, (), valued_data _ rfl, _, ⟨_, rfl, rfl⟩, digest⟩

private theorem sample_document : bootKeys.bootDocument bootLibraries .production zeroDigest zeroDigest zeroReport zeroDigest =
    .ok (recordString zeroRecord ++ "\n").toUTF8.toList := by
  simp only [NodeKeys.bootDocument, bind_ok, rejectIf_ok, mapError_ok, pure_ok, exists_unit, not_or, not_not, canonicalJson_ok]
  exact ⟨_, sample_commitment, ⟨List.length_replicate, rfl⟩, (), valued_record _ rfl, _, ⟨_, rfl, rfl⟩, rfl⟩

/-- The document of a boot with zero keys is accepted, and no other boot of the same
commitment has other keys. -/
theorem boot_document_agrees_sample :
    (∃ record, bootLibraries.parseRecord (recordString zeroRecord ++ "\n").toUTF8.toList = .ok record ∧
      bootLibraries.decodeField record.report reportBytes = .ok zeroReport ∧
      bootLibraries.commitment record.reportData = .ok (slice zeroReport 0x50 0x90)) ∧
    ∀ (others : NodeKeys) (tlsSpkiSha256 challenge gatewayReleaseId : Digest) (document : Bytes),
      others.bootDocument bootLibraries .staging tlsSpkiSha256 challenge zeroReport gatewayReleaseId ≠ .ok document := by
  obtain ⟨accepted, separate⟩ := boot_document_agrees bootLibraries_laws
  refine ⟨accepted _ _ _ _ _ _ _ sample_document, ?_⟩
  intro others tlsSpkiSha256 challenge gatewayReleaseId document made
  have injective : Function.Injective bootLibraries.sha512 := (Equiv.swap _ _).injective
  obtain ⟨environments, -⟩ := (separate injective).1 _ _ _ _ _ _ _ _ _ _ _ _ _ _ sample_document made rfl
  cases environments

end StogasVerifier.Evidence
