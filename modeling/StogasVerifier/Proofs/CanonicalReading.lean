import StogasVerifier.Evidence.Releases
import StogasVerifier.Proofs.AttestationTime

/-! A digest covers canonical text, and a canonical text does not keep the order of members.
What a build proof says does not depend on that order, so one digest stands for one result. -/

namespace StogasVerifier.Evidence
open Lib
open Sigstore (Bytes TrustedRoot SubjectDigest GithubPolicy CertificatePolicy)
open Approvals (VerifiedApprovals)

def Libraries.Alike (L : Libraries) (first second : L.Value) : Prop :=
  ∃ text, L.canonicalize first = .ok text ∧ L.canonicalize second = .ok text

structure JsonReaders (L : Libraries) : Prop where
  get : ∀ {first second}, L.Alike first second → ∀ name, Option.Rel L.Alike (L.get first name) (L.get second name)
  isObject : ∀ {first second}, L.Alike first second → L.isObject first = L.isObject second
  asStr : ∀ {first second}, L.Alike first second → L.asStr first = L.asStr second
  asArray : ∀ {first second}, L.Alike first second → Option.Rel (List.Forall₂ L.Alike) (L.asArray first) (L.asArray second)
  readDsseBundle : ∀ {first second}, L.Alike first second → Keeps (L.readDsseBundle first) (L.readDsseBundle second)
  readStaging : ∀ {first second}, L.Alike first second → Keeps (L.readStaging first) (L.readStaging second)
  /-- Compact text is on one line. -/
  toVec_line : ∀ {value bytes}, L.toVec value = .ok bytes → 10 ∉ bytes
  toVec : ∀ {first second bytes}, L.Alike first second → L.toVec first = .ok bytes → ∃ other, L.toVec second = .ok other
  /-- Parsing the text of a value gives the value back, with its members in some order. -/
  strictJson : ∀ {first second bytes other value}, L.Alike first second → L.toVec first = .ok bytes → L.toVec second = .ok other →
    L.strictJson bytes = .ok value → L.Alike first value ∧ ∃ again, L.strictJson other = .ok again ∧ L.Alike second again
  jsonFromSlice : ∀ {first second bytes other value}, L.Alike first second → L.toVec first = .ok bytes →
    L.toVec second = .ok other → L.jsonFromSlice bytes = .ok value →
    L.Alike first value ∧ ∃ again, L.jsonFromSlice other = .ok again ∧ L.Alike second again
  /-- A bundle has only texts, so its compact text has one length in every order. -/
  bundle_length : ∀ {first second bytes other bundle}, L.Alike first second → L.readDsseBundle first = .ok bundle →
    L.toVec first = .ok bytes → L.toVec second = .ok other → other.length = bytes.length

namespace Libraries
variable {L : Libraries} {first second third : L.Value} {root : TrustedRoot} {now later : Int}

theorem Alike.symm (alike : L.Alike first second) : L.Alike second first := by
  obtain ⟨text, left, right⟩ := alike
  exact ⟨text, right, left⟩

theorem Alike.trans (alike : L.Alike first second) (next : L.Alike second third) : L.Alike first third := by
  obtain ⟨text, left, middle⟩ := alike
  obtain ⟨other, again, right⟩ := next
  rw [middle] at again
  cases again
  exact ⟨text, left, right⟩

private theorem bind_related {α β γ : Type} {related : α → β → Prop} {left : Option α} {right : Option β} {next : α → Option γ}
    {after : β → Option γ} (options : Option.Rel related left right) (same : ∀ one two, related one two → next one = after two) :
    left.bind next = right.bind after := by
  cases options with
  | none => rfl
  | some values => exact same _ _ values

private theorem required_related {ε α β γ : Type} {related : α → β → Prop} {left : Option α} {right : Option β} {error : ε}
    {next : α → Except ε γ} {after : β → Except ε γ} (options : Option.Rel related left right)
    (same : ∀ one two, related one two → next one = after two) :
    (required left error >>= next) = (required right error >>= after) := by
  cases options with
  | none => rfl
  | some values => exact same _ _ values

theorem textAt_alike (reads : JsonReaders L) (alike : L.Alike first second) (name : String) :
    L.textAt first name = L.textAt second name :=
  bind_related (reads.get alike name) fun _ _ member => reads.asStr member

theorem pointer_alike (reads : JsonReaders L) (alike : L.Alike first second) (names : List String) :
    Option.Rel L.Alike (L.pointer first names) (L.pointer second names) := by
  induction names generalizing first second with
  | nil => exact .some alike
  | cons name names ih =>
    have members := reads.get alike name
    simp only [Sigstore.Libraries.pointer, List.foldlM_cons]
    generalize L.get first name = left at members
    generalize L.get second name = right at members
    cases members with
    | none => exact .none
    | some member => exact ih member

theorem get_object_alike (reads : JsonReaders L) (alike : L.Alike first second) (name : String) :
    Option.Rel L.Alike ((L.get first name).filter L.isObject) ((L.get second name).filter L.isObject) := by
  have members := reads.get alike name
  generalize L.get first name = left at members
  generalize L.get second name = right at members
  cases members with
  | none => exact .none
  | some member =>
    simp only [Option.filter_some, reads.isObject member]
    split
    · exact .some member
    · exact .none

theorem array_alike (reads : JsonReaders L) {left right : Option L.Value} (options : Option.Rel L.Alike left right) :
    Option.Rel (List.Forall₂ L.Alike) (left.bind L.asArray) (right.bind L.asArray) := by
  cases options with
  | none => exact .none
  | some values => exact reads.asArray values

theorem checkBundleShape_alike (reads : JsonReaders L) (alike : L.Alike first second) :
    L.checkBundleShape first = L.checkBundleShape second := by
  unfold Sigstore.Libraries.checkBundleShape
  rw [textAt_alike reads alike "mediaType"]
  refine bind_congr fun mediaType => bind_congr fun _ => required_related (get_object_alike reads alike _) fun envelope other same => ?_
  rw [textAt_alike reads same "payloadType"]
  refine bind_congr fun _ => required_related (array_alike reads (reads.get same _)) fun signatures others each => ?_
  have signature : (signatures.head?.bind fun signature => L.textAt signature "sig") =
      others.head?.bind fun signature => L.textAt signature "sig" := by
    cases each with
    | nil => rfl
    | cons head _ => exact textAt_alike reads head "sig"
  simp only [each.length_eq, signature]
  refine bind_congr fun _ => bind_congr fun _ => required_related (array_alike reads (pointer_alike reads alike _)) fun _ _ entries => ?_
  rw [entries.length_eq]

theorem decodeDssePayload_alike (reads : JsonReaders L) (alike : L.Alike first second) :
    L.decodeDssePayload first = L.decodeDssePayload second := by
  unfold Sigstore.Libraries.decodeDssePayload
  rw [bind_related (pointer_alike reads alike ["dsseEnvelope", "payload"]) fun _ _ member => reads.asStr member]

theorem verifyStatement_alike (reads : JsonReaders L) (alike : L.Alike first second) (expected : List SubjectDigest)
    (predicateType : String) (certificate : CertificatePolicy) :
    Keeps (L.verifyStatement root first expected predicateType certificate now)
      (L.verifyStatement root second expected predicateType certificate now) := by
  unfold Sigstore.Libraries.verifyStatement
  rw [checkBundleShape_alike reads alike, decodeDssePayload_alike reads alike]
  refine .after fun _ _ => .after fun _ _ => .after fun _ _ => .after fun _ _ => .after fun _ _ => .after fun _ _ =>
    .bind (.mapError ?_ _) fun _ _ => .refl _
  -- After the bundle is read, nothing looks at the value again.
  exact .bind ((reads.readDsseBundle alike).mapError _) fun _ _ => .refl _

theorem parseBundleDocuments_line {bytes : Bytes} (line : 10 ∉ bytes) {documents : List L.Value}
    (ok : L.parseBundleDocuments bytes = .ok documents) : ∃ value, L.strictJson bytes = .ok value ∧ documents = [value] := by
  unfold Sigstore.Libraries.parseBundleDocuments at ok
  cases parsed : L.strictJson bytes with
  | ok value =>
    rw [parsed] at ok
    cases ok
    exact ⟨value, rfl, rfl⟩
  | error reason =>
    have single : ((Sigstore.lines bytes).filter fun line => !Sigstore.isBlank line).length ≤ 1 := by
      refine (List.length_filter_le _ _).trans ?_
      rw [Sigstore.lines, List.splitOn_eq_singleton line]
      cases bytes <;> simp
    simp only [parsed, single, true_or, if_true] at ok
    split at ok <;> cases ok

variable {bytes other : Bytes}

theorem verifyGithubAttestation_later (reads : JsonReaders L) (alike : L.Alike first second) (serialized : L.toVec first = .ok bytes)
    (again : L.toVec second = .ok other) (order : now ≤ later) (expected : List SubjectDigest) (policy : GithubPolicy) :
    Keeps (L.verifyGithubAttestation root bytes expected policy now)
      (L.verifyGithubAttestation root other expected policy later) := by
  intro result ok
  obtain ⟨value, parsed⟩ : ∃ value, L.strictJson bytes = .ok value := by
    simp only [Sigstore.Libraries.verifyGithubAttestation, Sigstore.Libraries.verifySingleAttestation, bind_ok] at ok
    obtain ⟨_, -, documents, read, -⟩ := ok
    obtain ⟨value, parsed, -⟩ := parseBundleDocuments_line (reads.toVec_line serialized) read
    exact ⟨value, parsed⟩
  obtain ⟨same, reread, reparsed, like⟩ := reads.strictJson alike serialized again parsed
  obtain ⟨size, verified⟩ := (Sigstore.Libraries.verifyGithubAttestation_document parsed _ _ _).mp ok
  refine (Sigstore.Libraries.verifyGithubAttestation_document reparsed _ _ _).mpr ⟨?_, ?_⟩
  · obtain ⟨bundle, read⟩ : ∃ bundle, L.readDsseBundle value = .ok bundle := by
      simp only [Sigstore.Libraries.verifyGithubAttestationValue, Sigstore.Libraries.verifyStatement,
        Sigstore.Libraries.verifySigstore, bind_ok, mapError_ok] at verified
      obtain ⟨_, -, _, -, _, -, _, -, _, -, _, -, _, ⟨bundle, read, -⟩, -⟩ := verified
      exact ⟨bundle, read⟩
    rw [reads.bundle_length alike (reads.readDsseBundle same.symm read) serialized again]
    exact size
  · refine Sigstore.Libraries.verifyGithubAttestationValue_later order reread expected policy ?_
    exact verifyStatement_alike reads (same.symm.trans (alike.trans like)) expected _ _ verified

theorem isStagingDevelopmentProvenance_alike (reads : JsonReaders L) (alike : L.Alike first second)
    (serialized : L.toVec first = .ok bytes) (again : L.toVec second = .ok other) (expected : List SubjectDigest) :
    Keeps (L.isStagingDevelopmentProvenance bytes expected) (L.isStagingDevelopmentProvenance other expected) := by
  intro result ok
  simp only [isStagingDevelopmentProvenance, bind_ok, mapError_ok] at ok ⊢
  obtain ⟨value, parsed, rest⟩ := ok
  obtain ⟨same, reread, reparsed, like⟩ := reads.jsonFromSlice alike serialized again parsed
  have read : L.Alike value reread := same.symm.trans (alike.trans like)
  refine ⟨reread, reparsed, ?_⟩
  rw [textAt_alike reads read] at rest
  revert rest
  split
  · exact id
  · exact fun rest => Keeps.bind ((reads.readStaging read).mapError _) (fun _ _ => .refl _) rest

theorem verifyProvenance_later (reads : JsonReaders L) (alike : L.Alike first second) (serialized : L.toVec first = .ok bytes)
    (again : L.toVec second = .ok other) (order : now ≤ later) (expected : List SubjectDigest) (policy : GithubPolicy)
    (context : String) :
    Keeps (L.verifyProvenance root bytes expected policy now context)
      (L.verifyProvenance root other expected policy later context) := by
  have github (placeholder : Bool) :
      Keeps (if placeholder then pure (none, .staging) else L.verifyGithubProvenance root bytes expected policy now context)
        (if placeholder then pure (none, .staging) else L.verifyGithubProvenance root other expected policy later context) := by
    split
    · exact .refl _
    · exact .bind ((verifyGithubAttestation_later reads alike serialized again order expected policy).mapError _) fun _ _ => .refl _
  unfold verifyProvenance
  dsimp only
  split
  · exact .bind (isStagingDevelopmentProvenance_alike reads alike serialized again expected) fun placeholder _ => github placeholder
  · exact .bind (.refl _) fun placeholder _ => github placeholder

end Libraries

/-- One listed object, with the members of its proof in any order. -/
structure SameRelease {L : Libraries} {Document : Type} (first second : ReleaseEvidence L.Value Document) : Prop where
  document : first.document = second.document
  provenance : L.Alike first.provenance second.provenance

section
variable {L : Libraries} {root : TrustedRoot} {now later : Int}

private theorem serialized_later {Result : Type} (reads : JsonReaders L) {first second : L.Value} (alike : L.Alike first second)
    {next after : Bytes → Except ReportError Result}
    (rest : ∀ bytes other, L.toVec first = .ok bytes → L.toVec second = .ok other → Keeps (next bytes) (after other)) :
    Keeps ((L.toVec first).mapError .release >>= next) ((L.toVec second).mapError .release >>= after) := by
  intro result ok
  obtain ⟨bytes, serialized, verified⟩ := bind_ok.mp ok
  obtain ⟨other, again⟩ := reads.toVec alike (mapError_ok.mp serialized)
  exact bind_ok.mpr ⟨other, mapError_ok.mpr again, rest _ _ (mapError_ok.mp serialized) again verified⟩

theorem verifyGatewayRelease_later (reads : JsonReaders L) {first second : AllowedIgvm L.Value} (same : SameRelease first second)
    (order : now ≤ later) : Keeps (L.verifyGatewayRelease first root now) (L.verifyGatewayRelease second root later) := by
  unfold Libraries.verifyGatewayRelease
  rw [same.document]
  refine .after fun _ _ => .after fun _ _ => serialized_later reads same.provenance fun bytes other serialized again => ?_
  exact .bind (Libraries.verifyProvenance_later reads same.provenance serialized again order _ _ _) fun _ _ => .refl _

theorem verifyCatalogRelease_later (reads : JsonReaders L) {first second : AllowedCatalog L.Value} (same : SameRelease first second)
    (order : now ≤ later) : Keeps (L.verifyCatalogRelease first root now) (L.verifyCatalogRelease second root later) := by
  unfold Libraries.verifyCatalogRelease
  rw [same.document]
  refine .after fun _ _ => .after fun _ _ => serialized_later reads same.provenance fun bytes other serialized again => ?_
  exact .bind (Libraries.verifyProvenance_later reads same.provenance serialized again order _ _ _) fun _ _ => .refl _

theorem verifyGateway_later (reads : JsonReaders L) (approvals : VerifiedApprovals L.toApprovals) {first second : AllowedIgvm L.Value}
    (same : SameRelease first second) (order : now ≤ later) :
    Keeps (verifyGateway approvals first now) (verifyGateway approvals second later) :=
  .bind ((verifyGatewayRelease_later reads same order).mapError _) fun _ _ => .refl _

theorem verifyCatalog_later (reads : JsonReaders L) (approvals : VerifiedApprovals L.toApprovals)
    {first second : AllowedCatalog L.Value} (same : SameRelease first second) (order : now ≤ later) :
    Keeps (verifyCatalog approvals first now) (verifyCatalog approvals second later) :=
  .bind ((verifyCatalogRelease_later reads same order).mapError _) fun _ _ => .refl _

end
end StogasVerifier.Evidence
