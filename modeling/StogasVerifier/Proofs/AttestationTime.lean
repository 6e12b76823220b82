import StogasVerifier.Sigstore.Attestation

/-! The clock bounds an attestation from above only: what verified once verifies at every
later time, with the same result. -/

namespace StogasVerifier.Sigstore.Libraries
open Lib

variable {L : Libraries} {root : TrustedRoot} {now later : Int}

theorem verifyTimestamps_later (order : now ≤ later) (signature : Bytes) (timestamps : List String) (earliest : Option Int) :
    Keeps (L.verifyTimestamps signature root now timestamps earliest)
      (L.verifyTimestamps signature root later timestamps earliest) := by
  induction timestamps generalizing earliest with
  | nil => exact .refl _
  | cons timestamp timestamps ih =>
    refine .after fun token _ => .after fun verified _ => .bind (.rejectIf fun future => ?_) fun _ _ => ih _
    omega

theorem checkValidationTime_later (order : now ≤ later) (certificate : CertificateInfo) (time : Int) :
    Keeps (checkValidationTime certificate time now) (checkValidationTime certificate time later) := by
  refine .bind (.rejectIf fun outside => ?_) fun _ _ => .refl _
  omega

theorem verifyLogEntry_later (order : now ≤ later) (entry : TransparencyLogEntry) (envelope : DsseEnvelope)
    (certificate : CertificateInfo) :
    Keeps (L.verifyLogEntry entry envelope certificate now root) (L.verifyLogEntry entry envelope certificate later root) := by
  refine .after fun _ _ => .after fun integrated _ => .bind (.rejectIf fun outside => ?_) fun _ _ => .refl _
  omega

theorem verifySigstore_later (order : now ≤ later) (value : L.Value) (policy : CertificatePolicy) :
    Keeps (L.verifySigstore root value policy now) (L.verifySigstore root value policy later) := by
  have seconds : now / 1000 ≤ later / 1000 := Int.ediv_le_ediv (by decide) order
  refine .after fun bundle _ => .after fun _ _ => ?_
  dsimp only
  split
  · refine .after fun _ _ => ?_
    split
    · refine .after fun der _ => .after fun certificate _ => .after fun _ _ => .after fun _ _ => .after fun integrated _ =>
        .after fun signature _ => .bind ?_ fun timestamp _ => .bind (checkValidationTime_later seconds _ _) fun _ _ =>
        .after fun _ _ => .after fun _ _ => .bind (verifyLogEntry_later seconds _ _ _) fun _ _ => .refl _
      exact .after fun _ _ => verifyTimestamps_later seconds _ _ _
    · exact .refl _
  · exact .refl _

theorem verifyStatement_later (order : now ≤ later) (value : L.Value) (expected : List SubjectDigest) (predicateType : String)
    (certificate : CertificatePolicy) :
    Keeps (L.verifyStatement root value expected predicateType certificate now)
      (L.verifyStatement root value expected predicateType certificate later) :=
  .after fun _ _ => .after fun _ _ => .after fun _ _ => .after fun _ _ => .after fun _ _ => .after fun _ _ =>
    .bind ((verifySigstore_later order value certificate).mapError _) fun _ _ => .refl _

theorem verifyGithubAttestationValue_later (order : now ≤ later) (value : L.Value) (expected : List SubjectDigest)
    (policy : GithubPolicy) :
    Keeps (L.verifyGithubAttestationValue root value expected policy now)
      (L.verifyGithubAttestationValue root value expected policy later) :=
  verifyStatement_later order value expected _ _

theorem verifyGithubAttestation_document {bytes : Bytes} {value : L.Value} (parsed : L.strictJson bytes = .ok value)
    (expected : List SubjectDigest) (policy : GithubPolicy) (result : VerifiedAttestation) :
    L.verifyGithubAttestation root bytes expected policy now = .ok result ↔
      bytes.length ≤ maxBundleBytes ∧ L.verifyGithubAttestationValue root value expected policy now = .ok result := by
  simp only [verifyGithubAttestation, verifySingleAttestation, parseBundleDocuments, parsed, bind_ok, rejectIf_ok, exists_unit,
    not_lt, Except.ok.injEq, exists_eq_left', verifyDocuments]
  refine and_congr_right fun _ => ?_
  cases L.verifyGithubAttestationValue root value expected policy now <;> simp

end StogasVerifier.Sigstore.Libraries
