import StogasVerifier.Sigstore.Publication

/-! Build attestations in Sigstore bundles (`lib.rs`, `sigstore.rs`, `tlog.rs`, `sct.rs`
and `tsa.rs` of the offline Sigstore verifier). Every clock check is an upper bound on an
authenticated time. -/

namespace StogasVerifier.Sigstore
open Lib

def maxBundles : Nat := 16
def maxSubjects : Nat := 1024
def maxTimestamps : Nat := 4
def dssePayloadType : String := "application/vnd.in-toto+json"
def githubOidcIssuer : String := "https://token.actions.githubusercontent.com"
def fulcioIssuerOid : String := "1.3.6.1.4.1.57264.1.1"
def runnerEnvironment : String := "1.3.6.1.4.1.57264.1.11"
def sourceRepositoryUri : String := "1.3.6.1.4.1.57264.1.12"
def sourceRepositoryDigest : String := "1.3.6.1.4.1.57264.1.13"
def sourceRepositoryRef : String := "1.3.6.1.4.1.57264.1.14"

structure GithubPolicy where
  repository : String
  workflowIdentity : String
  sourceRef : String
  sourceCommit : String
  predicateType : String

/-- What a Fulcio certificate must say about its signer. -/
structure CertificatePolicy where
  identity : String
  issuer : String
  extensions : List (String × String)

structure VerifiedAttestation where
  integratedTime : Int
  predicateType : String
  subjects : List SubjectDigest
  deriving DecidableEq, Repr

inductive AttestationError where
  | tooLarge
  | invalidBundle (reason : String)
  | policy (reason : String)
  | cryptographic (reason : String)
  deriving DecidableEq, Repr

def AttestationError.text : AttestationError → String
  | .tooLarge => s!"sigstore bundle exceeds {Libraries.maxBundleBytes} bytes"
  | .invalidBundle reason => s!"invalid Sigstore bundle: {reason}"
  | .policy reason => s!"Sigstore policy mismatch: {reason}"
  | .cryptographic reason => s!"Sigstore cryptographic verification failed: {reason}"

structure CertificateInfo where
  der : Bytes
  spki : Bytes
  identity : String
  issuer : String
  extensions : List (String × Bytes)
  notBefore : Int
  notAfter : Int

/-- Unicode white space, as `trim` strips it. -/
def isWhitespace (char : Char) : Bool :=
  let code := char.toNat
  decide (9 ≤ code ∧ code ≤ 13) || decide (0x2000 ≤ code ∧ code ≤ 0x200a) ||
    [0x20, 0x85, 0xa0, 0x1680, 0x2028, 0x2029, 0x202f, 0x205f, 0x3000].contains code

/-- `str::from_utf8` -/
def fromUtf8 (bytes : Bytes) : Option String := String.fromUTF8? ⟨bytes.toArray⟩

def isBlank (line : Bytes) : Bool := (fromUtf8 line).any fun text => text.toList.all isWhitespace

def dropReturn (line : Bytes) : Bytes := if line.getLast? = some 13 then line.dropLast else line

/-- `lines`: the pieces between line feeds; a last piece without one keeps its end. -/
def lines (bytes : Bytes) : List Bytes :=
  let pieces := bytes.splitOn 10
  pieces.dropLast.map dropReturn ++ (pieces.getLast?.filter (· ≠ [])).toList

def isLowerSha256 (text : String) : Bool :=
  text.utf8ByteSize = 64 ∧
    text.toList.all fun char => decide ('0' ≤ char ∧ char ≤ '9') || decide ('a' ≤ char ∧ char ≤ 'f')

/-- The loop of `check_subjects` over the expected names. -/
def checkExpected : List String → List SubjectDigest → Bool
  | _, [] => true
  | names, expected :: rest =>
    expected.name ≠ "" && !names.contains expected.name && isLowerSha256 expected.sha256 &&
      checkExpected (expected.name :: names) rest

def lastDigest (subjects : List SubjectDigest) (name : String) : Option String :=
  (subjects.reverse.find? fun subject => subject.name = name).map SubjectDigest.sha256

def checkSubjects (statement : Statement) (expected : List SubjectDigest) : Except AttestationError Unit := do
  rejectIf (expected = [] ∨ maxSubjects < expected.length)
    (.policy s!"expected subject count must be between 1 and {maxSubjects}")
  rejectIf (statement.subject.length ≠ expected.length) (.policy "attestation contains missing or unexpected subjects")
  rejectIf (¬ checkExpected [] expected)
    (.policy "expected subjects require unique names and lowercase SHA-256 digests")
  rejectIf (¬ (statement.subject.map SubjectDigest.name).Nodup) (.policy "attestation has duplicate subject names")
  match expected.find? fun subject => lastDigest statement.subject subject.name ≠ some subject.sha256 with
  | some subject => .error (.policy s!"expected exactly one subject {subject.name} with digest {subject.sha256}")
  | none => .ok ()

namespace Libraries
variable (L : Libraries)

def pointer (value : L.Value) (names : List String) : Option L.Value := names.foldlM L.get value
def textAt (value : L.Value) (name : String) : Option String := (L.get value name).bind L.asStr

def checkBundleShape (value : L.Value) : Except AttestationError Unit := do
  let mediaType ← required (L.textAt value "mediaType") (.invalidBundle "missing Sigstore bundle media type")
  rejectIf (mediaType ≠ bundleMediaType) (.invalidBundle s!"unsupported Sigstore bundle media type: {mediaType}")
  let envelope ← required ((L.get value "dsseEnvelope").filter L.isObject)
    (.invalidBundle "expected Sigstore v0.3 DSSE envelope")
  rejectIf (L.textAt envelope "payloadType" ≠ some dssePayloadType) (.invalidBundle "unsupported DSSE payload type")
  let signatures ← required ((L.get envelope "signatures").bind L.asArray) (.invalidBundle "missing DSSE signatures")
  rejectIf (signatures.length ≠ 1) (.invalidBundle "GitHub profile requires exactly one DSSE signature")
  rejectIf ((signatures.head?.bind fun signature => L.textAt signature "sig").all (· = "")) (.invalidBundle "empty DSSE signature")
  let entries ← required ((L.pointer value ["verificationMaterial", "tlogEntries"]).bind L.asArray)
    (.invalidBundle "missing Rekor entry")
  rejectIf (entries.length ≠ 1) (.invalidBundle "GitHub profile requires exactly one Rekor entry")

def decodeDssePayload (value : L.Value) : Except AttestationError Bytes := do
  let payload ← required ((L.pointer value ["dsseEnvelope", "payload"]).bind L.asStr)
    (.invalidBundle "expected Sigstore v0.3 DSSE envelope")
  (L.standardDecode payload).mapError fun error => .invalidBundle s!"invalid DSSE payload encoding: {error}"

def extensionValues (extensions : List (String × Bytes)) (oid : String) : List Bytes :=
  (extensions.filter fun extension => extension.1 = oid).map Prod.snd

def issuerText (bytes : Bytes) : Except String String :=
  match L.utf8FromDer bytes with
  | .ok text => .ok text
  | .error _ => required (fromUtf8 bytes) "malformed Fulcio issuer extension"

def parseCertificate (der : Bytes) : Except String CertificateInfo := do
  let certificate ← (L.fulcioFromDer der).mapError fun error => s!"invalid Fulcio certificate: {error}"
  rejectIf (2 ^ 63 ≤ certificate.notBefore) "Fulcio not-before is too large"
  rejectIf (2 ^ 63 ≤ certificate.notAfter) "Fulcio not-after is too large"
  let spki ← certificate.spki.mapError fun error => s!"could not encode Fulcio public key: {error}"
  let names ← certificate.subjectAltName.mapError fun error => s!"could not parse Fulcio SAN: {error}"
  let (critical, names) ← required names "Fulcio certificate has no SAN"
  let [some identity] := names | throw "Fulcio certificate requires one critical URI SAN"
  rejectIf (¬ critical) "Fulcio certificate requires one critical URI SAN"
  let issuers ← (extensionValues certificate.extensions fulcioIssuerOid).mapM L.issuerText
  let [issuer] := issuers | throw "Fulcio certificate requires one OIDC issuer extension"
  return { der, spki, identity, issuer, extensions := certificate.extensions,
           notBefore := certificate.notBefore, notAfter := certificate.notAfter }

def textExtension (certificate : CertificateInfo) (oid : String) : Except String String := do
  let [value] := extensionValues certificate.extensions oid | throw s!"Fulcio certificate requires one {oid} extension"
  (L.utf8FromDer value).mapError fun error => s!"malformed Fulcio {oid} extension: {error}"

def checkExtensions (certificate : CertificateInfo) : List (String × String) → Except String Unit
  | [] => .ok ()
  | (oid, expected) :: extensions => do
    rejectIf ((← L.textExtension certificate oid) ≠ expected) s!"Fulcio {oid} extension differs from policy"
    checkExtensions certificate extensions

def validAt (validity : Option Validity) (time : Int) : Except String Bool :=
  match validity with
  | none => .ok true
  | some validity => L.containsSeconds validity time

def authoritiesAt (time : Int) : List Authority → Except String (List Authority)
  | [] => .ok []
  | authority :: authorities => do
    let valid ← L.validAt authority.validity time
    let rest ← authoritiesAt time authorities
    return if valid then authority :: rest else rest

def fulcioCertificatesAt (root : TrustedRoot) (time : Int) : Except String (List Bytes) := do
  let authorities ← L.authoritiesAt time root.fulcio
  let certificates := authorities.flatMap Authority.certificates
  rejectIf (certificates = []) "no certificate authority was valid for the authenticated time"
  return certificates

def verifyCertificateChain (der : Bytes) (validationTime : Int) (root : TrustedRoot) : Except String Bytes := do
  let anchors ← L.fulcioCertificatesAt root validationTime
  rejectIf (validationTime < 0) "negative Fulcio validation time"
  L.verifyForUsage anchors der validationTime

def sctScheme (algorithm : Nat) : Except String Scheme :=
  match algorithm with
  | 0x0403 => .ok .ecdsaP256Sha256
  | 0x0503 => .ok .ecdsaP384Sha384
  | 0x0401 => .ok .rsaPkcs1Sha256
  | 0x0501 => .ok .rsaPkcs1Sha384
  | 0x0601 => .ok .rsaPkcs1Sha512
  | _ =>
    let encoded := [UInt8.ofNat (algorithm / 256), UInt8.ofNat (algorithm % 256)]
    .error s!"unsupported SCT signature algorithm: 0x{hexEncode encoded}"

/-- `sct::verify` -/
def verifySct (der issuerSpki : Bytes) (validationTime : Int) (root : TrustedRoot) : Except String Unit := do
  let sct ← L.parseSct der
  let sctSeconds : Int := sct.timestampMs / 1000
  rejectIf (validationTime + 60 < sctSeconds) "Fulcio SCT is later than the authenticated signing time"
  let key ← L.keyAt root.ct sct.logId sctSeconds "CT"
  let signed ← sct.signedData issuerSpki
  let scheme ← sctScheme sct.algorithm
  (L.verifySpki key.spki scheme signed sct.signature).mapError fun error => s!"Fulcio SCT verification failed: {error}"

def verifyTimestamp (token signature : Bytes) (root : TrustedRoot) : Except String Int := do
  let time ← L.timestampTime token signature
  let authorities ← L.authoritiesAt time root.tsa
  rejectIf (authorities.isEmpty) "no TSA authority was valid at the RFC 3161 time"
  L.verifyTimestampSigner token authorities time
  return time

/-- The loop of `tsa::verify_all`: the earliest authenticated time. -/
def verifyTimestamps (signature : Bytes) (root : TrustedRoot) (nowSeconds : Int) :
    List String → Option Int → Except String (Option Int)
  | [], earliest => .ok earliest
  | timestamp :: timestamps, earliest => do
    let token ← (L.standardDecode timestamp).mapError fun error => s!"invalid RFC 3161 timestamp encoding: {error}"
    let verified ← L.verifyTimestamp token signature root
    rejectIf (nowSeconds + 60 < verified) "RFC 3161 timestamp is in the future"
    verifyTimestamps signature root nowSeconds timestamps (some (earliest.elim verified fun current => min current verified))

def verifyAllTimestamps (timestamps : List String) (signature : Bytes) (root : TrustedRoot) (nowSeconds : Int) :
    Except String (Option Int) := do
  rejectIf (maxTimestamps < timestamps.length) "too many RFC 3161 timestamps"
  L.verifyTimestamps signature root nowSeconds timestamps none

def verifyBodyBinding (entry : TransparencyLogEntry) (envelope : DsseEnvelope) (certificateDer : Bytes) : Except String Unit := do
  let canonical ← (L.standardDecode entry.canonicalizedBody).mapError fun error => s!"invalid Rekor canonical body: {error}"
  let body ← (L.readDsseBody canonical).mapError fun error => s!"invalid Rekor DSSE body: {error}"
  rejectIf (body.apiVersion ≠ "0.0.1" ∨ body.kind ≠ "dsse" ∨ body.payloadHashAlgorithm ≠ "sha256" ∨
      body.envelopeHashAlgorithm ≠ "sha256" ∨ body.payloadHash.utf8ByteSize ≠ 64 ∨ body.envelopeHash.utf8ByteSize ≠ 64)
    "unsupported or ambiguous Rekor DSSE body"
  let [(signature, verifier)] := body.signatures | throw "unsupported or ambiguous Rekor DSSE body"
  let [dsse] := envelope.signatures | throw "unsupported or ambiguous Rekor DSSE body"
  let payload ← (L.standardDecode envelope.payload).mapError fun error => s!"invalid DSSE payload: {error}"
  rejectIf (hexEncode (L.sha256 payload).toList ≠ body.payloadHash) "Rekor payload hash does not bind the DSSE payload"
  let rekorSignature ← (L.standardDecode signature).mapError fun error => s!"invalid Rekor DSSE signature encoding: {error}"
  let bundleSignature ← (L.standardDecode dsse.sig).mapError fun error => s!"invalid bundle DSSE signature encoding: {error}"
  rejectIf (rekorSignature ≠ bundleSignature) "Rekor DSSE signature differs from the bundle"
  let verifier ← (L.standardDecode verifier).mapError fun error => s!"invalid Rekor verifier encoding: {error}"
  let (tag, contents) ← required (L.parsePem verifier) "invalid Rekor verifier certificate"
  rejectIf (tag ≠ "CERTIFICATE" ∨ contents ≠ certificateDer) "Rekor verifier certificate differs from the bundle"

/-- `tlog::verify` -/
def verifyLogEntry (entry : TransparencyLogEntry) (envelope : DsseEnvelope) (certificate : CertificateInfo) (nowSeconds : Int)
    (root : TrustedRoot) : Except String Int := do
  rejectIf (entry.kind ≠ "dsse" ∨ entry.version ≠ "0.0.1") "only Rekor DSSE v0.0.1 is supported for GitHub attestations"
  let integratedTime ← parseI64 entry.integratedTime "integrated time"
  rejectIf (integratedTime ≤ 0 ∨ integratedTime < certificate.notBefore ∨ certificate.notAfter < integratedTime ∨
      nowSeconds + 60 < integratedTime)
    "Rekor integrated time is invalid, outside the certificate, or in the future"
  let logId ← L.decode32 entry.logIdKeyId "Rekor log id"
  let logKey ← L.rekorKeyAt root logId.toList integratedTime
  L.verifySet entry logId.toList logKey.spki
  L.verifyInclusion entry logId.toList logKey.spki
  L.verifyBodyBinding entry envelope certificate.der
  return integratedTime

/-- The pre-authentication encoding that a DSSE signature covers. -/
def pae (payloadType : String) (payload : Bytes) : Bytes :=
  s!"DSSEv1 {payloadType.utf8ByteSize} {payloadType} {payload.length} ".toUTF8.toList ++ payload

def verifyDsseSignature (envelope : DsseEnvelope) (sig : String) (spki : Bytes) : Except String Unit := do
  let payload ← (L.standardDecode envelope.payload).mapError fun error => s!"invalid DSSE payload encoding: {error}"
  let signature ← (L.standardDecode sig).mapError fun error => s!"invalid DSSE signature encoding: {error}"
  (L.verifySpki spki .ecdsaP256Sha256 (pae envelope.payloadType payload) signature).mapError fun error =>
    s!"DSSE signature verification failed: {error}"

def checkValidationTime (certificate : CertificateInfo) (validationTime nowSeconds : Int) : Except String Unit := do
  rejectIf (validationTime ≤ 0 ∨ nowSeconds + 60 < validationTime) "authenticated Sigstore time is absent or in the future"
  rejectIf (validationTime < certificate.notBefore ∨ certificate.notAfter < validationTime)
    "Fulcio certificate was not valid at the authenticated signing time"

/-- `sigstore::verify`: when the log integrated the one entry of a bundle. -/
def verifySigstore (root : TrustedRoot) (value : L.Value) (policy : CertificatePolicy) (nowUnixMs : Int) : Except String Int := do
  let bundle ← (L.readDsseBundle value).mapError fun error => s!"invalid Sigstore v0.3 bundle: {error}"
  let envelope := bundle.dsseEnvelope
  rejectIf (bundle.mediaType ≠ bundleMediaType ∨ envelope.payloadType ≠ dssePayloadType)
    "unsupported or ambiguous GitHub Sigstore bundle"
  let [dsse] := envelope.signatures | throw "unsupported or ambiguous GitHub Sigstore bundle"
  rejectIf (dsse.keyid ≠ "") "unsupported or ambiguous GitHub Sigstore bundle"
  let [entry] := bundle.tlogEntries | throw "unsupported or ambiguous GitHub Sigstore bundle"
  let der ← (L.standardDecode bundle.certificate).mapError fun error => s!"invalid Fulcio certificate encoding: {error}"
  let certificate ← L.parseCertificate der
  rejectIf (certificate.identity ≠ policy.identity ∨ certificate.issuer ≠ policy.issuer)
    "Fulcio identity or OIDC issuer differs from policy"
  L.checkExtensions certificate policy.extensions
  let integratedTime ← (parseI64 entry.integratedTime "").mapError fun _ => "invalid Rekor integrated time"
  let signature ← (L.standardDecode dsse.sig).mapError fun error => s!"invalid DSSE signature encoding: {error}"
  let timestampTime ← L.verifyAllTimestamps bundle.rfc3161Timestamps signature root (nowUnixMs / 1000)
  let validationTime := timestampTime.getD integratedTime
  checkValidationTime certificate validationTime (nowUnixMs / 1000)
  let issuerSpki ← L.verifyCertificateChain certificate.der validationTime root
  L.verifySct certificate.der issuerSpki validationTime root
  let verified ← L.verifyLogEntry entry envelope certificate (nowUnixMs / 1000) root
  L.verifyDsseSignature envelope dsse.sig certificate.spki
  return verified

def verifyStatement (trust : TrustedRoot) (value : L.Value) (expected : List SubjectDigest) (predicateType : String)
    (certificate : CertificatePolicy) (nowUnixMs : Int) : Except AttestationError VerifiedAttestation := do
  L.checkBundleShape value
  let payload ← L.decodeDssePayload value
  let statementValue ← (L.strictJson payload).mapError fun error => .invalidBundle s!"invalid DSSE statement: {error}"
  let statement ← (L.readStatement statementValue).mapError fun error => .invalidBundle s!"invalid DSSE statement: {error}"
  checkSubjects statement expected
  rejectIf (statement.kind ≠ "https://in-toto.io/Statement/v1" ∨ statement.predicateType ≠ predicateType)
    (.policy "in-toto statement or predicate type differs")
  let integratedTime ← (L.verifySigstore trust value certificate nowUnixMs).mapError .cryptographic
  return { integratedTime, predicateType := statement.predicateType, subjects := statement.subject }

def githubCertificate (policy : GithubPolicy) : CertificatePolicy where
  identity := policy.workflowIdentity
  issuer := githubOidcIssuer
  extensions := [(sourceRepositoryUri, policy.repository), (sourceRepositoryDigest, policy.sourceCommit),
    (sourceRepositoryRef, policy.sourceRef), (runnerEnvironment, "github-hosted")]

def verifyGithubAttestationValue (trust : TrustedRoot) (value : L.Value) (expected : List SubjectDigest) (policy : GithubPolicy)
    (nowUnixMs : Int) : Except AttestationError VerifiedAttestation :=
  L.verifyStatement trust value expected policy.predicateType (githubCertificate policy) nowUnixMs

def parseBundleDocuments (bytes : Bytes) : Except AttestationError (List L.Value) :=
  match L.strictJson bytes with
  | .ok value => .ok [value]
  | .error single =>
    match fromUtf8 bytes with
    | none => .error (.invalidBundle single)
    | some _ =>
      let texts := (lines bytes).filter fun line => !isBlank line
      if texts.length ≤ 1 ∨ maxBundles < texts.length then .error (.invalidBundle single)
      else texts.mapM fun line => (L.strictJson line).mapError .invalidBundle

/-- The loop of `verify_single_attestation`: one document verifies, and only one. -/
def verifyDocuments (verify : L.Value → Except AttestationError VerifiedAttestation) :
    List L.Value → Option VerifiedAttestation → Option AttestationError → Except AttestationError VerifiedAttestation
  | [], some result, _ => .ok result
  | [], none, lastError => .error (lastError.getD (.invalidBundle "attestation input is empty"))
  | value :: values, verified, lastError =>
    match verify value with
    | .error error => verifyDocuments verify values verified (some error)
    | .ok result =>
      match verified with
      | none => verifyDocuments verify values (some result) lastError
      | some _ => .error (.policy "multiple attestations match the required subjects and policy")

def verifySingleAttestation (bytes : Bytes) (verify : L.Value → Except AttestationError VerifiedAttestation) :
    Except AttestationError VerifiedAttestation := do
  rejectIf (maxBundleBytes < bytes.length) .tooLarge
  let documents ← L.parseBundleDocuments bytes
  L.verifyDocuments verify documents none none

def verifyGithubAttestation (trust : TrustedRoot) (bytes : Bytes) (expected : List SubjectDigest) (policy : GithubPolicy)
    (nowUnixMs : Int) : Except AttestationError VerifiedAttestation :=
  L.verifySingleAttestation bytes fun value => L.verifyGithubAttestationValue trust value expected policy nowUnixMs

end Libraries
end StogasVerifier.Sigstore
