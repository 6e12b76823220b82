import StogasVerifier.Evidence.Snapshot

/-! What the verifier learns about revocation (`Revocations::observe` of
`evidence/amd.rs`): pinned roots, and the authenticated CRLs that they issued. -/

namespace StogasVerifier.Evidence
open Lib Std
open Sigstore (Bytes hexEncode)

def maxVendorCollateral : Nat := 4096
def maxClockSkewMs : Int := 60000

def collateralError (error : ReportError) : Error := .collateral error.text

/-- A serial number without its leading zeros. -/
def serialBytes (serial : Bytes) : Bytes := serial.dropWhile (· = 0)

def saturatingAdd (value step : Int) : Int := min (value + step) (2 ^ 63 - 1)

/-- DER of a nonnegative integer other than the shortest. -/
def noncanonicalNumber : Bytes → Bool
  | tag :: length :: first :: rest =>
    tag ≠ 2 || length.toNat ≠ rest.length + 1 || first ≥ 0x80 || (first = 0 && rest.head?.any (· < 0x80))
  | _ => true

namespace Libraries
variable (L : Libraries)

def rowDer (row : L.Value) : Except Error Bytes := do
  let encoded ← required (L.textAt row "der_base64url") (.collateral "missing DER")
  let der ← (L.urlSafeDecode encoded).mapError .collateral
  rejectIf (L.textAt row "sha256" ≠ some (hexEncode (L.sha256 der).toList)) (.collateral "DER digest differs")
  return der

def rsaPssOid : String := "1.2.840.113549.1.1.10"
def mgf1Oid : String := "1.2.840.113549.1.1.8"
def sha384Oid : String := "2.16.840.1.101.3.4.2.2"

def verifyAmdCrlSignature (crl : X509Crl) (signer : X509Certificate) : Except ReportError Unit := do
  rejectIf (crl.signatureAlgorithm ≠ crl.tbsSignature ∨ crl.signatureAlgorithm.algorithm ≠ rsaPssOid)
    (.node "AMD CRL must use one matching RSA-PSS signature algorithm")
  let algorithm ← required (L.signatureAlgorithm crl.signatureAlgorithm)
    (.node "AMD CRL has invalid RSA-PSS signature parameters")
  let parameters ← required algorithm (.node "AMD CRL must use RSA-PSS with SHA-384")
  let (mgf, hash) ← required parameters.maskGenAlgorithm (.node "AMD CRL has invalid RSA-PSS mask parameters")
  rejectIf (parameters.hashAlgorithmOid ≠ sha384Oid ∨ mgf ≠ mgf1Oid ∨ hash ≠ sha384Oid ∨ parameters.saltLength ≠ 48 ∨
      parameters.trailerField ≠ 1)
    (.node "AMD CRL must use RSA-PSS with SHA-384, MGF1-SHA-384, and a 48-byte salt")
  let publicKey ← (L.rsaFromPublicKeyDer signer.publicKey).mapError fun error => .node s!"AMD CRL signer key: {error}"
  let signature ← (L.pssSignature crl.signatureValue).mapError fun error => .node s!"AMD CRL signature encoding: {error}"
  (L.pssVerifySha384 publicKey crl.tbsCertList signature).mapError fun error => .node s!"AMD CRL signature: {error}"

end Libraries

def checkCrlExtension (ark : X509Certificate) (extension : X509Extension) : Except Error Bool :=
  match extension.parsed, extension.critical with
  | .authorityKeyIdentifier identifier, false => do
    let key ← required identifier (.collateral "CRL authority key absent")
    rejectIf (¬ ark.extensions.any fun subject => subject.parsed = .subjectKeyIdentifier key)
      (.collateral "CRL authority key differs")
    return true
  | .crlNumber, false => do
    rejectIf (noncanonicalNumber extension.value) (.collateral "noncanonical CRL number")
    return false
  | .parseError, _ => .error (.collateral "invalid CRL extension")
  | _, critical => do
    rejectIf (critical ∨ extension.oid = "2.5.29.27" ∨ extension.oid = "2.5.29.28")
      (.collateral "unsupported CRL scope or critical extension")
    return false

/-- The loop of `crl_number_and_scope`: whether the authority key was seen. -/
def checkCrlExtensions (ark : X509Certificate) : List String → Bool → List X509Extension → Except Error Bool
  | _, seen, [] => .ok seen
  | oids, seen, extension :: extensions => do
    rejectIf (extension.oid ∈ oids) (.collateral "duplicate CRL extension")
    let authority ← checkCrlExtension ark extension
    checkCrlExtensions ark (extension.oid :: oids) (seen || authority) extensions

def crlNumberAndScope (crl : X509Crl) (ark : X509Certificate) : Except Error Nat := do
  rejectIf (¬ (← checkCrlExtensions ark [] false crl.extensions)) (.collateral "CRL authority key absent")
  let number ← required crl.crlNumber (.collateral "CRL number absent")
  rejectIf (256 ^ 20 ≤ number) (.collateral "CRL number too large")
  return number

def checkEntryExtensions : List String → List X509Extension → Except Error Unit
  | _, [] => .ok ()
  | oids, extension :: extensions => do
    rejectIf (extension.oid ∈ oids ∨ extension.critical ∨ extension.oid = "2.5.29.29" ∨ extension.parsed = .parseError)
      (.collateral "unsupported revoked-certificate extension")
    checkEntryExtensions (extension.oid :: oids) extensions

def revokedSerials : List Bytes → List RevokedCertificate → Except Error (List Bytes)
  | revoked, [] => .ok revoked.reverse
  | revoked, entry :: entries => do
    checkEntryExtensions [] entry.extensions
    let serial := serialBytes entry.rawSerial
    rejectIf (serial ∈ revoked) (.collateral "duplicate revoked certificate")
    revokedSerials (serial :: revoked) entries

def Libraries.authenticateCrl (L : Libraries) (arkDer der : Bytes) (now : Int) : Except Error Crl := do
  let ark ← (L.parseX509Certificate arkDer).mapError .collateral
  rejectIf (ark.remaining ≠ []) (.collateral "ARK trailing bytes")
  let crl ← (L.parseX509Crl der).mapError .collateral
  rejectIf (crl.remaining ≠ [] ∨ crl.issuer ≠ ark.subject) (.collateral "CRL issuer or framing")
  (L.verifyAmdCrlSignature crl ark).mapError collateralError
  let notBeforeUnixMs ← required (Approvals.checkedThousand crl.lastUpdate) (.collateral "CRL date overflow")
  let nextUpdate ← required crl.nextUpdate (.collateral "CRL nextUpdate absent")
  let notAfterUnixMs ← required (Approvals.checkedThousand nextUpdate) (.collateral "CRL date overflow")
  rejectIf (saturatingAdd now maxClockSkewMs < notBeforeUnixMs ∨ notAfterUnixMs ≤ notBeforeUnixMs)
    (.collateral "CRL validity interval")
  let number ← crlNumberAndScope crl ark
  let revoked ← revokedSerials [] crl.revokedCertificates
  return { number, contents := L.sha256 crl.tbsCertList, der, validity := ⟨notBeforeUnixMs, notAfterUnixMs⟩, revoked }

namespace Revocations
variable (L : Libraries)

def pinnedRoot (row : L.Value) : Option (IssuerId × Bytes) :=
  match L.rowDer row with
  | .error _ => none
  | .ok der =>
    match L.parseX509Certificate der with
    | .error _ => none
    | .ok certificate =>
      let id := hexEncode (L.sha384 certificate.publicKey)
      if certificate.remaining ≠ [] ∨ certificate.subject ≠ certificate.issuer ∨
          certificate.signatureAlgorithm ≠ certificate.tbsSignature ∨
          ¬ amdProductProfiles.any fun profile => profile.rootSpkiSha384 = id then none
      else some (id, der)

def selfSigned (der : Bytes) : Bool :=
  match L.sevCertificateFromDer der with
  | .error _ => false
  | .ok root => (L.sevVerify root root).isOk

/-- A known root stays; a new one is retained once its own signature holds. -/
def observeRoot (issuers : Revocations) (row : L.Value) : Revocations :=
  match pinnedRoot L row with
  | none => issuers
  | some (id, der) =>
    if issuers.contains id ∨ ¬ selfSigned L der then issuers
    else issuers.insert id { certificate := der, latest := none, conflicting := false }

def retaining (issuers : Revocations) (der : Bytes) : Option (IssuerId × Issuer) :=
  issuers.toList.find? fun entry => entry.2.latest.any fun old => old.der = der

def authenticating (issuers : Revocations) (der : Bytes) (now : Int) : Option (IssuerId × Crl) :=
  issuers.toList.findSome? fun entry =>
    match L.authenticateCrl entry.2.certificate der now with
    | .ok crl => some (entry.1, crl)
    | .error _ => none

def observeCrl (issuers : Revocations) (der : Bytes) (now : Int) : Except Error Unit × Revocations :=
  match retaining issuers der with
  | some (_, issuer) => (rejectIf issuer.conflicting .crlOrder, issuers)
  | none =>
    match authenticating L issuers der now with
    | none => (.error (.collateral "untrusted AMD CRL"), issuers)
    | some (id, crl) =>
      match issuers[id]? with
      | none => (.error .missingCollateral, issuers)
      | some issuer =>
        let (learned, issuer) := issuer.learn crl
        (learned, issuers.insert id issuer)

def observeRow (now : Int) (progress : Except Error Unit × Revocations) (row : L.Value) : Except Error Unit × Revocations :=
  match L.rowDer row with
  | .error error => (progress.1.bind fun _ => .error error, progress.2)
  | .ok der =>
    let (observed, issuers) := observeCrl L progress.2 der now
    (progress.1.bind fun _ => observed, issuers)

def rows (body : L.Value) : List L.Value := ((L.get body "vendor_collateral").bind L.asArray).getD []
def rowsOfType (kind : String) (body : L.Value) : List L.Value :=
  (rows L body).filter fun row => L.textAt row "collateral_type" = some kind

def observe (issuers : Revocations) (body : L.Value) (now : Int) : Except Error Unit × Revocations :=
  if maxVendorCollateral < (rows L body).length then (.error .tooLarge, issuers)
  else
    let issuers := (rowsOfType L "ark" body).foldl (observeRoot L) issuers
    (rowsOfType L "crl" body).foldl (observeRow L now) (.ok (), issuers)

end Revocations
end StogasVerifier.Evidence
