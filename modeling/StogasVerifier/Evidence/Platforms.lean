import StogasVerifier.Evidence.Revocations

/-! The certificates of each platform that evidence delivers (`Store::verify` of
`evidence/amd.rs`, and the collateral checks of `lib.rs`). -/

namespace StogasVerifier.Evidence
open Lib Std
open Sigstore (Bytes hexEncode)

structure VendorCollateral (Value : Type) where
  chipId : Option String
  collateralType : String
  fetchedAt : String
  payload : Value
  sha256 : String
  sourceUrl : String

structure AmdCollateralEntry where
  caProductName : String
  collateralType : String
  der : Bytes
  sha256 : String
  chipId : Option String
  reportedTcb : Option String
  deriving DecidableEq, Repr

/-- Product-scoped entries by product and type, platform certificates by platform, and the
digests of all rows so far. -/
structure CollateralEntries where
  common : List ((String × String) × AmdCollateralEntry) := []
  vceks : TreeMap String AmdCollateralEntry compare := ∅
  hashes : List String := []

def parseDerU8 : Bytes → Option UInt8
  | [0x02, 0x01, byte] => if byte < 0x80 then some byte else none
  | [0x02, 0x02, 0x00, byte] => if 0x80 ≤ byte then some byte else none
  | _ => none

def parseDerOctetString (value : Bytes) : Option Bytes :=
  if value.length = 8 ∨ value.length = 64 then some value
  else match value with
    | 0x04 :: length :: bytes => if length.toNat = bytes.length ∧ length < 0x80 then some bytes else none
    | _ => none

def tcbExtensions : AmdTcbLayout → List (String × Nat)
  | .family19h => [("1.3.6.1.4.1.3704.1.3.1", 0), ("1.3.6.1.4.1.3704.1.3.2", 1), ("1.3.6.1.4.1.3704.1.3.4", 2),
      ("1.3.6.1.4.1.3704.1.3.5", 3), ("1.3.6.1.4.1.3704.1.3.6", 4), ("1.3.6.1.4.1.3704.1.3.7", 5),
      ("1.3.6.1.4.1.3704.1.3.3", 6), ("1.3.6.1.4.1.3704.1.3.8", 7)]
  | .family1ah => [("1.3.6.1.4.1.3704.1.3.9", 0), ("1.3.6.1.4.1.3704.1.3.1", 1), ("1.3.6.1.4.1.3704.1.3.2", 2),
      ("1.3.6.1.4.1.3704.1.3.3", 3), ("1.3.6.1.4.1.3704.1.3.5", 4), ("1.3.6.1.4.1.3704.1.3.6", 5),
      ("1.3.6.1.4.1.3704.1.3.7", 6), ("1.3.6.1.4.1.3704.1.3.8", 7)]

def vendorExtensions : List (String × Bytes) → List X509Extension → Except ReportError (List (String × Bytes))
  | known, [] => .ok known
  | known, extension :: extensions =>
    if ("1.3.6.1.4.1.3704.1.".toList).isPrefixOf extension.oid.toList then do
      rejectIf (known.any fun other => other.1 = extension.oid)
        (.node s!"AMD VCEK extension {extension.oid} is duplicated")
      vendorExtensions ((extension.oid, extension.value) :: known) extensions
    else vendorExtensions known extensions

def requiredExtension (extensions : List (String × Bytes)) (oid : String) : Except ReportError Bytes :=
  required (extensions.lookup oid) (.node s!"AMD VCEK extension {oid} is absent")

def checkTcbExtensions (extensions : List (String × Bytes)) (expected : Bytes) : List (String × Nat) → Except ReportError Unit
  | [] => .ok ()
  | (oid, index) :: rest => do
    rejectIf (index ≠ 7 ∧ 127 < byteAt expected index) (.node s!"reported TCB byte {index} exceeds AMD KDS policy")
    let encoded ← requiredExtension extensions oid
    let value ← required (parseDerU8 encoded) (.node s!"AMD VCEK extension {oid} is malformed")
    rejectIf (value ≠ byteAt expected index)
      (.node s!"AMD VCEK extension {oid} differs: certificate=0x{hexEncode [value]}, report=0x{hexEncode [byteAt expected index]}")
    checkTcbExtensions extensions expected rest

/-- The part of a chip identifier that its certificate holds. -/
def expectedHwid (layout : AmdTcbLayout) (chip : Bytes) : Except ReportError Bytes :=
  match layout with
  | .family19h => .ok chip
  | .family1ah => do
    rejectIf (¬ allZero (chip.drop 8) ∨ allZero (chip.take 8))
      (.node "Family 1Ah report CHIP_ID is not an 8-byte PSN followed by zeros")
    return chip.take 8

def validateVcekExtensions (vek : X509Certificate) (chipId reportedTcb : String) : Except ReportError AmdProductProfile := do
  let expectedTcb ← required (hexDecode reportedTcb) (.node "reported TCB is invalid")
  rejectIf (expectedTcb.length ≠ 8) (.node "reported TCB has the wrong length")
  let extensions ← vendorExtensions [] vek.extensions
  let structVersion ← required (parseDerU8 (← requiredExtension extensions "1.3.6.1.4.1.3704.1.1"))
    (.node "AMD VCEK structVersion is malformed")
  let productName ← required (parseDerIa5String (← requiredExtension extensions "1.3.6.1.4.1.3704.1.2"))
    (.node "AMD VCEK productName is malformed")
  let profile ← required (amdProductFromVcekName productName) (.node "AMD VCEK productName is unsupported")
  rejectIf (structVersion ≠ profile.structVersion) (.node s!"AMD VCEK structVersion differs for {profile.productName}")
  checkTcbExtensions extensions expectedTcb (tcbExtensions profile.tcbLayout)
  let chip ← required (hexDecode chipId) (.node "chip id is invalid")
  rejectIf (chip.length ≠ 64) (.node "chip id has the wrong length")
  let hwid ← requiredExtension extensions "1.3.6.1.4.1.3704.1.4"
  let certificateChip ← required (parseDerOctetString hwid) (.node s!"AMD VCEK chip id is malformed ({hwid.length})")
  let expected ← expectedHwid profile.tcbLayout chip
  rejectIf (certificateChip ≠ expected) (.node "AMD VCEK chip id differs")
  return profile

namespace Libraries
variable (L : Libraries)

def expandBundleVendorCollateral : List L.Value → Except ReportError (List (VendorCollateral L.Value))
  | [] => .ok []
  | payload :: rows => do
    let parsed ← (L.readAmdKds payload).mapError fun error => .invalidBundle s!"invalid AMD collateral: {error}"
    let rest ← expandBundleVendorCollateral rows
    return { chipId := parsed.chipId, collateralType := parsed.collateralType, fetchedAt := parsed.fetchedAt, payload,
             sha256 := parsed.sha256, sourceUrl := parsed.sourceUrl } :: rest

def parseAmdEntry (row : VendorCollateral L.Value) (hashes : List String) : Except ReportError AmdCollateralEntry := do
  let payload ← (L.readAmdKds row.payload).mapError fun error => .invalidBundle s!"invalid AMD collateral: {error}"
  rejectIf (payload.schema ≠ "stogas.amd-kds-collateral.v1" ∨ payload.source ≠ "amd-kds" ∨
      payload.collateralType ≠ row.collateralType ∨ payload.fetchedAt ≠ row.fetchedAt ∨ payload.sha256 ≠ row.sha256 ∨
      payload.sourceUrl ≠ row.sourceUrl ∨ payload.chipId ≠ row.chipId)
    (.invalidBundle "AMD collateral envelope and payload differ")
  rejectIf (row.collateralType ∉ ["ark", "ask", "crl", "vcek"]) (.invalidBundle "unsupported AMD collateral type")
  rejectIf ((L.parseRfc3339 row.fetchedAt).isNone) (.invalidBundle s!"invalid timestamp: {row.fetchedAt}")
  let der ← (L.urlSafeDecode payload.derBase64url).mapError fun _ => .invalidBundle "AMD collateral DER is not base64url"
  rejectIf (hexEncode (L.sha256 der).toList ≠ row.sha256 ∨ row.sha256 ∈ hashes)
    (.invalidBundle "AMD collateral digest differs or is duplicated")
  return { caProductName := payload.caProductName, collateralType := row.collateralType, der, sha256 := row.sha256,
           chipId := row.chipId, reportedTcb := payload.reportedTcb.map L.toLowercase }

def addEntry (entries : CollateralEntries) (entry : AmdCollateralEntry) : Except ReportError CollateralEntries := do
  let hashes := entry.sha256 :: entries.hashes
  if entry.collateralType = "vcek" then
    let chipId ← required entry.chipId (.invalidBundle "AMD VCEK has no chip id")
    let reportedTcb ← required entry.reportedTcb (.invalidBundle "AMD VCEK has no reported TCB")
    let key := amdPlatformKey L.toLowercase chipId reportedTcb
    rejectIf (entries.vceks.contains key) (.invalidBundle "duplicate AMD VCEK platform evidence")
    return { entries with hashes, vceks := entries.vceks.insert key entry }
  else
    rejectIf (entry.chipId.isSome ∨ entry.reportedTcb.isSome) (.invalidBundle "product-scoped AMD evidence has node identity")
    let key := (entry.caProductName, entry.collateralType)
    rejectIf (entries.common.any fun other => other.1 = key) (.invalidBundle "duplicate product-scoped AMD evidence")
    return { entries with hashes, common := (key, entry) :: entries.common }

/-- The loop of `parse_amd_collateral_entries`. -/
def parseAmdCollateralEntries : List (VendorCollateral L.Value) → CollateralEntries → Except ReportError CollateralEntries
  | [], entries => .ok entries
  | row :: rows, entries => do
    let entry ← L.parseAmdEntry row entries.hashes
    parseAmdCollateralEntries rows (← L.addEntry entries entry)

def checkInterval (label : String) (certificate : X509Certificate) (interval : Validity) : Except ReportError Unit :=
  rejectIf (interval.notBeforeUnixMs < certificate.notBefore * 1000 ∨ certificate.notAfter * 1000 < interval.notAfterUnixMs)
    (.node s!"AMD {label} is not valid for the complete bundle interval")

def verifyAmdCertificates (arkDer askDer vekDer : Bytes) (chipId reportedTcb : String) (interval : Validity) :
    Except ReportError Unit := do
  let ark ← (L.parseX509Certificate arkDer).mapError fun error => .node s!"AMD ARK: {error}"
  let ask ← (L.parseX509Certificate askDer).mapError fun error => .node s!"AMD ASK: {error}"
  let vek ← (L.parseX509Certificate vekDer).mapError fun error => .node s!"AMD VEK: {error}"
  rejectIf (ark.remaining ≠ [] ∨ ask.remaining ≠ [] ∨ vek.remaining ≠ [])
    (.node "AMD certificate collateral contains trailing data")
  checkInterval "ARK" ark interval
  checkInterval "ASK" ask interval
  checkInterval "VEK" vek interval
  let product ← validateVcekExtensions vek chipId reportedTcb
  rejectIf (hexEncode (L.sha384 ark.publicKey) ≠ product.rootSpkiSha384 ∨ ark.subject ≠ ark.issuer ∨
      ask.issuer ≠ ark.subject ∨ vek.issuer ≠ ask.subject)
    (.node "AMD certificate identity chain differs")
  let chain ← (L.sevChainFromDer arkDer askDer vekDer).mapError fun error => .node s!"AMD chain: {error}"
  (L.sevChainVerify chain).mapError fun error => .node s!"AMD chain signature: {error}"

def certificatesValidity (validity : Validity) : List Bytes → Except Error Validity
  | [] => .ok validity
  | der :: ders => do
    let certificate ← (L.parseX509Certificate der).mapError .collateral
    rejectIf (certificate.remaining ≠ []) (.collateral "certificate trailing bytes")
    let notBeforeUnixMs ← required (Approvals.checkedThousand certificate.notBefore) (.collateral "certificate date overflow")
    let notAfterUnixMs ← required (Approvals.checkedThousand certificate.notAfter) (.collateral "certificate date overflow")
    certificatesValidity (validity.intersect ⟨notBeforeUnixMs, notAfterUnixMs⟩) ders

def verifyPlatform (ark ask vek : AmdCollateralEntry) (digest : String) : Except Error Platform := do
  let validity ← L.certificatesValidity ⟨-2 ^ 63, 2 ^ 63 - 1⟩ [ark.der, ask.der, vek.der]
  let _ ← validity.at_ validity.notBeforeUnixMs
  let chipId ← required vek.chipId .missingCollateral
  let reportedTcb ← required vek.reportedTcb .missingCollateral
  (L.verifyAmdCertificates ark.der ask.der vek.der chipId reportedTcb validity).mapError collateralError
  let root ← (L.parseX509Certificate ark.der).mapError .collateral
  let issuer ← (L.parseX509Certificate ask.der).mapError .collateral
  return { digest, issuer := hexEncode (L.sha384 root.publicKey), askSerial := serialBytes issuer.rawSerial,
           certificates := validity, vcek := vek.der }

end Libraries

namespace Store
variable (L : Libraries)

def commonEntry (entries : CollateralEntries) (vek : AmdCollateralEntry) (kind : String) : Except Error AmdCollateralEntry :=
  required (entries.common.lookup (vek.caProductName, kind)) .missingCollateral

/-- The loop of `Store::verify` over the platforms: the digests that are used, and the
platforms so far. A platform with the same certificates is taken from the prior store. -/
def verifyPlatforms (entries : CollateralEntries) (prior : Option Store) :
    List (String × AmdCollateralEntry) → List String × Store → Except Error (List String × Store)
  | [], done => .ok done
  | (id, vek) :: rest, (used, platforms) => do
    let ark ← commonEntry entries vek "ark"
    let ask ← commonEntry entries vek "ask"
    let crl ← commonEntry entries vek "crl"
    let digest := ark.sha256 ++ ask.sha256 ++ vek.sha256
    let cached := (prior.bind fun store => store[id]?).filter fun entry => entry.digest = digest
    let platform ← match cached with
      | some platform => pure platform
      | none => L.verifyPlatform ark ask vek digest
    verifyPlatforms entries prior rest ([ark.sha256, ask.sha256, crl.sha256] ++ used, platforms.insert id platform)

def verify (rows : List L.Value) (prior : Option Store) : Except Error Store := do
  rejectIf (maxVendorCollateral < rows.length) .tooLarge
  let expanded ← (L.expandBundleVendorCollateral rows).mapError collateralError
  let entries ← (L.parseAmdCollateralEntries expanded {}).mapError collateralError
  let (used, platforms) ← verifyPlatforms L entries prior entries.vceks.toList ([], ∅)
  rejectIf (used.dedup.length ≠ entries.common.length) (.collateral "unused product collateral")
  return platforms

end Store
end StogasVerifier.Evidence
