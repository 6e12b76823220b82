import StogasVerifier.Proofs.HexText
import StogasVerifier.Proofs.ReleaseCache

/-! Platforms that are taken from the prior store (`Store::verify` of `evidence/amd.rs`).
The digests of a platform decide about its certificates, and its name about the identity
that they were checked for, but for the white space that the name drops. -/

namespace StogasVerifier.Evidence
open Lib Std
open Sigstore (Bytes hexEncode isWhitespace)

/-! ## Names of platforms -/

theorem hexDecode_digits {text : String} {bytes : Bytes} (decoded : hexDecode text = some bytes) :
    ∀ char ∈ text.toList, (hexValue char).isSome := by
  rw [hexDecode] at decoded
  generalize text.toList = chars at decoded
  induction chars using hexDecode.decodePairs.induct generalizing bytes with
  | case1 => simp
  | case2 => cases decoded
  | case3 high low rest hypothesis =>
    simp only [hexDecode.decodePairs, Option.bind_eq_bind, Option.bind_eq_some_iff] at decoded
    obtain ⟨first, firstDigit, second, secondDigit, others, rest, -⟩ := decoded
    intro char member
    rcases List.mem_cons.mp member with rfl | member
    · rw [firstDigit, Option.isSome_some]
    rcases List.mem_cons.mp member with rfl | member
    · rw [secondDigit, Option.isSome_some]
    · exact hypothesis rest char member

theorem hexValue_visible {char : Char} (digit : (hexValue char).isSome) : isWhitespace char = false := by
  have ranges : (48 ≤ char.toNat ∧ char.toNat ≤ 57) ∨ (97 ≤ char.toNat ∧ char.toNat ≤ 102) ∨ 65 ≤ char.toNat ∧ char.toNat ≤ 70 := by
    unfold hexValue at digit
    split at digit
    next digits => exact .inl digits
    split at digit
    next letters => exact .inr (.inl letters)
    split at digit
    next letters => exact .inr (.inr letters)
    next => cases digit
  simp only [isWhitespace, Bool.or_eq_false_iff, decide_eq_false_iff_not, List.contains_eq_mem, List.mem_cons, List.not_mem_nil, or_false]
  omega

theorem trim_visible {text : String} (visible : ∀ char ∈ text.toList, isWhitespace char = false) : trim text = text := by
  have kept : ∀ chars : List Char, (∀ char ∈ chars, isWhitespace char = false) → chars.dropWhile isWhitespace = chars := by
    intro chars visible
    cases chars with
    | nil => rfl
    | cons char chars => exact List.dropWhile_cons_of_neg (by simp [visible char List.mem_cons_self])
  rw [trim, kept _ visible, kept _ fun char member => visible char (List.mem_reverse.mp member), List.reverse_reverse, String.ofList_toList]

theorem trim_space (text : String) : trim (" " ++ text) = trim text := by
  have space : " ".toList = [' '] := rfl
  rw [trim, trim, String.toList_append, space, List.cons_append, List.nil_append, List.dropWhile_cons_of_pos (by decide)]

theorem trim_hex {text : String} {bytes : Bytes} (decoded : hexDecode text = some bytes) : trim text = text :=
  trim_visible fun char member => hexValue_visible (hexDecode_digits decoded char member)

/-- What is assumed of Unicode lower case: texts that it makes equal are hexadecimal for the
same bytes or not at all, and it makes no colon of hexadecimal digits. -/
structure LowercaseLaws (toLowercase : String → String) : Prop where
  hex : ∀ text other, toLowercase text = toLowercase other → hexDecode text = hexDecode other
  colon : ∀ text bytes, hexDecode text = some bytes → ':' ∉ (toLowercase text).toList

/-- A name of a platform gives its identity back, if that was hexadecimal. -/
theorem amdPlatformKey_decodes {toLowercase : String → String} (lower : LowercaseLaws toLowercase) {chip tcb chip' tcb' : String}
    {chipBytes tcbBytes : Bytes} (chipDecoded : hexDecode chip' = some chipBytes) (tcbDecoded : hexDecode tcb' = some tcbBytes)
    (same : amdPlatformKey toLowercase chip tcb = amdPlatformKey toLowercase chip' tcb') :
    hexDecode (trim chip) = some chipBytes ∧ hexDecode (trim tcb) = some tcbBytes := by
  have colon : ":".toList = [':'] := rfl
  rw [amdPlatformKey, amdPlatformKey, trim_hex chipDecoded, trim_hex tcbDecoded] at same
  have chars := congrArg String.toList same
  simp only [String.toList_append, colon, List.append_assoc, List.cons_append, List.nil_append] at chars
  obtain ⟨chips, -, tcbs⟩ := (List.append_cons_inj_of_notMem (lower.colon _ _ chipDecoded) (lower.colon _ _ tcbDecoded)).mp chars.symm
  constructor
  · rw [lower.hex (trim chip) chip' (String.ext chips.symm), chipDecoded]
  · rw [lower.hex (trim tcb) tcb' (String.ext tcbs.symm), tcbDecoded]

section
variable {L : Libraries}

/-! ## The checks of one platform -/

theorem verifyAmdCertificates_decodes {ark ask vek : Bytes} {chip tcb : String} {interval : Validity}
    (verified : L.verifyAmdCertificates ark ask vek chip tcb interval = .ok ()) :
    ∃ chipBytes tcbBytes, hexDecode chip = some chipBytes ∧ hexDecode tcb = some tcbBytes := by
  simp only [Libraries.verifyAmdCertificates, bind_ok, mapError_ok, exists_unit] at verified
  obtain ⟨_, -, _, -, _, -, -, -, -, -, _, validated, -⟩ := verified
  simp only [validateVcekExtensions, bind_ok, required_ok, exists_unit] at validated
  obtain ⟨tcbBytes, tcbDecoded, -, _, -, _, -, _, -, _, -, _, -, _, -, -, -, chipBytes, chipDecoded, -⟩ := validated
  exact ⟨chipBytes, tcbBytes, chipDecoded, tcbDecoded⟩

theorem verifyAmdCertificates_congr {ark ask vek : Bytes} {chip tcb chip' tcb' : String} {interval : Validity}
    (chips : hexDecode chip = hexDecode chip') (tcbs : hexDecode tcb = hexDecode tcb') :
    L.verifyAmdCertificates ark ask vek chip tcb interval = L.verifyAmdCertificates ark ask vek chip' tcb' interval := by
  simp only [Libraries.verifyAmdCertificates, validateVcekExtensions, chips, tcbs]

/-- A platform of three certificates, and the identity that they were checked for. -/
structure Certifies (L : Libraries) (ark ask vek : Bytes) (chip tcb : String) (platform : Platform) : Prop where
  interval : L.certificatesValidity ⟨-2 ^ 63, 2 ^ 63 - 1⟩ [ark, ask, vek] = .ok platform.certificates
  started : platform.certificates.at_ platform.certificates.notBeforeUnixMs = .ok platform.certificates
  chain : L.verifyAmdCertificates ark ask vek chip tcb platform.certificates = .ok ()
  issuer : ∃ root, L.parseX509Certificate ark = .ok root ∧ platform.issuer = hexEncode (L.sha384 root.publicKey)
  askSerial : ∃ issuer, L.parseX509Certificate ask = .ok issuer ∧ platform.askSerial = serialBytes issuer.rawSerial
  vcek : platform.vcek = vek

theorem at_same {validity other : Validity} {now : Int} (valid : validity.at_ now = .ok other) : validity = other := by
  unfold Validity.at_ at valid
  split at valid
  · cases valid
  · exact Except.ok.inj valid

variable {ark ask vek : AmdCollateralEntry} {platform : Platform}

theorem verifyPlatform_ok {digest : String} :
    L.verifyPlatform ark ask vek digest = .ok platform ↔ platform.digest = digest ∧
      ∃ chip tcb, vek.chipId = some chip ∧ vek.reportedTcb = some tcb ∧ Certifies L ark.der ask.der vek.der chip tcb platform := by
  simp only [Libraries.verifyPlatform, bind_ok, mapError_ok, required_ok, pure_ok, exists_unit]
  constructor
  · intro ok
    obtain ⟨validity, interval, other, started, chip, chipId, tcb, reportedTcb, chain, root, rootParsed, issuer, issuerParsed, rfl⟩ := ok
    cases at_same started
    exact ⟨rfl, chip, tcb, chipId, reportedTcb, interval, started, chain, ⟨root, rootParsed, rfl⟩, ⟨issuer, issuerParsed, rfl⟩, rfl⟩
  · intro ok
    obtain ⟨rfl, chip, tcb, chipId, reportedTcb, interval, started, chain, ⟨root, rootParsed, known⟩, ⟨issuer, issuerParsed, serial⟩, vcek⟩ := ok
    refine ⟨_, interval, _, started, chip, chipId, tcb, reportedTcb, chain, root, rootParsed, issuer, issuerParsed, ?_⟩
    rw [← known, ← serial, ← vcek]

theorem Certifies.unique {ark ask vek : Bytes} {chip tcb chip' tcb' : String} {other : Platform}
    (first : Certifies L ark ask vek chip tcb platform) (second : Certifies L ark ask vek chip' tcb' other)
    (digests : platform.digest = other.digest) : platform = other := by
  obtain ⟨root, rootParsed, issuer⟩ := first.issuer
  obtain ⟨root', rootParsed', issuer'⟩ := second.issuer
  obtain ⟨signer, signerParsed, serial⟩ := first.askSerial
  obtain ⟨signer', signerParsed', serial'⟩ := second.askSerial
  cases Except.ok.inj (rootParsed.symm.trans rootParsed')
  cases Except.ok.inj (signerParsed.symm.trans signerParsed')
  have certificates := Except.ok.inj (first.interval.symm.trans second.interval)
  have vcek := first.vcek.trans second.vcek.symm
  cases platform
  cases other
  simp_all

/-! ## The rows -/

def Libraries.Reads (L : Libraries) (row : L.Value) (entry : AmdCollateralEntry) : Prop :=
  ∃ payload, L.readAmdKds row = .ok payload ∧ L.urlSafeDecode payload.derBase64url = .ok entry.der ∧
    entry.sha256 = hexEncode (L.sha256 entry.der).toList ∧ entry.collateralType = payload.collateralType ∧
    entry.chipId = payload.chipId ∧ entry.reportedTcb = payload.reportedTcb.map L.toLowercase

def Libraries.Delivers (L : Libraries) (rows : List L.Value) (der : Bytes) : Prop :=
  ∃ row ∈ rows, ∃ payload, L.readAmdKds row = .ok payload ∧ L.urlSafeDecode payload.derBase64url = .ok der

variable {entry : AmdCollateralEntry}

theorem parseAmdEntry_reads {row hashes} (parsed : L.parseAmdEntry row hashes = .ok entry) : L.Reads row.payload entry := by
  simp only [Libraries.parseAmdEntry, bind_ok, mapError_ok, rejectIf_ok, pure_ok, exists_unit, not_or, not_not] at parsed
  obtain ⟨payload, read, ⟨-, -, kind, -, -, -, chip⟩, -, -, der, decoded, ⟨digest, -⟩, rfl⟩ := parsed
  exact ⟨payload, read, decoded, digest.symm, kind.symm, chip.symm, rfl⟩

variable {rows : List L.Value} {expanded : List (VendorCollateral L.Value)}

theorem expand_payloads (ok : L.expandBundleVendorCollateral rows = .ok expanded) : expanded.map VendorCollateral.payload = rows := by
  induction rows generalizing expanded with
  | nil =>
    cases ok
    rfl
  | cons row rows hypothesis =>
    simp only [Libraries.expandBundleVendorCollateral, bind_ok, pure_ok] at ok
    obtain ⟨_, -, rest, expandedRest, rfl⟩ := ok
    rw [List.map_cons, hypothesis expandedRest]

structure CollateralEntries.From (L : Libraries) (rows : List L.Value) (entries : CollateralEntries) : Prop where
  common : ∀ key entry, (key, entry) ∈ entries.common → ∃ row ∈ rows, L.Reads row entry
  vceks : ∀ (id : String) entry, entries.vceks[id]? = some entry → ∃ row ∈ rows, L.Reads row entry ∧ entry.collateralType = "vcek" ∧
    ∃ chip tcb, entry.chipId = some chip ∧ entry.reportedTcb = some tcb ∧ amdPlatformKey L.toLowercase chip tcb = id

variable {entries : CollateralEntries}

theorem addEntry_ok {after} (added : L.addEntry entries entry = .ok after) :
    (entry.collateralType = "vcek" ∧ after.common = entries.common ∧
      ∃ chip tcb, entry.chipId = some chip ∧ entry.reportedTcb = some tcb ∧
        entries.vceks[amdPlatformKey L.toLowercase chip tcb]? = none ∧
        after.vceks = entries.vceks.insert (amdPlatformKey L.toLowercase chip tcb) entry) ∨
    entry.collateralType ≠ "vcek" ∧ after.vceks = entries.vceks ∧
      after.common = ((entry.caProductName, entry.collateralType), entry) :: entries.common := by
  unfold Libraries.addEntry at added
  dsimp only at added
  split at added
  next vcek =>
    simp only [bind_ok, required_ok, rejectIf_ok, pure_ok, exists_unit] at added
    obtain ⟨chip, chipId, tcb, reportedTcb, absent, rfl⟩ := added
    refine .inl ⟨vcek, rfl, chip, tcb, chipId, reportedTcb, ?_, rfl⟩
    rw [TreeMap.getElem?_eq_none]
    rwa [← TreeMap.contains_iff_mem]
  next other =>
    simp only [bind_ok, rejectIf_ok, pure_ok, exists_unit] at added
    obtain ⟨-, -, rfl⟩ := added
    exact .inr ⟨other, rfl, rfl⟩

theorem CollateralEntries.From.addEntry {after} (known : entries.From L rows)
    {row : L.Value} (member : row ∈ rows) (reads : L.Reads row entry)
    (added : L.addEntry entries entry = .ok after) : after.From L rows := by
  rcases addEntry_ok added with ⟨vcek, common, chip, tcb, chipId, reportedTcb, -, vceks⟩ | ⟨-, vceks, common⟩
  · refine ⟨by rw [common]; exact known.common, ?_⟩
    intro id other found
    rw [vceks, lookup_insert] at found
    split at found
    next same =>
      cases found
      exact ⟨row, member, reads, vcek, chip, tcb, chipId, reportedTcb, same⟩
    next => exact known.vceks id other found
  · refine ⟨?_, by rw [vceks]; exact known.vceks⟩
    intro key other found
    rw [common] at found
    rcases List.mem_cons.mp found with same | found
    · cases same
      exact ⟨row, member, reads⟩
    · exact known.common key other found

theorem parse_from {result} (members : ∀ row ∈ expanded, row.payload ∈ rows) (known : entries.From L rows)
    (parsed : L.parseAmdCollateralEntries expanded entries = .ok result) : result.From L rows := by
  induction expanded generalizing entries with
  | nil =>
    cases parsed
    exact known
  | cons row expanded hypothesis =>
    simp only [Libraries.parseAmdCollateralEntries, bind_ok] at parsed
    obtain ⟨entry, entryParsed, after, added, rest⟩ := parsed
    exact hypothesis (fun other later => members other (List.mem_cons_of_mem _ later))
      (known.addEntry (members row List.mem_cons_self) (parseAmdEntry_reads entryParsed) added) rest

theorem parse_keeps {result} (parsed : L.parseAmdCollateralEntries expanded entries = .ok result) {id : String}
    (found : entries.vceks[id]? = some entry) : result.vceks[id]? = some entry := by
  induction expanded generalizing entries with
  | nil =>
    cases parsed
    exact found
  | cons row expanded hypothesis =>
    simp only [Libraries.parseAmdCollateralEntries, bind_ok] at parsed
    obtain ⟨other, -, after, added, rest⟩ := parsed
    apply hypothesis rest
    rcases addEntry_ok added with ⟨-, -, chip, tcb, -, -, absent, vceks⟩ | ⟨-, vceks, -⟩
    · rw [vceks, lookup_insert, if_neg]
      · exact found
      · rintro rfl
        rw [absent] at found
        cases found
    · rw [vceks]
      exact found

theorem parse_complete {result} (parsed : L.parseAmdCollateralEntries expanded entries = .ok result) {row} (member : row ∈ expanded)
    {payload} (read : L.readAmdKds row.payload = .ok payload) (vcek : payload.collateralType = "vcek") :
    ∃ (id : String) (entry : AmdCollateralEntry), result.vceks[id]? = some entry ∧ entry.chipId = payload.chipId ∧
      entry.reportedTcb = payload.reportedTcb.map L.toLowercase := by
  induction expanded generalizing entries with
  | nil => cases member
  | cons other expanded hypothesis =>
    simp only [Libraries.parseAmdCollateralEntries, bind_ok] at parsed
    obtain ⟨entry, entryParsed, after, added, rest⟩ := parsed
    rcases List.mem_cons.mp member with rfl | member
    · obtain ⟨payload', read', -, -, kind, chipId, reportedTcb⟩ := parseAmdEntry_reads entryParsed
      cases Except.ok.inj (read.symm.trans read')
      rcases addEntry_ok added with ⟨-, -, chip, tcb, -, -, -, vceks⟩ | ⟨other, -⟩
      · refine ⟨amdPlatformKey L.toLowercase chip tcb, entry, parse_keeps rest ?_, chipId, reportedTcb⟩
        rw [vceks, lookup_insert, if_pos rfl]
      · exact absurd (kind.trans vcek) other
    · exact hypothesis rest member

theorem entries_from
    (ok : L.expandBundleVendorCollateral rows = .ok expanded) (parsed : L.parseAmdCollateralEntries expanded {} = .ok entries) :
    entries.From L rows := by
  refine parse_from (fun row member => ?_) ⟨fun key entry found => absurd found List.not_mem_nil, fun id entry found => ?_⟩ parsed
  · rw [← expand_payloads ok]
    exact List.mem_map_of_mem member
  · rw [TreeMap.getElem?_emptyc] at found
    cases found

/-! ## The platforms of a store -/

structure Platform.Source (L : Libraries) (rows : List L.Value) (id : String) (platform : Platform) (ark ask vek : AmdCollateralEntry) :
    Prop where
  delivered : ∀ entry ∈ [ark, ask, vek], ∃ row ∈ rows, L.Reads row entry
  named : ∃ chip tcb, vek.chipId = some chip ∧ vek.reportedTcb = some tcb ∧ amdPlatformKey L.toLowercase chip tcb = id
  digest : platform.digest = ark.sha256 ++ ask.sha256 ++ vek.sha256
  verified : L.verifyPlatform ark ask vek platform.digest = .ok platform

def Store.Sourced (L : Libraries) (rows : List L.Value) (store : Store) : Prop :=
  ∀ (id : String) platform, store[id]? = some platform → ∃ ark ask vek, platform.Source L rows id ark ask vek

theorem Store.Sourced.mono {more} {store : Store} (sourced : store.Sourced L rows) (subset : rows ⊆ more) :
    store.Sourced L more := by
  intro id platform found
  obtain ⟨ark, ask, vek, delivered, named, digest, verified⟩ := sourced id platform found
  refine ⟨ark, ask, vek, fun entry member => ?_, named, digest, verified⟩
  obtain ⟨row, known, reads⟩ := delivered entry member
  exact ⟨row, subset known, reads⟩

/-- A platform certificate of some rows, with the certificates and the list of its product. -/
structure Offer where
  id : String
  ark : AmdCollateralEntry
  ask : AmdCollateralEntry
  crl : AmdCollateralEntry
  vek : AmdCollateralEntry

def Offer.digest (offer : Offer) : String := offer.ark.sha256 ++ offer.ask.sha256 ++ offer.vek.sha256

def Offer.used (used : List String) (offer : Offer) : List String :=
  [offer.ark.sha256, offer.ask.sha256, offer.crl.sha256] ++ used

def CollateralEntries.offer (entries : CollateralEntries) (pair : String × AmdCollateralEntry) : Except Error Offer := do
  let ark ← Store.commonEntry entries pair.2 "ark"
  let ask ← Store.commonEntry entries pair.2 "ask"
  let crl ← Store.commonEntry entries pair.2 "crl"
  return { id := pair.1, ark, ask, crl, vek := pair.2 }

def Libraries.offers (L : Libraries) (rows : List L.Value) : Except Error (List Offer) := do
  rejectIf (maxVendorCollateral < rows.length) .tooLarge
  let expanded ← (L.expandBundleVendorCollateral rows).mapError collateralError
  let entries ← (L.parseAmdCollateralEntries expanded {}).mapError collateralError
  let offers ← entries.vceks.toList.mapM entries.offer
  rejectIf ((offers.foldl Offer.used []).dedup.length ≠ entries.common.length) (.collateral "unused product collateral")
  return offers

def Offer.cached (offer : Offer) (prior : Option Store) : Option Platform :=
  (prior.bind fun store => store[offer.id]?).filter fun entry => entry.digest = offer.digest

def Offer.Verifies (L : Libraries) (offer : Offer) (platform : Platform) : Prop :=
  L.verifyPlatform offer.ark offer.ask offer.vek offer.digest = .ok platform

def Offer.Chosen (L : Libraries) (prior : Option Store) (offer : Offer) (platform : Platform) : Prop :=
  offer.cached prior = some platform ∨ offer.cached prior = none ∧ offer.Verifies L platform

def Store.collect (store : Store) (chosen : List (Offer × Platform)) : Store :=
  chosen.foldl (fun store pair => store.insert pair.1.id pair.2) store

theorem CollateralEntries.offer_ok {pair : String × AmdCollateralEntry} {offer : Offer} :
    entries.offer pair = .ok offer ↔ (offer.id, offer.vek) = pair ∧
      Store.commonEntry entries offer.vek "ark" = .ok offer.ark ∧ Store.commonEntry entries offer.vek "ask" = .ok offer.ask ∧
      Store.commonEntry entries offer.vek "crl" = .ok offer.crl := by
  simp only [CollateralEntries.offer, bind_ok, pure_ok]
  constructor
  · rintro ⟨ark, arkFound, ask, askFound, crl, crlFound, rfl⟩
    exact ⟨rfl, arkFound, askFound, crlFound⟩
  · rintro ⟨rfl, arkFound, askFound, crlFound⟩
    exact ⟨_, arkFound, _, askFound, _, crlFound, rfl⟩

/-- One turn of the loop of `Store::verify`. -/
theorem Store.verifyPlatforms_cons {prior pair rest used} {platforms : Store} {result} :
    Store.verifyPlatforms L entries prior (pair :: rest) (used, platforms) = .ok result ↔
      ∃ offer platform, entries.offer pair = .ok offer ∧ offer.Chosen L prior platform ∧
        Store.verifyPlatforms L entries prior rest (offer.used used, platforms.insert offer.id platform) = .ok result := by
  obtain ⟨id, vek⟩ := pair
  simp only [Store.verifyPlatforms, bind_ok]
  constructor
  · rintro ⟨ark, arkFound, ask, askFound, crl, crlFound, chosen⟩
    have found : entries.offer (id, vek) = .ok ⟨id, ark, ask, crl, vek⟩ :=
      CollateralEntries.offer_ok.mpr ⟨rfl, arkFound, askFound, crlFound⟩
    split at chosen
    next platform reused => exact ⟨_, platform, found, .inl reused, chosen⟩
    next absent =>
      obtain ⟨platform, verified, rest⟩ := bind_ok.mp chosen
      exact ⟨_, platform, found, .inr ⟨absent, verified⟩, rest⟩
  · rintro ⟨offer, platform, found, chosen, rest⟩
    obtain ⟨same, arkFound, askFound, crlFound⟩ := CollateralEntries.offer_ok.mp found
    cases same
    refine ⟨_, arkFound, _, askFound, _, crlFound, ?_⟩
    rcases chosen with reused | ⟨absent, verified⟩
    · unfold Offer.cached Offer.digest at reused
      rw [reused]
      exact rest
    · unfold Offer.cached Offer.digest at absent
      rw [absent]
      exact bind_ok.mpr ⟨platform, verified, rest⟩

theorem verifyPlatforms_ok {prior veks used} {platforms : Store} {result} :
    Store.verifyPlatforms L entries prior veks (used, platforms) = .ok result ↔
      ∃ chosen, veks.mapM entries.offer = .ok (chosen.map Prod.fst) ∧ (∀ pair ∈ chosen, pair.1.Chosen L prior pair.2) ∧
        result = ((chosen.map Prod.fst).foldl Offer.used used, platforms.collect chosen) := by
  induction veks generalizing used platforms with
  | nil =>
    simp only [Store.verifyPlatforms, List.mapM_nil, pure_ok, Except.ok.injEq]
    constructor
    · rintro rfl
      exact ⟨[], rfl, by simp, rfl⟩
    · rintro ⟨chosen, listed, -, rfl⟩
      rw [List.map_eq_nil_iff.mp listed.symm]
      rfl
  | cons pair veks hypothesis =>
    simp only [Store.verifyPlatforms_cons, hypothesis, List.mapM_cons, bind_ok, pure_ok]
    constructor
    · rintro ⟨offer, platform, found, taken, chosen, listed, each, rfl⟩
      exact ⟨(offer, platform) :: chosen, ⟨offer, found, _, listed, rfl⟩, List.forall_mem_cons.mpr ⟨taken, each⟩, rfl⟩
    · rintro ⟨chosen, ⟨offer, found, offers, listed, same⟩, each, rfl⟩
      obtain ⟨⟨_, platform⟩, chosen, rfl, rfl, rfl⟩ := List.map_eq_cons_iff.mp same.symm
      obtain ⟨taken, each⟩ := List.forall_mem_cons.mp each
      exact ⟨_, platform, found, taken, chosen, listed, each, rfl⟩

/-- The rows decide which platforms there are, and the prior store where each comes from. -/
theorem verify_ok {prior} {store : Store} : Store.verify L rows prior = .ok store ↔
    ∃ chosen, L.offers rows = .ok (chosen.map Prod.fst) ∧ (∀ pair ∈ chosen, pair.1.Chosen L prior pair.2) ∧
      store = Store.collect ∅ chosen := by
  simp only [Store.verify, Libraries.offers, bind_ok, mapError_ok, rejectIf_ok, pure_ok, exists_unit, verifyPlatforms_ok]
  constructor
  · rintro ⟨few, expanded, expands, entries, parsed, _, ⟨chosen, listed, each, rfl⟩, all, rfl⟩
    exact ⟨chosen, ⟨few, expanded, expands, entries, parsed, _, listed, all, rfl⟩, each, rfl⟩
  · rintro ⟨chosen, ⟨few, expanded, expands, entries, parsed, _, listed, all, rfl⟩, each, rfl⟩
    exact ⟨few, expanded, expands, entries, parsed, _, ⟨chosen, listed, each, rfl⟩, all, rfl⟩

theorem commonEntry_reads (known : entries.From L rows)
    {kind : String} (found : Store.commonEntry entries vek kind = .ok entry) : ∃ row ∈ rows, L.Reads row entry := by
  obtain ⟨before, after, listed, -⟩ := List.lookup_eq_some_iff.mp (required_ok.mp found)
  refine known.common (vek.caProductName, kind) entry ?_
  rw [listed]
  exact List.mem_append_right _ List.mem_cons_self

theorem offers_ok {offers : List Offer} (listed : L.offers rows = .ok offers) :
    ∃ expanded entries, L.expandBundleVendorCollateral rows = .ok expanded ∧ L.parseAmdCollateralEntries expanded {} = .ok entries ∧
      entries.vceks.toList = offers.map (fun offer => (offer.id, offer.vek)) ∧
      ∀ offer ∈ offers, entries.offer (offer.id, offer.vek) = .ok offer := by
  simp only [Libraries.offers, bind_ok, mapError_ok, rejectIf_ok, pure_ok, exists_unit, mapM_ok] at listed
  obtain ⟨-, expanded, expands, entries, parsed, _, each, -, rfl⟩ := listed
  refine ⟨expanded, entries, expands, parsed, ?_⟩
  clear parsed
  generalize entries.vceks.toList = pairs at each ⊢
  induction each with
  | nil => simp
  | cons one _ ih =>
    obtain ⟨rfl, -⟩ := CollateralEntries.offer_ok.mp one
    rw [List.map_cons, ih.1, List.forall_mem_cons]
    exact ⟨rfl, one, ih.2⟩

theorem offers_reads {offers : List Offer} (listed : L.offers rows = .ok offers) {offer : Offer} (member : offer ∈ offers) :
    (∀ entry ∈ [offer.ark, offer.ask, offer.vek], ∃ row ∈ rows, L.Reads row entry) ∧
      ∃ chip tcb, offer.vek.chipId = some chip ∧ offer.vek.reportedTcb = some tcb ∧ amdPlatformKey L.toLowercase chip tcb = offer.id := by
  obtain ⟨expanded, entries, expands, parsed, vceks, each⟩ := offers_ok listed
  have known := entries_from expands parsed
  obtain ⟨-, arkFound, askFound, -⟩ := CollateralEntries.offer_ok.mp (each offer member)
  have found : (offer.id, offer.vek) ∈ entries.vceks.toList := vceks ▸ List.mem_map_of_mem member
  obtain ⟨row, delivered, reads, -, named⟩ := known.vceks _ _ (TreeMap.mem_toList_iff_getElem?_eq_some.mp found)
  refine ⟨?_, named⟩
  simp only [List.forall_mem_cons]
  exact ⟨commonEntry_reads known arkFound, commonEntry_reads known askFound, ⟨row, delivered, reads⟩, by simp⟩

theorem collect_mem {chosen : List (Offer × Platform)} {store : Store} {id : String}
    (found : (store.collect chosen)[id]? = some platform) :
    store[id]? = some platform ∨ ∃ pair ∈ chosen, pair.1.id = id ∧ pair.2 = platform := by
  induction chosen generalizing store with
  | nil => exact .inl found
  | cons pair chosen hypothesis =>
    rcases hypothesis found with earlier | ⟨other, member, same⟩
    · rw [lookup_insert] at earlier
      split at earlier
      next same => exact .inr ⟨pair, List.mem_cons_self, same, Option.some.inj earlier⟩
      next => exact .inl earlier
    · exact .inr ⟨other, List.mem_cons_of_mem _ member, same⟩

theorem verify_sourced {more} (subset : rows ⊆ more) {prior}
    (before : ∀ store, prior = some store → store.Sourced L more) {store : Store} (ok : Store.verify L rows prior = .ok store) :
    store.Sourced L more := by
  obtain ⟨chosen, listed, each, rfl⟩ := verify_ok.mp ok
  intro id platform found
  rcases collect_mem found with absent | ⟨⟨offer, _⟩, member, rfl, rfl⟩
  · rw [TreeMap.getElem?_emptyc] at absent
    cases absent
  rcases each _ member with reused | ⟨-, verified⟩
  · obtain ⟨held, -⟩ := Option.filter_eq_some_iff.mp reused
    obtain ⟨store, rfl, held⟩ := Option.bind_eq_some_iff.mp held
    exact before store rfl _ _ held
  · obtain ⟨delivered, named⟩ := offers_reads listed (List.mem_map_of_mem member)
    have digest := (verifyPlatform_ok.mp verified).1
    refine ⟨offer.ark, offer.ask, offer.vek, fun entry listed => ?_, named, digest, by rw [digest]; exact verified⟩
    obtain ⟨row, known, reads⟩ := delivered entry listed
    exact ⟨row, subset known, reads⟩

inductive Store.Built (L : Libraries) : List L.Value → Store → Prop where
  | first {rows store} (verified : Store.verify L rows none = .ok store) : Built L rows store
  | next {earlier rows prior store} (built : Built L earlier prior) (verified : Store.verify L rows (some prior) = .ok store) :
      Built L (earlier ++ rows) store

theorem Store.Built.sourced {store : Store} (built : Store.Built L rows store) : store.Sourced L rows := by
  induction built with
  | first verified => exact verify_sourced (List.Subset.refl _) (fun _ absent => by cases absent) verified
  | @next earlier rows prior store _ verified hypothesis =>
    refine verify_sourced (List.subset_append_right earlier rows) (fun store same => ?_) verified
    cases same
    exact hypothesis.mono (List.subset_append_left earlier rows)

/-! ## With and without the prior store -/

def Libraries.Distinct (L : Libraries) (rows : List L.Value) : Prop := Set.InjOn L.sha256 {der | L.Delivers rows der}

theorem Libraries.Reads.delivers {row : L.Value} (reads : L.Reads row entry) (member : row ∈ rows) : L.Delivers rows entry.der := by
  obtain ⟨payload, read, decoded, -⟩ := reads
  exact ⟨row, member, payload, read, decoded⟩

theorem reads_der (distinct : L.Distinct rows) {other}
    (first : ∃ row ∈ rows, L.Reads row entry) (second : ∃ row ∈ rows, L.Reads row other) (same : entry.sha256 = other.sha256) :
    entry.der = other.der := by
  obtain ⟨row, member, reads⟩ := first
  obtain ⟨row', member', reads'⟩ := second
  apply distinct (reads.delivers member) (reads'.delivers member')
  obtain ⟨-, -, -, digest, -⟩ := reads
  obtain ⟨-, -, -, digest', -⟩ := reads'
  rw [digest, digest'] at same
  exact List.Vector.eq _ _ (hexEncode_injective same)

theorem reads_length (read : ∃ row ∈ rows, L.Reads row entry) :
    entry.sha256.toList.length = 64 := by
  obtain ⟨_, -, -, -, -, digest, -⟩ := read
  rw [digest, hexEncode_length, List.Vector.toList_length]

theorem Platform.Source.ders (distinct : L.Distinct rows) {id : String}
    {ark' ask' vek'} (source : platform.Source L rows id ark ask vek)
    (delivered : ∀ entry ∈ [ark', ask', vek'], ∃ row ∈ rows, L.Reads row entry)
    (same : platform.digest = ark'.sha256 ++ ask'.sha256 ++ vek'.sha256) : ark.der = ark'.der ∧ ask.der = ask'.der ∧ vek.der = vek'.der := by
  have known := source.delivered
  simp only [List.forall_mem_cons] at known delivered
  obtain ⟨arkRead, askRead, vekRead, -⟩ := known
  obtain ⟨arkRead', askRead', vekRead', -⟩ := delivered
  have chars := congrArg String.toList (source.digest.symm.trans same)
  simp only [String.toList_append, List.append_assoc] at chars
  obtain ⟨arks, chars⟩ := List.append_inj chars ((reads_length arkRead).trans (reads_length arkRead').symm)
  obtain ⟨asks, veks⟩ := List.append_inj chars ((reads_length askRead).trans (reads_length askRead').symm)
  exact ⟨reads_der distinct arkRead arkRead' (String.ext arks), reads_der distinct askRead askRead' (String.ext asks),
    reads_der distinct vekRead vekRead' (String.ext veks)⟩

def AmdCollateralEntry.Trimmed (entry : AmdCollateralEntry) : Prop :=
  (∀ chip, entry.chipId = some chip → trim chip = chip) ∧ ∀ tcb, entry.reportedTcb = some tcb → trim tcb = tcb

theorem verifyPlatform_trimmed {digest : String} (verified : L.verifyPlatform ark ask vek digest = .ok platform) : vek.Trimmed := by
  obtain ⟨-, chip, tcb, chipId, reportedTcb, certifies⟩ := verifyPlatform_ok.mp verified
  obtain ⟨_, _, chipDecoded, tcbDecoded⟩ := verifyAmdCertificates_decodes certifies.chain
  constructor
  · intro other known
    cases chipId.symm.trans known
    exact trim_hex chipDecoded
  · intro other known
    cases reportedTcb.symm.trans known
    exact trim_hex tcbDecoded

/-- A platform of the same certificates and name is what the check would return, if no white
space keeps it from reading the identity. -/
theorem reuse_iff (lower : LowercaseLaws L.toLowercase) (distinct : L.Distinct rows) {id : String}
    {result : Platform} {ark' ask' vek'} (source : platform.Source L rows id ark' ask' vek')
    (delivered : ∀ entry ∈ [ark, ask, vek], ∃ row ∈ rows, L.Reads row entry)
    (named : ∃ chip tcb, vek.chipId = some chip ∧ vek.reportedTcb = some tcb ∧ amdPlatformKey L.toLowercase chip tcb = id)
    (same : platform.digest = ark.sha256 ++ ask.sha256 ++ vek.sha256) :
    L.verifyPlatform ark ask vek (ark.sha256 ++ ask.sha256 ++ vek.sha256) = .ok result ↔ platform = result ∧ vek.Trimmed := by
  obtain ⟨arks, asks, veks⟩ := source.ders distinct delivered same
  obtain ⟨-, chip', tcb', chipId', reportedTcb', certifies⟩ := verifyPlatform_ok.mp source.verified
  rw [arks, asks, veks] at certifies
  constructor
  · intro verified
    refine ⟨?_, verifyPlatform_trimmed verified⟩
    obtain ⟨digest, _, _, -, -, again⟩ := verifyPlatform_ok.mp verified
    exact certifies.unique again (same.trans digest.symm)
  · intro reused
    obtain ⟨rfl, trimmed⟩ := reused
    obtain ⟨chip, tcb, chipId, reportedTcb, key⟩ := named
    obtain ⟨other, level, otherId, levelId, key'⟩ := source.named
    cases chipId'.symm.trans otherId
    cases reportedTcb'.symm.trans levelId
    obtain ⟨chipBytes, tcbBytes, chipDecoded, tcbDecoded⟩ := verifyAmdCertificates_decodes certifies.chain
    obtain ⟨chips, tcbs⟩ := amdPlatformKey_decodes lower chipDecoded tcbDecoded (key.trans key'.symm)
    rw [trimmed.1 chip chipId, ← chipDecoded] at chips
    rw [trimmed.2 tcb reportedTcb, ← tcbDecoded] at tcbs
    have chain := (verifyAmdCertificates_congr chips tcbs).trans certifies.chain
    exact verifyPlatform_ok.mpr ⟨same, chip, tcb, chipId, reportedTcb, { certifies with chain }⟩

def Libraries.Unpadded (L : Libraries) (rows : List L.Value) : Prop :=
  ∀ row ∈ rows, ∀ payload, L.readAmdKds row = .ok payload → payload.collateralType = "vcek" →
    (∀ chip, payload.chipId = some chip → trim chip = chip) ∧
    ∀ tcb, payload.reportedTcb = some tcb → trim (L.toLowercase tcb) = L.toLowercase tcb

theorem trimmed_iff
    (ok : L.expandBundleVendorCollateral rows = .ok expanded) (parsed : L.parseAmdCollateralEntries expanded {} = .ok entries) :
    (∀ pair ∈ entries.vceks.toList, pair.2.Trimmed) ↔ L.Unpadded rows := by
  constructor
  · intro trimmed row member payload read vcek
    rw [← expand_payloads ok] at member
    obtain ⟨row, listed, rfl⟩ := List.mem_map.mp member
    obtain ⟨id, entry, found, chipId, reportedTcb⟩ := parse_complete parsed listed read vcek
    obtain ⟨chips, tcbs⟩ := trimmed (id, entry) (TreeMap.mem_toList_iff_getElem?_eq_some.mpr found)
    refine ⟨fun chip known => chips chip (chipId.trans known), fun tcb known => tcbs _ ?_⟩
    rw [reportedTcb, known, Option.map_some]
  · intro unpadded pair member
    obtain ⟨row, listed, ⟨payload, read, -, -, kind, chipId, reportedTcb⟩, vcek, -⟩ :=
      (entries_from ok parsed).vceks pair.1 pair.2 (TreeMap.mem_toList_iff_getElem?_eq_some.mp member)
    obtain ⟨chips, tcbs⟩ := unpadded row listed payload read (kind.symm.trans vcek)
    refine ⟨fun chip known => chips chip (chipId.symm.trans known), fun tcb known => ?_⟩
    obtain ⟨tcb, level, rfl⟩ := Option.map_eq_some_iff.mp (reportedTcb.symm.trans known)
    exact tcbs tcb level

theorem offers_trimmed {offers : List Offer} (listed : L.offers rows = .ok offers) :
    (∀ offer ∈ offers, offer.vek.Trimmed) ↔ L.Unpadded rows := by
  obtain ⟨expanded, entries, expands, parsed, vceks, -⟩ := offers_ok listed
  rw [← trimmed_iff expands parsed, vceks, List.forall_mem_map]

section
variable (lower : LowercaseLaws L.toLowercase) {earlier : List L.Value} (distinct : L.Distinct (earlier ++ rows)) {prior : Store}
  (built : Store.Built L earlier prior)
include lower distinct built

theorem chosen_iff {offers : List Offer} (listed : L.offers rows = .ok offers) {offer : Offer} (member : offer ∈ offers) :
    offer.Chosen L none platform ↔ offer.Chosen L (some prior) platform ∧ offer.vek.Trimmed := by
  have fresh : offer.Chosen L none platform ↔ offer.Verifies L platform := by simp [Offer.Chosen, Offer.cached]
  rw [fresh, Offer.Chosen]
  cases reused : offer.cached (some prior) with
  | none =>
    have trimmed : offer.Verifies L platform → offer.vek.Trimmed := verifyPlatform_trimmed
    simpa using trimmed
  | some held =>
    obtain ⟨stored, digest⟩ := Option.filter_eq_some_iff.mp reused
    obtain ⟨ark, ask, vek, source⟩ := built.sourced.mono (List.subset_append_left earlier rows) _ held stored
    obtain ⟨delivered, named⟩ := offers_reads listed member
    have also : ∀ entry ∈ [offer.ark, offer.ask, offer.vek], ∃ row ∈ earlier ++ rows, L.Reads row entry := by
      intro entry here
      obtain ⟨row, known, reads⟩ := delivered entry here
      exact ⟨row, List.mem_append_right _ known, reads⟩
    have verifies : offer.Verifies L platform ↔ _ := reuse_iff lower distinct source also named (of_decide_eq_true digest)
    rw [verifies]
    simp

/-- Without the prior store the same store is verified, if no row is padded. -/
theorem verify_iff {store : Store} :
    Store.verify L rows none = .ok store ↔ Store.verify L rows (some prior) = .ok store ∧ L.Unpadded rows := by
  rw [verify_ok, verify_ok]
  constructor
  · rintro ⟨chosen, listed, each, rfl⟩
    have both := fun pair member => (chosen_iff lower distinct built listed (List.mem_map_of_mem member)).mp (each pair member)
    refine ⟨⟨chosen, listed, fun pair member => (both pair member).1, rfl⟩, (offers_trimmed listed).mp ?_⟩
    exact List.forall_mem_map.mpr fun pair member => (both pair member).2
  · rintro ⟨⟨chosen, listed, each, rfl⟩, unpadded⟩
    refine ⟨chosen, listed, fun pair member => ?_, rfl⟩
    have offered : pair.1 ∈ chosen.map Prod.fst := List.mem_map_of_mem member
    exact (chosen_iff lower distinct built listed offered).mpr
      ⟨each pair member, (offers_trimmed listed).mpr unpadded _ offered⟩

def Store.Agree (first second : Except Error Store) : Prop :=
  (∃ error other, first = .error error ∧ second = .error other) ∨ ∃ store, first = .ok store ∧ second = .ok store

/-- With and without the prior store the same is verified, unless a padded row is accepted with it. -/
theorem agree_iff : Store.Agree (Store.verify L rows (some prior)) (Store.verify L rows none) ↔
    ∀ store, Store.verify L rows (some prior) = .ok store → L.Unpadded rows := by
  constructor
  · intro agree store ok
    rcases agree with ⟨error, _, failed, -⟩ | ⟨other, -, fresh⟩
    · rw [failed] at ok
      cases ok
    · exact ((verify_iff lower distinct built).mp fresh).2
  · intro unpadded
    cases reused : Store.verify L rows (some prior) with
    | ok store =>
      exact .inr ⟨store, rfl, (verify_iff lower distinct built).mpr ⟨reused, unpadded store reused⟩⟩
    | error error =>
      refine .inl ⟨error, ?_⟩
      cases fresh : Store.verify L rows none with
      | error other => exact ⟨other, rfl, rfl⟩
      | ok store =>
        have accepted := ((verify_iff lower distinct built).mp fresh).1
        rw [reused] at accepted
        cases accepted

end

/-- The prior store hides white space of these rows: it holds every platform certificate that has
some, of which there is one, under its name and digest, and the others are verified. -/
structure Store.Masks (L : Libraries) (rows : List L.Value) (prior : Store) (offers : List Offer) : Prop where
  listed : L.offers rows = .ok offers
  padded : ∃ offer ∈ offers, ¬ offer.vek.Trimmed
  held : ∀ offer ∈ offers, ¬ offer.vek.Trimmed → ∃ platform, prior[offer.id]? = some platform ∧ platform.digest = offer.digest
  verified : ∀ offer ∈ offers, offer.vek.Trimmed → ∃ platform, offer.Verifies L platform

theorem Offer.cached_iff {offer : Offer} {prior : Store} :
    offer.cached (some prior) = some platform ↔ prior[offer.id]? = some platform ∧ platform.digest = offer.digest := by
  simp [Offer.cached, Option.filter_eq_some_iff]

theorem Store.Masks.chosen {prior : Store} {offers : List Offer} (masks : Store.Masks L rows prior offers) {offer : Offer}
    (member : offer ∈ offers) : ∃ platform, offer.Chosen L (some prior) platform := by
  cases reused : offer.cached (some prior) with
  | some platform => exact ⟨platform, .inl reused⟩
  | none =>
    by_cases trimmed : offer.vek.Trimmed
    · obtain ⟨platform, verified⟩ := masks.verified offer member trimmed
      exact ⟨platform, .inr ⟨reused, verified⟩⟩
    · obtain ⟨platform, held⟩ := masks.held offer member trimmed
      rw [Offer.cached_iff.mpr held] at reused
      cases reused

theorem exists_chosen {offers : List Offer} {prior : Option Store} (each : ∀ offer ∈ offers, ∃ platform, offer.Chosen L prior platform) :
    ∃ chosen : List (Offer × Platform), chosen.map Prod.fst = offers ∧ ∀ pair ∈ chosen, pair.1.Chosen L prior pair.2 := by
  induction offers with
  | nil => exact ⟨[], rfl, by simp⟩
  | cons offer offers hypothesis =>
    obtain ⟨⟨platform, taken⟩, rest⟩ := List.forall_mem_cons.mp each
    obtain ⟨chosen, rfl, taking⟩ := hypothesis rest
    exact ⟨(offer, platform) :: chosen, rfl, List.forall_mem_cons.mpr ⟨taken, taking⟩⟩

/-- A prior store changes nothing, unless it hides white space around the chip or TCB of a platform
certificate that a fresh verification rejects. -/
theorem collateral_cache_transparent (lower : LowercaseLaws L.toLowercase) {earlier rows : List L.Value} {prior : Store}
    (built : Store.Built L earlier prior) (distinct : L.Distinct (earlier ++ rows)) :
    Store.Agree (Store.verify L rows (some prior)) (Store.verify L rows none) ↔ ¬ ∃ offers, Store.Masks L rows prior offers := by
  rw [agree_iff lower distinct built, not_exists]
  constructor
  · intro unpadded offers masks
    obtain ⟨chosen, rfl, each⟩ := exists_chosen fun offer => masks.chosen
    obtain ⟨offer, member, padded⟩ := masks.padded
    have accepted := unpadded _ (verify_ok.mpr ⟨chosen, masks.listed, each, rfl⟩)
    exact padded ((offers_trimmed masks.listed).mpr accepted offer member)
  · intro unmasked store reused
    obtain ⟨chosen, listed, each, rfl⟩ := verify_ok.mp reused
    rw [← offers_trimmed listed]
    by_contra padded
    simp only [not_forall] at padded
    obtain ⟨offer, member, padded⟩ := padded
    refine unmasked _ ⟨listed, ⟨offer, member, padded⟩, List.forall_mem_map.mpr fun pair member padded => ?_,
      List.forall_mem_map.mpr fun pair member trimmed => ?_⟩
    · rcases each pair member with reused | ⟨-, verified⟩
      · exact ⟨pair.2, Offer.cached_iff.mp reused⟩
      · exact absurd (verifyPlatform_trimmed verified) padded
    · have fresh := (chosen_iff lower distinct built listed (List.mem_map_of_mem member)).mpr ⟨each pair member, trimmed⟩
      exact ⟨pair.2, fresh.elim (fun none => by cases none) fun verified => verified.2⟩

end

/-! ## A space before a chip -/

def paddedCollateral (row : Fin 32) : AmdKdsPayload :=
  if row.val = 9 then { labCollateral ⟨8, by decide⟩ with chipId := some (" " ++ zeros 128) } else labCollateral row

def paddedLibraries : Libraries := { labLibraries with readAmdKds := fun row => .ok (paddedCollateral row) }

def paddedRow (row : Fin 32) : VendorCollateral (Fin 32) where
  chipId := (paddedCollateral row).chipId
  collateralType := (paddedCollateral row).collateralType
  fetchedAt := (paddedCollateral row).fetchedAt
  payload := row
  sha256 := (paddedCollateral row).sha256
  sourceUrl := (paddedCollateral row).sourceUrl

def paddedEntry (chip : String) : AmdCollateralEntry := { labEntry ⟨8, by decide⟩ with chipId := some chip }

def labName : String := amdPlatformKey id (zeros 128) (zeros 16)

private structure PaddedEvaluation : Prop where
  ark : paddedLibraries.parseAmdEntry (paddedRow 5) [] = .ok (labEntry 5)
  ask : paddedLibraries.parseAmdEntry (paddedRow 6) [digestOf 1] = .ok (labEntry 6)
  crl : paddedLibraries.parseAmdEntry (paddedRow 7) [digestOf 2, digestOf 1] = .ok (labEntry 7)
  plain : paddedLibraries.parseAmdEntry (paddedRow 8) [digestOf 3, digestOf 2, digestOf 1] = .ok (paddedEntry (zeros 128))
  padded : paddedLibraries.parseAmdEntry (paddedRow 9) [digestOf 3, digestOf 2, digestOf 1] = .ok (paddedEntry (" " ++ zeros 128))
  kinds : ∀ row ∈ ([5, 6, 7, 8] : List (Fin 32)), (paddedCollateral row).collateralType = "vcek" → row = 8
  identity : (paddedCollateral 8).chipId = some (zeros 128) ∧ (paddedCollateral 8).reportedTcb = some (zeros 16)
  ders : ([5, 6, 7, 8, 9] : List (Fin 32)).all fun row =>
    match paddedLibraries.urlSafeDecode (paddedCollateral row).derBase64url with
    | .ok [_] => true
    | _ => false

private theorem padded_evaluation : PaddedEvaluation := by constructor <;> decide +kernel

section
variable (facts : PaddedEvaluation)
include facts

private theorem padded_entries {row : Fin 32} {chip : String}
    (parsed : paddedLibraries.parseAmdEntry (paddedRow row) [digestOf 3, digestOf 2, digestOf 1] = .ok (paddedEntry chip))
    (named : amdPlatformKey id chip (zeros 16) = labName) :
    ∃ entries, paddedLibraries.parseAmdCollateralEntries [paddedRow 5, paddedRow 6, paddedRow 7, paddedRow row] {} = .ok entries ∧
      entries.common = [(("Milan", "crl"), labEntry 7), (("Milan", "ask"), labEntry 6), (("Milan", "ark"), labEntry 5)] ∧
      entries.vceks.toList = [(labName, paddedEntry chip)] := by
  refine ⟨_, bind_ok.mpr ⟨_, facts.ark, bind_ok.mpr ⟨_, rfl, bind_ok.mpr ⟨_, facts.ask, bind_ok.mpr ⟨_, rfl, bind_ok.mpr ⟨_, facts.crl,
    bind_ok.mpr ⟨_, rfl, bind_ok.mpr ⟨_, parsed, bind_ok.mpr ⟨_, rfl, rfl⟩⟩⟩⟩⟩⟩⟩⟩, rfl, ?_⟩
  rw [← named]
  rfl

def paddedOffer (chip : String) : Offer :=
  ⟨labName, labEntry ⟨5, by decide⟩, labEntry ⟨6, by decide⟩, labEntry ⟨7, by decide⟩, paddedEntry chip⟩

def labStore : Store := (∅ : TreeMap String Platform compare).insert labName labPlatform

private theorem padded_verify {row : Fin 32} {chip : String} {prior}
    (parsed : paddedLibraries.parseAmdEntry (paddedRow row) [digestOf 3, digestOf 2, digestOf 1] = .ok (paddedEntry chip))
    (named : amdPlatformKey id chip (zeros 16) = labName) (chosen : (paddedOffer chip).Chosen paddedLibraries prior labPlatform) :
    Store.verify paddedLibraries ([5, 6, 7, row] : List (Fin 32)) prior = .ok labStore := by
  obtain ⟨entries, parsed, common, vceks⟩ := padded_entries facts parsed named
  refine verify_ok.mpr ⟨[(paddedOffer chip, labPlatform)], ?_, List.forall_mem_singleton.mpr chosen, rfl⟩
  simp only [Libraries.offers, bind_ok, rejectIf_ok, mapError_ok, mapM_ok, pure_ok, exists_unit]
  have few : ¬ maxVendorCollateral < 4 := by decide
  refine ⟨few, _, rfl, entries, parsed, [paddedOffer chip], ?_, ?_, rfl⟩
  · have found : ∀ kind row, List.lookup ("Milan", kind) entries.common = some (labEntry row) →
        Store.commonEntry entries (paddedEntry chip) kind = .ok (labEntry row) := fun _ _ => required_ok.mpr
    rw [vceks]
    refine .cons (CollateralEntries.offer_ok.mpr ⟨rfl, found _ _ ?_, found _ _ ?_, found _ _ ?_⟩) .nil
    all_goals rw [common]; decide
  · have used : [paddedOffer chip].foldl Offer.used [] = [digestOf 1, digestOf 2, digestOf 3] := rfl
    rw [common, used]
    decide

end

private theorem padded_name : amdPlatformKey id (" " ++ zeros 128) (zeros 16) = labName := by
  rw [labName, amdPlatformKey, amdPlatformKey, trim_space]

private theorem plain_verify : Store.verify paddedLibraries ([5, 6, 7, 8] : List (Fin 32)) none = .ok labStore :=
  padded_verify padded_evaluation padded_evaluation.plain rfl (.inr ⟨rfl, lab_verified⟩)

private theorem padded_reused {row : Fin 32} {chip : String}
    (parsed : paddedLibraries.parseAmdEntry (paddedRow row) [digestOf 3, digestOf 2, digestOf 1] = .ok (paddedEntry chip))
    (named : amdPlatformKey id chip (zeros 16) = labName) :
    Store.verify paddedLibraries ([5, 6, 7, row] : List (Fin 32)) (some labStore) = .ok labStore := by
  refine padded_verify padded_evaluation parsed named (.inl ?_)
  exact Offer.cached_iff.mpr ⟨by simp [labStore, paddedOffer], rfl⟩

private theorem padded_lower : LowercaseLaws paddedLibraries.toLowercase where
  hex _ _ same := congrArg hexDecode same
  colon _ _ decoded member := by
    have digit := hexDecode_digits decoded _ member
    cases digit

private theorem padded_distinct {rows : List (Fin 32)} (known : rows ⊆ [5, 6, 7, 8, 9]) : paddedLibraries.Distinct rows := by
  have single : ∀ der, paddedLibraries.Delivers rows der → ∃ byte, der = [byte] := by
    intro der delivered
    obtain ⟨row, member, payload, read, decoded⟩ := delivered
    cases read
    have alone := List.all_eq_true.mp padded_evaluation.ders row (known member)
    rw [decoded] at alone
    match der with
    | [] => cases alone
    | [byte] => exact ⟨byte, rfl⟩
    | _ :: _ :: _ => cases alone
  intro first firstDelivered second secondDelivered same
  obtain ⟨byte, rfl⟩ := single first firstDelivered
  obtain ⟨other, rfl⟩ := single second secondDelivered
  have bytes : List.replicate 32 byte = List.replicate 32 other := congrArg List.Vector.toList same
  rw [(List.replicate_inj.mp bytes).2.resolve_left (by decide)]

private theorem trim_zeros : trim (zeros 128) = zeros 128 := trim_hex (hexDecode_zeros 64)

private theorem plain_unpadded : paddedLibraries.Unpadded ([5, 6, 7, 8] : List (Fin 32)) := by
  intro row member payload read vcek
  cases read
  cases padded_evaluation.kinds row member vcek
  constructor
  · intro chip known
    rw [padded_evaluation.identity.1] at known
    rw [← Option.some.inj known, trim_zeros]
  · intro tcb known
    rw [padded_evaluation.identity.2] at known
    rw [← Option.some.inj known]
    exact trim_hex (hexDecode_zeros 8)

/-- After the rows of the sample the same platform certificate with a space before its chip is
accepted, which a verifier without them rejects. -/
theorem collateral_cache_padded :
    Store.Built paddedLibraries ([5, 6, 7, 8] : List (Fin 32)) labStore ∧
    Store.verify paddedLibraries ([5, 6, 7, 9] : List (Fin 32)) (some labStore) = .ok labStore ∧
    ∃ error, Store.verify paddedLibraries ([5, 6, 7, 9] : List (Fin 32)) none = .error error := by
  have built : Store.Built paddedLibraries ([5, 6, 7, 8] : List (Fin 32)) labStore := .first plain_verify
  refine ⟨built, padded_reused padded_evaluation.padded padded_name, ?_⟩
  cases fresh : Store.verify paddedLibraries ([5, 6, 7, 9] : List (Fin 32)) none with
  | error error => exact ⟨error, rfl⟩
  | ok store =>
    have subset : ([5, 6, 7, 8] ++ [5, 6, 7, 9] : List (Fin 32)) ⊆ [5, 6, 7, 8, 9] := by decide
    have member : (9 : Fin 32) ∈ [5, 6, 7, 9] := by decide
    obtain ⟨-, unpadded⟩ := (verify_iff padded_lower (padded_distinct subset) built).mp fresh
    have trimmed := (unpadded (9 : Fin 32) member _ rfl (by decide)).1 (" " ++ zeros 128) rfl
    rw [trim_space, trim_zeros] at trimmed
    have sizes := congrArg (fun text : String => text.toList.length) trimmed
    simp [toList_zeros] at sizes

/-- The rows of the sample, delivered again, give the same with and without their store. -/
theorem collateral_cache_transparent_sample :
    Store.Agree (Store.verify paddedLibraries ([5, 6, 7, 8] : List (Fin 32)) (some labStore))
      (Store.verify paddedLibraries ([5, 6, 7, 8] : List (Fin 32)) none) := by
  have subset : ([5, 6, 7, 8] ++ [5, 6, 7, 8] : List (Fin 32)) ⊆ [5, 6, 7, 8, 9] := by decide
  refine (collateral_cache_transparent padded_lower (.first plain_verify) (padded_distinct subset)).mpr ?_
  rintro ⟨offers, masks⟩
  obtain ⟨offer, member, padded⟩ := masks.padded
  exact padded ((offers_trimmed masks.listed).mpr plain_unpadded offer member)

end StogasVerifier.Evidence
