import StogasVerifier.Proofs.CanonicalWriting
import StogasVerifier.Proofs.RootRotation
import StogasVerifier.Sigstore.Spki

/-! How many key pairs stand behind a threshold of signatures. Signers are counted by the
bytes of their keys, and one point has several encodings. -/

namespace StogasVerifier.Tuf
open Lib
open Sigstore (Bytes EllipticLibraries)

variable {L : Libraries} {E : EllipticLibraries} {root : Root} {metadata : Metadata} {role : Role}

def Root.signingPoints (E : EllipticLibraries) (root : Root) (role : Role) (metadata : Metadata) : Set E.Point :=
  { point | ∃ keyid ∈ role.keyids, ∃ key signature, root.keys.lookup keyid = some key ∧
    metadata.signatures.lookup keyid = some signature ∧ E.keyPoint key = some point ∧ E.Valid point metadata.canonical signature }

theorem verifySpki_ok {key message signature : Bytes} :
    E.verifySpki key message signature = .ok () ↔ ∃ point, E.keyPoint key = some point ∧ E.Valid point message signature := by
  simp only [EllipticLibraries.verifySpki, EllipticLibraries.keyPoint, bind_ok, mapError_ok, rejectIf_ok, exists_unit, not_not,
    Option.bind_eq_bind, Option.bind_eq_some_iff, toOption_some, Option.ite_none_right_eq_some]
  constructor
  · rintro ⟨spki, parsed, curve, point, decoded, read, taken, verified⟩
    exact ⟨point, ⟨spki, parsed, curve, decoded⟩, read, taken, verified⟩
  · rintro ⟨point, ⟨spki, parsed, curve, decoded⟩, read, taken, verified⟩
    exact ⟨spki, parsed, curve, point, decoded, read, taken, verified⟩

def Root.listed (E : EllipticLibraries) (root : Root) (role : Role) : Set Bytes :=
  { key | ∃ keyid ∈ role.keyids, root.keys.lookup keyid = some key ∧ (E.keyPoint key).isSome }

theorem Root.listed_finite (root : Root) (role : Role) : (root.listed E role).Finite := by
  refine Set.Finite.subset (role.keyids.filterMap fun keyid => root.keys.lookup keyid).finite_toSet ?_
  rintro key ⟨keyid, listed, known, -⟩
  exact List.mem_filterMap.mpr ⟨keyid, listed, known⟩

private theorem lookup_signed (sign : String → Option Bytes) (keyid : String) (keyids : List String) :
    (keyids.filterMap fun id => (sign id).map (id, ·)).lookup keyid = if keyid ∈ keyids then sign keyid else none := by
  induction keyids with
  | nil => rfl
  | cons id keyids ih =>
    by_cases same : keyid = id
    · subst same
      cases signed : sign keyid with
      | none => rw [List.filterMap_cons_none (by rw [signed]; rfl), ih, signed, ite_self, ite_self]
      | some signature => simp [signed]
    · cases signed : sign id with
      | none => simp_all
      | some signature => simp_all [List.lookup_cons, beq_eq_false_iff_ne.mpr same]

theorem Root.verify_role (signs : root.roles.lookup ((metadata.signed.member "_type").asStr.getD "") = some role) :
    root.verify L metadata = .ok () ↔ role.threshold ≤ (root.signers L role metadata).ncard := by
  simp only [verify, bind_ok, required_ok, rejectIf_ok, signers_card, not_lt, signs, Option.some.injEq, exists_eq_left']

section Counting
variable (spki : ∀ key message signature, L.verifySpki key .ecdsaP256Sha256 message signature = E.verifySpki key message signature)
include spki

theorem Root.signingPoints_image (root : Root) (role : Role) (metadata : Metadata) :
    E.keyPoint '' (root.signers L role metadata) = some '' (root.signingPoints E role metadata) := by
  ext found
  constructor
  · rintro ⟨key, ⟨keyid, listed, signature, known, signed, valid⟩, rfl⟩
    rw [spki] at valid
    obtain ⟨point, decoded, verified⟩ := verifySpki_ok.mp valid
    exact ⟨point, ⟨keyid, listed, key, signature, known, signed, decoded, verified⟩, decoded.symm⟩
  · rintro ⟨point, ⟨keyid, listed, key, signature, known, signed, decoded, verified⟩, rfl⟩
    refine ⟨key, ⟨keyid, listed, signature, known, signed, ?_⟩, decoded⟩
    rw [spki]
    exact verifySpki_ok.mpr ⟨point, decoded, verified⟩

theorem Root.points_card (root : Root) (role : Role) (metadata : Metadata) :
    (E.keyPoint '' (root.signers L role metadata)).ncard = (root.signingPoints E role metadata).ncard := by
  rw [signingPoints_image spki, Set.ncard_image_of_injective _ (Option.some_injective _)]

theorem Root.signers_listed (root : Root) (role : Role) (metadata : Metadata) : root.signers L role metadata ⊆ root.listed E role := by
  rintro key ⟨keyid, listed, signature, known, -, valid⟩
  rw [spki] at valid
  obtain ⟨point, decoded, -⟩ := verifySpki_ok.mp valid
  exact ⟨keyid, listed, known, Option.isSome_iff_exists.mpr ⟨point, decoded⟩⟩

theorem Root.exists_signed (signable : ∀ point, ∃ signature, E.Valid point metadata.canonical signature) {chosen : Set Bytes}
    (some_ : chosen ⊆ root.listed E role) : ∃ signatures, root.signers L role { metadata with signatures } = chosen := by
  classical
  have each : ∀ key ∈ chosen, ∃ signature, L.verifySpki key .ecdsaP256Sha256 metadata.canonical signature = .ok () := by
    intro key member
    obtain ⟨keyid, -, -, holds⟩ := some_ member
    obtain ⟨point, decoded⟩ := Option.isSome_iff_exists.mp holds
    obtain ⟨signature, valid⟩ := signable point
    exact ⟨signature, by rw [spki]; exact verifySpki_ok.mpr ⟨point, decoded, valid⟩⟩
  choose! sign valid using each
  let signed (keyid : String) : Option Bytes :=
    (root.keys.lookup keyid).bind fun key => if key ∈ chosen then some (sign key) else none
  refine ⟨role.keyids.filterMap fun keyid => (signed keyid).map (keyid, ·), ?_⟩
  ext key
  constructor
  · rintro ⟨keyid, listed, signature, known, found, -⟩
    rw [lookup_signed, if_pos listed] at found
    simp only [signed, known, Option.bind_some] at found
    split at found
    next member => exact member
    next => cases found
  · intro member
    obtain ⟨keyid, listed, known, -⟩ := some_ member
    refine ⟨keyid, listed, sign key, known, ?_, valid key member⟩
    rw [lookup_signed, if_pos listed]
    simp only [signed, known, Option.bind_some, if_pos member]

theorem Root.enough_points (signs : root.roles.lookup ((metadata.signed.member "_type").asStr.getD "") = some role)
    (distinct : Set.InjOn E.keyPoint (root.signers L role metadata)) (verified : root.verify L metadata = .ok ()) :
    role.threshold ≤ (root.signingPoints E role metadata).ncard := by
  rw [← root.points_card spki, distinct.ncard_image]
  exact (Root.verify_role signs).mp verified

/-- Whatever signatures a file carries, its acceptance means as many key pairs as the threshold,
exactly if one signature is enough, or the role lists too few keys to be satisfied at all, or no two
of the keys that it lists are encodings of one point. -/
theorem threshold_points {root : Root} {metadata : Metadata} {role : Role}
    (signs : root.roles.lookup ((metadata.signed.member "_type").asStr.getD "") = some role)
    (signable : ∀ point, ∃ signature, E.Valid point metadata.canonical signature) :
    (∀ signatures, root.verify L { metadata with signatures } = .ok () →
      role.threshold ≤ (root.signingPoints E role { metadata with signatures }).ncard) ↔
    role.threshold ≤ 1 ∨ (root.listed E role).ncard < role.threshold ∨ Set.InjOn E.keyPoint (root.listed E role) := by
  have finite := @Root.listed_finite E root role
  have accepts (signatures : List (String × Bytes)) : root.verify L { metadata with signatures } = .ok () ↔
      role.threshold ≤ (root.signers L role { metadata with signatures }).ncard := Root.verify_role signs
  constructor
  · intro each
    by_contra! safe
    obtain ⟨several, enough, shared⟩ := safe
    obtain ⟨first, firstListed, second, secondListed, same, apart⟩ : ∃ first ∈ root.listed E role, ∃ second ∈ root.listed E role,
        E.keyPoint first = E.keyPoint second ∧ first ≠ second := by
      simpa [Set.InjOn] using shared
    -- Two encodings of one point are among as many keys as the threshold asks for.
    obtain ⟨chosen, pair, within, count⟩ := Set.exists_subsuperset_card_eq (Set.pair_subset firstListed secondListed)
      ((Set.ncard_pair apart).trans_le several) enough
    obtain ⟨signatures, signers⟩ := root.exists_signed spki signable within
    have points := each signatures ((accepts signatures).mpr (by rw [signers, count]))
    rw [← root.points_card spki, signers, ← count] at points
    have injective := Set.injOn_of_ncard_image_eq (le_antisymm (Set.ncard_image_le (finite.subset within)) points) (finite.subset within)
    exact apart (injective (pair (.inl rfl)) (pair (.inr rfl)) same)
  · intro safe signatures verified
    have counted := (accepts signatures).mp verified
    have within := root.signers_listed spki role { metadata with signatures }
    rcases safe with single | few | distinct
    · rw [← root.points_card spki]
      rcases Nat.eq_zero_or_pos role.threshold with zero | positive
      · omega
      · have signed := Set.nonempty_of_ncard_ne_zero (by omega : (root.signers L role { metadata with signatures }).ncard ≠ 0)
        have one := (Set.ncard_pos ((finite.subset within).image E.keyPoint)).mpr (signed.image _)
        omega
    · have fewer := Set.ncard_le_ncard within finite
      omega
    · exact Root.enough_points spki signs (distinct.mono within) verified

end Counting

/-! ## One point under two keys -/

private def lineCurve : EllipticLibraries where
  parseSpki bytes := .ok ⟨Sigstore.idEcPublicKey, some Sigstore.secp256r1, bytes⟩
  Point := UInt8 × UInt8
  fromSec1
    | [2, x] => .ok (x, x + x)
    | [4, x, y] => if y = x + x then .ok (x, y) else .error "not on the curve"
    | _ => .error "length"
  Signature := Bytes
  signatureFromDer bytes := .ok bytes
  verify point _ signature := if signature = [point.1] then .ok () else .error "signature"

private def keyValue (pem : String) : Json :=
  .object [("keytype", .string "ecdsa"), ("scheme", .string "ecdsa-sha2-nistp256"), ("keyval", .object [("public", .string pem)])]

private def pairRole : Json := .object [("keyids", .array [.string "a", .string "b"]), ("threshold", .number (.posInt 2))]

private def pairSigned : Json := .object [
  ("_type", .string "root"), ("spec_version", .string "1.0"), ("version", .number (.posInt 1)), ("expires", .string "2030"),
  ("keys", .object [("a", keyValue "A"), ("b", keyValue "B")]),
  ("roles", .object [("root", pairRole), ("targets", pairRole), ("snapshot", pairRole), ("timestamp", pairRole)])]

private def pairFile : Json := .object [("signed", pairSigned), ("signatures", .array [
  .object [("keyid", .string "a"), ("sig", .string "05")], .object [("keyid", .string "b"), ("sig", .string "05")]])]

/-- The key `A` is compressed, and `B` has the form and the point that are given. -/
private def pairLibraries (other : Bytes) : Libraries where
  Value := Unit
  strictJson _ := .ok ()
  null := ()
  get _ _ := none
  isObject _ := false
  asArray _ := none
  asStr _ := none
  readStatement _ := .error ""
  readDsseBundle _ := .error ""
  readDsseBody _ := .error ""
  fulcioFromDer _ := .error ""
  utf8FromDer _ := .error ""
  verifyForUsage _ _ _ := .error ""
  parseSct _ := .error ""
  verifySpki key _ message signature := lineCurve.verifySpki key message signature
  timestampTime _ _ := .error ""
  verifyTimestampSigner _ _ _ := .error ""
  readBundle _ := .error ""
  readBody _ := .error ""
  standardDecode _ := .error ""
  parseTime _ := .error ""
  sha256 _ := List.Vector.replicate 32 0
  sha512 _ := []
  parsePem bytes := some ("PUBLIC KEY", if bytes = bytesOf "A" then [2, 5] else other)
  Ed25519Key := Unit
  ed25519FromDer _ := none
  verifyPrehashedStrict _ _ _ := false
  canonicalSet _ := .error ""
  verifySpkiAuto _ _ _ := .error ""
  verifyCheckpoint _ _ _ _ _ := .error ""
  tree _ := pairFile
  parseRfc3339 _ := some 0
  usizeMax := 2 ^ 64 - 1

private def pairMetadata (second : UInt8) (canonical : Bytes) : Metadata := ⟨pairSigned, 1, 0, canonical, [("a", [5]), ("b", [second])]⟩

private def pairRoot (other : Bytes) : Root :=
  ⟨1, 0, [("a", [2, 5]), ("b", other)], roles.map fun name => (name, ⟨["a", "b"], 2⟩)⟩

private theorem pair_parsed (other : Bytes) : ∃ canonical,
    Metadata.parse (pairLibraries other) [] "root" = .ok (pairMetadata 5 canonical) ∧
    Root.parse (pairLibraries other) (pairMetadata 5 canonical) = .ok (pairRoot other) := by
  obtain ⟨canonical, written⟩ := (writeCanonical_total pairSigned).mpr (by simp [pairSigned, pairRole, keyValue, integer])
  refine ⟨canonical, ?_, ?_⟩
  · simp only [Metadata.parse, bind_ok, mapError_ok, required_ok, rejectIf_ok, exists_unit, pure_ok, not_not]
    exact ⟨(), rfl, pairSigned, rfl, rfl, by decide +kernel, 1, rfl, 0, rfl, _, rfl, _, rfl, canonical, written, rfl⟩
  · have apart : bytesOf "B" ≠ bytesOf "A" := by decide +kernel
    have first : (pairLibraries other).parsePem (bytesOf "A") = some ("PUBLIC KEY", [2, 5]) := by simp only [pairLibraries, if_true]
    have second : (pairLibraries other).parsePem (bytesOf "B") = some ("PUBLIC KEY", other) := by simp only [pairLibraries, if_neg apart]
    have keys : Root.parseKey (pairLibraries other) ("a", keyValue "A") = .ok ("a", [2, 5]) ∧
        Root.parseKey (pairLibraries other) ("b", keyValue "B") = .ok ("b", other) := by
      have text (pem : String) : (((keyValue pem).member "keyval").member "public").asStr = some pem := rfl
      simp only [Root.parseKey, text, Option.bind_some, first, second]
      exact ⟨rfl, rfl⟩
    simp only [Root.parse, bind_ok, required_ok, pure_ok]
    refine ⟨_, rfl, [("a", [2, 5]), ("b", other)], ?_, _, rfl, rfl⟩
    exact mapM_ok.mpr (.cons keys.1 (.cons keys.2 .nil))

private theorem pair_signs (other canonical : Bytes) (second : UInt8) :
    (pairRoot other).roles.lookup (((pairMetadata second canonical).signed.member "_type").asStr.getD "") = some ⟨["a", "b"], 2⟩ := rfl

private theorem pair_spki (other key message signature : Bytes) :
    (pairLibraries other).verifySpki key .ecdsaP256Sha256 message signature = lineCurve.verifySpki key message signature := rfl

private structure CurveEvaluation : Prop where
  compressed : (lineCurve.keyPoint [2, 5] : Option (UInt8 × UInt8)) = some (5, 10)
  plain : (lineCurve.keyPoint [4, 5, 10] : Option (UInt8 × UInt8)) = some (5, 10)
  apart : (lineCurve.keyPoint [2, 6] : Option (UInt8 × UInt8)) = some (6, 12)

private theorem curveEvaluation : CurveEvaluation := ⟨rfl, rfl, rfl⟩

/-- A root lists one point twice, compressed and not, and one key pair satisfies its threshold
of two. -/
theorem point_counts_twice : ∃ (L : Libraries) (E : EllipticLibraries) (metadata : Metadata) (root : Root) (role : Role),
    (∀ key message signature, L.verifySpki key .ecdsaP256Sha256 message signature = E.verifySpki key message signature) ∧
    Metadata.parse L [] "root" = .ok metadata ∧ Root.parse L metadata = .ok root ∧ root.roles.lookup "root" = some role ∧
    role.threshold = 2 ∧ root.verify L metadata = .ok () ∧ (root.signingPoints E role metadata).ncard = 1 := by
  obtain ⟨canonical, parsed, read⟩ := pair_parsed [4, 5, 10]
  refine ⟨pairLibraries [4, 5, 10], lineCurve, _, _, ⟨["a", "b"], 2⟩, pair_spki _, parsed, read, rfl, rfl, rfl, ?_⟩
  have point : (pairRoot [4, 5, 10]).signingPoints lineCurve ⟨["a", "b"], 2⟩ (pairMetadata 5 canonical) = {((5, 10) : UInt8 × UInt8)} := by
    ext point
    constructor
    · rintro ⟨keyid, listed, key, signature, known, -, decoded, -⟩
      simp only [List.mem_cons, List.not_mem_nil, or_false] at listed
      rcases listed with rfl | rfl
      · cases known
        exact (Option.some.inj (curveEvaluation.compressed.symm.trans decoded)).symm
      · cases known
        exact (Option.some.inj (curveEvaluation.plain.symm.trans decoded)).symm
    · rintro rfl
      exact ⟨"a", .head _, [2, 5], [5], rfl, rfl, curveEvaluation.compressed, [5], rfl, rfl⟩
  rw [point]
  exact Set.ncard_singleton _

theorem threshold_points_pair :
    2 ≤ ((pairRoot [2, 6]).signingPoints lineCurve ⟨["a", "b"], 2⟩ (pairMetadata 6 [])).ncard := by
  have signable (point : UInt8 × UInt8) : ∃ signature, lineCurve.Valid point (pairMetadata 6 []).canonical signature :=
    ⟨[point.1], [point.1], rfl, if_pos rfl⟩
  refine (threshold_points (pair_spki [2, 6]) (pair_signs [2, 6] [] 6) signable).mpr (.inr (.inr ?_)) [("a", [5]), ("b", [6])] rfl
  have listed : (pairRoot [2, 6]).listed lineCurve ⟨["a", "b"], 2⟩ ⊆ {[2, 5], [2, 6]} := by
    rintro key ⟨keyid, listed, known, -⟩
    simp only [List.mem_cons, List.not_mem_nil, or_false] at listed
    rcases listed with rfl | rfl
    · cases known
      exact .inl rfl
    · cases known
      exact .inr rfl
  refine Set.InjOn.mono listed ?_
  have apart : (5, 10) ≠ ((6, 12) : UInt8 × UInt8) := by decide
  rintro key (rfl | rfl) other (rfl | rfl) same
  · rfl
  · exact absurd (Option.some.inj (curveEvaluation.compressed.symm.trans (same.trans curveEvaluation.apart))) apart
  · exact absurd (Option.some.inj (curveEvaluation.compressed.symm.trans (same.symm.trans curveEvaluation.apart))) apart
  · rfl

end StogasVerifier.Tuf
