import StogasVerifier.Gateway.NodeKeys
import StogasVerifier.Lib.Utf8
import StogasVerifier.Proofs.HexText

/-! Receipts of the gateway under the checks of the verifier. The gateway limits the
metadata without the receipt, the verifier limits it with the receipt. -/

namespace StogasVerifier.Receipt
open Lib
open Gateway (NodeKeys)
open Sigstore (Bytes hexEncode)

section Members
variable {name : String} {entries before after : List (String × Json)} {old value : Json}

private theorem findIdx_first (other : ∀ entry ∈ before, entry.1 ≠ name) :
    (before ++ (name, old) :: after).findIdx? (fun entry => decide (entry.1 = name)) = some before.length := by
  have none : before.findIdx? (fun entry => decide (entry.1 = name)) = none :=
    List.findIdx?_eq_none_iff.mpr fun entry member => decide_eq_false (other entry member)
  rw [List.findIdx?_append, none, List.findIdx?_cons, decide_eq_true rfl]
  simp

private theorem member_cases (entries : List (String × Json)) (name : String) :
    entries.findIdx? (fun entry => decide (entry.1 = name)) = none ∧ (∀ entry ∈ entries, entry.1 ≠ name) ∨
    ∃ before old after, entries = before ++ (name, old) :: after ∧ ∀ entry ∈ before, entry.1 ≠ name := by
  by_cases found : name ∈ entries.map Prod.fst
  · obtain ⟨entry, member, rfl⟩ := List.mem_map.mp found
    right
    induction entries with
    | nil => cases member
    | cons first rest ih =>
      by_cases same : first.1 = entry.1
      · exact ⟨[], first.2, rest, by rw [← same]; rfl, nofun⟩
      · have later : entry ∈ rest := (List.mem_cons.mp member).resolve_left fun equal => same (equal ▸ rfl)
        obtain ⟨before, old, after, rfl, other⟩ := ih later (List.mem_map_of_mem later)
        refine ⟨first :: before, old, after, rfl, fun next member => ?_⟩
        rcases List.mem_cons.mp member with rfl | member
        · exact same
        · exact other next member
  · left
    have absent (entry : String × Json) (member : entry ∈ entries) : entry.1 ≠ name :=
      fun same => found (same ▸ List.mem_map_of_mem member)
    exact ⟨List.findIdx?_eq_none_iff.mpr fun entry member => decide_eq_false (absent entry member), absent⟩

private theorem removeMember_perm (other : ∀ entry ∈ before, entry.1 ≠ name) :
    (removeMember (before ++ (name, old) :: after) name).Perm (before ++ after) := by
  rw [removeMember, findIdx_first other]
  rcases List.eq_nil_or_concat after with rfl | ⟨rest, last, rfl⟩
  · simp
  · rw [List.concat_eq_append]
    have ends : (before ++ (name, old) :: (rest ++ [last])).getLast? = some last := by
      rw [← List.cons_append, ← List.append_assoc, List.getLast?_concat]
    rw [ends]
    simp only [List.set_append_right _ _ (Nat.le_refl _), Nat.sub_self, List.set_cons_zero]
    rw [List.dropLast_append_of_ne_nil (List.cons_ne_nil _ _), List.dropLast_cons_of_ne_nil (by simp), List.dropLast_concat]
    exact (List.perm_append_singleton last rest).symm.append_left before

theorem removeMember_insertMember (entries : List (String × Json)) (name : String) (value : Json) :
    (removeMember (insertMember entries name value) name).Perm (removeMember entries name) := by
  rcases member_cases entries name with ⟨none, absent⟩ | ⟨before, old, after, rfl, other⟩
  · rw [insertMember, none]
    have removed : (removeMember (entries ++ [(name, value)]) name).Perm (entries ++ []) := removeMember_perm absent
    rw [List.append_nil] at removed
    rwa [removeMember.eq_def entries, none]
  · have inserted : insertMember (before ++ (name, old) :: after) name value = before ++ (name, value) :: after := by
      rw [insertMember, findIdx_first other]
      simp
    rw [inserted]
    exact (removeMember_perm other).trans (removeMember_perm other).symm

theorem lookup_insertMember (entries : List (String × Json)) (name : String) (value : Json) :
    (insertMember entries name value).lookup name = some value := by
  have first {before after : List (String × Json)} (other : ∀ entry ∈ before, entry.1 ≠ name) :
      (before ++ (name, value) :: after).lookup name = some value := by
    induction before with
    | nil => simp
    | cons entry before ih =>
      have apart : (name == entry.1) = false := beq_false_of_ne (other entry (.head _)).symm
      rw [List.cons_append, List.lookup_cons, apart]
      exact ih fun next member => other next (.tail _ member)
  rcases member_cases entries name with ⟨none, absent⟩ | ⟨before, old, after, rfl, other⟩
  · rw [insertMember, none]
    exact first absent
  · rw [insertMember, findIdx_first other]
    simp only [List.set_append_right _ _ (Nat.le_refl _), Nat.sub_self, List.set_cons_zero]
    exact first other

end Members

/-! ## Texts of flat objects -/

def quoted (text : String) : Bytes := 34 :: (text.toUTF8.toList ++ [34])

def memberText (member : String × String) : Bytes := quoted member.1 ++ 58 :: quoted member.2

def flatText (members : List (String × String)) : Bytes := 123 :: ([44].intercalate (members.map memberText) ++ [125])

def strings (members : List (String × String)) : Json := .object (members.map fun member => (member.1, .string member.2))

def Unescaped (text : String) : Prop := ∀ char ∈ text.toList, 32 ≤ char.toNat ∧ char ≠ '"' ∧ char ≠ '\\'

/-- What is assumed of the libraries: unpadded base64url, the texts of flat objects, and
a canonical form that does not depend on the order of members. -/
structure Laws (L : Libraries) : Prop where
  base64 : Base64.Laws L.urlSafeEncode L.urlSafeDecode
  flat : ∀ members, (∀ member ∈ members, Unescaped member.1 ∧ Unescaped member.2) → L.toVec (strings members) = .ok (flatText members)
  canonical : ∀ first second : List (String × Json), first.Perm second → L.canonicalize first = L.canonicalize second

theorem hexEncode_unescaped (bytes : Bytes) : Unescaped (hexEncode bytes) := by
  intro char member
  have bounds : 48 ≤ char.toNat ∧ char.toNat ≤ 57 ∨ 97 ≤ char.toNat ∧ char.toNat ≤ 102 := by
    rcases Evidence.hexEncode_lower bytes member with digit | letter
    · exact .inl ⟨Char.le_def.mp digit.1, Char.le_def.mp digit.2⟩
    · exact .inr ⟨Char.le_def.mp letter.1, Char.le_def.mp letter.2⟩
  refine ⟨by omega, ?_, ?_⟩
  · rintro rfl
    exact absurd bounds (by decide)
  · rintro rfl
    exact absurd bounds (by decide)

theorem alphabet_unescaped : ∀ char ∈ Base64.alphabet, 32 ≤ char.toNat ∧ char ≠ '"' ∧ char ≠ '\\' := by
  have plain : Base64.alphabet.all (fun char => decide (32 ≤ char.toNat ∧ char ≠ '"' ∧ char ≠ '\\')) := by decide +kernel
  exact fun char known => of_decide_eq_true (List.all_eq_true.mp plain char known)

theorem quoted_length (text : String) : (quoted text).length = text.utf8ByteSize + 2 := by
  rw [quoted, List.length_cons, List.length_append, utf8_length, List.length_singleton]

namespace ContentReceipt
variable {L : Libraries} {receipt : ContentReceipt}

theorem value_eq (receipt : ContentReceipt) : receipt.value = strings receipt.members := rfl

theorem ofValue_value (receipt : ContentReceipt) : ofValue receipt.value = some receipt := by
  simp [ofValue, value, members, fields, List.lookup, Json.asStr]

structure Sized (receipt : ContentReceipt) : Prop where
  schema : receipt.schema.utf8ByteSize = 17
  boot : receipt.bootSha256.utf8ByteSize = 64
  request : receipt.requestSha256.utf8ByteSize = 64
  response : receipt.responseSha256.utf8ByteSize = 64
  signature : receipt.signature.utf8ByteSize = 4498

theorem Sized.length (sized : receipt.Sized) : (flatText receipt.members).length = 4793 := by
  have names : ("schema".utf8ByteSize, "boot_sha256".utf8ByteSize, "request_sha256".utf8ByteSize, "response_sha256".utf8ByteSize,
      "signature".utf8ByteSize) = (6, 11, 14, 15, 9) := by decide +kernel
  obtain ⟨schemaName, bootName, requestName, responseName, signatureName⟩ := by simpa only [Prod.mk.injEq] using names
  simp only [flatText, members, fields, List.zip_cons_cons, List.zip_nil_right, List.map_cons, List.map_nil, List.intercalate,
    List.intersperse, List.flatten_cons, List.flatten_nil, List.length_cons, List.length_append, memberText, quoted_length,
    List.length_nil, sized.schema, sized.boot, sized.request, sized.response, sized.signature, schemaName, bootName, requestName,
    responseName, signatureName]

theorem Sized.short (sized : receipt.Sized) : (flatText receipt.members).length ≤ maxBytes := by
  rw [sized.length]
  decide

end ContentReceipt

section Signing
variable {L : Libraries} {keys : NodeKeys} {boot : Digest} {request response : Digest} {metadata : Bytes} {receipt : ContentReceipt}

theorem signReceipt_cases (signed : keys.signReceipt L boot request response metadata = .ok receipt) :
    ∃ value digest signature, L.strictJson metadata = .ok value ∧ L.metadataDigest value = .ok digest ∧
      keys.sign (message request response digest) = .ok signature ∧
      receipt = ⟨schema, hexEncode boot.toList, hexEncode request.toList, hexEncode response.toList, L.urlSafeEncode signature.toList⟩ := by
  simp only [NodeKeys.signReceipt, bind_ok, rejectIf_ok, mapError_ok, pure_ok, exists_unit] at signed
  obtain ⟨-, value, parsed, digest, hashed, signature, signs, rfl⟩ := signed
  exact ⟨value, digest, signature, parsed, hashed, signs, rfl⟩

theorem signReceipt_sized (laws : Laws L) (signed : keys.signReceipt L boot request response metadata = .ok receipt) :
    receipt.Sized ∧ ∀ member ∈ receipt.members, Unescaped member.1 ∧ Unescaped member.2 := by
  obtain ⟨-, -, signature, -, -, -, rfl⟩ := signReceipt_cases signed
  have texts : schema.utf8ByteSize = 17 ∧
      (schema :: ContentReceipt.fields).all (fun text => text.toList.all fun char => decide (32 ≤ char.toNat ∧ char ≠ '"' ∧ char ≠ '\\')) := by
    decide +kernel
  have hexSize (digest : Digest) : (hexEncode digest.toList).utf8ByteSize = 64 := by
    rw [(Evidence.hexEncode_ascii _).size, Evidence.hexEncode_length, digest.toList_length]
  constructor
  · refine ⟨texts.1, hexSize boot, hexSize request, hexSize response, ?_⟩
    rw [laws.base64.utf8ByteSize, signature.toList_length, signatureBytes]
  · have names (text : String) (member : text ∈ schema :: ContentReceipt.fields) : Unescaped text :=
      fun char known => of_decide_eq_true (List.all_eq_true.mp (List.all_eq_true.mp texts.2 text member) char known)
    have encoded : Unescaped (L.urlSafeEncode signature.toList) :=
      fun char known => alphabet_unescaped char (laws.base64.letters _ char known)
    simp only [ContentReceipt.members, ContentReceipt.fields, List.zip_cons_cons, List.zip_nil_right, List.forall_mem_cons] at names ⊢
    obtain ⟨schemaText, schemaName, bootName, requestName, responseName, signatureName, -⟩ := names
    exact ⟨⟨schemaName, schemaText⟩, ⟨bootName, hexEncode_unescaped _⟩, ⟨requestName, hexEncode_unescaped _⟩,
      ⟨responseName, hexEncode_unescaped _⟩, ⟨signatureName, encoded⟩, nofun⟩

theorem metadataDigest_insert (laws : Laws L) (entries : List (String × Json)) (value : Json) :
    L.metadataDigest (.object (insertMember entries "receipt" value)) = L.metadataDigest (.object entries) := by
  simp only [Libraries.metadataDigest, Json.asObject, required, ok_bind]
  rw [laws.canonical _ _ (removeMember_insertMember entries "receipt" value)]

end Signing

section Verification
variable {L : Libraries} {keys : NodeKeys} {boot : Evidence.VerifiedBoot} {request response : Digest} {metadata text : Bytes}
  {receipt : ContentReceipt} {entries : List (String × Json)}

theorem decode_encode (laws : Laws L) (bytes : Bytes) : L.decode (L.urlSafeEncode bytes) = .ok bytes := by
  simp only [Libraries.decode, laws.base64.decodes, Except.mapError, ok_bind, bind_ok, rejectIf_ok, exists_unit, not_not, pure_ok, and_self]

variable (laws : Laws L)
  (signer : ∀ message signature, keys.sign message = .ok signature →
    L.verifySigning keys.signingPublicKey.toList message signature.toList = .ok ())
  (owner : boot.record.reportData.signingPublicKey = L.urlSafeEncode keys.signingPublicKey.toList)
  (signed : keys.signReceipt L boot.identity.documentSha256 request response metadata = .ok receipt)
  (parsed : L.strictJson metadata = .ok (.object entries))
include laws signer owner signed parsed

theorem signReceipt_verifies
    (survives : ∀ bytes, L.toVec receipt.value = .ok bytes → L.strictJson bytes = .ok receipt.value) :
    ∃ verified, Signed.verify L ⟨.object (insertMember entries "receipt" receipt.value), request, response⟩ boot =
      .ok ⟨.object (insertMember entries "receipt" receipt.value), verified⟩ := by
  obtain ⟨sized, plain⟩ := signReceipt_sized laws signed
  obtain ⟨value, digest, signature, again, hashed, signs, rfl⟩ := signReceipt_cases signed
  obtain rfl : value = .object entries := Except.ok.inj (again.symm.trans parsed)
  generalize shape : (ContentReceipt.mk schema _ _ _ _) = receipt at *
  have flat := laws.flat receipt.members plain
  have read : L.parse (flatText receipt.members) = .ok receipt := by
    simp only [Libraries.parse, bind_ok, rejectIf_ok, mapError_ok, required_ok, exists_unit]
    exact ⟨Nat.not_lt.mpr sized.short, receipt.value, survives _ flat, receipt.ofValue_value⟩
  have key : L.verifyKey receipt boot.record.reportData.signingPublicKey boot.identity.documentSha256 request response digest = .ok () := by
    rw [Libraries.verifyKey, owner, ← shape]
    simp only [decode_encode laws, bind_ok, rejectIf_ok, mapError_ok, exists_unit, not_not, not_or, Except.ok.injEq, exists_eq_left']
    exact ⟨trivial, trivial, ⟨trivial, trivial⟩, keys.signingPublicKey.toList_length, signer _ signature signs⟩
  have found : (Json.object (insertMember entries "receipt" receipt.value)).get "receipt" = some receipt.value :=
    lookup_insertMember entries "receipt" receipt.value
  have checked : L.verify receipt boot request response (.object (insertMember entries "receipt" receipt.value)) =
      .ok ⟨boot.hardware.nodeId, receipt.bootSha256, receipt.requestSha256, receipt.responseSha256⟩ := by
    rw [Libraries.verify, metadataDigest_insert laws, hashed, ok_bind, key, ok_bind]
    rfl
  refine ⟨⟨boot.hardware.nodeId, receipt.bootSha256, receipt.requestSha256, receipt.responseSha256⟩, ?_⟩
  rw [Signed.verify, found, required, ok_bind, receipt.value_eq, flat, Except.mapError, ok_bind, read, ok_bind, ← receipt.value_eq, checked, ok_bind]
  rfl

/-- A receipt of the gateway verifies exactly if the metadata with the receipt is within
the limit that the gateway applied to the metadata alone. -/
theorem receipt_verifies
    (survives : ∀ value ∈ [receipt.value, .object (insertMember entries "receipt" receipt.value)],
      ∀ bytes, L.toVec value = .ok bytes → L.strictJson bytes = .ok value)
    (written : L.toVec (.object (insertMember entries "receipt" receipt.value)) = .ok text) :
    (∃ verified, (Signed.detached L request text response >>= fun signed => signed.verify L boot) =
      .ok ⟨.object (insertMember entries "receipt" receipt.value), verified⟩) ↔ text.length ≤ maxMetadataBytes := by
  have again := survives _ (.tail _ (.head _)) text written
  constructor
  · rintro ⟨verified, accepted⟩
    obtain ⟨read, detached, -⟩ := bind_ok.mp accepted
    obtain ⟨_, short, -⟩ := bind_ok.mp detached
    exact Nat.not_lt.mp (rejectIf_ok.mp short)
  · intro short
    have detached : Signed.detached L request text response =
        .ok ⟨.object (insertMember entries "receipt" receipt.value), request, response⟩ :=
      bind_ok.mpr ⟨(), rejectIf_ok.mpr (Nat.not_lt.mpr short), bind_ok.mpr ⟨_, mapError_ok.mpr again, rfl⟩⟩
    rw [detached]
    exact signReceipt_verifies laws signer owner signed parsed (survives _ (.head _))

end Verification

/-! ## Metadata of one long text -/

mutual
private def plainText : Json → Bytes
  | .string text => quoted text
  | .object entries => 123 :: ([44].intercalate (plainEntries entries) ++ [125])
  | _ => []

private def plainEntries : List (String × Json) → List Bytes
  | [] => []
  | (name, value) :: rest => (quoted name ++ 58 :: plainText value) :: plainEntries rest
end

private theorem plainText_strings (members : List (String × String)) : plainText (strings members) = flatText members := by
  have entries : plainEntries (members.map fun member => (member.1, Json.string member.2)) = members.map memberText := by
    induction members with
    | nil => rw [List.map_nil, List.map_nil, plainEntries]
    | cons member rest ih => rw [List.map_cons, List.map_cons, plainEntries, plainText, ih, memberText]
  rw [strings, plainText, entries, flatText]

private def zeroDigest : Digest := List.Vector.replicate 32 0

private def blankSignature : List.Vector UInt8 signatureBytes := List.Vector.replicate signatureBytes 0

private def sampleKeys : NodeKeys where
  signingPublicKey := List.Vector.replicate signingPublicKeyBytes 0
  sign _ := .ok blankSignature
  recipientPublic := ""

private def sampleReceipt : ContentReceipt where
  schema := schema
  bootSha256 := hexEncode zeroDigest.toList
  requestSha256 := hexEncode zeroDigest.toList
  responseSha256 := hexEncode zeroDigest.toList
  signature := Base64.encode blankSignature.toList

private def sampleBoot : Evidence.VerifiedBoot where
  identity := {
    record := ⟨"", "", "", ⟨"", .production, Base64.encode sampleKeys.signingPublicKey.toList, "", "", ""⟩⟩
    hardware := ⟨"", [], "", "", Evidence.SnpHardwareFacts.fromReport [], ⟨0, 0⟩⟩
    documentSha256 := zeroDigest }
  integratedTimeUnixMs := 0

private def padded (count : Nat) : List (String × Json) := [("p", .string (String.ofList (List.replicate count 'a')))]

private def paddedWhole (count : Nat) : List (String × Json) := insertMember (padded count) "receipt" sampleReceipt.value

private def paddedLibraries (count : Nat) : Libraries where
  strictJson bytes :=
    if bytes = plainText (.object (padded count)) then .ok (.object (padded count))
    else if bytes = plainText sampleReceipt.value then .ok sampleReceipt.value
    else if bytes = plainText (.object (paddedWhole count)) then .ok (.object (paddedWhole count))
    else .error ""
  toVec value := .ok (plainText value)
  canonicalize _ := .ok []
  sha256 _ := zeroDigest
  urlSafeDecode := Base64.decode
  urlSafeEncode := Base64.encode
  verifySigning _ _ signature := if signature = blankSignature.toList then .ok () else .error ""

private theorem paddedLibraries_laws (count : Nat) : Laws (paddedLibraries count) where
  base64 := Base64.laws
  flat members _ := congrArg Except.ok (plainText_strings members)
  canonical _ _ _ := rfl

private theorem sample_signer (count : Nat) (message : Bytes) (signature : List.Vector UInt8 signatureBytes)
    (signs : sampleKeys.sign message = .ok signature) :
    (paddedLibraries count).verifySigning sampleKeys.signingPublicKey.toList message signature.toList = .ok () := by
  obtain rfl : blankSignature = signature := Except.ok.inj signs
  simp only [paddedLibraries, if_true]

private theorem sample_owner (count : Nat) :
    sampleBoot.record.reportData.signingPublicKey = (paddedLibraries count).urlSafeEncode sampleKeys.signingPublicKey.toList := by
  simp only [sampleBoot, Evidence.VerifiedBoot.record, paddedLibraries]

private theorem single_length (name : String) (value : Json) :
    (plainText (.object [(name, value)])).length = name.utf8ByteSize + (plainText value).length + 5 := by
  simp only [plainText, plainEntries, List.intercalate, List.intersperse, List.flatten_cons, List.flatten_nil, List.length_cons,
    List.length_append, List.length_nil, quoted_length]
  omega

private theorem pair_length (name other : String) (value second : Json) :
    (plainText (.object [(name, value), (other, second)])).length =
      name.utf8ByteSize + (plainText value).length + other.utf8ByteSize + (plainText second).length + 9 := by
  simp only [plainText, plainEntries, List.intercalate, List.intersperse, List.flatten_cons, List.flatten_nil, List.length_cons,
    List.length_append, List.length_nil, quoted_length]
  omega

private theorem filler_length (count : Nat) : (plainText (.string (String.ofList (List.replicate count 'a')))).length = count + 2 := by
  have text : String.utf8Len (List.replicate count 'a') = count := by
    induction count with
    | zero => rfl
    | succ count ih =>
      have single : 'a'.utf8Size = 1 := by decide
      rw [List.replicate_succ, String.utf8Len_cons, ih, single]
  rw [plainText, quoted_length, String.utf8ByteSize_ofList, text]

private theorem nameSizes : "p".utf8ByteSize = 1 ∧ "receipt".utf8ByteSize = 7 ∧ "p" ≠ "receipt" := by decide +kernel

private theorem padded_length (count : Nat) : (plainText (.object (padded count))).length = count + 8 := by
  rw [padded, single_length, filler_length, nameSizes.1]
  omega

private theorem signs_padded {count : Nat} (small : count + 8 ≤ maxMetadataBytes) :
    sampleKeys.signReceipt (paddedLibraries count) zeroDigest zeroDigest zeroDigest (plainText (.object (padded count))) = .ok sampleReceipt := by
  have parsed : (paddedLibraries count).strictJson (plainText (.object (padded count))) = .ok (.object (padded count)) := if_pos rfl
  have hashed : (paddedLibraries count).metadataDigest (.object (padded count)) = .ok zeroDigest := rfl
  rw [NodeKeys.signReceipt, rejectIf, if_neg (Nat.not_lt.mpr ((padded_length count).trans_le small)), parsed, Except.mapError, ok_bind, ok_bind,
    hashed, Except.mapError, ok_bind]
  rfl

private theorem receipt_length : (plainText sampleReceipt.value).length = 4793 := by
  have small : 0 + 8 ≤ maxMetadataBytes := by decide
  rw [ContentReceipt.value_eq, plainText_strings]
  exact (signReceipt_sized (paddedLibraries_laws 0) (signs_padded small)).1.length

private theorem whole_length (count : Nat) : (plainText (.object (paddedWhole count))).length = count + 4812 := by
  have whole : paddedWhole count = padded count ++ [("receipt", sampleReceipt.value)] := by
    have none : (padded count).findIdx? (fun entry => decide (entry.1 = "receipt")) = none := by
      rw [padded, List.findIdx?_singleton, decide_eq_false nameSizes.2.2]
      rfl
    rw [paddedWhole, insertMember, none]
  rw [whole, padded, List.singleton_append, pair_length, filler_length, receipt_length, nameSizes.1, nameSizes.2.1]
  omega

private theorem padded_survives {count : Nat} (apart : count ≠ 4785) :
    ∀ value ∈ [sampleReceipt.value, .object (insertMember (padded count) "receipt" sampleReceipt.value)],
      ∀ bytes, (paddedLibraries count).toVec value = .ok bytes → (paddedLibraries count).strictJson bytes = .ok value := by
  have metadata := padded_length count
  have receipt := receipt_length
  have whole := whole_length count
  intro value member bytes written
  obtain rfl : plainText value = bytes := Except.ok.inj written
  simp only [List.mem_cons, List.not_mem_nil, or_false] at member
  rcases member with rfl | rfl
  · have other : plainText sampleReceipt.value ≠ plainText (.object (padded count)) := fun same => by
      rw [same] at receipt
      omega
    exact (if_neg other).trans (if_pos rfl)
  · have other : plainText (.object (paddedWhole count)) ≠ plainText (.object (padded count)) := fun same => by
      rw [same] at whole
      omega
    have longer : plainText (.object (paddedWhole count)) ≠ plainText sampleReceipt.value := fun same => by
      rw [same] at whole
      omega
    exact (if_neg other).trans ((if_neg longer).trans (if_pos rfl))

/-- Metadata at the limit of the gateway: its receipt is signed, and never accepted. -/
theorem full_metadata_fails : ∃ (L : Libraries) (keys : NodeKeys) (boot : Evidence.VerifiedBoot) (metadata text : Bytes)
    (entries : List (String × Json)) (receipt : ContentReceipt),
    Laws L ∧ (∀ message signature, keys.sign message = .ok signature →
      L.verifySigning keys.signingPublicKey.toList message signature.toList = .ok ()) ∧
    boot.record.reportData.signingPublicKey = L.urlSafeEncode keys.signingPublicKey.toList ∧
    metadata.length = maxMetadataBytes ∧ L.strictJson metadata = .ok (.object entries) ∧
    keys.signReceipt L boot.identity.documentSha256 zeroDigest zeroDigest metadata = .ok receipt ∧
    L.toVec (.object (insertMember entries "receipt" receipt.value)) = .ok text ∧
    L.strictJson text = .ok (.object (insertMember entries "receipt" receipt.value)) ∧
    (Signed.detached L zeroDigest text zeroDigest >>= fun signed => signed.verify L boot).toOption.isNone := by
  refine ⟨paddedLibraries 16376, sampleKeys, sampleBoot, _, _, padded 16376, sampleReceipt, paddedLibraries_laws _, sample_signer _,
    sample_owner _, padded_length _, if_pos rfl, signs_padded (by decide), rfl, padded_survives (by decide) _ (.tail _ (.head _)) _ rfl, ?_⟩
  have long : maxMetadataBytes < (plainText (.object (paddedWhole 16376))).length := by
    rw [whole_length]
    decide
  have refused : Signed.detached (paddedLibraries 16376) zeroDigest (plainText (.object (paddedWhole 16376))) zeroDigest = .error .invalid := by
    rw [Signed.detached, rejectIf, if_pos long]
    rfl
  rw [← paddedWhole, refused]
  rfl

theorem receipt_verifies_sample :
    ∃ verified, (Signed.detached (paddedLibraries 3) zeroDigest (plainText (.object (paddedWhole 3))) zeroDigest >>=
      fun signed => signed.verify (paddedLibraries 3) sampleBoot) = .ok ⟨.object (paddedWhole 3), verified⟩ := by
  have short : (plainText (.object (paddedWhole 3))).length ≤ maxMetadataBytes := by
    rw [whole_length]
    decide
  refine (receipt_verifies (paddedLibraries_laws 3) (sample_signer 3) (sample_owner 3) (signs_padded (by decide)) (if_pos rfl)
    (padded_survives (by decide)) rfl).mpr short

end StogasVerifier.Receipt
