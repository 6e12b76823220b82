import StogasVerifier.Attestation.Evidence
import StogasVerifier.Proofs.BatchInclusion

/-! Session evidence has one byte representation, by itself and in a certificate. -/

namespace StogasVerifier.Attestation
open Lib Lib.Merkle

variable {H : Hashing 64}

namespace BatchProof

theorem flatten_chunksExact {count : Nat} {bytes : H.Bytes} (whole : bytes.length = 64 * count) :
    ((chunksExact count bytes).map List.Vector.toList).flatten = bytes := by
  induction count generalizing bytes with
  | zero =>
    rw [List.length_eq_zero_iff.mp whole]
    rfl
  | succ count ih =>
    have first : (bytes.take 64).length = 64 := by rw [List.length_take]; omega
    have rest : (bytes.drop 64).length = 64 * count := by rw [List.length_drop]; omega
    have joined : bytes.take 64 ++ ((chunksExact count (bytes.drop 64)).map List.Vector.toList).flatten = bytes := by
      rw [ih rest, List.take_append_drop]
    rw [chunksExact, dif_pos first]
    exact joined

theorem toBytes_fromBytes (exact : H.toOctets.Exact) {bytes : H.Bytes} {proof : BatchProof H} (decoded : fromBytes bytes = .ok proof) :
    proof.toBytes = bytes := by
  unfold fromBytes at decoded
  split at decoded
  · cases decoded
  next sized =>
    dsimp only at decoded
    split at decoded
    · cases decoded
    · split at decoded
      · cases decoded
      · cases decoded
        have front : (bytes.take 2).length = 2 := by rw [List.length_take]; omega
        have middle : ((bytes.drop 2).take 2).length = 2 := by rw [List.length_take, List.length_drop]; omega
        have rest : (bytes.drop 4).length = 64 * ((bytes.length - 4) / 64) := by rw [List.length_drop]; omega
        have count := exact.toBe_ofBe (bytes.take 2)
        have index := exact.toBe_ofBe ((bytes.drop 2).take 2)
        rw [front] at count
        rw [middle] at index
        simp only [toBytes, count, index, flatten_chunksExact rest]
        rw [List.append_assoc, ← List.drop_drop (i := 2) (j := 2), List.take_append_drop, List.take_append_drop]

end BatchProof

namespace SessionEvidence

theorem take_ok {input front rest : H.Bytes} {length : Nat} : take input length = .ok (front, rest) ↔ input = front ++ rest ∧ front.length = length :=
  required_ok.trans splitAtChecked_some

def field (bytes : H.Bytes) : H.Bytes := toBe H.toOctets 4 bytes.length ++ bytes

theorem takeField_ok (exact : H.toOctets.Exact) {input bytes rest : H.Bytes} :
    takeField input = .ok (bytes, rest) ↔ input = field bytes ++ rest ∧ bytes ≠ [] ∧ bytes.length < 2 ^ 32 := by
  constructor
  · intro parsed
    obtain ⟨⟨front, after⟩, split, parsed⟩ := bind_ok.mp parsed
    obtain ⟨_, filled, taken⟩ := bind_ok.mp parsed
    obtain ⟨rfl, width⟩ := take_ok.mp split
    obtain ⟨rfl, length⟩ := take_ok.mp taken
    have spelled := exact.toBe_ofBe front
    have small := exact.ofBe_lt front
    rw [width] at spelled small
    refine ⟨?_, ?_, ?_⟩
    · rw [field, length, spelled, List.append_assoc]
    · rintro rfl
      exact rejectIf_ok.mp filled length.symm
    · rw [length]
      exact small
  · rintro ⟨rfl, filled, small⟩
    have width : (toBe H.toOctets 4 bytes.length).length = 4 := toBe_length ..
    have read := ofBe_toBe H.toOctets 4 bytes.length small
    apply bind_ok.mpr
    refine ⟨(toBe H.toOctets 4 bytes.length, bytes ++ rest), take_ok.mpr ⟨List.append_assoc .., width⟩, ?_⟩
    simp only [read]
    apply bind_ok.mpr
    refine ⟨(), rejectIf_ok.mpr fun empty => filled (List.length_eq_zero_iff.mp empty), ?_⟩
    exact take_ok.mpr ⟨rfl, rfl⟩

def framed (evidence : SessionEvidence H) : H.Bytes :=
  evidence.report ++ toBe H.toOctets 2 evidence.proof.toBytes.length ++ evidence.proof.toBytes ++ field evidence.bootDocument ++
    field evidence.bootInclusion

structure Fits (evidence : SessionEvidence H) : Prop where
  report : evidence.report.length = reportBytes
  bootDocument : evidence.bootDocument ≠ []
  bootInclusion : evidence.bootInclusion ≠ []
  size : evidence.framed.length ≤ maxEvidenceBytes

variable {evidence : SessionEvidence H}

theorem framed_length (report : evidence.report.length = reportBytes) :
    evidence.framed.length = reportBytes + 2 + evidence.proof.toBytes.length + 4 + evidence.bootDocument.length + 4 +
      evidence.bootInclusion.length := by
  simp only [framed, field, List.length_append, toBe_length, report]
  omega

theorem encodeField_ok {bytes encoded : H.Bytes} : encodeField bytes = .ok encoded ↔ bytes.length < 2 ^ 32 ∧ field bytes = encoded := by
  simp only [encodeField, bind_ok, rejectIf_ok, exists_unit, pure_ok, Nat.not_le, field]

theorem encode_ok {payload : H.Bytes} :
    encode evidence.report evidence.proof evidence.bootDocument evidence.bootInclusion = .ok payload ↔
      evidence.Fits ∧ payload = evidence.framed := by
  simp only [encode, bind_ok, rejectIf_ok, exists_unit, pure_ok, encodeField_ok, not_or, not_not, Nat.not_lt, Nat.not_le]
  constructor
  · rintro ⟨⟨report, document, inclusion⟩, size, -, _, ⟨-, rfl⟩, _, ⟨-, rfl⟩, rfl⟩
    exact ⟨⟨report, document, inclusion, framed_length report ▸ size⟩, rfl⟩
  · rintro ⟨⟨report, document, inclusion, size⟩, rfl⟩
    rw [framed_length report, maxEvidenceBytes] at size
    refine ⟨⟨report, document, inclusion⟩, size, by omega, _, ⟨by omega, rfl⟩, _, ⟨by omega, rfl⟩, rfl⟩

private theorem two_bytes {proofLen : H.Bytes} (width : proofLen.length = 2) {high low : H.Symbol}
    (first : required proofLen[0]? Error.panic = .ok high) (second : required proofLen[1]? Error.panic = .ok low) :
    proofLen = [high, low] := by
  obtain ⟨one, two, rfl⟩ := List.length_eq_two.mp width
  cases required_ok.mp first
  cases required_ok.mp second
  rfl

theorem fromBytes_ok (exact : H.toOctets.Exact) {payload : H.Bytes} :
    fromBytes payload = .ok evidence ↔ evidence.proof.Sound ∧ evidence.Fits ∧ payload = evidence.framed := by
  constructor
  · intro parsed
    obtain ⟨_, size, parsed⟩ := bind_ok.mp parsed
    obtain ⟨⟨report, afterReport⟩, reportTaken, parsed⟩ := bind_ok.mp parsed
    obtain ⟨⟨proofLen, afterLen⟩, lenTaken, parsed⟩ := bind_ok.mp parsed
    obtain ⟨high, highRead, parsed⟩ := bind_ok.mp parsed
    obtain ⟨low, lowRead, parsed⟩ := bind_ok.mp parsed
    obtain ⟨⟨proof, afterProof⟩, proofTaken, parsed⟩ := bind_ok.mp parsed
    obtain ⟨decoded, decodes, parsed⟩ := bind_ok.mp parsed
    obtain ⟨⟨document, afterDocument⟩, documentTaken, parsed⟩ := bind_ok.mp parsed
    obtain ⟨⟨inclusion, afterInclusion⟩, inclusionTaken, parsed⟩ := bind_ok.mp parsed
    obtain ⟨_, ended, made⟩ := bind_ok.mp parsed
    cases pure_ok.mp made
    have decodes := mapError_ok.mp decodes
    obtain ⟨payload_eq, reportLength⟩ := take_ok.mp reportTaken
    obtain ⟨report_eq, width⟩ := take_ok.mp lenTaken
    obtain ⟨len_eq, proofLength⟩ := take_ok.mp proofTaken
    obtain ⟨proof_eq, documentFilled, -⟩ := (takeField_ok exact).mp documentTaken
    obtain ⟨document_eq, inclusionFilled, -⟩ := (takeField_ok exact).mp inclusionTaken
    have spelled : toBe H.toOctets 2 proof.length = proofLen := by
      rw [two_bytes width highRead lowRead, proofLength]
      exact exact.toBe_ofBe [high, low]
    have nothing : afterInclusion = [] := not_not.mp (rejectIf_ok.mp ended)
    have whole : payload = framed ⟨report, decoded, document, inclusion⟩ := by
      rw [framed, BatchProof.toBytes_fromBytes exact decodes, spelled, payload_eq, report_eq, len_eq, proof_eq, document_eq, nothing]
      simp only [List.append_assoc, List.append_nil]
    exact ⟨BatchProof.fromBytes_sound decodes,
      ⟨reportLength, documentFilled, inclusionFilled, whole ▸ Nat.not_lt.mp (rejectIf_ok.mp size)⟩, whole⟩
  · rintro ⟨sound, ⟨report, document, inclusion, size⟩, rfl⟩
    have small := size
    rw [framed_length report, maxEvidenceBytes] at small
    have width : (toBe H.toOctets 2 evidence.proof.toBytes.length).length = 2 := toBe_length ..
    obtain ⟨high, low, bytes⟩ := List.length_eq_two.mp width
    have spelled : ofBe H.toOctets [high, low] = evidence.proof.toBytes.length := by
      rw [← bytes]
      exact ofBe_toBe _ _ _ (by omega)
    let afterDocument := field evidence.bootInclusion
    let afterProof := field evidence.bootDocument ++ afterDocument
    let afterLen := evidence.proof.toBytes ++ afterProof
    refine bind_ok.mpr ⟨(), rejectIf_ok.mpr (Nat.not_lt.mpr size), ?_⟩
    refine bind_ok.mpr ⟨(evidence.report, [high, low] ++ afterLen), take_ok.mpr ⟨?_, report⟩, ?_⟩
    · rw [framed, bytes]
      simp only [afterLen, afterProof, afterDocument, List.append_assoc]
    refine bind_ok.mpr ⟨([high, low], afterLen), take_ok.mpr ⟨rfl, rfl⟩, ?_⟩
    refine bind_ok.mpr ⟨high, rfl, bind_ok.mpr ⟨low, rfl, ?_⟩⟩
    refine bind_ok.mpr ⟨(evidence.proof.toBytes, afterProof), take_ok.mpr ⟨rfl, spelled.symm⟩, ?_⟩
    refine bind_ok.mpr ⟨evidence.proof, mapError_ok.mpr sound.roundtrip, ?_⟩
    refine bind_ok.mpr ⟨(evidence.bootDocument, afterDocument), (takeField_ok exact).mpr ⟨rfl, document, by omega⟩, ?_⟩
    refine bind_ok.mpr ⟨(evidence.bootInclusion, []), (takeField_ok exact).mpr ⟨(List.append_nil _).symm, inclusion, by omega⟩, ?_⟩
    exact bind_ok.mpr ⟨(), rejectIf_ok.mpr (not_not.mpr rfl), rfl⟩

theorem take_avoids (input : H.Bytes) (length : Nat) : Avoids (take input length) .panic := Avoids.required nofun

theorem takeField_avoids (input : H.Bytes) : Avoids (takeField input) .panic := by
  refine Avoids.bind (take_avoids input 4) fun value _ => ?_
  refine Avoids.bind (Avoids.rejectIf (by nofun)) fun _ _ => ?_
  exact take_avoids _ _

/-- No index of `from_bytes` is out of range. -/
theorem fromBytes_avoids (payload : H.Bytes) : Avoids (fromBytes payload) .panic := by
  refine Avoids.bind (Avoids.rejectIf (by nofun)) fun _ _ => ?_
  refine Avoids.bind (take_avoids _ _) fun report _ => ?_
  refine Avoids.bind (take_avoids _ _) fun taken split => ?_
  obtain ⟨proofLen, after⟩ := taken
  have width : proofLen.length = 2 := (take_ok.mp split).2
  obtain ⟨high, low, rfl⟩ := List.length_eq_two.mp width
  refine Avoids.bind (Avoids.present rfl) fun _ _ => ?_
  refine Avoids.bind (Avoids.present rfl) fun _ _ => ?_
  refine Avoids.bind (take_avoids _ _) fun _ _ => ?_
  refine Avoids.bind (Avoids.mapError (by nofun)) fun _ _ => ?_
  refine Avoids.bind (takeField_avoids _) fun _ _ => ?_
  refine Avoids.bind (takeField_avoids _) fun _ _ => ?_
  refine Avoids.bind (Avoids.rejectIf (by nofun)) fun _ _ => ?_
  exact Avoids.ok _

theorem fromBytes_iff_encode (exact : H.toOctets.Exact) {payload : H.Bytes} :
    fromBytes payload = .ok evidence ↔ evidence.proof.Sound ∧
      encode evidence.report evidence.proof evidence.bootDocument evidence.bootInclusion = .ok payload :=
  (fromBytes_ok exact).trans (and_congr_right' encode_ok.symm)

end SessionEvidence

namespace Certificate
open SessionEvidence (maxEvidenceBytes)

theorem mediaType_length : (mediaType H).length = 36 := by
  rw [mediaType, text_length]
  decide

theorem headByte_eq : headByte H = .ok (recordHead H) := by
  rw [headByte, mediaType_length]
  rfl

def front (H : Hashing 64) : H.Bytes := recordHead H ++ mediaType H ++ [H.u8 0x59]

def framed (payload : H.Bytes) : H.Bytes :=
  let cmw := front H ++ toBe H.toOctets 2 payload.length ++ payload
  [H.u8 0x04, H.u8 0x82] ++ toBe H.toOctets 2 cmw.length ++ cmw

theorem size_ok {length : Nat} {bytes : H.Bytes} : size length = .ok bytes ↔ length < 2 ^ 16 ∧ toBe H.toOctets 2 length = bytes := by
  simp only [size, bind_ok, rejectIf_ok, exists_unit, pure_ok, Nat.not_le]

theorem front_length : (front H).length = 40 := by
  simp only [front, recordHead, List.length_append, List.length_cons, List.length_nil, mediaType_length]

theorem extension_ok {payload encoded : H.Bytes} :
    extension payload = .ok encoded ↔ payload.length ≤ maxEvidenceBytes ∧ encoded = framed payload := by
  simp only [extension, headByte_eq, ok_bind, bind_ok, rejectIf_ok, exists_unit, pure_ok, Nat.not_lt, size_ok]
  constructor
  · rintro ⟨size, _, ⟨-, rfl⟩, _, ⟨-, rfl⟩, rfl⟩
    exact ⟨size, rfl⟩
  · rintro ⟨size, rfl⟩
    have small := size
    rw [maxEvidenceBytes] at small
    refine ⟨size, _, ⟨by omega, rfl⟩, _, ⟨?_, rfl⟩, rfl⟩
    simp only [List.length_append, toBe_length, recordHead, List.length_cons, List.length_nil, mediaType_length]
    omega

theorem rejectsFront_false {cmw : H.Bytes} (passes : rejectsFront cmw = .ok false) : slice cmw 0 40 = some (front H) ∧ 42 ≤ cmw.length := by
  simp only [rejectsFront, headByte_eq, mediaType_length] at passes
  split at passes
  · cases passes
  next long =>
    obtain ⟨head, headRead, passes⟩ := bind_ok.mp passes
    rw [ok_bind] at passes
    split at passes
    · cases passes
    next head_eq =>
      obtain ⟨media, mediaRead, passes⟩ := bind_ok.mp passes
      split at passes
      · cases passes
      next media_eq =>
        obtain ⟨tag, tagRead, passes⟩ := bind_ok.mp passes
        have tag_eq : tag = H.u8 0x59 := by simpa using pure_ok.mp passes
        have joined := slice_append (slice_append (required_ok.mp headRead) (required_ok.mp mediaRead)) (slice_single (required_ok.mp tagRead))
        rw [not_not.mp head_eq, not_not.mp media_eq, tag_eq] at joined
        exact ⟨joined, by omega⟩

theorem rejectsFront_front {rest : H.Bytes} (long : 2 ≤ rest.length) : rejectsFront (front H ++ rest) = .ok false := by
  have length : (front H ++ rest).length = 40 + rest.length := by rw [List.length_append, front_length]
  have head : slice (front H ++ rest) 0 3 = some (recordHead H) := by
    have spelled : front H ++ rest = [] ++ recordHead H ++ (mediaType H ++ [H.u8 0x59] ++ rest) := by simp only [front, List.append_assoc, List.nil_append]
    rw [spelled]
    exact slice_middle rfl rfl
  have media : slice (front H ++ rest) 3 (3 + 36) = some (mediaType H) := by
    have spelled : front H ++ rest = recordHead H ++ mediaType H ++ ([H.u8 0x59] ++ rest) := by simp only [front, List.append_assoc]
    rw [spelled]
    exact slice_middle rfl (by rw [mediaType_length])
  have tag : (front H ++ rest)[3 + 36]? = some (H.u8 0x59) := by
    have place : 3 + 36 = (recordHead H ++ mediaType H).length := by rw [List.length_append, mediaType_length]; rfl
    rw [List.getElem?_append_left (by rw [front_length]; decide), front, place]
    exact List.getElem?_concat_length
  simp only [rejectsFront, headByte_eq, mediaType_length, head, media, tag, required, ok_bind]
  rw [if_neg (by omega), if_neg (not_not.mpr rfl), if_neg (not_not.mpr rfl)]
  exact congrArg Except.ok (decide_eq_false (not_not.mpr rfl))

private theorem two_spelled {length : Nat} (small : length < 2 ^ 16) :
    ∃ high low, toBe H.toOctets 2 length = [high, low] ∧ ofBe H.toOctets [high, low] = length := by
  obtain ⟨high, low, bytes⟩ := List.length_eq_two.mp (toBe_length H.toOctets 2 length)
  refine ⟨high, low, bytes, ?_⟩
  rw [← bytes]
  exact ofBe_toBe _ _ _ small

theorem fromRecord_front {payload : H.Bytes} (small : payload.length ≤ maxEvidenceBytes) :
    fromRecord (front H ++ toBe H.toOctets 2 payload.length ++ payload) = (SessionEvidence.fromBytes payload).mapError .evidence := by
  have bound := small
  rw [maxEvidenceBytes] at bound
  obtain ⟨high, low, bytes, size⟩ := @two_spelled H payload.length (by omega)
  rw [bytes]
  have place : (front H).length = 40 := front_length
  have length : (front H ++ [high, low] ++ payload).length = 42 + payload.length := by
    simp only [List.length_append, place, List.length_cons, List.length_nil]
  have passes : rejectsFront (front H ++ [high, low] ++ payload) = .ok false := by
    rw [List.append_assoc]
    exact rejectsFront_front (by rw [List.length_append]; exact Nat.le_add_right ..)
  have highRead : (front H ++ [high, low] ++ payload)[40]? = some high := by
    rw [List.append_assoc, List.getElem?_append_right (by omega), place]
    rfl
  have lowRead : (front H ++ [high, low] ++ payload)[41]? = some low := by
    rw [List.append_assoc, List.getElem?_append_right (by omega), place]
    rfl
  have rest : slice (front H ++ [high, low] ++ payload) (3 + 36 + 3) (42 + payload.length) = some payload :=
    slice_last (by rw [List.length_append, place]; rfl) length
  simp only [fromRecord, passes, mediaType_length, ok_bind, highRead, lowRead, rest, required, size, length, rejectIf]
  rw [if_neg Bool.false_ne_true, ok_bind, if_neg (by omega), ok_bind, if_neg (by omega), ok_bind, if_neg (by omega), ok_bind]

theorem fromExtension_framed {payload : H.Bytes} (small : payload.length ≤ maxEvidenceBytes) :
    fromExtension (framed payload) = (SessionEvidence.fromBytes payload).mapError .evidence := by
  have record := fromRecord_front small
  have length : (front H ++ toBe H.toOctets 2 payload.length ++ payload).length = 42 + payload.length := by
    simp only [List.length_append, front_length, toBe_length]
  rw [maxEvidenceBytes] at small
  obtain ⟨first, second, bytes, der⟩ := @two_spelled H (42 + payload.length) (by omega)
  simp only [framed, length, bytes]
  generalize front H ++ toBe H.toOctets 2 payload.length ++ payload = cmw at length record
  have whole : ([H.u8 0x04, H.u8 0x82] ++ [first, second] ++ cmw).length = 4 + cmw.length := by
    rw [List.length_append]
    rfl
  have tag : slice ([H.u8 0x04, H.u8 0x82] ++ [first, second] ++ cmw) 0 2 = some [H.u8 0x04, H.u8 0x82] := by
    rw [List.append_assoc]
    exact @slice_middle _ [] _ _ 0 2 rfl rfl
  have rest : slice ([H.u8 0x04, H.u8 0x82] ++ [first, second] ++ cmw) 4 (4 + (42 + payload.length)) = some cmw :=
    slice_last rfl (by rw [whole, length])
  have third : ([H.u8 0x04, H.u8 0x82] ++ [first, second] ++ cmw)[2]? = some first := rfl
  have fourth : ([H.u8 0x04, H.u8 0x82] ++ [first, second] ++ cmw)[3]? = some second := rfl
  simp only [fromExtension, mediaType_length, whole, tag, third, fourth, rest, required, ok_bind, rejectIf, der, length, maxEvidenceBytes]
  rw [if_neg (by omega), ok_bind, if_neg (by omega), ok_bind, if_neg (not_not.mpr rfl), ok_bind, if_neg (by omega), ok_bind, record]

theorem fromRecord_ok (exact : H.toOctets.Exact) {cmw : H.Bytes} {evidence : SessionEvidence H} (parsed : fromRecord cmw = .ok evidence) :
    ∃ payload, cmw = front H ++ toBe H.toOctets 2 payload.length ++ payload ∧ payload.length ≤ maxEvidenceBytes ∧
      SessionEvidence.fromBytes payload = .ok evidence := by
  simp only [fromRecord, mediaType_length] at parsed
  obtain ⟨rejects, frontRead, parsed⟩ := bind_ok.mp parsed
  obtain ⟨_, passes, parsed⟩ := bind_ok.mp parsed
  obtain ⟨high, highRead, parsed⟩ := bind_ok.mp parsed
  obtain ⟨low, lowRead, parsed⟩ := bind_ok.mp parsed
  obtain ⟨_, small, parsed⟩ := bind_ok.mp parsed
  obtain ⟨_, long, parsed⟩ := bind_ok.mp parsed
  obtain ⟨_, size, parsed⟩ := bind_ok.mp parsed
  obtain ⟨payload, payloadRead, decoded⟩ := bind_ok.mp parsed
  rw [Bool.eq_false_iff.mpr (rejectIf_ok.mp passes)] at frontRead
  have joined := slice_append (slice_append (slice_append (rejectsFront_false frontRead).1 (slice_single (required_ok.mp highRead)))
    (slice_single (required_ok.mp lowRead))) (required_ok.mp payloadRead)
  have whole : cmw = front H ++ [high] ++ [low] ++ payload := Option.some.inj ((slice_whole cmw).symm.trans joined)
  have length : cmw.length = 42 + payload.length := by
    rw [whole]
    simp only [List.length_append, front_length, List.length_singleton]
  have size : ofBe H.toOctets [high, low] = payload.length := by
    have held := not_not.mp (rejectIf_ok.mp size)
    omega
  refine ⟨payload, ?_, ?_, mapError_ok.mp decoded⟩
  · have spelled : toBe H.toOctets 2 (ofBe H.toOctets [high, low]) = [high, low] := exact.toBe_ofBe [high, low]
    rw [whole, ← size, spelled, List.append_assoc (front H) [high] [low]]
    rfl
  · rw [← size]
    exact Nat.not_lt.mp (rejectIf_ok.mp small)

theorem fromExtension_ok (exact : H.toOctets.Exact) {encoded : H.Bytes} {evidence : SessionEvidence H} :
    fromExtension encoded = .ok evidence ↔ ∃ payload, extension payload = .ok encoded ∧ SessionEvidence.fromBytes payload = .ok evidence := by
  constructor
  · intro parsed
    obtain ⟨_, -, parsed⟩ := bind_ok.mp parsed
    obtain ⟨_, -, parsed⟩ := bind_ok.mp parsed
    obtain ⟨tag, tagRead, parsed⟩ := bind_ok.mp parsed
    obtain ⟨_, tag_eq, parsed⟩ := bind_ok.mp parsed
    obtain ⟨first, firstRead, parsed⟩ := bind_ok.mp parsed
    obtain ⟨second, secondRead, parsed⟩ := bind_ok.mp parsed
    obtain ⟨_, der, parsed⟩ := bind_ok.mp parsed
    obtain ⟨cmw, cmwRead, parsed⟩ := bind_ok.mp parsed
    obtain ⟨payload, cmw_eq, small, decoded⟩ := fromRecord_ok exact parsed
    refine ⟨payload, extension_ok.mpr ⟨small, ?_⟩, decoded⟩
    have joined := slice_append (slice_append (slice_append (required_ok.mp tagRead) (slice_single (required_ok.mp firstRead)))
      (slice_single (required_ok.mp secondRead))) (required_ok.mp cmwRead)
    have whole : encoded = tag ++ [first] ++ [second] ++ cmw := Option.some.inj ((slice_whole encoded).symm.trans joined)
    rw [not_not.mp (rejectIf_ok.mp tag_eq)] at whole
    have length : encoded.length = 4 + cmw.length := by
      rw [whole]
      simp only [List.length_append, List.length_cons, List.length_nil]
    have size : ofBe H.toOctets [first, second] = cmw.length := by
      have held := not_not.mp (rejectIf_ok.mp der)
      omega
    have spelled : toBe H.toOctets 2 (ofBe H.toOctets [first, second]) = [first, second] := exact.toBe_ofBe [first, second]
    rw [framed, ← cmw_eq, ← size, spelled, whole, List.append_assoc _ [first] [second]]
    rfl
  · rintro ⟨payload, extended, decoded⟩
    obtain ⟨small, rfl⟩ := extension_ok.mp extended
    rw [fromExtension_framed small]
    exact mapError_ok.mpr decoded

private theorem slice_isSome {input : H.Bytes} {start finish : Nat} (ordered : start ≤ finish) (inside : finish ≤ input.length) :
    (slice input start finish).isSome := by
  rw [slice_some.mpr ⟨⟨ordered, inside⟩, rfl⟩]
  rfl

private theorem getElem_isSome {input : H.Bytes} {place : Nat} (inside : place < input.length) : input[place]?.isSome := by
  rw [List.getElem?_eq_getElem inside]
  rfl

theorem rejectsFront_avoids (cmw : H.Bytes) (bad : Error) : Avoids (rejectsFront cmw) bad := by
  simp only [rejectsFront, headByte_eq, mediaType_length, ok_bind]
  split
  · exact Avoids.ok _
  next long =>
    refine Avoids.bind (Avoids.present (slice_isSome (by omega) (by omega))) fun _ _ => ?_
    split
    · exact Avoids.ok _
    · refine Avoids.bind (Avoids.present (slice_isSome (by omega) (by omega))) fun _ _ => ?_
      split
      · exact Avoids.ok _
      · refine Avoids.bind (Avoids.present (getElem_isSome (by omega))) fun _ _ => ?_
        exact Avoids.ok _

def Panics (error : Error) : Prop := error = .panic ∨ error = .evidence .panic

private theorem other {reason bad : Error} (panics : Panics bad) (harmless : ¬ Panics reason) : reason ≠ bad := by
  rintro rfl
  exact harmless panics

private theorem harmless : ¬ Panics .extension ∧ ¬ Panics .tooLarge ∧ ¬ Panics .framing := by
  simp [Panics]

theorem fromRecord_avoids (cmw : H.Bytes) {bad : Error} (panics : Panics bad) : Avoids (fromRecord cmw) bad := by
  obtain ⟨extension, tooLarge, framing⟩ := harmless
  simp only [fromRecord, mediaType_length]
  refine Avoids.bind (rejectsFront_avoids cmw bad) fun rejects frontRead => ?_
  refine Avoids.bind (Avoids.rejectIf (other panics extension)) fun _ passes => ?_
  rw [Bool.eq_false_iff.mpr (rejectIf_ok.mp passes)] at frontRead
  have long := (rejectsFront_false frontRead).2
  refine Avoids.bind (Avoids.present (getElem_isSome (by omega))) fun _ _ => ?_
  refine Avoids.bind (Avoids.present (getElem_isSome (by omega))) fun _ _ => ?_
  refine Avoids.bind (Avoids.rejectIf (other panics tooLarge)) fun _ _ => ?_
  rw [rejectIf, if_neg (by omega), ok_bind]
  refine Avoids.bind (Avoids.rejectIf (other panics framing)) fun _ _ => ?_
  refine Avoids.bind (Avoids.present (slice_isSome (by omega) (Nat.le_refl _))) fun payload _ => ?_
  apply Avoids.mapError
  rintro reason failed rfl
  rcases panics with outer | inner
  · cases outer
  · cases inner
    exact SessionEvidence.fromBytes_avoids payload failed

/-- No slice or index of `from_extension` is out of range. -/
theorem fromExtension_avoids (encoded : H.Bytes) {bad : Error} (panics : Panics bad) : Avoids (fromExtension encoded) bad := by
  obtain ⟨extension, tooLarge, -⟩ := harmless
  refine Avoids.bind (Avoids.rejectIf (other panics tooLarge)) fun _ _ => ?_
  refine Avoids.bind (Avoids.rejectIf (other panics extension)) fun _ long => ?_
  have long := rejectIf_ok.mp long
  refine Avoids.bind (Avoids.present (slice_isSome (by omega) (by omega))) fun _ _ => ?_
  refine Avoids.bind (Avoids.rejectIf (other panics extension)) fun _ _ => ?_
  refine Avoids.bind (Avoids.present (getElem_isSome (by omega))) fun _ _ => ?_
  refine Avoids.bind (Avoids.present (getElem_isSome (by omega))) fun _ _ => ?_
  refine Avoids.bind (Avoids.rejectIf (other panics extension)) fun _ _ => ?_
  refine Avoids.bind (Avoids.present (slice_isSome (by omega) (Nat.le_refl _))) fun cmw _ => ?_
  exact fromRecord_avoids cmw panics

end Certificate
section
open SessionEvidence Certificate

variable {hash : List UInt8 → List.Vector UInt8 64}

/-- Evidence and its extension have one byte representation each, which the decoders
accept and the encoders make; and no input is out of range. -/
theorem evidence_canonical :
    (∀ (report bootDocument bootInclusion : List UInt8) (proof : BatchProof (.bytes hash)),
      report.length = reportBytes → (∃ bytes, BatchProof.fromBytes bytes = .ok proof) → bootDocument ≠ [] → bootInclusion ≠ [] →
      ((∃ payload, encode report proof bootDocument bootInclusion = .ok payload) ↔
        reportBytes + 2 + proof.toBytes.length + 4 + bootDocument.length + 4 + bootInclusion.length ≤ maxEvidenceBytes) ∧
      ∀ payload, encode report proof bootDocument bootInclusion = .ok payload →
        SessionEvidence.fromBytes payload = .ok ⟨report, proof, bootDocument, bootInclusion⟩) ∧
    (∀ (payload : List UInt8) (evidence : SessionEvidence (.bytes hash)), SessionEvidence.fromBytes payload = .ok evidence →
      encode evidence.report evidence.proof evidence.bootDocument evidence.bootInclusion = .ok payload) ∧
    (∀ payload : (Hashing.bytes hash).Bytes, ((∃ encoded, extension payload = .ok encoded) ↔ payload.length ≤ maxEvidenceBytes) ∧
      ∀ encoded, extension payload = .ok encoded → fromExtension encoded = (SessionEvidence.fromBytes payload).mapError .evidence) ∧
    (∀ (encoded : List UInt8) (evidence : SessionEvidence (.bytes hash)), fromExtension encoded = .ok evidence →
      ∃ payload, encode evidence.report evidence.proof evidence.bootDocument evidence.bootInclusion = .ok payload ∧
        extension payload = .ok encoded) ∧
    (∀ (payload other : List UInt8) (evidence : SessionEvidence (.bytes hash)),
      SessionEvidence.fromBytes payload = .ok evidence → SessionEvidence.fromBytes other = .ok evidence → payload = other) ∧
    (∀ (encoded other : List UInt8) (evidence : SessionEvidence (.bytes hash)),
      fromExtension encoded = .ok evidence → fromExtension other = .ok evidence → encoded = other) ∧
    ∀ bytes : (Hashing.bytes hash).Bytes, SessionEvidence.fromBytes bytes ≠ .error .panic ∧ fromExtension bytes ≠ .error .panic ∧
      fromExtension bytes ≠ .error (.evidence .panic) := by
  have exact := Hashing.bytes_exact hash
  have encodes : ∀ (payload : List UInt8) (evidence : SessionEvidence (.bytes hash)), SessionEvidence.fromBytes payload = .ok evidence →
      encode evidence.report evidence.proof evidence.bootDocument evidence.bootInclusion = .ok payload :=
    fun payload evidence decoded => ((fromBytes_iff_encode exact).mp decoded).2
  have one : ∀ (payload other : List UInt8) (evidence : SessionEvidence (.bytes hash)),
      SessionEvidence.fromBytes payload = .ok evidence → SessionEvidence.fromBytes other = .ok evidence → payload = other :=
    fun payload other evidence decoded again => Except.ok.inj ((encodes payload evidence decoded).symm.trans (encodes other evidence again))
  refine ⟨?_, encodes, ?_, ?_, one, ?_, ?_⟩
  · intro report bootDocument bootInclusion proof sized accepted document inclusion
    obtain ⟨bytes, accepted⟩ := accepted
    have sound := BatchProof.fromBytes_sound accepted
    let evidence : SessionEvidence (.bytes hash) := ⟨report, proof, bootDocument, bootInclusion⟩
    have length : evidence.framed.length = _ := framed_length sized
    constructor
    · constructor
      · rintro ⟨payload, encoded⟩
        exact length ▸ ((@encode_ok _ evidence payload).mp encoded).1.size
      · intro small
        exact ⟨evidence.framed, encode_ok.mpr ⟨⟨sized, document, inclusion, length ▸ small⟩, rfl⟩⟩
    · intro payload encoded
      exact (fromBytes_iff_encode exact).mpr ⟨sound, encoded⟩
  · intro payload
    refine ⟨⟨?_, fun small => ⟨framed payload, extension_ok.mpr ⟨small, rfl⟩⟩⟩, ?_⟩
    · rintro ⟨encoded, extended⟩
      exact (extension_ok.mp extended).1
    · intro encoded extended
      obtain ⟨small, rfl⟩ := extension_ok.mp extended
      exact fromExtension_framed small
  · intro encoded evidence accepted
    obtain ⟨payload, extended, decoded⟩ := (fromExtension_ok exact).mp accepted
    exact ⟨payload, encodes payload evidence decoded, extended⟩
  · intro encoded other evidence accepted again
    obtain ⟨payload, extended, decoded⟩ := (fromExtension_ok exact).mp accepted
    obtain ⟨second, secondExtended, secondDecoded⟩ := (fromExtension_ok exact).mp again
    rw [one payload second evidence decoded secondDecoded] at extended
    exact Except.ok.inj (extended.symm.trans secondExtended)
  · intro bytes
    exact ⟨fromBytes_avoids bytes, fromExtension_avoids bytes (.inl rfl), fromExtension_avoids bytes (.inr rfl)⟩

def zeroHash (_ : List UInt8) : List.Vector UInt8 64 := .replicate 64 0

def singleProof : BatchProof (.bytes zeroHash) := ⟨1, 0, []⟩

theorem singleProof_sound : singleProof.Sound := ⟨by decide, by decide, by simp [singleProof, sides]⟩

theorem evidence_canonical_single :
    ∃ payload : List UInt8, SessionEvidence.fromBytes payload =
      .ok ⟨List.replicate 1184 (0 : UInt8), singleProof, ([1] : List UInt8), ([2] : List UInt8)⟩ := by
  obtain ⟨succeeds, decodes⟩ := (@evidence_canonical zeroHash).1 (List.replicate 1184 0) [1] [2] singleProof
    List.length_replicate ⟨_, singleProof_sound.roundtrip⟩ (by decide) (by decide)
  obtain ⟨payload, encoded⟩ := succeeds.mpr (by decide)
  exact ⟨payload, decodes payload encoded⟩

end

end StogasVerifier.Attestation
