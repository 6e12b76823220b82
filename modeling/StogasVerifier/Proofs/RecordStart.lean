import StogasVerifier.Channel.Record
import StogasVerifier.Proofs.PeerSteps

/-! A start record opens under the secret it was sealed with. -/

namespace StogasVerifier.Channel
open Lib

variable {S : Suite}

namespace Records

variable {secret : S.Secret} {sessionId header content bytes : S.Bytes} {number : Nat} {direction : Direction} {kind : Kind}
  {records : Records S}

def startPrefix (header : S.Bytes) (size : Nat) : S.Bytes :=
  S.be 4 (recordOverhead + size + (2 + header.length)) ++ (S.be 2 header.length ++ header)

theorem startPrefix_length (header : S.Bytes) (size : Nat) : (startPrefix header size).length = header.length + 6 := by
  simp only [startPrefix, List.length_append, toBe_length]
  omega

theorem encode_start (encoded : S.Bytes) :
    (new secret sessionId number direction header).encode kind content = .ok encoded ↔
      (new secret sessionId number direction header).check kind content.length = .ok () ∧
      recordOverhead + content.length + (2 + header.length) ≤ maxRecordBytes ∧ header.length < 2 ^ 16 ∧
      encoded = startPrefix header content.length ++ (S.u8 kind.code :: content) := by
  have sequence : (new secret sessionId number direction header).sequence = 0 := rfl
  have held : (new secret sessionId number direction header).header = some header := rfl
  simp only [encode, bind_ok, pure_ok, reject_ok, sequence, held, if_true, Except.ok.injEq]
  constructor
  · rintro ⟨_, checked, _, same, _, fits, _, short, shape⟩
    subst same
    simp only [Option.elim_some] at fits short shape
    refine ⟨checked, by omega, by omega, ?_⟩
    rw [← shape, startPrefix]
    simp
  · rintro ⟨checked, fits, short, shape⟩
    refine ⟨(), checked, some header, rfl, (), by simp only [Option.elim_some]; omega, (), by
      simp only [Option.elim_some]; omega, ?_⟩
    rw [shape, startPrefix]
    simp

theorem prefixSize_start (width : header.length = headerBytes) (size : Nat) (rest : S.Bytes) (filled : rest ≠ []) :
    (new secret sessionId number direction header).prefixSize (startPrefix header size ++ rest) = .ok (header.length + 6) := by
  have lengths := startPrefix_length header size
  have positive := List.length_pos_iff.mpr filled
  have field : ((startPrefix header size ++ rest).drop 4).take 2 = S.be 2 header.length := by
    rw [startPrefix, List.append_assoc, List.drop_left' (toBe_length _ _ _), List.append_assoc,
      List.take_left' (toBe_length _ _ _)]
  have value : S.number (S.be 2 header.length) = header.length :=
    ofBe_toBe _ _ _ (by rw [width]; decide)
  have sequence : (new secret sessionId number direction header).sequence = 0 := rfl
  simp only [prefixSize, sequence, if_true, bind_ok, pure_ok, reject_ok, field, value]
  exact ⟨(), by rw [List.length_append]; omega, (), by rw [List.length_append]; omega, by omega⟩

def startKeys (secret : S.Secret) (sessionId : S.Bytes) (number : Nat) (direction : Direction) : S.Secret × S.Bytes × Keys S :=
  (Keys.new secret sessionId number direction).next 0

theorem sealing_start (width : header.length = headerBytes) :
    (new secret sessionId number direction header).sealing kind content = .ok (bytes, records) ↔
      (new secret sessionId number direction header).check kind content.length = .ok () ∧
      recordOverhead + content.length + (2 + header.length) ≤ maxRecordBytes ∧
      ∃ sealedBytes, S.encrypt (startKeys secret sessionId number direction).1 (nonce S 0)
          (startPrefix header content.length) (S.u8 kind.code :: content) = some sealedBytes ∧
        bytes = startPrefix header content.length ++ sealedBytes ∧
        records = advance { new secret sessionId number direction header with
          keys := some (startKeys secret sessionId number direction).2.2 } kind content.length := by
  have taken : (startPrefix header content.length ++ (S.u8 kind.code :: content)).take (header.length + 6) =
      startPrefix header content.length := List.take_left' (startPrefix_length _ _)
  have dropped : (startPrefix header content.length ++ (S.u8 kind.code :: content)).drop (header.length + 6) =
      S.u8 kind.code :: content := List.drop_left' (startPrefix_length _ _)
  have keyed : (new secret sessionId number direction header).nextKey = .ok ((startKeys secret sessionId number direction).1,
      nonce S 0, { new secret sessionId number direction header with
        keys := some (startKeys secret sessionId number direction).2.2 }) := rfl
  simp only [sealing, bind_ok, pure_ok, encode_start, Prod.mk.injEq]
  constructor
  · rintro ⟨encoded, ⟨checked, fits, _, shape⟩, offset, sized, output, found, cipher, encrypted, done⟩
    subst shape
    rw [prefixSize_start width _ _ (List.cons_ne_nil _ _)] at sized
    cases sized
    rw [keyed] at found
    cases found
    rw [taken, dropped] at encrypted
    rw [taken] at done
    unfold encryptNow at encrypted
    split at encrypted
    next sealedBytes success =>
      cases encrypted
      exact ⟨checked, fits, cipher, success, done.1.symm, done.2.symm⟩
    · cases encrypted
  · rintro ⟨checked, fits, sealedBytes, success, first, second⟩
    refine ⟨_, ⟨checked, fits, by rw [width]; decide, rfl⟩, header.length + 6,
      prefixSize_start width _ _ (List.cons_ne_nil _ _), _, keyed, sealedBytes, ?_, ?_, second.symm⟩
    · rw [taken, dropped, encryptNow, success]
    · rw [taken]
      exact first.symm

section Opened

variable (laws : S.Sealing) (width : header.length = headerBytes)
  (sent : (new secret sessionId number direction header).sealing kind content = .ok (bytes, records))
include laws width sent

theorem startHeader_sealing : startHeader bytes = .ok header := by
  obtain ⟨checked, fits, sealedBytes, encrypted, shape, -⟩ := (sealing_start width).mp sent
  have size := laws.length _ _ _ _ _ encrypted
  rw [List.length_cons] at size
  have lengths := startPrefix_length header content.length
  have total : bytes.length = recordOverhead + content.length + (2 + header.length) := by
    rw [shape, List.length_append, lengths, size, recordOverhead]
    omega
  have first : bytes.take 4 = S.be 4 (recordOverhead + content.length + (2 + header.length)) := by
    rw [shape, startPrefix, List.append_assoc, List.take_left' (toBe_length _ _ _)]
  have second : (bytes.drop 4).take 2 = S.be 2 header.length := by
    rw [shape, startPrefix, List.append_assoc, List.drop_left' (toBe_length _ _ _), List.append_assoc,
      List.take_left' (toBe_length _ _ _)]
  have third : (bytes.drop 6).take header.length = header := by
    have front : (S.be 4 (recordOverhead + content.length + (2 + header.length)) ++ S.be 2 header.length).length = 6 := by
      simp
    rw [shape, startPrefix, ← List.append_assoc, List.append_assoc _ header, List.drop_left' front, List.take_left' rfl]
  have announced : S.number (S.be 4 (recordOverhead + content.length + (2 + header.length))) =
      recordOverhead + content.length + (2 + header.length) :=
    ofBe_toBe _ _ _ (by simp only [maxRecordBytes] at fits; omega)
  have field : S.number (S.be 2 header.length) = header.length := ofBe_toBe _ _ _ (by rw [width]; decide)
  have enough : recordOverhead ≤ recordOverhead + content.length + (2 + header.length) := by omega
  have sized : recordSize (S.be 4 (recordOverhead + content.length + (2 + header.length))) = .ok bytes.length := by
    simp only [recordSize, bind_ok, pure_ok, reject_ok, toBe_length, announced, total]
    exact ⟨(), by simp, (), by omega, trivial⟩
  simp only [startHeader, bind_ok, pure_ok, reject_ok, first, second, field]
  refine ⟨(), ?_, bytes.length, sized, (), by simp, (), ?_, third⟩
  · rw [total, recordOverhead, ← width]
    omega
  · rw [total, recordOverhead, width]
    omega

theorem authenticateStart_sealing :
    ∃ incoming, authenticateStart secret sessionId number direction bytes = .ok (incoming, kind, content) := by
  have framed := startHeader_sealing laws width sent
  obtain ⟨checked, fits, sealedBytes, encrypted, shape, -⟩ := (sealing_start width).mp sent
  have size := laws.length _ _ _ _ _ encrypted
  rw [List.length_cons] at size
  have taken : bytes.take (header.length + 6) = startPrefix header content.length := by
    rw [shape, List.take_left' (startPrefix_length _ _)]
  have dropped : bytes.drop (header.length + 6) = sealedBytes := by
    rw [shape, List.drop_left' (startPrefix_length _ _)]
  have keyed : (fromKeys (Keys.new secret sessionId number direction) direction none).nextKey =
      .ok ((startKeys secret sessionId number direction).1, nonce S 0,
        fromKeys (startKeys secret sessionId number direction).2.2 direction none) := rfl
  have opened : decryptNow (startKeys secret sessionId number direction).1 (nonce S 0) (startPrefix header content.length)
      sealedBytes = .ok (S.u8 kind.code :: content) := by
    rw [decryptNow, if_neg (by omega), laws.opens _ _ _ _ _ encrypted]
  simp only [authenticateStart, bind_ok, framed, keyed, Except.ok.injEq]
  refine ⟨(fromKeys (startKeys secret sessionId number direction).2.2 direction none).advance kind content.length, header, rfl,
    _, rfl, S.u8 kind.code :: content, by rw [taken, dropped]; exact opened, ?_⟩
  simp only [acceptOpen, S.value_u8 _ kind.code_lt, Kind.tryFrom_code, bind_ok, pure_ok, Except.ok.injEq]
  exact ⟨kind, rfl, (), checked, rfl⟩

end Opened
end Records
end StogasVerifier.Channel
