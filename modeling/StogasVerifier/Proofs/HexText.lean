import StogasVerifier.Evidence.Session
import StogasVerifier.Lib.Base64

/-! Hexadecimal text as it is written, and the checks and decoders that read it. -/

namespace StogasVerifier.Evidence
open Lib
open Sigstore (Bytes hexEncode hexDigit)

private structure DigitFacts (value : Nat) : Prop where
  read : hexValue (hexDigit value) = some value
  lower : ('0' ≤ hexDigit value ∧ hexDigit value ≤ '9') ∨ ('a' ≤ hexDigit value ∧ hexDigit value ≤ 'f')
  plain : (hexDigit value).toNat ≤ 127

private theorem digitFacts {value : Nat} (small : value < 16) : DigitFacts value := by
  interval_cases value <;> constructor <;> decide

theorem hexEncode_cons (byte : UInt8) (rest : Bytes) :
    (hexEncode (byte :: rest)).toList = hexDigit (byte.toNat / 16) :: hexDigit (byte.toNat % 16) :: (hexEncode rest).toList := by
  simp only [hexEncode, String.toList_ofList, List.flatMap_cons, List.cons_append, List.nil_append]

theorem hexEncode_length (bytes : Bytes) : (hexEncode bytes).toList.length = bytes.length * 2 := by
  induction bytes with
  | nil => rfl
  | cons byte rest ih =>
    rw [hexEncode_cons, List.length_cons, List.length_cons, ih, List.length_cons]
    omega

private theorem hexEncode_digits (bytes : Bytes) : ∀ char ∈ (hexEncode bytes).toList, ∃ value < 16, char = hexDigit value := by
  induction bytes with
  | nil => nofun
  | cons byte rest ih =>
    have small := byte.toNat_lt
    rw [hexEncode_cons]
    intro char member
    rcases List.mem_cons.mp member with rfl | later
    · exact ⟨byte.toNat / 16, by omega, rfl⟩
    · rcases List.mem_cons.mp later with rfl | later
      · exact ⟨byte.toNat % 16, by omega, rfl⟩
      · exact ih char later

theorem hexEncode_lower (bytes : Bytes) {char : Char} (member : char ∈ (hexEncode bytes).toList) :
    ('0' ≤ char ∧ char ≤ '9') ∨ ('a' ≤ char ∧ char ≤ 'f') := by
  obtain ⟨value, small, rfl⟩ := hexEncode_digits bytes char member
  exact (digitFacts small).lower

theorem hexEncode_ascii (bytes : Bytes) : Ascii (hexEncode bytes) := by
  intro char member
  obtain ⟨value, small, rfl⟩ := hexEncode_digits bytes char member
  exact Char.utf8Size_eq_one_iff.mpr (UInt32.le_iff_toNat_le.mpr (digitFacts small).plain)

theorem hexDecode_hexEncode (bytes : Bytes) : hexDecode (hexEncode bytes) = some bytes := by
  unfold hexDecode
  induction bytes with
  | nil => rfl
  | cons byte rest ih =>
    have small := byte.toNat_lt
    have high : byte.toNat / 16 < 16 := by omega
    have low : byte.toNat % 16 < 16 := by omega
    rw [hexEncode_cons, hexDecode.decodePairs, (digitFacts high).read, (digitFacts low).read, ih]
    simp only [Option.bind_eq_bind, Option.bind_some, Option.pure_def, Nat.div_add_mod, UInt8.ofNat_toNat]

theorem hexEncode_injective : Function.Injective hexEncode := by
  intro first second same
  have decoded := hexDecode_hexEncode first
  rw [same, hexDecode_hexEncode] at decoded
  exact (Option.some.inj decoded).symm

theorem isLowerHex_hexEncode {bytes : Bytes} {size : Nat} (fits : bytes.length = size) : isLowerHex (hexEncode bytes) size = true := by
  simp only [isLowerHex, (hexEncode_ascii bytes).size, hexEncode_length, fits, true_and, decide_eq_true_eq]
  refine List.all_eq_true.mpr fun char member => ?_
  rcases hexEncode_lower bytes member with digit | letter
  · rw [decide_eq_true digit, Bool.true_or]
  · rw [decide_eq_true letter, Bool.or_true]

theorem lowerHex_hexEncode {bytes : Bytes} {size : Nat} (fits : bytes.length = size) : lowerHex size (hexEncode bytes) = .ok bytes := by
  simp only [lowerHex, bind_ok, rejectIf_ok, required_ok, exists_unit, not_not]
  exact ⟨isLowerHex_hexEncode fits, hexDecode_hexEncode bytes⟩

end StogasVerifier.Evidence
