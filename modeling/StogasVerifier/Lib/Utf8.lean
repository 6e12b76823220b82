import Mathlib

/-! The bytes of a text. -/

namespace StogasVerifier.Lib

theorem toList_loop (bytes : ByteArray) (position : Nat) (read : List UInt8) :
    ByteArray.toList.loop bytes position read = read.reverse ++ bytes.data.toList.drop position := by
  fun_induction ByteArray.toList.loop bytes position read with
  | case1 position read inside ih =>
    have bound : position < bytes.data.toList.length := inside
    rw [ih, List.reverse_cons, List.append_assoc, List.singleton_append, List.drop_eq_getElem_cons bound]
    congr 2
    exact getElem!_pos bytes.data position inside
  | case2 position read outside =>
    rw [List.drop_of_length_le (Nat.not_lt.mp outside), List.append_nil]

theorem toList_data (bytes : ByteArray) : bytes.toList = bytes.data.toList := toList_loop bytes 0 []

theorem utf8_length (text : String) : text.toUTF8.toList.length = text.utf8ByteSize := by
  rw [toList_data]
  rfl

theorem utf8_append (first second : String) : (first ++ second).toUTF8.toList = first.toUTF8.toList ++ second.toUTF8.toList := by
  simp only [toList_data, String.toUTF8, String.toByteArray_append, ByteArray.data_append, Array.toList_append]

theorem utf8_injective : Function.Injective fun text : String => text.toUTF8.toList := by
  intro first second same
  simp only [toList_data] at same
  exact String.toByteArray_inj.mp (ByteArray.ext (Array.toList_inj.mp same))

theorem utf8_ascii {chars : List Char} (ascii : ∀ char ∈ chars, char.toNat ≤ 127) :
    (String.ofList chars).toUTF8.toList = chars.map fun char => UInt8.ofNat char.toNat := by
  rw [toList_data, String.toUTF8, String.toByteArray_ofList, List.utf8Encode, List.data_toByteArray, List.toList_toArray]
  induction chars with
  | nil => rfl
  | cons char rest ih =>
    have single : String.utf8EncodeChar char = [UInt8.ofNat char.toNat] := if_pos (ascii char (.head _))
    rw [List.flatMap_cons, single, ih fun other member => ascii other (.tail _ member)]
    rfl

end StogasVerifier.Lib
