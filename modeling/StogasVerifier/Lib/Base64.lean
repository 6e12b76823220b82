import Mathlib

/-! Base64 with the alphabet for URLs and without padding (RFC 4648, section 5), and what a
program may assume of a library for it. -/

namespace StogasVerifier.Lib

/-- One byte for every character. -/
def Ascii (text : String) : Prop := ∀ char ∈ text.toList, char.utf8Size = 1

theorem Ascii.size {text : String} (ascii : Ascii text) : text.utf8ByteSize = text.toList.length := by
  have narrow (chars : List Char) (single : ∀ char ∈ chars, char.utf8Size = 1) : String.utf8Len chars = chars.length := by
    induction chars with
    | nil => rfl
    | cons char rest ih =>
      rw [String.utf8Len_cons, ih fun next member => single next (.tail _ member), single char (.head _), List.length_cons]
  have whole : text.utf8ByteSize = String.utf8Len text.toList := by
    rw [← String.utf8ByteSize_ofList, String.ofList_toList]
  rw [whole, narrow _ ascii]

namespace Base64

def alphabet : List Char :=
  ['A', 'B', 'C', 'D', 'E', 'F', 'G', 'H', 'I', 'J', 'K', 'L', 'M', 'N', 'O', 'P', 'Q', 'R', 'S', 'T', 'U', 'V', 'W', 'X', 'Y', 'Z',
   'a', 'b', 'c', 'd', 'e', 'f', 'g', 'h', 'i', 'j', 'k', 'l', 'm', 'n', 'o', 'p', 'q', 'r', 's', 't', 'u', 'v', 'w', 'x', 'y', 'z',
   '0', '1', '2', '3', '4', '5', '6', '7', '8', '9', '-', '_']

def digit (value : Nat) : Char := alphabet.getD value 'A'

/-- The lowest digits of a number, the highest of them first. -/
def digits : Nat → Nat → List Char
  | 0, _ => []
  | count + 1, bits => digits count (bits / 64) ++ [digit (bits % 64)]

def number (chars : List Char) : Option Nat :=
  chars.foldlM (fun bits char => if char ∈ alphabet then some (64 * bits + alphabet.idxOf char) else none) 0

def encodeChars : List UInt8 → List Char
  | [] => []
  | [first] => digits 2 (first.toNat * 16)
  | [first, second] => digits 3 ((first.toNat * 256 + second.toNat) * 4)
  | first :: second :: third :: rest => digits 4 ((first.toNat * 256 + second.toNat) * 256 + third.toNat) ++ encodeChars rest

/-- Bits that no byte takes must be zero. -/
def decodeChars : List Char → Option (List UInt8)
  | [] => some []
  | [_] => none
  | [a, b] => do
    let bits ← number [a, b]
    if bits % 16 = 0 then return [UInt8.ofNat (bits / 16)] else none
  | [a, b, c] => do
    let bits ← number [a, b, c]
    if bits % 4 = 0 then return [UInt8.ofNat (bits / 1024), UInt8.ofNat (bits / 4 % 256)] else none
  | a :: b :: c :: d :: rest => do
    let bits ← number [a, b, c, d]
    let rest ← decodeChars rest
    return UInt8.ofNat (bits / 65536) :: UInt8.ofNat (bits / 256 % 256) :: UInt8.ofNat (bits % 256) :: rest

def encode (bytes : List UInt8) : String := String.ofList (encodeChars bytes)

def decode (text : String) : Except String (List UInt8) :=
  match decodeChars text.toList with
  | some bytes => .ok bytes
  | none => .error "invalid base64"

/-- What is assumed of a library. -/
structure Laws (encode : List UInt8 → String) (decode : String → Except String (List UInt8)) : Prop where
  decodes : ∀ bytes, decode (encode bytes) = .ok bytes
  letters : ∀ bytes, ∀ char ∈ (encode bytes).toList, char ∈ alphabet
  size : ∀ bytes, (encode bytes).toList.length = (bytes.length * 8 + 5) / 6

private structure AlphabetFacts : Prop where
  distinct : alphabet.Nodup
  size : alphabet.length = 64
  narrow : alphabet.all (·.toNat ≤ 127)

private theorem alphabetFacts : AlphabetFacts := by constructor <;> decide +kernel

theorem alphabet_narrow (char : Char) (known : char ∈ alphabet) : char.utf8Size = 1 := by
  have small := List.all_eq_true.mp alphabetFacts.narrow char known
  exact Char.utf8Size_eq_one_iff.mpr (UInt32.le_iff_toNat_le.mpr (of_decide_eq_true small))

theorem digit_known {value : Nat} (small : value < 64) : digit value ∈ alphabet ∧ alphabet.idxOf (digit value) = value := by
  have inside : value < alphabet.length := alphabetFacts.size ▸ small
  have same : digit value = alphabet[value] := List.getD_eq_getElem alphabet 'A' inside
  rw [same]
  exact ⟨List.getElem_mem inside, alphabetFacts.distinct.idxOf_getElem value inside⟩

theorem number_digits (count bits : Nat) (small : bits < 64 ^ count) : number (digits count bits) = some bits := by
  unfold number
  induction count generalizing bits with
  | zero =>
    obtain rfl : bits = 0 := Nat.lt_one_iff.mp small
    rfl
  | succ count ih =>
    have high : bits / 64 < 64 ^ count := Nat.div_lt_of_lt_mul (by rwa [Nat.pow_succ, Nat.mul_comm] at small)
    obtain ⟨known, low⟩ := digit_known (Nat.mod_lt bits (by decide : 0 < 64))
    rw [digits, List.foldlM_append, ih _ high]
    simp only [Option.bind_eq_bind, Option.bind_some, List.foldlM_cons, List.foldlM_nil, if_pos known, low, Option.pure_def, Nat.div_add_mod]

theorem digits_length (count bits : Nat) : (digits count bits).length = count := by
  induction count generalizing bits with
  | zero => rfl
  | succ count ih => rw [digits, List.length_append, ih, List.length_singleton]

theorem digits_known (count bits : Nat) : ∀ char ∈ digits count bits, char ∈ alphabet := by
  induction count generalizing bits with
  | zero => nofun
  | succ count ih =>
    intro char member
    rcases List.mem_append.mp member with high | low
    · exact ih _ char high
    · rw [List.mem_singleton.mp low]
      exact (digit_known (Nat.mod_lt _ (by decide))).1

theorem decode_encode (bytes : List UInt8) : decodeChars (encodeChars bytes) = some bytes := by
  fun_induction encodeChars bytes with
  | case1 => rfl
  | case2 first =>
    have small := first.toNat_lt
    have read := number_digits 2 (first.toNat * 16) (by omega)
    simp only [digits, List.nil_append, List.cons_append] at read ⊢
    rw [decodeChars, read]
    simp
  | case3 first second =>
    have small := first.toNat_lt
    have below := second.toNat_lt
    have read := number_digits 3 ((first.toNat * 256 + second.toNat) * 4) (by omega)
    have high : (first.toNat * 256 + second.toNat) * 4 / 1024 = first.toNat := by omega
    simp only [digits, List.nil_append, List.cons_append] at read ⊢
    rw [decodeChars, read]
    simp [high]
  | case4 first second third rest ih =>
    have small := first.toNat_lt
    have below := second.toNat_lt
    have least := third.toNat_lt
    have read := number_digits 4 ((first.toNat * 256 + second.toNat) * 256 + third.toNat) (by omega)
    have high : ((first.toNat * 256 + second.toNat) * 256 + third.toNat) / 65536 = first.toNat := by omega
    have middle : ((first.toNat * 256 + second.toNat) * 256 + third.toNat) / 256 % 256 = second.toNat := by omega
    have low : ((first.toNat * 256 + second.toNat) * 256 + third.toNat) % 256 = third.toNat := by omega
    simp only [digits, List.nil_append, List.cons_append] at read ⊢
    rw [decodeChars, read, ih]
    simp [high, middle, low]

theorem encodeChars_known (bytes : List UInt8) : ∀ char ∈ encodeChars bytes, char ∈ alphabet := by
  fun_induction encodeChars bytes with
  | case1 => nofun
  | case2 first => exact digits_known _ _
  | case3 first second => exact digits_known _ _
  | case4 first second third rest ih =>
    intro char member
    rcases List.mem_append.mp member with group | later
    · exact digits_known _ _ char group
    · exact ih char later

theorem encodeChars_length (bytes : List UInt8) : (encodeChars bytes).length = (bytes.length * 8 + 5) / 6 := by
  fun_induction encodeChars bytes with
  | case1 => rfl
  | case2 first => rw [digits_length, List.length_singleton]
  | case3 first second => rw [digits_length, List.length_cons, List.length_singleton]
  | case4 first second third rest ih =>
    rw [List.length_append, digits_length, ih]
    simp only [List.length_cons]
    omega

theorem laws : Laws encode decode := by
  constructor
  · intro bytes
    rw [decode, encode, String.toList_ofList, decode_encode]
  · intro bytes
    rw [encode, String.toList_ofList]
    exact encodeChars_known bytes
  · intro bytes
    rw [encode, String.toList_ofList]
    exact encodeChars_length bytes

namespace Laws
variable {encode : List UInt8 → String} {decode : String → Except String (List UInt8)}

theorem ascii (laws : Laws encode decode) (bytes : List UInt8) : Ascii (encode bytes) :=
  fun char member => alphabet_narrow char (laws.letters bytes char member)

theorem utf8ByteSize (laws : Laws encode decode) (bytes : List UInt8) : (encode bytes).utf8ByteSize = (bytes.length * 8 + 5) / 6 :=
  (laws.ascii bytes).size.trans (laws.size bytes)

end Laws
end Base64
end StogasVerifier.Lib
