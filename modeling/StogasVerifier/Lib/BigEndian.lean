import Mathlib

/-! Fixed-width big-endian numbers over an arbitrary alphabet of wire symbols.
Only the symbols that stand for octets matter to the encoding. -/

namespace StogasVerifier.Lib

structure Octets where
  Symbol : Type
  u8 : Nat → Symbol
  value : Symbol → Nat
  value_u8 : ∀ octet, octet < 256 → value (u8 octet) = octet

variable (octets : Octets)

/-- The `width` low octets of a number, most significant first. -/
def toBe : Nat → Nat → List octets.Symbol
  | 0, _ => []
  | width + 1, number => toBe width (number / 256) ++ [octets.u8 (number % 256)]

def ofBe (bytes : List octets.Symbol) : Nat :=
  bytes.foldl (fun total symbol => total * 256 + octets.value symbol) 0

@[simp]
theorem toBe_length (width number : Nat) : (toBe octets width number).length = width := by
  induction width generalizing number with
  | zero => rfl
  | succ width ih => simp [toBe, ih]

theorem ofBe_toBe (width number : Nat) (fits : number < 256 ^ width) : ofBe octets (toBe octets width number) = number := by
  induction width generalizing number with
  | zero => simp only [pow_zero, Nat.lt_one_iff] at fits; simp [toBe, ofBe, fits]
  | succ width ih =>
    have high := ih (number / 256) (by rw [pow_succ] at fits; omega)
    simp only [ofBe] at high
    simp only [toBe, ofBe, List.foldl_append, List.foldl_cons, List.foldl_nil, high,
      octets.value_u8 _ (Nat.mod_lt number (by decide : 0 < 256))]
    omega

theorem toBe_injective {width first second : Nat} (firstFits : first < 256 ^ width) (secondFits : second < 256 ^ width)
    (same : toBe octets width first = toBe octets width second) : first = second := by
  rw [← ofBe_toBe octets width first firstFits, same, ofBe_toBe octets width second secondFits]

structure Octets.Exact (octets : Octets) : Prop where
  below : ∀ symbol, octets.value symbol < 256
  u8_value : ∀ symbol, octets.u8 (octets.value symbol) = symbol

theorem ofBe_concat (front : List octets.Symbol) (last : octets.Symbol) :
    ofBe octets (front ++ [last]) = ofBe octets front * 256 + octets.value last := by
  rw [ofBe, List.foldl_append, ofBe]
  rfl

section
variable {octets}

theorem Octets.Exact.ofBe_lt (exact : octets.Exact) (bytes : List octets.Symbol) : ofBe octets bytes < 256 ^ bytes.length := by
  induction bytes using List.reverseRecOn with
  | nil => exact Nat.one_pos
  | append_singleton front last ih =>
    have small := exact.below last
    rw [ofBe_concat, List.length_append, List.length_singleton, pow_succ]
    omega

theorem Octets.Exact.toBe_ofBe (exact : octets.Exact) (bytes : List octets.Symbol) :
    toBe octets bytes.length (ofBe octets bytes) = bytes := by
  induction bytes using List.reverseRecOn with
  | nil => rfl
  | append_singleton front last ih =>
    have small := exact.below last
    have high : (ofBe octets front * 256 + octets.value last) / 256 = ofBe octets front := by omega
    have low : (ofBe octets front * 256 + octets.value last) % 256 = octets.value last := by omega
    rw [List.length_append, List.length_singleton, toBe, ofBe_concat, high, low, ih, exact.u8_value]

end

def text (literal : String) : List octets.Symbol := literal.toUTF8.toList.map fun octet => octets.u8 octet.toNat

private theorem length_loop (bytes : ByteArray) (index : Nat) (rest : List UInt8) :
    (ByteArray.toList.loop bytes index rest).length = bytes.size - index + rest.length := by
  fun_induction ByteArray.toList.loop bytes index rest with
  | case1 index rest more ih =>
    rw [ih, List.length_cons]
    omega
  | case2 index rest ended =>
    rw [List.length_reverse]
    omega

theorem text_length (literal : String) : (text octets literal).length = literal.utf8ByteSize := by
  rw [text, List.length_map, ByteArray.toList, length_loop]
  exact String.size_toByteArray

end StogasVerifier.Lib
