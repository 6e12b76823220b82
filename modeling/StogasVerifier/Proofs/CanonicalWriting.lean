import StogasVerifier.Lib.Utf8
import StogasVerifier.Sigstore.StrictJson
import StogasVerifier.Sigstore.Tuf

/-! The canonical JSON of TUF determines the value that was written. -/

namespace StogasVerifier.Tuf
open Lib
open Sigstore (Bytes)

/-! ## What is written -/

def integer : Number → Option Int
  | .posInt value => some value.toNat
  | .negInt value => some value
  | .float _ => none

def Integral (value : Json) : Prop := ∀ number, (Json.number number).Occurs value → (integer number).isSome = true

section Integral

@[simp] theorem integral_null : Integral .null := fun _ => nofun
@[simp] theorem integral_bool (value : Bool) : Integral (.bool value) := fun _ => nofun
@[simp] theorem integral_string (text : String) : Integral (.string text) := fun _ => nofun

@[simp] theorem integral_number (number : Number) : Integral (.number number) ↔ (integer number).isSome = true := by
  constructor
  · exact fun integral => integral number .self
  · rintro some _ ⟨⟩
    exact some

@[simp] theorem integral_array (items : List Json) : Integral (.array items) ↔ ∀ item ∈ items, Integral item := by
  constructor
  · exact fun integral item member number occurs => integral number (.item member occurs)
  · intro each number occurs
    cases occurs with
    | item member occurs => exact each _ member number occurs

@[simp] theorem integral_object (entries : List (String × Json)) : Integral (.object entries) ↔ ∀ entry ∈ entries, Integral entry.2 := by
  constructor
  · exact fun integral entry member number occurs => integral number (.entry member occurs)
  · intro each number occurs
    cases occurs with
    | entry member occurs => exact each _ member number occurs

end Integral

def Member (entry : String × Json) (part : Bytes) : Prop :=
  ∃ bytes, writeCanonical entry.2 = .ok bytes ∧ part = writeString entry.1 ++ 58 :: bytes

theorem writeItems_eq (items : List Json) : writeItems items = items.map writeCanonical := by
  induction items with
  | nil => rw [writeItems, List.map_nil]
  | cons item items ih => rw [writeItems, ih, List.map_cons]

theorem writeEntries_eq (entries : List (String × Json)) :
    writeEntries entries = entries.map fun entry => (entry.1, writeCanonical entry.2) := by
  induction entries with
  | nil => rw [writeEntries, List.map_nil]
  | cons entry entries ih => rw [writeEntries, ih, List.map_cons]

variable {bytes : Bytes}

theorem writeCanonical_number {number : Number} (written : writeCanonical (.number number) = .ok bytes) :
    ∃ value, integer number = some value ∧ bytes = bytesOf value.repr := by
  cases number with
  | posInt value =>
    rw [writeCanonical] at written
    exact ⟨_, rfl, (Except.ok.inj written).symm⟩
  | negInt value =>
    rw [writeCanonical] at written
    exact ⟨_, rfl, (Except.ok.inj written).symm⟩
  | float bits =>
    rw [writeCanonical] at written
    cases written

theorem writeCanonical_array {items : List Json} : writeCanonical (.array items) = .ok bytes ↔
    ∃ parts, List.Forall₂ (fun item part => writeCanonical item = .ok part) items parts ∧ bytes = 91 :: ([44].intercalate parts ++ [93]) := by
  rw [writeCanonical, writeItems_eq]
  constructor
  · intro written
    obtain ⟨parts, each, written⟩ := bind_ok.mp written
    exact ⟨parts, (List.forall₂_map_left_iff).mp (mapM_ok.mp each), (pure_ok.mp written).symm⟩
  · rintro ⟨parts, each, rfl⟩
    exact bind_ok.mpr ⟨parts, mapM_ok.mpr (List.forall₂_map_left_iff.mpr each), rfl⟩

def sortedEntries (entries : List (String × Json)) : List (String × Json) :=
  entries.mergeSort fun left right => decide (left.1 ≤ right.1)

theorem writeCanonical_object {entries : List (String × Json)} : writeCanonical (.object entries) = .ok bytes ↔
    ∃ parts, List.Forall₂ Member (sortedEntries entries) parts ∧ bytes = 123 :: ([44].intercalate parts ++ [125]) := by
  have sorted : (writeEntries entries).mergeSort (fun left right => decide (left.1 ≤ right.1)) =
      (sortedEntries entries).map fun entry => (entry.1, writeCanonical entry.2) := by
    rw [writeEntries_eq, sortedEntries]
    refine (List.map_mergeSort ?_).symm
    exact fun _ _ _ _ => rfl
  have single (entry : String × Json) (part : Bytes) :
      (do return writeString entry.1 ++ [58] ++ (← writeCanonical entry.2) : Except String Bytes) = .ok part ↔ Member entry part := by
    constructor
    · intro written
      obtain ⟨bytes, value, written⟩ := bind_ok.mp written
      refine ⟨bytes, value, ?_⟩
      rw [← pure_ok.mp written, List.append_assoc]
      rfl
    · rintro ⟨bytes, value, rfl⟩
      refine bind_ok.mpr ⟨bytes, value, ?_⟩
      rw [List.append_assoc]
      rfl
  rw [writeCanonical, sorted]
  constructor
  · intro written
    obtain ⟨parts, each, written⟩ := bind_ok.mp written
    refine ⟨parts, ?_, (pure_ok.mp written).symm⟩
    exact (List.forall₂_map_left_iff.mp (mapM_ok.mp each)).imp fun entry part => (single entry part).mp
  · rintro ⟨parts, each, rfl⟩
    refine bind_ok.mpr ⟨parts, mapM_ok.mpr (List.forall₂_map_left_iff.mpr ?_), rfl⟩
    exact each.imp fun entry part => (single entry part).mpr

/-! ## Where a value ends -/

def Numeral (byte : UInt8) : Prop := byte = 45 ∨ 48 ≤ byte ∧ byte ≤ 57

def Delimits (rest : Bytes) : Prop := ∀ byte ∈ rest.head?, ¬ Numeral byte

variable {rest : Bytes}

theorem delimits_cons {byte : UInt8} (plain : ¬ Numeral byte) : Delimits (byte :: rest) := by
  rintro _ ⟨⟩
  exact plain

theorem repr_numeral (value : Int) : ∃ first rest, bytesOf value.repr = first :: rest ∧ ∀ byte ∈ bytesOf value.repr, Numeral byte := by
  have digit (number : Nat) (char : Char) (member : char ∈ Nat.toDigits 10 number) : 48 ≤ char.toNat ∧ char.toNat ≤ 57 := by
    have known := Nat.isDigit_of_mem_toDigits (by decide) (by decide) member
    simp only [Char.isDigit, Bool.and_eq_true, decide_eq_true_eq] at known
    exact ⟨UInt32.le_iff_toNat_le.mp known.1, UInt32.le_iff_toNat_le.mp known.2⟩
  have natural (number : Nat) : ∃ first rest, bytesOf number.repr = first :: rest ∧ ∀ byte ∈ bytesOf number.repr, Numeral byte := by
    have bytes : bytesOf number.repr = (Nat.toDigits 10 number).map fun char => UInt8.ofNat char.toNat := by
      rw [bytesOf, Nat.repr_eq_ofList_toDigits]
      exact utf8_ascii fun char member => by
        have := digit number char member
        omega
    obtain ⟨first, rest, whole⟩ := List.exists_cons_of_ne_nil (@Nat.toDigits_ne_nil number 10)
    refine ⟨UInt8.ofNat first.toNat, rest.map fun char => UInt8.ofNat char.toNat, by rw [bytes, whole]; rfl, fun byte member => ?_⟩
    rw [bytes] at member
    obtain ⟨char, known, rfl⟩ := List.mem_map.mp member
    obtain ⟨low, high⟩ := digit number char known
    have small : (UInt8.ofNat char.toNat).toNat = char.toNat := UInt8.toNat_ofNat_of_lt' (high.trans_lt (by decide))
    refine .inr ⟨UInt8.le_iff_toNat_le.mpr ?_, UInt8.le_iff_toNat_le.mpr ?_⟩
    · rw [small]
      exact low
    · rw [small]
      exact high
  cases value with
  | ofNat number => exact natural number
  | negSucc number =>
    have minus : bytesOf "-" = [45] := by decide +kernel
    have whole : bytesOf (Int.negSucc number).repr = 45 :: bytesOf number.succ.repr := by
      rw [Int.repr, bytesOf, utf8_append, ← bytesOf, minus]
      rfl
    obtain ⟨first, rest, tail, numeral⟩ := natural number.succ
    refine ⟨45, _, whole, fun byte member => ?_⟩
    rw [whole] at member
    rcases List.mem_cons.mp member with rfl | later
    · exact .inl rfl
    · exact numeral byte later

variable {left : Bytes}

theorem numeral_unique {digits others : Bytes} (numeral : ∀ byte ∈ digits, Numeral byte) (also : ∀ byte ∈ others, Numeral byte)
    (delimits : Delimits rest) (ends : Delimits left) (same : digits ++ rest = others ++ left) : digits = others ∧ rest = left := by
  induction digits generalizing others with
  | nil =>
    cases others with
    | nil => exact ⟨rfl, same⟩
    | cons byte others =>
      rw [List.nil_append] at same
      rw [same] at delimits
      exact absurd (also byte (.head _)) (delimits byte rfl)
  | cons byte digits ih =>
    cases others with
    | nil =>
      rw [List.nil_append] at same
      rw [← same] at ends
      exact absurd (numeral byte (.head _)) (ends byte rfl)
    | cons other others =>
      obtain ⟨rfl, tail⟩ := List.cons.inj same
      obtain ⟨rfl, rfl⟩ := ih (fun next member => numeral next (.tail _ member)) (fun next member => also next (.tail _ member)) tail
      exact ⟨rfl, rfl⟩

private def escape (byte : UInt8) : Bytes := if byte = 34 ∨ byte = 92 then [92, byte] else [byte]

private theorem escape_cases (byte : UInt8) : escape byte = [92, byte] ∧ (byte = 34 ∨ byte = 92) ∨ escape byte = [byte] ∧ byte ≠ 34 ∧ byte ≠ 92 := by
  unfold escape
  split_ifs with special
  · exact .inl ⟨rfl, special⟩
  · exact .inr ⟨rfl, not_or.mp special⟩

private theorem escape_ne_quote (byte : UInt8) (after before : Bytes) : escape byte ++ after ≠ 34 :: before := by
  rcases escape_cases byte with ⟨escaped, -⟩ | ⟨plain, quote, -⟩
  · rw [escaped]
    nofun
  · rw [plain]
    exact fun same => quote (List.cons.inj same).1

/-- A bare quotation mark ends a string. -/
theorem escaped_unique {text other : Bytes} (same : text.flatMap escape ++ 34 :: rest = other.flatMap escape ++ 34 :: left) :
    text = other ∧ rest = left := by
  induction text generalizing other with
  | nil =>
    cases other with
    | nil => exact ⟨rfl, (List.cons.inj same).2⟩
    | cons byte other =>
      rw [List.flatMap_cons, List.append_assoc] at same
      exact absurd same.symm (escape_ne_quote _ _ _)
  | cons byte text ih =>
    cases other with
    | nil =>
      rw [List.flatMap_cons, List.append_assoc] at same
      exact absurd same (escape_ne_quote _ _ _)
    | cons next other =>
      rw [List.flatMap_cons, List.flatMap_cons, List.append_assoc, List.append_assoc] at same
      have first : byte = next ∧ text.flatMap escape ++ 34 :: rest = other.flatMap escape ++ 34 :: left := by
        rcases escape_cases byte with ⟨escaped, -⟩ | ⟨plain, -, backslash⟩ <;>
          rcases escape_cases next with ⟨others, -⟩ | ⟨bare, -, slash⟩
        · rw [escaped, others] at same
          exact List.cons.inj (List.cons.inj same).2
        · rw [escaped, bare] at same
          exact absurd (List.cons.inj same).1.symm slash
        · rw [plain, others] at same
          exact absurd (List.cons.inj same).1 backslash
        · rw [plain, bare] at same
          exact List.cons.inj same
      obtain ⟨rfl, tail⟩ := first
      obtain ⟨rfl, rfl⟩ := ih tail
      exact ⟨rfl, rfl⟩

theorem writeString_unique {text other : String} (same : writeString text ++ rest = writeString other ++ left) :
    text = other ∧ rest = left := by
  have shape (text : String) (rest : Bytes) : writeString text ++ rest = 34 :: ((bytesOf text).flatMap escape ++ 34 :: rest) := by
    rw [writeString, List.append_assoc, List.append_assoc]
    rfl
  rw [shape, shape] at same
  obtain ⟨bytes, rfl⟩ := escaped_unique (List.cons.inj same).2
  exact ⟨utf8_injective bytes, rfl⟩

/-! ## Kinds of values -/

inductive Kind where
  | null | bool | number | string | array | object | other
  deriving DecidableEq

def kind : Json → Kind
  | .null => .null
  | .bool _ => .bool
  | .number _ => .number
  | .string _ => .string
  | .array _ => .array
  | .object _ => .object

def kindOf (byte : UInt8) : Kind :=
  if byte = 110 then .null
  else if byte = 116 ∨ byte = 102 then .bool
  else if byte = 45 ∨ 48 ≤ byte ∧ byte ≤ 57 then .number
  else if byte = 34 then .string
  else if byte = 91 then .array
  else if byte = 123 then .object
  else .other

theorem kindOf_numeral {byte : UInt8} (numeral : Numeral byte) : kindOf byte = .number := by
  have apart : byte ≠ 110 ∧ byte ≠ 116 ∧ byte ≠ 102 := by
    refine ⟨?_, ?_, ?_⟩ <;> rintro rfl <;> exact absurd numeral (by unfold Numeral; decide)
  rw [kindOf, if_neg apart.1, if_neg (not_or.mpr apart.2)]
  exact if_pos numeral

private theorem wordBytes : bytesOf "null" = [110, 117, 108, 108] ∧ bytesOf "true" = [116, 114, 117, 101] ∧
    bytesOf "false" = [102, 97, 108, 115, 101] := by decide +kernel

variable {value : Json}

theorem first_byte (written : writeCanonical value = .ok bytes) :
    ∃ first rest, bytes = first :: rest ∧ kindOf first = kind value := by
  obtain ⟨null, yes, no⟩ := wordBytes
  cases value with
  | null =>
    rw [writeCanonical, null] at written
    exact ⟨110, _, (Except.ok.inj written).symm, rfl⟩
  | bool value =>
    rw [writeCanonical] at written
    cases value with
    | true =>
      rw [if_pos rfl, yes] at written
      exact ⟨116, _, (Except.ok.inj written).symm, rfl⟩
    | false =>
      rw [if_neg Bool.false_ne_true, no] at written
      exact ⟨102, _, (Except.ok.inj written).symm, rfl⟩
  | number number =>
    obtain ⟨value, -, rfl⟩ := writeCanonical_number written
    obtain ⟨first, rest, whole, numeral⟩ := repr_numeral value
    exact ⟨first, rest, whole, kindOf_numeral (numeral first (whole ▸ .head _))⟩
  | string text =>
    rw [writeCanonical, writeString, List.append_assoc] at written
    exact ⟨34, _, (Except.ok.inj written).symm, rfl⟩
  | array items =>
    obtain ⟨parts, -, rfl⟩ := writeCanonical_array.mp written
    exact ⟨91, _, rfl, rfl⟩
  | object entries =>
    obtain ⟨parts, -, rfl⟩ := writeCanonical_object.mp written
    exact ⟨123, _, rfl, rfl⟩

theorem first_apart {close : UInt8} (written : writeCanonical value = .ok bytes) (closing : kindOf close = .other) :
    ∀ byte ∈ bytes.head?, byte ≠ close := by
  obtain ⟨first, rest, rfl, begins⟩ := first_byte written
  rintro _ ⟨⟩ rfl
  rw [closing] at begins
  cases value <;> cases begins

theorem kind_unique {other : Json} {more : Bytes} (written : writeCanonical value = .ok bytes)
    (also : writeCanonical other = .ok more) (same : bytes ++ rest = more ++ left) : kind value = kind other := by
  obtain ⟨first, tail, rfl, begins⟩ := first_byte written
  obtain ⟨second, after, rfl, starts⟩ := first_byte also
  rw [← begins, ← starts, (List.cons.inj same).1]

/-! ## Separated lists -/

section Separated
variable {α : Type} {write : α → Bytes → Prop} {same : α → α → Prop} {close : UInt8}

def Determined (write : α → Bytes → Prop) (same : α → α → Prop) (item : α) : Prop :=
  ∀ other part more rest left, write item part → write other more → part ++ rest = more ++ left → Delimits rest → Delimits left →
    same item other ∧ rest = left

private theorem later_delimits (plain : ¬ Numeral close) (parts : List Bytes) (rest : Bytes) :
    Delimits (parts.flatMap (44 :: ·) ++ close :: rest) := by
  cases parts with
  | nil => exact delimits_cons plain
  | cons part parts => exact delimits_cons (by unfold Numeral; decide)

private theorem later_unique (plain : ¬ Numeral close) (apart : close ≠ 44) {items others : List α} {parts more : List Bytes} {rest left : Bytes}
    (each : ∀ item ∈ items, Determined write same item) (written : List.Forall₂ write items parts) (also : List.Forall₂ write others more)
    (equal : parts.flatMap (44 :: ·) ++ close :: rest = more.flatMap (44 :: ·) ++ close :: left) :
    List.Forall₂ same items others ∧ rest = left := by
  induction written generalizing others more with
  | nil =>
    cases also with
    | nil => exact ⟨.nil, (List.cons.inj equal).2⟩
    | cons => exact absurd (List.cons.inj equal).1 apart
  | @cons item part items parts head _ ih =>
    cases also with
    | nil => exact absurd (List.cons.inj equal).1.symm apart
    | cons first later =>
      rw [List.flatMap_cons, List.flatMap_cons, List.append_assoc, List.append_assoc] at equal
      obtain ⟨one, tail⟩ := each item (.head _) _ _ _ _ _ head first (List.cons.inj equal).2 (later_delimits plain _ _)
        (later_delimits plain _ _)
      obtain ⟨rest, ends⟩ := ih (fun other member => each other (.tail _ member)) later tail
      exact ⟨.cons one rest, ends⟩

private theorem intercalate_cons (part : Bytes) (parts : List Bytes) : [44].intercalate (part :: parts) = part ++ parts.flatMap (44 :: ·) := by
  induction parts generalizing part with
  | nil => simp [List.intercalate]
  | cons next parts ih =>
    have step : [44].intercalate (part :: next :: parts) = part ++ 44 :: [44].intercalate (next :: parts) := by
      simp [List.intercalate]
    rw [step, ih, List.flatMap_cons]
    rfl

theorem separated_unique (plain : ¬ Numeral close) (apart : close ≠ 44) (begins : ∀ item part, write item part → ∀ byte ∈ part.head?, byte ≠ close)
    (nonempty : ∀ item part, write item part → part ≠ []) {items others : List α} {parts more : List Bytes} {rest left : Bytes}
    (each : ∀ item ∈ items, Determined write same item) (written : List.Forall₂ write items parts) (also : List.Forall₂ write others more)
    (equal : [44].intercalate parts ++ close :: rest = [44].intercalate more ++ close :: left) :
    List.Forall₂ same items others ∧ rest = left := by
  have clash {item : α} {part : Bytes} {parts : List Bytes} {rest left : Bytes} (head : write item part) :
      close :: rest ≠ [44].intercalate (part :: parts) ++ left := by
    intro equal
    rw [intercalate_cons, List.append_assoc] at equal
    obtain ⟨byte, tail, rfl⟩ := List.exists_cons_of_ne_nil (nonempty item part head)
    exact begins item _ head byte rfl (List.cons.inj equal).1.symm
  cases written with
  | nil =>
    cases also with
    | nil => exact ⟨.nil, (List.cons.inj equal).2⟩
    | cons first => exact absurd equal (clash first)
  | cons head tail =>
    cases also with
    | nil => exact absurd equal.symm (clash head)
    | cons first later =>
      rw [intercalate_cons, intercalate_cons, List.append_assoc, List.append_assoc] at equal
      obtain ⟨one, rest⟩ := each _ (.head _) _ _ _ _ _ head first equal (later_delimits plain _ _) (later_delimits plain _ _)
      obtain ⟨others, ends⟩ := later_unique plain apart (fun other member => each other (.tail _ member)) tail later rest
      exact ⟨.cons one others, ends⟩

end Separated

/-! ## Values -/

theorem integer_unique {number other : Number} {value : Int} (read : integer number = some value) (also : integer other = some value)
    (negative : ∀ value, number = .negInt value → value < 0) (sign : ∀ value, other = .negInt value → value < 0) : number = other := by
  cases number with
  | float => cases read
  | posInt natural =>
    cases other with
    | float => cases also
    | posInt second =>
      cases read
      exact congrArg _ (UInt64.toNat_inj.mp (Int.ofNat.inj (Option.some.inj also)).symm)
    | negInt second =>
      cases read
      have below := sign second rfl
      have equal : second = natural.toNat := Option.some.inj also
      omega
  | negInt first =>
    cases other with
    | float => cases also
    | posInt natural =>
      cases also
      have below := negative first rfl
      have equal : first = natural.toNat := Option.some.inj read
      omega
    | negInt second =>
      cases read
      cases also
      rfl

theorem items_unique {items others : List Json} {parts more : List Bytes} (regular : (Json.array items).Regular)
    (fits : (Json.array others).Regular)
    (each : ∀ item ∈ items, Determined (fun item part => item.Regular ∧ writeCanonical item = .ok part) Json.Same item)
    (written : List.Forall₂ (fun item part => writeCanonical item = .ok part) items parts)
    (also : List.Forall₂ (fun item part => writeCanonical item = .ok part) others more)
    (same : [44].intercalate parts ++ 93 :: rest = [44].intercalate more ++ 93 :: left) : List.Forall₂ Json.Same items others ∧ rest = left := by
  have plain : ¬ Numeral 93 := by
    unfold Numeral
    decide
  refine separated_unique plain (by decide) (fun item part wrote => first_apart wrote.2 rfl) ?_ each
    ((List.forall₂_and_left _ _).mpr ⟨fun item member => regular.item member, written⟩)
    ((List.forall₂_and_left _ _).mpr ⟨fun item member => fits.item member, also⟩) same
  rintro item _ ⟨-, wrote⟩ rfl
  obtain ⟨_, _, whole, -⟩ := first_byte wrote
  cases whole

theorem entries_unique {entries others : List (String × Json)} {parts more : List Bytes}
    (regular : ∀ entry ∈ entries, entry.2.Regular) (fits : ∀ entry ∈ others, entry.2.Regular)
    (each : ∀ entry ∈ entries, Determined (fun item part => item.Regular ∧ writeCanonical item = .ok part) Json.Same entry.2)
    (written : List.Forall₂ Member entries parts) (also : List.Forall₂ Member others more)
    (same : [44].intercalate parts ++ 125 :: rest = [44].intercalate more ++ 125 :: left) :
    List.Forall₂ (fun first second => first.1 = second.1 ∧ first.2.Same second.2) entries others ∧ rest = left := by
  have plain : ¬ Numeral 125 := by
    unfold Numeral
    decide
  have begins (entry : String × Json) (part : Bytes) (wrote : entry.2.Regular ∧ Member entry part) : ∃ tail, part = 34 :: tail := by
    obtain ⟨-, bytes, -, rfl⟩ := wrote
    exact ⟨_, by rw [writeString, List.append_assoc, List.append_assoc]; rfl⟩
  refine separated_unique plain (by decide) ?_ ?_ ?_ ((List.forall₂_and_left _ _).mpr ⟨regular, written⟩)
    ((List.forall₂_and_left _ _).mpr ⟨fits, also⟩) same
  · intro entry part wrote
    obtain ⟨tail, rfl⟩ := begins entry part wrote
    rintro _ ⟨⟩
    decide
  · intro entry part wrote
    obtain ⟨tail, rfl⟩ := begins entry part wrote
    exact List.cons_ne_nil _ _
  · rintro entry member second part more rest left ⟨inner, bytes, value, rfl⟩ ⟨outer, others, item, rfl⟩ same delimits ends
    rw [List.append_assoc, List.append_assoc] at same
    obtain ⟨name, tail⟩ := writeString_unique same
    obtain ⟨equal, last⟩ := each entry member _ _ _ _ _ ⟨inner, value⟩ ⟨outer, item⟩ (List.cons.inj tail).2 delimits ends
    exact ⟨⟨name, equal⟩, last⟩

/-- A value is determined by its text and any rest that no digit begins. -/
theorem writeCanonical_unique {other : Json} {more : Bytes} (regular : value.Regular) (fits : other.Regular)
    (written : writeCanonical value = .ok bytes) (also : writeCanonical other = .ok more) (same : bytes ++ rest = more ++ left)
    (delimits : Delimits rest) (ends : Delimits left) : value.Same other ∧ rest = left := by
  induction value using Json.tree_induction generalizing other bytes more rest left with
  | null =>
    have same_kind := kind_unique written also same
    cases other with
    | null =>
      rw [Except.ok.inj (written.symm.trans also)] at same
      exact ⟨.null, List.append_cancel_left same⟩
    | bool | number | string | array | object => cases same_kind
  | bool value =>
    have same_kind := kind_unique written also same
    cases other with
    | bool second =>
      obtain ⟨-, yes, no⟩ := wordBytes
      rw [writeCanonical] at written also
      have equal : value = second := by
        cases Except.ok.inj written
        cases Except.ok.inj also
        cases value with
        | true =>
          cases second with
          | true => rfl
          | false =>
            rw [if_pos rfl, if_neg Bool.false_ne_true, yes, no] at same
            cases (List.cons.inj same).1
        | false =>
          cases second with
          | true =>
            rw [if_pos rfl, if_neg Bool.false_ne_true, yes, no] at same
            cases (List.cons.inj same).1
          | false => rfl
      cases equal
      rw [Except.ok.inj (written.symm.trans also)] at same
      exact ⟨.bool value, List.append_cancel_left same⟩
    | null | number | string | array | object => cases same_kind
  | number number =>
    have same_kind := kind_unique written also same
    cases other with
    | number second =>
      obtain ⟨value, read, rfl⟩ := writeCanonical_number written
      obtain ⟨again, parsed, rfl⟩ := writeCanonical_number also
      obtain ⟨-, -, -, numeral⟩ := repr_numeral value
      obtain ⟨-, -, -, digits⟩ := repr_numeral again
      obtain ⟨equal, tail⟩ := numeral_unique numeral digits delimits ends same
      cases Int.repr_inj.mp (utf8_injective equal)
      have negative (value : Int) (shape : number = .negInt value) : value < 0 := (regular.negative value (shape ▸ .self)).2
      have sign (value : Int) (shape : second = .negInt value) : value < 0 := (fits.negative value (shape ▸ .self)).2
      cases integer_unique read parsed negative sign
      exact ⟨.number number, tail⟩
    | null | bool | string | array | object => cases same_kind
  | string text =>
    have same_kind := kind_unique written also same
    cases other with
    | string second =>
      rw [writeCanonical] at written also
      cases Except.ok.inj written
      cases Except.ok.inj also
      obtain ⟨rfl, rfl⟩ := writeString_unique same
      exact ⟨.string text, rfl⟩
    | null | bool | number | array | object => cases same_kind
  | array items ih =>
    have same_kind := kind_unique written also same
    cases other with
    | array others =>
      obtain ⟨parts, each, rfl⟩ := writeCanonical_array.mp written
      obtain ⟨second, written, rfl⟩ := writeCanonical_array.mp also
      rw [List.cons_append, List.cons_append, List.append_assoc, List.append_assoc] at same
      have inner := (List.cons.inj same).2
      obtain ⟨equal, tail⟩ := items_unique regular fits
        (fun item member other part more rest left wrote writes => ih item member wrote.1 writes.1 wrote.2 writes.2) each written inner
      exact ⟨.array equal, tail⟩
    | null | bool | number | string | object => cases same_kind
  | object entries ih =>
    have same_kind := kind_unique written also same
    cases other with
    | object others =>
      obtain ⟨parts, each, rfl⟩ := writeCanonical_object.mp written
      obtain ⟨second, written, rfl⟩ := writeCanonical_object.mp also
      rw [List.cons_append, List.cons_append, List.append_assoc, List.append_assoc] at same
      have inner := (List.cons.inj same).2
      have sorted (entries : List (String × Json)) : (sortedEntries entries).Perm entries := List.mergeSort_perm _ _
      obtain ⟨equal, tail⟩ := entries_unique (fun entry member => regular.entry ((sorted entries).mem_iff.mp member))
        (fun entry member => fits.entry ((sorted others).mem_iff.mp member))
        (fun entry member other part more rest left wrote writes =>
          ih entry ((sorted entries).mem_iff.mp member) wrote.1 writes.1 wrote.2 writes.2) each written inner
      exact ⟨.moved (sorted entries) (sorted others) (regular.distinct _ .self) (fits.distinct _ .self) equal, tail⟩
    | null | bool | number | string | array => cases same_kind

/-! ## What cannot be written -/

private theorem forall₂_exists {α β : Type} {related : α → β → Prop} {items : List α} :
    (∃ parts, List.Forall₂ related items parts) ↔ ∀ item ∈ items, ∃ part, related item part := by
  induction items with
  | nil => exact ⟨fun _ => nofun, fun _ => ⟨[], .nil⟩⟩
  | cons item items ih =>
    rw [List.forall_mem_cons, ← ih]
    constructor
    · rintro ⟨_, written⟩
      cases written with
      | cons head tail => exact ⟨⟨_, head⟩, _, tail⟩
    · rintro ⟨⟨part, head⟩, parts, tail⟩
      exact ⟨part :: parts, .cons head tail⟩

theorem writeCanonical_total (value : Json) : (∃ bytes, writeCanonical value = .ok bytes) ↔ Integral value := by
  induction value using Json.tree_induction with
  | null => exact ⟨fun _ => integral_null, fun _ => ⟨_, by rw [writeCanonical]⟩⟩
  | bool value => exact ⟨fun _ => integral_bool value, fun _ => ⟨_, by rw [writeCanonical]⟩⟩
  | string text => exact ⟨fun _ => integral_string text, fun _ => ⟨_, by rw [writeCanonical]⟩⟩
  | number number =>
    rw [integral_number]
    constructor
    · rintro ⟨bytes, written⟩
      obtain ⟨value, read, -⟩ := writeCanonical_number written
      rw [read]
      rfl
    · intro some
      cases number with
      | posInt value => exact ⟨_, by rw [writeCanonical]⟩
      | negInt value => exact ⟨_, by rw [writeCanonical]⟩
      | float bits => cases some
  | array items ih =>
    rw [integral_array, ← forall₂_congr ih, ← forall₂_exists]
    constructor
    · rintro ⟨_, written⟩
      obtain ⟨parts, each, -⟩ := writeCanonical_array.mp written
      exact ⟨parts, each⟩
    · rintro ⟨parts, each⟩
      exact ⟨_, writeCanonical_array.mpr ⟨parts, each, rfl⟩⟩
  | object entries ih =>
    have sorted : (sortedEntries entries).Perm entries := List.mergeSort_perm _ _
    have members : (∀ entry ∈ entries, ∃ bytes, writeCanonical entry.2 = .ok bytes) ↔ ∀ entry ∈ sortedEntries entries, ∃ part, Member entry part := by
      constructor
      · intro each entry member
        obtain ⟨bytes, written⟩ := each entry (sorted.mem_iff.mp member)
        exact ⟨_, bytes, written, rfl⟩
      · intro each entry member
        obtain ⟨_, bytes, written, -⟩ := each entry (sorted.mem_iff.mpr member)
        exact ⟨bytes, written⟩
    rw [integral_object, ← forall₂_congr ih, members, ← forall₂_exists]
    constructor
    · rintro ⟨_, written⟩
      obtain ⟨parts, each, -⟩ := writeCanonical_object.mp written
      exact ⟨parts, each⟩
    · rintro ⟨parts, each⟩
      exact ⟨_, writeCanonical_object.mpr ⟨parts, each, rfl⟩⟩

theorem writeCanonical_same {other : Json} (regular : value.Regular) (fits : other.Regular)
    (written : writeCanonical value = .ok bytes) (also : writeCanonical other = .ok bytes) : value.Same other := by
  have nothing : Delimits [] := nofun
  exact (writeCanonical_unique regular fits written also rfl nothing nothing).1

theorem parse_signed {L : Libraries} (strict : ∀ bytes value, L.strictJson bytes = .ok value → StrictJson.Accepts (L.tree value))
    {kind : String} {metadata : Metadata} (parsed : Metadata.parse L bytes kind = .ok metadata) :
    metadata.signed.Regular ∧ writeCanonical metadata.signed = .ok metadata.canonical := by
  simp only [Metadata.parse, bind_ok, mapError_ok, required_ok, rejectIf_ok, exists_unit, pure_ok] at parsed
  obtain ⟨value, read, signed, found, -, -, version, -, expires, -, entries, -, signatures, -, canonical, written, rfl⟩ := parsed
  refine ⟨?_, written⟩
  obtain ⟨calls, visited⟩ := strict bytes value read
  have regular := StrictJson.visit_regular visited
  obtain ⟨member, -⟩ := Option.filter_eq_some_iff.mp found
  cases tree : L.tree value with
  | object members =>
    rw [tree] at member regular
    obtain ⟨before, after, rfl, -⟩ := List.lookup_eq_some_iff.mp member
    exact @Json.Regular.entry _ ("signed", signed) regular (List.mem_append_right _ (.head _))
  | null | bool | number | string | array =>
    rw [tree] at member
    cases member

/-- Equal canonical bytes are of equal values, and nothing but other numbers than integers
cannot be written; so the bytes that are signed determine the metadata. -/
theorem canonical_injective :
    (∀ value other, StrictJson.Accepts value → StrictJson.Accepts other → Integral value → Integral other →
      writeCanonical value = writeCanonical other → value.Same other) ∧
    (∀ value, (∃ error, writeCanonical value = .error error) ↔ ∃ number, (Json.number number).Occurs value ∧ integer number = none) ∧
    ∀ L : Libraries, (∀ bytes value, L.strictJson bytes = .ok value → StrictJson.Accepts (L.tree value)) →
      ∀ first second kind other metadata later, Metadata.parse L first kind = .ok metadata → Metadata.parse L second other = .ok later →
        metadata.canonical = later.canonical → metadata.signed.Same later.signed := by
  refine ⟨?_, ?_, ?_⟩
  · rintro value other ⟨calls, visited⟩ ⟨again, visits⟩ integers - same
    obtain ⟨bytes, written⟩ := (writeCanonical_total value).mpr integers
    exact writeCanonical_same (StrictJson.visit_regular visited) (StrictJson.visit_regular visits) written (same ▸ written)
  · intro value
    have total := writeCanonical_total value
    cases written : writeCanonical value with
    | ok bytes =>
      have integers := total.mp ⟨bytes, written⟩
      constructor
      · rintro ⟨error, failed⟩
        cases failed
      · rintro ⟨number, occurs, none⟩
        have some := integers number occurs
        rw [none] at some
        cases some
    | error error =>
      refine ⟨fun _ => ?_, fun _ => ⟨error, rfl⟩⟩
      by_contra all
      obtain ⟨bytes, ok⟩ := total.mpr fun number occurs => Option.isSome_iff_ne_none.mpr fun none => all ⟨number, occurs, none⟩
      rw [written] at ok
      cases ok
  · intro L strict first second kind other metadata later parsed reads same
    obtain ⟨regular, written⟩ := parse_signed strict parsed
    obtain ⟨fits, also⟩ := parse_signed strict reads
    exact writeCanonical_same regular fits written (same ▸ also)

private def sampleEntries : List (String × Json) := [("b", .null), ("a", .number (.negInt (-7)))]

private theorem sample_sorted : sortedEntries sampleEntries.reverse = sortedEntries sampleEntries := by
  simp [sampleEntries, sortedEntries, List.mergeSort, List.MergeSort.Internal.splitInTwo]

private theorem sample_accepts : StrictJson.Accepts (.object sampleEntries) ∧ StrictJson.Accepts (.object sampleEntries.reverse) :=
  ⟨⟨.map [("b", .unit), ("a", .i64 (-7))], rfl⟩, ⟨.map [("a", .i64 (-7)), ("b", .unit)], rfl⟩⟩

private theorem sample_integral : Integral (.object sampleEntries) ∧ Integral (.object sampleEntries.reverse) := by
  simp [sampleEntries, integer]

/-- The order of members is lost, and nothing else. -/
theorem canonical_injective_reverse : (Json.object sampleEntries).Same (.object sampleEntries.reverse) := by
  obtain ⟨bytes, written⟩ := (writeCanonical_total _).mpr sample_integral.1
  have also : writeCanonical (.object sampleEntries.reverse) = .ok bytes := by
    rw [writeCanonical_object, sample_sorted]
    exact writeCanonical_object.mp written
  exact canonical_injective.1 _ _ sample_accepts.1 sample_accepts.2 sample_integral.1 sample_integral.2 (written.trans also.symm)

end StogasVerifier.Tuf
