import StogasVerifier.Lib.Json

/-! JSON values as trees: induction over them, what occurs in them, and equality that takes
objects as maps from names to values. -/

namespace StogasVerifier.Lib.Json

@[elab_as_elim]
theorem tree_induction {motive : Json → Prop} (null : motive .null) (bool : ∀ value, motive (.bool value))
    (number : ∀ value, motive (.number value)) (string : ∀ text, motive (.string text))
    (array : ∀ items, (∀ item ∈ items, motive item) → motive (.array items))
    (object : ∀ entries : List (String × Json), (∀ entry ∈ entries, motive entry.2) → motive (.object entries)) (value : Json) :
    motive value :=
  match value with
  | .null => null
  | .bool value => bool value
  | .number value => number value
  | .string text => string text
  | .array items => array items fun item _ => tree_induction null bool number string array object item
  | .object entries => object entries fun entry _ => tree_induction null bool number string array object entry.2
termination_by sizeOf value
decreasing_by
  · have smaller := List.sizeOf_lt_of_mem ‹item ∈ items›
    simp only [Json.array.sizeOf_spec]
    omega
  · have smaller := List.sizeOf_lt_of_mem ‹entry ∈ entries›
    obtain ⟨name, child⟩ := entry
    simp only [Prod.mk.sizeOf_spec, Json.object.sizeOf_spec] at *
    omega

/-- The first value is the second or stands somewhere in it. -/
inductive Occurs (value : Json) : Json → Prop where
  | self : Occurs value value
  | item {items : List Json} {item : Json} (member : item ∈ items) (occurs : Occurs value item) : Occurs value (.array items)
  | entry {entries : List (String × Json)} {entry : String × Json} (member : entry ∈ entries) (occurs : Occurs value entry.2) :
      Occurs value (.object entries)

/-- Equality of values where the order of members does not count. -/
inductive Same : Json → Json → Prop where
  | null : Same .null .null
  | bool (value : Bool) : Same (.bool value) (.bool value)
  | number (value : Number) : Same (.number value) (.number value)
  | string (text : String) : Same (.string text) (.string text)
  | array {items others : List Json} (each : List.Forall₂ Same items others) : Same (.array items) (.array others)
  | object {entries others : List (String × Json)} (each : ∀ name, Option.Rel Same (entries.lookup name) (others.lookup name)) :
      Same (.object entries) (.object others)

/-- A value that some JSON text spells: names are not repeated, and a number is negative only
if it needs to be. -/
structure Regular (value : Json) : Prop where
  distinct : ∀ entries, Occurs (.object entries) value → (entries.map Prod.fst).Nodup
  negative : ∀ number, Occurs (.number (.negInt number)) value → -2 ^ 63 ≤ number ∧ number < 0

namespace Regular

theorem within {value whole : Json} (regular : Regular whole) (occurs : ∀ inner, Occurs inner value → Occurs inner whole) : Regular value :=
  ⟨fun entries found => regular.distinct entries (occurs _ found), fun number found => regular.negative number (occurs _ found)⟩

theorem item {items : List Json} {item : Json} (regular : Regular (.array items)) (member : item ∈ items) : Regular item :=
  regular.within fun _ occurs => .item member occurs

theorem entry {entries : List (String × Json)} {entry : String × Json} (regular : Regular (.object entries)) (member : entry ∈ entries) :
    Regular entry.2 :=
  regular.within fun _ occurs => .entry member occurs

theorem array {items : List Json} (each : ∀ item ∈ items, Regular item) : Regular (.array items) := by
  constructor
  · intro entries occurs
    cases occurs with
    | item member occurs => exact (each _ member).distinct entries occurs
  · intro number occurs
    cases occurs with
    | item member occurs => exact (each _ member).negative number occurs

theorem object {entries : List (String × Json)} (each : ∀ entry ∈ entries, Regular entry.2) (distinct : (entries.map Prod.fst).Nodup) :
    Regular (.object entries) := by
  constructor
  · intro others occurs
    cases occurs with
    | self => exact distinct
    | entry member occurs => exact (each _ member).distinct others occurs
  · intro number occurs
    cases occurs with
    | entry member occurs => exact (each _ member).negative number occurs

theorem leaf {value : Json} (single : ∀ inner, Occurs inner value → inner = value) (plain : ∀ entries, value ≠ .object entries)
    (sign : ∀ number, value = .number (.negInt number) → -2 ^ 63 ≤ number ∧ number < 0) : Regular value :=
  ⟨fun entries occurs => absurd (single _ occurs).symm (plain entries), fun number occurs => sign number (single _ occurs).symm⟩

end Regular

section Lookup
variable {α : Type*} {entries others : List (String × α)} {name : String}

theorem lookup_mem {value : α} (distinct : (entries.map Prod.fst).Nodup) : entries.lookup name = some value ↔ (name, value) ∈ entries := by
  rw [List.lookup_eq_some_iff]
  constructor
  · rintro ⟨before, after, rfl, -⟩
    exact List.mem_append_right _ (.head _)
  · intro member
    obtain ⟨before, after, rfl⟩ := List.append_of_mem member
    refine ⟨before, after, rfl, fun entry earlier => ?_⟩
    rw [List.map_append, List.map_cons] at distinct
    have apart := (List.nodup_append.mp distinct).2.2 entry.1 (List.mem_map_of_mem earlier) name (.head _)
    exact bne_iff_ne.mpr (Ne.symm apart)

theorem lookup_perm (moved : entries.Perm others) (distinct : (entries.map Prod.fst).Nodup) (name : String) :
    entries.lookup name = others.lookup name := by
  have also : (others.map Prod.fst).Nodup := (moved.map Prod.fst).nodup distinct
  refine Option.ext fun value => ?_
  rw [lookup_mem distinct, lookup_mem also, moved.mem_iff]

end Lookup

theorem lookup_same {entries others : List (String × Json)}
    (each : List.Forall₂ (fun first second => first.1 = second.1 ∧ Same first.2 second.2) entries others) (name : String) :
    Option.Rel Same (entries.lookup name) (others.lookup name) := by
  induction each with
  | nil => exact .none
  | @cons first second rest more head _ ih =>
    rw [List.lookup_cons, List.lookup_cons, head.1]
    cases name == second.1 with
    | true => exact .some head.2
    | false => exact ih

/-- Two orders of members in which they agree one by one. -/
theorem Same.moved {entries others left right : List (String × Json)} (first : left.Perm entries) (second : right.Perm others)
    (distinct : (entries.map Prod.fst).Nodup) (also : (others.map Prod.fst).Nodup)
    (each : List.Forall₂ (fun first second => first.1 = second.1 ∧ Same first.2 second.2) left right) :
    Same (.object entries) (.object others) := by
  refine .object fun name => ?_
  rw [lookup_perm first.symm distinct, lookup_perm second.symm also]
  exact lookup_same each name

end StogasVerifier.Lib.Json
