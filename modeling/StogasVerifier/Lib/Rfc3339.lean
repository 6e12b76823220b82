import Mathlib

/-! Times in the format of RFC 3339, over the proleptic Gregorian calendar from year 0 on.
Texts of one shape are ordered as the times they spell. -/

namespace StogasVerifier.Lib

/-- Fields of one width are compared before what follows them. -/
theorem append_lt_append_iff {α : Type} [LinearOrder α] {front front' rest rest' : List α} (sized : front.length = front'.length) :
    front ++ rest < front' ++ rest' ↔ front < front' ∨ front = front' ∧ rest < rest' := by
  induction front generalizing front' with
  | nil =>
    cases List.length_eq_zero_iff.mp sized.symm
    simp
  | cons head tail ih =>
    cases front' with
    | nil => cases sized
    | cons head' tail' =>
      simp only [List.cons_append, List.cons_lt_cons_iff, ih (Nat.succ.inj sized), List.cons.injEq]
      tauto

theorem bytes_lt_iff {first second : List UInt8} : first < second ↔ first.map UInt8.toNat < second.map UInt8.toNat := by
  induction first generalizing second with
  | nil => cases second <;> simp
  | cons head tail ih =>
    cases second with
    | nil => simp
    | cons head' tail' => simp only [List.map_cons, List.cons_lt_cons_iff, ih, UInt8.lt_iff_toNat_lt, UInt8.toNat_inj]

/-- Intervals of a line in their order: a position is before another if its interval is, or if it
is the earlier one in the same interval. -/
theorem interval_lt_iff {start size : Nat → Nat} {first second within within' : Nat}
    (forth : first < second → start first + size first ≤ start second)
    (back : second < first → start second + size second ≤ start first)
    (inside : within < size first) (inside' : within' < size second) :
    start first + within < start second + within' ↔ first < second ∨ first = second ∧ within < within' := by
  rcases Nat.lt_trichotomy first second with before | rfl | after
  · have := forth before
    omega
  · omega
  · have := back after
    omega

theorem unit_lt_iff {size first second within within' : Nat} (inside : within < size) (inside' : within' < size) :
    size * first + within < size * second + within' ↔ first < second ∨ first = second ∧ within < within' := by
  apply @interval_lt_iff (size * ·) (fun _ => size)
  · exact fun before => Nat.mul_le_mul_left size before
  · exact fun after => Nat.mul_le_mul_left size after
  · exact inside
  · exact inside'

/-! ## Digits -/

section Digits
variable {α : Type} {digit : Nat → α} {width number number' : Nat}

def spell (digit : Nat → α) : Nat → Nat → List α
  | 0, _ => []
  | width + 1, number => spell digit width (number / 10) ++ [digit (number % 10)]

@[simp]
theorem spell_length : (spell digit width number).length = width := by
  induction width generalizing number with
  | zero => rfl
  | succ width ih => rw [spell, List.length_append, ih, List.length_singleton]

theorem spell_map {β : Type} (f : α → β) : (spell digit width number).map f = spell (f ∘ digit) width number := by
  induction width generalizing number with
  | zero => rfl
  | succ width ih => rw [spell, spell, List.map_append, ih, List.map_singleton, Function.comp_apply]

theorem mem_spell {symbol : α} (member : symbol ∈ spell digit width number) : ∃ value < 10, symbol = digit value := by
  induction width generalizing number with
  | zero => cases member
  | succ width ih =>
    rcases List.mem_append.mp member with earlier | last
    · exact ih earlier
    · exact ⟨number % 10, Nat.mod_lt _ (by decide), List.mem_singleton.mp last⟩

theorem spell_inj (digits : Set.InjOn digit (Set.Iio 10)) (fits : number < 10 ^ width) (fits' : number' < 10 ^ width)
    (same : spell digit width number = spell digit width number') : number = number' := by
  induction width generalizing number number' with
  | zero =>
    simp only [pow_zero] at fits fits'
    omega
  | succ width ih =>
    obtain ⟨fronts, lasts⟩ := List.append_inj same (by rw [spell_length, spell_length])
    have quotients := ih (by omega) (by omega) fronts
    have remainders := digits (Nat.mod_lt _ (by decide)) (Nat.mod_lt _ (by decide)) (List.singleton_inj.mp lasts)
    omega

theorem spell_lt_iff [LinearOrder α] (digits : StrictMonoOn digit (Set.Iio 10)) (fits : number < 10 ^ width) (fits' : number' < 10 ^ width) :
    spell digit width number < spell digit width number' ↔ number < number' := by
  induction width generalizing number number' with
  | zero =>
    simp only [pow_zero] at fits fits'
    simp only [spell, lt_self_iff_false, false_iff]
    omega
  | succ width ih =>
    have equal : spell digit width (number / 10) = spell digit width (number' / 10) ↔ number / 10 = number' / 10 :=
      ⟨spell_inj digits.injOn (by omega) (by omega), congrArg _⟩
    rw [spell, spell, append_lt_append_iff (by rw [spell_length, spell_length]), ih (by omega) (by omega), equal, List.cons_lt_cons_iff,
      digits.lt_iff_lt (Nat.mod_lt _ (by decide)) (Nat.mod_lt _ (by decide))]
    simp only [lt_self_iff_false, and_false, or_false]
    omega

theorem field_lt_iff [LinearOrder α] (digits : StrictMonoOn digit (Set.Iio 10)) (fits : number < 10 ^ width) (fits' : number' < 10 ^ width)
    {symbol : α} {rest rest' : List α} :
    spell digit width number ++ symbol :: rest < spell digit width number' ++ symbol :: rest' ↔
      number < number' ∨ number = number' ∧ rest < rest' := by
  have equal : spell digit width number = spell digit width number' ↔ number = number' :=
    ⟨spell_inj digits.injOn fits fits', congrArg _⟩
  rw [append_lt_append_iff (by rw [spell_length, spell_length]), spell_lt_iff digits fits fits', equal, List.cons_lt_cons_iff]
  simp only [lt_self_iff_false, true_and, false_or]

end Digits

namespace Rfc3339

/-! ## The calendar -/

def leap (year : Nat) : Bool := year % 4 = 0 ∧ (year % 100 ≠ 0 ∨ year % 400 = 0)

def yearDays (year : Nat) : Nat := if leap year then 366 else 365

def monthDays (year month : Nat) : Nat :=
  if month = 2 then if leap year then 29 else 28
  else if month = 4 ∨ month = 6 ∨ month = 9 ∨ month = 11 then 30
  else 31

def daysBeforeYear : Nat → Nat
  | 0 => 0
  | year + 1 => daysBeforeYear year + yearDays year

def daysBeforeMonth (year : Nat) : Nat → Nat
  | 0 => 0
  | 1 => 0
  | month + 2 => daysBeforeMonth year (month + 1) + monthDays year (month + 1)

theorem daysBeforeYear_disjoint {first second : Nat} (before : first < second) :
    daysBeforeYear first + yearDays first ≤ daysBeforeYear second := by
  induction second with
  | zero => cases before
  | succ second ih =>
    rw [daysBeforeYear]
    rcases Nat.lt_succ_iff_lt_or_eq.mp before with earlier | rfl
    · have := ih earlier
      omega
    · exact Nat.le_refl _

theorem daysBeforeMonth_disjoint {year first second : Nat} (real : 1 ≤ first) (before : first < second) :
    daysBeforeMonth year first + monthDays year first ≤ daysBeforeMonth year second := by
  induction second with
  | zero => cases before
  | succ second ih =>
    obtain ⟨second, rfl⟩ : ∃ month, second = month + 1 := ⟨second - 1, by omega⟩
    rw [daysBeforeMonth]
    rcases Nat.lt_succ_iff_lt_or_eq.mp before with earlier | rfl
    · have := ih earlier
      omega
    · exact Nat.le_refl _

theorem daysBeforeMonth_year (year : Nat) : daysBeforeMonth year 13 = yearDays year := by
  simp only [daysBeforeMonth, monthDays, yearDays]
  cases leap year <;> rfl

/-! ## Times -/

inductive Zone where
  | utc
  | east (hours minutes : Nat)
  | west (hours minutes : Nat)

structure Time where
  year : Nat
  month : Nat
  day : Nat
  hour : Nat
  minute : Nat
  second : Nat
  fraction : Option (List Nat)
  zone : Zone

namespace Zone

def offsetSeconds : Zone → Int
  | utc => 0
  | east hours minutes => 3600 * hours + 60 * minutes
  | west hours minutes => -(3600 * hours + 60 * minutes)

/-- The spellings of an offset. A true minus sign is read as well as a hyphen. -/
inductive Spells : Zone → List Char → Prop where
  | utc {letter : Char} (known : letter ∈ ['Z', 'z']) : Spells utc [letter]
  | east (hours minutes : Nat) :
      Spells (east hours minutes) ('+' :: (spell Nat.digitChar 2 hours ++ ':' :: spell Nat.digitChar 2 minutes))
  | west {sign : Char} (known : sign ∈ ['-', '−']) (hours minutes : Nat) :
      Spells (west hours minutes) (sign :: (spell Nat.digitChar 2 hours ++ ':' :: spell Nat.digitChar 2 minutes))

end Zone

namespace Time

/-- A second numbered 60 is a leap second. -/
structure Valid (time : Time) : Prop where
  year : time.year < 10000
  month : 1 ≤ time.month ∧ time.month ≤ 12
  day : 1 ≤ time.day ∧ time.day ≤ monthDays time.year time.month
  hour : time.hour < 24
  minute : time.minute < 60
  second : time.second ≤ 60

def shape {α : Type} (digit : Nat → α) (dash separator colon : α) (time : Time) (rest : List α) : List α :=
  spell digit 4 time.year ++ dash :: (spell digit 2 time.month ++ dash :: (spell digit 2 time.day ++ separator ::
    (spell digit 2 time.hour ++ colon :: (spell digit 2 time.minute ++ colon :: (spell digit 2 time.second ++ rest)))))

def fractionChars : Option (List Nat) → List Char
  | none => []
  | some digits => '.' :: digits.map Nat.digitChar

/-- Lower case letters and a space between the date and the time are read too. -/
def Spells (time : Time) (text : String) : Prop :=
  ∃ separator ∈ ['T', 't', ' '], ∃ zone, time.zone.Spells zone ∧
    text.toList = time.shape Nat.digitChar '-' separator ':' (fractionChars time.fraction ++ zone)

/-- `%Y-%m-%dT%H:%M:%SZ`, which prints the local time. -/
def formatted (time : Time) : String := String.ofList (time.shape Nat.digitChar '-' 'T' ':' ['Z'])

def localSeconds (time : Time) : Nat :=
  86400 * (daysBeforeYear time.year + (daysBeforeMonth time.year time.month + (time.day - 1))) +
    (3600 * time.hour + (60 * time.minute + min time.second 59))

def fractionNanos : Option (List Nat) → Nat
  | none => 0
  | some digits => Nat.ofDigits 10 (digits ++ List.replicate 9 0 |>.take 9).reverse

def subsecNanos (time : Time) : Nat := fractionNanos time.fraction + if time.second = 60 then 10 ^ 9 else 0

/-- Seconds since 1970, which is 719,528 days after the start of year 0. -/
def unixSeconds (time : Time) : Int := time.localSeconds - 86400 * 719528 - time.zone.offsetSeconds

def unixMillis (time : Time) : Int := 1000 * time.unixSeconds + time.subsecNanos / 10 ^ 6

/-- The order of the fields, from the year down. -/
def Before (first second : Time) : Prop :=
  first.year < second.year ∨ first.year = second.year ∧ (first.month < second.month ∨ first.month = second.month ∧
    (first.day < second.day ∨ first.day = second.day ∧ (first.hour < second.hour ∨ first.hour = second.hour ∧
      (first.minute < second.minute ∨ first.minute = second.minute ∧ first.second < second.second))))

variable {first second : Time}

theorem shape_map {α β : Type} (f : α → β) (digit : Nat → α) (dash separator colon : α) (time : Time) (rest : List α) :
    (time.shape digit dash separator colon rest).map f =
      time.shape (f ∘ digit) (f dash) (f separator) (f colon) (rest.map f) := by
  simp only [shape, List.map_append, List.map_cons, spell_map]

theorem shape_inj {α : Type} {digit : Nat → α} {dash separator separator' colon : α} {time : Time} {rest rest' : List α}
    (same : time.shape digit dash separator colon rest = time.shape digit dash separator' colon rest') :
    separator = separator' ∧ rest = rest' := by
  simpa only [shape, List.append_cancel_left_eq, List.cons.injEq, true_and] using same

theorem mem_shape {α : Type} {digit : Nat → α} {dash separator colon symbol : α} {time : Time} {rest : List α}
    (member : symbol ∈ time.shape digit dash separator colon rest) :
    (∃ value < 10, symbol = digit value) ∨ symbol = dash ∨ symbol = separator ∨ symbol = colon ∨ symbol ∈ rest := by
  simp only [shape, List.mem_append, List.mem_cons] at member
  rcases member with field | dash | field | dash | field | separator | field | colon | field | colon | field | rest
  all_goals first | exact .inl (mem_spell field) | tauto

theorem shape_lt_iff {α : Type} [LinearOrder α] {digit : Nat → α} (digits : StrictMonoOn digit (Set.Iio 10)) (valid : first.Valid)
    (valid' : second.Valid) (dash separator colon last : α) :
    first.shape digit dash separator colon [last] < second.shape digit dash separator colon [last] ↔ first.Before second := by
  have days (time : Time) (valid : time.Valid) : time.day < 10 ^ 2 := by
    have bound := valid.day.2
    unfold monthDays at bound
    split_ifs at bound <;> omega
  have small (time : Time) (valid : time.Valid) : time.month < 10 ^ 2 ∧ time.hour < 10 ^ 2 ∧ time.minute < 10 ^ 2 ∧ time.second < 10 ^ 2 := by
    have := valid.month
    have := valid.hour
    have := valid.minute
    have := valid.second
    omega
  obtain ⟨month, hour, minute, secondFits⟩ := small first valid
  obtain ⟨month', hour', minute', secondFits'⟩ := small second valid'
  rw [shape, shape, field_lt_iff digits valid.year valid'.year, field_lt_iff digits month month',
    field_lt_iff digits (days first valid) (days second valid'), field_lt_iff digits hour hour', field_lt_iff digits minute minute',
    field_lt_iff digits secondFits secondFits', Before]
  simp only [lt_self_iff_false, and_false, or_false]

/-- Times without a leap second are ordered as their seconds are. -/
theorem localSeconds_lt_iff (valid : first.Valid) (valid' : second.Valid) (plain : first.second < 60) (plain' : second.second < 60) :
    first.localSeconds < second.localSeconds ↔ first.Before second := by
  have clock (time : Time) (valid : time.Valid) (plain : time.second < 60) :
      60 * time.minute + time.second < 3600 ∧ 3600 * time.hour + (60 * time.minute + time.second) < 86400 := by
    have := valid.hour
    have := valid.minute
    omega
  have nested (time : Time) (plain : time.second < 60) : time.localSeconds =
      86400 * daysBeforeYear time.year + (86400 * daysBeforeMonth time.year time.month +
        (86400 * (time.day - 1) + (3600 * time.hour + (60 * time.minute + time.second)))) := by
    rw [localSeconds]
    omega
  have inMonth (time : Time) (valid : time.Valid) (plain : time.second < 60) :
      86400 * (time.day - 1) + (3600 * time.hour + (60 * time.minute + time.second)) < 86400 * monthDays time.year time.month := by
    have := clock time valid plain
    have := valid.day
    omega
  have inYear (time : Time) (valid : time.Valid) (plain : time.second < 60) : 86400 * daysBeforeMonth time.year time.month +
      (86400 * (time.day - 1) + (3600 * time.hour + (60 * time.minute + time.second))) < 86400 * yearDays time.year := by
    have month := @daysBeforeMonth_disjoint time.year time.month 13 valid.month.1 (Nat.lt_succ_of_le valid.month.2)
    rw [daysBeforeMonth_year] at month
    have := inMonth time valid plain
    omega
  have years {earlier later : Nat} (before : earlier < later) :
      86400 * daysBeforeYear earlier + 86400 * yearDays earlier ≤ 86400 * daysBeforeYear later := by
    have := daysBeforeYear_disjoint before
    omega
  have months (year : Nat) {earlier later : Nat} (real : 1 ≤ earlier) (before : earlier < later) :
      86400 * daysBeforeMonth year earlier + 86400 * monthDays year earlier ≤ 86400 * daysBeforeMonth year later := by
    have := @daysBeforeMonth_disjoint year _ _ real before
    omega
  rw [nested first plain, nested second plain', Before,
    @interval_lt_iff (86400 * daysBeforeYear ·) (86400 * yearDays ·) _ _ _ _ years years (inYear first valid plain) (inYear second valid' plain')]
  apply or_congr_right
  apply and_congr_right
  intro sameYear
  have inMonth' := inMonth second valid' plain'
  rw [← sameYear] at inMonth' ⊢
  rw [@interval_lt_iff (86400 * daysBeforeMonth first.year ·) (86400 * monthDays first.year ·) _ _ _ _ (months _ valid.month.1)
    (months _ valid'.month.1) (inMonth first valid plain) inMonth',
    unit_lt_iff (clock first valid plain).2 (clock second valid' plain').2, unit_lt_iff (clock first valid plain).1 (clock second valid' plain').1,
    unit_lt_iff plain plain']
  have days : first.day - 1 < second.day - 1 ↔ first.day < second.day := by
    have := valid.day
    have := valid'.day
    omega
  have sameDays : first.day - 1 = second.day - 1 ↔ first.day = second.day := by
    have := valid.day
    have := valid'.day
    omega
  rw [days, sameDays]

end Time
end Rfc3339
end StogasVerifier.Lib
