import StogasVerifier.Approvals.Documents
import StogasVerifier.Approvals.Keys
import StogasVerifier.Lib.Rfc3339
import StogasVerifier.Lib.Utf8
import StogasVerifier.Proofs.SessionCheck

/-! Expiries are compared as text (`require_current` of `approvals/keys.rs`). The texts that
`expiry_unix_ms` accepts all have one shape, so that their order is the order of the times. -/

namespace StogasVerifier.Approvals
open Lib Rfc3339

/-- What is assumed of `chrono`: it reads spellings of RFC 3339 only, as the times that they
spell, and formats the fields of a time. -/
def Libraries.ReadsRfc3339 (L : Libraries) : Prop :=
  ∀ text stamp, L.parseRfc3339 text = some stamp →
    ∃ time : Time, time.Valid ∧ time.Spells text ∧ stamp = ⟨time.unixMillis, time.subsecNanos, time.formatted⟩

theorem formatted_plain {time : Time} (spells : time.Spells time.formatted) : time.fraction = none ∧ time.zone = .utc := by
  obtain ⟨separator, -, zone, offset, spelled⟩ := spells
  rw [Time.formatted, String.toList_ofList] at spelled
  obtain ⟨-, tail⟩ := Time.shape_inj spelled
  cases fraction : time.fraction with
  | some digits =>
    rw [fraction] at tail
    cases tail
  | none =>
    rw [fraction] at tail
    refine ⟨rfl, ?_⟩
    cases stated : time.zone with
    | utc => rfl
    | east hours minutes =>
      rw [stated] at offset
      cases offset
      cases tail
    | west hours minutes =>
      rw [stated] at offset
      cases offset with
      | west known =>
        obtain ⟨rfl, -⟩ := List.cons.inj tail
        exact absurd known (by decide)

variable {L : Libraries} {keys other : KeyManifest} {millis millis' : Int}

theorem expiryUnixMs_ok (reads : L.ReadsRfc3339) (accepted : L.expiryUnixMs keys = .ok millis) :
    ∃ time : Time, time.Valid ∧ time.second < 60 ∧ keys.expiresAt = time.formatted ∧
      millis = 1000 * ((time.localSeconds : Int) - 86400 * 719528) := by
  unfold Libraries.expiryUnixMs at accepted
  split at accepted
  · cases accepted
  · split at accepted
    · cases accepted
    next stamp read =>
      obtain ⟨time, valid, spells, rfl⟩ := reads _ _ read
      split at accepted
      · cases accepted
      next checked =>
        obtain ⟨whole, printed⟩ := not_or.mp checked
        have text : time.formatted = keys.expiresAt := not_not.mp printed
        have nanos : time.subsecNanos = 0 := not_not.mp whole
        cases accepted
        rw [← text] at spells
        obtain ⟨fraction, zone⟩ := formatted_plain spells
        have plain : time.second < 60 := by
          have bound := valid.second
          rw [Time.subsecNanos] at nanos
          split at nanos <;> omega
        refine ⟨time, valid, plain, text.symm, ?_⟩
        simp only [Time.unixMillis, nanos, Time.unixSeconds, zone, Zone.offsetSeconds]
        omega

/-! ## The order of texts -/

private theorem digitChar_mono : StrictMonoOn Nat.digitChar (Set.Iio 10) := by
  have table : ∀ first second : Fin 10, first < second → Nat.digitChar first < Nat.digitChar second := by decide
  intro first small second small' before
  exact table ⟨first, small⟩ ⟨second, small'⟩ before

private theorem digitValue_mono : StrictMonoOn (Char.toNat ∘ Nat.digitChar) (Set.Iio 10) := by
  have table : ∀ first second : Fin 10, first < second → (Nat.digitChar first).toNat < (Nat.digitChar second).toNat := by decide
  intro first small second small' before
  exact table ⟨first, small⟩ ⟨second, small'⟩ before

private theorem formatted_bytes (time : Time) :
    time.formatted.toUTF8.toList.map UInt8.toNat =
      time.shape (Char.toNat ∘ Nat.digitChar) '-'.toNat 'T'.toNat ':'.toNat ['Z'.toNat] := by
  have ascii : ∀ char ∈ time.shape Nat.digitChar '-' 'T' ':' ['Z'], char.toNat ≤ 127 := by
    have digits : ∀ value : Fin 10, (Nat.digitChar value).toNat ≤ 127 := by decide
    intro char member
    rcases Time.mem_shape member with ⟨value, small, rfl⟩ | rfl | rfl | rfl | last
    · exact digits ⟨value, small⟩
    · decide
    · decide
    · decide
    · rw [List.mem_singleton.mp last]
      decide
  rw [Time.formatted, utf8_ascii ascii, List.map_map]
  refine Eq.trans ?_ (Time.shape_map Char.toNat Nat.digitChar '-' 'T' ':' time ['Z'])
  apply List.map_congr_left
  intro char member
  have small := ascii char member
  exact UInt8.toNat_ofNat_of_lt' (Nat.lt_of_le_of_lt small (by decide))

/-- Printed forms are ordered as the fields are, whether by characters or by bytes. -/
theorem formatted_lt_iff {first second : Time} (valid : first.Valid) (valid' : second.Valid) :
    (first.formatted < second.formatted ↔ first.Before second) ∧
      (first.formatted.toUTF8.toList < second.formatted.toUTF8.toList ↔ first.Before second) := by
  constructor
  · rw [String.lt_iff_toList_lt, Time.formatted, Time.formatted, String.toList_ofList, String.toList_ofList]
    exact Time.shape_lt_iff digitChar_mono valid valid' '-' 'T' ':' 'Z'
  · rw [bytes_lt_iff, formatted_bytes, formatted_bytes]
    exact Time.shape_lt_iff digitValue_mono valid valid' _ _ _ _

theorem expiryUnixMs_lt_iff (reads : L.ReadsRfc3339) (accepted : L.expiryUnixMs keys = .ok millis)
    (accepted' : L.expiryUnixMs other = .ok millis') :
    (keys.expiresAt < other.expiresAt ↔ millis < millis') ∧
      (keys.expiresAt.toUTF8.toList < other.expiresAt.toUTF8.toList ↔ millis < millis') := by
  obtain ⟨time, valid, plain, text, rfl⟩ := expiryUnixMs_ok reads accepted
  obtain ⟨time', valid', plain', text', rfl⟩ := expiryUnixMs_ok reads accepted'
  obtain ⟨chars, bytes⟩ := formatted_lt_iff valid valid'
  have seconds := Time.localSeconds_lt_iff valid valid' plain plain'
  have scaled : 1000 * ((time.localSeconds : Int) - 86400 * 719528) < 1000 * ((time'.localSeconds : Int) - 86400 * 719528) ↔
      time.Before time' := by
    rw [← seconds]
    omega
  rw [text, text', scaled]
  exact ⟨chars, bytes⟩

/-- Accepted expiries compare byte by byte as their times do, so the keys of another generation
that are still current do not outlast the keys that were learned last. -/
theorem expiry_order (reads : L.ReadsRfc3339) :
    (∀ {first second : KeyManifest} {millis millis' : Int}, L.expiryUnixMs first = .ok millis → L.expiryUnixMs second = .ok millis' →
      (first.expiresAt.toUTF8.toList < second.expiresAt.toUTF8.toList ↔ millis < millis') ∧
      (first.expiresAt.toUTF8.toList = second.expiresAt.toUTF8.toList ↔ millis = millis') ∧
      (first.expiresAt < second.expiresAt ↔ first.expiresAt.toUTF8.toList < second.expiresAt.toUTF8.toList)) ∧
    ∀ {learned : Learned} {keys : KeyManifest} {current millis : Int}, L.expiryUnixMs learned.keys.document = .ok current →
      L.expiryUnixMs keys = .ok millis → KeyState.requireCurrent (some learned) keys = .ok () →
      keys.generation ≠ learned.keys.document.generation → millis ≤ current := by
  constructor
  · intro first second millis millis' accepted accepted'
    obtain ⟨chars, bytes⟩ := expiryUnixMs_lt_iff reads accepted accepted'
    obtain ⟨back, -⟩ := expiryUnixMs_lt_iff reads accepted' accepted
    refine ⟨bytes, ?_, chars.trans bytes.symm⟩
    rw [utf8_injective.eq_iff]
    constructor
    · intro same
      rw [same] at chars back
      exact le_antisymm (not_lt.mp fun later => lt_irrefl _ (back.mpr later)) (not_lt.mp fun earlier => lt_irrefl _ (chars.mpr earlier))
    · intro same
      rw [same] at chars back
      exact le_antisymm (not_lt.mp fun later => lt_irrefl _ (back.mp later)) (not_lt.mp fun earlier => lt_irrefl _ (chars.mp earlier))
  · intro learned keys current millis expires accepted eligible older
    obtain ⟨chars, -⟩ := expiryUnixMs_lt_iff reads expires accepted
    by_contra late
    have text := chars.mpr (not_le.mp late)
    unfold KeyState.requireCurrent at eligible
    simp only at eligible
    split at eligible
    · cases eligible
    · rw [if_pos ⟨older, .inr (.inr text)⟩] at eligible
      cases eligible

/-! Two deadlines that a reader knows. -/

def spring : Time := ⟨2026, 3, 1, 0, 0, 0, none, .utc⟩
def summer : Time := ⟨2026, 6, 1, 0, 0, 0, none, .utc⟩

def readSeason (text : String) : Option Timestamp :=
  if text = spring.formatted then some ⟨spring.unixMillis, spring.subsecNanos, spring.formatted⟩
  else if text = summer.formatted then some ⟨summer.unixMillis, summer.subsecNanos, summer.formatted⟩
  else none

def seasonLibraries : Libraries := { Evidence.sampleLibraries.toApprovals with parseRfc3339 := readSeason }

private theorem season_spells (time : Time) (fraction : time.fraction = none) (zone : time.zone = .utc) : time.Spells time.formatted := by
  refine ⟨'T', List.mem_cons_self, ['Z'], ?_, ?_⟩
  · rw [zone]
    exact .utc List.mem_cons_self
  · rw [fraction]
    exact String.toList_ofList

private theorem seasons_read : seasonLibraries.ReadsRfc3339 := by
  have valid : spring.Valid ∧ summer.Valid := by
    constructor <;> constructor <;> decide
  intro text stamp read
  have read : readSeason text = some stamp := read
  unfold readSeason at read
  split at read
  next here =>
    exact ⟨spring, valid.1, here ▸ season_spells spring rfl rfl, (Option.some.inj read).symm⟩
  next =>
    split at read
    next here =>
      exact ⟨summer, valid.2, here ▸ season_spells summer rfl rfl, (Option.some.inj read).symm⟩
    next => cases read

def springKeys : KeyManifest := { Evidence.sampleKeys with expiresAt := "2026-03-01T00:00:00Z" }
def summerKeys : KeyManifest := { Evidence.sampleKeys with generation := 2, expiresAt := "2026-06-01T00:00:00Z" }

private structure SeasonEvaluation : Prop where
  spring : seasonLibraries.expiryUnixMs springKeys = .ok 1772323200000
  summer : seasonLibraries.expiryUnixMs summerKeys = .ok 1780272000000
  eligible : KeyState.requireCurrent (some ⟨⟨summerKeys, ""⟩, false⟩) springKeys = .ok ()

private theorem seasonEvaluation : SeasonEvaluation := by constructor <;> decide +kernel

/-- Keys that expire in spring are still current after their renewal until summer. -/
theorem expiry_order_seasons :
    seasonLibraries.expiryUnixMs springKeys = .ok 1772323200000 ∧ seasonLibraries.expiryUnixMs summerKeys = .ok 1780272000000 ∧
      springKeys.expiresAt.toUTF8.toList < summerKeys.expiresAt.toUTF8.toList ∧
      KeyState.requireCurrent (some ⟨⟨summerKeys, ""⟩, false⟩) springKeys = .ok () ∧ (1772323200000 : Int) ≤ 1780272000000 := by
  have order := expiry_order seasons_read
  obtain ⟨bytes, -⟩ := order.1 seasonEvaluation.spring seasonEvaluation.summer
  have current := order.2 seasonEvaluation.summer seasonEvaluation.spring seasonEvaluation.eligible (by decide)
  exact ⟨seasonEvaluation.spring, seasonEvaluation.summer, bytes.mpr (by decide), seasonEvaluation.eligible, current⟩

end StogasVerifier.Approvals
