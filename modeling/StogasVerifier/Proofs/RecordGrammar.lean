import StogasVerifier.Channel.Record

/-! The words of record kinds and sizes that one direction may carry, and the
phases that read them. -/

namespace StogasVerifier.Channel
open Lib

abbrev Letter := Kind × Nat

namespace Grammar

/-- One metadata record, full data records of which the last may be short, and
the completion. -/
def RequestWord (word : List Letter) : Prop :=
  ∃ metadata full, 0 < metadata ∧ ∃ last : Option Nat, (∀ size ∈ last, 0 < size ∧ size < maxRecordPlaintext) ∧
    word = (.metadata, metadata) :: (List.replicate full (.data, maxRecordPlaintext) ++ last.toList.map (.data, ·)) ++ [(.finished, 0)]

def Streamed (letter : Letter) : Prop := (∃ size, 0 < size ∧ letter = (.data, size)) ∨ letter = (.keepalive, 0)

/-- Keepalives, one metadata record, data and keepalives in any order, and the
completion. -/
def ResponseWord (word : List Letter) : Prop :=
  ∃ early metadata body, 0 < metadata ∧ (∀ letter ∈ body, Streamed letter) ∧
    word = List.replicate early (.keepalive, 0) ++ (.metadata, metadata) :: body ++ [(.finished, 0)]

def Word : Direction → List Letter → Prop
  | .request => RequestWord
  | .response => ResponseWord

def bodySize (word : List Letter) : Nat := (word.map fun letter => if letter.1 = .data then letter.2 else 0).sum

/-- The encoded length of a record. The first one of a direction carries the
ratchet header. -/
def encodedSize (place size : Nat) : Nat := recordOverhead + size + if place = 0 then 2 + headerBytes else 0

structure Within (direction : Direction) (word : List Letter) : Prop where
  records : word.length ≤ maxRecords
  encoded : ∀ place letter, word[place]? = some letter → encodedSize place letter.2 ≤ maxRecordBytes
  body : bodySize word ≤ Records.maxBody direction

def Allowed (direction : Direction) (word : List Letter) : Prop :=
  (∃ rest, Word direction (word ++ rest)) ∧ Within direction word

inductive Moves : Direction → Phase → Letter → Phase → Prop where
  | metadata {direction : Direction} {size : Nat} (filled : 0 < size) : Moves direction .metadata (.metadata, size) .body
  | waiting : Moves .response .metadata (.keepalive, 0) .metadata
  | streamed {letter : Letter} (streamed : Streamed letter) : Moves .response .body letter .body
  | full : Moves .request .body (.data, maxRecordPlaintext) .body
  | short {size : Nat} (filled : 0 < size) (short : size < maxRecordPlaintext) : Moves .request .body (.data, size) .tail
  | finish {direction : Direction} : Moves direction .body (.finished, 0) .finished
  | finishTail {direction : Direction} : Moves direction .tail (.finished, 0) .finished

def Reaches : Direction → Phase → List Letter → Prop
  | .request, .metadata, word => word = []
  | .request, .body, word => ∃ metadata full, 0 < metadata ∧
      word = (.metadata, metadata) :: List.replicate full (.data, maxRecordPlaintext)
  | .request, .tail, word => ∃ metadata full size, 0 < metadata ∧ 0 < size ∧ size < maxRecordPlaintext ∧
      word = (.metadata, metadata) :: List.replicate full (.data, maxRecordPlaintext) ++ [(.data, size)]
  | .response, .metadata, word => ∃ early, word = List.replicate early (.keepalive, 0)
  | .response, .body, word => ∃ early metadata body, 0 < metadata ∧ (∀ letter ∈ body, Streamed letter) ∧
      word = List.replicate early (.keepalive, 0) ++ (.metadata, metadata) :: body
  | direction, .finished, word => Word direction word
  | _, _, _ => False

variable {direction : Direction} {word : List Letter}

theorem reaches_finished :
    Reaches direction .finished word ↔ Word direction word := by
  cases direction <;> exact Iff.rfl

theorem reaches_start (direction : Direction) : Reaches direction .metadata [] := by
  cases direction with
  | request => rfl
  | response => exact ⟨0, rfl⟩

theorem Reaches.move {before after : Phase} {letter : Letter}
    (reaches : Reaches direction before word) (moves : Moves direction before letter after) :
    Reaches direction after (word ++ [letter]) := by
  cases moves with
  | @metadata _ size filled =>
    cases direction with
    | request =>
      cases (show word = [] from reaches)
      exact ⟨size, 0, filled, rfl⟩
    | response =>
      obtain ⟨early, rfl⟩ := reaches
      exact ⟨early, size, [], filled, nofun, rfl⟩
  | waiting =>
    obtain ⟨early, rfl⟩ := reaches
    exact ⟨early + 1, List.replicate_succ'.symm⟩
  | streamed streamed =>
    obtain ⟨early, metadata, body, filled, all, rfl⟩ := reaches
    refine ⟨early, metadata, body ++ [letter], filled, ?_, by simp⟩
    intro other member
    rcases List.mem_append.mp member with earlier | last
    · exact all other earlier
    · rw [List.mem_singleton.mp last]
      exact streamed
  | full =>
    obtain ⟨metadata, full, filled, rfl⟩ := reaches
    exact ⟨metadata, full + 1, filled, by rw [List.replicate_succ', List.cons_append]⟩
  | @short size nonempty short =>
    obtain ⟨metadata, full, filled, rfl⟩ := reaches
    exact ⟨metadata, full, size, filled, nonempty, short, rfl⟩
  | finish =>
    cases direction with
    | request =>
      obtain ⟨metadata, full, filled, rfl⟩ := reaches
      exact ⟨metadata, full, filled, none, nofun, by simp⟩
    | response =>
      obtain ⟨early, metadata, body, filled, all, rfl⟩ := reaches
      exact ⟨early, metadata, body, filled, all, rfl⟩
  | finishTail =>
    cases direction with
    | request =>
      obtain ⟨metadata, full, size, filled, nonempty, short, rfl⟩ := reaches
      exact ⟨metadata, full, filled, some size, fun other same => by cases same; exact ⟨nonempty, short⟩, by simp⟩
    | response => exact reaches.elim

theorem Reaches.last {after : Phase} {letter : Letter} (reaches : Reaches direction after (word ++ [letter])) :
    ∃ before, Reaches direction before word ∧ Moves direction before letter after := by
  cases direction with
  | request =>
    cases after with
    | metadata => exact absurd reaches (by simp [Reaches])
    | body =>
      obtain ⟨metadata, full, filled, same⟩ := reaches
      cases full with
      | zero =>
        rw [List.replicate_zero, ← List.nil_append [(Kind.metadata, metadata)]] at same
        obtain ⟨rfl, rfl⟩ := List.append_singleton_inj.mp same
        exact ⟨.metadata, rfl, .metadata filled⟩
      | succ full =>
        rw [List.replicate_succ', ← List.cons_append] at same
        obtain ⟨rfl, rfl⟩ := List.append_singleton_inj.mp same
        exact ⟨.body, ⟨metadata, full, filled, rfl⟩, .full⟩
    | tail =>
      obtain ⟨metadata, full, size, filled, nonempty, short, same⟩ := reaches
      obtain ⟨rfl, rfl⟩ := List.append_singleton_inj.mp same
      exact ⟨.body, ⟨metadata, full, filled, rfl⟩, .short nonempty short⟩
    | finished =>
      obtain ⟨metadata, full, filled, last, bounds, same⟩ := reaches
      obtain ⟨rfl, rfl⟩ := List.append_singleton_inj.mp same
      cases last with
      | none => exact ⟨.body, ⟨metadata, full, filled, by simp⟩, .finish⟩
      | some size =>
        obtain ⟨nonempty, short⟩ := bounds size rfl
        exact ⟨.tail, ⟨metadata, full, size, filled, nonempty, short, by simp⟩, .finishTail⟩
    | failed => exact reaches.elim
  | response =>
    cases after with
    | metadata =>
      obtain ⟨early, same⟩ := reaches
      cases early with
      | zero => simp at same
      | succ early =>
        rw [List.replicate_succ'] at same
        obtain ⟨rfl, rfl⟩ := List.append_singleton_inj.mp same
        exact ⟨.metadata, ⟨early, rfl⟩, .waiting⟩
    | body =>
      obtain ⟨early, metadata, body, filled, all, same⟩ := reaches
      rcases List.eq_nil_or_concat body with rfl | ⟨front, back, rfl⟩
      · obtain ⟨rfl, rfl⟩ := List.append_singleton_inj.mp same
        exact ⟨.metadata, ⟨early, rfl⟩, .metadata filled⟩
      · rw [List.concat_eq_append] at all same
        rw [← List.cons_append, ← List.append_assoc] at same
        obtain ⟨rfl, rfl⟩ := List.append_singleton_inj.mp same
        exact ⟨.body, ⟨early, metadata, front, filled, fun other member => all other (List.mem_append_left _ member), rfl⟩,
          .streamed (all letter (List.mem_append_right _ (List.mem_singleton_self _)))⟩
    | tail => exact reaches.elim
    | finished =>
      obtain ⟨early, metadata, body, filled, all, same⟩ := reaches
      obtain ⟨rfl, rfl⟩ := List.append_singleton_inj.mp same
      exact ⟨.body, ⟨early, metadata, body, filled, all, rfl⟩, .finish⟩
    | failed => exact reaches.elim

theorem Moves.unique {before first second : Phase} {letter : Letter}
    (left : Moves direction before letter first) (right : Moves direction before letter second) : first = second := by
  cases left with
  | metadata _ => cases right; rfl
  | waiting => cases right; rfl
  | streamed streamed =>
    cases right with
    | streamed _ => rfl
    | finish => simp [Streamed] at streamed
  | full =>
    cases right with
    | full => rfl
    | short _ short => exact absurd short (Nat.lt_irrefl _)
  | short _ short =>
    cases right with
    | full => exact absurd short (Nat.lt_irrefl _)
    | short _ _ => rfl
  | finish =>
    cases right with
    | streamed streamed => simp [Streamed] at streamed
    | finish => rfl
  | finishTail => cases right; rfl

theorem reaches_nil {phase : Phase} (reaches : Reaches direction phase []) : phase = .metadata := by
  cases direction <;> cases phase <;> simp [Reaches, Word, RequestWord, ResponseWord] at reaches ⊢

theorem Reaches.unique {first second : Phase}
    (left : Reaches direction first word) (right : Reaches direction second word) : first = second := by
  induction word using List.reverseRecOn generalizing first second with
  | nil => rw [reaches_nil left, reaches_nil right]
  | append_singleton word letter ih =>
    obtain ⟨before, reached, moves⟩ := left.last
    obtain ⟨other, also, same⟩ := right.last
    cases ih reached also
    exact moves.unique same

theorem Reaches.finishes {phase : Phase} (reaches : Reaches direction phase word)
    (live : phase = .body ∨ phase = .tail) : Word direction (word ++ [(.finished, 0)]) := by
  rcases live with rfl | rfl
  · exact reaches_finished.mp (reaches.move .finish)
  · exact reaches_finished.mp (reaches.move .finishTail)

theorem Reaches.completes {phase : Phase} (reaches : Reaches direction phase word) :
    ∃ rest, Word direction (word ++ rest) := by
  cases phase with
  | metadata =>
    have body := reaches.move (.metadata Nat.one_pos)
    exact ⟨[(.metadata, 1), (.finished, 0)], by simpa using body.finishes (.inl rfl)⟩
  | body => exact ⟨_, reaches.finishes (.inl rfl)⟩
  | tail => exact ⟨_, reaches.finishes (.inr rfl)⟩
  | finished => exact ⟨[], by rw [List.append_nil]; exact reaches_finished.mp reaches⟩
  | failed => cases direction <;> exact reaches.elim

theorem reaches_of_append {phase : Phase} {rest : List Letter}
    (reaches : Reaches direction phase (word ++ rest)) : ∃ before, Reaches direction before word := by
  induction rest using List.reverseRecOn generalizing phase with
  | nil => exact ⟨phase, by rwa [List.append_nil] at reaches⟩
  | append_singleton rest letter ih =>
    rw [← List.append_assoc] at reaches
    obtain ⟨before, reached, -⟩ := reaches.last
    exact ih reached

theorem prefix_iff : (∃ rest, Word direction (word ++ rest)) ↔ ∃ phase, Reaches direction phase word := by
  constructor
  · rintro ⟨rest, whole⟩
    exact reaches_of_append (reaches_finished.mpr whole)
  · rintro ⟨phase, reaches⟩
    exact reaches.completes

theorem Within.of_append {rest : List Letter} (within : Within direction (word ++ rest)) :
    Within direction word where
  records := by
    have count := within.records
    rw [List.length_append] at count
    omega
  encoded place letter found := by
    apply within.encoded place letter
    rwa [List.getElem?_append_left (List.getElem?_eq_some_iff.mp found).1]
  body := by
    have bytes := within.body
    rw [bodySize, List.map_append, List.sum_append] at bytes
    exact Nat.le_trans (Nat.le_add_right _ _) bytes

theorem Allowed.of_append {rest : List Letter} (allowed : Allowed direction (word ++ rest)) :
    Allowed direction word := by
  obtain ⟨⟨more, whole⟩, within⟩ := allowed
  exact ⟨⟨rest ++ more, by rwa [← List.append_assoc]⟩, within.of_append⟩

theorem allowed_nil (direction : Direction) : Allowed direction [] :=
  ⟨prefix_iff.mpr ⟨_, reaches_start direction⟩, Nat.zero_le _, nofun, Nat.zero_le _⟩

theorem allowed_metadata (direction : Direction) {size : Nat} (filled : 0 < size) (fits : encodedSize 0 size ≤ maxRecordBytes) :
    Allowed direction [(.metadata, size)] := by
  refine ⟨prefix_iff.mpr ⟨.body, (reaches_start direction).move (.metadata filled)⟩, Nat.one_le_two_pow, ?_, Nat.zero_le _⟩
  intro place letter found
  rw [List.getElem?_singleton] at found
  obtain ⟨rfl, found⟩ := Option.ite_none_right_eq_some.mp found
  cases found
  exact fits

end Grammar
end StogasVerifier.Channel
