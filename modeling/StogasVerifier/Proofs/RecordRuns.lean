import StogasVerifier.Proofs.RecordGrammar
import StogasVerifier.Proofs.PeerSteps
import StogasVerifier.Channel.Symbolic

/-! What a direction accepts of the records sealed for it, over a whole run. -/

namespace StogasVerifier.Channel
open Lib Grammar

variable {S : Suite}

namespace Keys

def after (keys : Keys S) : Nat → Keys S
  | 0 => keys
  | place + 1 => ((keys.after place).next place).2.2

def key (keys : Keys S) (place : Nat) : S.Secret := ((keys.after place).next place).1

end Keys

namespace Records

def start (place : Nat) (header : S.Bytes) : S.Bytes := if place = 0 then S.be 2 header.length ++ header else []

def front (place : Nat) (header : S.Bytes) (length : Nat) : S.Bytes :=
  S.be 4 (4 + (start place header).length + length + 16) ++ start place header

def Authentic (keys : Keys S) (place : Nat) (plaintext bytes : S.Bytes) : Prop :=
  ∃ header sealedBytes, header.length = headerBytes ∧
    S.encrypt (keys.key place) (nonce S place) (front place header plaintext.length) plaintext = some sealedBytes ∧
    bytes = front place header plaintext.length ++ sealedBytes

def parse : S.Bytes → Option (Kind × S.Bytes)
  | [] => none
  | first :: content => (Kind.tryFrom (S.value first)).toOption.map (·, content)

def letter (output : Kind × S.Bytes) : Letter := (output.1, output.2.length)

def Reads (direction : Direction) (plaintexts : List S.Bytes) (contents : List (Kind × S.Bytes)) : Prop :=
  plaintexts.map parse = contents.map some ∧ Allowed direction (contents.map letter)

def openAll (records : Records S) : List S.Bytes → List (Except Error (Kind × S.Bytes)) × Records S
  | [] => ([], records)
  | bytes :: rest =>
    let opened := records.openRecord bytes
    let run := opened.2.openAll rest
    (opened.1 :: run.1, run.2)

/-- Nothing succeeds any more, and nothing changes. -/
structure Closed (records : Records S) : Prop where
  opens : ∀ bytes, records.openRecord bytes = (.error .closed, records)
  seals : ∀ kind content, records.sealRecord kind content = (.error .closed, records)
  completes : records.complete = (.error .truncated, records)

theorem close_closed (records : Records S) : records.close.Closed where
  opens _ := rfl
  seals _ _ := rfl
  completes := rfl

variable {records : Records S}

theorem Closed.openAll (closed : records.Closed) (encoded : List S.Bytes) :
    records.openAll encoded = (List.replicate encoded.length (.error .closed), records) := by
  induction encoded with
  | nil => rfl
  | cons bytes rest ih =>
    simp only [Records.openAll, closed.opens, ih, List.length_cons, List.replicate_succ]

section Framed

variable {records : Records S} {header sealedBytes : S.Bytes} {length : Nat}

theorem front_length (place : Nat) (header : S.Bytes) (length : Nat) :
    (front place header length).length = 4 + (start place header).length := by
  rw [front, List.length_append, toBe_length]

theorem start_length {place : Nat} (width : header.length = headerBytes) :
    (start place header).length = if place = 0 then 2 + headerBytes else 0 := by
  unfold start
  split
  · rw [List.length_append, toBe_length, width]
  · rfl

theorem decryptNow_ok {key : S.Secret} {nonceBytes aad sealedBytes plaintext : S.Bytes} :
    decryptNow key nonceBytes aad sealedBytes = .ok plaintext ↔
      16 ≤ sealedBytes.length ∧ S.decrypt key nonceBytes aad sealedBytes = some plaintext := by
  unfold decryptNow
  by_cases short : sealedBytes.length < 16
  · simp [short, Nat.not_le.mpr short]
  · rw [if_neg short, and_iff_right (Nat.not_lt.mp short)]
    cases S.decrypt key nonceBytes aad sealedBytes <;> simp

theorem recordSize_ok {bytes : S.Bytes} {size : Nat} :
    recordSize bytes = .ok size ↔
      bytes.length = 4 ∧ S.number bytes = size ∧ recordOverhead ≤ size ∧ size ≤ maxRecordBytes := by
  simp only [recordSize, bind_ok, pure_ok, reject_ok]
  constructor
  · rintro ⟨_, four, _, bounds, same⟩
    exact ⟨by omega, same, by omega, by omega⟩
  · rintro ⟨four, same, low, high⟩
    exact ⟨(), by omega, (), by omega, same⟩

/-- The announced length of a frame is its own exactly while it is a length a
record may have. -/
theorem recordSize_front {place : Nat} (sized : sealedBytes.length = length + 16) :
    recordSize ((front place header length ++ sealedBytes).take 4) = .ok (front place header length ++ sealedBytes).length ↔
      recordOverhead ≤ (front place header length ++ sealedBytes).length ∧
      (front place header length ++ sealedBytes).length ≤ maxRecordBytes := by
  have total : (front place header length ++ sealedBytes).length = 4 + (start place header).length + length + 16 := by
    rw [List.length_append, front_length, sized]
    omega
  have first : (front place header length ++ sealedBytes).take 4 = S.be 4 (4 + (start place header).length + length + 16) := by
    rw [front, List.append_assoc, List.take_left' (toBe_length _ _ _)]
  rw [first, recordSize_ok, toBe_length, total]
  constructor
  · rintro ⟨_, _, bounds⟩
    exact bounds
  · intro bounds
    refine ⟨rfl, ofBe_toBe _ _ _ ?_, bounds⟩
    have high := bounds.2
    rw [maxRecordBytes] at high
    omega

theorem prefixSize_front (width : header.length = headerBytes) (filled : sealedBytes ≠ []) :
    records.prefixSize (front records.sequence header length ++ sealedBytes) =
      .ok (front records.sequence header length).length := by
  have positive := List.length_pos_iff.mpr filled
  have counted := front_length records.sequence header length
  have value : S.number (S.be 2 header.length) = headerBytes := by
    rw [width]
    exact ofBe_toBe _ _ _ (by decide)
  rw [start_length width] at counted
  unfold prefixSize
  split
  next zero =>
    have field : ((front records.sequence header length ++ sealedBytes).drop 4).take 2 = S.be 2 header.length := by
      rw [front, List.append_assoc, List.drop_left' (toBe_length _ _ _), start, if_pos zero, List.append_assoc,
        List.take_left' (toBe_length _ _ _)]
    rw [if_pos zero] at counted
    simp only [bind_ok, pure_ok, reject_ok, field, value, List.length_append, counted]
    exact ⟨(), by omega, (), by omega, by omega⟩
  next later =>
    rw [if_neg later] at counted
    rw [counted]

theorem checkEncoded_front (width : header.length = headerBytes) (sized : sealedBytes.length = length + 16) {offset : Nat} :
    records.checkEncoded (front records.sequence header length ++ sealedBytes) = .ok offset ↔
      (records.phase ≠ .finished ∧ records.phase ≠ .failed) ∧ records.sequence < maxRecords ∧ 0 < length ∧
      (front records.sequence header length ++ sealedBytes).length ≤ maxRecordBytes ∧
      offset = (front records.sequence header length).length := by
  have counted := front_length records.sequence header length
  have total : (front records.sequence header length ++ sealedBytes).length =
      (front records.sequence header length).length + (length + 16) := by rw [List.length_append, sized]
  have filled : sealedBytes ≠ [] := List.length_pos_iff.mp (by omega)
  have split : records.prefixSize (front records.sequence header length ++ sealedBytes) =
      .ok (front records.sequence header length).length := prefixSize_front width filled
  simp only [checkEncoded, bind_ok, pure_ok, reject_ok, split, Except.ok.injEq]
  constructor
  · rintro ⟨_, live, _, below, _, _, size, announced, _, same, _, rfl, _, enough, found⟩
    cases not_not.mp same
    exact ⟨not_or.mp live, by omega, by omega, ((recordSize_front sized).mp announced).2, found.symm⟩
  · rintro ⟨live, below, filled, fits, found⟩
    refine ⟨(), not_or.mpr live, (), by omega, (), ?_, _, (recordSize_front sized).mpr ⟨?_, fits⟩, (), not_not.mpr rfl, _, rfl,
      (), by omega, found.symm⟩
    · rw [recordOverhead]
      omega
    · rw [recordOverhead]
      omega

end Framed

section Checked

variable {records : Records S} {kind : Kind} {size : Nat}

/-- A record that passes `check` moves the phase. -/
theorem check_moves (tail : records.phase = .tail → records.direction = .request)
    (checked : records.check kind size = .ok ()) :
    records.sequence < maxRecords ∧ size ≤ maxRecordPlaintext ∧
      (kind = .data → records.bodyBytes + size ≤ maxBody records.direction) ∧
      Moves records.direction records.phase (kind, size) (records.advance kind size).phase := by
  obtain ⟨keys, header, sequence, bodyBytes, direction, phase⟩ := records
  simp only [check, bind_ok, reject_ok] at checked ⊢
  obtain ⟨_, live, _, bounds, allowed⟩ := checked
  refine ⟨by omega, by omega, ?_⟩
  cases kind with
  | metadata =>
    obtain ⟨here, filled⟩ := not_or.mp (reject_ok.mp allowed)
    cases not_not.mp here
    exact ⟨(by simp), .metadata (Nat.pos_of_ne_zero filled)⟩
  | data =>
    obtain ⟨_, here, room⟩ := bind_ok.mp allowed
    obtain ⟨here, filled⟩ := not_or.mp (reject_ok.mp here)
    cases not_not.mp here
    have room := reject_ok.mp room
    refine ⟨fun _ => by omega, ?_⟩
    cases direction with
    | request =>
      by_cases short : size < maxRecordPlaintext
      · simpa [advance, short] using Moves.short (Nat.pos_of_ne_zero filled) short
      · cases (show size = maxRecordPlaintext by omega)
        simpa [advance] using Moves.full
    | response => exact .streamed (.inl ⟨size, Nat.pos_of_ne_zero filled, rfl⟩)
  | finished =>
    obtain ⟨here, empty⟩ := not_or.mp (reject_ok.mp allowed)
    cases not_not.mp empty
    refine ⟨(by simp), ?_⟩
    cases phase with
    | metadata => exact absurd rfl here
    | body => exact .finish
    | tail => exact .finishTail
    | finished => exact absurd (.inl rfl) live
    | failed => exact absurd (.inr rfl) live
  | keepalive =>
    obtain ⟨here, empty⟩ := not_or.mp (reject_ok.mp allowed)
    cases not_not.mp here
    cases not_not.mp empty
    refine ⟨(by simp), ?_⟩
    cases phase with
    | metadata => exact .waiting
    | body => exact .streamed (.inr rfl)
    | tail => exact absurd (tail rfl) (by simp)
    | finished => exact absurd (.inl rfl) live
    | failed => exact absurd (.inr rfl) live

/-- A move of the phase within the limits passes `check`. -/
theorem check_of_moves {next : Phase} (moves : Moves records.direction records.phase (kind, size) next)
    (below : records.sequence < maxRecords) (fits : size ≤ maxRecordPlaintext)
    (room : kind = .data → records.bodyBytes + size ≤ maxBody records.direction) : records.check kind size = .ok () := by
  obtain ⟨keys, header, sequence, bodyBytes, direction, phase⟩ := records
  simp only [check, bind_ok, reject_ok] at below room ⊢
  have bounds : ¬ (maxRecords ≤ sequence ∨ maxRecordPlaintext < size) := by omega
  cases moves with
  | metadata filled => exact ⟨(), (by simp), (), bounds, reject_ok.mpr (by simp; omega)⟩
  | waiting => exact ⟨(), (by simp), (), bounds, reject_ok.mpr (by simp)⟩
  | streamed streamed =>
    rcases streamed with ⟨length, filled, same⟩ | same
    · cases same
      have room := room rfl
      refine ⟨(), (by simp), (), bounds, bind_ok.mpr ⟨(), reject_ok.mpr (by simp; omega), reject_ok.mpr (by omega)⟩⟩
    · cases same
      exact ⟨(), (by simp), (), bounds, reject_ok.mpr (by simp)⟩
  | full =>
    have room := room rfl
    refine ⟨(), (by simp), (), bounds, bind_ok.mpr ⟨(), reject_ok.mpr (by simp; decide), reject_ok.mpr (by omega)⟩⟩
  | short filled short =>
    have room := room rfl
    refine ⟨(), (by simp), (), bounds, bind_ok.mpr ⟨(), reject_ok.mpr (by simp; omega), reject_ok.mpr (by omega)⟩⟩
  | finish => exact ⟨(), (by simp), (), bounds, reject_ok.mpr (by simp)⟩
  | finishTail => exact ⟨(), (by simp), (), bounds, reject_ok.mpr (by simp)⟩

theorem check_live (checked : records.check kind size = .ok ()) : records.phase ≠ .finished ∧ records.phase ≠ .failed := by
  obtain ⟨_, live, -⟩ := bind_ok.mp checked
  exact not_or.mp (reject_ok.mp live)

theorem acceptOpen_ok {plaintext content : S.Bytes} {after} :
    records.acceptOpen plaintext = .ok (after, kind, content) ↔
      parse plaintext = some (kind, content) ∧ records.check kind content.length = .ok () ∧
      after = records.advance kind content.length := by
  cases plaintext with
  | nil => simp [acceptOpen, parse]
  | cons first rest =>
    simp only [acceptOpen, bind_ok, pure_ok, parse, Prod.mk.injEq, Option.map_eq_some_iff]
    constructor
    · intro accepted
      obtain ⟨_, known, _, checked, same, rfl, rfl⟩ := accepted
      exact ⟨⟨_, by rw [known]; rfl, rfl, rfl⟩, checked, same.symm⟩
    · intro read
      obtain ⟨⟨_, known, rfl, rfl⟩, checked, same⟩ := read
      cases tried : Kind.tryFrom (S.value first) with
      | error => rw [tried] at known; cases known
      | ok =>
        rw [tried] at known
        cases known
        exact ⟨_, rfl, (), checked, same.symm, rfl, rfl⟩

end Checked

section Start

variable {encoded : S.Bytes}

theorem startHeader_ok {header : S.Bytes} :
    startHeader encoded = .ok header ↔
      recordSize (encoded.take 4) = .ok encoded.length ∧ S.number ((encoded.drop 4).take 2) = headerBytes ∧
      6 + headerBytes + 17 ≤ encoded.length ∧ header = (encoded.drop 6).take headerBytes := by
  simp only [startHeader, bind_ok, pure_ok, reject_ok]
  constructor
  · intro framed
    obtain ⟨_, long, size, sized, _, same, _, width, found⟩ := framed
    cases not_not.mp same
    have width := not_not.mp (not_or.mp width).1
    exact ⟨sized, width, by omega, by rw [← found, width]⟩
  · rintro ⟨sized, width, long, found⟩
    exact ⟨(), by omega, _, sized, (), not_not.mpr rfl, (), by rw [width]; omega, by rw [width, found]⟩

theorem checkEncoded_start {records : Records S} (first : records.sequence = 0) {offset : Nat} :
    records.checkEncoded encoded = .ok offset ↔
      (records.phase ≠ .finished ∧ records.phase ≠ .failed) ∧ recordSize (encoded.take 4) = .ok encoded.length ∧
      S.number ((encoded.drop 4).take 2) = headerBytes ∧ 6 + headerBytes + 17 ≤ encoded.length ∧ offset = 6 + headerBytes := by
  have below : ¬ maxRecords ≤ 0 := by decide
  simp only [checkEncoded, prefixSize, first, if_true, bind_ok, pure_ok, reject_ok]
  constructor
  · intro framed
    obtain ⟨_, live, _, _, _, _, size, sized, _, same, _, ⟨_, _, _, width, rfl⟩, _, long, rfl⟩ := framed
    cases not_not.mp same
    have width := not_not.mp (not_or.mp width).1
    exact ⟨not_or.mp live, sized, width, by omega, by rw [width]⟩
  · rintro ⟨live, sized, width, long, found⟩
    refine ⟨(), not_or.mpr live, (), below, (), ?_, _, sized, (), not_not.mpr rfl, _, ⟨(), by omega, (), ?_, rfl⟩, (), ?_, ?_⟩
    · rw [recordOverhead]
      omega
    · rw [width]
      omega
    · rw [width]
      omega
    · rw [width, found]

theorem authenticateStart_ok {secret : S.Secret} {sessionId content : S.Bytes} {number : Nat} {direction : Direction}
    {records : Records S} {kind : Kind} :
    authenticateStart secret sessionId number direction encoded = .ok (records, kind, content) ↔
      (fromKeys (Keys.new secret sessionId number direction) direction none).opening encoded = .ok ((kind, content), records) := by
  have fresh : (fromKeys (Keys.new secret sessionId number direction) direction none).sequence = 0 := rfl
  simp only [authenticateStart, opening, bind_ok, pure_ok]
  constructor
  · intro authentic
    obtain ⟨header, framed, next, keyed, plaintext, read, accepted⟩ := authentic
    obtain ⟨sized, width, long, rfl⟩ := startHeader_ok.mp framed
    have length : ((encoded.drop 6).take headerBytes).length + 6 = 6 + headerBytes := by
      rw [List.length_take, List.length_drop]
      omega
    rw [length] at read
    exact ⟨_, (checkEncoded_start fresh).mpr ⟨⟨nofun, nofun⟩, sized, width, long, rfl⟩, next, keyed, plaintext, read,
      _, accepted, rfl⟩
  · intro opened
    obtain ⟨offset, framed, next, keyed, plaintext, read, ⟨_, _, _⟩, accepted, same⟩ := opened
    cases same
    obtain ⟨-, sized, width, long, rfl⟩ := (checkEncoded_start fresh).mp framed
    have length : ((encoded.drop 6).take headerBytes).length + 6 = 6 + headerBytes := by
      rw [List.length_take, List.length_drop]
      omega
    refine ⟨_, startHeader_ok.mpr ⟨sized, width, long, rfl⟩, next, keyed, plaintext, ?_, accepted⟩
    rw [length]
    exact read

end Start

variable {bytes : S.Bytes}

theorem opening_accepts {after} {content : S.Bytes} {kind : Kind} (opened : records.opening bytes = .ok ((kind, content), after)) :
    recordSize (bytes.take 4) = .ok bytes.length ∧ records.check kind content.length = .ok () ∧
      ∃ keys, after = { records with keys }.advance kind content.length := by
  simp only [opening, bind_ok, pure_ok] at opened
  obtain ⟨offset, framed, ⟨key, nonceBytes, next⟩, keyed, plaintext, read, ⟨_, _, _⟩, accepted, same⟩ := opened
  cases same
  obtain ⟨parsed, checked, rfl⟩ := acceptOpen_ok.mp accepted
  have shape : ∃ keys, next = { records with keys } := by
    unfold nextKey at keyed
    split at keyed
    · cases keyed
    · cases keyed
      exact ⟨_, rfl⟩
  obtain ⟨keys, rfl⟩ := shape
  simp only [checkEncoded, bind_ok, pure_ok, reject_ok] at framed
  obtain ⟨_, _, _, _, _, _, size, sized, _, same, -⟩ := framed
  cases not_not.mp same
  exact ⟨sized, checked, keys, rfl⟩

variable {output : Kind × S.Bytes}

theorem opening_direction {after} (opened : records.opening bytes = .ok (output, after)) : after.direction = records.direction := by
  obtain ⟨-, -, keys, rfl⟩ := opening_accepts opened
  cases output.1 <;> rfl

theorem opening_finished {after}
    (opened : records.opening bytes = .ok (output, after)) : after.phase = .finished ↔ output.1 = .finished := by
  obtain ⟨-, checked, keys, rfl⟩ := opening_accepts opened
  have live := (check_live checked).1
  obtain ⟨kind, content⟩ := output
  cases kind with
  | metadata => simp [Records.advance]
  | data =>
    simp only [Records.advance]
    split
    · simp
    · simpa using live
  | finished => simp [Records.advance]
  | keepalive => simpa [Records.advance] using live

theorem tail_request {direction} {phase : Phase} {word} (reaches : Reaches direction phase word)
    (tail : phase = .tail) : direction = .request := by
  cases direction with
  | request => rfl
  | response =>
    rw [tail] at reaches
    exact reaches.elim

theorem opening_reaches {after word}
    (reaches : Reaches records.direction records.phase word) (opened : records.opening bytes = .ok (output, after)) :
    Reaches records.direction after.phase (word ++ [letter output]) := by
  obtain ⟨-, checked, keys, rfl⟩ := opening_accepts opened
  obtain ⟨-, -, -, moves⟩ := check_moves (tail_request reaches) checked
  have moved := reaches.move moves
  obtain ⟨kind, content⟩ := output
  cases kind <;> exact moved

theorem parse_length {plaintext : S.Bytes} (parsed : parse plaintext = some output) :
    plaintext.length = output.2.length + 1 := by
  cases plaintext with
  | nil => cases parsed
  | cons first rest =>
    obtain ⟨_, _, same⟩ := Option.map_eq_some_iff.mp parsed
    cases same
    rfl

theorem bodySize_append (word : List Letter) (kind : Kind) (size : Nat) :
    bodySize (word ++ [(kind, size)]) = bodySize word + if kind = .data then size else 0 := by
  simp [bodySize]

structure Standing (keys : Keys S) (records : Records S) (word : List Letter) : Prop where
  sequence : records.sequence = word.length
  keyed : records.phase ≠ .finished → records.keys = some (keys.after word.length)
  body : records.bodyBytes = bodySize word
  reaches : Reaches records.direction records.phase word
  within : Within records.direction word

theorem Standing.fresh (keys : Keys S) (direction : Direction) (header : Option S.Bytes) :
    Standing keys (fromKeys keys direction header) [] where
  sequence := rfl
  keyed _ := rfl
  body := rfl
  reaches := reaches_start direction
  within := ⟨Nat.zero_le _, nofun, Nat.zero_le _⟩

namespace Standing

variable {keys : Keys S} {records : Records S} {word : List Letter} {kind : Kind} {size : Nat}

theorem tail (standing : Standing keys records word) (phase : records.phase = .tail) : records.direction = .request :=
  tail_request standing.reaches phase

theorem check_iff (standing : Standing keys records word) (fits : encodedSize word.length size ≤ maxRecordBytes) :
    records.check kind size = .ok () ↔ Allowed records.direction (word ++ [(kind, size)]) := by
  have size_le : size ≤ maxRecordPlaintext := by
    simp only [encodedSize, maxRecordPlaintext, recordOverhead] at fits ⊢
    omega
  constructor
  · intro checked
    obtain ⟨below, -, room, moves⟩ := check_moves standing.tail checked
    refine ⟨prefix_iff.mpr ⟨_, standing.reaches.move moves⟩, ?_, ?_, ?_⟩
    · rw [List.length_append, ← standing.sequence]
      exact below
    · intro place letter found
      rcases Nat.lt_or_ge place word.length with earlier | last
      · rw [List.getElem?_append_left earlier] at found
        exact standing.within.encoded place letter found
      · rw [List.getElem?_append_right last, List.getElem?_singleton] at found
        obtain ⟨same, found⟩ := Option.ite_none_right_eq_some.mp found
        cases found
        rw [show place = word.length by omega]
        exact fits
    · rw [bodySize_append, ← standing.body]
      split
      next data => exact room data
      next => rw [standing.body]; exact standing.within.body
  · rintro ⟨completes, within⟩
    obtain ⟨phase, reaches⟩ := prefix_iff.mp completes
    obtain ⟨before, reached, moves⟩ := reaches.last
    cases reached.unique standing.reaches
    refine check_of_moves moves ?_ size_le ?_
    · have count := within.records
      rw [List.length_append] at count
      rw [standing.sequence]
      exact count
    · intro data
      have room := within.body
      rwa [bodySize_append, if_pos data, ← standing.body] at room

theorem advance (standing : Standing keys records word) (fits : encodedSize word.length size ≤ maxRecordBytes)
    (checked : records.check kind size = .ok ()) :
    Standing keys ({ records with keys := some (keys.after (word.length + 1)) }.advance kind size)
      (word ++ [(kind, size)]) := by
  obtain ⟨-, -, -, moves⟩ := check_moves standing.tail checked
  obtain ⟨-, within⟩ := (standing.check_iff fits).mp checked
  have reaches := standing.reaches.move moves
  have body := standing.body
  refine ⟨?_, ?_, ?_, ?_, ?_⟩
  · rw [List.length_append, ← standing.sequence]
    cases kind <;> rfl
  · rw [List.length_append]
    cases kind with
    | finished => exact fun open_ => absurd rfl open_
    | metadata => exact fun _ => rfl
    | data => exact fun _ => rfl
    | keepalive => exact fun _ => rfl
  · rw [bodySize_append, ← body]
    cases kind <;> rfl
  · cases kind <;> exact reaches
  · cases kind <;> exact within

theorem nextKey (standing : Standing keys records word) (live : records.phase ≠ .finished) :
    records.nextKey = .ok (keys.key word.length, nonce S word.length,
      { records with keys := some (keys.after (word.length + 1)) }) := by
  rw [Records.nextKey, standing.keyed live, standing.sequence]
  rfl

section Opening

variable (laws : S.Sealing) (standing : Standing keys records word) {plaintext bytes : S.Bytes}
  (authentic : Authentic keys word.length plaintext bytes)
include laws standing authentic

theorem opening_iff {output after} :
    records.opening bytes = .ok (output, after) ↔
      parse plaintext = some output ∧ Allowed records.direction (word ++ [letter output]) ∧
      after = { records with keys := some (keys.after (word.length + 1)) }.advance output.1 output.2.length := by
  obtain ⟨header, sealedBytes, width, encrypted, shape⟩ := authentic
  have sized := laws.length _ _ _ _ _ encrypted
  have opened := laws.opens _ _ _ _ _ encrypted
  rw [← standing.sequence] at shape
  obtain ⟨kind, content⟩ := output
  have total (parsed : parse plaintext = some (kind, content)) : bytes.length = encodedSize word.length content.length := by
    rw [shape, List.length_append, front_length, start_length width, sized, parse_length parsed, encodedSize,
      standing.sequence, recordOverhead]
    dsimp only
    omega
  have frame {offset : Nat} : records.checkEncoded bytes = .ok offset ↔ _ := shape ▸ checkEncoded_front width sized
  have decrypted : decryptNow (keys.key word.length) (nonce S word.length) (bytes.take (front records.sequence header
      plaintext.length).length) (bytes.drop (front records.sequence header plaintext.length).length) = .ok plaintext := by
    rw [shape, List.take_left' rfl, List.drop_left' rfl, standing.sequence]
    exact decryptNow_ok.mpr ⟨by omega, opened⟩
  simp only [Records.opening, bind_ok, pure_ok, Prod.mk.injEq]
  constructor
  · intro opening
    obtain ⟨offset, framed, next, found, text, read, ⟨_, _, _⟩, accepted, ⟨rfl, rfl⟩, rfl⟩ := opening
    obtain ⟨⟨live, -⟩, -, -, fits, rfl⟩ := frame.mp framed
    rw [standing.nextKey live] at found
    cases found
    rw [decrypted] at read
    cases read
    obtain ⟨parsed, checked, same⟩ := acceptOpen_ok.mp accepted
    exact ⟨parsed, (standing.check_iff (total parsed ▸ fits)).mp checked, same⟩
  · intro allowed
    obtain ⟨parsed, allowed, rfl⟩ := allowed
    have fits := allowed.2.encoded word.length (kind, content.length) (by simp [letter])
    have checked := (standing.check_iff fits).mpr allowed
    obtain ⟨below, -, -⟩ := check_moves standing.tail checked
    have filled := parse_length parsed
    rw [← total parsed] at fits
    exact ⟨_, frame.mpr ⟨check_live checked, below, by omega, fits, rfl⟩, _, standing.nextKey (check_live checked).1, plaintext, decrypted,
      _, acceptOpen_ok.mpr ⟨parsed, checked, rfl⟩, ⟨rfl, rfl⟩, rfl⟩

/-- A record that may come next is taken. -/
theorem takes {output} (parsed : parse plaintext = some output) (allowed : Allowed records.direction (word ++ [letter output])) :
    ∃ after, records.openRecord bytes = (.ok output, after) ∧ after.direction = records.direction ∧
      Standing keys after (word ++ [letter output]) := by
  have opened := (standing.opening_iff laws authentic).mpr ⟨parsed, allowed, rfl⟩
  have fits := allowed.2.encoded word.length (letter output) (by simp)
  refine ⟨_, by rw [openRecord, opened], ?_, standing.advance fits ((standing.check_iff fits).mpr allowed)⟩
  cases output.1 <;> rfl

theorem refuses (other : ∀ output, parse plaintext = some output → ¬ Allowed records.direction (word ++ [letter output])) :
    ∃ error, records.openRecord bytes = (.error error, records.close) := by
  cases opened : records.opening bytes with
  | error error => exact ⟨error, by rw [openRecord, opened]⟩
  | ok result =>
    obtain ⟨parsed, allowed, -⟩ := (standing.opening_iff laws authentic).mp opened
    exact absurd allowed (other _ parsed)

end Opening

theorem finished_iff (standing : Standing keys records word) : records.phase = .finished ↔ Word records.direction word := by
  constructor
  · intro finished
    have reaches := standing.reaches
    rw [finished] at reaches
    exact reaches_finished.mp reaches
  · intro whole
    exact standing.reaches.unique (reaches_finished.mpr whole)

theorem openAll_reads (laws : S.Sealing) {taken contents : List (Kind × S.Bytes)} {sent : List (S.Bytes × S.Bytes)}
    (standing : Standing keys records (taken.map letter))
    (authentic : ∀ place record, sent[place]? = some record → Authentic keys (taken.length + place) record.1 record.2)
    (parsed : (sent.map Prod.fst).map parse = contents.map some)
    (allowed : Allowed records.direction ((taken ++ contents).map letter)) :
    ∃ final, records.openAll (sent.map Prod.snd) = (contents.map .ok, final) ∧ final.direction = records.direction ∧
      Standing keys final ((taken ++ contents).map letter) := by
  induction sent generalizing records taken contents with
  | nil =>
    cases contents with
    | nil => exact ⟨records, rfl, rfl, by rwa [List.append_nil]⟩
    | cons output contents => cases parsed
  | cons record sent ih =>
    cases contents with
    | nil => cases parsed
    | cons output contents =>
      obtain ⟨head, tail⟩ := List.cons_eq_cons.mp parsed
      have split : taken ++ output :: contents = (taken ++ [output]) ++ contents := by simp
      rw [split, List.map_append] at allowed
      have first : Allowed records.direction (taken.map letter ++ [letter output]) := by
        simpa using allowed.of_append
      have here := authentic 0 record rfl
      rw [Nat.add_zero, ← List.length_map letter] at here
      obtain ⟨after, opened, kept, stands⟩ := standing.takes laws here head first
      rw [← kept, ← List.map_append] at allowed
      have stands : Standing keys after ((taken ++ [output]).map letter) := by simpa using stands
      have later : ∀ place other, sent[place]? = some other →
          Authentic keys ((taken ++ [output]).length + place) other.1 other.2 := by
        intro place other found
        rw [List.length_append, List.length_singleton, Nat.add_assoc, Nat.add_comm 1]
        exact authentic (place + 1) other found
      obtain ⟨final, run, same, ended⟩ := ih stands later tail allowed
      rw [split]
      refine ⟨final, ?_, same.trans kept, ended⟩
      simp only [List.map_cons, Records.openAll, opened, run]

end Standing

theorem openAll_append (records : Records S) (first second : List S.Bytes) :
    records.openAll (first ++ second) =
      ((records.openAll first).1 ++ ((records.openAll first).2.openAll second).1,
        ((records.openAll first).2.openAll second).2) := by
  induction first generalizing records with
  | nil => rfl
  | cons bytes first ih => simp only [List.cons_append, openAll, ih]

theorem openRecord_ok {after} :
    records.openRecord bytes = (.ok output, after) ↔ records.opening bytes = .ok (output, after) := by
  unfold openRecord
  cases records.opening bytes <;> simp [Prod.ext_iff]

theorem openAll_single {after} :
    records.openAll [bytes] = ([.ok output], after) ↔ records.opening bytes = .ok (output, after) := by
  rw [← openRecord_ok]
  simp [openAll, Prod.ext_iff]

theorem openAll_reaches {after : Records S} {frames : List S.Bytes} {contents : List (Kind × S.Bytes)} {word : List Letter}
    (reaches : Reaches records.direction records.phase word) (opened : records.openAll frames = (contents.map .ok, after)) :
    after.direction = records.direction ∧ Reaches records.direction after.phase (word ++ contents.map letter) := by
  induction frames generalizing records contents word with
  | nil =>
    obtain ⟨nothing, rfl⟩ := Prod.mk.inj opened
    cases List.map_eq_nil_iff.mp nothing.symm
    exact ⟨rfl, by rwa [List.map_nil, List.append_nil]⟩
  | cons frame frames ih =>
    obtain ⟨outputs, last⟩ := Prod.mk.inj opened
    cases contents with
    | nil => cases outputs
    | cons output contents =>
      obtain ⟨head, tail⟩ := List.cons_eq_cons.mp outputs
      have opening := openRecord_ok.mp (Prod.ext head rfl)
      have same := opening_direction opening
      have moved := opening_reaches reaches opening
      rw [← same] at moved
      obtain ⟨kept, final⟩ := ih moved (Prod.ext tail last)
      rw [same] at kept final
      exact ⟨kept, by simpa using final⟩

theorem openAll_snoc {after frames} {frame : S.Bytes} {contents} :
    records.openAll (frames ++ [frame]) = ((contents ++ [output]).map .ok, after) ↔
      ∃ middle, records.openAll frames = (contents.map .ok, middle) ∧ middle.opening frame = .ok (output, after) := by
  simp only [openAll_append, openAll, Prod.mk.injEq, List.map_append, List.map_cons, List.map_nil]
  constructor
  · rintro ⟨outputs, last⟩
    obtain ⟨earlier, newest⟩ := List.append_singleton_inj.mp outputs
    exact ⟨_, Prod.ext earlier rfl, openRecord_ok.mp (Prod.ext newest last)⟩
  · rintro ⟨middle, earlier, opened⟩
    rw [earlier, openRecord_ok.mpr opened]
    exact ⟨rfl, rfl⟩

theorem exists_stop {direction : Direction} {sent : List (S.Bytes × S.Bytes)}
    (stops : ¬ ∃ contents, Reads direction (sent.map Prod.fst) contents) :
    ∃ first record rest contents, sent = first ++ record :: rest ∧ Reads direction (first.map Prod.fst) contents ∧
      ¬ ∃ contents, Reads direction ((first ++ [record]).map Prod.fst) contents := by
  induction sent using List.reverseRecOn with
  | nil => exact absurd ⟨[], rfl, allowed_nil direction⟩ stops
  | append_singleton sent record ih =>
    by_cases reads : ∃ contents, Reads direction (sent.map Prod.fst) contents
    · obtain ⟨contents, reads⟩ := reads
      exact ⟨sent, record, [], contents, rfl, reads, stops⟩
    · obtain ⟨first, other, rest, contents, rfl, reads, stop⟩ := ih reads
      exact ⟨first, other, rest ++ [record], contents, by simp, reads, stop⟩

/-- A direction takes the records sealed for it exactly as far as the grammar
and its limits go. The first other record closes it for good, and it completes
exactly after a whole word. -/
theorem open_grammar (laws : S.Sealing) (keys : Keys S) (direction : Direction) (header : Option S.Bytes)
    (sent : List (S.Bytes × S.Bytes))
    (authentic : ∀ place record, sent[place]? = some record → Authentic keys place record.1 record.2) :
    let run := (fromKeys keys direction header).openAll (sent.map Prod.snd)
    (∀ contents, Reads direction (sent.map Prod.fst) contents → run.1 = contents.map .ok) ∧
    ((¬ ∃ contents, Reads direction (sent.map Prod.fst) contents) →
      ∃ first record rest contents error, sent = first ++ record :: rest ∧ Reads direction (first.map Prod.fst) contents ∧
        (¬ ∃ contents, Reads direction ((first ++ [record]).map Prod.fst) contents) ∧
        run.1 = contents.map .ok ++ .error error :: List.replicate rest.length (.error .closed) ∧ run.2.Closed) ∧
    (run.2.complete.1 = .ok () ↔
      ∃ contents, Reads direction (sent.map Prod.fst) contents ∧ Word direction (contents.map letter)) := by
  intro run
  have fresh : Standing keys (fromKeys keys direction header) (([] : List (Kind × S.Bytes)).map letter) :=
    Standing.fresh keys direction header
  have accepted {contents} (reads : Reads direction (sent.map Prod.fst) contents) :
      run.1 = contents.map .ok ∧ run.2.direction = direction ∧ Standing keys run.2 (contents.map letter) := by
    obtain ⟨final, opened, kept, stands⟩ := fresh.openAll_reads laws (by simpa using authentic) reads.1 reads.2
    have same : run = (contents.map .ok, final) := opened
    rw [same]
    exact ⟨rfl, kept, stands⟩
  have stopped (stops : ¬ ∃ contents, Reads direction (sent.map Prod.fst) contents) :
      ∃ first record rest contents error, sent = first ++ record :: rest ∧ Reads direction (first.map Prod.fst) contents ∧
        (¬ ∃ contents, Reads direction ((first ++ [record]).map Prod.fst) contents) ∧
        run.1 = contents.map .ok ++ .error error :: List.replicate rest.length (.error .closed) ∧ run.2.Closed := by
    obtain ⟨first, record, rest, contents, rfl, reads, stop⟩ := exists_stop stops
    have early : ∀ place other, first[place]? = some other →
        Authentic keys (([] : List (Kind × S.Bytes)).length + place) other.1 other.2 := by
      intro place other found
      rw [List.length_nil, Nat.zero_add]
      apply authentic
      rwa [List.getElem?_append_left (List.getElem?_eq_some_iff.mp found).1]
    obtain ⟨final, opened, kept, stands⟩ := fresh.openAll_reads laws early reads.1 reads.2
    have count : first.length = (contents.map letter).length := by
      simpa using congrArg List.length reads.1
    have here := authentic first.length record (by simp)
    rw [count] at here
    obtain ⟨error, refused⟩ := Standing.refuses laws stands here (by
      intro output parsed allowed
      rw [kept] at allowed
      refine stop ⟨contents ++ [output], ?_, ?_⟩
      · simp only [List.map_append, List.map_cons, List.map_nil, parsed]
        rw [← reads.1]
      · rw [List.map_append]
        exact allowed)
    refine ⟨first, record, rest, contents, error, rfl, reads, stop, ?_⟩
    have closed := close_closed final
    have shape : run = (contents.map .ok ++ .error error :: List.replicate rest.length (.error .closed), final.close) := by
      simp only [run, List.map_append, List.map_cons, openAll_append, opened, openAll, refused, closed.openAll, List.length_map]
    rw [shape]
    exact ⟨rfl, closed⟩
  refine ⟨fun contents reads => (accepted reads).1, stopped, ?_⟩
  constructor
  · intro completed
    by_cases reads : ∃ contents, Reads direction (sent.map Prod.fst) contents
    · obtain ⟨contents, reads⟩ := reads
      obtain ⟨-, kept, stands⟩ := accepted reads
      refine ⟨contents, reads, kept ▸ stands.finished_iff.mp ?_⟩
      unfold complete at completed
      split at completed
      next finished => exact finished
      next => cases completed
    · obtain ⟨_, _, _, _, _, _, _, _, _, closed⟩ := stopped reads
      rw [closed.completes] at completed
      cases completed
  · rintro ⟨contents, reads, whole⟩
    obtain ⟨-, kept, stands⟩ := accepted reads
    rw [complete, if_pos (stands.finished_iff.mpr (kept ▸ whole))]

def sampleKeys : Keys symbolic := ⟨Term.atom 0⟩

def sampleHeader : symbolic.Bytes := List.replicate headerBytes (0 : Nat)

def sampleRecord (place : Nat) (plaintext : List Nat) : symbolic.Bytes × symbolic.Bytes :=
  let aad : List Nat := front (S := symbolic) place sampleHeader plaintext.length
  (plaintext, aad ++ Symbolic.encrypt (sampleKeys.key place) (nonce symbolic place) aad plaintext)

def sampleRecords (plaintexts : List (List Nat)) : List (symbolic.Bytes × symbolic.Bytes) := plaintexts.mapIdx sampleRecord

theorem sampleRecords_authentic (plaintexts : List (List Nat)) (place : Nat) (record : symbolic.Bytes × symbolic.Bytes)
    (found : (sampleRecords plaintexts)[place]? = some record) : Authentic sampleKeys place record.1 record.2 := by
  rw [sampleRecords, List.getElem?_mapIdx] at found
  obtain ⟨plaintext, -, rfl⟩ := Option.map_eq_some_iff.mp found
  exact ⟨sampleHeader, _, List.length_replicate .., rfl, rfl⟩

def sampleContents : List (Kind × symbolic.Bytes) := [(.metadata, [(7 : Nat)]), (.data, [(5 : Nat)]), (.finished, [])]

private theorem sampleContents_word : Word .request (sampleContents.map letter) := ⟨1, 0, by decide, some 1, by decide, rfl⟩

private theorem sampleContents_read : Reads .request ((sampleRecords [[1, 7], [2, 5], [3]]).map Prod.fst) sampleContents := by
  refine ⟨rfl, ⟨[], by rw [List.append_nil]; exact sampleContents_word⟩, by decide, ?_, by decide⟩
  intro place letter found
  rcases place with _ | _ | _ | place <;> cases found <;> decide

private theorem metadata_once (contents : List (Kind × symbolic.Bytes)) :
    ¬ Reads .request ((sampleRecords [[1, 7], [1, 7]]).map Prod.fst) contents := by
  rintro ⟨parsed, ⟨rest, metadata, full, -, last, -, word⟩, -⟩
  have twice : contents = [(.metadata, [(7 : Nat)]), (.metadata, [(7 : Nat)])] :=
    List.map_injective_iff.mpr (Option.some_injective _) parsed.symm
  subst twice
  have second := congrArg (·[1]?) word
  rcases full with _ | full <;> rcases last with _ | last <;> cases second

/-- Metadata, a short data record and the completion are a request. Metadata twice is refused. -/
theorem open_grammar_sample :
    ((fromKeys sampleKeys .request none).openAll ((sampleRecords [[1, 7], [2, 5], [3]]).map Prod.snd)).1 = sampleContents.map .ok ∧
    ((fromKeys sampleKeys .request none).openAll ((sampleRecords [[1, 7], [2, 5], [3]]).map Prod.snd)).2.complete.1 = .ok () ∧
    ((fromKeys sampleKeys .request none).openAll ((sampleRecords [[1, 7], [1, 7]]).map Prod.snd)).2.Closed := by
  obtain ⟨opens, -, completes⟩ := open_grammar Symbolic.sealing sampleKeys .request none _ (sampleRecords_authentic [[1, 7], [2, 5], [3]])
  obtain ⟨-, refuses, -⟩ := open_grammar Symbolic.sealing sampleKeys .request none _ (sampleRecords_authentic [[1, 7], [1, 7]])
  refine ⟨opens _ sampleContents_read, completes.mpr ⟨_, sampleContents_read, sampleContents_word⟩, ?_⟩
  obtain ⟨_, _, _, _, _, -, -, -, -, closed⟩ := refuses (not_exists.mpr metadata_once)
  exact closed

end Records
end StogasVerifier.Channel
