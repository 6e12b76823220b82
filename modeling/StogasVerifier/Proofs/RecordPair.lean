import StogasVerifier.Proofs.RecordRuns

/-! Two ends of one direction: what the receiver makes of the records of the
sender, and of anything else. -/

namespace StogasVerifier.Channel
open Lib Grammar

variable {S : Suite}

namespace Records

def sealAll (records : Records S) : List (Kind × S.Bytes) → List (Except Error S.Bytes) × Records S
  | [] => ([], records)
  | content :: rest =>
    let result := records.sealRecord content.1 content.2
    let run := result.2.sealAll rest
    (result.1 :: run.1, run.2)

def plain (content : Kind × S.Bytes) : S.Bytes := S.u8 content.1.code :: content.2

theorem parse_plain (content : Kind × S.Bytes) : parse (plain content) = some content := by
  simp [parse, plain, S.value_u8 _ content.1.code_lt, Except.toOption]

theorem start_later {place : Nat} (later : place ≠ 0) (header : S.Bytes) : start place header = [] := if_neg later

section Sealing

variable {records : Records S} {kind : Kind} {content : S.Bytes}

theorem sealRecord_iff {bytes : S.Bytes} {after} :
    records.sealRecord kind content = (.ok bytes, after) ↔ records.sealing kind content = .ok (bytes, after) := by
  unfold sealRecord
  cases records.sealing kind content <;> simp [Prod.ext_iff]

theorem encode_ok {encoded : S.Bytes} :
    records.encode kind content = .ok encoded ↔
      records.check kind content.length = .ok () ∧ ∃ header, (records.sequence = 0 → records.header = some header) ∧
        recordOverhead + content.length + (start records.sequence header).length ≤ maxRecordBytes ∧
        encoded = front records.sequence header (content.length + 1) ++ (S.u8 kind.code :: content) := by
  have total (size : Nat) : recordOverhead + content.length + size = 4 + size + (content.length + 1) + 16 := by
    rw [recordOverhead]
    omega
  simp only [encode, bind_ok, pure_ok, reject_ok]
  by_cases zero : records.sequence = 0
  · have shape (header : S.Bytes) : start records.sequence header = S.be 2 header.length ++ header := if_pos zero
    constructor
    · intro encoding
      obtain ⟨_, checked, held, found, _, fits, _, _, rfl⟩ := encoding
      rw [if_pos zero] at found
      cases carried : records.header with
      | none => rw [carried] at found; cases found
      | some header =>
        rw [carried] at found
        cases found
        simp only [Option.elim_some] at fits
        refine ⟨checked, header, fun _ => rfl, ?_, ?_⟩
        · rw [shape, List.length_append, toBe_length]
          omega
        · rw [front, ← total, shape, List.length_append, toBe_length]
          simp
    · rintro ⟨checked, header, carried, fits, same⟩
      rw [shape, List.length_append, toBe_length] at fits
      refine ⟨(), checked, some header, by rw [if_pos zero, carried zero], (), ?_, (), ?_, ?_⟩
      · rw [Option.elim_some]
        omega
      · rw [Option.elim_some]
        simp only [maxRecordBytes] at fits
        omega
      · rw [same, front, ← total, shape, List.length_append, toBe_length]
        simp
  · have shape (header : S.Bytes) : start records.sequence header = [] := start_later zero header
    constructor
    · intro encoding
      obtain ⟨_, checked, held, found, _, fits, _, _, rfl⟩ := encoding
      rw [if_neg zero] at found
      cases found
      simp only [Option.elim_none] at fits
      refine ⟨checked, [], fun same => absurd same zero, ?_, ?_⟩
      · rw [shape, List.length_nil]
        omega
      · rw [front, ← total, shape]
        simp
    · rintro ⟨checked, header, carried, fits, same⟩
      rw [shape, List.length_nil] at fits
      refine ⟨(), checked, none, by rw [if_neg zero], (), by rw [Option.elim_none]; omega, (), by simp, ?_⟩
      rw [same, front, ← total, shape]
      simp

theorem prefixSize_width {header rest : S.Bytes} {length offset : Nat} (zero : records.sequence = 0)
    (narrow : header.length < 256 ^ 2)
    (sized : records.prefixSize (front records.sequence header length ++ rest) = .ok offset) :
    header.length = headerBytes := by
  have field : ((front records.sequence header length ++ rest).drop 4).take 2 = S.be 2 header.length := by
    rw [front, List.append_assoc, List.drop_left' (toBe_length _ _ _), start, if_pos zero, List.append_assoc,
      List.take_left' (toBe_length _ _ _)]
  have value : S.number (S.be 2 header.length) = header.length := ofBe_toBe _ _ _ narrow
  rw [prefixSize, if_pos zero] at sized
  obtain ⟨_, _, sized⟩ := bind_ok.mp sized
  obtain ⟨_, matched, -⟩ := bind_ok.mp sized
  simp only [field, value, reject_ok] at matched
  exact not_not.mp (not_or.mp matched).1

end Sealing

namespace Standing

variable {keys : Keys S} {records : Records S} {word : List Letter} {kind : Kind} {content bytes : S.Bytes} {after : Records S}

theorem sealing_iff (standing : Standing keys records word) :
    records.sealing kind content = .ok (bytes, after) ↔
      records.check kind content.length = .ok () ∧ encodedSize word.length content.length ≤ maxRecordBytes ∧
      (∃ header sealedBytes, (records.sequence = 0 → records.header = some header) ∧ header.length = headerBytes ∧
        S.encrypt (keys.key word.length) (nonce S word.length) (front word.length header (content.length + 1))
          (S.u8 kind.code :: content) = some sealedBytes ∧
        bytes = front word.length header (content.length + 1) ++ sealedBytes) ∧
      after = { records with keys := some (keys.after (word.length + 1)) }.advance kind content.length := by
  have position := standing.sequence
  have filled : S.u8 kind.code :: content ≠ [] := List.cons_ne_nil _ _
  have taken (header : S.Bytes) (rest : S.Bytes) : (front records.sequence header (content.length + 1) ++ rest).take
      (front records.sequence header (content.length + 1)).length = front records.sequence header (content.length + 1) :=
    List.take_left' rfl
  have dropped (header : S.Bytes) (rest : S.Bytes) : (front records.sequence header (content.length + 1) ++ rest).drop
      (front records.sequence header (content.length + 1)).length = rest := List.drop_left' rfl
  simp only [sealing, bind_ok, pure_ok, encode_ok, Prod.mk.injEq]
  constructor
  · intro sealing
    obtain ⟨_, ⟨checked, header, carried, fits, rfl⟩, offset, sized, _, found, cipher, encrypted, rfl, rfl⟩ := sealing
    -- past the first record the frame does not depend on the header
    obtain ⟨used, same, carried, width⟩ : ∃ used, start records.sequence used = start records.sequence header ∧
        (records.sequence = 0 → records.header = some used) ∧ used.length = headerBytes := by
      by_cases zero : records.sequence = 0
      · refine ⟨header, rfl, carried, prefixSize_width zero ?_ sized⟩
        rw [start, if_pos zero, List.length_append] at fits
        simp only [maxRecordBytes, recordOverhead] at fits
        omega
      · exact ⟨List.replicate headerBytes (S.u8 0), by rw [start_later zero, start_later zero],
          fun again => absurd again zero, List.length_replicate ..⟩
    have swap : front records.sequence header (content.length + 1) = front records.sequence used (content.length + 1) := by
      rw [front, front, same]
    rw [swap, prefixSize_front width filled] at sized
    cases sized
    rw [standing.nextKey (check_live checked).1] at found
    cases found
    rw [swap, taken, dropped] at encrypted
    rw [swap, taken]
    rw [← same, start_length width] at fits
    unfold encryptNow at encrypted
    split at encrypted
    next sealedBytes success =>
      cases encrypted
      rw [position] at success ⊢
      exact ⟨checked, by rw [encodedSize, ← position]; exact fits, ⟨used, cipher, by rwa [position] at carried, width, success, rfl⟩, rfl⟩
    next => cases encrypted
  · intro sealing
    obtain ⟨checked, fits, ⟨header, sealedBytes, carried, width, encrypted, rfl⟩, rfl⟩ := sealing
    rw [← position] at encrypted
    refine ⟨_, ⟨checked, header, carried, ?_, rfl⟩, _, prefixSize_front width filled, _,
      standing.nextKey (check_live checked).1, sealedBytes, ?_, ?_, rfl⟩
    · rw [start_length width, position]
      exact fits
    · rw [taken, dropped, encryptNow, ← position, encrypted]
    · rw [taken, position]

theorem sealRecord_ok (standing : Standing keys records word) (succeeds : records.sealRecord kind content = (.ok bytes, after)) :
    Authentic keys word.length (plain (kind, content)) bytes ∧ after.direction = records.direction ∧
      Standing keys after (word ++ [letter (kind, content)]) := by
  obtain ⟨checked, fits, ⟨header, sealedBytes, -, width, encrypted, shape⟩, same⟩ :=
    standing.sealing_iff.mp (sealRecord_iff.mp succeeds)
  subst same
  refine ⟨⟨header, sealedBytes, width, encrypted, shape⟩, ?_, standing.advance fits checked⟩
  cases kind <;> rfl

theorem sealRecord_succeeds (laws : S.Sealing) (standing : Standing keys records word)
    (headed : records.sequence = 0 → ∃ header, records.header = some header ∧ header.length = headerBytes)
    (allowed : Allowed records.direction (word ++ [letter (kind, content)])) :
    ∃ bytes after, records.sealRecord kind content = (.ok bytes, after) := by
  have fits := allowed.2.encoded word.length (letter (kind, content)) (by simp)
  have checked := (standing.check_iff fits).mpr allowed
  obtain ⟨header, carried, width⟩ : ∃ header, (records.sequence = 0 → records.header = some header) ∧
      header.length = headerBytes := by
    by_cases zero : records.sequence = 0
    · obtain ⟨header, carried, width⟩ := headed zero
      exact ⟨header, fun _ => carried, width⟩
    · exact ⟨List.replicate headerBytes (S.u8 0), fun again => absurd again zero, List.length_replicate ..⟩
  obtain ⟨sealedBytes, encrypted⟩ := laws.total (keys.key word.length) (nonce S word.length)
    (front word.length header (content.length + 1)) (S.u8 kind.code :: content) (by
      simp only [letter, encodedSize, recordOverhead, maxRecordBytes] at fits
      rw [List.length_cons]
      omega)
  have sealed := standing.sealing_iff.mpr ⟨checked, fits, ⟨header, sealedBytes, carried, width, encrypted, rfl⟩, rfl⟩
  exact ⟨_, _, by rw [sealRecord, sealed]⟩

/-- The records of successful seals are authentic, and the sender keeps pace
with what it sealed. -/
theorem sealAll_ok {taken contents encoded final}
    (standing : Standing keys records (taken.map letter)) (succeeds : records.sealAll contents = (encoded.map .ok, final)) :
    encoded.length = contents.length ∧
      (∀ place record, ((contents.map plain).zip encoded)[place]? = some record →
        Authentic keys (taken.length + place) record.1 record.2) ∧
      final.direction = records.direction ∧ Standing keys final ((taken ++ contents).map letter) := by
  induction contents generalizing records taken encoded with
  | nil =>
    obtain ⟨nothing, rfl⟩ := Prod.mk.inj succeeds
    cases List.map_eq_nil_iff.mp nothing.symm
    exact ⟨rfl, nofun, rfl, by rwa [List.append_nil]⟩
  | cons content contents ih =>
    obtain ⟨outputs, rest⟩ := Prod.mk.inj succeeds
    cases encoded with
    | nil => cases outputs
    | cons bytes encoded =>
      obtain ⟨head, tail⟩ := List.cons_eq_cons.mp outputs
      obtain ⟨authentic, kept, stands⟩ := standing.sealRecord_ok (Prod.ext head rfl)
      have stands : Standing keys (records.sealRecord content.1 content.2).2 ((taken ++ [content]).map letter) := by
        simpa using stands
      obtain ⟨count, later, same, ended⟩ := ih stands (Prod.ext tail rest)
      refine ⟨congrArg (· + 1) count, ?_, same.trans kept, by simpa using ended⟩
      intro place record found
      cases place with
      | zero =>
        cases found
        rwa [List.length_map] at authentic
      | succ place =>
        have here := later place record found
        rwa [List.length_append, List.length_singleton, Nat.add_assoc, Nat.add_comm 1] at here

theorem agree {other} {otherKeys : Keys S} (standing : Standing keys records word)
    (stands : Standing otherKeys other word) (same : records.direction = other.direction) :
    records.sequence = other.sequence ∧ records.phase = other.phase ∧ records.bodyBytes = other.bodyBytes := by
  have reaches := stands.reaches
  rw [← same] at reaches
  exact ⟨standing.sequence.trans stands.sequence.symm, standing.reaches.unique reaches, standing.body.trans stands.body.symm⟩

end Standing

theorem sealAll_take (records : Records S) (contents : List (Kind × S.Bytes)) (count : Nat) :
    (records.sealAll (contents.take count)).1 = (records.sealAll contents).1.take count := by
  induction contents generalizing records count with
  | nil => rw [List.take_nil, sealAll, List.take_nil]
  | cons content contents ih =>
    cases count with
    | zero => rfl
    | succ count => simp only [List.take_succ_cons, sealAll, ih]

theorem Closed.sealAll {records : Records S} (closed : records.Closed) (contents : List (Kind × S.Bytes)) :
    (records.sealAll contents).1 = List.replicate contents.length (.error .closed) := by
  induction contents with
  | nil => rfl
  | cons content contents ih => simp only [Records.sealAll, closed.seals, ih, List.length_cons, List.replicate_succ]

theorem sealAll_succeeds {records : Records S} {contents : List (Kind × S.Bytes)} {place : Nat} {bytes : S.Bytes}
    (found : (records.sealAll contents).1[place]? = some (.ok bytes)) :
    ∃ encoded : List S.Bytes, (records.sealAll (contents.take (place + 1))).1 = encoded.map .ok ∧ encoded[place]? = some bytes := by
  induction contents generalizing records place with
  | nil => cases found
  | cons content contents ih =>
    cases place with
    | zero =>
      have first := Option.some.inj found
      refine ⟨[bytes], ?_, rfl⟩
      simp only [List.take_succ_cons, List.take_zero, sealAll, first, List.map_singleton]
    | succ place =>
      cases result : records.sealRecord content.1 content.2 with
      | mk output next =>
        have found : (next.sealAll contents).1[place]? = some (.ok bytes) := by
          simpa only [sealAll, result, List.getElem?_cons_succ] using found
        cases output with
        | error error =>
          have closed : next = records.close := by
            unfold sealRecord at result
            split at result
            · cases result
            · exact (Prod.mk.inj result).2.symm
          rw [closed, (close_closed records).sealAll] at found
          cases (List.eq_of_mem_replicate (List.mem_of_getElem? found))
        | ok first =>
          obtain ⟨encoded, outputs, last⟩ := ih found
          refine ⟨first :: encoded, ?_, last⟩
          simp only [List.take_succ_cons, sealAll, result, outputs, List.map_cons]

end Records

/-- What the keys of one direction of one request are derived from. -/
structure Origin (S : Suite) where
  secret : S.Secret
  sessionId : S.Bytes
  number : Nat
  direction : Direction
  bounded : number < 2 ^ 64

namespace Origin

def keys (origin : Origin S) : Keys S := Keys.new origin.secret origin.sessionId origin.number origin.direction

theorem ext_of_keys (free : S.RecordFree) {first second : Origin S} (same : first.keys.chain = second.keys.chain) :
    first = second := by
  obtain ⟨secrets, infos, -⟩ := free _ _ _ _ _ _ same
  obtain ⟨infos, tagged⟩ := List.append_inj' infos rfl
  obtain ⟨infos, numbers⟩ := List.append_inj' infos (by rw [toBe_length, toBe_length])
  have sessions := List.append_cancel_left infos
  have codes (direction : Direction) : S.value (S.u8 direction.code) = direction.code :=
    S.value_u8 _ (by cases direction <;> decide)
  obtain ⟨secret, sessionId, number, direction, bounded⟩ := first
  obtain ⟨secret', sessionId', number', direction', bounded'⟩ := second
  have tags := congrArg S.value (List.singleton_inj.mp tagged)
  rw [codes, codes] at tags
  have directions : direction = direction' := by
    cases direction <;> cases direction' <;> simp [Direction.code] at tags ⊢
  simp only [Origin.mk.injEq]
  exact ⟨secrets, sessions, toBe_injective _ bounded bounded' numbers, directions⟩

theorem chain_injective (free : S.RecordFree) {first second : Keys S} {place : Nat}
    (same : (first.after place).chain = (second.after place).chain) : first.chain = second.chain := by
  induction place with
  | zero => exact same
  | succ place ih => exact ih (free _ _ _ _ _ _ same).1

theorem key_injective (free : S.RecordFree) {first second : Origin S} {place position : Nat}
    (placeFits : place < 2 ^ 64) (positionFits : position < 2 ^ 64)
    (same : first.keys.key place = second.keys.key position) : first = second ∧ place = position := by
  obtain ⟨chains, infos, -⟩ := free _ _ _ _ _ _ same
  cases toBe_injective _ placeFits positionFits (List.append_cancel_left infos)
  exact ⟨ext_of_keys free (chain_injective free chains), rfl⟩

def sender (origin : Origin S) (header : S.Bytes) : Records S :=
  Records.new origin.secret origin.sessionId origin.number origin.direction header

end Origin

abbrev Calls (S : Suite) := Origin S → S.Bytes × List (Kind × S.Bytes)

namespace Calls

variable (calls : Calls S)

def results (origin : Origin S) : List (Except Error S.Bytes) :=
  ((origin.sender (calls origin).1).sealAll (calls origin).2).1

/-- Ideal encryption: what opens under a key of the origin was sealed under that
key, whichever origin used it. -/
def Unforged (origin : Origin S) (bytes : S.Bytes) : Prop :=
  ∀ place nonceBytes aad sealedBytes plaintext, bytes = aad ++ sealedBytes →
    S.decrypt (origin.keys.key place) nonceBytes aad sealedBytes = some plaintext →
    ∃ maker position, maker.keys.key position = origin.keys.key place ∧ (calls.results maker)[position]? = some (.ok bytes)

end Calls

namespace Records

theorem Standing.sender (origin : Origin S) (header : S.Bytes) :
    Standing origin.keys (origin.sender header) (([] : List (Kind × S.Bytes)).map letter) :=
  Standing.fresh origin.keys origin.direction (some header)

theorem results_place {calls : Calls S} {origin : Origin S} {place : Nat} {bytes : S.Bytes}
    (found : (calls.results origin)[place]? = some (.ok bytes)) : place < maxRecords := by
  obtain ⟨encoded, outputs, last⟩ := sealAll_succeeds found
  obtain ⟨count, -, -, stands⟩ := (Standing.sender origin (calls origin).1).sealAll_ok (Prod.ext outputs rfl)
  have within := stands.within.records
  have bound := (List.getElem?_eq_some_iff.mp last).1
  rw [List.length_map, List.nil_append, ← count] at within
  omega

theorem Standing.rejects (free : S.RecordFree) {calls : Calls S} {origin : Origin S} {records word}
    (standing : Standing origin.keys records word) {bytes : S.Bytes} (unforged : calls.Unforged origin bytes)
    (other : (calls.results origin)[word.length]? ≠ some (.ok bytes)) :
    ∃ error, records.openRecord bytes = (.error error, records.close) := by
  cases opened : records.opening bytes with
  | error error => exact ⟨error, by rw [openRecord, opened]⟩
  | ok result =>
    exfalso
    simp only [opening, bind_ok] at opened
    obtain ⟨offset, framed, _, found, plaintext, read, -⟩ := opened
    obtain ⟨_, live, framed⟩ := bind_ok.mp framed
    obtain ⟨_, below, -⟩ := bind_ok.mp framed
    have below := reject_ok.mp below
    rw [standing.nextKey (not_or.mp (reject_ok.mp live)).1] at found
    cases found
    obtain ⟨maker, position, same, made⟩ := unforged _ _ _ _ _ (List.take_append_drop offset bytes).symm
      (decryptNow_ok.mp read).2
    have place := standing.sequence
    have bound := results_place made
    rw [maxRecords] at below bound
    obtain ⟨rfl, rfl⟩ := Origin.key_injective free (by omega) (by omega) same
    exact other made

theorem sealAll_opens (laws : S.Sealing) {keys : Keys S} {direction} {header : S.Bytes} (other : Option S.Bytes) {contents encoded sender}
    (sealed : (fromKeys keys direction (some header)).sealAll contents = (encoded.map .ok, sender)) :
    ∃ receiver, (fromKeys keys direction other).openAll encoded = (contents.map .ok, receiver) ∧
      Standing keys sender (contents.map letter) ∧ Standing keys receiver (contents.map letter) ∧
      sender.direction = direction ∧ receiver.direction = direction ∧ encoded.length = contents.length := by
  have starts (header : Option S.Bytes) : Standing keys (fromKeys keys direction header) (([] : List (Kind × S.Bytes)).map letter) :=
    Standing.fresh keys direction header
  obtain ⟨same, authentic, kept, stands⟩ := (starts (some header)).sealAll_ok sealed
  have plaintexts : ((contents.map plain).zip encoded).map Prod.fst = contents.map plain :=
    List.map_fst_zip (by rw [List.length_map, same])
  have delivered : ((contents.map plain).zip encoded).map Prod.snd = encoded :=
    List.map_snd_zip (by rw [List.length_map, same])
  have parsed : (((contents.map plain).zip encoded).map Prod.fst).map parse = contents.map some := by
    rw [plaintexts, List.map_map]
    exact List.map_congr_left fun content _ => parse_plain content
  have allowed : Allowed direction ((([] : List (Kind × S.Bytes)) ++ contents).map letter) := by
    have reaches := stands.reaches
    have within := stands.within
    rw [kept] at reaches within
    exact ⟨prefix_iff.mpr ⟨_, reaches⟩, within⟩
  obtain ⟨receiver, opened, also, ended⟩ := (starts other).openAll_reads laws authentic parsed allowed
  rw [delivered] at opened
  exact ⟨receiver, opened, stands, ended, kept, also, same⟩

/-- The receiver opens what the sender sealed, in step with it, and anything
else that it is given closes it for good. -/
theorem pair_agrees (laws : S.Sealing) (free : S.RecordFree) (calls : Calls S) (origin : Origin S) (header : Option S.Bytes)
    (count : Nat) (encoded : List S.Bytes) (sent : (calls.results origin).take count = encoded.map .ok) :
    let contents := (calls origin).2.take count
    let sender := ((origin.sender (calls origin).1).sealAll contents).2
    let receiver := (fromKeys origin.keys origin.direction header).openAll encoded
    receiver.1 = contents.map .ok ∧
    sender.sequence = receiver.2.sequence ∧ sender.phase = receiver.2.phase ∧ sender.bodyBytes = receiver.2.bodyBytes ∧
    ∀ bytes, calls.Unforged origin bytes → (calls.results origin)[encoded.length]? ≠ some (.ok bytes) →
      ∃ error, receiver.2.openRecord bytes = (.error error, receiver.2.close) ∧ receiver.2.close.Closed := by
  intro contents sender receiver
  have sealed : (origin.sender (calls origin).1).sealAll contents = (encoded.map .ok, sender) := by
    refine Prod.ext ?_ rfl
    rw [sealAll_take]
    exact sent
  obtain ⟨final, opened, stands, ended, kept, also, same⟩ := sealAll_opens laws header sealed
  have shape : receiver = (contents.map .ok, final) := opened
  obtain ⟨sequences, phases, bodies⟩ := stands.agree ended (kept.trans also.symm)
  rw [shape]
  refine ⟨rfl, sequences, phases, bodies, ?_⟩
  intro bytes unforged other
  rw [same, ← List.length_map letter] at other
  obtain ⟨error, refused⟩ := ended.rejects free unforged other
  exact ⟨error, refused, close_closed final⟩

def sampleOrigin : Origin symbolic := ⟨Term.atom 0, ([1] : List Nat), 0, .request, by decide⟩

def sampleContent : Kind × symbolic.Bytes := (.metadata, ([7] : List Nat))

theorem sampleContent_allowed (direction : Direction) : Allowed direction [letter sampleContent] :=
  allowed_metadata direction Nat.one_pos (by decide)

def sampleCalls : Calls symbolic := fun _ => (sampleHeader, [sampleContent])

theorem sampleCalls_results (origin : Origin symbolic) : ∃ bytes, sampleCalls.results origin = [.ok bytes] := by
  have stands : Standing origin.keys (origin.sender sampleHeader) [] :=
    Standing.fresh origin.keys origin.direction (some sampleHeader)
  obtain ⟨bytes, after, sealed⟩ := stands.sealRecord_succeeds Symbolic.sealing
    (fun _ => ⟨sampleHeader, rfl, List.length_replicate ..⟩) (sampleContent_allowed origin.direction)
  exact ⟨bytes, congrArg (fun result => [Prod.fst result]) sealed⟩

def sampleCut : symbolic.Bytes :=
  Symbolic.encrypt (sampleOrigin.keys.key 0) (nonce symbolic 0) (front (S := symbolic) 0 sampleHeader 2) ([1, 7] : List Nat)

private theorem decrypt_cut {box : Symbolic.Box} {width : Nat} {key : Term} {nonceBytes aad sealedBytes plaintext : List Nat}
    (split : Symbolic.pack width box = aad ++ sealedBytes)
    (opened : Symbolic.decrypt key nonceBytes aad sealedBytes = some plaintext) : box.2.2.1 = aad ∧ aad.length ≤ width := by
  obtain ⟨count, -, same⟩ := List.append_eq_replicate_iff.mp split.symm
  refine ⟨?_, by omega⟩
  cases length : sealedBytes.length with
  | zero =>
    cases List.length_eq_zero_iff.mp length
    cases opened
  | succ size =>
    rw [same, length, ← Symbolic.pack, Symbolic.decrypt, Symbolic.unpack_pack, Option.bind_some] at opened
    exact (Option.ite_none_right_eq_some.mp opened).1.2.2

theorem sampleCut_unforged : sampleCalls.Unforged sampleOrigin sampleCut := by
  intro place nonceBytes aad sealedBytes plaintext split opened
  obtain ⟨same, short⟩ := decrypt_cut split opened
  have width : sampleHeader.length = headerBytes := List.length_replicate ..
  have same : front 0 sampleHeader 2 = aad := same
  have long : 18 < (front 0 sampleHeader 2).length := by
    rw [front_length, start_length width]
    decide
  rw [same] at long
  exact absurd short (Nat.not_le.mpr long)

theorem pair_agrees_sample :
    ∃ encoded receiver, sampleCalls.results sampleOrigin = encoded.map .ok ∧
      (fromKeys sampleOrigin.keys .request none).openAll encoded = ([.ok sampleContent], receiver) ∧
      ∃ error, receiver.openRecord sampleCut = (.error error, receiver.close) := by
  obtain ⟨bytes, sent⟩ := sampleCalls_results sampleOrigin
  have agrees := pair_agrees Symbolic.sealing Symbolic.recordFree sampleCalls sampleOrigin none 1 [bytes] (by rw [sent]; rfl)
  obtain ⟨opened, -, -, -, rejects⟩ := agrees
  obtain ⟨error, refused, -⟩ := rejects sampleCut sampleCut_unforged (by rw [sent]; nofun)
  exact ⟨[bytes], _, sent, Prod.ext opened rfl, error, refused⟩

end Records
end StogasVerifier.Channel
