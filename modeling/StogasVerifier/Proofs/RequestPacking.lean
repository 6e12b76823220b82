import StogasVerifier.Bindings.ChannelHttp
import StogasVerifier.Proofs.UploadDelivery

/-! The JavaScript client repacks a body into full records and a short last one, however the
body is cut into chunks, and the record layer takes all of them. -/

namespace StogasVerifier.Bindings
open Lib
open Channel (Suite Kind Keys Letter Phase Records RequestEncoder maxRecordPlaintext maxRequestBody maxRecordBytes recordOverhead headerBytes maxRecords)
open Channel.Records (letter sealAll Standing fromKeys openAll)
open Channel.Grammar (bodySize Reaches Moves)

variable {S : Suite}

theorem payload_eq : maxRecordPayload = maxRecordPlaintext := by decide

theorem request_eq : maxRequestBytes = Records.maxBody .request := by decide

def pack (body : S.Bytes) : List S.Bytes :=
  if body = [] then [] else body.take maxRecordPayload :: pack (body.drop maxRecordPayload)
termination_by body.length
decreasing_by
  have := List.length_pos_iff.mpr ‹body ≠ []›
  simp only [maxRecordPayload, List.length_drop]
  omega

def leftover (carry : S.Bytes) : List S.Bytes := if carry = [] then [] else [carry]

theorem pack_eq {pieces : List S.Bytes} {carry : S.Bytes} (full : ∀ piece ∈ pieces, piece.length = maxRecordPayload)
    (short : carry.length < maxRecordPayload) : pack (pieces.flatten ++ carry) = pieces ++ leftover carry := by
  induction pieces with
  | nil =>
    rw [List.flatten_nil, List.nil_append, List.nil_append, pack, leftover]
    split
    · rfl
    · rw [List.take_of_length_le short.le, List.drop_of_length_le short.le, pack, if_pos rfl]
  | cons piece pieces ih =>
    have size := full piece List.mem_cons_self
    have filled : piece ++ (pieces.flatten ++ carry) ≠ [] := by
      intro empty
      rw [(List.append_eq_nil_iff.mp empty).1] at size
      exact absurd size (show 0 ≠ 65515 by decide)
    rw [List.flatten_cons, List.append_assoc, pack, if_neg filled, List.take_left' size, List.drop_left' size,
      ih fun other member => full other (List.mem_cons_of_mem _ member), List.cons_append]

theorem pack_flatten (body : S.Bytes) : (pack body).flatten = body := by
  fun_induction pack body with
  | case1 => rfl
  | case2 body filled ih => rw [List.flatten_cons, ih, List.take_append_drop]

theorem pack_sizes (body : S.Bytes) :
    (∀ piece ∈ pack body, piece ≠ [] ∧ piece.length ≤ maxRecordPayload) ∧ ∀ piece ∈ (pack body).dropLast, piece.length = maxRecordPayload := by
  fun_induction pack body with
  | case1 => exact ⟨nofun, nofun⟩
  | case2 body filled ih =>
    have positive := List.length_pos_iff.mpr filled
    constructor
    · intro piece member
      rcases List.mem_cons.mp member with rfl | later
      · refine ⟨?_, List.length_take_le ..⟩
        apply List.length_pos_iff.mp
        simp only [List.length_take, maxRecordPayload]
        omega
      · exact ih.1 piece later
    · intro piece member
      by_cases last : pack (body.drop maxRecordPayload) = []
      · rw [last] at member
        cases member
      · rw [List.dropLast_cons_of_ne_nil last] at member
        rcases List.mem_cons.mp member with rfl | later
        · rw [List.length_take]
          have more : body.drop maxRecordPayload ≠ [] := by
            intro empty
            rw [empty, pack, if_pos rfl] at last
            exact last rfl
          have := List.length_pos_iff.mpr more
          rw [List.length_drop] at this
          omega
        · exact ih.2 piece later

/-! ## Sealing -/

theorem sealAll_snoc {records middle after : Records S} {contents : List (Kind × S.Bytes)} {outputs : List S.Bytes}
    {kind : Kind} {content bytes : S.Bytes} (earlier : records.sealAll contents = (outputs.map .ok, middle))
    (last : middle.sealRecord kind content = (.ok bytes, after)) :
    records.sealAll (contents ++ [(kind, content)]) = ((outputs ++ [bytes]).map .ok, after) := by
  induction contents generalizing records outputs with
  | nil =>
    obtain ⟨none, rfl⟩ := Prod.mk.inj earlier
    cases List.map_eq_nil_iff.mp none.symm
    simp [sealAll, last]
  | cons first rest ih =>
    obtain ⟨results, final⟩ := Prod.mk.inj earlier
    cases outputs with
    | nil => cases results
    | cons output outputs =>
      obtain ⟨head, tail⟩ := List.cons.inj results
      have later := ih (Prod.ext tail final)
      rw [List.cons_append, sealAll, later, head]
      rfl

theorem sealPart_ok {out : Outgoing S} {aborted : Nat → Bool} (calm : ∀ poll, aborted poll = false) {kind : Kind}
    {content bytes : S.Bytes} {after : Records S} (sealed : out.encoder.records.sealRecord kind content = (.ok bytes, after)) :
    out.sealPart aborted kind content =
      .ok ⟨{ out.encoder with records := after }, out.parts ++ [bytes], out.polls + 1⟩ := by
  simp only [Outgoing.sealPart, Outgoing.throwIfAborted, calm, Bool.false_eq_true, if_false, ok_bind, RequestEncoder.sealRecord, sealed]
  rfl

structure Flowing (keys : Keys S) (metadata : S.Bytes) (start out : Outgoing S) (pieces : List S.Bytes) (phase : Phase) : Prop where
  standing : Standing keys out.encoder.records (letter (.metadata, metadata) :: pieces.map fun piece => letter (.data, piece))
  direction : out.encoder.records.direction = .request
  reached : out.encoder.records.phase = phase
  sealed : ∃ outputs, out.parts = start.parts ++ outputs ∧
    start.encoder.records.sealAll (pieces.map (.data, ·)) = (outputs.map .ok, out.encoder.records)

variable {keys : Keys S} {metadata : S.Bytes} {start out : Outgoing S} {pieces : List S.Bytes} {aborted : Nat → Bool}

theorem bodySize_pieces (metadata : S.Bytes) (pieces : List S.Bytes) :
    bodySize (letter (.metadata, metadata) :: pieces.map fun piece => letter (.data, piece)) = pieces.flatten.length := by
  simp [bodySize, letter, Function.comp_def, List.length_flatten]

theorem Flowing.below {phase : Phase} (flowing : Flowing keys metadata start out pieces phase) (live : phase = .body ∨ phase = .tail)
    (room : pieces.flatten.length ≤ maxRequestBytes) :
    (letter (.metadata, metadata) :: pieces.map fun piece => letter (.data, piece)).length + 1 < maxRecords := by
  have reaches := flowing.standing.reaches
  rw [flowing.direction, flowing.reached] at reaches
  rw [request_eq] at room
  exact Channel.Upload.word_short reaches live ((bodySize_pieces metadata pieces).le.trans room)

theorem Flowing.piece (laws : S.Sealing) (calm : ∀ poll, aborted poll = false) (flowing : Flowing keys metadata start out pieces .body)
    {piece : S.Bytes} {next : Phase} (moves : Moves .request .body (.data, piece.length) next) (fits : piece.length ≤ maxRecordPayload)
    (room : pieces.flatten.length + piece.length ≤ maxRequestBytes) :
    ∃ after, out.sealPart aborted .data piece = .ok after ∧ Flowing keys metadata start after (pieces ++ [piece]) next := by
  have below := flowing.below (.inl rfl) (Nat.le_of_add_right_le room)
  rw [request_eq] at room
  rw [← flowing.direction, ← flowing.reached] at moves
  obtain ⟨bytes, records, sealed, kept, phase, standing⟩ := Channel.Upload.seals laws flowing.standing (List.cons_ne_nil _ _) moves
    (Nat.lt_of_succ_lt below) (fits.trans_eq payload_eq) (by
      rw [bodySize_pieces, flowing.direction]
      exact fun _ => room)
  obtain ⟨outputs, parts, run⟩ := flowing.sealed
  refine ⟨_, sealPart_ok calm sealed, ?_, kept.trans flowing.direction, phase, outputs ++ [bytes], ?_, ?_⟩
  · simpa only [List.map_append, List.map_singleton, List.cons_append] using standing
  · rw [parts, List.append_assoc]
  · rw [List.map_append, List.map_singleton]
    exact sealAll_snoc run sealed

theorem Flowing.full (laws : S.Sealing) (calm : ∀ poll, aborted poll = false) (flowing : Flowing keys metadata start out pieces .body)
    {piece : S.Bytes} (sized : piece.length = maxRecordPayload) (room : pieces.flatten.length + piece.length ≤ maxRequestBytes) :
    ∃ after, out.sealPart aborted .data piece = .ok after ∧ Flowing keys metadata start after (pieces ++ [piece]) .body := by
  apply flowing.piece laws calm ?_ sized.le room
  rw [sized, payload_eq]
  exact .full

theorem Flowing.slices (laws : S.Sealing) (calm : ∀ poll, aborted poll = false) {value : S.Bytes} {offset : Nat} (inside : offset ≤ value.length)
    (flowing : Flowing keys metadata start out pieces .body) (room : pieces.flatten.length + (value.length - offset) ≤ maxRequestBytes) :
    ∃ after rest slices, sealSlices aborted value offset out = .ok (after, rest) ∧ Flowing keys metadata start after (pieces ++ slices) .body ∧
      (∀ slice ∈ slices, slice.length = maxRecordPayload) ∧ value.drop offset = slices.flatten ++ value.drop rest ∧
      rest ≤ value.length ∧ value.length - rest < maxRecordPayload := by
  induction length : value.length - offset using Nat.strong_induction_on generalizing offset out pieces with
  | _ size ih =>
    rw [sealSlices]
    split
    next long =>
      have sized : ((value.drop offset).take maxRecordPayload).length = maxRecordPayload := by
        rw [List.length_take, List.length_drop]
        omega
      obtain ⟨after, sealed, next⟩ := flowing.full laws calm sized (by omega)
      have wide : 0 < maxRecordPayload := Nat.zero_lt_succ _
      obtain ⟨last, rest, slices, done, flows, full, bytes, bound, short⟩ :=
        ih (value.length - (offset + maxRecordPayload)) (by omega) (by omega) next (by
          rw [List.flatten_append, List.length_append, List.flatten_singleton, sized]
          omega) rfl
      refine ⟨last, rest, (value.drop offset).take maxRecordPayload :: slices, ?_, ?_, ?_, ?_, bound, short⟩
      · rw [sealed, ok_bind]
        exact done
      · rwa [List.append_assoc, List.singleton_append] at flows
      · intro slice member
        rcases List.mem_cons.mp member with rfl | later
        · exact sized
        · exact full slice later
      · rw [List.flatten_cons, List.append_assoc, ← bytes, ← List.drop_drop, List.take_append_drop]
    next short =>
      exact ⟨out, offset, [], rfl, by rwa [List.append_nil], nofun, rfl, inside, Nat.not_le.mp short⟩

/-! ## Chunks -/

theorem setBytes_ok {buffer bytes : S.Bytes} {offset : Nat} (fits : offset + bytes.length ≤ buffer.length) :
    ∃ after, setBytes buffer bytes offset = .ok after ∧ after.length = buffer.length ∧
      after.take (offset + bytes.length) = buffer.take offset ++ bytes := by
  have front : (buffer.take offset).length = offset := List.length_take_of_le (by omega)
  refine ⟨buffer.take offset ++ bytes ++ buffer.drop (offset + bytes.length), ?_, ?_, ?_⟩
  · apply bind_ok.mpr
    exact ⟨(), rejectIf_ok.mpr (Nat.not_lt.mpr fits), rfl⟩
  · simp only [List.length_append, front, List.length_drop]
    omega
  · apply List.take_left'
    rw [List.length_append, front]

/-- What was read, as the pieces that are sealed and the bytes that the buffer carries. -/
structure Packed (keys : Keys S) (metadata : S.Bytes) (start : Outgoing S) (packing : Packing S) (body : S.Bytes) (pieces : List S.Bytes)
    (carry : S.Bytes) : Prop where
  flowing : Flowing keys metadata start packing.out pieces .body
  body : body = pieces.flatten ++ carry
  full : ∀ piece ∈ pieces, piece.length = maxRecordPayload
  short : carry.length < maxRecordPayload
  filled : packing.filled = carry.length
  buffer : ∀ buffer, packing.pending = some buffer → buffer.length = maxRecordPayload
  kept : carry ≠ [] → ∃ buffer, packing.pending = some buffer ∧ buffer.take carry.length = carry

variable {packing : Packing S} {body value carry : S.Bytes}

theorem Packed.readRest (laws : S.Sealing) (calm : ∀ poll, aborted poll = false) {offset : Nat} (inside : offset ≤ value.length)
    (packed : Packed keys metadata start packing body pieces []) (room : body.length + (value.length - offset) ≤ maxRequestBytes) :
    ∃ after pieces' carry', packing.readRest aborted value offset = .ok after ∧ after.size = packing.size ∧
      Packed keys metadata start after (body ++ value.drop offset) pieces' carry' := by
  have flat : body = pieces.flatten := packed.body.trans (List.append_nil _)
  rw [flat] at room
  obtain ⟨out, rest, slices, sealed, flows, full, bytes, bound, short⟩ := packed.flowing.slices laws calm inside room
  have left : (value.drop rest).length = value.length - rest := List.length_drop
  have pieceSizes : ∀ piece ∈ pieces ++ slices, piece.length = maxRecordPayload := by
    intro piece member
    rcases List.mem_append.mp member with earlier | later
    · exact packed.full piece earlier
    · exact full piece later
  have whole : body ++ value.drop offset = (pieces ++ slices).flatten ++ value.drop rest := by
    rw [flat, bytes, List.flatten_append, List.append_assoc]
  by_cases more : rest < value.length
  · have size : (packing.pending.getD (List.replicate maxRecordPayload (S.u8 0))).length = maxRecordPayload := by
      cases pending : packing.pending with
      | none => exact List.length_replicate
      | some buffer => exact packed.buffer buffer pending
    obtain ⟨buffer, set, length, front⟩ := @setBytes_ok S _ (value.drop rest) 0 (by rw [size, left]; omega)
    refine ⟨{ packing with out, pending := some buffer, filled := value.length - rest }, pieces ++ slices, value.drop rest, ?_, rfl, flows, whole,
      pieceSizes, by rw [left]; exact short, left.symm, ?_, fun _ => ⟨buffer, rfl, ?_⟩⟩
    · simp only [Packing.readRest, sealed, ok_bind, if_pos more, set]
      rfl
    · intro other same
      cases same
      exact length.trans size
    · rwa [Nat.zero_add, List.take_zero, List.nil_append] at front
  · have nothing : value.drop rest = [] := List.drop_of_length_le (Nat.not_lt.mp more)
    refine ⟨{ packing with out }, pieces ++ slices, [], ?_, rfl, flows, by rw [whole, nothing], pieceSizes, packed.short, packed.filled,
      packed.buffer, fun filled => absurd rfl filled⟩
    simp only [Packing.readRest, sealed, ok_bind, if_neg more]
    rfl

theorem Packed.read (laws : S.Sealing) (calm : ∀ poll, aborted poll = false) (packed : Packed keys metadata start packing body pieces carry)
    (size : packing.size = body.length) (room : body.length + value.length ≤ maxRequestBytes) :
    ∃ after pieces' carry', packing.read aborted value = .ok after ∧ after.size = (body ++ value).length ∧
      Packed keys metadata start after (body ++ value) pieces' carry' := by
  have accepted : rejectIf (maxRequestBytes - packing.size < value.length) (FetchError.thrown "request exceeds its byte limit") = .ok () :=
    rejectIf_ok.mpr (by omega)
  have sizes : packing.size + value.length = (body ++ value).length := by rw [size, List.length_append]
  by_cases empty : carry = []
  · subst empty
    have none : ¬packing.filled ≠ 0 := not_not.mpr packed.filled
    obtain ⟨after, pieces', carry', done, kept, next⟩ := @Packed.readRest S _ _ _ _ _ { packing with size := packing.size + value.length } _ value
      laws calm 0 (Nat.zero_le _) { packed with } room
    refine ⟨after, pieces', carry', ?_, kept.trans sizes, next⟩
    simp only [Packing.read, accepted, ok_bind, if_neg none]
    exact done
  · obtain ⟨buffer, pending, front⟩ := packed.kept empty
    have bufferSize := packed.buffer buffer pending
    have short := packed.short
    have positive := List.length_pos_iff.mpr empty
    have filled := packed.filled
    generalize cut : min (maxRecordPayload - packing.filled) value.length = offset
    have taken : (value.take offset).length = offset := List.length_take_of_le (by omega)
    obtain ⟨next, set, length, fresh⟩ := @setBytes_ok S buffer (value.take offset) packing.filled (by rw [taken, bufferSize]; omega)
    rw [filled, front, taken] at fresh
    have reading : packing.read aborted value =
        (if packing.filled + offset < maxRecordPayload then
          .ok { packing with size := packing.size + value.length, pending := some next, filled := packing.filled + offset }
        else do
          let out ← packing.out.sealPart aborted .data next
          Packing.readRest ⟨out, some next, 0, packing.size + value.length⟩ aborted value offset) := by
      have some_ : packing.filled ≠ 0 := by omega
      simp only [Packing.read, accepted, ok_bind, if_pos some_, pending, cut, required, set]
      rfl
    rw [reading]
    split
    next fits =>
      -- the chunk goes into the buffer as a whole
      have all : offset = value.length := by omega
      rw [all, List.take_length] at fresh
      have join : (carry ++ value).length = carry.length + value.length := List.length_append
      refine ⟨_, pieces, carry ++ value, rfl, sizes, packed.flowing, ?_, packed.full, ?_, ?_, ?_, fun _ => ⟨next, rfl, ?_⟩⟩
      · rw [packed.body, List.append_assoc]
      · omega
      · simp only
        omega
      · intro other same
        cases same
        exact length.trans bufferSize
      · rw [join]
        exact fresh
    next overflows =>
      -- the buffer is full
      have exact_ : carry.length + offset = maxRecordPayload := by omega
      rw [exact_, List.take_of_length_le (by rw [length, bufferSize])] at fresh
      have nextSize : next.length = maxRecordPayload := length.trans bufferSize
      have bodySize := congrArg List.length packed.body
      rw [List.length_append] at bodySize
      obtain ⟨out, sealed, flows⟩ := packed.flowing.full laws calm nextSize (by omega)
      have refilled : Packed keys metadata start ⟨out, some next, 0, packing.size + value.length⟩ (body ++ value.take offset) (pieces ++ [next]) [] := by
        refine ⟨flows, ?_, ?_, Nat.zero_lt_succ _, rfl, ?_, fun filled => absurd rfl filled⟩
        · rw [packed.body, List.append_assoc, ← fresh, List.flatten_append, List.flatten_singleton, List.append_nil]
        · intro piece member
          rcases List.mem_append.mp member with earlier | last
          · exact packed.full piece earlier
          · exact List.mem_singleton.mp last ▸ nextSize
        · intro other same
          cases same
          exact nextSize
      have inside : offset ≤ value.length := by omega
      obtain ⟨after, pieces', carry', done, kept, last⟩ := refilled.readRest laws calm inside (by
        rw [List.length_append, taken]
        omega)
      rw [List.append_assoc, List.take_append_drop] at last
      rw [sealed, ok_bind]
      exact ⟨after, pieces', carry', done, kept.trans sizes, last⟩

/-- All chunks. -/
theorem Packed.readAll (laws : S.Sealing) (calm : ∀ poll, aborted poll = false) {values : List S.Bytes}
    (packed : Packed keys metadata start packing body pieces carry) (size : packing.size = body.length)
    (room : body.length + values.flatten.length ≤ maxRequestBytes) :
    ∃ after pieces' carry', Packing.readAll aborted (values.map .bytes) packing = .ok after ∧
      Packed keys metadata start after (body ++ values.flatten) pieces' carry' := by
  induction values generalizing packing body pieces carry with
  | nil => exact ⟨packing, pieces, carry, rfl, by rwa [List.flatten_nil, List.append_nil]⟩
  | cons value values ih =>
    rw [List.flatten_cons, List.length_append] at room
    obtain ⟨middle, _, _, read, sizes, next⟩ := packed.read laws calm size (show body.length + value.length ≤ maxRequestBytes by omega)
    obtain ⟨after, pieces', carry', done, last⟩ := ih next sizes (by
      rw [List.length_append]
      omega)
    refine ⟨after, pieces', carry', ?_, ?_⟩
    · rw [List.map_cons, Packing.readAll, read, ok_bind]
      exact done
    · rwa [List.flatten_cons, ← List.append_assoc]

/-! ## The request -/

theorem Packed.last (laws : S.Sealing) (calm : ∀ poll, aborted poll = false) (packed : Packed keys metadata start packing body pieces carry)
    (room : body.length ≤ maxRequestBytes) :
    ∃ out phase, (if packing.filled ≠ 0 then do
        let pending ← required packing.pending (.thrown "undefined is not an object")
        packing.out.sealPart aborted .data (pending.take packing.filled)
      else pure packing.out) = Except.ok out ∧ (phase = .body ∨ phase = .tail) ∧ Flowing keys metadata start out (pack body) phase := by
  have whole : pack body = pieces ++ leftover carry := by
    rw [packed.body]
    exact pack_eq packed.full packed.short
  rw [whole, leftover]
  by_cases empty : carry = []
  · have none : ¬packing.filled ≠ 0 := not_not.mpr (packed.filled.trans (List.length_eq_zero_iff.mpr empty))
    rw [if_neg none, if_pos empty, List.append_nil]
    exact ⟨packing.out, .body, rfl, .inl rfl, packed.flowing⟩
  · rw [if_neg empty]
    obtain ⟨buffer, pending, front⟩ := packed.kept empty
    have positive := List.length_pos_iff.mpr empty
    have filled := packed.filled
    have size := congrArg List.length packed.body
    rw [List.length_append] at size
    have short := packed.short
    rw [payload_eq] at short
    obtain ⟨out, sealed, flows⟩ := packed.flowing.piece laws calm (.short positive short) packed.short.le (by omega)
    refine ⟨out, .tail, ?_, .inr rfl, flows⟩
    rw [if_pos (by omega), pending, required, filled, ok_bind, front]
    exact sealed

theorem Flowing.finish (laws : S.Sealing) (calm : ∀ poll, aborted poll = false) {phase : Phase} (live : phase = .body ∨ phase = .tail)
    (flowing : Flowing keys metadata start out pieces phase) (room : pieces.flatten.length ≤ maxRequestBytes) :
    ∃ after outputs final, out.sealPart aborted .finished [] = .ok after ∧ after.parts = start.parts ++ outputs ∧
      start.encoder.records.sealAll (pieces.map (.data, ·) ++ [(.finished, [])]) = (outputs.map .ok, final) := by
  have below := flowing.below live room
  have moves : Moves out.encoder.records.direction out.encoder.records.phase (.finished, ([] : S.Bytes).length) .finished := by
    rw [flowing.reached]
    rcases live with rfl | rfl
    · exact .finish
    · exact .finishTail
  obtain ⟨bytes, records, sealed, -⟩ := Channel.Upload.seals laws flowing.standing (List.cons_ne_nil _ _) moves
    (Nat.lt_of_succ_lt below) (Nat.zero_le _) nofun
  obtain ⟨outputs, parts, run⟩ := flowing.sealed
  refine ⟨_, outputs ++ [bytes], records, sealPart_ok calm sealed, ?_, sealAll_snoc run sealed⟩
  rw [parts, List.append_assoc]

theorem sealStream_ok (laws : S.Sealing) (calm : ∀ poll, aborted poll = false) (values : List S.Bytes)
    (flowing : Flowing keys metadata start out [] .body) (room : values.flatten.length ≤ maxRequestBytes) :
    ∃ after phase, sealStream aborted false (values.map .bytes) out = .ok after ∧ (phase = .body ∨ phase = .tail) ∧
      Flowing keys metadata start after (pack values.flatten) phase := by
  have packed : Packed keys metadata start ⟨out, none, 0, 0⟩ [] [] [] :=
    ⟨flowing, rfl, nofun, Nat.zero_lt_succ _, rfl, nofun, fun filled => absurd rfl filled⟩
  obtain ⟨packing, pieces, carry, read, next⟩ := packed.readAll laws calm rfl (by
    rw [List.length_nil, Nat.zero_add]
    exact room)
  rw [List.nil_append] at next
  obtain ⟨after, phase, done, live, flows⟩ := next.last laws calm room
  refine ⟨after, phase, ?_, live, flows⟩
  rw [sealStream, rejectIf, if_neg Bool.false_ne_true, ok_bind, read, ok_bind]
  exact done

/-- What a body holds, however it is cut. -/
inductive Body.Carries : Body S → S.Bytes → Prop where
  | none : Carries .none []
  | stream (values : List S.Bytes) : Carries (.stream (values.map .bytes)) values.flatten
  | blob (values : List S.Bytes) : Carries (.blob values.flatten.length (values.map .bytes)) values.flatten

def contents (metadata body : S.Bytes) : List (Kind × S.Bytes) := (.metadata, metadata) :: (pack body).map (.data, ·) ++ [(.finished, [])]

section Request

variable (laws : S.Sealing) {header : S.Bytes} {exchange : RequestEncoder S} (width : header.length = headerBytes)
  (writes : exchange.records = fromKeys keys .request (some header)) (filled : metadata ≠ []) (fits : metadata.length ≤ maxMetadataBytes)
  (calm : ∀ poll, aborted poll = false) (room : body.length ≤ maxRequestBytes)

include laws width writes filled fits calm in
private theorem starts : ∃ first out, exchange.records.sealRecord .metadata metadata = (.ok first, out.encoder.records) ∧
    (⟨exchange, [exchange.prefixBytes], 0⟩ : Outgoing S).sealPart aborted .metadata metadata = .ok out ∧
    out.parts = [exchange.prefixBytes, first] ∧ ∀ polls, Flowing keys metadata out { out with polls } [] .body := by
  obtain ⟨first, records, sealed, direction, phase, standing⟩ := Channel.Upload.seals_metadata laws width writes filled fits
  exact ⟨first, _, sealed, sealPart_ok calm sealed, rfl, fun _ => ⟨standing, direction, phase, [], rfl, rfl⟩⟩

include laws calm room

private theorem sealBody_ok {source : Body S} (flows : ∀ polls, Flowing keys metadata out { out with polls } [] .body)
    (carries : source.Carries body) :
    ∃ after phase, sealBody aborted false source out = .ok after ∧ (phase = .body ∨ phase = .tail) ∧
      Flowing keys metadata out after (pack body) phase := by
  cases carries with
  | none =>
    rw [pack, if_pos rfl]
    exact ⟨out, .body, rfl, .inl rfl, flows out.polls⟩
  | stream values => exact sealStream_ok laws calm values (flows out.polls) room
  | blob values =>
    obtain ⟨after, phase, done, live, flowing⟩ := sealStream_ok laws calm values (flows (out.polls + 1)) room
    refine ⟨after, phase, ?_, live, flowing⟩
    rw [sealBody, Outgoing.throwIfAborted, calm, if_neg Bool.false_ne_true, ok_bind, rejectIf, if_neg (Nat.not_lt.mpr room), ok_bind]
    exact done

private theorem ends {start out : Outgoing S} {first : S.Bytes} {phase : Phase} (parts : start.parts = [exchange.prefixBytes, first])
    (sealed : exchange.records.sealRecord .metadata metadata = (.ok first, start.encoder.records))
    (live : phase = .body ∨ phase = .tail) (flowing : Flowing keys metadata start out (pack body) phase) :
    ∃ outputs final after, out.sealPart aborted .finished [] = .ok after ∧ after.parts = exchange.prefixBytes :: outputs ∧
      exchange.records.sealAll (contents metadata body) = (outputs.map .ok, final) := by
  obtain ⟨after, outputs, final, done, whole, run⟩ := flowing.finish laws calm live (by rwa [pack_flatten])
  refine ⟨first :: outputs, final, after, done, ?_, ?_⟩
  · rw [whole, parts, List.cons_append, List.singleton_append]
  · rw [contents, List.cons_append, sealAll, sealed, run]
    rfl

include width writes filled fits in
private theorem encodeRequest_seals {runtime : Runtime} {request : Request S} (search : request.search = "") (hash : request.hash = "")
    (stated : request.metadata runtime = metadata) (honest : request.overstated runtime = false) (carries : request.body.Carries body) :
    ∃ outputs final, encodeRequest runtime aborted exchange request = .ok (exchange.prefixBytes :: outputs) ∧
      exchange.records.sealAll (contents metadata body) = (outputs.map .ok, final) := by
  obtain ⟨first, out, sealed, begun, parts, flows⟩ := starts laws width writes filled fits calm
  obtain ⟨after, phase, done, live, flowing⟩ := sealBody_ok laws calm room flows carries
  obtain ⟨outputs, final, last, ended, whole, run⟩ := ends laws calm room parts sealed live flowing
  refine ⟨outputs, final, ?_, run⟩
  have plain : ¬(request.search ≠ "" ∨ request.hash ≠ "") := by simp [search, hash]
  rw [encodeRequest, rejectIf, if_neg plain, ok_bind]
  simp only [stated, rejectIf, if_neg (Nat.not_lt.mpr fits), ok_bind, begun]
  rw [honest, done, ok_bind, ended, ok_bind, whole]
  rfl

end Request

/-- For a new exchange, metadata and a body there are the records that every request with them
seals, whatever the chunks of its body: the data is cut into full records and a last one that is
not empty, and whoever has the keys reads all of it. -/
theorem encodeRequest_packs (laws : S.Sealing) {header metadata body : S.Bytes} {exchange : RequestEncoder S}
    (width : header.length = headerBytes) (writes : exchange.records = fromKeys keys .request (some header))
    (filled : metadata ≠ []) (fits : metadata.length ≤ maxMetadataBytes) (room : body.length ≤ maxRequestBytes) :
    (pack body).flatten = body ∧
    (∀ piece ∈ pack body, piece ≠ [] ∧ piece.length ≤ 65515) ∧ (∀ piece ∈ (pack body).dropLast, piece.length = 65515) ∧
    ∃ outputs final receiver, exchange.records.sealAll (contents metadata body) = (outputs.map .ok, final) ∧
      (fromKeys keys .request none).openAll outputs = ((contents metadata body).map .ok, receiver) ∧
      ∀ {runtime : Runtime} {aborted : Nat → Bool} {request : Request S}, (∀ poll, aborted poll = false) →
        request.search = "" → request.hash = "" → request.metadata runtime = metadata → request.overstated runtime = false →
        request.body.Carries body → encodeRequest runtime aborted exchange request = .ok (exchange.prefixBytes :: outputs) := by
  obtain ⟨pieces, lasts⟩ := pack_sizes body
  refine ⟨pack_flatten body, pieces, lasts, ?_⟩
  -- the body as one chunk shows that the records can be sealed
  obtain ⟨first, out, sealed, -, parts, flows⟩ := starts laws width writes filled fits (fun _ => rfl)
  obtain ⟨after, phase, -, live, flowing⟩ := sealStream_ok laws (fun _ => rfl) [body] (flows out.polls) (by
    rwa [List.flatten_singleton])
  rw [List.flatten_singleton] at flowing
  obtain ⟨outputs, final, _, -, -, run⟩ := ends laws (fun _ => rfl) room parts sealed live flowing
  have opened := Channel.Records.sealAll_opens laws none (by rwa [writes] at run)
  obtain ⟨receiver, opened, -⟩ := opened
  refine ⟨outputs, final, receiver, run, opened, ?_⟩
  intro runtime aborted request calm search hash stated honest carries
  obtain ⟨others, _, encoded, again⟩ := encodeRequest_seals laws width writes filled fits calm room search hash stated honest carries
  have same : others.map Except.ok = outputs.map (@Except.ok Channel.Error _) := (Prod.mk.inj (again.symm.trans run)).1
  rw [encoded, List.map_injective_iff.mpr (fun _ _ => Except.ok.inj) same]

open Channel (symbolic)

def sampleRuntime : Runtime := ⟨fun _ _ _ => "\x7b\x7d", fun _ _ => false⟩

def sampleExchange : RequestEncoder symbolic :=
  ⟨List.replicate 32 (0 : Nat), 0, fromKeys Channel.Records.sampleKeys .request (some Channel.Records.sampleHeader)⟩

def sampleChunks : List (List Nat) := [List.replicate 65515 5, [], [6, 7]]

def sampleFetch : Request symbolic :=
  ⟨"POST", "/v1/responses", "", "", [], .stream (sampleChunks.map .bytes)⟩

/-- A body of two bytes more than a record holds. -/
theorem encodeRequest_packs_sample : ∃ first rest outputs final, pack (S := symbolic) sampleChunks.flatten = first :: rest ∧
    first.length = 65515 ∧ rest ≠ [] ∧
    encodeRequest sampleRuntime (fun _ => false) sampleExchange sampleFetch = .ok (sampleExchange.prefixBytes :: outputs) ∧
    sampleExchange.records.sealAll (contents (sampleFetch.metadata sampleRuntime) sampleChunks.flatten) = (outputs.map .ok, final) := by
  have size : (sampleFetch.metadata sampleRuntime).length = 2 := (symbolic.text_length _).trans (by decide +kernel)
  have filled : sampleFetch.metadata sampleRuntime ≠ [] := by
    intro empty
    rw [empty] at size
    cases size
  have length : sampleChunks.flatten.length = 65517 := by
    rw [sampleChunks, List.flatten_cons, List.length_append, List.length_replicate]
    rfl
  obtain ⟨whole, pieces, full, outputs, final, -, run, -, encodes⟩ := @encodeRequest_packs symbolic Channel.Records.sampleKeys
    Channel.Symbolic.sealing Channel.Records.sampleHeader (sampleFetch.metadata sampleRuntime) sampleChunks.flatten sampleExchange
    List.length_replicate rfl filled (size.trans_le (by decide)) (length.trans_le (by decide))
  have total := (congrArg List.length whole).trans length
  cases packed : pack (S := symbolic) sampleChunks.flatten with
  | nil => simp [packed] at total
  | cons first rest =>
    have some : rest ≠ [] := by
      rintro rfl
      have short := (pieces first (by simp [packed])).2
      simp [packed] at total
      omega
    refine ⟨first, rest, outputs, final, rfl, full first ?_, some,
      encodes (fun _ => rfl) rfl rfl rfl rfl (@Body.Carries.stream symbolic sampleChunks), run⟩
    rw [packed, List.dropLast_cons_of_ne_nil some]
    exact List.mem_cons_self

end StogasVerifier.Bindings
