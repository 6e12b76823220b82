import StogasVerifier.Proofs.ClientClock
import StogasVerifier.Proofs.DecoderBytes
import StogasVerifier.Proofs.RecordRuns

/-! What a response decoder makes of a stream does not depend on how the stream
is cut, nor on the times it is told. -/

namespace StogasVerifier.Channel
open Lib Grammar

variable {S : Suite}

/-- The frames authenticate, one after the other, under the key that the peer
offers for the header of the first. -/
def Shared.Authenticates (shared : Shared S) (sessionId : S.Bytes) (number : Nat) (frames : List S.Bytes)
    (contents : List (Kind × S.Bytes)) (records : Records S) : Prop :=
  ∃ first rest header offer, frames = first :: rest ∧ startHeader first = .ok header ∧
    shared.peer.offer header number = .ok offer ∧
    (Records.fromKeys (Keys.new offer.key sessionId number .response) .response none).openAll frames = (contents.map .ok, records)

def Shared.AuthenticResponse (shared : Shared S) (sessionId : S.Bytes) (number : Nat) (frames : List S.Bytes)
    (contents : List (Kind × S.Bytes)) : Prop :=
  (∃ records, shared.Authenticates sessionId number frames contents records) ∧ Word .response (contents.map Records.letter)

namespace ResponseReader

def opened (reader : ResponseReader S) (shared : Shared S) (bytes : S.Bytes) (now : Nat) :
    Option ((Kind × S.Bytes) × ResponseReader S) :=
  match reader.openRecord shared bytes now with
  | (.error _, _, _, _) => none
  | (.ok output, after, _, _) => some (output, after)

/-- A reader with what it has opened so far. -/
inductive Reading (shared : Shared S) (sessionId : S.Bytes) (number : Nat) :
    List S.Bytes → List (Kind × S.Bytes) → ResponseReader S → Prop where
  | waiting : Reading shared sessionId number [] [] ⟨some number, sessionId, none, false⟩
  | started {frames : List S.Bytes} {contents : List (Kind × S.Bytes)} {records : Records S}
      (authentic : shared.Authenticates sessionId number frames contents records) :
      Reading shared sessionId number frames contents ⟨none, sessionId, some records, false⟩

variable {shared : Shared S} {sessionId bytes : S.Bytes} {number now : Nat} {output : Kind × S.Bytes} {after : ResponseReader S}

theorem opened_started {pending} (records : Records S) (shared : Shared S) :
    (⟨pending, sessionId, some records, false⟩ : ResponseReader S).opened shared bytes now = some (output, after) ↔
      ∃ next, records.opening bytes = .ok (output, next) ∧ after = ⟨pending, sessionId, some next, false⟩ := by
  simp only [opened, openRecord, Bool.false_eq_true, if_false, Records.openRecord]
  cases records.opening bytes with
  | error error => simp
  | ok result => simp [Prod.ext_iff, eq_comm, and_assoc]

theorem opened_pending {kind : Kind} {content : S.Bytes} :
    (⟨some number, sessionId, none, false⟩ : ResponseReader S).opened shared bytes now = some ((kind, content), after) ↔
      ∃ records, (shared.readStart sessionId number bytes now).1 = .ok (records, kind, content) ∧
        after = ⟨none, sessionId, some records, false⟩ := by
  simp only [opened, openRecord, Bool.false_eq_true, if_false, start]
  cases shared.readStart sessionId number bytes now with
  | mk result left =>
    cases result with
    | error error => simp
    | ok result =>
      obtain ⟨records, other, text⟩ := result
      simp only [Option.some.injEq, Prod.mk.injEq, Except.ok.injEq]
      constructor
      · rintro ⟨⟨kinds, texts⟩, same⟩
        exact ⟨records, ⟨rfl, kinds, texts⟩, same.symm⟩
      · rintro ⟨_, ⟨records, kinds, texts⟩, same⟩
        exact ⟨⟨kinds, texts⟩, by rw [same, records]⟩

theorem opened_waiting (owned : shared.peer.Owned) :
    (⟨some number, sessionId, none, false⟩ : ResponseReader S).opened shared bytes now = some (output, after) ↔
      ∃ records, shared.Authenticates sessionId number [bytes] [output] records ∧ after = ⟨none, sessionId, some records, false⟩ := by
  obtain ⟨kind, content⟩ := output
  rw [opened_pending]
  apply exists_congr
  intro records
  apply and_congr_left
  intro _
  rw [Shared.readStart_ok owned]
  constructor
  · rintro ⟨header, offer, framed, offered, authentic⟩
    refine ⟨bytes, [], header, offer, rfl, framed, offered, ?_⟩
    exact Records.openAll_single.mpr (Records.authenticateStart_ok.mp authentic)
  · rintro ⟨first, rest, header, offer, same, framed, offered, opened⟩
    cases same
    exact ⟨header, offer, framed, offered, Records.authenticateStart_ok.mpr (Records.openAll_single.mp opened)⟩

/-- One more frame authenticates exactly if the reader opens it, whenever it
arrives. -/
theorem Reading.next {reader frames contents} {present : Shared S}
    (owned : shared.peer.Owned) (reading : Reading shared sessionId number frames contents reader)
    (untouched : frames = [] → present = shared) :
    reader.opened present bytes now = some (output, after) ↔
      ∃ records, shared.Authenticates sessionId number (frames ++ [bytes]) (contents ++ [output]) records ∧
        after = ⟨none, sessionId, some records, false⟩ := by
  cases reading with
  | waiting =>
    cases untouched rfl
    exact opened_waiting owned
  | @started _ _ before authentic =>
    rw [opened_started]
    apply exists_congr
    intro records
    apply and_congr_left
    intro _
    obtain ⟨first, rest, header, offer, rfl, framed, offered, earlier⟩ := authentic
    constructor
    · intro opening
      exact ⟨first, rest ++ [bytes], header, offer, rfl, framed, offered, Records.openAll_snoc.mpr ⟨before, earlier, opening⟩⟩
    · rintro ⟨other, others, header', offer', same, framed', offered', opened⟩
      cases same
      rw [framed] at framed'
      cases framed'
      rw [offered] at offered'
      cases offered'
      obtain ⟨middle, again, opening⟩ := Records.openAll_snoc.mp opened
      rw [earlier] at again
      cases again
      exact opening

theorem Reading.authentic {reader frames contents records}
    (reading : Reading shared sessionId number frames contents reader) (present : reader.records = some records) :
    shared.Authenticates sessionId number frames contents records := by
  cases reading with
  | waiting => cases present
  | started authentic =>
    cases present
    exact authentic

theorem Reading.opened_same {reader frames others contents outputs}
    {left right : Shared S} (owned : shared.peer.Owned) (reading : Reading shared sessionId number frames contents reader)
    (untouched : frames = [] → left = shared) (also : Reading shared sessionId number others outputs reader)
    (unchanged : others = [] → right = shared) (frame : S.Bytes) (now later : Nat) :
    reader.opened left frame now = reader.opened right frame later := by
  apply Option.ext
  intro pair
  obtain ⟨output, after⟩ := pair
  cases reading with
  | waiting =>
    cases also with
    | waiting =>
      cases untouched rfl
      cases unchanged rfl
      exact (opened_waiting owned).trans (opened_waiting owned).symm
  | started => exact (opened_started _ left).trans (opened_started _ right).symm

end ResponseReader

def ResponseDecoder.shut (decoder : ResponseDecoder S) : ResponseDecoder S := { decoder.clearBuffer with request := none }

def ResponseDecoder.advanced (decoder : ResponseDecoder S) (next : ResponseReader S) (kind : Kind) : ResponseDecoder S :=
  { decoder with request := some next, finished := kind = .finished }

namespace Decoding

variable {emit : Callback S} {state : Decoding S} {reader : ResponseReader S} {now : Nat}

theorem decode_unopened (emit : Callback S) (state : Decoding S) (open_ : state.decoder.request = some reader)
    (fails : reader.opened state.shared state.decoder.buffer now = none) :
    ∃ error after, decode emit state now = (.error error, after) ∧ after.close.decoder = state.decoder.shut ∧
      after.emitted = state.emitted := by
  unfold ResponseReader.opened at fails
  simp only [decode, open_]
  generalize reader.openRecord state.shared state.decoder.buffer now = result at fails
  obtain ⟨result, next, pending, shared⟩ := result
  cases result with
  | error error => exact ⟨error, _, rfl, rfl, rfl⟩
  | ok output => cases fails

theorem decode_opened (emit : Callback S) (state : Decoding S) (open_ : state.decoder.request = some reader)
    {output next} (opens : reader.opened state.shared state.decoder.buffer now = some (output, next)) :
    ∃ shared, decode emit state now = match emit (state.emitted ++ [output]) with
      | .error error => (.error error, ⟨state.decoder.advanced next output.1, shared, state.emitted ++ [output]⟩)
      | .ok () => (.ok (), ⟨(state.decoder.advanced next output.1).clearBuffer, shared, state.emitted ++ [output]⟩) := by
  unfold ResponseReader.opened at opens
  simp only [decode, open_]
  generalize reader.openRecord state.shared state.decoder.buffer now = result at opens
  obtain ⟨result, after, pending, shared⟩ := result
  cases result with
  | error error => cases opens
  | ok produced =>
    cases opens
    exact ⟨_, rfl⟩

/-- What a byte makes of a decoder and of what it has emitted, given what its
reader would make of a complete frame. -/
def view (emit : Callback S) (opens : S.Bytes → Option ((Kind × S.Bytes) × ResponseReader S)) (decoder : ResponseDecoder S)
    (emitted : List (Kind × S.Bytes)) (byte : S.Symbol) : ResponseDecoder S × List (Kind × S.Bytes) :=
  match decoder.step byte with
  | (.error _, decoder) => (decoder.shut, emitted)
  | (.ok false, decoder) => (decoder, emitted)
  | (.ok true, decoder) =>
    match opens decoder.buffer with
    | none => (decoder.shut, emitted)
    | some (output, next) =>
      match emit (emitted ++ [output]) with
      | .error _ => ((decoder.advanced next output.1).shut, emitted ++ [output])
      | .ok () => ((decoder.advanced next output.1).clearBuffer, emitted ++ [output])

theorem feed_view (emit : Callback S) (now : Nat) (ready : state.decoder.Ready) (open_ : state.decoder.request = some reader) (byte : S.Symbol) :
    ((state.feed emit (byte, now)).decoder, (state.feed emit (byte, now)).emitted) =
      view emit (fun frame => reader.opened state.shared frame now) state.decoder state.emitted byte := by
  have some_ : ¬ state.decoder.request.isNone = true := by rw [open_]; nofun
  rw [feed, if_neg some_, byteStep, view]
  cases stepped : state.decoder.step byte with
  | mk result decoder =>
    cases result with
    | error error => rfl
    | ok full =>
      cases full with
      | false => rfl
      | true =>
        obtain ⟨-, -, -, request⟩ := ResponseDecoder.step_frame ready stepped
        have open_ : decoder.request = some reader := request.trans open_
        dsimp only
        cases opens : reader.opened state.shared decoder.buffer now with
        | none =>
          obtain ⟨error, after, shape, shut, kept⟩ := decode_unopened emit { state with decoder } open_ opens
          rw [shape]
          exact Prod.ext shut kept
        | some pair =>
          obtain ⟨output, next⟩ := pair
          obtain ⟨shared, shape⟩ := decode_opened emit { state with decoder } open_ opens
          rw [shape]
          dsimp only
          cases emit (state.emitted ++ [output]) <;> rfl

def Accepted (emit : Callback S) (contents : List (Kind × S.Bytes)) : Prop :=
  ∀ count < contents.length, emit (contents.take (count + 1)) = .ok ()

theorem Accepted.snoc {contents output} (accepted : Accepted emit contents)
    (last : emit (contents ++ [output]) = .ok ()) : Accepted emit (contents ++ [output]) := by
  intro count below
  rw [List.length_append, List.length_singleton] at below
  rcases Nat.lt_or_ge count contents.length with earlier | newest
  · rw [List.take_append_of_le_length earlier]
    exact accepted count earlier
  · rw [List.take_of_length_le (by rw [List.length_append, List.length_singleton]; omega)]
    exact last

/-- An open decoder has opened some frames of what it was given, and holds the
start of another one. -/
structure Reads (emit : Callback S) (shared : Shared S) (sessionId : S.Bytes) (number : Nat) (consumed : S.Bytes)
    (state : Decoding S) (reader : ResponseReader S) (frames : List S.Bytes) : Prop where
  consumed : consumed = frames.flatten ++ state.decoder.buffer
  reading : ResponseReader.Reading shared sessionId number frames state.emitted reader
  untouched : frames = [] → state.shared = shared
  accepted : Accepted emit state.emitted

structure Sound (emit : Callback S) (shared : Shared S) (sessionId : S.Bytes) (number : Nat) (consumed : S.Bytes)
    (state : Decoding S) : Prop where
  settled : Settled state
  reads : ∀ reader, state.decoder.request = some reader → ∃ frames, Reads emit shared sessionId number consumed state reader frames

variable {shared : Shared S} {sessionId consumed : S.Bytes} {number : Nat}

theorem Reads.feed (owned : shared.peer.Owned) (settled : Settled state) {frames}
    (reads : Reads emit shared sessionId number consumed state reader frames) (open_ : state.decoder.request = some reader)
    (byte : S.Symbol) (next : ResponseReader S) (kept : (state.feed emit (byte, now)).decoder.request = some next) :
    ∃ later, Reads emit shared sessionId number (consumed ++ [byte]) (state.feed emit (byte, now)) next later := by
  have some_ : ¬ state.decoder.request.isNone = true := by rw [open_]; nofun
  have shape := feed_view emit now settled.ready open_ byte
  cases stepped : state.decoder.step byte with
  | mk result decoder =>
    cases result with
    | error error =>
      have shut : (state.feed emit (byte, now)).decoder = decoder.shut := by
        simpa only [view, stepped] using congrArg Prod.fst shape
      rw [shut] at kept
      cases kept
    | ok full =>
      obtain ⟨-, joined, -, request⟩ := ResponseDecoder.step_frame settled.ready stepped
      cases full with
      | false =>
        have fed : state.feed emit (byte, now) = { state with decoder } := by
          simp only [Decoding.feed, if_neg some_, byteStep, stepped]
        rw [fed] at kept ⊢
        cases (request.trans open_).symm.trans kept
        refine ⟨frames, ?_, reads.reading, reads.untouched, reads.accepted⟩
        rw [reads.consumed, joined, List.append_assoc]
      | true =>
        simp only [view, stepped] at shape
        cases opens : reader.opened state.shared decoder.buffer now with
        | none =>
          rw [opens] at shape
          have shut : (state.feed emit (byte, now)).decoder = decoder.shut := congrArg Prod.fst shape
          rw [shut] at kept
          cases kept
        | some pair =>
          obtain ⟨output, after⟩ := pair
          rw [opens] at shape
          dsimp only at shape
          cases told : emit (state.emitted ++ [output]) with
          | error error =>
            rw [told] at shape
            have shut : (state.feed emit (byte, now)).decoder = (decoder.advanced after output.1).shut := congrArg Prod.fst shape
            rw [shut] at kept
            cases kept
          | ok _ =>
            rw [told] at shape
            have cleared : (state.feed emit (byte, now)).decoder = (decoder.advanced after output.1).clearBuffer :=
              congrArg Prod.fst shape
            have emitted : (state.feed emit (byte, now)).emitted = state.emitted ++ [output] := congrArg Prod.snd shape
            rw [cleared] at kept
            cases kept
            obtain ⟨records, authentic, rfl⟩ := (reads.reading.next owned reads.untouched).mp opens
            refine ⟨frames ++ [decoder.buffer], ?_, ?_, ?_, ?_⟩
            · rw [cleared, reads.consumed, joined]
              simp [ResponseDecoder.clearBuffer]
            · rw [emitted]
              exact .started authentic
            · intro none
              simp at none
            · rw [emitted]
              exact reads.accepted.snoc told

theorem Sound.feed (owned : shared.peer.Owned) (sound : Sound emit shared sessionId number consumed state) (entry : S.Symbol × Nat) :
    Sound emit shared sessionId number (consumed ++ [entry.1]) (state.feed emit entry) := by
  refine ⟨sound.settled.feed entry, fun next kept => ?_⟩
  cases open_ : state.decoder.request with
  | none =>
    have still : state.feed emit entry = state := by rw [Decoding.feed, open_]; rfl
    rw [still, open_] at kept
    cases kept
  | some reader =>
    obtain ⟨frames, reads⟩ := sound.reads reader open_
    exact reads.feed owned sound.settled open_ entry.1 next kept

/-- Two decoders that were given the same bytes, at whatever times. -/
structure Alike (emit : Callback S) (shared : Shared S) (sessionId : S.Bytes) (number : Nat) (consumed : S.Bytes)
    (left right : Decoding S) : Prop where
  first : Sound emit shared sessionId number consumed left
  second : Sound emit shared sessionId number consumed right
  decoder : left.decoder = right.decoder
  emitted : left.emitted = right.emitted

theorem Alike.feed (owned : shared.peer.Owned) {left right}
    (alike : Alike emit shared sessionId number consumed left right) (byte : S.Symbol) (now later : Nat) :
    Alike emit shared sessionId number (consumed ++ [byte]) (left.feed emit (byte, now)) (right.feed emit (byte, later)) := by
  have first := alike.first.feed owned (byte, now)
  have second := alike.second.feed owned (byte, later)
  cases open_ : left.decoder.request with
  | none =>
    have other : right.decoder.request = none := by rw [← alike.decoder, open_]
    have still : left.feed emit (byte, now) = left := by rw [Decoding.feed, open_]; rfl
    have also : right.feed emit (byte, later) = right := by rw [Decoding.feed, other]; rfl
    rw [still] at first ⊢
    rw [also] at second ⊢
    exact ⟨first, second, alike.decoder, alike.emitted⟩
  | some reader =>
    have other : right.decoder.request = some reader := by rw [← alike.decoder, open_]
    obtain ⟨frames, reads⟩ := alike.first.reads reader open_
    obtain ⟨others, also⟩ := alike.second.reads reader other
    have opens (frame : S.Bytes) : reader.opened left.shared frame now = reader.opened right.shared frame later :=
      reads.reading.opened_same owned reads.untouched also.reading also.untouched frame now later
    have here := feed_view emit now alike.first.settled.ready open_ byte
    have there := feed_view emit later alike.second.settled.ready other byte
    rw [funext opens, alike.decoder, alike.emitted, ← there] at here
    exact ⟨first, second, congrArg Prod.fst here, congrArg Prod.snd here⟩

theorem Alike.feedAll (owned : shared.peer.Owned) {left right : Decoding S} {entries others : List (S.Symbol × Nat)}
    (alike : Alike emit shared sessionId number consumed left right) (same : entries.map Prod.fst = others.map Prod.fst) :
    Alike emit shared sessionId number (consumed ++ entries.map Prod.fst) (entries.foldl (Decoding.feed emit) left)
      (others.foldl (Decoding.feed emit) right) := by
  induction entries generalizing consumed left right others with
  | nil =>
    cases List.map_eq_nil_iff.mp same.symm
    rwa [List.map_nil, List.append_nil]
  | cons entry entries ih =>
    obtain ⟨byte, now⟩ := entry
    cases others with
    | nil => cases same
    | cons other others =>
      obtain ⟨_, later⟩ := other
      obtain ⟨rfl, rest⟩ := List.cons_eq_cons.mp same
      have next := ih (alike.feed owned byte now later) rest
      rwa [List.append_assoc] at next

end Decoding

namespace Shared

variable {shared : Shared S} {sessionId : S.Bytes} {number : Nat} {frames : List S.Bytes} {contents : List (Kind × S.Bytes)}
  {records : Records S}

theorem Authenticates.reaches (authentic : shared.Authenticates sessionId number frames contents records) :
    Reaches .response records.phase (contents.map Records.letter) := by
  obtain ⟨first, rest, header, offer, -, -, -, opened⟩ := authentic
  exact (Records.openAll_reaches (reaches_start .response) opened).2

theorem Authenticates.finished_iff (authentic : shared.Authenticates sessionId number frames contents records) :
    records.phase = .finished ↔ Word .response (contents.map Records.letter) := by
  constructor
  · intro finished
    have reaches := authentic.reaches
    rw [finished] at reaches
    exact reaches_finished.mp reaches
  · intro whole
    exact authentic.reaches.unique (reaches_finished.mpr whole)

theorem Authenticates.last {frame : S.Bytes} (authentic : shared.Authenticates sessionId number (frames ++ [frame]) contents records) :
    ∃ earlier output reader, contents = earlier ++ [output] ∧
      ResponseReader.Reading shared sessionId number frames earlier reader ∧
      (∀ before, reader.records = some before → before.phase ≠ .finished) ∧
      recordSize (frame.take 4) = .ok frame.length ∧ (records.phase = .finished ↔ output.1 = .finished) := by
  obtain ⟨first, rest, header, offer, shape, framed, offered, opened⟩ := authentic
  rcases List.eq_nil_or_concat contents with rfl | ⟨earlier, output, rfl⟩
  · have count := congrArg (fun run => run.1.length) opened
    simp [Records.openAll_append, Records.openAll] at count
  · rw [List.concat_eq_append] at opened ⊢
    obtain ⟨middle, before, opening⟩ := Records.openAll_snoc.mp opened
    obtain ⟨sized, checked, -⟩ := Records.opening_accepts opening
    cases frames with
    | nil =>
      obtain ⟨nothing, -⟩ := Prod.mk.inj before
      cases List.map_eq_nil_iff.mp nothing.symm
      exact ⟨[], output, _, rfl, .waiting, (by simp), sized, Records.opening_finished opening⟩
    | cons head tail =>
      cases shape
      refine ⟨earlier, output, _, rfl, .started ⟨_, _, header, offer, rfl, framed, offered, before⟩, ?_, sized,
        Records.opening_finished opening⟩
      intro other same
      cases same
      exact (Records.check_live checked).1

end Shared

namespace Decoding

variable {emit : Callback S} {state : Decoding S} {shared : Shared S} {sessionId : S.Bytes} {number : Nat}
  {frames : List S.Bytes} {contents : List (Kind × S.Bytes)} {records : Records S}

structure Between (shared : Shared S) (sessionId : S.Bytes) (number : Nat) (frames : List S.Bytes)
    (contents : List (Kind × S.Bytes)) (reader : ResponseReader S) (state : Decoding S) : Prop where
  request : state.decoder.request = some reader
  buffer : state.decoder.buffer = []
  needed : state.decoder.needed = 4
  emitted : state.emitted = contents
  untouched : frames = [] → state.shared = shared
  finished : state.decoder.finished = true → ∃ records, reader.records = some records ∧ records.phase = .finished

theorem Between.push {reader} {frame : S.Bytes} {output} (owned : shared.peer.Owned)
    (between : Between shared sessionId number frames contents reader state)
    (reading : ResponseReader.Reading shared sessionId number frames contents reader)
    (running : ∀ before, reader.records = some before → before.phase ≠ .finished)
    (sized : recordSize (frame.take 4) = .ok frame.length)
    (authentic : shared.Authenticates sessionId number (frames ++ [frame]) (contents ++ [output]) records)
    (ends : records.phase = .finished ↔ output.1 = .finished) (told : emit (contents ++ [output]) = .ok ()) (now : Nat) :
    Between shared sessionId number (frames ++ [frame]) (contents ++ [output]) ⟨none, sessionId, some records, false⟩
      (Decoding.push emit state frame now).2 := by
  have open_ : state.decoder.finished = false := by
    apply Bool.eq_false_iff.mpr
    intro finished
    obtain ⟨before, present, ended⟩ := between.finished finished
    exact running before present ended
  have some_ : ¬ state.decoder.request.isNone = true := by rw [between.request]; nofun
  have ready : state.decoder.Ready := by
    rw [ResponseDecoder.Ready, between.buffer, between.needed]
    exact Nat.zero_lt_succ 3
  obtain ⟨decoder, filled, buffer, -, request⟩ := ResponseDecoder.fillBytes_frame between.buffer between.needed open_ sized
  have opens : reader.opened state.shared decoder.buffer now = some (output, ⟨none, sessionId, some records, false⟩) :=
    (reading.next owned between.untouched).mpr ⟨records, by rw [buffer]; exact authentic, rfl⟩
  obtain ⟨left, shape⟩ := decode_opened emit { state with decoder } (request.trans between.request) opens
  dsimp only at shape
  rw [between.emitted, told] at shape
  have pushed : Decoding.push emit state frame now =
      (.ok (), ⟨(decoder.advanced ⟨none, sessionId, some records, false⟩ output.1).clearBuffer, left, contents ++ [output]⟩) := by
    rw [Decoding.push, if_neg some_, read_eq ready (Nat.le_refl _), readBytes_fill, filled]
    dsimp only
    rw [between.emitted, shape]
    rfl
  rw [pushed]
  refine ⟨rfl, rfl, rfl, rfl, fun none => ?_, fun finished => ⟨records, rfl, ends.mpr (of_decide_eq_true finished)⟩⟩
  simp at none

theorem run_frames (owned : shared.peer.Owned) {first}
    (start : Between shared sessionId number [] [] ⟨some number, sessionId, none, false⟩ first)
    (authentic : shared.Authenticates sessionId number frames contents records) (accepted : Accepted emit contents) :
    Between shared sessionId number frames contents ⟨none, sessionId, some records, false⟩ (run emit first (frames.map (·, 0))) := by
  induction frames using List.reverseRecOn generalizing contents records with
  | nil =>
    obtain ⟨_, _, _, _, none, -⟩ := authentic
    cases none
  | append_singleton frames frame ih =>
    obtain ⟨earlier, output, reader, rfl, reading, running, sized, ends⟩ := authentic.last
    have told : emit (earlier ++ [output]) = .ok () := by
      have last := accepted earlier.length (by simp)
      rwa [List.take_of_length_le (by simp)] at last
    have before : Accepted emit earlier := by
      intro count below
      have here := accepted count (by simp; omega)
      rwa [List.take_append_of_le_length below] at here
    have between : Between shared sessionId number frames earlier reader (run emit first (frames.map (·, 0))) := by
      cases reading with
      | waiting => exact start
      | started authentic => exact ih authentic before
    rw [List.map_append, run, List.foldl_append]
    exact between.push owned reading running sized authentic ends told 0

theorem finish_ok (state : Decoding S) :
    state.finish.1 = .ok () ↔ ∃ reader, state.decoder.request = some reader ∧ state.decoder.buffer = [] ∧ reader.failed = false ∧
      ∃ records, reader.records = some records ∧ records.phase = .finished := by
  simp only [finish]
  cases state.decoder.request with
  | none => simp
  | some reader =>
    obtain ⟨pending, sessionId, records, failed⟩ := reader
    simp only [ResponseReader.complete, Records.complete]
    cases state.decoder.buffer with
    | cons byte rest => simp
    | nil =>
      cases failed with
      | true => simp
      | false =>
        cases records with
        | none => simp
        | some records => by_cases ended : records.phase = .finished <;> simp [ended]

end Decoding

def Client.decoding (client : Client S) (number : Nat) : Decoding S :=
  ⟨.fromReader ⟨some number, client.session.id, none, false⟩, client.shared, []⟩

/-- Two ways of cutting a stream into pushes, at whatever times, emit the same
records and leave the same decoder, failed or open. It finishes exactly if the
stream is one complete authentic response and the callback took all of it. -/
theorem fragmentation {first client : Client S} {sent : List (List (HeaderSeal S))} (initial : first.Initial)
    (reached : Trace Client.Step first sent client) (number : Nat) (emit : Decoding.Callback S)
    (pushes others : List (S.Bytes × Nat)) (same : (pushes.map Prod.fst).flatten = (others.map Prod.fst).flatten) :
    let left := (client.decoding number).run emit pushes
    let right := (client.decoding number).run emit others
    left.emitted = right.emitted ∧ left.decoder = right.decoder ∧
    (left.finish.1 = .ok () ↔ ∃ frames contents, (pushes.map Prod.fst).flatten = frames.flatten ∧
      client.shared.AuthenticResponse client.session.id number frames contents ∧ Decoding.Accepted emit contents) ∧
    left.decoder.buffer.length ≤ left.decoder.needed ∧ left.decoder.needed ≤ maxRecordBytes := by
  intro left right
  have owned := Client.owned_run initial reached
  have start : Decoding.Between client.shared client.session.id number [] [] ⟨some number, client.session.id, none, false⟩
      (client.decoding number) := ⟨rfl, rfl, rfl, rfl, fun _ => rfl, nofun⟩
  have settled : Decoding.Settled (client.decoding number) := ⟨(by decide : 0 < 4), nofun⟩
  have sound : Decoding.Sound emit client.shared client.session.id number [] (client.decoding number) := by
    refine ⟨settled, fun reader request => ⟨[], rfl, ?_, fun _ => rfl, nofun⟩⟩
    cases request
    exact .waiting
  have lockstep {pushes others : List (S.Bytes × Nat)} (same : (pushes.map Prod.fst).flatten = (others.map Prod.fst).flatten) :
      Decoding.Alike emit client.shared client.session.id number (pushes.map Prod.fst).flatten
        ((client.decoding number).run emit pushes) ((client.decoding number).run emit others) := by
    have bytes : (Decoding.stamped pushes).map Prod.fst = (Decoding.stamped others).map Prod.fst := by
      rw [Decoding.stamped_bytes, Decoding.stamped_bytes, same]
    have alike := Decoding.Alike.feedAll owned ⟨sound, sound, rfl, rfl⟩ bytes
    rwa [List.nil_append, Decoding.stamped_bytes, ← Decoding.run_eq settled, ← Decoding.run_eq settled] at alike
  have alike := lockstep same
  refine ⟨alike.emitted, alike.decoder, ?_, left.decoder.short, left.decoder.bounded⟩
  constructor
  · intro finished
    obtain ⟨reader, request, empty, -, records, present, ended⟩ := (Decoding.finish_ok left).mp finished
    obtain ⟨frames, reads⟩ := alike.first.reads reader request
    have whole : (pushes.map Prod.fst).flatten = frames.flatten := by
      rw [reads.consumed, show left.decoder.buffer = [] from empty, List.append_nil]
    have authentic := reads.reading.authentic present
    exact ⟨frames, left.emitted, whole, ⟨⟨records, authentic⟩, authentic.finished_iff.mp ended⟩, reads.accepted⟩
  · rintro ⟨frames, contents, whole, ⟨⟨records, authentic⟩, word⟩, accepted⟩
    have between := Decoding.run_frames owned start authentic accepted
    have pieces : (frames.map (·, 0)).map Prod.fst = frames := by simp [Function.comp_def]
    have decoder := (lockstep (whole.trans (congrArg List.flatten pieces).symm)).decoder
    rw [Decoding.finish_ok]
    refine ⟨⟨none, client.session.id, some records, false⟩, ?_, ?_, rfl, records, rfl, authentic.finished_iff.mpr word⟩
    · exact (congrArg ResponseDecoder.request decoder).trans between.request
    · exact (congrArg ResponseDecoder.buffer decoder).trans between.buffer

theorem fragmentation_sample :
    ((sampleClient.decoding 0).run (fun _ => .ok ()) [(([0, 1, 2] : List Nat), 0)]).decoder =
      ((sampleClient.decoding 0).run (fun _ => .ok ()) [(([0] : List Nat), 5), (([] : List Nat), 2), (([1, 2] : List Nat), 9)]).decoder :=
  (fragmentation sampleClient_initial .nil 0 (fun _ => .ok ()) [(([0, 1, 2] : List Nat), 0)]
    [(([0] : List Nat), 5), (([] : List Nat), 2), (([1, 2] : List Nat), 9)] rfl).2.1

end StogasVerifier.Channel
