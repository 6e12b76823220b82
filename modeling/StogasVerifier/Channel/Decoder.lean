import StogasVerifier.Channel.Session
import StogasVerifier.Lib.Fallible

/-! Incremental response framing (`stream.rs`). -/

namespace StogasVerifier.Channel

variable {S : Suite}

/-- The buffer never outgrows the frame that it fills, and no frame outgrows a
record. -/
@[ext]
structure ResponseDecoder (S : Suite) where
  request : Option (ResponseReader S)
  buffer : S.Bytes
  needed : Nat
  finished : Bool
  short : buffer.length ≤ needed
  bounded : needed ≤ maxRecordBytes

theorem recordSize_bounds {bytes : S.Bytes} {size : Nat} (sized : recordSize bytes = .ok size) :
    4 < size ∧ size ≤ maxRecordBytes := by
  obtain ⟨_, _, sized⟩ := Lib.bind_ok.mp sized
  obtain ⟨_, bounds, sized⟩ := Lib.bind_ok.mp sized
  cases Lib.pure_ok.mp sized
  by_cases outside : S.number bytes < recordOverhead ∨ maxRecordBytes < S.number bytes
  · rw [reject, if_pos outside] at bounds
    cases bounds
  · rw [recordOverhead] at outside
    omega

namespace ResponseDecoder

def fromReader (request : ResponseReader S) : ResponseDecoder S := ⟨some request, [], 4, false, Nat.zero_le _, by decide⟩

/-- Move what the frame still needs, or all there is, to the buffer. -/
def extend (decoder : ResponseDecoder S) (input : S.Bytes) : ResponseDecoder S × S.Bytes :=
  let take := min input.length (decoder.needed - decoder.buffer.length)
  ({ decoder with
    buffer := decoder.buffer ++ input.take take
    short := by
      have := decoder.short
      rw [List.length_append, List.length_take]
      omega }, input.drop take)

/-- Learn the length of the frame from its first four bytes. -/
def announce (decoder : ResponseDecoder S) (start : decoder.needed = 4) : Except Error (ResponseDecoder S) :=
  match sized : recordSize decoder.buffer with
  | .error error => .error error
  | .ok needed => .ok { decoder with
      needed
      short := Nat.le_trans (start ▸ decoder.short) (Nat.le_of_lt (recordSize_bounds sized).1)
      bounded := (recordSize_bounds sized).2 }

/-- The loop of `fill`, once for each byte of input at most. It says whether a
frame is complete, and what is left of the input. -/
def fill : Nat → ResponseDecoder S → S.Bytes → Except Error (Bool × S.Bytes) × ResponseDecoder S
  | 0, decoder, input => (.ok (false, input), decoder)
  | count + 1, decoder, input =>
    if input = [] then (.ok (false, input), decoder)
    else if decoder.finished then (.error .record, decoder)
    else
      let (decoder, input) := decoder.extend input
      if decoder.buffer.length ≠ decoder.needed then fill count decoder input
      else if start : decoder.needed = 4 then
        match decoder.announce start with
        | .error error => (.error error, decoder)
        | .ok decoder => fill count decoder input
      else (.ok (true, input), decoder)

def clearBuffer (decoder : ResponseDecoder S) : ResponseDecoder S :=
  { decoder with buffer := [], needed := 4, short := Nat.zero_le _, bounded := by decide }

end ResponseDecoder

/-- A decoder with the state that its request shares with the session, and what
it has emitted. -/
structure Decoding (S : Suite) where
  decoder : ResponseDecoder S
  shared : Shared S
  emitted : List (Kind × S.Bytes)

namespace Decoding

/-- The callback is told everything emitted so far, the newest record last. -/
abbrev Callback (S : Suite) := List (Kind × S.Bytes) → Except Error Unit

/-- Drop the `PendingStart` of a request that still has it. -/
def release (pending : Option Nat) (shared : Shared S) : Shared S :=
  match pending with
  | none => shared
  | some number => shared.dropPending number

def close (state : Decoding S) : Decoding S :=
  { state with
    decoder := { state.decoder.clearBuffer with request := none }
    shared := release (state.decoder.request.bind (·.pending)) state.shared }

/-- The body of the loop of `read`, on a complete frame. -/
def decode (emit : Callback S) (state : Decoding S) (now : Nat) : Except Error Unit × Decoding S :=
  match state.decoder.request with
  | none => (.error .closed, state)
  | some reader =>
    match reader.openRecord state.shared state.decoder.buffer now with
    | (.error error, reader, pending, shared) =>
      (.error error, { state with decoder := { state.decoder with request := some reader }, shared := release pending shared })
    | (.ok (kind, content), reader, pending, shared) =>
      let decoder := { state.decoder with request := some reader, finished := kind = .finished }
      let emitted := state.emitted ++ [(kind, content)]
      match emit emitted with
      | .error error => (.error error, ⟨decoder, release pending shared, emitted⟩)
      | .ok () => (.ok (), ⟨decoder.clearBuffer, release pending shared, emitted⟩)

/-- The loop of `read`, once for each byte of input at most. -/
def read (emit : Callback S) (now : Nat) : Nat → Decoding S → S.Bytes → Except Error Unit × Decoding S
  | 0, state, _ => (.ok (), state)
  | count + 1, state, input =>
    match state.decoder.fill input.length input with
    | (.error error, decoder) => (.error error, { state with decoder })
    | (.ok (false, _), decoder) => (.ok (), { state with decoder })
    | (.ok (true, input), decoder) =>
      match decode emit { state with decoder } now with
      | (.error error, state) => (.error error, state)
      | (.ok (), state) => read emit now count state input

def push (emit : Callback S) (state : Decoding S) (input : S.Bytes) (now : Nat) : Except Error Unit × Decoding S :=
  if state.decoder.request.isNone then (.error .closed, state.close)
  else match read emit now input.length state input with
    | (.error error, state) => (.error error, state.close)
    | (.ok (), state) => (.ok (), state)

/-- `finish` consumes the decoder, and with it a `PendingStart` that it still has. -/
def finish (state : Decoding S) : Except Error Unit × Shared S :=
  (match state.decoder.request with
    | none => .error .closed
    | some reader => if state.decoder.buffer ≠ [] then .error .truncated else reader.complete.1,
    release (state.decoder.request.bind (·.pending)) state.shared)

end Decoding
end StogasVerifier.Channel
