import StogasVerifier.Channel.Decoder
import StogasVerifier.Channel.Upload
import StogasVerifier.Lib.Json
import StogasVerifier.Sdk.ReceiptHttp

/-! One encrypted request and the head of its response (`encrypted_http.rs`). What the
network gives, and when the deadline has passed, are arguments; so are the JSON parser
and what others do to the session between two reads. -/

namespace StogasVerifier.Sdk.EncryptedHttp
open Lib
open StogasVerifier.Channel (Suite Kind Shared Decoding ClientRequest)
open Sigstore (Bytes)

variable {S : Suite}

inductive Error where
  | request | notSentDeadline | deadline | http | response | metadata
  | record (error : Channel.Error)
  | completion (error : Receipt.Signed.Error)

def Error.ofSend : Channel.SendError → Error
  | .request => .request
  | .notSentDeadline => .notSentDeadline
  | .deadline => .deadline
  | .record error => .record error

structure ResponseMetadata where
  status : Nat
  headers : Headers
  refused : Bool

/-- `HeaderValue::from_str` -/
def isHeaderValue (text : String) : Bool := text.toUTF8.toList.all fun byte => (32 ≤ byte ∧ byte ≠ 127) ∨ byte = 9

/-- `HeaderValue::to_str` -/
def visible (text : String) : Option String :=
  if text.toUTF8.toList.all fun byte => (32 ≤ byte ∧ byte < 127) ∨ byte = 9 then some text else none

def responseHeaders : List String := ["content-type", "cache-control", "retry-after"]

def collectHeaders : List (String × Json) → Headers → Except Error Headers
  | [], headers => .ok headers
  | (name, value) :: rest, headers => do
    let name := String.ofList (name.toList.map Char.toLower)
    rejectIf (name ∉ responseHeaders ∨ name ∈ headers.map Prod.fst) .metadata
    let text ← required value.asStr .metadata
    rejectIf (¬ isHeaderValue text) .metadata
    collectHeaders rest (headers ++ [(name, visible text)])

def readRefused : Option Json → Except Error Bool
  | none => .ok false
  | some (.bool value) => .ok value
  | some _ => .error .metadata

variable (fromSlice : S.Bytes → Option Json)

def responseMetadata (bytes : S.Bytes) : Except Error ResponseMetadata := do
  rejectIf (Channel.maxMetadataBytes < bytes.length) .metadata
  let value ← required (fromSlice bytes) .metadata
  let object ← required value.asObject .metadata
  rejectIf (object.any fun entry => entry.1 ∉ ["status", "headers", "refused"]) .metadata
  let refused ← readRefused (object.lookup "refused")
  let status ← required (((object.lookup "status").bind Json.asU64).filter fun status => 200 ≤ status ∧ status ≤ 599) .metadata
  let values ← required ((object.lookup "headers").bind Json.asObject) .metadata
  let headers ← collectHeaders values []
  return ⟨status, headers, refused⟩

/-- What the records of a response showed so far. -/
structure Incoming where
  pending : List Bytes
  metadata : Option ResponseMetadata
  completion : Option Receipt.SseBody
  bodyAllowed : Bool

def Incoming.start : Incoming := ⟨[], none, none, false⟩

/-- Why the callback of `advance` fails. -/
inductive Rejection where
  | metadata | record
  deriving DecidableEq

def octets (bytes : S.Bytes) : Bytes := bytes.map fun symbol => UInt8.ofNat (S.value symbol)

/-- The statuses of responses without a body. -/
def bodiless : List Nat := [204, 205, 304]

namespace Incoming

/-- The callback of `advance`. -/
def take (state : Incoming) : Kind × S.Bytes → Except Rejection Incoming
  | (.metadata, bytes) =>
    match responseMetadata fromSlice bytes with
    | .error _ => .error .metadata
    | .ok metadata => .ok { state with
        metadata := some metadata
        bodyAllowed := metadata.status ∉ bodiless
        completion := if (metadata.headers.text "content-type").any isEventStream then some .transport else state.completion }
  | (.data, bytes) =>
    if state.bodyAllowed = false then .error .record
    else match state.completion with
      | none => .ok { state with pending := state.pending ++ [octets bytes] }
      | some completion =>
        match completion.push (octets bytes) with
        | (.error _, _) => .error .record
        | (.ok output, completion) => .ok { state with pending := state.pending ++ output, completion := some completion }
  | (.finished, _) => .ok state
  | (.keepalive, _) => .ok state

/-- The records that the decoder emits, up to one that the callback rejects. -/
def absorb (state : Incoming) : List (Kind × S.Bytes) → Incoming × Option Rejection
  | [] => (state, none)
  | record :: records =>
    match state.take fromSlice record with
    | .error rejection => (state, some rejection)
    | .ok state => state.absorb records

end Incoming

/-- What a read of the response gives before the deadline. -/
inductive Chunk (S : Suite) where
  | late | broken | ended
  | bytes (bytes : S.Bytes)

/-- What one call of `advance` meets. -/
structure Tick (S : Suite) where
  expired : Bool
  chunk : Chunk S
  shared : Shared S
  now : Nat

structure Receiving (S : Suite) where
  decoder : Option (Decoding S)
  input : S.Bytes
  incoming : Incoming

namespace Receiving

def finish (state : Receiving S) : Except Error Unit × Receiving S :=
  match state.decoder with
  | none => (.error .metadata, state)
  | some decoding =>
    match decoding.finish.1, state.incoming.completion with
    | .error error, _ => (.error (.record error), { state with decoder := none })
    | .ok (), none => (.ok (), { state with decoder := none })
    | .ok (), some completion =>
      match completion.requireComplete with
      | .error _ => (.error (.completion .invalid), { state with decoder := none, incoming := { state.incoming with completion := none } })
      | .ok () =>
        (.ok (), { state with
          decoder := none
          incoming := { state.incoming with completion := none, pending := state.incoming.pending ++ [Receipt.sseEventEnd] } })

/-- Give the decoder as much of the input as one record can hold. -/
def push (state : Receiving S) (shared : Shared S) (now : Nat) : Except Error Unit × Receiving S :=
  let size := min state.input.length Channel.maxRecordBytes
  let rest := state.input.drop size
  match state.decoder with
  | none => (.error .metadata, { state with input := rest })
  | some decoding =>
    let callback : Decoding.Callback S := fun records =>
      match (state.incoming.absorb fromSlice records).2 with
      | none => .ok ()
      | some _ => .error .record
    let (result, decoding) := Decoding.push callback { decoding with shared, emitted := [] } (state.input.take size) now
    let (incoming, rejection) := state.incoming.absorb fromSlice decoding.emitted
    (result.mapError fun error => if rejection = some .metadata then .metadata else .record error, ⟨some decoding, rest, incoming⟩)

def advance (state : Receiving S) (tick : Tick S) : Except Error Unit × Receiving S :=
  if tick.expired then (.error .deadline, state)
  else if state.input.isEmpty then
    match tick.chunk with
    | .late => (.error .deadline, state)
    | .broken => (.error .http, state)
    | .ended => state.finish
    | .bytes bytes => { state with input := bytes }.push fromSlice tick.shared tick.now
  else state.push fromSlice tick.shared tick.now

/-- A loop over `advance`. The deadline ends it when nothing else does. -/
def advanceWhile (continues : Receiving S → Bool) : List (Tick S) → Receiving S → Except Error (List (Tick S)) × Receiving S
  | [], state => if continues state then (.error .deadline, state) else (.ok [], state)
  | tick :: ticks, state =>
    if continues state then
      match state.advance fromSlice tick with
      | (.error error, state) => (.error error, state)
      | (.ok (), state) => advanceWhile continues ticks state
    else (.ok (tick :: ticks), state)

end Receiving

def contentType : String := "application/vnd.stogas.session"

/-- How the outer request ends by the deadline. -/
inductive Answer where
  | late | failed
  | head (status : Nat) (contentType : Option String) (contentLength : Option Nat)

/-- What one call of `send` meets. -/
structure Carriage (S : Suite) where
  now : Nat
  deadline : Nat
  answer : Answer
  shared : Shared S
  ticks : List (Tick S)
  /-- Whether the gateway processes the request. -/
  processed : Bool

/-- An outer request that was started, and the metadata that the gateway authenticated
in its response. -/
structure Attempt where
  shown : Option ResponseMetadata
  processed : Bool

/-- The part of `send` before the outer request. -/
def upload (nodeId : String) (exchange : ClientRequest S) (request : Channel.HttpRequest S) (carriage : Carriage S) :
    Except Error (Channel.Upload S) := do
  let _ ← request.metadata.mapError .ofSend
  rejectIf (¬ isHeaderValue nodeId) .request
  (Channel.Upload.create request exchange carriage.now carriage.deadline).mapError .ofSend

def ResponseMetadata.response (metadata : ResponseMetadata) (body : Body) : HttpResponse :=
  ⟨metadata.status, metadata.headers, body, metadata.refused⟩

/-- The part of `send` from the response to the outer request on. -/
def respond (exchange : ClientRequest S) (carriage : Carriage S) : Except Error HttpResponse × Option ResponseMetadata :=
  match carriage.answer with
  | .late => (.error .deadline, none)
  | .failed => (.error .http, none)
  | .head status type length =>
    if status ≠ 200 ∨ type ≠ some contentType ∨ length.any (Channel.maxResponseWireBytes < ·) then (.error .response, none)
    else
      let start : Receiving S := ⟨some ⟨.fromReader exchange.reader, carriage.shared, []⟩, [], .start⟩
      match start.advanceWhile fromSlice (fun state => state.incoming.metadata.isNone && state.decoder.isSome) carriage.ticks with
      | (.error error, state) => (.error error, state.incoming.metadata)
      | (.ok ticks, state) =>
        match state.incoming.metadata with
        | none => (.error .metadata, none)
        | some metadata =>
          if state.incoming.bodyAllowed then (.ok (metadata.response .incoming), some metadata)
          else
            -- Even a 204 must authenticate completion and reject any body or trailing bytes.
            let taken := { state with incoming := { state.incoming with metadata := none } }
            match taken.advanceWhile fromSlice (fun state => state.decoder.isSome) ticks with
            | (.error error, _) => (.error error, some metadata)
            | (.ok _, _) => (.ok (metadata.response (.full [])), some metadata)

def send (nodeId : String) (exchange : ClientRequest S) (request : Channel.HttpRequest S) (carriage : Carriage S) :
    Except Error HttpResponse × List Attempt :=
  match upload nodeId exchange request carriage with
  | .error error => (.error error, [])
  | .ok _ =>
    let (result, shown) := respond fromSlice exchange carriage
    (result, [⟨shown, carriage.processed⟩])

end StogasVerifier.Sdk.EncryptedHttp
