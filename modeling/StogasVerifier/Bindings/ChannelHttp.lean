import StogasVerifier.Channel.Upload
import StogasVerifier.Lib.Fallible

/-! The request side of the JavaScript client (`bindings/shared/channel-http.js`). The body of
a fetch request arrives in chunks of any sizes, which are repacked into full records. -/

namespace StogasVerifier.Bindings
open Lib
open Channel (Suite Kind RequestEncoder)

def maxRecordPayload : Nat := 65515
def maxMetadataBytes : Nat := 16 * 1024
def maxRequestBytes : Nat := 128 * 1024 * 1024

inductive FetchError where
  | thrown (message : String)
  | aborted
  /-- An error of the session core. -/
  | exchange (error : Channel.Error)
  deriving DecidableEq

structure Runtime where
  /-- `JSON.stringify` of the method, the path and the headers. -/
  stringify : String → String → List (String × String) → String
  /-- Whether `Number(text)` is above a limit. -/
  numberExceeds : String → Nat → Bool

variable {S : Suite}

/-- What one `read` of a stream gives: a `Uint8Array`, another value or an error. -/
inductive Read (S : Suite) where
  | bytes (value : S.Bytes)
  | other
  | failed (message : String)

inductive Body (S : Suite) where
  | none
  | stream (reads : List (Read S))
  /-- A body that is only there as a blob. -/
  | blob (size : Nat) (reads : List (Read S))

structure Request (S : Suite) where
  method : String
  pathname : String
  search : String
  hash : String
  headers : List (String × String)
  body : Body S

/-- What is sealed so far, and how often the signal was asked. -/
structure Outgoing (S : Suite) where
  encoder : RequestEncoder S
  parts : List S.Bytes
  polls : Nat

namespace Outgoing

/-- `signal?.throwIfAborted()`; the signal may be aborted at any of the times when it is asked. -/
def throwIfAborted (out : Outgoing S) (aborted : Nat → Bool) : Except FetchError (Outgoing S) :=
  if aborted out.polls then .error .aborted else .ok { out with polls := out.polls + 1 }

def sealPart (out : Outgoing S) (aborted : Nat → Bool) (kind : Kind) (content : S.Bytes) : Except FetchError (Outgoing S) := do
  let out ← out.throwIfAborted aborted
  match out.encoder.sealRecord kind content with
  | (.error error, _) => .error (.exchange error)
  | (.ok bytes, encoder) => return { out with encoder, parts := out.parts ++ [bytes] }

end Outgoing

/-- `buffer.set(bytes, offset)` -/
def setBytes (buffer bytes : S.Bytes) (offset : Nat) : Except FetchError S.Bytes := do
  rejectIf (buffer.length < offset + bytes.length) (.thrown "offset is out of bounds")
  return buffer.take offset ++ bytes ++ buffer.drop (offset + bytes.length)

/-- The loop over the full records inside of one chunk. -/
def sealSlices (aborted : Nat → Bool) (value : S.Bytes) (offset : Nat) (out : Outgoing S) : Except FetchError (Outgoing S × Nat) :=
  if maxRecordPayload ≤ value.length - offset then do
    let out ← out.sealPart aborted .data ((value.drop offset).take maxRecordPayload)
    sealSlices aborted value (offset + maxRecordPayload) out
  else .ok (out, offset)
termination_by value.length - offset
decreasing_by
  simp only [maxRecordPayload] at *
  omega

/-- The loop over the chunks: the buffer that carries bytes to the next chunk is made once and
keeps old bytes past those that are filled. -/
structure Packing (S : Suite) where
  out : Outgoing S
  pending : Option S.Bytes
  filled : Nat
  size : Nat

namespace Packing

def readRest (packing : Packing S) (aborted : Nat → Bool) (value : S.Bytes) (offset : Nat) : Except FetchError (Packing S) := do
  let (out, offset) ← sealSlices aborted value offset packing.out
  if offset < value.length then
    let buffer ← setBytes (packing.pending.getD (List.replicate maxRecordPayload (S.u8 0))) (value.drop offset) 0
    return { packing with out, pending := some buffer, filled := value.length - offset }
  else return { packing with out }

def read (packing : Packing S) (aborted : Nat → Bool) (value : S.Bytes) : Except FetchError (Packing S) := do
  rejectIf (maxRequestBytes - packing.size < value.length) (.thrown "request exceeds its byte limit")
  let packing := { packing with size := packing.size + value.length }
  if packing.filled ≠ 0 then
    let offset := min (maxRecordPayload - packing.filled) value.length
    let pending ← required packing.pending (.thrown "undefined is not an object")
    let buffer ← setBytes pending (value.take offset) packing.filled
    let filled := packing.filled + offset
    if filled < maxRecordPayload then return { packing with pending := some buffer, filled }
    else
      let out ← packing.out.sealPart aborted .data buffer
      { packing with out, pending := some buffer, filled := 0 }.readRest aborted value offset
  else packing.readRest aborted value 0

def readAll (aborted : Nat → Bool) : List (Read S) → Packing S → Except FetchError (Packing S)
  | [], packing => .ok packing
  | .bytes value :: rest, packing => do
    let packing ← packing.read aborted value
    readAll aborted rest packing
  | .other :: _, _ => .error (.thrown "request exceeds its byte limit")
  | .failed message :: _, _ => .error (.thrown message)

end Packing

/-- The headers without the length of the body, whose framing belongs to the outer exchange. -/
def Request.sentHeaders (request : Request S) : List (String × String) := request.headers.filter fun header => header.1 ≠ "content-length"

def Request.metadata (request : Request S) (runtime : Runtime) : S.Bytes :=
  S.text (runtime.stringify request.method request.pathname request.sentHeaders)

/-- Whether the stated length of the body is too much. -/
def Request.overstated (request : Request S) (runtime : Runtime) : Bool :=
  (request.headers.lookup "content-length").any fun text => runtime.numberExceeds text maxRequestBytes

/-- The part of `encodeRequest` that reads a stream. -/
def sealStream (aborted : Nat → Bool) (overstated : Bool) (reads : List (Read S)) (out : Outgoing S) : Except FetchError (Outgoing S) := do
  rejectIf overstated (.thrown "request exceeds its byte limit")
  let packing ← Packing.readAll aborted reads ⟨out, none, 0, 0⟩
  if packing.filled ≠ 0 then
    let pending ← required packing.pending (.thrown "undefined is not an object")
    packing.out.sealPart aborted .data (pending.take packing.filled)
  else return packing.out

/-- The part of `encodeRequest` between the metadata and the end. -/
def sealBody (aborted : Nat → Bool) (overstated : Bool) (body : Body S) (out : Outgoing S) : Except FetchError (Outgoing S) :=
  match body with
  | .none => .ok out
  | .stream reads => sealStream aborted overstated reads out
  | .blob size reads => do
    let out ← out.throwIfAborted aborted
    rejectIf (maxRequestBytes < size) (.thrown "request exceeds its byte limit")
    sealStream aborted overstated reads out

def encodeRequest (runtime : Runtime) (aborted : Nat → Bool) (exchange : RequestEncoder S) (request : Request S) :
    Except FetchError (List S.Bytes) := do
  rejectIf (request.search ≠ "" ∨ request.hash ≠ "") (.thrown "encrypted requests cannot contain a query or fragment")
  let metadata := request.metadata runtime
  rejectIf (maxMetadataBytes < metadata.length) (.thrown "request headers exceed their byte limit")
  let out ← (⟨exchange, [exchange.prefixBytes], 0⟩ : Outgoing S).sealPart aborted .metadata metadata
  let out ← sealBody aborted (request.overstated runtime) request.body out
  let out ← out.sealPart aborted .finished []
  return out.parts

end StogasVerifier.Bindings
