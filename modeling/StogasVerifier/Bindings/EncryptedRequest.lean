import StogasVerifier.Channel.Decoder
import StogasVerifier.Channel.RecordOperation
import StogasVerifier.Lib.Trace

/-! One request of the wasm binding (`channel/request.rs`). Its record state moves out for
each operation and comes back when the operation commits; an operation that does not commit
closes the request. Promises are polled in any order, and calls come at any time, also from
inside the callback of a push. The waker only brings the next poll. -/

namespace StogasVerifier.Bindings
open Lib
open Channel (Suite Kind ClientRequest ResponseDecoder CipherCall Records)

/-- What an operation fails with: an error of the channel, or an exception. -/
inductive Failure where
  | channel (error : Channel.Error)
  | thrown

structure RequestIo (S : Suite) where
  request : Option (ClientRequest S)
  decoder : Option (ResponseDecoder S)
  /-- What the hasher was given. -/
  requestHasher : Option S.Bytes
  requestFinished : Bool

/-- A promise that is not settled, with the state that it owns. -/
inductive Operation (S : Suite) where
  | sealing (kind : Kind) (content : S.Bytes) (io : RequestIo S)
  /-- The callback may have thrown. -/
  | pushing (io : RequestIo S) (thrown : Bool)

variable {S : Suite}

def Operation.io : Operation S → RequestIo S
  | .sealing _ _ io => io
  | .pushing io _ => io

structure RequestState (S : Suite) where
  io : Option (RequestIo S)
  closed : Bool
  operations : List (Operation S)

namespace RequestState

def new (request : ClientRequest S) (receipt : Bool) : RequestState S :=
  ⟨some ⟨some request, none, if receipt then some [] else none, false⟩, false, []⟩

def close (state : RequestState S) : RequestState S := { state with io := none, closed := true }

def checkOpen (state : RequestState S) : Except Channel.Error Unit := rejectIf state.closed .closed

/-- `Operation::begin` -/
def begin (state : RequestState S) : Except Channel.Error (RequestIo S × RequestState S) := do
  state.checkOpen
  let io ← required state.io .pending
  return (io, { state with io := none })

def conclude (state : RequestState S) (body : Except Failure (RequestIo S)) : Except Failure Unit × RequestState S :=
  match (do let io ← body; state.checkOpen.mapError .channel; return io) with
  | .ok io => (.ok (), { state with io := some io })
  | .error failure => (.error failure, state.close)

/-- The body of `seal` from its first poll to the answer of the cipher, if there is one. -/
def sealBody (state : RequestState S) (kind : Kind) (content : S.Bytes) (io : RequestIo S) (reply : CipherCall S) :
    Option (Except Failure (RequestIo S)) :=
  match io.request with
  | none => some (.error (.channel .closed))
  | some request =>
    if state.closed then some (.error (.channel .closed))
    else
      let sealing := Records.sealAsync kind content reply request.writer.records
      sealing.result.map fun
        | .error error => .error (.channel error)
        | .ok _ => .ok { io with
            request := some { request with writer := { request.writer with records := sealing.records } }
            requestHasher := if kind = .data then io.requestHasher.map (· ++ content) else io.requestHasher
            requestFinished := io.requestFinished || kind = .finished }

/-- The body of `push` after its callbacks. The clock may fail, and decoding ends in any way. -/
def pushBody (state : RequestState S) (io : RequestIo S) (thrown clock : Bool) (after : ResponseDecoder S)
    (result : Except Channel.Error Unit) : Except Failure (RequestIo S) := do
  let io := match io.request with
    | some request => { io with request := none, decoder := some (.fromReader request.reader) }
    | none => io
  rejectIf io.decoder.isNone (.channel .closed)
  rejectIf (clock = false) .thrown
  rejectIf thrown .thrown
  state.checkOpen.mapError .channel
  result.mapError .channel
  return { io with decoder := some after }

def finishBody (io : RequestIo S) (complete : ResponseDecoder S → Except Channel.Error Unit) : Except Failure (RequestIo S) := do
  let decoder ← required io.decoder (.channel .truncated)
  (complete decoder).mapError .channel
  return { io with request := none, decoder := none }

/-- The request digest of `response_receipt`. -/
def responseReceipt (state : RequestState S) : Except Failure S.Digest := do
  state.checkOpen.mapError .channel
  let io ← required (state.io.filter (·.requestFinished)) .thrown
  let content ← required io.requestHasher .thrown
  return S.sha256 content

end RequestState

/-- What a step shows to the caller. -/
inductive RequestEvent (S : Suite) where
  | refused (error : Channel.Error)
  | began | emitted | threw | freed
  | sealed (kind : Kind) (content : S.Bytes)
  | done
  | failed (failure : Failure)
  | receipt (result : Except Failure S.Digest)

namespace RequestState
open RequestEvent

def settled (success : RequestEvent S) : Except Failure Unit → RequestEvent S
  | .ok () => success
  | .error failure => .failed failure

inductive Step (state : RequestState S) : RequestEvent S → RequestState S → Prop where
  | refuse {error} (refused : state.begin = .error error) : Step state (.refused error) state
  | beginSeal {io next} (taken : state.begin = .ok (io, next)) (kind : Kind) (content : S.Bytes) :
      Step state .began { next with operations := next.operations ++ [.sealing kind content io] }
  /-- `Kind::try_from` fails after the operation has begun. -/
  | sealUnknown {io next code error} (taken : state.begin = .ok (io, next))
      (unknown : Kind.tryFrom code = .error error) : Step state (.failed (.channel error)) next.close
  | beginPush {io next} (taken : state.begin = .ok (io, next)) :
      Step state .began { next with operations := next.operations ++ [.pushing io false] }
  | finish {io next} (taken : state.begin = .ok (io, next)) (complete : ResponseDecoder S → Except Channel.Error Unit) :
      Step state (settled .done (next.conclude (finishBody io complete)).1) (next.conclude (finishBody io complete)).2
  | sealed {before after kind content io reply body} (here : state.operations = before ++ .sealing kind content io :: after)
      (ends : state.sealBody kind content io reply = some body) :
      Step state (settled (.sealed kind content) (conclude { state with operations := before ++ after } body).1)
        (conclude { state with operations := before ++ after } body).2
  /-- The callback is called. What it calls in turn are other steps. -/
  | emit {io} (here : .pushing io false ∈ state.operations) (opened : state.closed = false) : Step state .emitted state
  | throw {before after io} (here : state.operations = before ++ .pushing io false :: after) :
      Step state .threw { state with operations := before ++ .pushing io true :: after }
  | pushed {before after io thrown} (here : state.operations = before ++ .pushing io thrown :: after) (clock : Bool)
      (decoder : ResponseDecoder S) (result : Except Channel.Error Unit) :
      Step state (settled .done (conclude { state with operations := before ++ after } (state.pushBody io thrown clock decoder result)).1)
        (conclude { state with operations := before ++ after } (state.pushBody io thrown clock decoder result)).2
  | free : Step state .freed state.close
  | receipt : Step state (.receipt state.responseReceipt) state

end RequestState
end StogasVerifier.Bindings
