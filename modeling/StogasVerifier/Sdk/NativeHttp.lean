import StogasVerifier.Sdk.EvidenceClient
import StogasVerifier.Sdk.ReceiptHttp

/-! Requests over attested TLS (`native_http.rs`, `acquire` and `Permit::send` of
`http2_pool.rs`). One call of `send` is a function of what its awaits come back with; it
also returns the submissions that it made. -/

namespace StogasVerifier

namespace Http2

inductive Error where
  | closed | capacity | deadline | responseDeadline | connect | protocol | request (notSent : Bool) | closeDeadline
  deriving DecidableEq

/-- Caller resource preferences. -/
structure Limits where
  waitingRequests : ℕ+
  waitingBytes : ℕ+

structure Pool where
  limits : Limits
  closed : Bool
  waitingRequests : Nat
  waitingBytes : Nat

namespace Pool

def new (limits : Limits) : Pool := ⟨limits, false, 0, 0⟩

/-- `Waiting::new` -/
def enter (pool : Pool) (bytes : Nat) : Except Error Pool :=
  if pool.closed then .error .closed
  else if pool.limits.waitingRequests ≤ pool.waitingRequests ∨ pool.limits.waitingBytes - pool.waitingBytes < bytes then .error .capacity
  else .ok { pool with waitingRequests := pool.waitingRequests + 1, waitingBytes := pool.waitingBytes + bytes }

end Pool

/-- How the opening of a connection ends (`connect` and `Channel::open`). -/
inductive Opening where
  | opened | connectFails | handshakeFails | late
  /-- The connection ends before the peer's settings. -/
  | finished

def Opening.result : Opening → Except Error Unit
  | .opened => .ok ()
  | .connectFails => .error .connect
  | .handshakeFails => .error .protocol
  | .late => .error .deadline
  | .finished => .error .closed

/-- What a pass of the loop of `acquire` comes to. -/
inductive Pass where
  | closed | granted | waits
  /-- The pool closes while the pass opens a connection. -/
  | closing
  | establishes (opening : Opening) (closed : Bool)

/-- The loop of `acquire`, which ends with its deadline if no pass ends it. -/
def acquireLoop : List Pass → Except Error Unit
  | [] => .error .deadline
  | .closed :: _ => .error .closed
  | .granted :: _ => .ok ()
  | .waits :: passes => acquireLoop passes
  | .closing :: _ => .error .closed
  | .establishes opening closed :: passes =>
    match opening.result with
    | .error error => .error error
    | .ok () => if closed then .error .closed else acquireLoop passes

/-- What a call of `acquire` meets. -/
structure Acquiring where
  expired : Bool
  /-- The pool at `Waiting::new`. -/
  pool : Pool
  passes : List Pass

def Acquiring.acquire (acquiring : Acquiring) (retained : Nat) : Except Error Unit :=
  if acquiring.expired then .error .deadline
  else match acquiring.pool.enter retained with
    | .error error => .error error
    | .ok _ => acquireLoop acquiring.passes

/-- The error that `h2` gives for a stream. -/
structure StreamError where
  remote : Bool
  goAway : Bool
  reason : Option Nat

/-- `Reason::REFUSED_STREAM` -/
def refusedStream : Nat := 7

/-- How `try_send_request` ends by the deadline. -/
inductive Outcome where
  | late
  | failed (returned : Bool) (cause : Option StreamError)
  | answered (response : Sdk.HttpResponse)

/-- Whether the peer processed no part of a stream that failed so. -/
def notSent (returned : Bool) (cause : Option StreamError) : Bool :=
  let refusal := cause.filter (·.remote)
  returned || refusal.any (·.goAway) || refusal.bind (·.reason) = some refusedStream

def Outcome.result : Outcome → Except Error Sdk.HttpResponse
  | .late => .error .responseDeadline
  | .failed returned cause => .error (.request (notSent returned cause))
  | .answered response => .ok response

/-- One use of a permit: what its checks find, and how the request then fares. -/
structure Sending where
  expired : Bool
  retired : Bool
  outcome : Outcome
  /-- Whether the gateway processes the request. -/
  processed : Bool

/-- A request that was handed to HTTP. -/
structure Attempt where
  outcome : Outcome
  processed : Bool

/-- `Permit::send` -/
def Sending.send (sending : Sending) : Except Error Sdk.HttpResponse × List Attempt :=
  if sending.expired then (.error .deadline, [])
  else if sending.retired then (.error .closed, [])
  else (sending.outcome.result, [⟨sending.outcome, sending.processed⟩])

end Http2

namespace Sdk.NativeHttp
open Http2 (Attempt)
open Sigstore (Bytes)

inductive Error where
  | pool (error : Http2.Error)
  | evidence (error : ClientError)
  | recovery (verification : Evidence.Error) (acquisition : ClientError)
  | size | metadata
  | receipt (error : ReceiptHttp.Error)

def Error.ofPrepare : PrepareError → Error
  | .evidence error => .evidence error
  | .recovery verification acquisition => .recovery verification acquisition

structure Request where
  uri : String
  headers : List (String × Bytes)
  body : Bytes

def usizeMax : Nat := 2 ^ 64 - 1

def checkedAdd (first second : Nat) : Except Error Nat := if usizeMax < first + second then .error .size else .ok (first + second)

/-- The bytes that the caller retains while it waits. -/
def Request.retained (request : Request) : Except Error Nat := do
  let start ← checkedAdd request.body.length request.uri.utf8ByteSize
  request.headers.foldlM (fun size header => do checkedAdd (← checkedAdd size header.1.utf8ByteSize) header.2.length) start

/-- Only the guest terminates attested TLS, so only the gateway can mark a refusal. -/
def refused (response : HttpResponse) : Bool :=
  response.status = 503 ∧ Headers.text response.headers "stogas-refused" = some "?1"

variable {L : Evidence.Libraries}

/-- What one `acquire` and the `dispatch` after it meet. -/
structure Submission (L : Evidence.Libraries) where
  acquiring : Http2.Acquiring
  prepared : Except PrepareError (RequestContext L)
  sending : Http2.Sending

namespace Submission

def acquire (submission : Submission L) (retained : Nat) : Except Error (RequestContext L) :=
  match submission.acquiring.acquire retained with
  | .error error => .error (.pool error)
  | .ok () => submission.prepared.mapError .ofPrepare

def dispatch (submission : Submission L) (context : RequestContext L) :
    Except Error (HttpResponse × RequestContext L) × List Attempt :=
  match submission.sending.send with
  | (.error error, attempts) => (.error (.pool error), attempts)
  | (.ok response, attempts) => (.ok (response, context), attempts)

def submit (submission : Submission L) (retained : Nat) : Except Error (HttpResponse × RequestContext L) × List Attempt :=
  match submission.acquire retained with
  | .error error => (.error error, [])
  | .ok context => submission.dispatch context

end Submission

/-- What one call of `send` meets: its two submissions, and what it reads of a refusal
and of a response with a receipt. -/
structure World (L : Evidence.Libraries) where
  first : Submission L
  second : Submission L
  refusal : ReadBody
  body : ReadBody

def Error.resends : Error → Bool
  | .pool .closed => true
  | .pool (.request notSent) => notSent
  | _ => false

/-- The submissions of `send`: the first, and the second after a request that the
gateway refused or that never left. -/
def submissions (world : World L) (retained : Nat) : Except Error (HttpResponse × RequestContext L) × List Attempt :=
  match world.first.submit retained with
  | (.error error, attempts) =>
    if error.resends then
      let (result, more) := world.second.submit retained
      (result, attempts ++ more)
    else (.error error, attempts)
  | (.ok (response, context), attempts) =>
    if refused response then
      match world.second.acquire retained with
      | .ok selected =>
        let (result, more) := world.second.dispatch selected
        (result, attempts ++ more)
      | .error error =>
        -- A resend that cannot get a connection sends nothing, so the refusal stands.
        match readRefusal response world.refusal with
        | some refusal => (.ok (refusal, context), attempts)
        | none => (.error error, attempts)
    else (.ok (response, context), attempts)

def finish (R : Receipt.Libraries) (request : Request) (wanted : Bool) (body : ReadBody) (response : HttpResponse)
    (context : RequestContext L) : Except Error HttpResponse :=
  if wanted then
    (ReceiptHttp.verify R response context.session.boot (R.sha256 request.body) body).mapError .receipt
  else .ok response

def send (R : Receipt.Libraries) (world : World L) (request : Request) : Except Error HttpResponse × List Attempt :=
  match requested (Receipt.ascii "v1") ((request.headers.filter (·.1 = "stogas-metadata")).map Prod.snd) with
  | none => (.error .metadata, [])
  | some wanted =>
    match request.retained with
    | .error error => (.error error, [])
    | .ok retained =>
      match submissions world retained with
      | (.error error, attempts) => (.error error, attempts)
      | (.ok (response, context), attempts) => (finish R request wanted world.body response context, attempts)

end Sdk.NativeHttp
end StogasVerifier
