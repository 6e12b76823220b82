import StogasVerifier.Sdk.EncryptedHttp
import StogasVerifier.Sdk.NativeHttp

/-! Reusable encrypted sessions and their requests (`encrypted_client.rs`). One call of
`send` is a function of what it meets; it also returns the outer requests that it
started. -/

namespace StogasVerifier.Sdk.EncryptedClient
open StogasVerifier.Channel (Suite Shared ClientSession ClientRequest Entropy HttpRequest)
open EncryptedHttp (Carriage Attempt)

variable {S : Suite} {L : Evidence.Libraries}

/-- The errors of `encrypted_setup::connect`. -/
inductive SetupError where
  | deadline | http | response | state | setup
  | evidence (error : ClientError)
  | recovery (verification : Evidence.Error) (acquisition : ClientError)

inductive Error where
  | closed | state | deadline | closeDeadline | metadata
  | setup (error : SetupError)
  | evidence (error : ClientError)
  | appraisal (error : NativeHttp.Error)
  | record (error : Channel.Error)
  | http (error : EncryptedHttp.Error)
  | receipt (error : ReceiptHttp.Error)

structure Owner (S : Suite) where
  nodeId : String
  core : ClientSession S
  shared : Shared S
  active : Nat
  /-- The last request is less than the idle hint ago. -/
  fresh : Bool
  retired : Bool

def Owner.retire (owner : Owner S) : Owner S := { owner with retired := true, core := owner.core.close }

inductive Selection (S : Suite) where
  | ready (nodeId : String) (exchange : ClientRequest S)
  | opening | waits

/-- The client when a pass of the loop of `acquire` locks it, and what the awaits of the
pass come back with. -/
structure Pass (S : Suite) (L : Evidence.Libraries) where
  owners : List (Owner S)
  closed : Bool
  opening : Bool
  now : Nat
  entropy : Entropy S
  prepared : Except PrepareError (RequestContext L)
  /-- The result of a setup, unless the client closes before it. -/
  connected : Option (Except SetupError Unit)
  /-- Whether the client is closed after that. -/
  closes : Bool

/-- The owners that `select` keeps. One that was idle too long is retired. -/
def retain (owners : List (Owner S)) : List (Owner S) :=
  (owners.map fun owner => if owner.fresh then owner else owner.retire).filter fun owner => !(owner.retired && owner.active = 0)

/-- The loop of `select` over the owners: the request of the first that has one, and the
owners as the loop leaves them. -/
def selectOwner (now : Nat) (entropy : Entropy S) : List (Owner S) → Except Error (Option (String × ClientRequest S) × List (Owner S))
  | [] => .ok (none, [])
  | owner :: owners =>
    let next (owner : Owner S) := (selectOwner now entropy owners).map fun result => (result.1, owner :: result.2)
    if owner.retired then next owner
    else
      match owner.core.expire owner.shared now with
      | (.error _, _) => .error .state
      | (.ok (), shared) =>
        match owner.core.requestWith shared entropy with
        | (.ok exchange, shared) => .ok (some (owner.nodeId, exchange), { owner with shared, active := owner.active + 1, fresh := true } :: owners)
        | (.error .pending, shared) => next { owner with shared }
        | (.error .limit, shared) => next { owner with shared }.retire
        | (.error .closed, shared) => next { owner with shared }.retire
        | (.error error, _) => .error (.record error)

def Pass.select (pass : Pass S L) (maximum : Nat) : Except Error (Selection S) :=
  if pass.closed then .error .closed
  else
    let sorted := (retain pass.owners).insertionSort fun first second => first.active ≤ second.active
    match selectOwner pass.now pass.entropy sorted with
    | .error error => .error error
    | .ok (some (nodeId, exchange), _) => .ok (.ready nodeId exchange)
    | .ok (none, owners) =>
      if !pass.opening && (owners.filter fun owner => !owner.retired).length < maximum && owners.length ≤ maximum then .ok .opening
      else .ok .waits

/-- A session to send over. -/
structure Selected (S : Suite) (L : Evidence.Libraries) where
  nodeId : String
  exchange : ClientRequest S
  context : RequestContext L

/-- `acquire`, which ends with its deadline if no pass ends it. -/
def acquire (maximum : Nat) : List (Pass S L) → Except Error (Selected S L)
  | [] => .error .deadline
  | pass :: passes =>
    match pass.select maximum with
    | .error error => .error error
    | .ok (.ready nodeId exchange) =>
      match pass.prepared with
      | .error error => .error (.appraisal (.ofPrepare error))
      | .ok context => if pass.closes then .error .closed else .ok ⟨nodeId, exchange, context⟩
    | .ok .opening =>
      match pass.connected with
      | none => .error .closed
      | some (.error error) => .error (.setup error)
      | some (.ok ()) => if pass.closes then .error .closed else acquire maximum passes
    | .ok .waits => acquire maximum passes

/-- What one call of `send` meets. -/
structure World (S : Suite) (L : Evidence.Libraries) where
  maximum : Nat
  first : List (Pass S L)
  firstCarriage : Carriage S
  refusal : ReadBody
  second : List (Pass S L)
  secondCarriage : Carriage S
  body : ReadBody

variable (R : Receipt.Libraries) (fromSlice : S.Bytes → Option Lib.Json)

def exchange (request : HttpRequest S) (carriage : Carriage S) (selected : Selected S L) :
    Except Error (HttpResponse × RequestContext L) × List Attempt :=
  match EncryptedHttp.send fromSlice selected.nodeId selected.exchange request carriage with
  | (.error error, attempts) => (.error (.http error), attempts)
  | (.ok response, attempts) => (.ok (response, selected.context), attempts)

/-- `own`: the receipt that was asked for. -/
def own (request : HttpRequest S) (wanted : Bool) (body : ReadBody) (response : HttpResponse) (context : RequestContext L) :
    Except Error HttpResponse :=
  if wanted then
    (ReceiptHttp.verify R response context.session.boot (R.sha256 (EncryptedHttp.octets request.body)) body).mapError .receipt
  else .ok response

/-- The last exchange of a `send`. -/
def ownExchange (request : HttpRequest S) (wanted : Bool) (world : World S L) :
    Except Error (HttpResponse × RequestContext L) × List Attempt → Except Error HttpResponse × List Attempt
  | (.error error, attempts) => (.error error, attempts)
  | (.ok (response, context), attempts) => (own R request wanted world.body response context, attempts)

def send (world : World S L) (request : HttpRequest S) : Except Error HttpResponse × List Attempt :=
  match requested (some "v1") ((request.headers.filter (·.1 = "stogas-metadata")).map Prod.snd) with
  | none => (.error .metadata, [])
  | some wanted =>
    match acquire world.maximum world.first with
    | .error error => (.error error, [])
    | .ok selected =>
      match exchange fromSlice request world.firstCarriage selected with
      | (.error error, attempts) => (.error error, attempts)
      | (.ok (response, context), attempts) =>
        if response.refused = false then ownExchange R request wanted world (.ok (response, context), attempts)
        else
          match acquire world.maximum world.second with
          | .ok selected =>
            let (result, more) := ownExchange R request wanted world (exchange fromSlice request world.secondCarriage selected)
            (result, attempts ++ more)
          | .error error =>
            -- A resend that cannot get a session sends nothing, so the refusal stands.
            match readRefusal response world.refusal with
            | some refusal => (.ok refusal, attempts)
            | none => (.error error, attempts)

end StogasVerifier.Sdk.EncryptedClient
