import StogasVerifier.Channel.Server

/-! Client sessions (`session.rs`). The state behind the session's mutex is
shared by the session and by every request whose first response is pending; each
function below that takes it runs in one critical section. -/

namespace StogasVerifier.Channel
open Lib

variable {S : Suite}

structure Starts where
  next : Nat
  firstPending : Nat
  confirmedNext : Nat
  pending : Bitmap 4

namespace Starts

def default : Starts := ⟨0, 0, 0, Bitmap.empty 4⟩

def allocate (starts : Starts) : Except Error (Nat × Starts) :=
  if starts.next = u64Max then .error .limit
  else if replayWindow ≤ starts.next - starts.confirmedNext then
    .error (if starts.firstPending = starts.next then .limit else .pending)
  else if replayWindow ≤ starts.next - starts.firstPending then .error .pending
  else .ok (starts.next, { starts with pending := starts.pending.mark starts.next, next := starts.next + 1 })

/-- The loop of `release`, once for each outstanding number at most. -/
def advancePending : Nat → Starts → Starts
  | 0, starts => starts
  | count + 1, starts =>
    if starts.firstPending < starts.next then
      if starts.pending.test starts.firstPending then starts
      else advancePending count { starts with firstPending := starts.firstPending + 1 }
    else starts

def release (starts : Starts) (number : Nat) : Starts :=
  advancePending (starts.next - starts.firstPending) { starts with pending := starts.pending.clear number }

end Starts

structure Shared (S : Suite) where
  starts : Starts
  peer : Peer S

namespace Shared

/-- Dropping the `PendingStart` of a request. -/
def dropPending (shared : Shared S) (number : Nat) : Shared S :=
  let starts := shared.starts.release number
  if starts.firstPending = starts.next then ⟨starts, shared.peer.discardDelayed⟩ else ⟨starts, shared.peer⟩

/-- The critical section of `ResponseReader::start`. Its caller drops the
`PendingStart` afterwards, whatever the result is. -/
def readStart (shared : Shared S) (sessionId : S.Bytes) (number : Nat) (encoded : S.Bytes) (now : Nat) :
    Except Error (Records S × Kind × S.Bytes) × Shared S :=
  match startHeader encoded with
  | .error error => (.error error, shared)
  | .ok header =>
    match shared.peer.receive header number now fun secret =>
        Records.authenticateStart secret sessionId number .response encoded with
    | (.error error, peer) => (.error error, { shared with peer })
    | (.ok output, peer) =>
      (.ok output, ⟨{ shared.starts with confirmedNext := max shared.starts.confirmedNext (number + 1) }, peer⟩)

end Shared

structure RequestEncoder (S : Suite) where
  sessionId : S.Bytes
  number : Nat
  records : Records S

structure ResponseReader (S : Suite) where
  pending : Option Nat
  sessionId : S.Bytes
  records : Option (Records S)
  failed : Bool

structure ClientRequest (S : Suite) where
  writer : RequestEncoder S
  reader : ResponseReader S

/-- A session holds the shared state until it is closed. -/
structure ClientSession (S : Suite) where
  attached : Bool
  id : S.Bytes
  idleSeconds : Nat

namespace ClientSession

def new (root : S.Secret) (id : S.Bytes) (idleSeconds : Nat) (responder : PublicKeys S) :
    Except Error (ClientSession S × Shared S) := do
  let peer ← Peer.initiator root responder
  return (⟨true, id, idleSeconds⟩, ⟨Starts.default, peer⟩)

def requestWith (session : ClientSession S) (shared : Shared S) (entropy : Entropy S) :
    Except Error (ClientRequest S) × Shared S :=
  if session.attached then
    match shared.starts.allocate with
    | .error error => (.error error, shared)
    | .ok (number, starts) =>
      match shared.peer.send number entropy with
      | (.error error, peer) => (.error error, ⟨starts.release number, peer⟩)
      | (.ok allocated, peer) =>
        let outgoing := Records.new allocated.secret session.id number .request allocated.header
        (.ok ⟨⟨session.id, number, outgoing⟩, ⟨some number, session.id, none, false⟩⟩, ⟨starts, peer⟩)
  else (.error .closed, shared)

def expire (session : ClientSession S) (shared : Shared S) (now : Nat) : Except Error Unit × Shared S :=
  if session.attached then (.ok (), { shared with peer := shared.peer.expire now }) else (.error .closed, shared)

def close (session : ClientSession S) : ClientSession S := { session with attached := false }

end ClientSession

def RequestEncoder.sealRecord (encoder : RequestEncoder S) (kind : Kind) (content : S.Bytes) :
    Except Error S.Bytes × RequestEncoder S :=
  let (result, records) := encoder.records.sealRecord kind content
  (result, { encoder with records })

namespace ResponseReader

/-- Read the first response. The third result is the `PendingStart` that the
call took and drops when it returns. -/
def start (reader : ResponseReader S) (shared : Shared S) (encoded : S.Bytes) (now : Nat) :
    Except Error (Kind × S.Bytes) × ResponseReader S × Option Nat × Shared S :=
  let taken := reader.pending
  let reader := { reader with failed := true, pending := none }
  match taken with
  | none => (.error .closed, reader, none, shared)
  | some number =>
    match shared.readStart reader.sessionId number encoded now with
    | (.error error, shared) => (.error error, reader, some number, shared)
    | (.ok (records, kind, content), shared) =>
      (.ok (kind, content), { reader with records := some records, failed := false }, some number, shared)

def openRecord (reader : ResponseReader S) (shared : Shared S) (encoded : S.Bytes) (now : Nat) :
    Except Error (Kind × S.Bytes) × ResponseReader S × Option Nat × Shared S :=
  if reader.failed then (.error .closed, reader, none, shared)
  else match reader.records with
    | none => reader.start shared encoded now
    | some records =>
      let (result, records) := records.openRecord encoded
      (result, { reader with records := some records }, none, shared)

def complete (reader : ResponseReader S) : Except Error Unit × ResponseReader S × Option Nat :=
  if reader.failed then (.error .closed, reader, none)
  else match reader.records with
    | none => (.error .truncated, { reader with failed := true, pending := none }, reader.pending)
    | some records =>
      let (result, records) := records.complete
      (result, { reader with records := some records }, none)

end ResponseReader
end StogasVerifier.Channel
