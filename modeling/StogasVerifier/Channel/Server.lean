import StogasVerifier.Lib.Bitmap
import StogasVerifier.Channel.Record

/-! Server-side request admission (`server.rs`). -/

namespace StogasVerifier.Channel
open Lib

def replayWindow : Nat := maxSkippedKeys
def maxSessionStarts : Nat := 2 ^ 30

variable {S : Suite}

structure ServerSession (S : Suite) where
  peer : Option (Peer S)
  id : S.Bytes
  next : Nat
  accepted : Bitmap 4
  remainingStarts : Nat

/-- What an admitted request gets: its upload and response ciphers and metadata. -/
structure Admitted (S : Suite) where
  reader : Records S
  writer : Records S
  metadata : S.Bytes

namespace ServerSession

def new (root : S.Secret) (id : S.Bytes) (initial : KeyPair S) : ServerSession S :=
  ⟨some (Peer.responder root initial), id, 0, Bitmap.empty 4, maxSessionStarts⟩

def close (session : ServerSession S) : ServerSession S := { session with peer := none }

def expire (session : ServerSession S) (now : Nat) : ServerSession S :=
  { session with peer := session.peer.map fun peer => peer.expire now }

def authenticate (session : ServerSession S) (number : Nat) (encoded : S.Bytes) (secret : S.Secret) :
    Except Error (Records S × Kind × S.Bytes) := do
  let result ← Records.authenticateStart secret session.id number .request encoded
  reject (result.2.1 ≠ .metadata) .record
  return result

/-- Forget the numbers that leave the window before `number` becomes the last one. -/
def clearStale (session : ServerSession S) (number : Nat) : ServerSession S :=
  if session.next ≤ number then
    { session with
      accepted := (List.range' session.next (number + 1 - session.next)).foldl Bitmap.clear session.accepted
      next := number + 1 }
  else session

def markAccepted (session : ServerSession S) (number : Nat) : ServerSession S :=
  let session := session.clearStale number
  { session with accepted := session.accepted.mark number }

def authenticateStart (session : ServerSession S) (number : Nat) (encoded header : S.Bytes) (now : Nat) (entropy : Entropy S) :
    Except Error (Admitted S) × ServerSession S :=
  match session.peer with
  | none => (.error .closed, session)
  | some peer =>
    match peer.receive header number now (session.authenticate number encoded) with
    | (.error error, peer) => (.error error, { session with peer := some peer })
    | (.ok (incoming, _, metadata), peer) =>
      match peer.send number entropy with
      | (.error error, peer) => (.error error, { session with peer := some peer })
      | (.ok response, peer) =>
        let outgoing := Records.new response.secret session.id number .response response.header
        (.ok ⟨incoming, outgoing, metadata⟩, { session with peer := some peer }.markAccepted number)

def screen (session : ServerSession S) (number : Nat) : Except Error Unit :=
  if number < session.next then
    reject (replayWindow < session.next - number ∨ session.accepted.test number = true) .record
  else reject (number = u64Max ∨ replayWindow ≤ number - session.next) .limit

def acceptStart (session : ServerSession S) (number : Nat) (encoded : S.Bytes) (now : Nat) (entropy : Entropy S) :
    Except Error (Admitted S) × ServerSession S :=
  match session.peer with
  | none => (.error .closed, session)
  | some _ =>
    match session.screen number with
    | .error error => (.error error, session)
    | .ok () =>
      match startHeader encoded with
      | .error error => (.error error, session)
      | .ok header =>
        if session.remainingStarts = 0 then (.error .closed, session)
        else
          let (result, session) := authenticateStart
            { session with remainingStarts := session.remainingStarts - 1 } number encoded header now entropy
          (result, if session.remainingStarts = 0 then session.close else session)

end ServerSession
end StogasVerifier.Channel
