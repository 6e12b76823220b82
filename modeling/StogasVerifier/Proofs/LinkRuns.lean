import StogasVerifier.Proofs.MessageDelivery
import StogasVerifier.Proofs.ReplayWindow
import StogasVerifier.Proofs.StartLedger

/-! One client session against one server session. The network loses, delays,
reorders and duplicates the first records of both directions, and injects others;
an injected record never authenticates, which is what an ideal record cipher
gives. Requests may be cancelled at any time, and a first read holds its
`PendingStart` until a later step drops it. -/

namespace StogasVerifier.Channel
open Std Lib

variable {S : Suite}

def ServerSession.Holds (session : ServerSession S) (secret : S.Secret) (deadline : Nat) : Prop :=
  ∃ peer id key, session.peer = some peer ∧ peer.lookup id = some key ∧ key.secret = secret ∧ key.expires = some deadline

/-- The two sessions, the streams that each side has opened in order, the numbers
of the starts that have reached the server and of the first responses that the
client has opened, and every deadline the server has given to a stored key. -/
structure Link (S : Suite) where
  client : Client S
  server : ServerSession S
  sent : Side → List (Stream S)
  delivered : List Nat
  opened : List Nat
  deadlines : Set (S.Secret × Nat)

/-- What the network brought to the client in one step, if it was a first response. -/
inductive Arrival where
  | response (number : Nat)
  | other

namespace Link

variable {link : Link S}

structure Initial (root seed : S.Secret) (link : Link S) : Prop where
  client : ∃ idleSeconds, ClientSession.new root link.server.id idleSeconds (KeyPair.fromSeed seed).publicKeys =
    .ok (link.client.session, link.client.shared)
  server : link.server = ServerSession.new root link.server.id (KeyPair.fromSeed seed)
  quiet : link.client.unread = [] ∧ link.client.owners = [] ∧ link.sent = (fun _ => []) ∧ link.delivered = [] ∧
    link.opened = [] ∧ link.deadlines = ∅

def sampleLink : Link symbolic where
  client := ⟨⟨true, [], 0⟩, ⟨.default, .new (.atom 0) none (some (KeyPair.fromSeed (S := symbolic) (.atom 1)).publicKeys) true⟩, [], []⟩
  server := .new (.atom 0) [] (KeyPair.fromSeed (S := symbolic) (.atom 1))
  sent _ := []
  delivered := []
  opened := []
  deadlines := ∅

theorem sampleLink_initial : Initial (S := symbolic) (.atom 0) (.atom 1) sampleLink :=
  ⟨⟨0, rfl⟩, rfl, rfl, rfl, rfl, rfl, rfl, rfl⟩

def requested (link : Link S) (request : ClientRequest S) (shared : Shared S) : Link S :=
  { link with
    client := link.client.allocated shared request.writer.number
    sent := Function.update link.sent .initiator
      (link.sent .initiator ++ [⟨request.writer.number, request.writer.records⟩]) }

/-- The server has returned from `accept_start`. -/
def served (link : Link S) (number : Nat) : Except Error (Admitted S) × ServerSession S → Link S
  | (.error _, server) =>
    { link with server, deadlines := link.deadlines ∪ {entry | server.Holds entry.1 entry.2} }
  | (.ok admitted, server) =>
    { link with
      server
      sent := Function.update link.sent .responder (link.sent .responder ++ [⟨number, admitted.writer⟩])
      deadlines := link.deadlines ∪ {entry | server.Holds entry.1 entry.2} }

def heard (link : Link S) (number : Nat) : Except Error (Records S × Kind × S.Bytes) × Shared S → Link S
  | (.error _, shared) => { link with client := link.client.taken shared number }
  | (.ok _, shared) => { link with client := link.client.taken shared number, opened := number :: link.opened }

def ForgedStart (link : Link S) (number : Nat) (bytes : S.Bytes) (now : Nat) : Prop :=
  ∀ peer header offer output, link.server.peer = some peer → startHeader bytes = .ok header →
    (peer.expire now).offer header number = .ok offer → link.server.authenticate number bytes offer.key ≠ .ok output

def ForgedResponse (link : Link S) (number : Nat) (bytes : S.Bytes) (now : Nat) : Prop :=
  ∀ header offer output, startHeader bytes = .ok header →
    (link.client.shared.peer.expire now).offer header number = .ok offer →
    Records.authenticateStart offer.key link.client.session.id number .response bytes ≠ .ok output

inductive Step (link : Link S) : Arrival → Link S → Prop where
  | request {entropy : Entropy S} {request : ClientRequest S} {shared : Shared S}
      (done : link.client.session.requestWith link.client.shared entropy = (.ok request, shared)) :
      Step link .other (link.requested request shared)
  | fail {entropy : Entropy S} {error : Error} {shared : Shared S}
      (done : link.client.session.requestWith link.client.shared entropy = (.error error, shared)) :
      Step link .other { link with client := { link.client with shared } }
  | deliver {stream : Stream S} {kind : Kind} {content bytes : S.Bytes} (member : stream ∈ link.sent .initiator)
      (starts : stream.Starts kind content bytes) (now : Nat) (entropy : Entropy S) :
      Step link .other { link.served stream.number (link.server.acceptStart stream.number bytes now entropy) with
        delivered := stream.number :: link.delivered }
  | inject {number now : Nat} {bytes : S.Bytes} (forged : link.ForgedStart number bytes now) (entropy : Entropy S) :
      Step link .other (link.served number (link.server.acceptStart number bytes now entropy))
  | read {stream : Stream S} {kind : Kind} {content bytes : S.Bytes} (member : stream ∈ link.sent .responder)
      (starts : stream.Starts kind content bytes) (waiting : stream.number ∈ link.client.unread) (now : Nat) :
      Step link (.response stream.number)
        (link.heard stream.number (link.client.shared.readStart link.client.session.id stream.number bytes now))
  | misread {number now : Nat} {bytes : S.Bytes} (waiting : number ∈ link.client.unread)
      (forged : link.ForgedResponse number bytes now) :
      Step link .other (link.heard number (link.client.shared.readStart link.client.session.id number bytes now))
  | drop {number : Nat} (owned : number ∈ link.client.owners) :
      Step link .other { link with client := link.client.dropped number }
  | expireClient (now : Nat) :
      Step link .other { link with client := { link.client with
        shared := (link.client.session.expire link.client.shared now).2 } }
  | closeClient : Step link .other { link with client := { link.client with session := link.client.session.close } }
  | expireServer (now : Nat) : Step link .other { link with server := link.server.expire now }
  | closeServer : Step link .other { link with server := link.server.close }

def openedAt (link : Link S) (place : Nat) : Bool :=
  (link.sent .responder)[place]?.any fun stream => link.opened.contains stream.number

def front (link : Link S) : Nat :=
  (Finset.range (link.sent .responder).length).sup fun place => if link.openedAt place then place + 1 else 0

def unopened (link : Link S) (low high : Nat) : Finset Nat :=
  (Finset.Ico low high).filter fun place => link.openedAt place = false

/-- When a first response arrives, at most 256 responses before it were not
opened, counted from the front, and also from any response that a request still
waits for. -/
def Spaced (link : Link S) : Arrival → Prop
  | .other => True
  | .response number => ∀ last response place waiting, (link.sent .responder)[last]? = some response → response.number = number →
      (link.sent .responder)[place]? = some waiting → waiting.number ∈ link.client.unread → place ≤ last →
      (link.unopened (min link.front place) last).card ≤ maxSkippedKeys

def SpacedStep (link : Link S) (arrival : Arrival) (next : Link S) : Prop := Step link arrival next ∧ link.Spaced arrival

end Link
end StogasVerifier.Channel
