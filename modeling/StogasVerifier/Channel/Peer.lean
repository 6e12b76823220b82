import StogasVerifier.Lib.OrderedMap
import StogasVerifier.Channel.Header

/-! The header-encrypted double ratchet (`ratchet/peer.rs`). Each method takes
the peer and returns its result with the peer it leaves behind, so that a
failing call still says what it changed. -/

namespace StogasVerifier.Channel
open Std

def maxSkippedKeys : Nat := 256
def skippedKeyLifetimeMs : Nat := 60000
def maxChainMessages : Nat := 2 ^ 24

variable {S : Suite}

inductive Retention where
  | timed | owned
  deriving DecidableEq

def Retention.deadline : Retention → Nat → Option Nat
  | .timed, now => some (saturatingAdd now skippedKeyLifetimeMs)
  | .owned, _ => none

structure SendKey (S : Suite) where
  header : S.Bytes
  secret : S.Secret

structure Chain (S : Suite) where
  secret : S.Secret
  count : Nat

def Chain.step (chain : Chain S) : Except Error (S.Secret × Chain S) :=
  if maxChainMessages ≤ chain.count then .error .limit
  else .ok (S.expand .chain chain.secret 1, ⟨S.expand .chain chain.secret 0, chain.count + 1⟩)

structure Sending (S : Suite) where
  chain : Chain S
  cipher : HeaderCipher S
  header : Header S

structure ReceiveHeader (S : Suite) where
  cipher : HeaderCipher S
  turn : S.Digest

structure Receiving (S : Suite) where
  chain : Chain S
  header : ReceiveHeader S
  epoch : Nat

structure Active (S : Suite) where
  root : S.Secret
  localKeys : Option (KeyPair S)
  remote : Option (PublicKeys S)
  send : Option (Sending S)
  receive : Option (Receiving S)
  nextSend : HeaderCipher S
  nextReceive : HeaderCipher S
  previousSent : Nat

/-- Receive epoch and chain number of a message key. -/
abbrev KeyId := Nat × Nat

structure PendingKey (S : Suite) where
  id : KeyId
  header : ReceiveHeader S
  secret : S.Secret

/-- The results of the two calls that `send` may make to secure randomness. -/
structure Entropy (S : Suite) where
  seed : Except Error S.Secret
  randomness : Except Error S.Secret

def Receiving.skip : Nat → Receiving S → List (PendingKey S) → Except Error (Receiving S × List (PendingKey S))
  | 0, receive, pending => .ok (receive, pending)
  | count + 1, receive, pending =>
    match receive.chain.step with
    | .error error => .error error
    | .ok (key, chain) =>
      skip count { receive with chain } (pending ++ [⟨(receive.epoch, receive.chain.count), receive.header, key⟩])

namespace Active

def skippedCount (active : Active S) (header : Header S) (next : Bool) : Except Error Nat := do
  reject (maxChainMessages ≤ header.number) .limit
  let received := active.receive.elim 0 fun receive => receive.chain.count
  let previous ← (if next then do
      reject (active.localKeys.isNone ∨ (active.receive.isSome ∧ active.send.isNone)) .record
      checkedSub header.previous received .record
    else .ok 0)
  let current ← checkedSub header.number (if next then 0 else received) .record
  let count ← checkedAdd previous current .limit
  reject (maxSkippedKeys < count) .limit
  return count

/-- Mix a turn's secrets into the root. The result is the turn's chain and the
header cipher of the turn after it in the same direction. -/
def advance (active : Active S) (dh kem : S.Secret) : Chain S × HeaderCipher S × Active S :=
  (⟨S.expandRoot active.root dh kem 1, 0⟩, ⟨S.expandRoot active.root dh kem 2⟩,
    { active with root := S.expandRoot active.root dh kem 0 })

def skip (active : Active S) (target : Nat) (pending : List (PendingKey S)) :
    Except Error (Active S × List (PendingKey S)) :=
  match active.receive with
  | none => if target = 0 then .ok (active, pending) else .error .record
  | some receive => do
    let count ← checkedSub target receive.chain.count .record
    reject (maxSkippedKeys - pending.length < count) .limit
    let (receive, pending) ← receive.skip count pending
    return ({ active with receive := some receive }, pending)

/-- The part of `receive_key` that enters the sender's next turn. -/
def nextTurn (active : Active S) (header : Header S) (pending : List (PendingKey S)) :
    Except Error (Active S × List (PendingKey S)) := do
  reject (active.receive.isSome ∧ active.send.isNone) .record
  header.publicKeys.validate
  let (active, pending) ← active.skip header.previous pending
  match active.localKeys with
  | none => throw .record
  | some localKeys => do
    let dh ← localKeys.agree header.publicKeys
    let kem := localKeys.decapsulate header.ciphertext
    let (chain, nextHeader, active) := active.advance dh kem
    let epoch ← active.receive.elim (.ok 0) fun receive => checkedAdd receive.epoch 1 .limit
    return ({ active with
      localKeys := none
      receive := some ⟨chain, ⟨active.nextReceive, header.turn⟩, epoch⟩
      nextReceive := nextHeader
      remote := some header.publicKeys
      previousSent := active.send.elim 0 fun sending => sending.chain.count
      send := none }, pending)

def receiveKey (active : Active S) (header : Header S) (next : Bool) (pending : List (PendingKey S)) :
    Except Error (S.Secret × Active S × List (PendingKey S)) := do
  let (active, pending) ← (if next then active.nextTurn header pending else .ok (active, pending))
  let (active, pending) ← active.skip header.number pending
  match active.receive with
  | none => throw .record
  | some receive => do
    let (key, chain) ← receive.chain.step
    return (key, { active with receive := some { receive with chain } }, pending)

/-- The part of `send_with` that starts a turn with a fresh key pair. -/
def startTurn (active : Active S) (entropy : Entropy S) : Except Error (Active S) :=
  match active.remote with
  | none => .error .pending
  | some remote => do
    let seed ← entropy.seed
    let localKeys := KeyPair.fromSeed seed
    let randomness ← entropy.randomness
    let (ciphertext, kem) := remote.encapsulate randomness
    let dh ← localKeys.agree remote
    let (chain, nextHeader, active) := active.advance dh kem
    return { active with
      send := some ⟨chain, active.nextSend, ⟨localKeys.publicKeys, ciphertext, active.previousSent, 0⟩⟩
      localKeys := some localKeys
      nextSend := nextHeader }

/-- The transaction of `send_with` on its copy of the active state. -/
def sendWith (active : Active S) (request : Nat) (entropy : Entropy S) : Except Error (SendKey S × Active S) := do
  let active ← (if active.send.isNone then active.startTurn entropy else .ok active)
  match active.send with
  | none => throw .pending
  | some sending => do
    let header := { sending.header with number := sending.chain.count }
    let (secret, chain) ← sending.chain.step
    let bytes ← sending.cipher.sealHeader header request
    return (⟨bytes, secret⟩, { active with send := some { sending with chain, header } })

end Active

structure Skipped (S : Suite) where
  secret : S.Secret
  expires : Option Nat
  order : Nat

structure Group (S : Suite) where
  header : ReceiveHeader S
  keys : TreeMap Nat (Skipped S) compare

inductive Opened (S : Suite) where
  | current (header : Header S)
  | next (header : Header S)
  | skipped (epoch : Nat) (header : Header S)

structure Peer (S : Suite) where
  active : Active S
  skipped : TreeMap Nat (Group S) compare
  order : TreeMap Nat KeyId compare
  nextOrder : Nat
  lastNow : Nat
  retention : Retention

namespace Peer

def new (root : S.Secret) (localKeys : Option (KeyPair S)) (remote : Option (PublicKeys S)) (client : Bool) : Peer S :=
  let alice : HeaderCipher S := ⟨S.expand .initialization root 1⟩
  let bob : HeaderCipher S := ⟨S.expand .initialization root 2⟩
  { active := {
      root := S.expand .initialization root 0
      localKeys
      remote
      send := none
      receive := none
      nextSend := if client then alice else bob
      nextReceive := if client then bob else alice
      previousSent := 0 }
    skipped := ∅
    order := ∅
    nextOrder := 0
    lastNow := 0
    retention := if client then .owned else .timed }

def initiator (root : S.Secret) (responder : PublicKeys S) : Except Error (Peer S) := do
  responder.validate
  return new root none (some responder) true

def responder (root : S.Secret) (initial : KeyPair S) : Peer S := new root (some initial) none false

def send (peer : Peer S) (request : Nat) (entropy : Entropy S) : Except Error (SendKey S) × Peer S :=
  match peer.active.sendWith request entropy with
  | .error error => (.error error, peer)
  | .ok (key, active) => (.ok key, { peer with active })

def openSkipped (current : Option Nat) (bytes : S.Bytes) (request : Nat) : List (Nat × Group S) → Except Error (Opened S)
  | [] => .error .authentication
  | (epoch, group) :: rest =>
    if current = some epoch then openSkipped current bytes request rest
    else match group.header.cipher.openHeader bytes request with
      | .error _ => openSkipped current bytes request rest
      | .ok header => if header.turn ≠ group.header.turn then .error .record else .ok (.skipped epoch header)

/-- Try the next turn's header key, then the stored groups. -/
def openLater (peer : Peer S) (bytes : S.Bytes) (request : Nat) : Except Error (Opened S) :=
  match peer.active.nextReceive.openHeader bytes request with
  | .ok header => .ok (.next header)
  | .error _ => openSkipped (peer.active.receive.map (·.epoch)) bytes request peer.skipped.toList

def openHeader (peer : Peer S) (bytes : S.Bytes) (request : Nat) : Except Error (Opened S) :=
  if bytes.length ≠ headerBytes then .error .record
  else match peer.active.receive with
    | none => peer.openLater bytes request
    | some receive => match receive.header.cipher.openHeader bytes request with
      | .ok header => if header.turn ≠ receive.header.turn then .error .record else .ok (.current header)
      | .error _ => peer.openLater bytes request

def live (now : Nat) (key : Skipped S) : Bool := key.expires.all fun deadline => now < deadline

def stored (peer : Peer S) (epoch number now : Nat) : Option (Skipped S) :=
  (peer.skipped[epoch]?.bind fun group => group.keys[number]?).filter (live now)

def remove (peer : Peer S) (id : KeyId) (order : Nat) : Peer S :=
  { peer with
    skipped := match peer.skipped[id.1]? with
      | none => peer.skipped
      | some group =>
        if (group.keys.erase id.2).isEmpty then peer.skipped.erase id.1
        else peer.skipped.insert id.1 { group with keys := group.keys.erase id.2 }
    order := peer.order.erase order }

/-- The loop of `expire`, once for each stored key at most. -/
def expireOldest : Nat → Peer S → Peer S
  | 0, peer => peer
  | count + 1, peer =>
    match Lib.firstKeyValue peer.order with
    | none => peer
    | some (order, id) =>
      if (peer.stored id.1 id.2 peer.lastNow).isSome then peer
      else expireOldest count (peer.remove id order)

def expire (peer : Peer S) (now : Nat) : Peer S :=
  expireOldest peer.order.size { peer with lastNow := max peer.lastNow now }

def discardDelayed (peer : Peer S) : Peer S := { peer with skipped := ∅, order := ∅ }

/-- The eviction loop of `receive`, which makes room for `incoming` keys. -/
def evict (incoming : Nat) : Nat → Peer S → Except Error Unit × Peer S
  | 0, peer => if maxSkippedKeys < peer.order.size + incoming then (.error .limit, peer) else (.ok (), peer)
  | count + 1, peer =>
    if maxSkippedKeys < peer.order.size + incoming then
      match Lib.firstKeyValue peer.order with
      | none => (.error .limit, peer)
      | some (order, id) => evict incoming count (peer.remove id order)
    else (.ok (), peer)

def store (peer : Peer S) (key : PendingKey S) : Peer S :=
  let group := (peer.skipped[key.id.1]?).getD ⟨key.header, ∅⟩
  let skipped : Skipped S := ⟨key.secret, peer.retention.deadline peer.lastNow, peer.nextOrder⟩
  { peer with
    skipped := peer.skipped.insert key.id.1 { group with keys := group.keys.insert key.id.2 skipped }
    order := peer.order.insert peer.nextOrder key.id
    nextOrder := peer.nextOrder + 1 }

variable {T : Type}

def receiveStored (peer : Peer S) (epoch number : Nat) (authenticate : S.Secret → Except Error T) :
    Except Error T × Peer S :=
  match peer.stored epoch number peer.lastNow with
  | none => (.error .record, peer)
  | some key =>
    match authenticate key.secret with
    | .error error => (.error error, peer)
    | .ok output => (.ok output, peer.remove (epoch, number) key.order)

/-- The part of `receive` that steps the chain, into the next turn if `next`. -/
def receiveChain (peer : Peer S) (header : Header S) (next : Bool) (authenticate : S.Secret → Except Error T) :
    Except Error T × Peer S :=
  match peer.active.skippedCount header next with
  | .error error => (.error error, peer)
  | .ok _ =>
    match peer.active.receiveKey header next [] with
    | .error error => (.error error, peer)
    | .ok (key, active, pending) =>
      match checkedAdd peer.nextOrder pending.length .limit with
      | .error error => (.error error, peer)
      | .ok _ =>
        match authenticate key with
        | .error error => (.error error, peer)
        | .ok output =>
          match peer.evict pending.length peer.order.size with
          | (.error error, peer) => (.error error, peer)
          | (.ok (), peer) => (.ok output, { pending.foldl store peer with active })

def receive (peer : Peer S) (bytes : S.Bytes) (request now : Nat) (authenticate : S.Secret → Except Error T) :
    Except Error T × Peer S :=
  let peer := peer.expire now
  match peer.openHeader bytes request with
  | .error error => (.error error, peer)
  | .ok (.skipped epoch header) => peer.receiveStored epoch header.number authenticate
  | .ok (.current header) =>
    match peer.active.receive with
    | none => (.error .record, peer)
    | some receive =>
      if header.number < receive.chain.count then peer.receiveStored receive.epoch header.number authenticate
      else peer.receiveChain header false authenticate
  | .ok (.next header) => peer.receiveChain header true authenticate

end Peer
end StogasVerifier.Channel
