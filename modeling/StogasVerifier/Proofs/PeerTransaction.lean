import StogasVerifier.Proofs.PeerSteps

/-! Receiving is a transaction. Everything before the callback works on a copy,
so a call either fails with only its clock advanced or commits one offer. -/

namespace StogasVerifier.Channel
open Std Lib

variable {S : Suite} {T : Type}

namespace Peer

/-- Removal of the oldest stored keys, in order, any number of times. -/
inductive Drops : Peer S → Peer S → Prop where
  | refl (peer : Peer S) : Drops peer peer
  | step {peer last : Peer S} {order : Nat} {id : KeyId} (first : firstKeyValue peer.order = some (order, id))
      (rest : Drops (peer.remove id order) last) : Drops peer last

theorem remove_size {peer : Peer S} {order : Nat} {id : KeyId} (first : firstKeyValue peer.order = some (order, id)) :
    (peer.remove id order).order.size + 1 = peer.order.size :=
  size_erase_of_lookup (firstKeyValue_found first)

theorem Drops.size_le {peer last : Peer S} (drops : Drops peer last) : last.order.size ≤ peer.order.size := by
  induction drops with
  | refl peer => exact Nat.le_refl _
  | step first _ ih =>
    have smaller := remove_size first
    omega

private theorem expireOldest_drops (count : Nat) (peer : Peer S) : Drops peer (expireOldest count peer) := by
  induction count generalizing peer with
  | zero => exact .refl peer
  | succ count ih =>
    rw [expireOldest]
    split
    · exact .refl peer
    next order id first =>
      split
      · exact .refl peer
      · exact .step first (ih _)

theorem expire_drops (peer : Peer S) (now : Nat) :
    Drops { peer with lastNow := max peer.lastNow now } (peer.expire now) :=
  expireOldest_drops _ _

theorem evict_drops (incoming count : Nat) (peer : Peer S) : Drops peer (peer.evict incoming count).2 := by
  induction count generalizing peer with
  | zero =>
    rw [evict]
    split <;> exact .refl peer
  | succ count ih =>
    rw [evict]
    split
    · split
      · exact .refl peer
      next order id first => exact .step first (ih _)
    · exact .refl peer

/-- Eviction always makes room: it fails only if one call brings more keys than
the store can ever hold. -/
theorem evict_ok {incoming count : Nat} {peer : Peer S} (fits : incoming ≤ maxSkippedKeys) (enough : peer.order.size ≤ count) :
    ∃ last, peer.evict incoming count = (.ok (), last) ∧ Drops peer last ∧ last.order.size + incoming ≤ maxSkippedKeys := by
  induction count generalizing peer with
  | zero =>
    have room : ¬ maxSkippedKeys < peer.order.size + incoming := by omega
    exact ⟨peer, by simp [evict, room], .refl peer, by omega⟩
  | succ count ih =>
    by_cases full : maxSkippedKeys < peer.order.size + incoming
    · cases first : firstKeyValue peer.order with
      | none =>
        have empty := firstKeyValue_none first
        omega
      | some entry =>
        obtain ⟨order, id⟩ := entry
        have smaller := remove_size first
        obtain ⟨last, evicted, drops, bound⟩ := @ih (peer.remove id order) (by omega)
        exact ⟨last, by simp [evict, full, first, evicted], .step first drops, bound⟩
    · exact ⟨peer, by simp [evict, full], .refl peer, by omega⟩

def committed (peer : Peer S) (active : Active S) (pending : List (PendingKey S)) : Peer S :=
  { pending.foldl store (peer.evict pending.length peer.order.size).2 with active }

/-- What a call hands to its callback, and the keys it stores and the peer it
leaves if that accepts. -/
structure Offer (S : Suite) where
  key : S.Secret
  id : KeyId
  stored : List KeyId
  after : Peer S

def offerStored (peer : Peer S) (epoch number : Nat) : Except Error (Offer S) :=
  match peer.stored epoch number peer.lastNow with
  | none => .error .record
  | some key => .ok ⟨key.secret, (epoch, number), [], peer.remove (epoch, number) key.order⟩

def offerChain (peer : Peer S) (header : Header S) (next : Bool) : Except Error (Offer S) := do
  let _ ← peer.active.skippedCount header next
  let (key, active, pending) ← peer.active.receiveKey header next []
  let _ ← checkedAdd peer.nextOrder pending.length .limit
  return ⟨key, (active.receive.elim 0 fun receive => receive.epoch, header.number), pending.map (·.id),
    peer.committed active pending⟩

def offer (peer : Peer S) (bytes : S.Bytes) (request : Nat) : Except Error (Offer S) :=
  match peer.openHeader bytes request with
  | .error error => .error error
  | .ok (.skipped epoch header) => peer.offerStored epoch header.number
  | .ok (.current header) =>
    match peer.active.receive with
    | none => .error .record
    | some receive =>
      if header.number < receive.chain.count then peer.offerStored receive.epoch header.number
      else peer.offerChain header false
  | .ok (.next header) => peer.offerChain header true

def settle (peer : Peer S) (offered : Except Error (Offer S)) (authenticate : S.Secret → Except Error T) :
    Except Error T × Peer S :=
  match offered with
  | .error error => (.error error, peer)
  | .ok offer =>
    match authenticate offer.key with
    | .error error => (.error error, peer)
    | .ok output => (.ok output, offer.after)

section
variable {active last : Active S} {header : Header S} {next : Bool} {key : S.Secret} {pending : List (PendingKey S)}

theorem receiveKey_fits (derived : active.receiveKey header next [] = .ok (key, last, pending)) :
    pending.length ≤ maxSkippedKeys := by
  cases next with
  | false =>
    obtain ⟨receive, count, -, -, fits, -, -, -, rfl⟩ := Active.receiveKey_current.mp derived
    simpa using fits
  | true =>
    obtain ⟨middle, skipped, entered, rest⟩ := Active.receiveKey_next.mp derived
    obtain ⟨receive, count, -, -, fits, -, -, -, rfl⟩ := Active.receiveKey_current.mp rest
    have tail : skipped.length ≤ maxSkippedKeys := by
      obtain ⟨localKeys, dh, epoch, -, -, -, -, -, shape⟩ := Active.nextTurn_ok.mp entered
      obtain ⟨-, -, -, rfl⟩ | ⟨previous, gap, -, -, bound, -, -, -, rfl⟩ := shape
      · simp
      · simpa using bound
    simp only [List.length_append, Receiving.keys_length]
    omega

theorem evict_after_receiveKey (derived : active.receiveKey header next [] = .ok (key, last, pending)) (peer : Peer S) :
    (peer.evict pending.length peer.order.size).1 = .ok () := by
  obtain ⟨last, evicted, -⟩ := evict_ok (receiveKey_fits derived) (Nat.le_refl peer.order.size)
  rw [evicted]

end

private theorem receiveStored_settles (peer : Peer S) (epoch number : Nat) (authenticate : S.Secret → Except Error T) :
    peer.receiveStored epoch number authenticate = peer.settle (peer.offerStored epoch number) authenticate := by
  unfold receiveStored offerStored settle
  cases peer.stored epoch number peer.lastNow <;> rfl

private theorem receiveChain_settles (peer : Peer S) (header : Header S) (next : Bool)
    (authenticate : S.Secret → Except Error T) :
    peer.receiveChain header next authenticate = peer.settle (peer.offerChain header next) authenticate := by
  unfold receiveChain offerChain settle
  cases counted : peer.active.skippedCount header next with
  | error error => rfl
  | ok count =>
    cases derived : peer.active.receiveKey header next [] with
    | error error => rfl
    | ok result =>
      obtain ⟨key, active, pending⟩ := result
      have made := evict_after_receiveKey derived peer
      cases ordered : checkedAdd peer.nextOrder pending.length .limit with
      | error error => simp [bind, Except.bind, ordered]
      | ok order =>
        simp only [bind, Except.bind, pure, Except.pure, ordered, committed]
        cases authenticate key with
        | error error => rfl
        | ok output =>
          cases evicted : peer.evict pending.length peer.order.size with
          | mk outcome last =>
            rw [evicted] at made
            simp only at made
            subst made
            rfl

theorem receive_settles (peer : Peer S) (bytes : S.Bytes) (request now : Nat) (authenticate : S.Secret → Except Error T) :
    peer.receive bytes request now authenticate =
      (peer.expire now).settle ((peer.expire now).offer bytes request) authenticate := by
  unfold receive offer
  dsimp only
  generalize peer.expire now = expired
  cases opened : expired.openHeader bytes request with
  | error error => rfl
  | ok result =>
    cases result with
    | skipped epoch header => exact receiveStored_settles _ _ _ _
    | next header => exact receiveChain_settles _ _ _ _
    | current header =>
      cases received : expired.active.receive with
      | none => rfl
      | some receive =>
        dsimp only
        split
        · exact receiveStored_settles _ _ _ _
        · exact receiveChain_settles _ _ _ _

/-- A failing call leaves exactly the peer that `expire` alone leaves, a failing
callback included. A callback that accepts the key it is handed decides the
result: the call cannot fail after it, because eviction cannot. -/
theorem receive_transactional (peer : Peer S) (bytes : S.Bytes) (request now : Nat)
    (authenticate : S.Secret → Except Error T) :
    (∀ error, (peer.receive bytes request now authenticate).1 = .error error →
      (peer.receive bytes request now authenticate).2 = peer.expire now) ∧
    (∀ offer, (peer.expire now).offer bytes request = .ok offer →
      (∀ error, authenticate offer.key = .error error →
        peer.receive bytes request now authenticate = (.error error, peer.expire now)) ∧
      ∀ output, authenticate offer.key = .ok output →
        peer.receive bytes request now authenticate = (.ok output, offer.after)) ∧
    ∀ header next key active pending, (peer.expire now).active.receiveKey header next [] = .ok (key, active, pending) →
      ((peer.expire now).evict pending.length (peer.expire now).order.size).1 = .ok () := by
  rw [receive_settles]
  refine ⟨?_, ?_, fun header next key active pending derived => evict_after_receiveKey derived _⟩
  · intro error failed
    cases offered : (peer.expire now).offer bytes request with
    | error refused => rfl
    | ok offer =>
      simp only [settle, offered] at failed ⊢
      cases decided : authenticate offer.key with
      | error denied => rfl
      | ok output => simp [decided] at failed
  · intro offer offered
    refine ⟨fun error denied => ?_, fun output granted => ?_⟩
    · simp [settle, offered, denied]
    · simp [settle, offered, granted]

end Peer
end StogasVerifier.Channel
