import StogasVerifier.Proofs.HeaderNonces

/-! The keys that a client stores have no deadline, so the times it is told do
not change what it accepts. -/

namespace StogasVerifier.Channel
open Std Lib

variable {S : Suite}

namespace Peer

/-- A peer whose stored keys are kept until it discards them. -/
structure Owned (peer : Peer S) : Prop where
  store : KeyStore peer
  owned : peer.retention = .owned
  lasting : ∀ {id : KeyId} {key : Skipped S}, peer.lookup id = some key → key.expires = none

def withClock (peer : Peer S) (time : Nat) : Peer S := { peer with lastNow := time }

namespace Owned

variable {peer : Peer S}

theorem stored_eq (owned : Owned peer) (epoch number now : Nat) : peer.stored epoch number now = peer.lookup (epoch, number) := by
  change (peer.lookup (epoch, number)).filter (live now) = _
  cases found : peer.lookup (epoch, number) with
  | none => rfl
  | some key => simp [live, owned.lasting found]

theorem expire_eq (owned : Owned peer) (now : Nat) : peer.expire now = peer.withClock (max peer.lastNow now) := by
  change expireOldest peer.order.size (peer.withClock (max peer.lastNow now)) = _
  cases peer.order.size with
  | zero => rfl
  | succ count =>
    rw [expireOldest]
    cases first : firstKeyValue (peer.withClock (max peer.lastNow now)).order with
    | none => rfl
    | some entry =>
      obtain ⟨order, id⟩ := entry
      obtain ⟨key, found, -⟩ := owned.store.listed (firstKeyValue_found first)
      have present : (peer.withClock (max peer.lastNow now)).stored id.1 id.2 (peer.withClock (max peer.lastNow now)).lastNow =
          some key := (owned.stored_eq id.1 id.2 _).trans found
      simp only [present, Option.isSome_some, if_true]

theorem expire (owned : Owned peer) (now : Nat) : Owned (peer.expire now) := by
  refine ⟨owned.store.expire now, (expire_frame peer now).2.2.2.trans owned.owned, fun found => ?_⟩
  exact owned.lasting (expire_subset owned.store now found)

theorem offer_withClock (owned : Owned peer) (time : Nat) (bytes : S.Bytes) (request : Nat) :
    ((peer.withClock time).offer bytes request).map Offer.key = (peer.offer bytes request).map Offer.key := by
  have stored (epoch number : Nat) :
      ((peer.withClock time).offerStored epoch number).map Offer.key = (peer.offerStored epoch number).map Offer.key := by
    have same : (peer.withClock time).stored epoch number (peer.withClock time).lastNow =
        peer.stored epoch number peer.lastNow := (owned.stored_eq epoch number time).trans (owned.stored_eq epoch number _).symm
    unfold offerStored
    rw [same]
    cases peer.stored epoch number peer.lastNow <;> rfl
  have chain (header : Header S) (next : Bool) :
      ((peer.withClock time).offerChain header next).map Offer.key = (peer.offerChain header next).map Offer.key := by
    unfold offerChain
    change Except.map _ (peer.active.skippedCount header next >>= _) = Except.map _ (peer.active.skippedCount header next >>= _)
    cases peer.active.skippedCount header next with
    | error error => rfl
    | ok count =>
      change Except.map _ (peer.active.receiveKey header next [] >>= _) =
        Except.map _ (peer.active.receiveKey header next [] >>= _)
      cases peer.active.receiveKey header next [] with
      | error error => rfl
      | ok derived =>
        change Except.map _ (checkedAdd peer.nextOrder _ .limit >>= _) = Except.map _ (checkedAdd peer.nextOrder _ .limit >>= _)
        cases checkedAdd peer.nextOrder derived.2.2.length .limit <;> rfl
  have opened : (peer.withClock time).openHeader bytes request = peer.openHeader bytes request := rfl
  unfold offer
  rw [opened]
  cases peer.openHeader bytes request with
  | error error => rfl
  | ok result =>
    cases result with
    | skipped epoch header => exact stored epoch header.number
    | next header => exact chain header true
    | current header =>
      have kept : (peer.withClock time).active = peer.active := rfl
      simp only [kept]
      cases peer.active.receive with
      | none => rfl
      | some receive =>
        dsimp only
        split
        · exact stored receive.epoch header.number
        · exact chain header false

theorem offer_expire (owned : Owned peer) (now : Nat) {bytes : S.Bytes} {request : Nat} {key : S.Secret} :
    (∃ offer, (peer.expire now).offer bytes request = .ok offer ∧ offer.key = key) ↔
      ∃ offer, peer.offer bytes request = .ok offer ∧ offer.key = key := by
  have mapped (result : Except Error (Offer S)) : (∃ offer, result = .ok offer ∧ offer.key = key) ↔ result.map Offer.key = .ok key := by
    cases result <;> simp [Except.map]
  rw [mapped, mapped, owned.expire_eq, owned.offer_withClock]

theorem offered (owned : Owned peer) {bytes : S.Bytes} {request : Nat} {offer : Offer S} (offered : peer.offer bytes request = .ok offer)
    (store : KeyStore offer.after) : Owned offer.after := by
  cases offer_cases offered with
  | @stored header key opened number found secret quiet after =>
    rw [after] at store ⊢
    refine ⟨store, owned.owned, fun present => ?_⟩
    rw [lookup_remove] at present
    split at present
    · cases present
    · exact owned.lasting present
  | @chain header next last pending opened counted derived room number between stored after =>
    have fits := receiveKey_fits derived
    rw [after] at store ⊢
    refine ⟨store, (committed_frame peer last fits).2.2.2.trans owned.owned, fun present => ?_⟩
    obtain old | ⟨skipped, -, -, -, expires⟩ := lookup_committed between owned.store fits present
    · exact owned.lasting old
    · rw [expires, owned.owned]
      rfl

end Owned
end Peer

theorem Shared.readStart_ok {shared : Shared S} (owned : shared.peer.Owned) {sessionId encoded : S.Bytes} {number now : Nat}
    {output : Records S × Kind × S.Bytes} :
    (shared.readStart sessionId number encoded now).1 = .ok output ↔
      ∃ header offer, startHeader encoded = .ok header ∧ shared.peer.offer header number = .ok offer ∧
        Records.authenticateStart offer.key sessionId number .response encoded = .ok output := by
  constructor
  · intro succeeds
    have reads := shared.readStart_reads sessionId number encoded now
    rw [succeeds] at reads
    cases reads with
    | @accept header offer _ _ framed offered authentic settled =>
      obtain ⟨other, also, key⟩ := (owned.offer_expire now).mp ⟨offer, offered, rfl⟩
      exact ⟨header, other, framed, also, key ▸ authentic⟩
  · rintro ⟨header, offer, framed, offered, authentic⟩
    obtain ⟨other, also, key⟩ := (owned.offer_expire now).mpr ⟨offer, offered, rfl⟩
    rw [← key] at authentic
    have received : shared.peer.receive header number now
        (fun secret => Records.authenticateStart secret sessionId number .response encoded) = (.ok output, other.after) :=
      Peer.receive_ok.mpr ⟨other, also, authentic, rfl⟩
    simp only [readStart, framed, received]

namespace Client

theorem Initial.owned {client : Client S} (initial : Initial client) : client.shared.peer.Owned := by
  obtain ⟨root, id, idleSeconds, responder, created, -⟩ := initial
  simp only [ClientSession.new, bind_ok, pure_ok] at created
  obtain ⟨peer, made, same⟩ := created
  simp only [Peer.initiator, bind_ok, pure_ok] at made
  obtain ⟨_, -, rfl⟩ := made
  rw [← (Prod.mk.inj same).2]
  exact ⟨.new root none (some responder) true, rfl, fun found => by simp [Peer.new, Peer.lookup] at found⟩

theorem Step.owned {added : List (HeaderSeal S)} {client after : Client S} (owned : client.shared.peer.Owned)
    (store : after.shared.peer.KeyStore) (move : Step client added after) : after.shared.peer.Owned := by
  cases move with
  | request done =>
    obtain ⟨-, number, starts, key, active, -, -, rfl, rfl⟩ := ClientSession.requestWith_ok done
    exact ⟨store, owned.owned, owned.lasting⟩
  | fail done =>
    obtain rfl | ⟨number, starts, -, rfl⟩ := ClientSession.requestWith_error done
    · exact owned
    · exact owned
  | @read number waiting encoded now =>
    have reads := client.shared.readStart_reads client.session.id number encoded now
    generalize client.shared.readStart client.session.id number encoded now = done at reads store
    obtain ⟨result, shared⟩ := done
    cases reads with
    | misframed => exact owned
    | reject framed failed settled =>
      subst settled
      exact owned.expire now
    | accept framed offered authentic settled =>
      subst settled
      exact (owned.expire now).offered offered store
  | @drop number waiting =>
    simp only [Client.dropped, Shared.dropPending] at store ⊢
    split
    · exact ⟨.discard, owned.owned, fun found => by simp [Peer.discardDelayed, Peer.lookup] at found⟩
    · exact owned
  | expire now =>
    unfold ClientSession.expire
    split
    · exact owned.expire now
    · exact owned
  | close => exact owned

theorem owned_run {first client : Client S} {sent : List (List (HeaderSeal S))} (initial : first.Initial)
    (run : Trace Step first sent client) : client.shared.peer.Owned := by
  have kept : Sealed sent.flatten client ∧ client.shared.peer.Owned := by
    refine Trace.invariant (fun log client => Sealed log.flatten client ∧ client.shared.peer.Owned)
      ⟨.initial initial, initial.owned⟩ ?_ run
    rintro log before added after ⟨fresh, owned⟩ move
    have next := fresh.step move
    obtain ⟨script, turns, numbers, follows, -⟩ := next.history
    exact ⟨by simpa using next, move.owned owned follows.store⟩
  exact kept.2

end Client
end StogasVerifier.Channel
