import StogasVerifier.Proofs.PeerStore

/-! When a call reaches its callback: the conditions under which a header that
opens is offered a key. -/

namespace StogasVerifier.Channel
open Std Lib

variable {S : Suite}

namespace Active

def received (active : Active S) : Nat := active.receive.elim 0 fun receive => receive.chain.count

/-- What a header must meet to be accepted as the start of the other's next turn,
apart from the limit on the keys that it skips. -/
structure Admits (active : Active S) (header : Header S) : Prop where
  alternates : active.receive.isSome → active.send.isSome
  valid : header.publicKeys.validate = .ok ()
  keys : ∃ localKeys dh, active.localKeys = some localKeys ∧ localKeys.agree header.publicKeys = .ok dh
  number : header.number < maxChainMessages
  previous : header.previous ≤ maxChainMessages
  behind : active.received ≤ header.previous
  first : active.receive = none → header.previous = 0
  epochs : ∀ receive, active.receive = some receive → receive.epoch < u64Max

theorem Admits.skippedCount {active : Active S} {header : Header S} (admits : active.Admits header)
    (gap : header.previous + header.number ≤ active.received + maxSkippedKeys) :
    active.skippedCount header true = .ok (header.previous + header.number - active.received) := by
  obtain ⟨localKeys, dh, held, -⟩ := admits.keys
  have behind := admits.behind
  refine skippedCount_ok.mpr ⟨admits.number, by omega, ?_, by rw [held]; rfl, admits.alternates, ?_, behind⟩
  · simp only [maxSkippedKeys, u64Max] at *
    omega
  · unfold received at *
    omega

theorem Admits.skippedCount_far {active : Active S} {header : Header S} (admits : active.Admits header)
    (far : active.received + maxSkippedKeys < header.previous + header.number) :
    active.skippedCount header true = .error .limit := by
  obtain ⟨localKeys, dh, held, -⟩ := admits.keys
  have behind := admits.behind
  have number := admits.number
  have previous := admits.previous
  have ready : ¬ (active.localKeys.isNone ∨ active.receive.isSome ∧ active.send.isNone) := by
    intro either
    rcases either with missing | ⟨received, silent⟩
    · simp [held] at missing
    · have sending := admits.alternates received
      cases present : active.send <;> simp_all
  have count : maxSkippedKeys < header.previous - active.received + header.number := by omega
  have word : header.previous - active.received + header.number ≤ u64Max := by
    simp only [maxChainMessages, u64Max] at *
    omega
  unfold Active.received at count behind word
  simp only [Active.skippedCount, reject, checkedSub, checkedAdd, if_true, if_neg (Nat.not_le.mpr number), if_neg ready,
    if_pos behind, if_pos (Nat.zero_le _), Nat.sub_zero, bind, Except.bind, if_pos word, if_pos count]

theorem Admits.receiveKey {active : Active S} {header : Header S} (admits : active.Admits header)
    (gap : header.previous + header.number ≤ active.received + maxSkippedKeys) :
    ∃ key last pending, active.receiveKey header true [] = .ok (key, last, pending) := by
  obtain ⟨localKeys, dh, held, agreed⟩ := admits.keys
  have entered : ∃ epoch tail, active.nextTurn header [] =
      .ok (active.turned header dh (localKeys.decapsulate header.ciphertext) epoch, tail) ∧
      tail.length + header.number ≤ maxSkippedKeys := by
    have behind := admits.behind
    cases present : active.receive with
    | none =>
      simp only [received, present, Option.elim_none] at gap behind
      exact ⟨0, [], nextTurn_ok.mpr ⟨localKeys, dh, 0, admits.alternates, admits.valid, held, agreed, rfl,
        .inl ⟨present, admits.first present, rfl, rfl⟩⟩, by simp only [List.length_nil]; omega⟩
    | some receive =>
      simp only [received, present, Option.elim_some] at gap behind
      refine ⟨receive.epoch + 1, receive.keys (header.previous - receive.chain.count), nextTurn_ok.mpr ⟨localKeys, dh, _,
        admits.alternates, admits.valid, held, agreed, rfl, .inr ⟨receive, header.previous - receive.chain.count, present,
        by omega, by omega, .inr admits.previous, rfl, admits.epochs receive present, rfl⟩⟩, ?_⟩
      rw [Receiving.keys_length]
      omega
  obtain ⟨epoch, tail, turn, fits⟩ := entered
  exact ⟨_, _, _, receiveKey_next.mpr ⟨_, tail, turn, receiveKey_current.mpr
    ⟨_, header.number, rfl, (Nat.zero_add _).symm, by omega, admits.number, rfl, rfl, rfl⟩⟩⟩

end Active

namespace Peer

variable {peer : Peer S} {bytes : S.Bytes} {request : Nat} {header : Header S} {receive : Receiving S}

def orderRoom (peer : Peer S) : Prop := peer.nextOrder + maxSkippedKeys ≤ u64Max

private theorem offerChain_derived {next : Bool} {count : Nat} {key : S.Secret} {last : Active S}
    {pending : List (PendingKey S)} (counted : peer.active.skippedCount header next = .ok count)
    (derived : peer.active.receiveKey header next [] = .ok (key, last, pending)) (room : peer.orderRoom) :
    ∃ offer, peer.offerChain header next = .ok offer := by
  have fits := receiveKey_fits derived
  have ordered : checkedAdd peer.nextOrder pending.length .limit = .ok (peer.nextOrder + pending.length) :=
    checkedAdd_ok.mpr ⟨by unfold orderRoom at room; omega, rfl⟩
  simp only [offerChain, bind_ok, pure_ok]
  exact ⟨_, count, counted, (key, last, pending), derived, _, ordered, rfl⟩

theorem offer_next (opened : peer.openHeader bytes request = .ok (.next header)) (admits : peer.active.Admits header)
    (gap : header.previous + header.number ≤ peer.active.received + maxSkippedKeys)
    (room : peer.orderRoom) : ∃ offer, peer.offer bytes request = .ok offer := by
  obtain ⟨key, last, pending, derived⟩ := admits.receiveKey gap
  obtain ⟨offer, offered⟩ := offerChain_derived (admits.skippedCount gap) derived room
  exact ⟨offer, by simp only [Peer.offer, opened, offered]⟩

theorem offer_next_far (opened : peer.openHeader bytes request = .ok (.next header)) (admits : peer.active.Admits header)
    (far : peer.active.received + maxSkippedKeys < header.previous + header.number) : peer.offer bytes request = .error .limit := by
  simp only [Peer.offer, opened, offerChain, admits.skippedCount_far far, bind, Except.bind]

theorem offer_current (opened : peer.openHeader bytes request = .ok (.current header))
    (received : peer.active.receive = some receive) (forward : receive.chain.count ≤ header.number)
    (short : header.number < maxChainMessages) (gap : header.number ≤ receive.chain.count + maxSkippedKeys)
    (room : peer.orderRoom) : ∃ offer, peer.offer bytes request = .ok offer := by
  have counted : peer.active.skippedCount header false = .ok (header.number - receive.chain.count) := by
    refine Active.skippedCount_ok.mpr ⟨short, by omega, ?_, by simp only [received, Option.elim_some]; omega⟩
    simp only [maxSkippedKeys, u64Max] at *
    omega
  have derived : peer.active.receiveKey header false [] = .ok (_, _, _) := Active.receiveKey_current.mpr
    ⟨receive, header.number - receive.chain.count, received, by omega, by rw [List.length_nil]; omega, short, rfl, rfl, rfl⟩
  obtain ⟨offer, offered⟩ := offerChain_derived counted derived room
  exact ⟨offer, by simp only [Peer.offer, opened, received, Nat.not_lt.mpr forward, if_false, offered]⟩

theorem offer_current_far (opened : peer.openHeader bytes request = .ok (.current header))
    (received : peer.active.receive = some receive) (short : header.number < maxChainMessages)
    (far : receive.chain.count + maxSkippedKeys < header.number) : peer.offer bytes request = .error .limit := by
  have forward : receive.chain.count ≤ header.number := by omega
  have count : maxSkippedKeys < header.number - receive.chain.count := by omega
  have word : header.number - receive.chain.count ≤ u64Max := by
    simp only [maxChainMessages, u64Max] at *
    omega
  have counted : peer.active.skippedCount header false = .error .limit := by
    simp only [Active.skippedCount, reject, checkedSub, checkedAdd, Bool.false_eq_true, if_false, if_neg (Nat.not_le.mpr short),
      received, Option.elim_some, if_pos forward, Nat.zero_add, bind, Except.bind, if_pos word, if_pos count]
  simp only [Peer.offer, opened, received, Nat.not_lt.mpr forward, if_false, offerChain, counted, bind, Except.bind]

theorem offer_passed (opened : peer.openHeader bytes request = .ok (.current header))
    (received : peer.active.receive = some receive) (passed : header.number < receive.chain.count) {key : Skipped S}
    (found : peer.stored receive.epoch header.number peer.lastNow = some key) :
    peer.offer bytes request =
      .ok ⟨key.secret, (receive.epoch, header.number), [], peer.remove (receive.epoch, header.number) key.order⟩ := by
  simp only [Peer.offer, opened, received, passed, if_true, offerStored, found]

theorem offer_skipped {epoch : Nat} (opened : peer.openHeader bytes request = .ok (.skipped epoch header)) {key : Skipped S}
    (found : peer.stored epoch header.number peer.lastNow = some key) :
    peer.offer bytes request =
      .ok ⟨key.secret, (epoch, header.number), [], peer.remove (epoch, header.number) key.order⟩ := by
  simp only [Peer.offer, opened, offerStored, found]

theorem responder_offers (sealing : S.Sealing) (header : Header S) (request : Nat) (root : S.Secret) (keys : KeyPair S)
    {dh : S.Secret} (start : header.previous = 0)
    (early : header.number ≤ maxSkippedKeys) (valid : header.publicKeys.validate = .ok ())
    (agreed : keys.agree header.publicKeys = .ok dh)
    (sent : (HeaderCipher.mk (S.expand .initialization root 1)).sealHeader header request = .ok bytes) (now : Nat) :
    ∃ offer, ((Peer.responder root keys).expire now).offer bytes request = .ok offer ∧ offer.id.2 = header.number ∧
      offer.stored.length = header.number := by
  obtain ⟨active, order, -⟩ := expire_frame (Peer.responder root keys) now
  generalize (Peer.responder root keys).expire now = peer at active order
  simp only [maxSkippedKeys] at early
  have opens := HeaderCipher.openHeader_sealHeader sealing (by rw [start]; exact Nat.zero_le _)
    (by simp only [u64Max]; omega) sent
  have opened : peer.openHeader bytes request = .ok (.next header) := by
    simp only [openHeader, HeaderCipher.sealHeader_length sealing sent, ne_eq, not_true, if_false, active, openLater]
    simp [Peer.responder, Peer.new, opens]
  have admits : peer.active.Admits header := by
    rw [active]
    refine ⟨by simp [Peer.responder, Peer.new], valid, ⟨keys, dh, rfl, agreed⟩, ?_, by rw [start]; exact Nat.zero_le _, by rw [start]; exact Nat.le_refl _,
      fun _ => start, by simp [Peer.responder, Peer.new]⟩
    simp only [maxChainMessages]
    omega
  have gap : header.previous + header.number ≤ peer.active.received + maxSkippedKeys := by
    rw [start, Nat.zero_add]
    exact early.trans (Nat.le_add_left _ _)
  have room : peer.orderRoom := by
    unfold orderRoom
    rw [order]
    exact (by decide : 0 + maxSkippedKeys ≤ u64Max)
  obtain ⟨offer, offered⟩ := offer_next opened admits gap room
  refine ⟨offer, offered, ?_⟩
  have counted := admits.skippedCount gap
  cases offer_cases offered with
  | stored route =>
    rcases route with route | ⟨route, -⟩ <;> rw [opened] at route <;> cases route
  | @chain other next last pending route counts derived _ number _ stored =>
    rw [opened] at route
    cases next with
    | false => cases route
    | true =>
      cases route
      rw [counts] at counted
      have none : peer.active.received = 0 := by rw [active]; rfl
      have length : pending.length = header.number := by
        rw [Except.ok.inj counted, start, none]
        omega
      exact ⟨number, by rw [stored, List.length_map, length]⟩

end Peer
end StogasVerifier.Channel
