import StogasVerifier.Proofs.PeerTransaction

/-! The order in which a peer passes message positions, and what an offer does
to it. A position is passed once and for all, by release or by storage. -/

namespace StogasVerifier.Channel
open Std Lib

variable {S : Suite}

def Precedes (first second : KeyId) : Prop := first.1 < second.1 ∨ first.1 = second.1 ∧ first.2 < second.2

theorem Precedes.trans {first second third : KeyId} (before : Precedes first second) (after : Precedes second third) :
    Precedes first third := by
  unfold Precedes at *
  omega

theorem Precedes.irrefl (id : KeyId) : ¬ Precedes id id := by
  unfold Precedes
  omega

theorem Precedes.ne {first second : KeyId} (before : Precedes first second) : first ≠ second := by
  rintro rfl
  exact Precedes.irrefl _ before

theorem Precedes.total (first second : KeyId) : Precedes first second ∨ first = second ∨ Precedes second first := by
  unfold Precedes
  rw [Prod.ext_iff]
  omega

def Active.Passed (active : Active S) (id : KeyId) : Prop :=
  ∃ receive, active.receive = some receive ∧ Precedes id (receive.epoch, receive.chain.count)

structure Between (before after : Active S) (id : KeyId) (pending : List (PendingKey S)) : Prop where
  fresh : ∀ key ∈ pending, ¬ before.Passed key.id
  earlier : ∀ key ∈ pending, Precedes key.id id
  sorted : pending.Pairwise fun first second => Precedes first.id second.id
  released : ¬ before.Passed id
  position : ∃ receive, after.receive = some receive ∧ id.1 = receive.epoch ∧ receive.chain.count = id.2 + 1
  kept : ∀ other, before.Passed other → after.Passed other

theorem Between.passed {before after : Active S} {id : KeyId} {pending : List (PendingKey S)}
    (between : Between before after id pending) : after.Passed id := by
  obtain ⟨receive, received, epoch, count⟩ := between.position
  exact ⟨receive, received, .inr ⟨epoch, by omega⟩⟩

theorem Between.pending_passed {before after : Active S} {id : KeyId} {pending : List (PendingKey S)}
    (between : Between before after id pending) {key : PendingKey S} (member : key ∈ pending) : after.Passed key.id := by
  obtain ⟨receive, received, order⟩ := between.passed
  exact ⟨receive, received, (between.earlier key member).trans order⟩

theorem Receiving.mem_keys {receive : Receiving S} {count : Nat} {key : PendingKey S} :
    key ∈ receive.keys count ↔ ∃ offset < count, key =
      ⟨(receive.epoch, receive.chain.count + offset), receive.header, messageKey receive.chain.secret offset⟩ := by
  simp only [keys, List.mem_map, List.mem_range]
  constructor <;> rintro ⟨offset, inside, same⟩ <;> exact ⟨offset, inside, same.symm⟩

theorem Receiving.keys_sorted (receive : Receiving S) (count : Nat) :
    (receive.keys count).Pairwise fun first second => Precedes first.id second.id := by
  rw [keys, List.pairwise_map]
  apply List.Pairwise.imp _ (List.pairwise_lt_range (n := count))
  intro first second before
  exact .inr ⟨rfl, by simpa using before⟩

namespace Active

/-- A message of the current turn skips the positions up to its own. -/
theorem receiveKey_current_between {active last : Active S} {header : Header S} {key : S.Secret}
    {result : List (PendingKey S)} (derived : active.receiveKey header false [] = .ok (key, last, result)) :
    ∃ receive, last.receive = some receive ∧ Between active last (receive.epoch, header.number) result := by
  obtain ⟨receive, count, received, same, -, -, -, rfl, rfl⟩ := receiveKey_current.mp derived
  refine ⟨_, rfl, ?_, ?_, ?_, ?_, ⟨_, rfl, rfl, ?_⟩, ?_⟩
  · rintro skipped member ⟨current, present, order⟩
    obtain ⟨offset, -, rfl⟩ := Receiving.mem_keys.mp (by simpa using member)
    rw [received] at present
    cases present
    simp [Precedes] at order
  · intro skipped member
    obtain ⟨offset, inside, rfl⟩ := Receiving.mem_keys.mp (by simpa using member)
    exact .inr ⟨rfl, by simp only; omega⟩
  · simpa using receive.keys_sorted count
  · rintro ⟨current, present, order⟩
    rw [received] at present
    cases present
    simp only [Precedes, Receiving.after] at order
    omega
  · simp only [Receiving.after, Chain.after]
    omega
  · rintro other ⟨current, present, order⟩
    rw [received] at present
    cases present
    refine ⟨_, rfl, ?_⟩
    simp only [Precedes, Receiving.after, Chain.after] at order ⊢
    omega

theorem receiveKey_next_between {active last : Active S} {header : Header S} {key : S.Secret}
    {result : List (PendingKey S)} (derived : active.receiveKey header true [] = .ok (key, last, result)) :
    ∃ receive, last.receive = some receive ∧ Between active last (receive.epoch, header.number) result := by
  obtain ⟨middle, tail, entered, rest⟩ := receiveKey_next.mp derived
  obtain ⟨localKeys, dh, epoch, -, -, -, -, rfl, shape⟩ := nextTurn_ok.mp entered
  obtain ⟨receive, count, received, same, -, -, -, rfl, rfl⟩ := receiveKey_current.mp rest
  simp only [turned, Option.some.injEq] at received
  subst received
  simp only [Nat.zero_add] at same
  -- Every position of the old turn comes before the new epoch.
  have older : ∀ id, active.Passed id ∨ (∃ skipped ∈ tail, skipped.id = id) → id.1 < epoch := by
    rintro id (⟨current, present, order⟩ | ⟨skipped, member, rfl⟩)
    · obtain ⟨absent, -⟩ | ⟨previous, gap, found, -, -, -, rfl, -, -⟩ := shape
      · rw [absent] at present; cases present
      · rw [found] at present
        cases present
        simp only [Precedes] at order
        omega
    · obtain ⟨-, -, -, rfl⟩ | ⟨previous, gap, found, -, -, -, rfl, -, rfl⟩ := shape
      · cases member
      · obtain ⟨offset, -, rfl⟩ := Receiving.mem_keys.mp member
        simp
  refine ⟨_, rfl, ?_, ?_, ?_, ?_, ⟨_, rfl, rfl, ?_⟩, ?_⟩
  · rintro skipped member passed
    rcases List.mem_append.mp member with member | member
    · obtain ⟨-, -, -, rfl⟩ | ⟨previous, gap, found, -, -, -, -, -, rfl⟩ := shape
      · cases member
      · obtain ⟨offset, -, rfl⟩ := Receiving.mem_keys.mp member
        obtain ⟨current, present, order⟩ := passed
        rw [found] at present
        cases present
        simp [Precedes] at order
    · obtain ⟨offset, -, rfl⟩ := Receiving.mem_keys.mp member
      have := older _ (.inl passed)
      simp at this
  · intro skipped member
    rcases List.mem_append.mp member with member | member
    · exact .inl (older _ (.inr ⟨skipped, member, rfl⟩))
    · obtain ⟨offset, inside, rfl⟩ := Receiving.mem_keys.mp member
      exact .inr ⟨rfl, by simp only; omega⟩
  · apply List.pairwise_append.mpr
    refine ⟨?_, Receiving.keys_sorted _ _, ?_⟩
    · obtain ⟨-, -, -, rfl⟩ | ⟨previous, gap, -, -, -, -, -, -, rfl⟩ := shape
      · exact .nil
      · exact previous.keys_sorted gap
    · intro first inTail second inTurn
      obtain ⟨offset, -, rfl⟩ := Receiving.mem_keys.mp inTurn
      exact .inl (older _ (.inr ⟨first, inTail, rfl⟩))
  · intro passed
    have := older _ (.inl passed)
    simp [Receiving.after] at this
  · simp only [Receiving.after, Chain.after]
    omega
  · intro other passed
    exact ⟨_, rfl, .inl (by simpa [Receiving.after] using older _ (.inl passed))⟩

end Active

namespace Peer

/-- An offer is a stored key, or the release of a position not yet passed. -/
inductive Offers (peer : Peer S) (bytes : S.Bytes) (request : Nat) (offer : Offer S) : Prop where
  | stored {header : Header S} {key : Skipped S}
      (opened : peer.openHeader bytes request = .ok (.skipped offer.id.1 header) ∨
        peer.openHeader bytes request = .ok (.current header) ∧
          ∃ receive, peer.active.receive = some receive ∧ receive.epoch = offer.id.1)
      (number : offer.id.2 = header.number)
      (found : peer.stored offer.id.1 offer.id.2 peer.lastNow = some key) (secret : offer.key = key.secret)
      (quiet : offer.stored = []) (after : offer.after = peer.remove offer.id key.order)
  | chain {header : Header S} {next : Bool} {active : Active S} {pending : List (PendingKey S)}
      (opened : peer.openHeader bytes request = .ok (if next then .next header else .current header))
      (counted : peer.active.skippedCount header next = .ok pending.length)
      (derived : peer.active.receiveKey header next [] = .ok (offer.key, active, pending))
      (room : peer.nextOrder + pending.length ≤ u64Max) (number : offer.id.2 = header.number)
      (between : Between peer.active active offer.id pending) (stored : offer.stored = pending.map (·.id))
      (after : offer.after = peer.committed active pending)

private theorem receiveKey_counted {active last : Active S} {header : Header S} {next : Bool} {count : Nat} {key : S.Secret}
    {pending : List (PendingKey S)} (counted : active.skippedCount header next = .ok count)
    (derived : active.receiveKey header next [] = .ok (key, last, pending)) : pending.length = count := by
  have sizes := Active.skippedCount_ok.mp counted
  cases next with
  | false =>
    obtain ⟨receive, gap, received, same, -, -, -, -, rfl⟩ := Active.receiveKey_current.mp derived
    simp only [received, Option.elim_some] at sizes
    simp only [List.nil_append, Receiving.keys_length]
    omega
  | true =>
    obtain ⟨middle, tail, entered, rest⟩ := Active.receiveKey_next.mp derived
    obtain ⟨localKeys, dh, epoch, -, -, -, -, rfl, shape⟩ := Active.nextTurn_ok.mp entered
    obtain ⟨receive, gap, received, same, -, -, -, -, rfl⟩ := Active.receiveKey_current.mp rest
    simp only [Active.turned, Option.some.injEq] at received
    subst received
    simp only [Nat.zero_add] at same
    obtain ⟨absent, zero, -, rfl⟩ | ⟨previous, before, found, position, -, -, -, -, rfl⟩ := shape
    · simp only [absent, Option.elim_none] at sizes
      simp only [List.nil_append, Receiving.keys_length]
      omega
    · simp only [found, Option.elim_some] at sizes
      simp only [List.length_append, Receiving.keys_length]
      omega

private theorem offerChain_ok {peer : Peer S} {bytes : S.Bytes} {request : Nat} {header : Header S} (next : Bool)
    {offer : Offer S} (opened : peer.openHeader bytes request = .ok (if next then .next header else .current header))
    (offered : peer.offerChain header next = .ok offer) : Offers peer bytes request offer := by
  simp only [offerChain, bind_ok, pure_ok, checkedAdd_ok] at offered
  obtain ⟨count, counted, ⟨key, active, pending⟩, derived, _, ⟨room, -⟩, rfl⟩ := offered
  have between : ∃ receive, active.receive = some receive ∧
      Between peer.active active (receive.epoch, header.number) pending := by
    cases next with
    | false => exact Active.receiveKey_current_between derived
    | true => exact Active.receiveKey_next_between derived
  obtain ⟨receive, received, between⟩ := between
  obtain rfl := receiveKey_counted counted derived
  simp only [received, Option.elim_some]
  exact .chain opened counted derived room rfl between rfl rfl

theorem offer_cases {peer : Peer S} {bytes : S.Bytes} {request : Nat} {offer : Offer S}
    (offered : peer.offer bytes request = .ok offer) : Offers peer bytes request offer := by
  unfold Peer.offer at offered
  split at offered
  · cases offered
  next epoch header opened =>
    unfold offerStored at offered
    split at offered
    · cases offered
    next key present => cases offered; exact .stored (.inl opened) rfl present rfl rfl rfl
  next header opened =>
    split at offered
    · cases offered
    next receive received =>
      split at offered
      · unfold offerStored at offered
        split at offered
        · cases offered
        next key present => cases offered; exact .stored (.inr ⟨opened, receive, received, rfl⟩) rfl present rfl rfl rfl
      · exact offerChain_ok false opened offered
  next header opened => exact offerChain_ok true opened offered

end Peer
end StogasVerifier.Channel
