import StogasVerifier.Proofs.PeerPositions

/-! The skipped-key store. Two nested maps hold the keys by position and one map
holds the positions by age; every operation keeps the three views together. -/

namespace StogasVerifier.Channel
open Std Lib

variable {S : Suite}

namespace Peer

def lookup (peer : Peer S) (id : KeyId) : Option (Skipped S) := peer.skipped[id.1]?.bind fun group => group.keys[id.2]?

variable {peer : Peer S}

theorem stored_some {epoch number now : Nat} {key} :
    peer.stored epoch number now = some key ↔ peer.lookup (epoch, number) = some key ∧ live now key = true := by
  simp [stored, lookup, Option.filter_eq_some_iff]

private theorem empty_lookup {keys : TreeMap Nat (Skipped S) compare} (empty : keys.isEmpty = true) (number : Nat) :
    keys[number]? = none :=
  TreeMap.getElem?_of_isEmpty empty

theorem lookup_remove (peer : Peer S) (id other : KeyId) (order : Nat) :
    (peer.remove id order).lookup other = if id = other then none else peer.lookup other := by
  obtain ⟨epoch, number⟩ := id
  obtain ⟨otherEpoch, otherNumber⟩ := other
  simp only [lookup, remove, Prod.mk.injEq]
  cases grouped : peer.skipped[epoch]? with
  | none =>
    by_cases same : epoch = otherEpoch
    · subst same
      simp [grouped]
    · simp [same]
  | some group =>
    by_cases same : epoch = otherEpoch
    · subst same
      by_cases empty : (group.keys.erase number).isEmpty = true
      · have none := empty_lookup empty otherNumber
        simp only [empty, if_true, lookup_erase, Option.bind_none, grouped, Option.bind_some, true_and]
        simp only [lookup_erase] at none
        split at none
        next equal => simp [equal]
        next different => simp [different, none]
      · simp [empty, grouped]
    · have kept : (if (group.keys.erase number).isEmpty = true then peer.skipped.erase epoch
          else peer.skipped.insert epoch { group with keys := group.keys.erase number })[otherEpoch]? =
          peer.skipped[otherEpoch]? := by
        split <;> simp [same]
      simp only [kept, same, false_and, if_false]

theorem lookup_store (peer : Peer S) (key : PendingKey S) (other : KeyId) :
    (peer.store key).lookup other =
      if key.id = other then some ⟨key.secret, peer.retention.deadline peer.lastNow, peer.nextOrder⟩
      else peer.lookup other := by
  obtain ⟨⟨epoch, number⟩, header, secret⟩ := key
  obtain ⟨otherEpoch, otherNumber⟩ := other
  simp only [lookup, store, lookup_insert, Prod.mk.injEq]
  by_cases same : epoch = otherEpoch
  · subst same
    cases grouped : peer.skipped[epoch]? with
    | none => by_cases equal : number = otherNumber <;> simp [equal]
    | some group => by_cases equal : number = otherNumber <;> simp [equal]
  · simp [same]

def NoLater : Option Nat → Option Nat → Prop
  | some first, some second => first ≤ second
  | none, none => True
  | _, _ => False

theorem NoLater.refl (deadline : Option Nat) : NoLater deadline deadline := by
  cases deadline <;> simp [NoLater]

theorem NoLater.trans {first second third} (before : NoLater first second) (after : NoLater second third) :
    NoLater first third := by
  cases first <;> cases second <;> cases third <;> simp_all [NoLater]
  omega

theorem deadline_mono (retention : Retention) {first second : Nat} (before : first ≤ second) :
    NoLater (retention.deadline first) (retention.deadline second) := by
  cases retention with
  | timed => simp only [Retention.deadline, NoLater, saturatingAdd]; omega
  | owned => trivial

/-- The order of expiry and the grouped keys describe the same keys, and age,
order id, position and deadline all agree. -/
structure KeyStore (peer : Peer S) : Prop where
  listed : ∀ {order : Nat} {id : KeyId}, peer.order[order]? = some id → ∃ key, peer.lookup id = some key ∧ key.order = order
  filed : ∀ {id : KeyId} {key : Skipped S}, peer.lookup id = some key → peer.order[key.order]? = some id
  inhabited : ∀ {epoch : Nat} {group : Group S}, peer.skipped[epoch]? = some group →
    ∃ (number : Nat) (key : Skipped S), group.keys[number]? = some key
  numbered : ∀ {order : Nat} {id : KeyId}, peer.order[order]? = some id → order < peer.nextOrder
  sorted : ∀ {first second : Nat} {a b : KeyId}, peer.order[first]? = some a → peer.order[second]? = some b → first < second → Precedes a b
  aging : ∀ {a b : KeyId} {older newer : Skipped S}, peer.lookup a = some older → peer.lookup b = some newer → older.order < newer.order →
    NoLater older.expires newer.expires
  recent : ∀ {id : KeyId} {key : Skipped S}, peer.lookup id = some key → NoLater key.expires (peer.retention.deadline peer.lastNow)
  passed : ∀ {id : KeyId} {key : Skipped S}, peer.lookup id = some key → peer.active.Passed id
  bounded : peer.order.size ≤ maxSkippedKeys

theorem KeyStore.new (root : S.Secret) (localKeys : Option (KeyPair S)) (remote : Option (PublicKeys S)) (client : Bool) :
    KeyStore (Peer.new root localKeys remote client) := by
  constructor <;> intros <;> simp_all [Peer.new, lookup]

theorem KeyStore.withActive (store : KeyStore peer) (active : Active S)
    (kept : ∀ id key, peer.lookup id = some key → active.Passed id) : KeyStore { peer with active } :=
  ⟨store.listed, store.filed, store.inhabited, store.numbered, store.sorted, store.aging, store.recent,
    fun found => kept _ _ found, store.bounded⟩

theorem KeyStore.withClock (store : KeyStore peer) (now : Nat) :
    KeyStore { peer with lastNow := max peer.lastNow now } :=
  ⟨store.listed, store.filed, store.inhabited, store.numbered, store.sorted, store.aging,
    fun found => (store.recent found).trans (deadline_mono _ (Nat.le_max_left _ _)), store.passed, store.bounded⟩

theorem KeyStore.discard : KeyStore peer.discardDelayed := by
  constructor <;> intros <;> simp_all [discardDelayed, lookup]

variable {id : KeyId}

private theorem order_remove {order other : Nat} {kept : KeyId}
    (found : (peer.remove id order).order[other]? = some kept) : order ≠ other ∧ peer.order[other]? = some kept := by
  simp only [remove, lookup_erase] at found
  split at found
  · cases found
  next different => exact ⟨different, found⟩

private theorem lookup_removed {other : KeyId} {order : Nat} {key}
    (found : (peer.remove id order).lookup other = some key) : id ≠ other ∧ peer.lookup other = some key := by
  rw [lookup_remove] at found
  split at found
  · cases found
  next different => exact ⟨different, found⟩

theorem KeyStore.remove (store : KeyStore peer) {order : Nat} (entry : peer.order[order]? = some id) :
    KeyStore (peer.remove id order) := by
  have matched : ∀ {other}, peer.order[other]? = some id → other = order := by
    intro other found
    rcases Nat.lt_trichotomy other order with before | same | after
    · exact absurd (store.sorted found entry before) (Precedes.irrefl id)
    · exact same
    · exact absurd (store.sorted entry found after) (Precedes.irrefl id)
  refine ⟨?_, ?_, ?_, ?_, ?_, ?_, ?_, ?_, ?_⟩
  · intro other kept found
    obtain ⟨different, found⟩ := order_remove found
    obtain ⟨key, present, numbered⟩ := store.listed found
    have moved : id ≠ kept := by rintro rfl; exact different (matched found).symm
    exact ⟨key, by rw [lookup_remove, if_neg moved]; exact present, numbered⟩
  · intro other key found
    obtain ⟨moved, found⟩ := lookup_removed found
    have present := store.filed found
    have different : order ≠ key.order := by
      rintro rfl
      rw [entry] at present
      cases present
      exact moved rfl
    simp [Peer.remove, different, present]
  · intro epoch group found
    simp only [Peer.remove] at found
    cases grouped : peer.skipped[id.1]? with
    | none => simp only [grouped] at found; exact store.inhabited found
    | some old =>
      simp only [grouped] at found
      by_cases empty : (old.keys.erase id.2).isEmpty = true
      · simp only [empty, if_true, lookup_erase] at found
        split at found
        · cases found
        · exact store.inhabited found
      · simp only [empty, Bool.false_eq_true, if_false, lookup_insert] at found
        split at found
        · cases found
          obtain ⟨number, present⟩ := TreeMap.isEmpty_eq_false_iff_exists_mem.mp (Bool.eq_false_iff.mpr empty)
          exact ⟨number, _, TreeMap.getElem?_eq_some_getElem present⟩
        · exact store.inhabited found
  · intro other kept found
    exact store.numbered (order_remove found).2
  · intro first second a b older newer before
    exact store.sorted (order_remove older).2 (order_remove newer).2 before
  · intro a b older newer first second before
    exact store.aging (lookup_removed first).2 (lookup_removed second).2 before
  · intro other key found
    exact store.recent (lookup_removed found).2
  · intro other key found
    exact store.passed (lookup_removed found).2
  · have smaller := size_erase_of_lookup entry
    have bounded := store.bounded
    simp only [Peer.remove]
    omega

theorem Drops.keeps_newest {last : Peer S} (drops : Drops peer last) (store : KeyStore peer) :
    KeyStore last ∧ (∀ {id key}, last.lookup id = some key → peer.lookup id = some key) ∧
      ∀ {gone kept old new}, peer.lookup gone = some old → last.lookup gone = none → last.lookup kept = some new →
        Precedes gone kept := by
  induction drops with
  | refl peer => exact ⟨store, fun found => found, fun present absent _ => by rw [present] at absent; cases absent⟩
  | @step peer last order id first rest ih =>
    have entry := firstKeyValue_found first
    obtain ⟨final, subset, newest⟩ := ih (store.remove entry)
    refine ⟨final, fun found => (lookup_removed (subset found)).2, ?_⟩
    intro gone kept old new present absent stays
    by_cases same : id = gone
    · subst same
      obtain ⟨different, before⟩ := lookup_removed (subset stays)
      have position := store.filed before
      rcases Nat.lt_or_eq_of_le (firstKeyValue_least first position) with earlier | equal
      · exact store.sorted entry position earlier
      · rw [equal] at entry
        rw [entry] at position
        cases position
        exact absurd rfl different
    · exact newest (by rw [lookup_remove, if_neg same]; exact present) absent stays

theorem Drops.frame {last : Peer S} (drops : Drops peer last) :
    last.active = peer.active ∧ last.nextOrder = peer.nextOrder ∧ last.lastNow = peer.lastNow ∧
      last.retention = peer.retention := by
  induction drops with
  | refl peer => exact ⟨rfl, rfl, rfl, rfl⟩
  | step _ _ ih => exact ih

theorem expire_frame (peer : Peer S) (now : Nat) :
    (peer.expire now).active = peer.active ∧ (peer.expire now).nextOrder = peer.nextOrder ∧
      (peer.expire now).lastNow = max peer.lastNow now ∧ (peer.expire now).retention = peer.retention :=
  (expire_drops peer now).frame

theorem KeyStore.expire (store : KeyStore peer) (now : Nat) : KeyStore (peer.expire now) :=
  ((expire_drops peer now).keeps_newest (store.withClock now)).1

private theorem expireOldest_first {count : Nat} (peer : Peer S) (enough : peer.order.size ≤ count) {order : Nat}
    (first : firstKeyValue (expireOldest count peer).order = some (order, id)) :
    ((expireOldest count peer).stored id.1 id.2 peer.lastNow).isSome := by
  induction count generalizing peer with
  | zero =>
    have found := firstKeyValue_found first
    simp [expireOldest, lookup_eq_none_of_size (show peer.order.size = 0 by omega)] at found
  | succ count ih =>
    rw [expireOldest] at first ⊢
    cases oldest : firstKeyValue peer.order with
    | none =>
      have found := firstKeyValue_found first
      simp [oldest, lookup_eq_none_of_size (firstKeyValue_none oldest)] at found
    | some entry =>
      obtain ⟨position, key⟩ := entry
      simp only [oldest] at first ⊢
      by_cases alive : (peer.stored key.1 key.2 peer.lastNow).isSome = true
      · simp only [alive, if_true, oldest, Option.some.injEq, Prod.mk.injEq] at first ⊢
        obtain ⟨rfl, rfl⟩ := first
        exact alive
      · simp only [alive, Bool.false_eq_true, if_false] at first ⊢
        have smaller := remove_size oldest
        exact @ih (peer.remove key position) (by omega) first

/-- After `expire` only live keys remain, although the loop stops at the first
live one: deadlines do not decrease along the order. -/
theorem KeyStore.expire_live (store : KeyStore peer) (now : Nat) {key}
    (found : (peer.expire now).lookup id = some key) : live (max peer.lastNow now) key = true := by
  have kept := store.expire now
  have position := kept.filed found
  cases first : firstKeyValue (peer.expire now).order with
  | none => simp [lookup_eq_none_of_size (firstKeyValue_none first)] at position
  | some entry =>
    obtain ⟨order, oldest⟩ := entry
    have alive := expireOldest_first { peer with lastNow := max peer.lastNow now } (Nat.le_refl _) first
    obtain ⟨earliest, stored⟩ := Option.isSome_iff_exists.mp alive
    obtain ⟨present, young⟩ := stored_some.mp stored
    rcases Nat.lt_or_eq_of_le (firstKeyValue_least first position) with earlier | equal
    · obtain ⟨other, same, numbered⟩ := kept.listed (firstKeyValue_found first)
      have unique : other = earliest := Option.some.inj (same.symm.trans present)
      subst unique
      have later := kept.aging same found (by omega)
      unfold live at young ⊢
      cases before : other.expires <;> cases after : key.expires <;> simp_all [NoLater]
      omega
    · have entry := firstKeyValue_found first
      rw [equal] at entry
      rw [entry] at position
      cases position
      rw [show key = earliest from Option.some.inj (found.symm.trans present)]
      exact young

/-- `expire` removes no live key. -/
theorem KeyStore.expire_keeps (store : KeyStore peer) (now : Nat) {key}
    (found : peer.lookup id = some key) (alive : live (max peer.lastNow now) key = true) :
    (peer.expire now).lookup id = some key := by
  have loop : ∀ (count : Nat) (peer : Peer S), KeyStore peer → peer.lookup id = some key → live peer.lastNow key = true →
      (expireOldest count peer).lookup id = some key := by
    intro count
    induction count with
    | zero => exact fun _ _ found _ => found
    | succ count ih =>
      intro peer store found alive
      rw [expireOldest]
      split
      · exact found
      next order oldest first =>
        split
        · exact found
        next dead =>
          have different : oldest ≠ id := by
            intro same
            subst same
            exact dead (Option.isSome_iff_exists.mpr ⟨key, stored_some.mpr ⟨found, alive⟩⟩)
          apply ih _ (store.remove (firstKeyValue_found first)) _ alive
          rw [lookup_remove, if_neg different]
          exact found
  exact loop _ _ (store.withClock now) found alive

/-! ### Storing the keys of one call -/

private theorem KeyStore.size_store (store : KeyStore peer) (key : PendingKey S) : (peer.store key).order.size = peer.order.size + 1 := by
  apply size_insert_of_absent
  cases found : peer.order[peer.nextOrder]? with
  | none => rfl
  | some id => exact absurd (store.numbered found) (Nat.lt_irrefl _)

theorem KeyStore.store (store : KeyStore peer) {key}
    (newest : ∀ {id old}, peer.lookup id = some old → Precedes id key.id) (passed : peer.active.Passed key.id)
    (room : peer.order.size < maxSkippedKeys) : KeyStore (peer.store key) := by
  have ordered : ∀ {position : Nat} {id : KeyId}, (peer.store key).order[position]? = some id →
      position = peer.nextOrder ∧ id = key.id ∨ position < peer.nextOrder ∧ peer.order[position]? = some id := by
    intro position id found
    simp only [Peer.store, lookup_insert] at found
    split at found
    next same => cases found; exact .inl ⟨same.symm, rfl⟩
    · exact .inr ⟨store.numbered found, found⟩
  have kept : ∀ {id : KeyId} {old : Skipped S}, (peer.store key).lookup id = some old →
      id = key.id ∧ old = ⟨key.secret, peer.retention.deadline peer.lastNow, peer.nextOrder⟩ ∨
        key.id ≠ id ∧ peer.lookup id = some old := by
    intro id old found
    rw [lookup_store] at found
    split at found
    next same => cases found; exact .inl ⟨same.symm, rfl⟩
    next different => exact .inr ⟨different, found⟩
  have before : ∀ {id : KeyId} {old : Skipped S}, peer.lookup id = some old → old.order < peer.nextOrder :=
    fun found => store.numbered (store.filed found)
  refine ⟨?_, ?_, ?_, ?_, ?_, ?_, ?_, ?_, ?_⟩
  · intro position id found
    obtain ⟨rfl, rfl⟩ | ⟨-, found⟩ := ordered found
    · exact ⟨_, by rw [lookup_store, if_pos rfl], rfl⟩
    · obtain ⟨old, present, numbered⟩ := store.listed found
      exact ⟨old, by rw [lookup_store, if_neg (newest present).ne.symm]; exact present, numbered⟩
  · intro id old found
    obtain ⟨rfl, rfl⟩ | ⟨-, found⟩ := kept found
    · simp [Peer.store]
    · have position := before found
      simp [Peer.store, Nat.ne_of_gt position, store.filed found]
  · intro epoch group found
    simp only [Peer.store, lookup_insert] at found
    split at found
    · cases found
      exact ⟨key.id.2, ⟨key.secret, peer.retention.deadline peer.lastNow, peer.nextOrder⟩, by simp⟩
    · exact store.inhabited found
  · intro position id found
    obtain ⟨rfl, -⟩ | ⟨position, -⟩ := ordered found
    · exact Nat.lt_succ_self _
    · exact Nat.lt_succ_of_lt position
  · intro first second a b older newer less
    obtain ⟨rfl, rfl⟩ | ⟨firstOld, older⟩ := ordered older
    · obtain ⟨rfl, -⟩ | ⟨secondOld, -⟩ := ordered newer <;> omega
    · obtain ⟨-, rfl⟩ | ⟨-, newer⟩ := ordered newer
      · obtain ⟨old, present, -⟩ := store.listed older
        exact newest present
      · exact store.sorted older newer less
  · intro a b older newer first second less
    obtain ⟨-, rfl⟩ | ⟨-, first⟩ := kept first
    · obtain ⟨-, rfl⟩ | ⟨-, second⟩ := kept second
      · exact absurd less (Nat.lt_irrefl _)
      · exact absurd less (Nat.not_lt.mpr (before second).le)
    · obtain ⟨-, rfl⟩ | ⟨-, second⟩ := kept second
      · exact store.recent first
      · exact store.aging first second less
  · intro id old found
    obtain ⟨-, rfl⟩ | ⟨-, found⟩ := kept found
    · exact NoLater.refl _
    · exact store.recent found
  · intro id old found
    obtain ⟨rfl, -⟩ | ⟨-, found⟩ := kept found
    · exact passed
    · exact store.passed found
  · rw [store.size_store]
    exact room

theorem storeAll_frame (pending : List (PendingKey S)) (peer : Peer S) :
    (pending.foldl store peer).active = peer.active ∧
      (pending.foldl store peer).nextOrder = peer.nextOrder + pending.length ∧
      (pending.foldl store peer).lastNow = peer.lastNow ∧ (pending.foldl store peer).retention = peer.retention := by
  induction pending generalizing peer with
  | nil => exact ⟨rfl, rfl, rfl, rfl⟩
  | cons key rest ih =>
    obtain ⟨active, order, clock, retention⟩ := ih (peer.store key)
    refine ⟨active, ?_, clock, retention⟩
    rw [List.foldl_cons, order, List.length_cons, Nat.add_comm rest.length, ← Nat.add_assoc]
    rfl

theorem storeAll_active (pending : List (PendingKey S)) (peer : Peer S) (active : Active S) :
    { pending.foldl store peer with active } = pending.foldl store { peer with active } := by
  induction pending generalizing peer with
  | nil => rfl
  | cons key rest ih => exact ih (peer.store key)

theorem lookup_storeAll_absent {pending : List (PendingKey S)} (absent : ∀ key ∈ pending, key.id ≠ id)
    (peer : Peer S) : (pending.foldl store peer).lookup id = peer.lookup id := by
  induction pending generalizing peer with
  | nil => rfl
  | cons key rest ih =>
    rw [List.foldl_cons, ih (fun other member => absent other (List.mem_cons_of_mem _ member)), lookup_store,
      if_neg (absent key List.mem_cons_self)]

theorem lookup_storeAll_mem {pending : List (PendingKey S)}
    (sorted : pending.Pairwise fun first second => Precedes first.id second.id) {key : PendingKey S}
    (member : key ∈ pending) (peer : Peer S) :
    ∃ order, (pending.foldl store peer).lookup key.id =
      some ⟨key.secret, peer.retention.deadline peer.lastNow, order⟩ := by
  induction pending generalizing peer with
  | nil => cases member
  | cons first rest ih =>
    obtain ⟨earlier, sorted⟩ := List.pairwise_cons.mp sorted
    rcases List.mem_cons.mp member with rfl | member
    · have others : ∀ other ∈ rest, other.id ≠ key.id := fun other inRest => (earlier other inRest).ne.symm
      exact ⟨peer.nextOrder, by rw [List.foldl_cons, lookup_storeAll_absent others, lookup_store, if_pos rfl]⟩
    · exact ih sorted member (peer.store first)

theorem KeyStore.storeAll {pending : List (PendingKey S)} (store : KeyStore peer)
    (sorted : pending.Pairwise fun first second => Precedes first.id second.id)
    (newest : ∀ {id old}, peer.lookup id = some old → ∀ key ∈ pending, Precedes id key.id)
    (passed : ∀ key ∈ pending, peer.active.Passed key.id) (room : peer.order.size + pending.length ≤ maxSkippedKeys) :
    KeyStore (pending.foldl Peer.store peer) := by
  induction pending generalizing peer with
  | nil => exact store
  | cons key rest ih =>
    obtain ⟨earlier, sorted⟩ := List.pairwise_cons.mp sorted
    simp only [List.length_cons] at room
    have larger := store.size_store key
    refine ih (store.store (fun found => newest found key List.mem_cons_self) (passed key List.mem_cons_self) (by omega))
      sorted ?_ (fun other member => passed other (List.mem_cons_of_mem _ member)) (by omega)
    intro id old found other member
    rw [lookup_store] at found
    split at found
    next same => exact same ▸ earlier other member
    · exact newest found other (List.mem_cons_of_mem _ member)

/-! ### What a committed offer does to the store -/

section Committed

variable {peer : Peer S} {active : Active S} {id : KeyId} {pending : List (PendingKey S)}

theorem committed_eq (peer : Peer S) (active : Active S) (fits : pending.length ≤ maxSkippedKeys) :
    ∃ last, Drops peer last ∧ last.order.size + pending.length ≤ maxSkippedKeys ∧
      peer.evict pending.length peer.order.size = (.ok (), last) ∧
      peer.committed active pending = pending.foldl store { last with active } := by
  obtain ⟨last, evicted, drops, room⟩ := evict_ok fits (Nat.le_refl peer.order.size)
  refine ⟨last, drops, room, evicted, ?_⟩
  rw [committed, evicted, storeAll_active]

theorem committed_frame (peer : Peer S) (active : Active S) (fits : pending.length ≤ maxSkippedKeys) :
    (peer.committed active pending).active = active ∧
      (peer.committed active pending).nextOrder = peer.nextOrder + pending.length ∧
      (peer.committed active pending).lastNow = peer.lastNow ∧
      (peer.committed active pending).retention = peer.retention := by
  obtain ⟨last, drops, -, -, shape⟩ := committed_eq peer active fits
  obtain ⟨-, order, clock, retention⟩ := drops.frame
  rw [shape]
  obtain ⟨sameActive, newOrder, sameClock, sameRetention⟩ := storeAll_frame pending { last with active }
  exact ⟨sameActive, newOrder.trans (by rw [order]), sameClock.trans clock, sameRetention.trans retention⟩

theorem stored_precedes_pending (between : Between peer.active active id pending) (store : KeyStore peer) {other : KeyId}
    {old} (found : peer.lookup other = some old) {key} (member : key ∈ pending) :
    Precedes other key.id := by
  obtain ⟨receive, received, order⟩ := store.passed found
  have fresh := between.fresh key member
  rcases Precedes.total other key.id with before | same | after
  · exact before
  · exact absurd ⟨receive, received, same ▸ order⟩ fresh
  · exact absurd ⟨receive, received, after.trans order⟩ fresh

theorem KeyStore.committed (store : KeyStore peer) (between : Between peer.active active id pending)
    (fits : pending.length ≤ maxSkippedKeys) : KeyStore (peer.committed active pending) := by
  obtain ⟨last, drops, room, -, shape⟩ := committed_eq peer active fits
  obtain ⟨kept, subset, -⟩ := drops.keeps_newest store
  rw [shape]
  refine (kept.withActive active ?_).storeAll between.sorted ?_ (fun key member => between.pending_passed member) room
  · intro other key found
    exact between.kept other (store.passed (subset found))
  · intro other old found key member
    exact stored_precedes_pending between store (subset found) member

theorem lookup_committed (between : Between peer.active active id pending) (store : KeyStore peer)
    (fits : pending.length ≤ maxSkippedKeys) {other : KeyId} {key : Skipped S}
    (found : (peer.committed active pending).lookup other = some key) :
    peer.lookup other = some key ∨ ∃ skipped ∈ pending, skipped.id = other ∧ key.secret = skipped.secret ∧
      key.expires = peer.retention.deadline peer.lastNow := by
  obtain ⟨last, drops, -, -, shape⟩ := committed_eq peer active fits
  obtain ⟨-, subset, -⟩ := drops.keeps_newest store
  obtain ⟨-, -, clock, retention⟩ := drops.frame
  rw [shape] at found
  by_cases member : ∃ skipped ∈ pending, skipped.id = other
  · obtain ⟨skipped, member, rfl⟩ := member
    obtain ⟨order, present⟩ := lookup_storeAll_mem between.sorted member { last with active }
    rw [present] at found
    cases found
    exact .inr ⟨skipped, member, rfl, rfl, by rw [← clock, ← retention]⟩
  · have absent : ∀ skipped ∈ pending, skipped.id ≠ other := fun skipped inPending same =>
      member ⟨skipped, inPending, same⟩
    rw [lookup_storeAll_absent absent] at found
    exact .inl (subset found)

end Committed

end Peer
end StogasVerifier.Channel
