import StogasVerifier.Proofs.MessageOrder

/-! Both directions of a session at once, and what a delivered message does to
the receiver's stored keys: the keys that it skips are stored, and a key stored
before survives as long as few enough keys follow it. -/

namespace StogasVerifier.Channel
open Std Lib

variable {S : Suite}

namespace Peer

section Eviction

variable {index : KeyId → Nat}

def Indexed (index : KeyId → Nat) (peer : Peer S) : Prop :=
  ∀ a b older newer, peer.lookup a = some older → peer.lookup b = some newer → Precedes a b → index a < index b

private theorem removed_found {peer : Peer S} {id other : KeyId} {order : Nat} {key}
    (found : (peer.remove id order).lookup other = some key) : id ≠ other ∧ peer.lookup other = some key := by
  rw [lookup_remove] at found
  split at found
  · cases found
  next different => exact ⟨different, found⟩

private theorem Indexed.remove {peer : Peer S} (indexed : Indexed index peer) (id : KeyId) (order : Nat) :
    Indexed index (peer.remove id order) := by
  intro a b older newer first second before
  exact indexed a b older newer (removed_found first).2 (removed_found second).2 before

private theorem Indexed.oldest {peer : Peer S} (indexed : Indexed index peer) (store : KeyStore peer) {order : Nat} {id other : KeyId}
    {key} (first : firstKeyValue peer.order = some (order, id)) (found : peer.lookup other = some key)
    (different : id ≠ other) : index id < index other := by
  have entry := firstKeyValue_found first
  have position := store.filed found
  obtain ⟨oldest, present, -⟩ := store.listed entry
  rcases Nat.lt_or_eq_of_le (firstKeyValue_least first position) with earlier | equal
  · exact indexed _ _ _ _ present found (store.sorted entry position earlier)
  · rw [equal, position] at entry
    exact absurd (Option.some.inj entry).symm different

private theorem KeyStore.size_le {peer : Peer S} (store : KeyStore peer) (indexed : Indexed index peer) {keep : Finset Nat}
    (inside : ∀ {id key}, peer.lookup id = some key → index id ∈ keep) : peer.order.size ≤ keep.card := by
  induction size : peer.order.size generalizing peer keep with
  | zero => exact Nat.zero_le _
  | succ count ih =>
    cases first : firstKeyValue peer.order with
    | none =>
      rw [firstKeyValue_none first] at size
      cases size
    | some entry =>
      obtain ⟨order, id⟩ := entry
      have smaller := remove_size first
      obtain ⟨key, present, -⟩ := store.listed (firstKeyValue_found first)
      have rest : count ≤ (keep.erase (index id)).card := by
        apply ih (store.remove (firstKeyValue_found first)) (indexed.remove id order)
        · intro other stored found
          obtain ⟨different, earlier⟩ := removed_found found
          exact Finset.mem_erase.mpr ⟨(indexed.oldest store first earlier different).ne', inside earlier⟩
        · omega
      rw [Finset.card_erase_of_mem (inside present)] at rest
      have positive := Finset.card_pos.mpr ⟨_, inside present⟩
      omega

theorem evict_keeps {peer : Peer S} (store : KeyStore peer) (indexed : Indexed index peer) {id : KeyId} {key : Skipped S}
    (found : peer.lookup id = some key) {keep : Finset Nat}
    (inside : ∀ {other stored}, peer.lookup other = some stored → index id ≤ index other → index other ∈ keep)
    {incoming : Nat} (room : keep.card + incoming ≤ maxSkippedKeys) (count : Nat) :
    (peer.evict incoming count).2.lookup id = some key := by
  induction count generalizing peer with
  | zero =>
    rw [evict]
    split <;> exact found
  | succ count ih =>
    rw [evict]
    split
    next full =>
      split
      · exact found
      next order oldest first =>
        have different : oldest ≠ id := by
          intro same
          subst same
          have all : peer.order.size ≤ keep.card := store.size_le indexed fun {other stored} present => by
            by_cases here : oldest = other
            · exact inside present (by rw [here])
            · exact inside present (indexed.oldest store first present here).le
          omega
        apply ih (store.remove (firstKeyValue_found first)) (indexed.remove oldest order)
        · rw [lookup_remove, if_neg different]
          exact found
        · intro other stored present
          exact inside (removed_found present).2
    · exact found

end Eviction

section Committed

variable {peer : Peer S} {active : Active S} {id : KeyId} {pending : List (PendingKey S)}

theorem committed_keeps (between : Between peer.active active id pending) (store : KeyStore peer)
    (fits : pending.length ≤ maxSkippedKeys) {other : KeyId} {key} (found : peer.lookup other = some key)
    (kept : (peer.evict pending.length peer.order.size).2.lookup other = some key) :
    (peer.committed active pending).lookup other = some key := by
  obtain ⟨last, -, -, evicted, shape⟩ := committed_eq peer active fits
  rw [evicted] at kept
  rw [shape, lookup_storeAll_absent]
  · exact kept
  · intro skipped member
    exact (stored_precedes_pending between store found member).ne.symm

theorem committed_stores (between : Between peer.active active id pending) (fits : pending.length ≤ maxSkippedKeys)
    {skipped} (member : skipped ∈ pending) :
    ∃ key, (peer.committed active pending).lookup skipped.id = some key := by
  obtain ⟨last, -, -, -, shape⟩ := committed_eq peer active fits
  obtain ⟨order, found⟩ := lookup_storeAll_mem between.sorted member { last with active }
  exact ⟨_, by rw [shape]; exact found⟩

end Committed
end Peer

theorem Exchange.Agrees.indexOf {exchange longer : Exchange S} {side : Side} {turns : Nat} (agrees : Exchange.Agrees turns exchange longer)
    {id : KeyId} (started : side.receives id.1 < turns) : longer.indexOf side id = exchange.indexOf side id := by
  rw [Exchange.indexOf, Exchange.indexOf, agrees.offset started]

theorem Incoming.reached_congr {exchange longer : Exchange S} {side : Side} {turns total : Nat} {peer : Peer S}
    (incoming : Incoming exchange side turns peer total) (agrees : Exchange.Agrees turns exchange longer) :
    longer.reached side peer.active = exchange.reached side peer.active := by
  cases received : peer.active.receive with
  | none => simp [Exchange.reached, received]
  | some receive =>
    have position := (incoming.current received).2.2
    simp only [Exchange.reached, received, Option.elim_some]
    exact agrees.indexOf position.started

structure Flow (exchange : Exchange S) (id : S.Bytes) (turns : Side → Nat) (peers : Side → Peer S)
    (sent : Side → List (Stream S)) : Prop where
  paired : Paired exchange turns peers
  outgoing : ∀ side, Outgoing exchange id side (turns side) (peers side).active (sent side)
  incoming : ∀ side, Incoming exchange side (turns side.other) (peers side) (sent side.other).length

namespace Flow

variable {exchange : Exchange S} {id : S.Bytes} {turns : Side → Nat} {peers : Side → Peer S} {sent : Side → List (Stream S)}
  {side : Side}

theorem store (flow : Flow exchange id turns peers sent) (side : Side) : (peers side).KeyStore :=
  (flow.paired.placed side).follows.store

theorem tracks (flow : Flow exchange id turns peers sent) (side : Side) :
    Tracks side exchange.script (turns side) (peers side).active :=
  (flow.paired.placed side).follows.tracks

theorem shrink (flow : Flow exchange id turns peers sent) {next : Peer S} (placed : Placed exchange side (turns side) next)
    (active : next.active = (peers side).active) (orders : next.nextOrder = (peers side).nextOrder)
    (subset : ∀ {id key}, next.lookup id = some key → (peers side).lookup id = some key) :
    Flow exchange id turns (Function.update peers side next) sent := by
  refine ⟨flow.paired.setStored placed, fun other => ?_, fun other => ?_⟩
  · by_cases same : other = side
    · subst same
      rw [Function.update_self, active]
      exact flow.outgoing other
    · rw [Function.update_of_ne same]
      exact flow.outgoing other
  · by_cases same : other = side
    · subst same
      rw [Function.update_self]
      exact (flow.incoming other).stay (by rw [active]) orders subset
    · rw [Function.update_of_ne same]
      exact flow.incoming other

private theorem idle (exchange : Exchange S) (id : S.Bytes) (side : Side) (root : S.Secret) (localKeys : Option (KeyPair S))
    (remote : Option (PublicKeys S)) (client : Bool) :
    Outgoing exchange id side 0 (Peer.new root localKeys remote client).active [] ∧
      Incoming exchange side 0 (Peer.new root localKeys remote client) 0 := by
  refine ⟨⟨nofun, nofun, fun _ => ?_, nofun⟩, ⟨Nat.le_refl _, nofun, Nat.le_refl _, ?_⟩⟩
  · cases side <;> exact ⟨rfl, rfl⟩
  · intro slot key found
    simp [Peer.new, Peer.lookup] at found

theorem initial {root seed : S.Secret} (initiator : Peer.initiator root (KeyPair.fromSeed seed).publicKeys = .ok (peers .initiator))
    (responder : peers .responder = Peer.responder root (KeyPair.fromSeed seed)) (id : S.Bytes) :
    ∃ exchange, Flow exchange id (fun _ => 0) peers (fun _ => []) := by
  obtain ⟨exchange, paired⟩ := Paired.initial initiator responder
  simp only [Peer.initiator, bind_ok, pure_ok] at initiator
  obtain ⟨-, -, first⟩ := initiator
  have new : ∀ side, ∃ localKeys remote client, peers side = Peer.new root localKeys remote client := by
    intro side
    cases side with
    | initiator => exact ⟨_, _, _, first.symm⟩
    | responder => exact ⟨_, _, _, responder⟩
  refine ⟨exchange, paired, fun side => ?_, fun side => ?_⟩
  · obtain ⟨localKeys, remote, client, same⟩ := new side
    rw [same]
    exact (idle exchange id side root localKeys remote client).1
  · obtain ⟨localKeys, remote, client, same⟩ := new side
    rw [same]
    exact (idle exchange id side root localKeys remote client).2

theorem expire (flow : Flow exchange id turns peers sent) (side : Side) (now : Nat) :
    Flow exchange id turns (Function.update peers side ((peers side).expire now)) sent := by
  obtain ⟨active, orders, -⟩ := Peer.expire_frame (peers side) now
  exact flow.shrink ((flow.paired.placed side).expire now) active orders (Peer.expire_subset (flow.store side) now)

theorem discardDelayed (flow : Flow exchange id turns peers sent) (side : Side) :
    Flow exchange id turns (Function.update peers side (peers side).discardDelayed) sent :=
  flow.shrink (flow.paired.placed side).discardDelayed rfl rfl fun found => by simp [Peer.discardDelayed, Peer.lookup] at found

/-- What was sent before keeps its place and its keys. -/
structure Grows (exchange longer : Exchange S) (turns later : Side → Nat) (sent : Side → List (Stream S)) : Prop where
  positions : ∀ {side index turn number}, index < (sent side).length → Position exchange side (turns side) index turn number →
    Position longer side (later side) index turn number
  agrees : ∀ side, Exchange.Agrees (turns side) exchange longer

theorem send (flow : Flow exchange id turns peers sent) {request : Nat} {entropy : Entropy S} {key : SendKey S} {active : Active S}
    (done : (peers side).active.sendWith request entropy = .ok (key, active)) :
    ∃ longer turn number, Paired.Sends exchange longer turns peers side request key active turn number ∧
      Grows exchange longer turns (Function.update turns side (turn + 1)) sent ∧
      Position longer side (turn + 1) (sent side).length turn number ∧
      Flow longer id (Function.update turns side (turn + 1)) (Function.update peers side { peers side with active })
        (Function.update sent side
          (sent side ++ [⟨request, Records.new key.secret id request side.direction key.header⟩])) := by
  obtain ⟨longer, turn, number, sends⟩ := flow.paired.send done
  have away := side.other_ne
  have theirs := sends.agrees side.other
  refine ⟨longer, turn, number, sends, ⟨fun {other index turn' number'} below position => ?_, sends.agrees⟩,
    (flow.outgoing side).newest sends, sends.paired, fun other => ?_, fun other => ?_⟩
  · by_cases same : other = side
    · subst same
      rw [Function.update_self]
      exact (flow.outgoing other).widen sends position below
    · rw [Function.update_of_ne same]
      exact position.congr (sends.agrees other) (Nat.le_refl _)
  · by_cases same : other = side
    · subst same
      simp only [Function.update_self]
      exact (flow.outgoing other).send sends
    · simp only [Function.update_of_ne same]
      exact (flow.outgoing other).congr (flow.tracks other) (sends.agrees other)
  · by_cases same : other = side
    · subst same
      simp only [Function.update_self, Function.update_of_ne away]
      have incoming := flow.incoming other
      refine (incoming.move (flow.store other) (Nat.le_refl _) (incoming.reached_congr theirs)
        (fun started => theirs.indexOf started) ?_).stay sends.receive rfl fun found => found
      intro _ _ _ _ position
      exact position.congr theirs (Nat.le_refl _)
    · obtain rfl := Side.eq_other same
      have grown := sends.agrees side
      simp only [Function.update_of_ne same, Side.other_other, Function.update_self]
      have incoming := flow.incoming side.other
      rw [Side.other_other] at incoming
      refine incoming.move (flow.store _) (by simp) (incoming.reached_congr grown) (fun started => grown.indexOf started) ?_
      intro index turn' number' below position
      rw [Side.other_other] at position ⊢
      exact (flow.outgoing side).widen sends position below

/-- What a message at this index does to its receiver. -/
structure Takes (exchange : Exchange S) (side : Side) (turns : Nat) (before after : Peer S) (index : Nat) : Prop where
  reached : exchange.reached side after.active = max (exchange.reached side before.active) (index + 1)
  near : index ≤ exchange.reached side before.active + maxSkippedKeys
  frame : after.lastNow = before.lastNow ∧ after.retention = before.retention
  lookup : ∀ {other key}, after.lookup other = some key → exchange.indexOf side other ≠ index ∧
    (before.lookup other = some key ∨
      exchange.reached side before.active ≤ exchange.indexOf side other ∧ exchange.indexOf side other < index ∧
        key.expires = before.retention.deadline before.lastNow)
  keeps : ∀ {other key} (keep : Finset Nat), before.lookup other = some key → exchange.indexOf side other ≠ index →
    (exchange.reached side before.active ≤ index → keep.card + (index - exchange.reached side before.active) ≤ maxSkippedKeys ∧
      ∀ {newer stored}, before.lookup newer = some stored → exchange.indexOf side other ≤ exchange.indexOf side newer →
        exchange.indexOf side newer ∈ keep) → after.lookup other = some key
  stores : ∀ (other : KeyId), exchange.reached side before.active ≤ exchange.indexOf side other → exchange.indexOf side other < index →
    Position exchange side.other turns (exchange.indexOf side other) (side.receives other.1) other.2 →
      ∃ key, after.lookup other = some key

section Receive

variable {stream : Stream S} {index turn number : Nat} {key : SendKey S} {offer : Peer.Offer S}

private theorem takes_stored (flow : Flow exchange id turns peers sent) (reached : exchange.indexOf side offer.id = index) {used}
    (found : (peers side).lookup offer.id = some used) (after : offer.after = (peers side).remove offer.id used.order) :
    Takes exchange side (turns side.other) (peers side) offer.after index := by
  have passed := (flow.incoming side).stored_lt (flow.store side) found
  rw [reached] at passed
  have lookup : ∀ other, offer.after.lookup other = if offer.id = other then none else (peers side).lookup other := by
    intro other
    rw [after, Peer.lookup_remove]
  refine ⟨?_, by omega, by rw [after]; exact ⟨rfl, rfl⟩, ?_, ?_, ?_⟩
  · rw [after]
    exact (Nat.max_eq_left passed).symm
  · intro other key present
    rw [lookup] at present
    split at present
    · cases present
    next different =>
      refine ⟨fun same => different ?_, .inl present⟩
      have here := (flow.incoming side).stored found
      have there := (flow.incoming side).stored present
      rw [reached] at here
      rw [same] at there
      obtain ⟨turn, number⟩ := here.unique there
      exact Prod.ext (Side.receives_injective turn) number
  · intro other key keep present different _
    rw [lookup, if_neg (fun same => different (by rw [← same, reached]))]
    exact present
  · intro other low high
    omega

/-- The receive chain moves past the message, storing the keys that it skips. -/
private theorem takes_chain (flow : Flow exchange id turns peers sent) (inside : index < (sent side.other).length)
    (position : Position exchange side.other (turns side.other) index turn number) {header : Header S} {next : Bool}
    {active : Active S} {pending : List (PendingKey S)} (same : header = exchange.header turn number)
    (derived : (peers side).active.receiveKey header next [] = .ok (offer.key, active, pending))
    (between : Between (peers side).active active offer.id pending) (numbered : offer.id.2 = number)
    (turned : side.receives offer.id.1 = turn) (after : offer.after = (peers side).committed active pending) :
    Takes exchange side (turns side.other) (peers side) offer.after index ∧
      Incoming exchange side (turns side.other) offer.after (sent side.other).length := by
  have store := flow.store side
  have incoming := flow.incoming side
  have fits := Peer.receiveKey_fits derived
  obtain ⟨frame, ordered, clock, retention⟩ := Peer.committed_frame (peers side) active fits
  obtain ⟨epoch, count, skips, shape, length, members, receive, received, entered⟩ := Active.receiveKey_skips derived
  obtain ⟨current, present, here, stepped⟩ := between.position
  cases received.symm.trans present
  subst same
  have reaches : side.receives epoch = turn := by rw [← entered, ← here, turned]
  obtain ⟨gap, places⟩ := incoming.skips_iff position shape reaches
  have reached : exchange.reached side offer.after.active = index + 1 := by
    rw [after, frame, Exchange.reached, received, Option.elim_some, Exchange.indexOf, position.index, stepped, numbered,
      ← here, turned]
    rfl
  have recent : epoch ≤ index := by
    cases shape with
    | current before => have := (incoming.current before).2.1; omega
    | first => exact Nat.zero_le _
    | next before => have := (incoming.current before).2.1; omega
  have old : ∀ {other key}, (peers side).lookup other = some key → exchange.indexOf side other < index := by
    intro other key found
    have := incoming.stored_lt store found
    omega
  have origin : ∀ {other key}, offer.after.lookup other = some key → (peers side).lookup other = some key ∨
      Position exchange side.other (turns side.other) (exchange.indexOf side other) (side.receives other.1) other.2 ∧
        exchange.reached side (peers side).active ≤ exchange.indexOf side other ∧ exchange.indexOf side other < index ∧
        key.expires = (peers side).retention.deadline (peers side).lastNow := by
    intro other key found
    rw [after] at found
    rcases Peer.lookup_committed between store fits found with earlier | ⟨skipped, member, same, -, expires⟩
    · exact .inl earlier
    · obtain ⟨place, low, high⟩ := (places other).mp ((members other).mp ⟨skipped, member, same⟩)
      exact .inr ⟨place, low, high, expires⟩
  refine ⟨⟨?_, by omega, by rw [after]; exact ⟨clock, retention⟩, ?_, ?_, ?_⟩, ⟨by rw [reached]; exact inside, ?_, ?_, ?_⟩⟩
  · rw [reached]
    omega
  · intro other key found
    rcases origin found with earlier | ⟨-, low, high, expires⟩
    · exact ⟨(old earlier).ne, .inl earlier⟩
    · exact ⟨high.ne, .inr ⟨low, high, expires⟩⟩
  · intro other key keep found _ crowded
    obtain ⟨room, newer⟩ := crowded (by omega)
    rw [after]
    apply Peer.committed_keeps between store fits found
    apply Peer.evict_keeps store ?_ found newer
    · rw [length]
      omega
    · intro a b older newer first second before
      have order := (incoming.stored first).lt_iff (incoming.stored second)
      simp only [Precedes, Side.receives] at before order
      omega
  · intro other low high place
    obtain ⟨skipped, member, rfl⟩ := (members other).mpr ((places other).mpr ⟨place, low, high⟩)
    rw [after]
    exact Peer.committed_stores between fits member
  · intro other found
    rw [after, frame] at found
    cases received.symm.trans found
    rw [reached, entered, reaches, stepped, numbered]
    exact ⟨Nat.succ_pos _, Nat.lt_succ_of_le recent, position⟩
  · have orders := incoming.orders
    rw [reached, after, ordered, length]
    omega
  · intro other key found
    rcases origin found with earlier | ⟨place, -⟩
    · exact incoming.stored earlier
    · exact place

theorem receive (flow : Flow exchange id turns peers sent) (side : Side) (ideal : S.Ideal) (inside : index < (sent side.other).length)
    (position : Position exchange side.other (turns side.other) index turn number) {request : Nat}
    (message : Paired.Message exchange turn number request key) (offered : (peers side).offer key.header request = .ok offer) :
    offer.key = key.secret ∧ Takes exchange side (turns side.other) (peers side) offer.after index ∧
      ∃ later, turn < later ∧ Paired.Moves (peers side).active offer.after.active (turns side) later turn ∧
        Grows exchange exchange turns (Function.update turns side later) sent ∧
        Flow exchange id (Function.update turns side later) (Function.update peers side offer.after) sent := by
  obtain ⟨secret, numbered, turned, later, below, moves, paired⟩ := flow.paired.offered ideal message position.started offered
  have genuine := message.genuine (flow.paired.joined side.other turn position.started)
  have located : exchange.indexOf side offer.id = index := by rw [Exchange.indexOf, turned, numbered, position.index]
  have taken : Takes exchange side (turns side.other) (peers side) offer.after index ∧
      Incoming exchange side (turns side.other) offer.after (sent side.other).length := by
    cases Peer.offer_cases offered with
    | @stored header used opened sameNumber found released quiet after =>
      obtain ⟨found, -⟩ := Peer.stored_some.mp found
      refine ⟨flow.takes_stored located found after, (flow.incoming side).stay (by rw [after]; rfl) (by rw [after]; rfl) ?_⟩
      intro other kept present
      rw [after, Peer.lookup_remove] at present
      split at present
      · cases present
      · exact present
    | @chain header next active pending opened counted derived room sameNumber between stored after =>
      have same : header = exchange.header turn number := by
        have route := (flow.paired.placed side).follows.opened genuine ideal opened
        cases next <;> simp_all
      exact flow.takes_chain inside position same derived between numbered turned after
  have foreign : later = turns side ∨ later = turns side + 1 ∧ ¬ side.Owns (turns side) := by
    obtain ⟨same, -⟩ | ⟨same, entering, -⟩ := moves
    · exact .inl same
    · refine .inr ⟨same, ?_⟩
      rw [entering]
      exact (side.owns_other turn).mp position.owned
  have widen : ∀ {place turn' number'}, Position exchange side (turns side) place turn' number' →
      Position exchange side later place turn' number' := by
    intro place turn' number' earlier
    obtain rfl | ⟨rfl, theirs⟩ := foreign
    · exact earlier
    · exact earlier.foreign theirs
  refine ⟨secret, taken.1, later, below, moves, ⟨fun {other place turn' number'} _ earlier => ?_, fun _ => .refl _ _⟩, paired,
    fun other => ?_, fun other => ?_⟩
  · by_cases mine : other = side
    · subst mine
      rw [Function.update_self]
      exact widen earlier
    · rw [Function.update_of_ne mine]
      exact earlier
  · by_cases mine : other = side
    · subst mine
      simp only [Function.update_self]
      obtain ⟨rfl, receive, active⟩ | ⟨rfl, entering, header, dh, kem, epoch, receive, active⟩ := moves
      · exact (flow.outgoing other).frame (by rw [active]) (by rw [active])
      · obtain same | ⟨-, theirs⟩ := foreign
        · omega
        · exact (flow.outgoing other).turned (flow.tracks other) theirs (by rw [active]; rfl) (by rw [active]; rfl)
    · simp only [Function.update_of_ne mine]
      exact flow.outgoing other
  · by_cases mine : other = side
    · subst mine
      simp only [Function.update_self, Function.update_of_ne other.other_ne]
      exact taken.2
    · obtain rfl := Side.eq_other mine
      have incoming := flow.incoming side.other
      simp only [Function.update_of_ne mine, Side.other_other, Function.update_self] at incoming ⊢
      refine incoming.move (flow.store _) (Nat.le_refl _) rfl (fun _ => rfl) ?_
      intro place turn' number' _ earlier
      rw [Side.other_other] at earlier ⊢
      exact widen earlier

end Receive
end Flow
end StogasVerifier.Channel
