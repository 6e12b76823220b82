import StogasVerifier.Proofs.PairExchange
import StogasVerifier.Proofs.RecordStart

/-! The messages of one direction in the order they were sent, across turns. A
turn's header announces how many messages the turn before it had, so a receiver
can place every position of a session on one line. -/

namespace StogasVerifier.Channel
open Std Lib

variable {S : Suite}

def Exchange.offset (exchange : Exchange S) : Nat → Nat
  | 0 | 1 => 0
  | turn + 2 => exchange.offset turn + exchange.previous (turn + 2)

namespace Exchange

variable {exchange longer : Exchange S}

theorem offset_le (exchange : Exchange S) (turn count : Nat) : exchange.offset turn ≤ exchange.offset (turn + 2 * count) := by
  induction count with
  | zero => exact Nat.le_refl _
  | succ count ih =>
    apply ih.trans
    rw [show turn + 2 * (count + 1) = turn + 2 * count + 2 by omega, offset]
    exact Nat.le_add_right _ _

theorem Agrees.offset {turns turn : Nat} (agrees : Agrees turns exchange longer) (below : turn < turns) :
    exchange.offset turn = longer.offset turn := by
  induction turn using Nat.twoStepInduction with
  | zero => rfl
  | one => rfl
  | more turn ih _ => rw [Exchange.offset, Exchange.offset, ih (by omega), agrees.previous _ below]

theorem offset_two_le (exchange : Exchange S) {turn : Nat} (late : 2 ≤ turn) :
    exchange.offset turn = exchange.offset (turn - 2) + exchange.previous turn := by
  obtain ⟨earlier, rfl⟩ := Nat.exists_eq_add_of_le late
  rw [Nat.add_comm, Exchange.offset, Nat.add_sub_cancel]

end Exchange

/-- A message position of a side that has gone through this many turns, and its
index among all messages of the side. -/
structure Position (exchange : Exchange S) (side : Side) (turns index turn number : Nat) : Prop where
  owned : side.Owns turn
  started : turn < turns
  index : index = exchange.offset turn + number
  inside : turn + 2 < turns → number < exchange.previous (turn + 2)

namespace Position

variable {exchange longer : Exchange S} {side : Side} {turns index turn number index' turn' number' : Nat}

theorem congr {bound : Nat} (position : Position exchange side turns index turn number)
    (agrees : Exchange.Agrees bound exchange longer) (enough : turns ≤ bound) :
    Position longer side turns index turn number := by
  refine ⟨position.owned, position.started, ?_, fun later => ?_⟩
  · rw [position.index, agrees.offset (Nat.lt_of_lt_of_le position.started enough)]
  · rw [← agrees.previous _ (Nat.lt_of_lt_of_le later enough)]
    exact position.inside later

theorem foreign (position : Position exchange side turns index turn number) (theirs : ¬ side.Owns turns) :
    Position exchange side (turns + 1) index turn number := by
  refine ⟨position.owned, Nat.lt_succ_of_lt position.started, position.index, fun later => position.inside ?_⟩
  have owned := position.owned
  unfold Side.Owns at theirs owned
  omega

theorem next (position : Position exchange side turns index turn number)
    (below : 2 ≤ turns → index < exchange.offset (turns - 2) + exchange.previous turns) :
    Position exchange side (turns + 1) index turn number := by
  refine ⟨position.owned, Nat.lt_succ_of_lt position.started, position.index, fun later => ?_⟩
  rcases Nat.lt_succ_iff_lt_or_eq.mp later with earlier | last
  · exact position.inside earlier
  · have inside := below (by omega)
    rw [← last, Nat.add_sub_cancel, position.index] at inside
    omega

theorem lt_offset (position : Position exchange side turns index turn number) (owned' : side.Owns turn') (before : turn < turn')
    (started' : turn' < turns) : index < exchange.offset turn' := by
  have owned := position.owned
  unfold Side.Owns at owned owned'
  obtain ⟨count, rfl⟩ : ∃ count, turn' = turn + 2 + 2 * count := ⟨(turn' - turn - 2) / 2, by omega⟩
  have inside := position.inside (by omega)
  have grows := exchange.offset_le (turn + 2) count
  rw [position.index]
  rw [Exchange.offset] at grows
  omega

theorem lt_of_turn (first : Position exchange side turns index turn number)
    (second : Position exchange side turns index' turn' number') (before : turn < turn') : index < index' := by
  have ahead := first.lt_offset second.owned before second.started
  rw [second.index]
  omega

theorem lt_iff (first : Position exchange side turns index turn number)
    (second : Position exchange side turns index' turn' number') :
    index < index' ↔ turn < turn' ∨ turn = turn' ∧ number < number' := by
  rcases Nat.lt_trichotomy turn turn' with before | rfl | after
  · simp [before, first.lt_of_turn second before]
  · rw [first.index, second.index]
    omega
  · have later := second.lt_of_turn first after
    omega

theorem unique (first : Position exchange side turns index turn number)
    (second : Position exchange side turns index turn' number') : turn = turn' ∧ number = number' := by
  have forward := first.lt_iff second
  have backward := second.lt_iff first
  omega

end Position

def Side.direction : Side → Direction
  | .initiator => .request
  | .responder => .response

/-- The number of a request, and the record state that seals its first record in
one direction. -/
structure Stream (S : Suite) where
  number : Nat
  records : Records S

def Stream.Starts (stream : Stream S) (kind : Kind) (content bytes : S.Bytes) : Prop :=
  ∃ after, stream.records.sealing kind content = .ok (bytes, after)

structure Outgoing (exchange : Exchange S) (id : S.Bytes) (side : Side) (turns : Nat) (active : Active S)
    (sent : List (Stream S)) : Prop where
  first : ∀ turn < turns, side.Owns turn → turn < 2 → exchange.previous turn = 0
  sending : ∀ {sending}, active.send = some sending → sent.length = exchange.offset (turns - 1) + sending.chain.count
  resting : active.send = none →
    if side.nextOwn turns < 2 then sent.length = 0 ∧ active.previousSent = 0
    else sent.length = exchange.offset (side.nextOwn turns - 2) + active.previousSent
  messages : ∀ {index : Nat} {stream : Stream S}, sent[index]? = some stream → ∃ turn number key,
    Position exchange side turns index turn number ∧ Paired.Message exchange turn number stream.number key ∧
      stream.records = Records.new key.secret id stream.number side.direction key.header

namespace Outgoing

variable {exchange longer : Exchange S} {id : S.Bytes} {side : Side} {turns : Nat} {active after : Active S} {sent : List (Stream S)}

private theorem nextOwn_lt (side : Side) (turns : Nat) : side.nextOwn turns < turns + 2 := by
  unfold Side.nextOwn
  omega

theorem congr (outgoing : Outgoing exchange id side turns active sent) (tracks : Tracks side exchange.script turns active)
    (agrees : Exchange.Agrees turns exchange longer) : Outgoing longer id side turns active sent := by
  refine ⟨?_, ?_, ?_, ?_⟩
  · intro turn below owned early
    rw [← agrees.previous turn below]
    exact outgoing.first turn below owned early
  · intro sending present
    have positive := (tracks.sends present).1
    rw [← agrees.offset (by omega)]
    exact outgoing.sending present
  · intro silent
    have rest := outgoing.resting silent
    have near := nextOwn_lt side turns
    split at rest
    next early => rwa [if_pos early]
    next late => rwa [if_neg late, ← agrees.offset (by omega)]
  · intro index stream found
    obtain ⟨turn, number, key, position, message, records⟩ := outgoing.messages found
    exact ⟨turn, number, key, position.congr agrees (Nat.le_refl _), message.congr agrees position.started, records⟩

theorem frame (outgoing : Outgoing exchange id side turns active sent) (send : after.send = active.send)
    (previous : after.previousSent = active.previousSent) : Outgoing exchange id side turns after sent :=
  ⟨outgoing.first, by rw [send]; exact outgoing.sending, by rw [send, previous]; exact outgoing.resting, outgoing.messages⟩

theorem turned (outgoing : Outgoing exchange id side turns active sent) (tracks : Tracks side exchange.script turns active)
    (foreign : ¬ side.Owns turns) (silent : after.send = none)
    (previous : after.previousSent = active.send.elim 0 fun sending => sending.chain.count) :
    Outgoing exchange id side (turns + 1) after sent := by
  have owned : side.Owns (turns + 1) := (side.owns_succ turns).mpr foreign
  refine ⟨?_, by rw [silent]; nofun, fun _ => ?_, ?_⟩
  · intro turn below mine early
    rcases Nat.lt_succ_iff_lt_or_eq.mp below with earlier | rfl
    · exact outgoing.first turn earlier mine early
    · exact absurd mine foreign
  · rw [Side.nextOwn_owned owned, previous]
    cases present : active.send with
    | some sending =>
      have positive := (tracks.sends present).1
      rw [if_neg (by omega), Option.elim_some, outgoing.sending present]
      rfl
    | none =>
      have start : turns = 0 := by
        rcases tracks.idle present with start | theirs
        · exact start
        · by_contra late
          exact theirs ((side.owns_pred late).mpr foreign)
      subst start
      have rest := outgoing.resting present
      rw [Side.nextOwn_foreign foreign, if_pos (by decide)] at rest
      rw [if_pos (by decide), Option.elim_none]
      exact ⟨rest.1, rfl⟩
  · intro index stream found
    obtain ⟨turn, number, key, position, rest⟩ := outgoing.messages found
    exact ⟨turn, number, key, position.foreign foreign, rest⟩

section Send

variable {count : Side → Nat} {peers : Side → Peer S} {request : Nat} {key : SendKey S} {turn number : Nat}
  (outgoing : Outgoing exchange id side (count side) (peers side).active sent)
  (sends : Paired.Sends exchange longer count peers side request key after turn number)
include outgoing sends

theorem widen {index turn' number' : Nat} (position : Position exchange side (count side) index turn' number')
    (below : index < sent.length) : Position longer side (turn + 1) index turn' number' := by
  have kept := position.congr (sends.agrees side) (Nat.le_refl _)
  have moved := sends.moved
  cases silent : (peers side).active.send with
  | some current =>
    simp only [silent, Option.isNone_some, Bool.false_eq_true, if_false] at moved
    rwa [moved]
  | none =>
    simp only [silent, Option.isNone_none, if_true, Nat.add_right_cancel_iff] at moved
    rw [moved]
    apply kept.next
    intro late
    have rest := outgoing.resting silent
    rw [Side.nextOwn_owned (moved ▸ sends.owned), if_neg (by omega)] at rest
    rw [← (sends.agrees side).offset (show count side - 2 < count side by omega), ← moved, sends.previous silent, moved, ← rest]
    exact below

theorem newest : Position longer side (turn + 1) sent.length turn number := by
  refine ⟨sends.owned, Nat.lt_succ_self _, ?_, by omega⟩
  have moved := sends.moved
  rw [sends.numbered]
  cases silent : (peers side).active.send with
  | some current =>
    simp only [silent, Option.isNone_some, Bool.false_eq_true, if_false] at moved
    rw [outgoing.sending silent, ← moved, Nat.add_sub_cancel, (sends.agrees side).offset (by omega)]
    rfl
  | none =>
    simp only [silent, Option.isNone_none, if_true, Nat.add_right_cancel_iff] at moved
    have rest := outgoing.resting silent
    rw [Side.nextOwn_owned (moved ▸ sends.owned), ← moved] at rest
    split at rest
    next early =>
      have start : turn = 0 ∨ turn = 1 := by omega
      rcases start with rfl | rfl <;> exact rest.1
    next late =>
      have announced := longer.offset_two_le (show 2 ≤ turn by omega)
      rw [rest, announced, sends.previous silent, (sends.agrees side).offset (show turn - 2 < count side by omega)]
      rfl

theorem send : Outgoing longer id side (turn + 1) after
    (sent ++ [⟨request, Records.new key.secret id request side.direction key.header⟩]) := by
  have latest := outgoing.newest sends
  obtain ⟨sending, present, counted⟩ := sends.counted
  refine ⟨?_, ?_, by rw [present]; nofun, ?_⟩
  · intro earlier below owned early
    have moved := sends.moved
    cases silent : (peers side).active.send with
    | some current =>
      simp only [silent, Option.isNone_some, Bool.false_eq_true, if_false] at moved
      rw [← (sends.agrees side).previous earlier (by omega)]
      exact outgoing.first earlier (by omega) owned early
    | none =>
      simp only [silent, Option.isNone_none, if_true, Nat.add_right_cancel_iff] at moved
      rcases Nat.lt_succ_iff_lt_or_eq.mp below with before | rfl
      · rw [← (sends.agrees side).previous earlier (by omega)]
        exact outgoing.first earlier (by omega) owned early
      · have rest := outgoing.resting silent
        rw [Side.nextOwn_owned (moved ▸ sends.owned), ← moved, if_pos early] at rest
        rw [sends.previous silent, rest.2]
  · intro other same
    cases present.symm.trans same
    rw [List.length_append, List.length_singleton, latest.index, counted, Nat.add_sub_cancel, Nat.add_assoc]
  · intro index stream found
    rw [List.getElem?_append] at found
    split at found
    next below =>
      obtain ⟨turn', number', other, position, message, records⟩ := outgoing.messages found
      exact ⟨turn', number', other, outgoing.widen sends position below,
        message.congr (sends.agrees side) position.started, records⟩
    next beyond =>
      obtain ⟨last, rfl⟩ := List.getElem?_eq_some_iff.mp found
      rw [List.length_singleton] at last
      obtain rfl : index = sent.length := by omega
      rw [List.getElem_singleton]
      exact ⟨turn, number, key, latest, sends.message, rfl⟩

end Send
end Outgoing

namespace Exchange

def indexOf (exchange : Exchange S) (side : Side) (id : KeyId) : Nat := exchange.offset (side.receives id.1) + id.2

def reached (exchange : Exchange S) (side : Side) (active : Active S) : Nat :=
  active.receive.elim 0 fun receive => exchange.indexOf side (receive.epoch, receive.chain.count)

end Exchange

/-- A receiver on the line of messages that the other side has sent: how far its
chain is, and where its stored keys lie. -/
structure Incoming (exchange : Exchange S) (side : Side) (turns : Nat) (peer : Peer S) (total : Nat) : Prop where
  bounded : exchange.reached side peer.active ≤ total
  current : ∀ {receive}, peer.active.receive = some receive → 0 < receive.chain.count ∧
    receive.epoch < exchange.reached side peer.active ∧
    Position exchange side.other turns (exchange.reached side peer.active - 1) (side.receives receive.epoch)
      (receive.chain.count - 1)
  orders : peer.nextOrder ≤ exchange.reached side peer.active
  stored : ∀ {id key}, peer.lookup id = some key →
    Position exchange side.other turns (exchange.indexOf side id) (side.receives id.1) id.2

namespace Incoming

variable {exchange longer : Exchange S} {side : Side} {turns later total : Nat} {peer next : Peer S}

theorem reached_some (incoming : Incoming exchange side turns peer total) {receive : Receiving S}
    (received : peer.active.receive = some receive) :
    exchange.reached side peer.active = exchange.indexOf side (receive.epoch, receive.chain.count - 1) + 1 := by
  have positive := (incoming.current received).1
  simp only [Exchange.reached, received, Option.elim_some, Exchange.indexOf]
  omega

theorem passed_iff (incoming : Incoming exchange side turns peer total) {id : KeyId} {index : Nat}
    (position : Position exchange side.other turns index (side.receives id.1) id.2) :
    peer.active.Passed id ↔ index < exchange.reached side peer.active := by
  cases received : peer.active.receive with
  | none => simp [Active.Passed, Exchange.reached, received]
  | some receive =>
    obtain ⟨positive, -, last⟩ := incoming.current received
    have order := last.lt_iff position
    have reached := incoming.reached_some received
    simp only [Active.Passed, received, Option.some.injEq, exists_eq_left', Precedes]
    simp only [Side.receives] at order
    omega

theorem stored_lt (incoming : Incoming exchange side turns peer total) (store : peer.KeyStore) {id : KeyId} {key : Skipped S}
    (found : peer.lookup id = some key) : exchange.indexOf side id < exchange.reached side peer.active :=
  (incoming.passed_iff (incoming.stored found)).mp (store.passed found)

/-- Change the exchange or the other side's turns; positions and the receive
chain stay where they are. -/
theorem move (incoming : Incoming exchange side turns peer total) (store : peer.KeyStore) {more : Nat} (grows : total ≤ more)
    (reached : longer.reached side peer.active = exchange.reached side peer.active)
    (same : ∀ {id : KeyId}, side.receives id.1 < turns → longer.indexOf side id = exchange.indexOf side id)
    (widen : ∀ {index turn number}, index < total → Position exchange side.other turns index turn number →
      Position longer side.other later index turn number) : Incoming longer side later peer more := by
  have bounded := incoming.bounded
  refine ⟨by rw [reached]; omega, ?_, by rw [reached]; exact incoming.orders, ?_⟩
  · intro receive received
    obtain ⟨positive, epoch, position⟩ := incoming.current received
    rw [reached]
    exact ⟨positive, epoch, widen (by omega) position⟩
  · intro id key found
    have position := incoming.stored found
    rw [same position.started]
    exact widen (Nat.lt_of_lt_of_le (incoming.stored_lt store found) bounded) position

theorem stay (incoming : Incoming exchange side turns peer total) (receive : next.active.receive = peer.active.receive)
    (orders : next.nextOrder = peer.nextOrder) (subset : ∀ {id key}, next.lookup id = some key → peer.lookup id = some key) :
    Incoming exchange side turns next total := by
  have reached : exchange.reached side next.active = exchange.reached side peer.active := by
    simp only [Exchange.reached, receive]
  refine ⟨by rw [reached]; exact incoming.bounded, ?_, by rw [reached, orders]; exact incoming.orders,
    fun found => incoming.stored (subset found)⟩
  rw [receive, reached]
  exact incoming.current

end Incoming

theorem Receiving.exists_keys {receive : Receiving S} {count : Nat} {id : KeyId} :
    (∃ skipped ∈ receive.keys count, skipped.id = id) ↔
      id.1 = receive.epoch ∧ receive.chain.count ≤ id.2 ∧ id.2 < receive.chain.count + count := by
  obtain ⟨epoch, number⟩ := id
  constructor
  · rintro ⟨skipped, member, same⟩
    obtain ⟨offset, inside, rfl⟩ := mem_keys.mp member
    cases same
    exact ⟨rfl, Nat.le_add_right _ _, by simpa using inside⟩
  · rintro ⟨same, low, high⟩
    simp only at same low high
    subst same
    refine ⟨_, mem_keys.mpr ⟨number - receive.chain.count, by omega, rfl⟩, ?_⟩
    simp [Nat.add_sub_cancel' low]

/-- The positions between a receive chain and a header, in the three places that
the chain can be. -/
inductive Skips (active : Active S) (header : Header S) : Nat → Nat → (KeyId → Prop) → Prop where
  | current {receive : Receiving S} (received : active.receive = some receive) (forward : receive.chain.count ≤ header.number) :
      Skips active header receive.epoch (header.number - receive.chain.count)
        fun id => id.1 = receive.epoch ∧ receive.chain.count ≤ id.2 ∧ id.2 < header.number
  | first (absent : active.receive = none) (start : header.previous = 0) :
      Skips active header 0 header.number fun id => id.1 = 0 ∧ id.2 < header.number
  | next {receive : Receiving S} (received : active.receive = some receive) (behind : receive.chain.count ≤ header.previous) :
      Skips active header (receive.epoch + 1) (header.previous - receive.chain.count + header.number)
        fun id => id.1 = receive.epoch ∧ receive.chain.count ≤ id.2 ∧ id.2 < header.previous ∨
          id.1 = receive.epoch + 1 ∧ id.2 < header.number

theorem Active.receiveKey_skips {active last : Active S} {header : Header S} {next : Bool} {key : S.Secret}
    {pending : List (PendingKey S)} (derived : active.receiveKey header next [] = .ok (key, last, pending)) :
    ∃ epoch count skips, Skips active header epoch count skips ∧ pending.length = count ∧
      (∀ id, (∃ skipped ∈ pending, skipped.id = id) ↔ skips id) ∧
      ∃ receive, last.receive = some receive ∧ receive.epoch = epoch := by
  cases next with
  | false =>
    obtain ⟨receive, count, received, same, -, -, -, rfl, rfl⟩ := receiveKey_current.mp derived
    refine ⟨_, _, _, .current received (by omega), ?_, ?_, _, rfl, rfl⟩
    · rw [List.nil_append, Receiving.keys_length]
      omega
    · intro id
      rw [List.nil_append, Receiving.exists_keys, same]
  | true =>
    obtain ⟨middle, tail, entered, rest⟩ := receiveKey_next.mp derived
    obtain ⟨localKeys, dh, epoch, -, -, -, -, rfl, shape⟩ := nextTurn_ok.mp entered
    obtain ⟨receive, count, received, same, -, -, -, rfl, rfl⟩ := receiveKey_current.mp rest
    cases received
    simp only [Nat.zero_add] at same
    subst same
    obtain ⟨absent, start, rfl, rfl⟩ | ⟨before, gap, found, position, -, -, rfl, -, rfl⟩ := shape
    · refine ⟨_, _, _, .first absent start, ?_, ?_, _, rfl, rfl⟩
      · rw [List.nil_append, Receiving.keys_length]
      · intro id
        rw [List.nil_append, Receiving.exists_keys]
        simp
    · refine ⟨_, _, _, .next found (by omega), ?_, ?_, _, rfl, rfl⟩
      · rw [List.length_append, Receiving.keys_length, Receiving.keys_length]
        omega
      · intro id
        simp only [List.mem_append, or_and_right, exists_or, Receiving.exists_keys, position, Nat.zero_le, true_and, Nat.zero_add]

namespace Incoming

variable {exchange : Exchange S} {side : Side} {turns total index turn number epoch count : Nat} {peer : Peer S}
  {skips : KeyId → Prop}

private theorem receives_succ (side : Side) (epoch : Nat) : side.receives (epoch + 1) = side.receives epoch + 2 := by
  unfold Side.receives
  omega

/-- A message skips exactly the indices between the chain and its own. -/
theorem skips_iff (incoming : Incoming exchange side turns peer total)
    (position : Position exchange side.other turns index turn number)
    (between : Skips peer.active (exchange.header turn number) epoch count skips) (reaches : side.receives epoch = turn) :
    count + exchange.reached side peer.active = index ∧
      ∀ id, skips id ↔ Position exchange side.other turns (exchange.indexOf side id) (side.receives id.1) id.2 ∧
        exchange.reached side peer.active ≤ exchange.indexOf side id ∧ exchange.indexOf side id < index := by
  have started := position.started
  have place := position.index
  -- A position of this turn is inside it if it comes before the message.
  have within : ∀ id : KeyId, id.1 = epoch → id.2 < number →
      Position exchange side.other turns (exchange.indexOf side id) (side.receives id.1) id.2 := by
    intro id same below
    rw [Exchange.indexOf, same, reaches]
    exact ⟨position.owned, started, rfl, fun later => Nat.lt_trans below (position.inside later)⟩
  cases between with
  | @current receive received forward =>
    simp only [Exchange.header] at forward
    have reached : exchange.reached side peer.active = exchange.offset turn + receive.chain.count := by
      simp only [Exchange.reached, received, Option.elim_some, Exchange.indexOf, reaches]
    refine ⟨by simp only [Exchange.header]; omega, fun id => ?_⟩
    constructor
    · rintro ⟨same, low, high⟩
      refine ⟨within id same high, ?_⟩
      simp only [Exchange.header] at high
      rw [reached, place, Exchange.indexOf, same, reaches]
      omega
    · rintro ⟨here, low, high⟩
      have after := here.lt_iff position
      obtain ⟨positive, -, last⟩ := incoming.current received
      have before := last.lt_iff here
      simp only [Side.receives, Exchange.header] at *
      omega
  | first absent start =>
    have reached : exchange.reached side peer.active = 0 := by simp [Exchange.reached, absent]
    have early : exchange.offset turn = 0 := by
      rw [← reaches]
      cases side <;> rfl
    refine ⟨by simp only [Exchange.header]; omega, fun id => ?_⟩
    constructor
    · rintro ⟨same, high⟩
      refine ⟨within id same high, ?_⟩
      simp only [Exchange.header] at high
      rw [reached, place, Exchange.indexOf, same, reaches]
      omega
    · rintro ⟨here, low, high⟩
      have after := here.lt_iff position
      simp only [Side.receives, Exchange.header] at *
      omega
  | @next receive received behind =>
    obtain ⟨positive, -, last⟩ := incoming.current received
    have following : side.receives receive.epoch + 2 = turn := by rw [← receives_succ, reaches]
    have announced : exchange.offset turn = exchange.offset (side.receives receive.epoch) + exchange.previous turn := by
      rw [← following, Exchange.offset]
    have reached : exchange.reached side peer.active = exchange.offset (side.receives receive.epoch) + receive.chain.count := by
      simp only [Exchange.reached, received, Option.elim_some, Exchange.indexOf]
    simp only [Exchange.header] at behind
    refine ⟨by simp only [Exchange.header]; omega, fun id => ?_⟩
    constructor
    · rintro (⟨same, low, high⟩ | ⟨same, high⟩)
      · simp only [Exchange.header] at high
        rw [reached, place, Exchange.indexOf, same]
        refine ⟨⟨last.owned, by omega, rfl, fun _ => ?_⟩, by omega, by omega⟩
        rw [following]
        exact high
      · refine ⟨within id same high, ?_⟩
        simp only [Exchange.header] at high
        rw [reached, place, Exchange.indexOf, same, reaches]
        omega
    · rintro ⟨here, low, high⟩
      have after := here.lt_iff position
      have before := last.lt_iff here
      have inside := here.inside
      have owned := here.owned
      by_cases old : id.1 = receive.epoch
      · rw [old, following] at inside
        simp only [Side.receives, Exchange.header] at *
        omega
      · simp only [Side.receives, Exchange.header] at *
        omega

end Incoming
end StogasVerifier.Channel
