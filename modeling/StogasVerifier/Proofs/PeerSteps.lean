import StogasVerifier.Lib.Fallible
import StogasVerifier.Channel.Peer

/-! What each ratchet operation does when it succeeds. Later proofs use these
equations and never unfold the operations themselves. -/

namespace StogasVerifier.Channel
open Std Lib

variable {S : Suite}

theorem reject_ok {condition : Prop} [Decidable condition] {error : Error} {done : Unit} :
    reject condition error = .ok done ↔ ¬ condition := by
  by_cases holds : condition <;> simp [reject, holds]

theorem checkedSub_ok {first second result : Nat} {error : Error} :
    checkedSub first second error = .ok result ↔ first = second + result := by
  unfold checkedSub
  split
  · simp only [Except.ok.injEq]; omega
  · simp only [reduceCtorEq, false_iff]; omega

theorem checkedAdd_ok {first second result : Nat} {error : Error} :
    checkedAdd first second error = .ok result ↔ first + second ≤ u64Max ∧ result = first + second := by
  unfold checkedAdd
  split
  · simp only [Except.ok.injEq]; omega
  · simp only [reduceCtorEq, false_iff]; omega

def chainSecret (seed : S.Secret) : Nat → S.Secret
  | 0 => seed
  | count + 1 => S.expand .chain (chainSecret seed count) 0

def messageKey (seed : S.Secret) (number : Nat) : S.Secret := S.expand .chain (chainSecret seed number) 1

theorem chainSecret_add (seed : S.Secret) (first second : Nat) :
    chainSecret (chainSecret seed first) second = chainSecret seed (first + second) := by
  induction second with
  | zero => rfl
  | succ second ih => rw [← Nat.add_assoc, chainSecret, ih, chainSecret]

theorem messageKey_add (seed : S.Secret) (first second : Nat) :
    messageKey (chainSecret seed first) second = messageKey seed (first + second) := by
  rw [messageKey, chainSecret_add, messageKey]

def Chain.after (chain : Chain S) (count : Nat) : Chain S := ⟨chainSecret chain.secret count, chain.count + count⟩

theorem Chain.step_ok {chain next : Chain S} {key : S.Secret} :
    chain.step = .ok (key, next) ↔
      chain.count < maxChainMessages ∧ key = messageKey chain.secret 0 ∧ next = chain.after 1 := by
  unfold Chain.step
  split
  · simp only [reduceCtorEq, false_iff]; omega
  · rename_i room
    simp only [Except.ok.injEq, Prod.mk.injEq, messageKey, chainSecret, Chain.after]
    constructor
    · rintro ⟨rfl, rfl⟩; exact ⟨by omega, rfl, rfl⟩
    · rintro ⟨-, rfl, rfl⟩; exact ⟨rfl, rfl⟩

namespace Receiving

def after (receive : Receiving S) (count : Nat) : Receiving S := { receive with chain := receive.chain.after count }

/-- The keys of the next `count` positions. -/
def keys (receive : Receiving S) (count : Nat) : List (PendingKey S) :=
  (List.range count).map fun offset =>
    ⟨(receive.epoch, receive.chain.count + offset), receive.header, messageKey receive.chain.secret offset⟩

@[simp]
theorem keys_length (receive : Receiving S) (count : Nat) : (receive.keys count).length = count := by simp [keys]

theorem after_one_after (receive : Receiving S) (count : Nat) : (receive.after 1).after count = receive.after (count + 1) := by
  simp only [after, Chain.after, chainSecret_add, Nat.add_comm 1 count, Nat.add_assoc]

theorem keys_succ (receive : Receiving S) (count : Nat) :
    receive.keys (count + 1) =
      ⟨(receive.epoch, receive.chain.count), receive.header, messageKey receive.chain.secret 0⟩ ::
        (receive.after 1).keys count := by
  simp only [keys, List.range_succ_eq_map, List.map_cons, List.map_map, Nat.add_zero, List.cons.injEq, true_and]
  apply List.map_congr_left
  intro offset _
  simp only [Function.comp, after, Chain.after, messageKey_add, Nat.succ_eq_add_one, Nat.add_comm 1 offset, Nat.add_assoc]

theorem skip_ok {receive last : Receiving S} {pending result : List (PendingKey S)} {count : Nat} :
    receive.skip count pending = .ok (last, result) ↔
      (count = 0 ∨ receive.chain.count + count ≤ maxChainMessages) ∧ last = receive.after count ∧
        result = pending ++ receive.keys count := by
  induction count generalizing receive pending with
  | zero =>
    simp only [skip, Except.ok.injEq, Prod.mk.injEq, true_or, true_and, keys, List.range_zero, List.map_nil, List.append_nil,
      after, Chain.after, chainSecret, Nat.add_zero]
    exact ⟨fun ⟨a, b⟩ => ⟨a.symm, b.symm⟩, fun ⟨a, b⟩ => ⟨a.symm, b.symm⟩⟩
  | succ count ih =>
    cases stepped : receive.chain.step with
    | error error =>
      have full : maxChainMessages ≤ receive.chain.count := by
        by_contra room
        simp [Chain.step, room] at stepped
      simp only [skip, stepped]
      refine ⟨fun impossible => (by cases impossible), ?_⟩
      rintro ⟨bound, -⟩
      omega
    | ok output =>
      obtain ⟨room, key, chain⟩ := Chain.step_ok.mp (show receive.chain.step = .ok (output.1, output.2) from stepped)
      simp only [skip, stepped, key, chain]
      have advanced : ({ receive with chain := receive.chain.after 1 } : Receiving S) = receive.after 1 := rfl
      rw [advanced, ih, keys_succ, after_one_after, List.append_assoc, List.singleton_append]
      have counts : (receive.after 1).chain.count = receive.chain.count + 1 := rfl
      constructor
      · rintro ⟨_, rfl, rfl⟩; exact ⟨by omega, rfl, rfl⟩
      · rintro ⟨_, rfl, rfl⟩; exact ⟨by omega, rfl, rfl⟩

end Receiving

namespace Active

variable {active : Active S}

theorem skippedCount_ok {header : Header S} {next : Bool} {count : Nat} :
    active.skippedCount header next = .ok count ↔
      header.number < maxChainMessages ∧ count ≤ maxSkippedKeys ∧ count ≤ u64Max ∧
      match next with
      | false => header.number = (active.receive.elim 0 fun receive => receive.chain.count) + count
      | true => active.localKeys.isSome ∧ (active.receive.isSome → active.send.isSome) ∧
          header.previous + header.number = (active.receive.elim 0 fun receive => receive.chain.count) + count ∧
          (active.receive.elim 0 fun receive => receive.chain.count) ≤ header.previous := by
  cases next with
  | false =>
    simp only [skippedCount, bind_ok, pure_ok, reject_ok, checkedSub_ok, checkedAdd_ok, Bool.false_eq_true, if_false,
      Except.ok.injEq]
    constructor
    · rintro ⟨_, room, _, rfl, gap, same, _, ⟨bound, rfl⟩, _, fits, rfl⟩
      exact ⟨by omega, by omega, by omega, by omega⟩
    · rintro ⟨room, fits, bound, same⟩
      exact ⟨(), by omega, 0, rfl, count, same, count, ⟨by omega, by omega⟩, (), by omega, rfl⟩
  | true =>
    simp only [skippedCount, bind_ok, pure_ok, reject_ok, checkedSub_ok, checkedAdd_ok, if_true]
    constructor
    · rintro ⟨_, room, previous, ⟨_, allowed, before⟩, gap, same, _, ⟨bound, rfl⟩, _, fits, rfl⟩
      refine ⟨by omega, by omega, by omega, ?_, ?_, by omega, by omega⟩
      · cases keys : active.localKeys <;> simp_all
      · intro received; cases sending : active.send <;> simp_all
    · rintro ⟨room, fits, bound, keys, sending, same, before⟩
      refine ⟨(), by omega, header.previous - active.receive.elim 0 fun receive => receive.chain.count,
        ⟨(), ?_, by omega⟩, header.number, by omega, count, ⟨by omega, by omega⟩, (), by omega, rfl⟩
      rintro (missing | ⟨received, silent⟩)
      · cases present : active.localKeys <;> simp_all
      · cases present : active.send <;> simp_all

variable {last : Active S} {result : List (PendingKey S)}

theorem skip_ok {target : Nat} {pending : List (PendingKey S)} :
    active.skip target pending = .ok (last, result) ↔
      (active.receive = none ∧ target = 0 ∧ last = active ∧ result = pending) ∨
      ∃ receive count, active.receive = some receive ∧ target = receive.chain.count + count ∧
        count ≤ maxSkippedKeys - pending.length ∧ (count = 0 ∨ target ≤ maxChainMessages) ∧
        last = { active with receive := some (receive.after count) } ∧ result = pending ++ receive.keys count := by
  unfold skip
  cases received : active.receive with
  | none =>
    simp only [reduceCtorEq, false_and, exists_false, or_false, true_and]
    by_cases zero : target = 0
    · simp only [zero, if_true, Except.ok.injEq, Prod.mk.injEq, true_and]
      exact ⟨fun ⟨a, b⟩ => ⟨a.symm, b.symm⟩, fun ⟨a, b⟩ => ⟨a.symm, b.symm⟩⟩
    · simp [zero]
  | some receive =>
    simp only [bind_ok, pure_ok, reject_ok, checkedSub_ok, reduceCtorEq, false_and, false_or]
    constructor
    · rintro ⟨count, same, _, fits, ⟨stepped, keys⟩, skipped, result⟩
      obtain ⟨room, rfl, rfl⟩ := Receiving.skip_ok.mp skipped
      simp only [Prod.mk.injEq] at result
      obtain ⟨rfl, rfl⟩ := result
      exact ⟨receive, count, rfl, same, by omega, by omega, rfl, rfl⟩
    · rintro ⟨_, count, ⟨⟩, same, fits, room, rfl, rfl⟩
      exact ⟨count, same, (), by omega, (receive.after count, pending ++ receive.keys count),
        Receiving.skip_ok.mpr ⟨by omega, rfl, rfl⟩, rfl⟩

def turned (active : Active S) (header : Header S) (dh kem : S.Secret) (epoch : Nat) : Active S where
  root := S.expandRoot active.root dh kem 0
  localKeys := none
  remote := some header.publicKeys
  send := none
  receive := some ⟨⟨S.expandRoot active.root dh kem 1, 0⟩, ⟨active.nextReceive, header.turn⟩, epoch⟩
  nextSend := active.nextSend
  nextReceive := ⟨S.expandRoot active.root dh kem 2⟩
  previousSent := active.send.elim 0 fun sending => sending.chain.count

theorem nextTurn_ok {header : Header S} :
    active.nextTurn header [] = .ok (last, result) ↔
      ∃ localKeys dh epoch, (active.receive.isSome → active.send.isSome) ∧ header.publicKeys.validate = .ok () ∧
        active.localKeys = some localKeys ∧ localKeys.agree header.publicKeys = .ok dh ∧
        last = active.turned header dh (localKeys.decapsulate header.ciphertext) epoch ∧
        ((active.receive = none ∧ header.previous = 0 ∧ epoch = 0 ∧ result = []) ∨
          ∃ receive count, active.receive = some receive ∧ header.previous = receive.chain.count + count ∧
            count ≤ maxSkippedKeys ∧ (count = 0 ∨ header.previous ≤ maxChainMessages) ∧
            epoch = receive.epoch + 1 ∧ receive.epoch + 1 ≤ u64Max ∧ result = receive.keys count) := by
  have guarded : ¬ (active.receive.isSome ∧ active.send.isNone) ↔ (active.receive.isSome → active.send.isSome) := by
    cases active.receive <;> cases active.send <;> simp
  simp only [nextTurn, bind_ok, reject_ok, guarded]
  constructor
  · rintro ⟨_, allowed, _, valid, ⟨middle, pending⟩, skipped, rest⟩
    cases keys : middle.localKeys with
    | none => simp [keys, throw_ok] at rest
    | some localKeys =>
      simp only [keys, bind_ok, pure_ok, Prod.mk.injEq] at rest
      obtain ⟨dh, agreed, epoch, counted, rfl, rfl⟩ := rest
      obtain ⟨received, zero, rfl, rfl⟩ | ⟨receive, count, received, same, fits, room, rfl, rfl⟩ := skip_ok.mp skipped
      · simp only [advance, received, Option.elim_none, Except.ok.injEq] at counted
        exact ⟨localKeys, dh, epoch, allowed, valid, keys, agreed, rfl, .inl ⟨received, zero, counted.symm, rfl⟩⟩
      · simp only [advance, Option.elim_some, checkedAdd_ok, Receiving.after] at counted
        exact ⟨localKeys, dh, epoch, allowed, valid, keys, agreed, rfl,
          .inr ⟨receive, count, received, same, by simpa using fits, room, counted.2, counted.1, by simp⟩⟩
  · rintro ⟨localKeys, dh, epoch, allowed, valid, keys, agreed, rfl, shape⟩
    obtain ⟨received, zero, rfl, rfl⟩ | ⟨receive, count, received, same, fits, room, rfl, bound, rfl⟩ := shape
    · refine ⟨(), allowed, (), valid, (active, []), skip_ok.mpr (.inl ⟨received, zero, rfl, rfl⟩), ?_⟩
      simp only [keys, bind_ok, pure_ok]
      exact ⟨dh, agreed, 0, by simp [advance, received], rfl⟩
    · refine ⟨(), allowed, (), valid, ({ active with receive := some (receive.after count) }, receive.keys count),
        skip_ok.mpr (.inr ⟨receive, count, received, same, by simpa using fits, room, rfl, by simp⟩), ?_⟩
      simp only [keys, bind_ok, pure_ok]
      exact ⟨dh, agreed, receive.epoch + 1, by simp [advance, checkedAdd_ok, Receiving.after, bound], rfl⟩

theorem receiveKey_current {header : Header S} {key : S.Secret} {pending : List (PendingKey S)} :
    active.receiveKey header false pending = .ok (key, last, result) ↔
      ∃ receive count, active.receive = some receive ∧ header.number = receive.chain.count + count ∧
        count ≤ maxSkippedKeys - pending.length ∧ header.number < maxChainMessages ∧
        key = messageKey receive.chain.secret count ∧
        last = { active with receive := some (receive.after (count + 1)) } ∧ result = pending ++ receive.keys count := by
  simp only [receiveKey, bind_ok, Bool.false_eq_true, if_false, Except.ok.injEq]
  constructor
  · rintro ⟨_, rfl, ⟨middle, keys⟩, skipped, rest⟩
    obtain ⟨received, -, rfl, rfl⟩ | ⟨receive, count, received, same, fits, room, rfl, rfl⟩ := skip_ok.mp skipped
    · simp only at received rest
      simp [received, throw_ok] at rest
    · simp only [bind_ok, pure_ok, Prod.mk.injEq] at rest
      obtain ⟨⟨released, chain⟩, stepped, rfl, rfl, rfl⟩ := rest
      obtain ⟨below, rfl, rfl⟩ := Chain.step_ok.mp stepped
      have position : (receive.after count).chain.count = receive.chain.count + count := rfl
      refine ⟨receive, count, received, same, fits, by omega, ?_, ?_, rfl⟩
      · simp [Receiving.after, Chain.after, messageKey_add]
      · simp [Receiving.after, Chain.after, chainSecret_add, Nat.add_assoc]
  · rintro ⟨receive, count, received, same, fits, below, rfl, rfl, rfl⟩
    refine ⟨(active, pending), rfl, ({ active with receive := some (receive.after count) }, pending ++ receive.keys count),
      skip_ok.mpr (.inr ⟨receive, count, received, same, fits, by omega, rfl, rfl⟩), ?_⟩
    simp only [bind_ok, pure_ok, Prod.mk.injEq]
    have position : (receive.after count).chain.count = receive.chain.count + count := rfl
    refine ⟨(messageKey receive.chain.secret count, (receive.after count).chain.after 1),
      Chain.step_ok.mpr ⟨by omega, ?_, rfl⟩, rfl, ?_, trivial⟩
    · simp [Receiving.after, Chain.after, messageKey_add]
    · simp [Receiving.after, Chain.after, chainSecret_add, Nat.add_assoc]

theorem receiveKey_next {header : Header S} {key : S.Secret} :
    active.receiveKey header true [] = .ok (key, last, result) ↔
      ∃ middle pending, active.nextTurn header [] = .ok (middle, pending) ∧
        middle.receiveKey header false pending = .ok (key, last, result) := by
  simp only [receiveKey, bind_ok, Bool.false_eq_true, if_false, if_true, Except.ok.injEq]
  constructor
  · rintro ⟨⟨middle, pending⟩, entered, rest⟩
    exact ⟨middle, pending, entered, (middle, pending), rfl, rest⟩
  · rintro ⟨middle, pending, entered, _, rfl, rest⟩
    exact ⟨(middle, pending), entered, rest⟩

def started (active : Active S) (localKeys : KeyPair S) (ciphertext : S.Ciphertext) (dh kem : S.Secret) : Active S where
  root := S.expandRoot active.root dh kem 0
  localKeys := some localKeys
  remote := active.remote
  send := some ⟨⟨S.expandRoot active.root dh kem 1, 0⟩, active.nextSend,
    ⟨localKeys.publicKeys, ciphertext, active.previousSent, 0⟩⟩
  receive := active.receive
  nextSend := ⟨S.expandRoot active.root dh kem 2⟩
  nextReceive := active.nextReceive
  previousSent := active.previousSent

theorem startTurn_ok {entropy : Entropy S} :
    active.startTurn entropy = .ok last ↔
      ∃ remote seed randomness dh, active.remote = some remote ∧ entropy.seed = .ok seed ∧
        entropy.randomness = .ok randomness ∧ (KeyPair.fromSeed seed).agree remote = .ok dh ∧
        last = active.started (KeyPair.fromSeed seed) (remote.encapsulate randomness).1 dh
          (remote.encapsulate randomness).2 := by
  unfold startTurn
  cases known : active.remote with
  | none => simp
  | some remote =>
    simp only [bind_ok, pure_ok]
    constructor
    · rintro ⟨seed, seeded, randomness, drawn, dh, agreed, rfl⟩
      exact ⟨remote, seed, randomness, dh, rfl, seeded, drawn, agreed, by simp [started, advance, known]⟩
    · rintro ⟨_, seed, randomness, dh, ⟨⟩, seeded, drawn, agreed, rfl⟩
      exact ⟨seed, seeded, randomness, drawn, dh, agreed, by simp [started, advance, known]⟩

def sealed (active : Active S) (sending : Sending S) : Active S :=
  { active with send := some ⟨sending.chain.after 1, sending.cipher, { sending.header with number := sending.chain.count }⟩ }

theorem sendWith_ok {request : Nat} {entropy : Entropy S} {key : SendKey S} :
    active.sendWith request entropy = .ok (key, last) ↔
      ∃ turn sending bytes, (if active.send.isNone then active.startTurn entropy = .ok turn else turn = active) ∧
        turn.send = some sending ∧ sending.chain.count < maxChainMessages ∧
        sending.cipher.sealHeader { sending.header with number := sending.chain.count } request = .ok bytes ∧
        key = ⟨bytes, messageKey sending.chain.secret 0⟩ ∧ last = turn.sealed sending := by
  simp only [sendWith, bind_ok]
  have opening : ∀ turn, (if active.send.isNone then active.startTurn entropy else .ok active) = .ok turn ↔
      if active.send.isNone then active.startTurn entropy = .ok turn else turn = active := by
    intro turn
    split
    · rfl
    · simp only [Except.ok.injEq]; exact eq_comm
  simp only [opening]
  apply exists_congr
  intro turn
  cases sends : turn.send with
  | none => simp [throw_ok]
  | some sending =>
    simp only [bind_ok, pure_ok, Prod.mk.injEq]
    constructor
    · rintro ⟨opened, ⟨secret, chain⟩, stepped, bytes, wire, rfl, rfl⟩
      obtain ⟨room, rfl, rfl⟩ := Chain.step_ok.mp stepped
      exact ⟨sending, bytes, opened, rfl, room, wire, rfl, rfl⟩
    · rintro ⟨_, bytes, opened, ⟨⟩, room, wire, rfl, rfl⟩
      exact ⟨opened, (_, _), Chain.step_ok.mpr ⟨room, rfl, rfl⟩, bytes, wire, rfl, rfl⟩

end Active
end StogasVerifier.Channel
