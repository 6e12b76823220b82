import StogasVerifier.Proofs.PeerRuns

/-! The turns of a session. A script lists what each turn mixed into the root;
it determines every root, chain and header key. One peer alternates between its
own turns and the other's, so at any time it stands at one point of a script,
whatever its inputs were. -/

namespace StogasVerifier.Channel
open Std Lib

variable {S : Suite}

/-- The initiator takes the even turns. -/
inductive Side where
  | initiator | responder
  deriving DecidableEq

namespace Side

def other : Side → Side
  | .initiator => .responder
  | .responder => .initiator

@[simp] theorem other_other (side : Side) : side.other.other = side := by cases side <;> rfl

def first : Side → Nat
  | .initiator => 0
  | .responder => 1

theorem first_other (side : Side) : side.other.first = 1 - side.first := by cases side <;> rfl

theorem first_le (side : Side) : side.first ≤ 1 := by cases side <;> decide

def Owns (side : Side) (turn : Nat) : Prop := turn % 2 = side.first

def receives (side : Side) (epoch : Nat) : Nat := 2 * epoch + side.other.first

def nextOwn (side : Side) (turn : Nat) : Nat := turn + (turn + side.first) % 2

theorem owns_other (side : Side) (turn : Nat) : side.other.Owns turn ↔ ¬ side.Owns turn := by
  have := side.first_other
  have := side.first_le
  unfold Owns
  omega

theorem owns_succ (side : Side) (turn : Nat) : side.Owns (turn + 1) ↔ ¬ side.Owns turn := by
  have := side.first_le
  unfold Owns
  omega

theorem owns_pred (side : Side) {turn : Nat} (late : turn ≠ 0) : side.Owns (turn - 1) ↔ ¬ side.Owns turn := by
  have next := side.owns_succ (turn - 1)
  rw [Nat.sub_add_cancel (Nat.pos_of_ne_zero late)] at next
  rw [next, not_not]

theorem nextOwn_owned {side : Side} {turn : Nat} (owned : side.Owns turn) : side.nextOwn turn = turn := by
  unfold Owns at owned
  unfold nextOwn
  omega

theorem nextOwn_foreign {side : Side} {turn : Nat} (foreign : ¬ side.Owns turn) : side.nextOwn turn = turn + 1 := by
  have := side.first_le
  unfold Owns at foreign
  unfold nextOwn
  omega

theorem receives_injective {side : Side} {first second : Nat} (same : side.receives first = side.receives second) :
    first = second := by
  unfold receives at same
  omega

theorem exists_receives (side : Side) {turn : Nat} (theirs : side.other.Owns turn) : ∃ epoch, side.receives epoch = turn := by
  unfold Owns at theirs
  refine ⟨turn / 2, ?_⟩
  unfold receives
  omega

theorem receives_foreign (side : Side) (epoch : Nat) : ¬ side.Owns (side.receives epoch) := by
  have := side.first_other
  have := side.first_le
  unfold Owns receives
  omega

end Side

/-- The secrets that each turn mixes into the root, and its header digest. -/
structure Script (S : Suite) where
  root : S.Secret
  dh : Nat → S.Secret
  kem : Nat → S.Secret
  digest : Nat → S.Digest

namespace Script

def blank (root : S.Secret) : Script S := ⟨root, fun _ => root, fun _ => root, fun _ => S.sha256 []⟩

def rootAt (script : Script S) : Nat → S.Secret
  | 0 => S.expand .initialization script.root 0
  | turn + 1 => S.expandRoot (script.rootAt turn) (script.dh turn) (script.kem turn) 0

def seedAt (script : Script S) (turn : Nat) : S.Secret :=
  S.expandRoot (script.rootAt turn) (script.dh turn) (script.kem turn) 1

/-- The header cipher of a turn: from the initial root for the first two, and
from the same side's turn before it for every other. -/
def cipherAt (script : Script S) : Nat → HeaderCipher S
  | 0 => ⟨S.expand .initialization script.root 1⟩
  | 1 => ⟨S.expand .initialization script.root 2⟩
  | turn + 2 => ⟨S.expandRoot (script.rootAt turn) (script.dh turn) (script.kem turn) 2⟩

def headerAt (script : Script S) (turn : Nat) : ReceiveHeader S := ⟨script.cipherAt turn, script.digest turn⟩

def keyAt (script : Script S) (turn number : Nat) : S.Secret := messageKey (script.seedAt turn) number

structure Agrees (turns : Nat) (first second : Script S) : Prop where
  root : first.root = second.root
  dh : ∀ turn < turns, first.dh turn = second.dh turn
  kem : ∀ turn < turns, first.kem turn = second.kem turn
  digest : ∀ turn < turns, first.digest turn = second.digest turn

namespace Agrees

variable {turns : Nat} {first second : Script S}

theorem refl (turns : Nat) (script : Script S) : Agrees turns script script :=
  ⟨rfl, fun _ _ => rfl, fun _ _ => rfl, fun _ _ => rfl⟩

theorem mono {fewer : Nat} (agrees : Agrees turns first second) (less : fewer ≤ turns) : Agrees fewer first second :=
  ⟨agrees.root, fun turn below => agrees.dh turn (by omega), fun turn below => agrees.kem turn (by omega),
    fun turn below => agrees.digest turn (by omega)⟩

theorem trans {third : Script S} (before : Agrees turns first second) (after : Agrees turns second third) :
    Agrees turns first third :=
  ⟨before.root.trans after.root, fun turn below => (before.dh turn below).trans (after.dh turn below),
    fun turn below => (before.kem turn below).trans (after.kem turn below),
    fun turn below => (before.digest turn below).trans (after.digest turn below)⟩

theorem rootAt (agrees : Agrees turns first second) {turn : Nat} (below : turn ≤ turns) :
    first.rootAt turn = second.rootAt turn := by
  induction turn with
  | zero => simp only [Script.rootAt, agrees.root]
  | succ turn ih => simp only [Script.rootAt, ih (by omega), agrees.dh turn (by omega), agrees.kem turn (by omega)]

theorem seedAt (agrees : Agrees turns first second) {turn : Nat} (below : turn < turns) :
    first.seedAt turn = second.seedAt turn := by
  simp only [Script.seedAt, agrees.rootAt below.le, agrees.dh turn below, agrees.kem turn below]

theorem keyAt (agrees : Agrees turns first second) {turn : Nat} (below : turn < turns) (number : Nat) :
    first.keyAt turn number = second.keyAt turn number := by
  simp only [Script.keyAt, agrees.seedAt below]

theorem cipherAt (agrees : Agrees turns first second) {turn : Nat} (below : turn < turns + 2) :
    first.cipherAt turn = second.cipherAt turn := by
  match turn with
  | 0 => simp only [Script.cipherAt, agrees.root]
  | 1 => simp only [Script.cipherAt, agrees.root]
  | turn + 2 =>
    simp only [Script.cipherAt, agrees.rootAt (show turn ≤ turns by omega), agrees.dh turn (by omega),
      agrees.kem turn (by omega)]

theorem headerAt (agrees : Agrees turns first second) {turn : Nat} (below : turn < turns) :
    first.headerAt turn = second.headerAt turn := by
  simp only [Script.headerAt, agrees.cipherAt (show turn < turns + 2 by omega), agrees.digest turn below]

end Agrees

def record (script : Script S) (turn : Nat) (dh kem : S.Secret) (digest : S.Digest) : Script S where
  root := script.root
  dh := Function.update script.dh turn dh
  kem := Function.update script.kem turn kem
  digest := Function.update script.digest turn digest

theorem agrees_record (script : Script S) (turn : Nat) (dh kem : S.Secret) (digest : S.Digest) :
    Agrees turn script (script.record turn dh kem digest) := by
  constructor
  · rfl
  all_goals
    intro earlier below
    simp [record, Nat.ne_of_lt below]

section Distinct

variable (collisionFree : S.CollisionFree) (script other : Script S)
include collisionFree

theorem rootAt_turn {first second : Nat} (same : script.rootAt first = other.rootAt second) : first = second := by
  induction first generalizing second with
  | zero =>
    cases second with
    | zero => rfl
    | succ second => exact absurd same collisionFree.separate
  | succ first ih =>
    cases second with
    | zero => exact absurd same.symm collisionFree.separate
    | succ second => rw [ih (collisionFree.root same).1]

theorem cipherAt_turn {first second : Nat} (same : (script.cipherAt first).key = (other.cipherAt second).key) :
    first = second := by
  match first, second with
  | 0, 0 | 1, 1 => rfl
  | 0, 1 | 1, 0 => exact absurd (collisionFree.expand same).2.2 (by decide)
  | 0, second + 2 | 1, second + 2 => exact absurd same collisionFree.separate
  | first + 2, 0 | first + 2, 1 => exact absurd same.symm collisionFree.separate
  | first + 2, second + 2 => rw [rootAt_turn collisionFree script other (collisionFree.root same).1]

end Distinct
end Script

/-- An active state stands after the first `turns` turns of a script. -/
structure Tracks (side : Side) (script : Script S) (turns : Nat) (active : Active S) : Prop where
  root : active.root = script.rootAt turns
  nextSend : active.nextSend = script.cipherAt (side.nextOwn turns)
  nextReceive : active.nextReceive = script.cipherAt (side.other.nextOwn turns)
  idle : active.send = none → turns = 0 ∨ ¬ side.Owns (turns - 1)
  sends : ∀ {sending}, active.send = some sending → 0 < turns ∧ side.Owns (turns - 1) ∧
    sending.cipher = script.cipherAt (turns - 1) ∧
    sending.chain.secret = chainSecret (script.seedAt (turns - 1)) sending.chain.count
  waits : active.receive = none → turns ≤ side.other.first
  receives : ∀ {receive}, active.receive = some receive → side.receives receive.epoch < turns ∧
    turns ≤ side.receives receive.epoch + 2 ∧ receive.header = script.headerAt (side.receives receive.epoch) ∧
    receive.chain.secret = chainSecret (script.seedAt (side.receives receive.epoch)) receive.chain.count
  holds : active.localKeys.isSome ↔ active.send.isSome ∨ side = .responder ∧ active.receive = none
  knows : active.remote.isSome ↔ side = .initiator ∨ active.receive.isSome

namespace Tracks

variable {side : Side} {script other : Script S} {turns : Nat} {active : Active S}

theorem congr (tracks : Tracks side script turns active) (agrees : Script.Agrees turns script other) :
    Tracks side other turns active := by
  have close : ∀ side : Side, side.nextOwn turns < turns + 2 := fun side => by unfold Side.nextOwn; omega
  refine ⟨?_, ?_, ?_, tracks.idle, ?_, tracks.waits, ?_, tracks.holds, tracks.knows⟩
  · rw [tracks.root, agrees.rootAt (Nat.le_refl _)]
  · rw [tracks.nextSend, agrees.cipherAt (close side)]
  · rw [tracks.nextReceive, agrees.cipherAt (close side.other)]
  · intro sending present
    obtain ⟨positive, owned, cipher, secret⟩ := tracks.sends present
    exact ⟨positive, owned, by rw [cipher, agrees.cipherAt (by omega)], by rw [secret, agrees.seedAt (by omega)]⟩
  · intro receive present
    obtain ⟨after, recent, header, secret⟩ := tracks.receives present
    exact ⟨after, recent, by rw [header, agrees.headerAt after], by rw [secret, agrees.seedAt after]⟩

theorem initiator (script : Script S) (remote : PublicKeys S) :
    Tracks .initiator script 0 (Peer.new script.root none (some remote) true).active := by
  constructor <;> simp [Peer.new, Script.rootAt, Script.cipherAt, Side.nextOwn, Side.first, Side.other]

theorem responder (script : Script S) (keys : KeyPair S) :
    Tracks .responder script 0 (Peer.new script.root (some keys) none false).active := by
  constructor <;> simp [Peer.new, Script.rootAt, Script.cipherAt, Side.nextOwn, Side.first, Side.other]

theorem starts (tracks : Tracks side script turns active) (silent : active.send = none) (known : active.remote.isSome) :
    side.Owns turns := by
  rcases tracks.idle silent with rfl | foreign
  · rcases tracks.knows.mp known with rfl | received
    · rfl
    · obtain ⟨receive, present⟩ := Option.isSome_iff_exists.mp received
      have := (tracks.receives present).1
      omega
  · cases turns with
    | zero =>
      rcases tracks.knows.mp known with rfl | received
      · rfl
      · obtain ⟨receive, present⟩ := Option.isSome_iff_exists.mp received
        have := (tracks.receives present).1
        omega
    | succ turns => exact (side.owns_succ turns).mpr foreign

theorem started (tracks : Tracks side script turns active) (silent : active.send = none) (known : active.remote.isSome)
    (keys : KeyPair S) (ciphertext : S.Ciphertext) :
    Tracks side script (turns + 1) (active.started keys ciphertext (script.dh turns) (script.kem turns)) := by
  have owned := tracks.starts silent known
  have foreign : ¬ side.Owns (turns + 1) := fun next => (side.owns_succ turns).mp next owned
  have theirs : side.other.Owns (turns + 1) := (side.owns_other _).mpr foreign
  refine ⟨?_, ?_, ?_, nofun, ?_, ?_, ?_, ⟨fun _ => .inl rfl, fun _ => rfl⟩, tracks.knows⟩
  · simp only [Active.started, tracks.root, Script.rootAt]
  · rw [Side.nextOwn_foreign foreign]
    simp only [Active.started, tracks.root, Script.cipherAt]
  · rw [Side.nextOwn_owned theirs]
    simp only [Active.started, tracks.nextReceive,
      Side.nextOwn_foreign (show ¬ side.other.Owns turns from fun next => (side.owns_other _).mp next owned)]
  · rintro sending ⟨⟩
    refine ⟨by omega, owned, ?_, ?_⟩
    · simp only [tracks.nextSend, Side.nextOwn_owned owned, Nat.add_sub_cancel]
    · simp only [tracks.root, Script.seedAt, chainSecret, Nat.add_sub_cancel]
  · intro absent
    have early := tracks.waits absent
    have := side.first_other
    have := side.first_le
    unfold Side.Owns at owned
    omega
  · intro receive present
    obtain ⟨after, recent, header, secret⟩ := tracks.receives present
    have epochForeign := side.receives_foreign receive.epoch
    refine ⟨by omega, ?_, header, secret⟩
    unfold Side.Owns at owned epochForeign
    omega

theorem sealed (tracks : Tracks side script turns active) {sending : Sending S} (present : active.send = some sending) :
    Tracks side script turns (active.sealed sending) := by
  obtain ⟨positive, owned, cipher, secret⟩ := tracks.sends present
  have held := tracks.holds.mpr (.inl (by rw [present]; rfl))
  refine ⟨tracks.root, tracks.nextSend, tracks.nextReceive, nofun, ?_, tracks.waits, tracks.receives,
    ⟨fun _ => .inl rfl, fun _ => held⟩, tracks.knows⟩
  rintro _ ⟨⟩
  refine ⟨positive, owned, cipher, ?_⟩
  simp only [Chain.after, secret, chainSecret_add]

theorem follow (tracks : Tracks side script turns active) {receive : Receiving S} (present : active.receive = some receive)
    (count : Nat) : Tracks side script turns { active with receive := some (receive.after count) } := by
  obtain ⟨after, recent, header, secret⟩ := tracks.receives present
  have known := tracks.knows.mpr (.inr (by rw [present]; rfl))
  refine ⟨tracks.root, tracks.nextSend, tracks.nextReceive, tracks.idle, tracks.sends, nofun, ?_, ?_,
    ⟨fun _ => .inr rfl, fun _ => known⟩⟩
  · rintro _ ⟨⟩
    exact ⟨after, recent, header, by simp only [Receiving.after, Chain.after, secret, chainSecret_add]⟩
  · rw [tracks.holds, present]
    simp

/-- A peer that may enter the other's next turn does not own it, and its next
receive epoch stands for that turn. -/
theorem enters (tracks : Tracks side script turns active) (held : active.localKeys.isSome)
    (alternates : active.receive.isSome → active.send.isSome) :
    ¬ side.Owns turns ∧ turns = side.receives (active.receive.elim 0 fun receive => receive.epoch + 1) := by
  have firsts := side.first_other
  have small := side.first_le
  cases received : active.receive with
  | none =>
    have early := tracks.waits received
    rcases tracks.holds.mp held with sending | ⟨rfl, -⟩
    · obtain ⟨sending, present⟩ := Option.isSome_iff_exists.mp sending
      obtain ⟨positive, owned, -⟩ := tracks.sends present
      simp only [Side.Owns, Side.receives, Option.elim_none] at owned ⊢
      omega
    · simp only [Side.other, Side.first] at early
      simp only [Side.Owns, Side.receives, Side.other, Side.first, Option.elim_none]
      omega
  | some receive =>
    obtain ⟨after, recent, -⟩ := tracks.receives received
    obtain ⟨sending, present⟩ := Option.isSome_iff_exists.mp (alternates (by rw [received]; rfl))
    obtain ⟨positive, owned, -⟩ := tracks.sends present
    simp only [Side.Owns, Side.receives, Option.elim_some] at *
    omega

theorem turned (tracks : Tracks side script turns active) (held : active.localKeys.isSome)
    (alternates : active.receive.isSome → active.send.isSome) {header : Header S} (digest : script.digest turns = header.turn) :
    Tracks side script (turns + 1) (active.turned header (script.dh turns) (script.kem turns)
      (active.receive.elim 0 fun receive => receive.epoch + 1)) := by
  obtain ⟨foreign, epoch⟩ := tracks.enters held alternates
  have theirs : side.other.Owns turns := (side.owns_other _).mpr foreign
  have owned : side.Owns (turns + 1) := (side.owns_succ _).mpr foreign
  have rest : ¬ side.other.Owns (turns + 1) := fun next => (side.owns_other _).mp next owned
  refine ⟨?_, ?_, ?_, fun _ => .inr foreign, nofun, nofun, ?_, ⟨nofun, ?_⟩, ⟨fun _ => .inr rfl, fun _ => rfl⟩⟩
  · simp only [Active.turned, tracks.root, Script.rootAt]
  · rw [Side.nextOwn_owned owned]
    simp only [Active.turned, tracks.nextSend, Side.nextOwn_foreign foreign]
  · rw [Side.nextOwn_foreign rest]
    simp only [Active.turned, tracks.root, Script.cipherAt]
  · rintro _ ⟨⟩
    simp only
    rw [← epoch]
    refine ⟨by omega, by omega, ?_, ?_⟩
    · simp only [Script.headerAt, tracks.nextReceive, Side.nextOwn_owned theirs, digest]
    · simp only [tracks.root, Script.seedAt, chainSecret]
  · intro impossible
    simp [Active.turned] at impossible

theorem key (tracks : Tracks side script turns active) {receive : Receiving S} (present : active.receive = some receive)
    (offset : Nat) :
    messageKey receive.chain.secret offset =
      script.keyAt (side.receives receive.epoch) (receive.chain.count + offset) := by
  obtain ⟨-, -, -, secret⟩ := tracks.receives present
  rw [secret, Script.keyAt, messageKey_add]

end Tracks
end StogasVerifier.Channel
