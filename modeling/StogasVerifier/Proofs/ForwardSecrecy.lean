import StogasVerifier.Channel.Attacker
import StogasVerifier.Proofs.PeerOnce

/-! A released message key stays secret. Whoever captures the peer later has
only roots of later turns, chain secrets behind the key's position and keys of
other positions, and each of them is one-way. -/

namespace StogasVerifier.Channel
open Std Lib

variable {S : Suite}

namespace Script

private theorem cipherAt_block (script : Script S) (turn : Nat) :
    (∃ block, block ≠ 0 ∧ (script.cipherAt turn).key = S.expand .initialization script.root block) ∨
      ∃ root dh kem, (script.cipherAt turn).key = S.expandRoot root dh kem 2 :=
  match turn with
  | 0 => .inl ⟨1, by decide, rfl⟩
  | 1 => .inl ⟨2, by decide, rfl⟩
  | _ + 2 => .inr ⟨_, _, _, rfl⟩

section Distinct

variable (collisionFree : S.CollisionFree) (script other : Script S)
include collisionFree

theorem rootAt_ne_chain (turn : Nat) (input : S.Secret) (block : Nat) : script.rootAt turn ≠ S.expand .chain input block := by
  intro same
  cases turn with
  | zero => exact absurd (collisionFree.expand same).1 (by decide)
  | succ turn => exact collisionFree.separate same.symm

theorem chainSecret_position {turn number turn' number' : Nat}
    (same : chainSecret (script.seedAt turn) number = chainSecret (other.seedAt turn') number') :
    turn = turn' ∧ number = number' := by
  induction number generalizing number' with
  | zero =>
    cases number' with
    | zero => exact ⟨rootAt_turn collisionFree script other (collisionFree.root same).1, rfl⟩
    | succ number' => exact absurd same.symm collisionFree.separate
  | succ number ih =>
    cases number' with
    | zero => exact absurd same collisionFree.separate
    | succ number' =>
      obtain ⟨turns, numbers⟩ := ih (collisionFree.expand same).2.1
      exact ⟨turns, congrArg Nat.succ numbers⟩

theorem keyAt_position {turn number turn' number' : Nat} (same : script.keyAt turn number = other.keyAt turn' number') :
    turn = turn' ∧ number = number' :=
  chainSecret_position collisionFree script other (collisionFree.expand same).2.1

theorem rootAt_ne_chainSecret (turn turn' number : Nat) : script.rootAt turn ≠ chainSecret (other.seedAt turn') number := by
  intro same
  cases number with
  | zero =>
    cases turn with
    | zero => exact collisionFree.separate same
    | succ turn => exact absurd (collisionFree.root same).2.2.2 (by decide)
  | succ number => exact script.rootAt_ne_chain collisionFree turn _ _ same

theorem chainSecret_ne_keyAt (turn number turn' number' : Nat) :
    chainSecret (script.seedAt turn) number ≠ other.keyAt turn' number' := by
  intro same
  cases number with
  | zero => exact collisionFree.separate same.symm
  | succ number => exact absurd (collisionFree.expand same).2.2 (by decide)

theorem cipherAt_ne_rootAt (turn turn' : Nat) : (script.cipherAt turn).key ≠ other.rootAt turn' := by
  intro same
  obtain ⟨block, positive, shape⟩ | ⟨root, dh, kem, shape⟩ := script.cipherAt_block turn <;> rw [shape] at same
  · cases turn' with
    | zero => exact positive (collisionFree.expand same).2.2
    | succ turn' => exact collisionFree.separate same
  · cases turn' with
    | zero => exact collisionFree.separate same.symm
    | succ turn' => exact absurd (collisionFree.root same).2.2.2 (by decide)

theorem cipherAt_ne_chain (turn : Nat) (input : S.Secret) (block : Nat) :
    (script.cipherAt turn).key ≠ S.expand .chain input block := by
  intro same
  obtain ⟨_, -, shape⟩ | ⟨root, dh, kem, shape⟩ := script.cipherAt_block turn <;> rw [shape] at same
  · exact absurd (collisionFree.expand same).1 (by decide)
  · exact collisionFree.separate same.symm

theorem cipherAt_ne_chainSecret (turn turn' number : Nat) :
    (script.cipherAt turn).key ≠ chainSecret (other.seedAt turn') number := by
  intro same
  cases number with
  | zero =>
    obtain ⟨_, -, shape⟩ | ⟨root, dh, kem, shape⟩ := script.cipherAt_block turn <;> rw [shape] at same
    · exact collisionFree.separate same
    · exact absurd (collisionFree.root same).2.2.2 (by decide)
  | succ number => exact script.cipherAt_ne_chain collisionFree turn _ _ same

end Distinct

theorem rootAt_ratchet (script : Script symbolic) (turn : Nat) : Term.Ratchet (script.rootAt turn) := by
  cases turn <;> trivial

theorem chainSecret_ratchet (script : Script symbolic) (turn number : Nat) :
    Term.Ratchet (chainSecret (script.seedAt turn) number) := by
  cases number <;> trivial

end Script

namespace Peer

/-- What a call does to the sending side: it releases the next key of the chain,
which a new turn starts, or it leaves the chain, or it ends the turn. -/
inductive Releases (before after : Active S) : Event S → Prop where
  | next {request : Nat} {key : SendKey S} {chain : Chain S} {sending : Sending S}
      (current : before.send = none ∧ chain.count = 0 ∨ ∃ old, before.send = some old ∧ old.chain = chain)
      (present : after.send = some sending) (stepped : sending.chain = chain.after 1)
      (secret : key.secret = messageKey chain.secret 0) : Releases before after (.sent request (.ok key))
  | same {event : Event S} (silent : ∀ request key, event ≠ .sent request (.ok key)) (same : after.send = before.send) :
      Releases before after event
  | ends {event : Event S} (silent : ∀ request key, event ≠ .sent request (.ok key)) (ended : after.send = none) :
      Releases before after event

theorem Step.releases {peer next : Peer S} {event : Event S} (move : Step peer event next) :
    Releases peer.active next.active event := by
  cases move with
  | send _ request entropy =>
    unfold Peer.send
    cases sent : peer.active.sendWith request entropy with
    | error error => exact .same (by simp) rfl
    | ok result =>
      obtain ⟨turn, sending, bytes, opened, present, -, -, same, shape⟩ :=
        Active.sendWith_ok.mp (show peer.active.sendWith request entropy = .ok (result.1, result.2) from sent)
      refine .next ?_ (by simp only [shape]; rfl) (show _ = sending.chain.after 1 from rfl) (by rw [same])
      cases silent : peer.active.send with
      | none =>
        simp only [silent, Option.isNone_none, if_true] at opened
        obtain ⟨remote, seed, randomness, dh, -, -, -, -, rfl⟩ := Active.startTurn_ok.mp opened
        cases present
        exact .inl ⟨rfl, rfl⟩
      | some old =>
        simp only [silent, Option.isNone_some, Bool.false_eq_true, if_false] at opened
        subst opened
        exact .inr ⟨old, rfl, by cases silent.symm.trans present; rfl⟩
  | refuse failed =>
    rw [receive_error failed]
    exact .same nofun (by rw [(expire_frame peer _).1])
  | @accept _ _ _ _ _ now _ _ _ offered accepted =>
    obtain ⟨offer, again, -, rfl⟩ := receive_ok.mp accepted
    cases offered.symm.trans again
    obtain ⟨ended, -⟩ | ⟨same, -⟩ := offer_sending offered
    · exact .ends nofun ended
    · exact .same nofun (by rw [same, (expire_frame peer now).1])
  | expire _ now => exact .same nofun (by rw [(expire_frame peer now).1])
  | discard => exact .same nofun rfl

def Generates (peer : Peer S) : Prop := ∀ {keys}, peer.active.localKeys = some keys → ∃ seed, keys = KeyPair.fromSeed seed

theorem Generates.step {peer next : Peer S} {event : Event S} (generates : Generates peer) (move : Step peer event next) :
    Generates next := by
  intro keys held
  cases move with
  | send _ request entropy =>
    unfold Peer.send at held
    cases sent : peer.active.sendWith request entropy with
    | error error =>
      simp only [sent] at held
      exact generates held
    | ok result =>
      simp only [sent] at held
      obtain ⟨turn, sending, bytes, opened, -, -, -, -, shape⟩ :=
        Active.sendWith_ok.mp (show peer.active.sendWith request entropy = .ok (result.1, result.2) from sent)
      rw [shape] at held
      split at opened
      · obtain ⟨remote, seed, randomness, dh, -, -, -, -, rfl⟩ := Active.startTurn_ok.mp opened
        cases held
        exact ⟨seed, rfl⟩
      · subst opened
        exact generates held
  | refuse failed =>
    rw [receive_error failed, (expire_frame peer _).1] at held
    exact generates held
  | @accept _ _ _ _ _ now _ _ _ offered accepted =>
    obtain ⟨offer, again, -, rfl⟩ := receive_ok.mp accepted
    cases offered.symm.trans again
    obtain ⟨-, none⟩ | ⟨-, same⟩ := offer_sending offered
    · rw [none] at held
      cases held
    · rw [same, (expire_frame peer now).1] at held
      exact generates held
  | expire _ now =>
    rw [(expire_frame peer now).1] at held
    exact generates held
  | discard => exact generates held

def Sealed (side : Side) (script : Script S) (turns : Nat) (events : List (Event S)) (active : Active S) : Prop :=
  ∀ {request key}, .sent request (.ok key) ∈ events → ∃ turn number, turn < turns ∧ side.Owns turn ∧
    key.secret = script.keyAt turn number ∧
    ∀ {sending}, active.send = some sending → turn + 1 = turns → number < sending.chain.count

theorem Sealed.step (collisionFree : S.CollisionFree) {side : Side} {script longer : Script S} {turns later : Nat}
    {events} {event : Event S} {peer next : Peer S} (sealed : Sealed side script turns events peer.active)
    (before : Tracks side script turns peer.active) (after : Tracks side longer later next.active)
    (agrees : Script.Agrees turns script longer) (more : turns ≤ later) (move : Step peer event next) :
    Sealed side longer later (events ++ [event]) next.active := by
  intro request key member
  have releases := move.releases
  rcases List.mem_append.mp member with earlier | last
  · obtain ⟨turn, number, below, owned, secret, behind⟩ := sealed earlier
    refine ⟨turn, number, by omega, owned, by rw [secret, agrees.keyAt below], fun {sending} present current => ?_⟩
    have same : turn + 1 = turns := by omega
    cases releases with
    | next started now stepped =>
      cases present.symm.trans now
      obtain ⟨idle, -⟩ | ⟨old, present, rfl⟩ := started
      · -- A turn in progress would be the peer's own, and an idle peer's last turn is not.
        obtain ⟨positive, mine, -⟩ := after.sends now
        rw [← current] at mine
        rcases before.idle idle with zero | foreign
        · omega
        · rw [← same] at foreign
          exact absurd mine foreign
      · have := behind present same
        rw [stepped]
        simp only [Chain.after]
        omega
    | same _ kept => exact behind (kept ▸ present) same
    | ends _ ended =>
      rw [ended] at present
      cases present
  · cases List.mem_singleton.mp last
    cases releases with
    | same silent _ => exact absurd rfl (silent _ _)
    | ends silent _ => exact absurd rfl (silent _ _)
    | @next _ _ chain sending started now stepped released =>
      obtain ⟨positive, owned, -, secret⟩ := after.sends now
      refine ⟨later - 1, chain.count, by omega, owned, ?_, fun {other} present _ => ?_⟩
      · rw [stepped] at secret
        have same : chain.secret = chainSecret (longer.seedAt (later - 1)) chain.count := (collisionFree.expand secret).2.1
        rw [released, same, Script.keyAt, messageKey_add]
        rfl
      · cases present.symm.trans now
        rw [stepped]
        exact Nat.lt_succ_self _

inductive Retained (side : Side) (script : Script symbolic) (turns : Nat) (peer : Peer symbolic) : Term → Prop where
  | root : Retained side script turns peer (script.rootAt turns)
  | generated (seed : Term) (block : Nat) (held : peer.active.localKeys = some (KeyPair.fromSeed (S := symbolic) seed)) :
      Retained side script turns peer (.expand .keyGeneration seed block)
  | header (turn : Nat) : Retained side script turns peer (script.cipherAt turn).key
  | sending {sending : Sending symbolic} (present : peer.active.send = some sending) (positive : 0 < turns) :
      Retained side script turns peer (chainSecret (script.seedAt (turns - 1)) sending.chain.count)
  | receiving {receive : Receiving symbolic} (present : peer.active.receive = some receive)
      (started : side.receives receive.epoch < turns) :
      Retained side script turns peer (chainSecret (script.seedAt (side.receives receive.epoch)) receive.chain.count)
  | key {id : KeyId} {key : Skipped symbolic} (found : peer.lookup id = some key) (started : side.receives id.1 < turns) :
      Retained side script turns peer (script.keyAt (side.receives id.1) id.2)

theorem Follows.retained {side : Side} {script} {turns : Nat} {peer} {term : Term}
    (follows : Follows side script turns peer) (generates : Generates peer) (held : peer.Holds term) :
    Retained side script turns peer term := by
  have tracks := follows.tracks
  cases held with
  | root =>
    rw [tracks.root]
    exact .root
  | localDh held =>
    obtain ⟨seed, rfl⟩ := generates held
    exact .generated seed 0 held
  | localKemD held =>
    obtain ⟨seed, rfl⟩ := generates held
    exact .generated seed 1 held
  | localKemZ held =>
    obtain ⟨seed, rfl⟩ := generates held
    exact .generated seed 2 held
  | sendChain present =>
    obtain ⟨positive, -, -, secret⟩ := tracks.sends present
    rw [secret]
    exact .sending present positive
  | sendHeader present =>
    rw [(tracks.sends present).2.2.1]
    exact .header _
  | receiveChain present =>
    obtain ⟨started, -, -, secret⟩ := tracks.receives present
    rw [secret]
    exact .receiving present started
  | receiveHeader present =>
    rw [(tracks.receives present).2.2.1]
    exact .header _
  | nextSend =>
    rw [tracks.nextSend]
    exact .header _
  | nextReceive =>
    rw [tracks.nextReceive]
    exact .header _
  | skippedHeader present =>
    rw [follows.groups present]
    exact .header _
  | @skippedKey epoch number group key present found =>
    have stored : peer.lookup (epoch, number) = some key := by simp [lookup, present, found]
    rw [follows.secrets stored]
    exact .key stored (follows.stored_turn stored)

/-- A position whose key the peer has given up. -/
structure Behind (side : Side) (turns : Nat) (peer : Peer S) (turn number : Nat) : Prop where
  started : turn < turns
  sending : ∀ {sending}, peer.active.send = some sending → turn + 1 = turns → number < sending.chain.count
  receiving : ∀ {receive}, peer.active.receive = some receive → side.receives receive.epoch = turn →
    number < receive.chain.count
  gone : ∀ {id : KeyId}, side.receives id.1 = turn → id.2 = number → peer.lookup id = none

end Peer

/-- The secrets that lead to a message key: the roots up to its turn, the chain
up to its number and the key itself. -/
def Script.past (script : Script symbolic) (turn number : Nat) : Set Term :=
  {term | term = script.root ∨ (∃ earlier ≤ turn, term = script.rootAt earlier) ∨
    (∃ earlier ≤ number, term = chainSecret (script.seedAt turn) earlier) ∨ term = script.keyAt turn number}

section Past

variable {script : Script symbolic} {name turn number : Nat}

private theorem Script.past_ratchet (secret : script.root = .atom name) {term : Term} (inside : term ∈ script.past turn number) :
    term.Ratchet := by
  obtain rfl | ⟨earlier, -, rfl⟩ | ⟨earlier, -, rfl⟩ | rfl := inside
  · rw [secret]
    trivial
  · exact script.rootAt_ratchet earlier
  · exact script.chainSecret_ratchet turn earlier
  · trivial

theorem Script.past_guarded (secret : script.root = .atom name) : Guarded (script.past turn number) := by
  constructor
  · rintro label input block (same | ⟨earlier, below, same⟩ | ⟨earlier, below, same⟩ | same)
    · rw [secret] at same
      cases same
    · cases earlier with
      | zero =>
        cases same
        exact .inl rfl
      | succ earlier => cases same
    · cases earlier with
      | zero => cases same
      | succ earlier =>
        cases same
        exact .inr (.inr (.inl ⟨earlier, by omega, rfl⟩))
    · cases same
      exact .inr (.inr (.inl ⟨number, Nat.le_refl _, rfl⟩))
  · rintro root dh kem block (same | ⟨earlier, below, same⟩ | ⟨earlier, below, same⟩ | same)
    · rw [secret] at same
      cases same
    · cases earlier with
      | zero => cases same
      | succ earlier =>
        cases same
        exact .inl (.inr (.inl ⟨earlier, by omega, rfl⟩))
    · cases earlier with
      | zero =>
        cases same
        exact .inl (.inr (.inl ⟨turn, Nat.le_refl _, rfl⟩))
      | succ earlier => cases same
    · cases same
  · exact fun inside => False.elim (past_ratchet secret inside)
  · exact fun inside => False.elim (past_ratchet secret inside)
  · exact fun inside => False.elim (past_ratchet secret inside)
  · exact fun inside => False.elim (past_ratchet secret inside)

private theorem Script.chainSecret_past (secret : script.root = .atom name) {other count : Nat}
    (inside : chainSecret (script.seedAt other) count ∈ script.past turn number) : other = turn ∧ count ≤ number := by
  have free := Symbolic.collisionFree
  rcases inside with same | ⟨earlier, below, same⟩ | ⟨earlier, below, same⟩ | same
  · rw [secret] at same
    cases count <;> cases same
  · exact absurd same.symm (rootAt_ne_chainSecret free script script _ _ _)
  · obtain ⟨here, rfl⟩ := chainSecret_position free script script same
    exact ⟨here, below⟩
  · exact absurd same (chainSecret_ne_keyAt free script script _ _ _ _)

/-- Nothing that a peer holds leads to a key it has given up. -/
theorem Script.past_apart (secret : script.root = .atom name) {side : Side} {turns : Nat} {peer : Peer symbolic}
    (behind : peer.Behind side turns turn number) {term : Term} (retained : peer.Retained side script turns term) :
    term ∉ script.past turn number := by
  have free := Symbolic.collisionFree
  have started := behind.started
  cases retained with
  | root =>
    rintro (same | ⟨earlier, below, same⟩ | ⟨earlier, below, same⟩ | same)
    · rw [secret] at same
      cases turns <;> cases same
    · have := rootAt_turn free script script same
      omega
    · exact rootAt_ne_chainSecret free script script _ _ _ same
    · exact rootAt_ne_chain free script _ _ _ same
  | generated seed block held =>
    rintro (same | ⟨earlier, below, same⟩ | ⟨earlier, below, same⟩ | same)
    · rw [secret] at same
      cases same
    · cases earlier <;> cases same
    · cases earlier <;> cases same
    · cases same
  | header current =>
    rintro (same | ⟨earlier, below, same⟩ | ⟨earlier, below, same⟩ | same)
    · rw [secret] at same
      match current with
      | 0 | 1 | current + 2 => cases same
    · exact cipherAt_ne_rootAt free script script _ _ same
    · exact cipherAt_ne_chainSecret free script script _ _ _ same
    · exact cipherAt_ne_chain free script _ _ _ same
  | @sending current present positive =>
    intro inside
    obtain ⟨here, count⟩ := chainSecret_past secret inside
    have := behind.sending present (by omega)
    omega
  | @receiving receive present inside =>
    intro earlier
    obtain ⟨here, count⟩ := chainSecret_past secret earlier
    have := behind.receiving present here
    omega
  | @key id key found inside =>
    rintro (same | ⟨earlier, below, same⟩ | ⟨earlier, below, same⟩ | same)
    · rw [secret] at same
      cases same
    · exact rootAt_ne_chain free script _ _ _ same.symm
    · exact chainSecret_ne_keyAt free script script _ _ _ _ same.symm
    · obtain ⟨here, count⟩ := keyAt_position free script script same
      rw [behind.gone here count] at found
      cases found

end Past

def released (events : List (Event S)) : List S.Secret :=
  events.filterMap fun
    | .sent _ (.ok key) => some key.secret
    | .accepted _ _ key _ => some key
    | _ => none

theorem mem_released {events} {key : S.Secret} :
    key ∈ released events ↔ (∃ request sent, .sent request (.ok sent) ∈ events ∧ sent.secret = key) ∨
      ∃ id, (id, key) ∈ acceptances events := by
  simp only [released, List.mem_filterMap, mem_acceptances]
  constructor
  · rintro ⟨event, member, found⟩
    split at found
    · cases found
      exact .inl ⟨_, _, member, rfl⟩
    · cases found
      exact .inr ⟨_, _, _, member⟩
    · cases found
  · rintro (⟨request, sent, member, rfl⟩ | ⟨id, now, stored, member⟩)
    · exact ⟨_, member, rfl⟩
    · exact ⟨_, member, rfl⟩

namespace Peer

/-- The states that the two constructors build from a secret name. -/
inductive Fresh (name : Nat) : Peer symbolic → Prop where
  | initiator {remote : PublicKeys symbolic} {peer : Peer symbolic}
      (created : Peer.initiator (S := symbolic) (.atom name) remote = .ok peer) : Fresh name peer
  | responder (seed : Term) : Fresh name (Peer.responder (S := symbolic) (.atom name) (KeyPair.fromSeed (S := symbolic) seed))

theorem Fresh.initial {name : Nat} {peer} (fresh : Fresh name peer) : Initial peer := by
  cases fresh with
  | initiator created => exact .initiator created
  | responder seed => exact .responder _ _

theorem Fresh.generates {name : Nat} {peer} (fresh : Fresh name peer) : Generates peer := by
  intro keys held
  cases fresh with
  | initiator created =>
    simp only [Peer.initiator, bind_ok, pure_ok] at created
    obtain ⟨-, -, rfl⟩ := created
    cases held
  | responder seed =>
    cases held
    exact ⟨seed, rfl⟩

theorem Fresh.follows {name : Nat} {peer} (fresh : Fresh name peer) :
    ∃ side script, script.root = .atom name ∧ Follows side script 0 peer := by
  cases fresh with
  | initiator created => exact ⟨.initiator, .blank (S := symbolic) (.atom name), rfl, .initiator (.blank _) created⟩
  | responder seed => exact ⟨.responder, .blank (S := symbolic) (.atom name), rfl, .responder (.blank _) _⟩

theorem Run.gives_up {name : Nat} {first last events} (fresh : Fresh name first)
    (run : Run first events last) : ∃ side script turns, script.root = .atom name ∧ Follows side script turns last ∧
      Generates last ∧ ∀ key ∈ released events, ∃ turn number, key = script.keyAt turn number ∧ last.Behind side turns turn number := by
  obtain ⟨side, script, root, start⟩ := fresh.follows
  have placed := Trace.invariant (fun events peer => ∃ script : Script symbolic, ∃ turns, script.root = .atom name ∧
    Follows side script turns peer ∧ Generates peer ∧ (∀ event ∈ events, Explains side script turns event) ∧
    Sealed side script turns events peer.active ∧ Kept events peer ∧ Spent events peer)
    ⟨script, 0, root, start, fresh.generates, nofun, nofun, .initial fresh.initial, List.nodup_nil, nofun, nofun⟩ ?_ run
  · obtain ⟨script, turns, root, follows, generates, explained, sealed, -, spent⟩ := placed
    refine ⟨side, script, turns, root, follows, generates, fun key member => ?_⟩
    rcases mem_released.mp member with ⟨request, sent, event, rfl⟩ | ⟨id, member⟩
    · obtain ⟨turn, number, below, owned, secret, behind⟩ := sealed event
      refine ⟨turn, number, secret, below, behind, ?_, ?_⟩
      · intro receive _ here
        exact absurd (here ▸ owned) (side.receives_foreign _)
      · intro id here _
        exact absurd (here ▸ owned) (side.receives_foreign _)
    · obtain ⟨now, stored, event⟩ := mem_acceptances.mp member
      obtain ⟨below, secret⟩ := explained _ event
      have used : id ∈ (acceptances events).map Prod.fst := List.mem_map.mpr ⟨_, member, rfl⟩
      refine ⟨side.receives id.1, id.2, secret, below, ?_, ?_, ?_⟩
      · intro sending present here
        have owned := (follows.tracks.sends present).2.1
        rw [← here] at owned
        exact absurd owned (side.receives_foreign _)
      · intro receive present here
        obtain ⟨current, same, order⟩ := spent.passed used
        cases present.symm.trans same
        have := side.receives_injective here
        simp only [Precedes] at order
        omega
      · intro other here number
        have same : other = id := Prod.ext (side.receives_injective here) number
        rw [same]
        exact spent.gone used
  · rintro events before event after ⟨script, turns, root, follows, generates, explained, sealed, kept, spent⟩ move
    obtain ⟨longer, later, agrees, more, next, explains⟩ := follows.step move
    refine ⟨longer, later, agrees.root.symm.trans root, next, generates.step move, fun call member => ?_,
      sealed.step Symbolic.collisionFree follows.tracks next.tracks agrees more move, kept.step move, spent.step kept.store move⟩
    rcases List.mem_append.mp member with earlier | last
    · exact (explained call earlier).mono agrees more
    · rw [List.mem_singleton.mp last]
      exact explains

/-- A message key that a call released cannot be computed from the complete
state of the peer after that call or after any later one, even with every public
key and ciphertext and with all names but the root's. -/
theorem forward_secrecy {name : Nat} {first last : Peer symbolic} {events : List (Event symbolic)} (fresh : Fresh name first)
    (run : Run first events last) {key : Term} (member : key ∈ released events) :
    ¬ Derivable (captured last {name}) key := by
  obtain ⟨side, script, turns, root, follows, generates, behind⟩ := Run.gives_up fresh run
  obtain ⟨turn, number, rfl, behind⟩ := behind key member
  intro derived
  refine (Script.past_guarded root).underivable ?_ derived (.inr (.inr (.inr rfl)))
  refine Set.disjoint_left.mpr ?_
  rintro term (held | ⟨other, different, rfl⟩)
  · exact Script.past_apart root behind (follows.retained generates held)
  · rintro (same | ⟨earlier, -, same⟩ | ⟨earlier, -, same⟩ | same)
    · rw [root] at same
      cases same
      exact different rfl
    · cases earlier <;> cases same
    · cases earlier <;> cases same
    · cases same

theorem forward_secrecy_sample : ∃ (peer : Peer symbolic) (events : List (Event symbolic)) (key : Term),
    Run sampleResponder events peer ∧ key ∈ released events ∧ ¬ Derivable (captured peer {0}) key := by
  obtain ⟨offer, -, -, run⟩ := sample_run
  have member : offer.key ∈ released [Event.accepted 5 offer.id offer.key offer.stored] := List.mem_singleton_self _
  exact ⟨_, _, _, run, member, forward_secrecy (.responder (.atom 1)) run member⟩

end Peer
end StogasVerifier.Channel
