import StogasVerifier.Proofs.PairExchange

/-! Two peers over a network that drops, delays, reorders and duplicates. It
delivers only headers that the other side sealed, with their request numbers. -/

namespace StogasVerifier.Channel
open Std Lib

variable {S : Suite}

structure Sent (S : Suite) where
  side : Side
  request : Nat
  key : SendKey S

structure Pair (S : Suite) where
  peers : Side → Peer S
  sent : List (Sent S)

namespace Pair

structure Starts (root seed : S.Secret) (pair : Pair S) : Prop where
  initiator : Peer.initiator root (KeyPair.fromSeed seed).publicKeys = .ok (pair.peers .initiator)
  responder : pair.peers .responder = Peer.responder root (KeyPair.fromSeed seed)
  silent : pair.sent = []

inductive Step : Pair S → Pair S → Prop where
  | send {pair : Pair S} {side : Side} {request : Nat} {entropy : Entropy S} {key : SendKey S} {next : Peer S}
      (sent : (pair.peers side).send request entropy = (.ok key, next)) :
      Step pair ⟨Function.update pair.peers side next, pair.sent ++ [⟨side, request, key⟩]⟩
  | fail {pair : Pair S} {side : Side} {request : Nat} {entropy : Entropy S} {error : Error} {next : Peer S}
      (failed : (pair.peers side).send request entropy = (.error error, next)) :
      Step pair ⟨Function.update pair.peers side next, pair.sent⟩
  | receive {T : Type} {pair : Pair S} {side : Side} {message : Sent S} (member : message ∈ pair.sent)
      (other : message.side = side.other) (now : Nat) (authenticate : S.Secret → Except Error T) :
      Step pair ⟨Function.update pair.peers side
        ((pair.peers side).receive message.key.header message.request now authenticate).2, pair.sent⟩
  | expire {pair : Pair S} (side : Side) (now : Nat) :
      Step pair ⟨Function.update pair.peers side ((pair.peers side).expire now), pair.sent⟩
  | discard {pair : Pair S} (side : Side) :
      Step pair ⟨Function.update pair.peers side (pair.peers side).discardDelayed, pair.sent⟩

structure Agreed (exchange : Exchange S) (turns : Side → Nat) (pair : Pair S) : Prop where
  paired : Paired exchange turns pair.peers
  messages : ∀ message ∈ pair.sent, ∃ turn number, turn < turns message.side ∧
    Paired.Message exchange turn number message.request message.key

theorem Starts.agreed {root seed : S.Secret} {pair : Pair S} (start : Starts root seed pair) :
    ∃ exchange, Agreed exchange (fun _ => 0) pair := by
  obtain ⟨exchange, paired⟩ := Paired.initial start.initiator start.responder
  exact ⟨exchange, paired, by rw [start.silent]; nofun⟩

section Preservation

variable {exchange : Exchange S} {turns : Side → Nat} {pair next : Pair S}

private theorem Agreed.move (agreed : Agreed exchange turns pair) {later : Side → Nat} {peers : Side → Peer S}
    (paired : Paired exchange later peers) (more : ∀ side, turns side ≤ later side) :
    Agreed exchange later ⟨peers, pair.sent⟩ := by
  refine ⟨paired, fun message member => ?_⟩
  obtain ⟨turn, number, below, genuine⟩ := agreed.messages message member
  exact ⟨turn, number, Nat.lt_of_lt_of_le below (more _), genuine⟩

private theorem le_update {side : Side} {later : Nat} (more : turns side ≤ later) (other : Side) :
    turns other ≤ Function.update turns side later other := by
  by_cases same : other = side
  · subst same
    simpa using more
  · simp [same]

theorem Agreed.expire (agreed : Agreed exchange turns pair) (side : Side) (now : Nat) :
    Agreed exchange turns ⟨Function.update pair.peers side ((pair.peers side).expire now), pair.sent⟩ :=
  agreed.move (agreed.paired.setStored ((agreed.paired.placed side).expire now)) fun _ => Nat.le_refl _

theorem Agreed.send (agreed : Agreed exchange turns pair) {side : Side} {request : Nat} {entropy : Entropy S} {key : SendKey S}
    {peer : Peer S} (sent : (pair.peers side).send request entropy = (.ok key, peer)) :
    ∃ longer turn number, Paired.Sends exchange longer turns pair.peers side request key peer.active turn number ∧
      Agreed longer (Function.update turns side (turn + 1))
        ⟨Function.update pair.peers side peer, pair.sent ++ [⟨side, request, key⟩]⟩ := by
  unfold Peer.send at sent
  split at sent
  · cases sent
  next active done =>
    cases sent
    obtain ⟨longer, turn, number, sends⟩ := agreed.paired.send done
    refine ⟨longer, turn, number, sends, sends.paired, fun other member => ?_⟩
    have more : turns side ≤ turn + 1 := by rw [sends.moved]; split <;> omega
    rcases List.mem_append.mp member with earlier | last
    · obtain ⟨before, count, below, genuine⟩ := agreed.messages other earlier
      exact ⟨before, count, Nat.lt_of_lt_of_le below (le_update more _), genuine.congr (sends.agrees _) below⟩
    · rw [List.mem_singleton.mp last]
      exact ⟨turn, number, by simp, sends.message⟩

/-- Any other call leaves the exchange. A message may bring its receiver into the
sender's turn, after which it still has the same turn of its own ahead. -/
theorem Agreed.quiet (ideal : S.Ideal) (agreed : Agreed exchange turns pair) (move : Step pair next)
    (silent : next.sent = pair.sent) :
    ∃ later, (∀ side, turns side ≤ later side ∧ side.nextOwn (later side) = side.nextOwn (turns side)) ∧
      Agreed exchange later next := by
  have stay : ∀ side : Side, turns side ≤ turns side ∧ side.nextOwn (turns side) = side.nextOwn (turns side) :=
    fun _ => ⟨Nat.le_refl _, rfl⟩
  cases move with
  | send sent => simp at silent
  | @fail _ side request entropy error peer failed =>
    unfold Peer.send at failed
    split at failed
    · cases failed
      rw [Function.update_eq_self]
      exact ⟨turns, stay, agreed⟩
    · cases failed
  | @receive T _ side message member other now authenticate =>
    cases done : (pair.peers side).receive message.key.header message.request now authenticate with
    | mk result peer =>
      cases result with
      | error error =>
        obtain rfl := Peer.receive_error done
        exact ⟨turns, stay, agreed.expire side now⟩
      | ok output =>
        obtain ⟨offer, offered, -, rfl⟩ := Peer.receive_ok.mp done
        obtain ⟨turn, number, below, genuine⟩ := agreed.messages message member
        have expired := agreed.expire side now
        have found : (Function.update pair.peers side ((pair.peers side).expire now) side).offer message.key.header
            message.request = .ok offer := by
          rw [Function.update_self]
          exact offered
        obtain ⟨-, -, reached, later, -, moves, paired⟩ := expired.paired.offered ideal genuine (other ▸ below) found
        rw [Function.update_idem] at paired
        have own : side.nextOwn later = side.nextOwn (turns side) := by
          obtain ⟨rfl, -⟩ | ⟨rfl, entered, -⟩ := moves
          · rfl
          · have foreign : ¬ side.Owns (turns side) := by
              rw [entered, ← reached]
              exact side.receives_foreign _
            rw [Side.nextOwn_foreign foreign, Side.nextOwn_owned ((side.owns_succ _).mpr foreign)]
        refine ⟨_, fun other => ⟨le_update moves.le other, ?_⟩, agreed.move paired (le_update moves.le)⟩
        by_cases same : other = side
        · subst same
          simpa using own
        · simp [same]
  | expire side now => exact ⟨turns, stay, agreed.expire side now⟩
  | discard side =>
    exact ⟨turns, stay, agreed.move (agreed.paired.setStored (agreed.paired.placed side).discardDelayed)
      fun _ => Nat.le_refl _⟩

theorem Agreed.step (ideal : S.Ideal) (agreed : Agreed exchange turns pair) (move : Step pair next) :
    ∃ longer later, Agreed longer later next := by
  by_cases silent : next.sent = pair.sent
  · obtain ⟨later, -, kept⟩ := agreed.quiet ideal move silent
    exact ⟨exchange, later, kept⟩
  · cases move with
    | send sent =>
      obtain ⟨longer, turn, number, -, kept⟩ := agreed.send sent
      exact ⟨longer, _, kept⟩
    | _ => exact absurd rfl silent

end Preservation

theorem Starts.reaches (ideal : S.Ideal) {root seed : S.Secret} {first pair : Pair S} (start : Starts root seed first)
    (run : Relation.ReflTransGen Step first pair) : ∃ exchange turns, Agreed exchange turns pair := by
  induction run with
  | refl =>
    obtain ⟨exchange, agreed⟩ := start.agreed
    exact ⟨exchange, _, agreed⟩
  | tail _ move ih =>
    obtain ⟨exchange, turns, agreed⟩ := ih
    exact agreed.step ideal move

/-- In every run, a message that one peer sealed is either refused by the other
before any callback, or handed to the callback with exactly the secret that
`send` returned for it. -/
theorem receive_agrees (ideal : S.Ideal) {root seed : S.Secret} {first pair : Pair S} (start : Starts root seed first)
    (run : Relation.ReflTransGen Step first pair) {message : Sent S} (member : message ∈ pair.sent) {side : Side}
    (other : message.side = side.other) (now : Nat) :
    (∃ error, ∀ {T : Type} (authenticate : S.Secret → Except Error T),
      (pair.peers side).receive message.key.header message.request now authenticate =
        (.error error, (pair.peers side).expire now)) ∨
    ∃ after, ∀ {T : Type} (authenticate : S.Secret → Except Error T),
      (pair.peers side).receive message.key.header message.request now authenticate =
        match authenticate message.key.secret with
        | .error error => (.error error, (pair.peers side).expire now)
        | .ok output => (.ok output, after) := by
  obtain ⟨exchange, turns, agreed⟩ := start.reaches ideal run
  obtain ⟨turn, number, below, genuine⟩ := agreed.messages message member
  have expired := agreed.expire side now
  cases offered : ((pair.peers side).expire now).offer message.key.header message.request with
  | error error =>
    refine .inl ⟨error, fun authenticate => ?_⟩
    rw [Peer.receive_settles, offered]
    rfl
  | ok offer =>
    have found : (Function.update pair.peers side ((pair.peers side).expire now) side).offer message.key.header
        message.request = .ok offer := by
      rw [Function.update_self]
      exact offered
    obtain ⟨same, -⟩ := expired.paired.offered ideal genuine (other ▸ below) found
    refine .inr ⟨offer.after, fun authenticate => ?_⟩
    rw [Peer.receive_settles, offered, ← same]
    rfl

def samplePair : Pair symbolic where
  peers
    | .initiator => Peer.new (.atom 0) none (some (KeyPair.fromSeed (S := symbolic) (.atom 1)).publicKeys) true
    | .responder => Peer.responder (.atom 0) (KeyPair.fromSeed (S := symbolic) (.atom 1))
  sent := []

theorem receive_agrees_sample : ∃ (pair : Pair symbolic) (message : Sent symbolic),
    Relation.ReflTransGen Step samplePair pair ∧ message ∈ pair.sent ∧ message.request = 7 ∧
    ((∃ error, ∀ {T : Type} (authenticate : Term → Except Error T),
      (pair.peers .responder).receive message.key.header 7 5 authenticate =
        (.error error, (pair.peers .responder).expire 5)) ∨
    ∃ after, ∀ {T : Type} (authenticate : Term → Except Error T),
      (pair.peers .responder).receive message.key.header 7 5 authenticate =
        match authenticate message.key.secret with
        | .error error => (.error error, (pair.peers .responder).expire 5)
        | .ok output => (.ok output, after)) := by
  obtain ⟨key, next, sent⟩ : ∃ key next, (samplePair.peers .initiator).send 7 ⟨.ok (.atom 2), .ok (.atom 3)⟩ =
      (.ok key, next) := ⟨_, _, rfl⟩
  have start : Starts (S := symbolic) (.atom 0) (.atom 1) samplePair := ⟨rfl, rfl, rfl⟩
  have run := Relation.ReflTransGen.single (Step.send sent)
  exact ⟨_, ⟨.initiator, 7, key⟩, run, List.mem_singleton_self _, rfl,
    receive_agrees Symbolic.ideal start run (List.mem_singleton_self _) rfl 5⟩

end Pair
end StogasVerifier.Channel
