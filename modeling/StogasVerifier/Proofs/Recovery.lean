import StogasVerifier.Proofs.ForwardSecrecy
import StogasVerifier.Proofs.PairAgreement

/-! A session recovers from the capture of one peer. The next turn that the
captured peer starts mixes in a secret encapsulated to the other peer, and every
later root and chain comes from it. -/

namespace StogasVerifier.Channel
open Std Lib

variable {S : Suite}

/-- The turn that a side starts after `count` turns of its own. -/
def Side.turn (side : Side) (count : Nat) : Nat := 2 * count + side.first

namespace Pair

/-- What a step of a session did: a message with the seed and randomness of the
turn if it started one, or anything else. -/
inductive Move (S : Suite) where
  | sent (side : Side) (request : Nat) (key : SendKey S) (drawn : Option (S.Secret × S.Secret))
  | quiet

/-- The steps of a session with what they drew. -/
inductive Acts : Pair S → Move S → Pair S → Prop where
  | starts {pair : Pair S} {side : Side} {request : Nat} {seed randomness : S.Secret} {key : SendKey S} {next : Peer S}
      (idle : (pair.peers side).active.send = none)
      (sent : (pair.peers side).send request ⟨.ok seed, .ok randomness⟩ = (.ok key, next)) :
      Acts pair (.sent side request key (some (seed, randomness)))
        ⟨Function.update pair.peers side next, pair.sent ++ [⟨side, request, key⟩]⟩
  | continues {pair : Pair S} {side : Side} {request : Nat} {entropy : Entropy S} {key : SendKey S} {next : Peer S}
      {sending : Sending S} (busy : (pair.peers side).active.send = some sending)
      (sent : (pair.peers side).send request entropy = (.ok key, next)) :
      Acts pair (.sent side request key none)
        ⟨Function.update pair.peers side next, pair.sent ++ [⟨side, request, key⟩]⟩
  | quiet {pair next : Pair S} (move : Step pair next) (silent : next.sent = pair.sent) : Acts pair .quiet next

theorem Acts.step {pair next : Pair S} {move : Move S} (acts : Acts pair move next) : Step pair next := by
  cases acts with
  | starts _ sent => exact .send sent
  | continues _ sent => exact .send sent
  | quiet move _ => exact move

theorem Step.acts {pair next : Pair S} (step : Step pair next) : ∃ move, Acts pair move next := by
  cases step with
  | @send _ side request entropy key peer sent =>
    cases idle : (pair.peers side).active.send with
    | some sending => exact ⟨_, .continues idle sent⟩
    | none =>
      have done := sent
      unfold Peer.send at done
      split at done
      · cases done
      next active made =>
        obtain ⟨turn, sending, bytes, opened, -⟩ := Active.sendWith_ok.mp made
        simp only [idle, Option.isNone_none, if_true] at opened
        obtain ⟨remote, seed, randomness, dh, -, seeded, drawn, -⟩ := Active.startTurn_ok.mp opened
        have shape : entropy = ⟨.ok seed, .ok randomness⟩ := by
          cases entropy
          simp_all
        exact ⟨_, .starts idle (shape ▸ sent)⟩
  | fail failed => exact ⟨_, .quiet (.fail failed) rfl⟩
  | receive member other now authenticate => exact ⟨_, .quiet (.receive member other now authenticate) rfl⟩
  | expire side now => exact ⟨_, .quiet (.expire side now) rfl⟩
  | discard side => exact ⟨_, .quiet (.discard side) rfl⟩

abbrev Run (first : Pair S) (moves : List (Move S)) (last : Pair S) : Prop := Trace Acts first moves last

def openings (side : Side) (moves : List (Move S)) : List (S.Secret × S.Secret) :=
  moves.filterMap fun
    | .sent sender _ _ drawn => if sender = side then drawn else none
    | .quiet => none

def seeds (seed : S.Secret) (side : Side) (moves : List (Move S)) : List S.Secret :=
  (match side with | .initiator => [] | .responder => [seed]) ++ (openings side moves).map Prod.fst

/-- A message secret and the turn it was sent in, which is the last turn that its
sender had started. -/
def Sends (moves : List (Move S)) (turn : Nat) (secret : S.Secret) : Prop :=
  ∃ before side request key drawn after count, moves = before ++ .sent side request key drawn :: after ∧
    (openings side (before ++ [.sent side request key drawn])).length = count + 1 ∧ turn = side.turn count ∧
    key.secret = secret

theorem openings_append (side : Side) (first second : List (Move S)) :
    openings side (first ++ second) = openings side first ++ openings side second :=
  List.filterMap_append ..

theorem Sends.snoc {moves} {move : Move S} {turn : Nat} {secret : S.Secret} (sends : Sends (moves ++ [move]) turn secret) :
    Sends moves turn secret ∨ ∃ side request key drawn count, move = .sent side request key drawn ∧
      (openings side (moves ++ [move])).length = count + 1 ∧ turn = side.turn count ∧ key.secret = secret := by
  obtain ⟨before, side, request, key, drawn, after, count, split, length, rfl, rfl⟩ := sends
  rcases List.eq_nil_or_concat after with rfl | ⟨rest, last, rfl⟩
  · obtain ⟨rfl, same⟩ := List.append_inj' split rfl
    cases same
    exact .inr ⟨side, request, key, drawn, count, rfl, length, rfl, rfl⟩
  · rw [List.concat_eq_append, ← List.cons_append, ← List.append_assoc] at split
    obtain ⟨rfl, -⟩ := List.append_inj' split rfl
    exact .inl ⟨before, side, request, key, drawn, rest, count, rfl, length, rfl, rfl⟩

/-- The exchange of a session says what every turn drew and sent. -/
structure Recorded (exchange : Exchange S) (turns : Side → Nat) (seed : S.Secret) (moves : List (Move S)) (pair : Pair S) :
    Prop where
  agreed : Agreed exchange turns pair
  initial : exchange.initial = KeyPair.fromSeed seed
  counted : ∀ side : Side, side.nextOwn (turns side) = side.turn (openings side moves).length
  drawn : ∀ {side : Side} {count fresh randomness}, (openings side moves)[count]? = some (fresh, randomness) →
    exchange.keys (side.turn count) = KeyPair.fromSeed fresh ∧
    exchange.script.kem (side.turn count) = ((exchange.recipient (side.turn count)).publicKeys.encapsulate randomness).2
  sends : ∀ {turn secret}, Sends moves turn secret → ∃ side number, turn < turns side ∧ secret = exchange.script.keyAt turn number

/-- An exchange that goes on from another: the turns taken before are the same. -/
structure Extends (exchange longer : Exchange S) (turns later : Side → Nat) : Prop where
  agrees : ∀ side, Exchange.Agrees (turns side) exchange longer
  more : ∀ side, turns side ≤ later side

theorem Extends.trans {first second third : Exchange S} {early middle late : Side → Nat} (before : Extends first second early middle)
    (after : Extends second third middle late) : Extends first third early late :=
  ⟨fun side => (before.agrees side).trans ((after.agrees side).mono (before.more side)),
    fun side => (before.more side).trans (after.more side)⟩

section Preservation

variable {exchange longer : Exchange S} {turns later : Side → Nat} {seed : S.Secret} {moves : List (Move S)} {pair next : Pair S}

theorem Recorded.begun (recorded : Recorded exchange turns seed moves pair) {side : Side} {count : Nat}
    (inside : count < (openings side moves).length) : side.turn count < turns side := by
  have counted := recorded.counted side
  unfold Side.nextOwn Side.turn at counted
  unfold Side.turn
  omega

private theorem Recorded.kept (recorded : Recorded exchange turns seed moves pair) (extended : Extends exchange longer turns later) :
    longer.initial = KeyPair.fromSeed seed ∧
    (∀ {side : Side} {count fresh randomness}, (openings side moves)[count]? = some (fresh, randomness) →
      longer.keys (side.turn count) = KeyPair.fromSeed fresh ∧
      longer.script.kem (side.turn count) = ((longer.recipient (side.turn count)).publicKeys.encapsulate randomness).2) ∧
    ∀ {turn secret}, Sends moves turn secret → ∃ side number, turn < later side ∧ secret = longer.script.keyAt turn number := by
  refine ⟨by rw [← (extended.agrees .initiator).initial, recorded.initial], ?_, ?_⟩
  · intro side count fresh randomness found
    obtain ⟨inside, -⟩ := List.getElem?_eq_some_iff.mp found
    have begun := recorded.begun inside
    have agrees := extended.agrees side
    obtain ⟨keys, kem⟩ := recorded.drawn found
    rw [← agrees.keys _ begun, ← agrees.script.kem _ begun, ← agrees.recipient begun.le]
    exact ⟨keys, kem⟩
  · intro turn secret sends
    obtain ⟨side, number, begun, rfl⟩ := recorded.sends sends
    exact ⟨side, number, Nat.lt_of_lt_of_le begun (extended.more side), (extended.agrees side).script.keyAt begun number⟩

private theorem Agreed.drew (collisionFree : S.CollisionFree) (agreed : Agreed exchange turns pair) {side : Side}
    {request turn number : Nat} {fresh randomness : S.Secret} {key} {peer : Peer S} (idle : (pair.peers side).active.send = none)
    (sent : (pair.peers side).send request ⟨.ok fresh, .ok randomness⟩ = (.ok key, peer))
    (sends : Paired.Sends exchange longer turns pair.peers side request key peer.active turn number) :
    longer.keys turn = KeyPair.fromSeed fresh ∧
      longer.script.kem turn = ((longer.recipient turn).publicKeys.encapsulate randomness).2 := by
  unfold Peer.send at sent
  split at sent
  · cases sent
  next active made =>
    cases sent
    have here : turn = turns side := by
      have moved := sends.moved
      simp only [idle, Option.isNone_none, if_true] at moved
      omega
    obtain ⟨started, sending, bytes, opened, present, -, -, -, rfl⟩ := Active.sendWith_ok.mp made
    simp only [idle, Option.isNone_none, if_true] at opened
    obtain ⟨remote, _, _, dh, known, ⟨⟩, ⟨⟩, -, rfl⟩ := Active.startTurn_ok.mp opened
    have placed := sends.paired.placed side
    simp only [Function.update_self] at placed
    have addressed : remote = (longer.recipient turn).publicKeys := by
      rw [(agreed.paired.placed side).remote known idle, here, (sends.agrees side).recipient (Nat.le_refl _)]
    refine ⟨(placed.localKeys rfl).symm, ?_⟩
    rw [← addressed]
    exact (collisionFree.root placed.follows.tracks.root).2.2.1.symm

private theorem openings_other {side other : Side} (different : other ≠ side) (moves : List (Move S)) (request : Nat)
    (key : SendKey S) (drawn : Option (S.Secret × S.Secret)) :
    openings other (moves ++ [Move.sent side request key drawn]) = openings other moves := by
  rw [openings_append]
  simp [openings, Ne.symm different]

private theorem openings_own (side : Side) (moves : List (Move S)) (request : Nat) (key : SendKey S)
    (drawn : Option (S.Secret × S.Secret)) :
    openings side (moves ++ [Move.sent side request key drawn]) = openings side moves ++ drawn.toList := by
  rw [openings_append]
  cases drawn <;> simp [openings]

private theorem openings_at (side : Side) (before after : List (Move S)) (request : Nat) (key : SendKey S)
    (draw : S.Secret × S.Secret) :
    (openings side (before ++ [Move.sent side request key (some draw)] ++ after))[(openings side before).length]? = some draw := by
  rw [openings_append, openings_own, List.append_assoc, List.getElem?_append_right (Nat.le_refl _), Nat.sub_self]
  rfl

private theorem Recorded.sent (recorded : Recorded exchange turns seed moves pair) {side : Side} {request turn number : Nat}
    {key} {active : Active S} {drawn} (sends : Paired.Sends exchange longer turns pair.peers side request key active turn number)
    (agreed : Agreed longer (Function.update turns side (turn + 1)) next)
    (last : side.turn (openings side (moves ++ [Move.sent side request key drawn])).length = turn + 2)
    (drew : ∀ {fresh randomness}, drawn = some (fresh, randomness) → longer.keys turn = KeyPair.fromSeed fresh ∧
      longer.script.kem turn = ((longer.recipient turn).publicKeys.encapsulate randomness).2) :
    Extends exchange longer turns (Function.update turns side (turn + 1)) ∧
      Recorded longer (Function.update turns side (turn + 1)) seed (moves ++ [.sent side request key drawn]) next := by
  have more : turns side ≤ turn + 1 := by rw [sends.moved]; split <;> omega
  have extended : Extends exchange longer turns (Function.update turns side (turn + 1)) := by
    refine ⟨sends.agrees, fun other => ?_⟩
    by_cases same : other = side
    · subst same
      simpa using more
    · simp [same]
  obtain ⟨initial, earlier, sentBefore⟩ := recorded.kept extended
  refine ⟨extended, agreed, initial, fun other => ?_, ?_, ?_⟩
  · by_cases same : other = side
    · subst same
      rw [last, Function.update_self, Side.nextOwn_foreign fun next => (Side.owns_succ _ _).mp next sends.owned]
    · rw [openings_other same, Function.update_of_ne same, recorded.counted]
  · intro other count fresh randomness found
    by_cases same : other = side
    · subst same
      rw [openings_own] at found last
      rcases Nat.lt_or_ge count (openings other moves).length with old | new
      · rw [List.getElem?_append_left old] at found
        exact earlier found
      · rw [List.getElem?_append_right new] at found
        cases drawn with
        | none => simp at found
        | some draw =>
          obtain ⟨zero, rfl⟩ : count - (openings other moves).length = 0 ∧ draw = (fresh, randomness) := by
            cases position : count - (openings other moves).length with
            | zero => simpa [position] using found
            | succ position' => simp [position] at found
          have here : other.turn count = turn := by
            simp only [Option.toList_some, List.length_append, List.length_singleton] at last
            unfold Side.turn at last ⊢
            omega
          rw [here]
          exact drew rfl
    · rw [openings_other same] at found
      exact earlier found
  · intro other secret sent
    rcases sent.snoc with old | ⟨_, _, _, _, count, ⟨⟩, length, rfl, rfl⟩
    · exact sentBefore old
    · have here : side.turn count = turn := by
        rw [length] at last
        unfold Side.turn at last ⊢
        omega
      rw [here]
      exact ⟨side, number, by simp, sends.message.secret⟩

theorem Recorded.step (ideal : S.Ideal) (recorded : Recorded exchange turns seed moves pair) {move : Move S}
    (acts : Acts pair move next) :
    ∃ longer later, Extends exchange longer turns later ∧ Recorded longer later seed (moves ++ [move]) next := by
  cases acts with
  | quiet step silent =>
    obtain ⟨later, moved, agreed⟩ := recorded.agreed.quiet ideal step silent
    have extended : Extends exchange exchange turns later := ⟨fun _ => .refl _ _, fun side => (moved side).1⟩
    have same : ∀ side, openings side (moves ++ [Move.quiet]) = openings side moves := fun side => by
      rw [openings_append]
      exact List.append_nil _
    obtain ⟨initial, drawn, sends⟩ := recorded.kept extended
    refine ⟨exchange, later, extended, agreed, initial, fun side => ?_, fun found => drawn (same _ ▸ found), fun sent => ?_⟩
    · rw [(moved side).2, recorded.counted, same]
    · rcases sent.snoc with earlier | ⟨_, _, _, _, _, impossible, -⟩
      · exact sends earlier
      · cases impossible
  | @starts side request fresh randomness key peer idle sent =>
    obtain ⟨longer, turn, number, sends, agreed⟩ := recorded.agreed.send sent
    refine ⟨longer, _, recorded.sent sends agreed ?_ ?_⟩
    · have counted := recorded.counted side
      have moved := sends.moved
      simp only [idle, Option.isNone_none, if_true] at moved
      have here : turn = turns side := by omega
      rw [← here, Side.nextOwn_owned sends.owned] at counted
      rw [openings_own]
      simp only [Option.toList_some, List.length_append, List.length_singleton]
      unfold Side.turn at counted ⊢
      omega
    · rintro _ _ ⟨⟩
      exact recorded.agreed.drew ideal.collisionFree idle sent sends
  | @continues side request entropy key peer sending busy sent =>
    obtain ⟨longer, turn, number, sends, agreed⟩ := recorded.agreed.send sent
    refine ⟨longer, _, recorded.sent sends agreed ?_ nofun⟩
    have counted := recorded.counted side
    have moved := sends.moved
    simp only [busy, Option.isNone_some, Bool.false_eq_true, if_false] at moved
    rw [← moved, Side.nextOwn_foreign fun next => (Side.owns_succ _ _).mp next sends.owned] at counted
    rw [openings_own]
    simp only [Option.toList_none, List.append_nil]
    omega

theorem Recorded.run (ideal : S.Ideal) (recorded : Recorded exchange turns seed moves pair) {more : List (Move S)}
    {last : Pair S} (run : Run pair more last) :
    ∃ longer later, Extends exchange longer turns later ∧ Recorded longer later seed (moves ++ more) last := by
  refine Trace.invariant (fun more last => ∃ longer later, Extends exchange longer turns later ∧
    Recorded longer later seed (moves ++ more) last) ?_ ?_ run
  · exact ⟨exchange, turns, ⟨fun _ => .refl _ _, fun _ => Nat.le_refl _⟩, by rw [List.append_nil]; exact recorded⟩
  · rintro events before event after ⟨middle, between, extended, kept⟩ acts
    obtain ⟨longer, later, further, recorded⟩ := kept.step ideal acts
    rw [List.append_assoc] at recorded
    exact ⟨longer, later, extended.trans further, recorded⟩

end Preservation

theorem Starts.recorded {root seed : S.Secret} {pair : Pair S} (start : Starts root seed pair) :
    ∃ exchange, Recorded exchange (fun _ => 0) seed [] pair := by
  obtain ⟨exchange, agreed⟩ := start.agreed
  refine ⟨exchange, agreed, ?_, ?_, nofun, ?_⟩
  · have placed := agreed.paired.placed .responder
    rw [start.responder] at placed
    exact (placed.localKeys rfl).symm
  · intro side
    cases side <;> rfl
  · rintro turn secret ⟨before, side, request, key, drawn, after, count, split, -⟩
    simp at split

private theorem Agreed.owns_start {exchange} {turns : Side → Nat} {pair next : Pair S} (agreed : Agreed exchange turns pair)
    {side : Side} {request : Nat} {key draw} (begins : Acts pair (.sent side request key (some draw)) next) : side.Owns (turns side) := by
  cases begins with
  | starts idle sent =>
    obtain ⟨longer, turn, number, sends, -⟩ := agreed.send sent
    have moved := sends.moved
    simp only [idle, Option.isNone_none, if_true] at moved
    rw [← Nat.succ.inj moved]
    exact sends.owned

theorem Recorded.holds {exchange} {turns : Side → Nat} {seed : S.Secret} {moves}
    {pair : Pair S} (recorded : Recorded exchange turns seed moves pair) {side : Side} {keys}
    (held : (pair.peers side).active.localKeys = some keys) : ∃ fresh ∈ seeds seed side moves, keys = KeyPair.fromSeed fresh := by
  have placed := recorded.agreed.paired.placed side
  have tracks := placed.follows.tracks
  have addressed := placed.localKeys held
  rcases tracks.holds.mp (by rw [held]; rfl) with busy | ⟨rfl, silent⟩
  · obtain ⟨sending, present⟩ := Option.isSome_iff_exists.mp busy
    obtain ⟨positive, owned, -⟩ := tracks.sends present
    have counted := recorded.counted side
    rw [Side.nextOwn_foreign fun next => (side.owns_pred (by omega)).mp owned next] at counted
    have inside : (openings side moves).length - 1 < (openings side moves).length := by
      have small := side.first_le
      unfold Side.turn at counted
      omega
    have turn : turns side - 1 = side.turn ((openings side moves).length - 1) := by
      unfold Side.turn at counted ⊢
      omega
    have found := List.getElem?_eq_getElem inside
    refine ⟨_, List.mem_append_right _ (List.mem_map.mpr ⟨_, List.mem_of_getElem? found, rfl⟩), ?_⟩
    rw [addressed, ← Nat.sub_add_cancel positive]
    change exchange.keys (turns side - 1) = _
    rw [turn]
    exact (recorded.drawn found).1
  · have zero : turns .responder = 0 := Nat.le_zero.mp (tracks.waits silent)
    refine ⟨seed, List.mem_append_left _ (List.mem_singleton_self _), ?_⟩
    rw [addressed, zero]
    exact recorded.initial

theorem Recorded.recipient {exchange} {turns : Side → Nat} {seed : S.Secret} {moves}
    {pair : Pair S} (recorded : Recorded exchange turns seed moves pair) {side : Side} (owned : side.Owns (turns side)) :
    ∃ fresh, (seeds seed side.other moves).getLast? = some fresh ∧
      exchange.recipient (side.turn (openings side moves).length) = KeyPair.fromSeed fresh := by
  have paired := recorded.agreed.paired
  have mine := recorded.counted side
  rw [Side.nextOwn_owned owned] at mine
  have level : turns side.other = turns side := by
    refine Nat.le_antisymm (paired.ahead owned side.other) ?_
    cases reached : turns side with
    | zero => exact Nat.zero_le _
    | succ turn =>
      rw [reached] at owned
      have theirs : side.other.Owns turn := (side.owns_other _).mpr ((side.owns_succ turn).mp owned)
      exact paired.begun side.other turn (by rw [side.other_other, reached]; exact Nat.lt_succ_self _) theirs
  have theirs := recorded.counted side.other
  rw [level, Side.nextOwn_foreign fun foreign => (side.owns_other _).mp foreign owned] at theirs
  rw [← mine]
  cases count : (openings side.other moves).length with
  | zero =>
    -- Only the initiator starts a turn before the other side has.
    rw [count] at theirs
    cases side with
    | responder => simp [Side.turn, Side.other, Side.first] at theirs
    | initiator =>
      have start : turns .initiator = 0 := by simpa [Side.turn, Side.other, Side.first] using theirs
      refine ⟨seed, ?_, ?_⟩
      · have empty : openings .responder moves = [] := List.length_eq_zero_iff.mp count
        simp [seeds, Side.other, empty]
      · rw [start]
        exact recorded.initial
  | succ last =>
    rw [count] at theirs
    have latest : turns side = side.other.turn last + 1 := by
      unfold Side.turn at theirs ⊢
      omega
    have inside : last < (openings side.other moves).length := by omega
    have found := List.getElem?_eq_getElem inside
    refine ⟨(openings side.other moves)[last].1, ?_, ?_⟩
    · unfold seeds
      rw [List.getLast?_append, List.getLast?_map, List.getLast?_eq_getElem?, count, Nat.add_sub_cancel, found]
      rfl
    · rw [latest]
      exact (recorded.drawn found).1

end Pair

/-- The secrets that a turn's shared secret leads to, and what it takes to know
it: its randomness or the key pair it is encapsulated to. -/
inductive Script.Future (script : Script symbolic) (turn random recipient : Nat) : Term → Prop where
  | randomness : Future script turn random recipient (.atom random)
  | seed : Future script turn random recipient (.atom recipient)
  | generated : Future script turn random recipient (.expand .keyGeneration (.atom recipient) 1)
  | shared : Future script turn random recipient (script.kem turn)
  | root {later : Nat} (after : turn < later) : Future script turn random recipient (script.rootAt later)
  | chain {later : Nat} (reached : turn ≤ later) (number : Nat) :
      Future script turn random recipient (chainSecret (script.seedAt later) number)
  | key {later : Nat} (reached : turn ≤ later) (number : Nat) :
      Future script turn random recipient (script.keyAt later number)

section Future

variable {script : Script symbolic} {turn random recipient : Nat}

private theorem Script.Future.mixed {later : Nat} (reached : turn ≤ later) :
    script.Future turn random recipient (script.rootAt later) ∨ script.Future turn random recipient (script.kem later) := by
  rcases Nat.eq_or_lt_of_le reached with rfl | after
  · exact .inr .shared
  · exact .inl (.root after)

def Script.Secret (script : Script symbolic) (turn random recipient : Nat) : Prop :=
  script.kem turn = .encapsulated (.expand .keyGeneration (.atom recipient) 1) (.expand .keyGeneration (.atom recipient) 2)
    (.atom random)

private theorem Script.Future.ratchet {term : Term} (inside : script.Future turn random recipient term) :
    term.Ratchet ∨ term = script.kem turn := by
  cases inside with
  | randomness | seed | generated | key => exact .inl trivial
  | shared => exact .inr rfl
  | root after => exact .inl (script.rootAt_ratchet _)
  | chain reached number => exact .inl (script.chainSecret_ratchet _ _)

theorem Script.Secret.guarded (secret : script.Secret turn random recipient) :
    Guarded {term | script.Future turn random recipient term} := by
  constructor
  · intro label input block inside
    generalize same : Term.expand label input block = term at inside
    cases inside with
    | randomness | seed => cases same
    | generated =>
      cases same
      exact .seed
    | shared =>
      rw [secret] at same
      cases same
    | @root later after =>
      cases later with
      | zero => omega
      | succ later => cases same
    | chain reached number =>
      cases number with
      | zero => cases same
      | succ number =>
        cases same
        exact .chain reached number
    | key reached number =>
      cases same
      exact .chain reached number
  · intro root dh kem block inside
    generalize same : Term.expandRoot root dh kem block = term at inside
    cases inside with
    | randomness | seed | generated => cases same
    | shared =>
      rw [secret] at same
      cases same
    | @root later after =>
      cases later with
      | zero => omega
      | succ later =>
        cases same
        exact (Future.mixed (Nat.lt_succ_iff.mp after)).imp_right .inr
    | chain reached number =>
      cases number with
      | zero =>
        cases same
        exact (Future.mixed reached).imp_right .inr
      | succ number => cases same
    | key reached number => cases same
  · intro key info block inside
    rcases Future.ratchet inside with impossible | same
    · exact False.elim impossible
    · cases same.trans secret
  · intro first second inside
    rcases Future.ratchet inside with impossible | same
    · exact False.elim impossible
    · cases same.trans secret
  · intro d z randomness inside
    rcases Future.ratchet inside with impossible | same
    · exact False.elim impossible
    · cases same.trans secret
      exact ⟨.randomness, .inl .generated⟩
  · intro d z otherD otherZ randomness inside
    rcases Future.ratchet inside with impossible | same
    · exact False.elim impossible
    · cases same.trans secret

section Apart

variable (secret : script.Secret turn random recipient) {later : Nat}
include secret

private theorem Script.Secret.of_root (inside : script.Future turn random recipient (script.rootAt later)) : turn < later := by
  have free := Symbolic.collisionFree
  generalize same : script.rootAt later = term at inside
  cases inside with
  | randomness | seed | generated => cases later <;> cases same
  | shared =>
    rw [secret] at same
    cases later <;> cases same
  | root after =>
    have := rootAt_turn free script script same
    omega
  | chain reached number => exact absurd same (rootAt_ne_chainSecret free script script _ _ _)
  | key reached number => exact absurd same (rootAt_ne_chain free script _ _ _)

private theorem Script.Secret.of_header (inside : script.Future turn random recipient (script.cipherAt later).key) : False := by
  have free := Symbolic.collisionFree
  generalize same : (script.cipherAt later).key = term at inside
  cases inside with
  | randomness | seed | generated =>
    match later with
    | 0 | 1 | later + 2 => cases same
  | shared =>
    rw [secret] at same
    match later with
    | 0 | 1 | later + 2 => cases same
  | root after => exact cipherAt_ne_rootAt free script script _ _ same
  | chain reached number => exact cipherAt_ne_chainSecret free script script _ _ _ same
  | key reached number => exact cipherAt_ne_chain free script _ _ _ same

private theorem Script.Secret.of_chain {number : Nat}
    (inside : script.Future turn random recipient (chainSecret (script.seedAt later) number)) : turn ≤ later := by
  have free := Symbolic.collisionFree
  generalize same : chainSecret (script.seedAt later) number = term at inside
  cases inside with
  | randomness | seed | generated => cases number <;> cases same
  | shared =>
    rw [secret] at same
    cases number <;> cases same
  | root after => exact absurd same.symm (rootAt_ne_chainSecret free script script _ _ _)
  | chain reached number =>
    rw [(chainSecret_position free script script same).1]
    exact reached
  | key reached number => exact absurd same (chainSecret_ne_keyAt free script script _ _ _ _)

private theorem Script.Secret.of_key {number : Nat}
    (inside : script.Future turn random recipient (script.keyAt later number)) : turn ≤ later := by
  have free := Symbolic.collisionFree
  generalize same : script.keyAt later number = term at inside
  cases inside with
  | randomness | seed | generated => cases same
  | shared =>
    rw [secret] at same
    cases same
  | root after => exact absurd same.symm (rootAt_ne_chain free script _ _ _)
  | chain reached number => exact absurd same.symm (chainSecret_ne_keyAt free script script _ _ _ _)
  | key reached number =>
    rw [(keyAt_position free script script same).1]
    exact reached

private theorem Script.Secret.of_generated {seed : Term} {block : Nat}
    (inside : script.Future turn random recipient (.expand .keyGeneration seed block)) : seed = .atom recipient := by
  generalize same : Term.expand .keyGeneration seed block = term at inside
  cases inside with
  | randomness | seed => cases same
  | generated =>
    cases same
    rfl
  | shared =>
    rw [secret] at same
    cases same
  | @root later after => cases later <;> cases same
  | chain reached number => cases number <;> cases same
  | key reached number => cases same

private theorem Script.Secret.of_atom {name : Nat} (inside : script.Future turn random recipient (.atom name)) :
    name ∈ ({random, recipient} : Set Nat) := by
  generalize same : Term.atom name = term at inside
  cases inside with
  | randomness =>
    cases same
    exact .inl rfl
  | seed =>
    cases same
    exact .inr rfl
  | generated => cases same
  | shared =>
    rw [secret] at same
    cases same
  | @root later after => cases later <;> cases same
  | chain reached number => cases number <;> cases same
  | key reached number => cases same

/-- A peer before this turn holds nothing that comes after it, unless the key
pair it holds is the recipient's. -/
theorem Script.Secret.apart {side : Side} {turns : Nat} {peer : Peer symbolic} (early : turns ≤ turn)
    (uncompromised : peer.active.localKeys ≠ some (KeyPair.fromSeed (S := symbolic) (.atom recipient))) {term : Term}
    (retained : peer.Retained side script turns term) : ¬ script.Future turn random recipient term := by
  intro inside
  cases retained with
  | root =>
    have := secret.of_root inside
    omega
  | generated seed block held =>
    rw [secret.of_generated inside] at held
    exact uncompromised held
  | header current => exact secret.of_header inside
  | sending present positive =>
    have := secret.of_chain inside
    omega
  | receiving present started =>
    have := secret.of_chain inside
    omega
  | key found started =>
    have := secret.of_key inside
    omega

end Apart
end Future

private theorem fromSeed_injective {first second : Term}
    (same : KeyPair.fromSeed (S := symbolic) first = KeyPair.fromSeed (S := symbolic) second) : first = second := by
  have expanded : Term.expand .keyGeneration first 0 = Term.expand .keyGeneration second 0 := congrArg KeyPair.dh same
  cases expanded
  rfl

namespace Pair

/-- A session recovers from the capture of one peer's complete state at any point
of any run. Take the first turn that this peer starts afterwards, with
randomness unknown to the attacker, to a key pair whose seed is unknown to it and
was not drawn by the captured peer. No message secret of that turn, or of any
later turn of either peer, can be computed from the captured state, even with
every public key and ciphertext and with all names but those two. -/
theorem post_compromise_recovery {root seed : Term} {first middle before started last : Pair symbolic}
    {past quiet rest : List (Move symbolic)} {side : Side} {request : Nat} {key : SendKey symbolic} {fresh : Term}
    {random recipient : Nat} (start : Starts (S := symbolic) root seed first) (run : Run first past middle)
    (waits : Run middle quiet before) (none : openings side quiet = [])
    (begins : Acts before (.sent side request key (some (fresh, .atom random))) started) (later : Run started rest last)
    (unknown : (seeds (S := symbolic) seed side.other (past ++ quiet)).getLast? = some (.atom recipient))
    (uncompromised : .atom recipient ∉ seeds (S := symbolic) seed side past) {turn : Nat} {secret : Term}
    (reached : side.turn (openings side past).length ≤ turn)
    (sends : Sends (past ++ quiet ++ [.sent side request key (some (fresh, .atom random))] ++ rest) turn secret) :
    ¬ Derivable (captured (middle.peers side) {random, recipient}) secret := by
  obtain ⟨_, recorded⟩ := start.recorded
  obtain ⟨atCapture, captureTurns, -, captureRecorded⟩ := recorded.run Symbolic.ideal run
  rw [List.nil_append] at captureRecorded
  obtain ⟨atStart, startTurns, toStart, startRecorded⟩ := captureRecorded.run Symbolic.ideal waits
  obtain ⟨atTurn, turnTurns, toTurn, turnRecorded⟩ := startRecorded.step Symbolic.ideal begins
  obtain ⟨exchange, turns, toLast, lastRecorded⟩ := turnRecorded.run Symbolic.ideal later
  have toEnd := toTurn.trans toLast
  have count : openings side (past ++ quiet) = openings side past := by rw [openings_append, none, List.append_nil]
  have owned := startRecorded.agreed.owns_start begins
  have counted := startRecorded.counted side
  rw [count, Side.nextOwn_owned owned] at counted
  -- What the new turn draws stays unknown, so its shared secret does.
  have shared : exchange.script.Secret (side.turn (openings side past).length) random recipient := by
    obtain ⟨_, latest, address⟩ := startRecorded.recipient owned
    cases unknown.symm.trans latest
    rw [count, ← counted, (toEnd.agrees side).recipient (Nat.le_refl _)] at address
    have drawn := openings_at side (past ++ quiet) rest request key (fresh, .atom random)
    rw [count] at drawn
    have mixed := (lastRecorded.drawn drawn).2
    rw [← counted, address] at mixed
    rw [← counted]
    exact mixed
  have early : captureTurns side ≤ side.turn (openings side past).length := by
    rw [← captureRecorded.counted]
    exact Nat.le_add_right _ _
  have unheld : (middle.peers side).active.localKeys ≠ some (KeyPair.fromSeed (S := symbolic) (.atom recipient)) := by
    intro held
    obtain ⟨own, member, same⟩ := captureRecorded.holds held
    rw [← fromSeed_injective same] at member
    exact uncompromised member
  have follows := (captureRecorded.agreed.paired.placed side).follows.congr ((toStart.trans toEnd).agrees side).script
  have generates : (middle.peers side).Generates := by
    intro keys held
    obtain ⟨own, -, same⟩ := captureRecorded.holds held
    exact ⟨own, same⟩
  obtain ⟨sender, number, -, rfl⟩ := lastRecorded.sends sends
  intro derived
  refine shared.guarded.underivable ?_ derived (.key reached number)
  refine Set.disjoint_left.mpr ?_
  rintro term (held | ⟨name, different, rfl⟩)
  · exact shared.apart early unheld (follows.retained generates held)
  · exact fun inside => different (shared.of_atom inside)

def waitingPair : Pair symbolic := ⟨Function.update samplePair.peers .responder ((samplePair.peers .responder).expire 5), []⟩

/-- The second message of the initiator's first turn, after its state was captured with the root. -/
theorem post_compromise_recovery_sample : ∃ (pair : Pair symbolic) (key next : SendKey symbolic),
    Run samplePair [.quiet] waitingPair ∧
    Run waitingPair [.sent .initiator 7 key (some (.atom 2, .atom 3)), .sent .initiator 8 next none] pair ∧
    ¬ Derivable (captured (samplePair.peers .initiator) {3, 1}) next.secret := by
  have start : Starts (S := symbolic) (.atom 0) (.atom 1) samplePair := ⟨rfl, rfl, rfl⟩
  have waits : Run samplePair [.quiet] waitingPair := Trace.single (.quiet (.expire .responder 5) rfl)
  obtain ⟨key, started, sent, sending, busy, next, last, again⟩ : ∃ key started,
      (waitingPair.peers .initiator).send 7 ⟨.ok (.atom 2), .ok (.atom 3)⟩ = (.ok key, started) ∧
      ∃ sending, started.active.send = some sending ∧
      ∃ next last, started.send 8 ⟨.ok (.atom 4), .ok (.atom 5)⟩ = (.ok next, last) := ⟨_, _, rfl, _, rfl, _, _, rfl⟩
  have begins : Acts waitingPair _ _ := .starts rfl sent
  have goes : Acts ⟨Function.update waitingPair.peers .initiator started, [⟨.initiator, 7, key⟩]⟩ (.sent .initiator 8 next none) _ :=
    .continues busy again
  have later := Trace.single goes
  refine ⟨_, key, next, waits, (Trace.single begins).snoc goes, ?_⟩
  exact post_compromise_recovery start .nil waits rfl begins later rfl List.not_mem_nil (Nat.zero_le _)
    ⟨[.quiet, .sent .initiator 7 key (some (.atom 2, .atom 3))], .initiator, 8, next, none, [], 0, rfl, rfl, rfl, rfl⟩

end Pair
end StogasVerifier.Channel
