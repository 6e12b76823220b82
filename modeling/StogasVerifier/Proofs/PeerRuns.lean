import StogasVerifier.Lib.Trace
import StogasVerifier.Channel.Symbolic
import StogasVerifier.Proofs.PeerProgress

/-! Runs of one peer under arbitrary calls: any bytes, request numbers, times,
randomness and callbacks, in any order. -/

namespace StogasVerifier.Channel
open Std Lib

variable {S : Suite}

/-- What one call did. An accepted message names the position of the key its
callback was given and the positions whose keys the call stored. -/
inductive Event (S : Suite) where
  | sent (request : Nat) (result : Except Error (SendKey S))
  | refused (now : Nat)
  | accepted (now : Nat) (id : KeyId) (key : S.Secret) (stored : List KeyId)
  | expired (now : Nat)
  | discarded

def Event.time : Event S → Nat
  | .refused now | .accepted now .. | .expired now => now
  | _ => 0

def Event.stored : Event S → List KeyId
  | .accepted _ _ _ stored => stored
  | _ => []

def latest (events : List (Event S)) : Nat := events.foldl (fun time event => max time event.time) 0

@[simp] theorem latest_snoc (events : List (Event S)) (event : Event S) :
    latest (events ++ [event]) = max (latest events) event.time := by
  simp [latest]

def StoredAt (events : List (Event S)) (id : KeyId) (time : Nat) : Prop :=
  ∃ before event after, events = before ++ event :: after ∧ id ∈ event.stored ∧ time = latest (before ++ [event])

theorem StoredAt.snoc {events : List (Event S)} {event : Event S} {id : KeyId} {time : Nat} :
    StoredAt (events ++ [event]) id time ↔
      StoredAt events id time ∨ id ∈ event.stored ∧ time = latest (events ++ [event]) := by
  constructor
  · rintro ⟨before, call, after, split, member, rfl⟩
    rcases List.eq_nil_or_concat after with rfl | ⟨rest, last, rfl⟩
    · obtain ⟨rfl, same⟩ := List.append_inj' split rfl
      cases same
      exact .inr ⟨member, rfl⟩
    · rw [List.concat_eq_append, ← List.cons_append, ← List.append_assoc] at split
      obtain ⟨rfl, -⟩ := List.append_inj' split rfl
      exact .inl ⟨before, call, rest, rfl, member, rfl⟩
  · rintro (⟨before, call, after, rfl, member, rfl⟩ | ⟨member, rfl⟩)
    · exact ⟨before, call, after ++ [event], by simp, member, rfl⟩
    · exact ⟨events, event, [], rfl, member, rfl⟩

namespace Peer

/-- The states that the two constructors build. -/
inductive Initial : Peer S → Prop where
  | initiator {root : S.Secret} {remote : PublicKeys S} {peer : Peer S}
      (created : Peer.initiator root remote = .ok peer) : Initial peer
  | responder (root : S.Secret) (initial : KeyPair S) : Initial (Peer.responder root initial)

/-- One call with arbitrary arguments. -/
inductive Step : Peer S → Event S → Peer S → Prop where
  | send (peer : Peer S) (request : Nat) (entropy : Entropy S) :
      Step peer (.sent request (peer.send request entropy).1) (peer.send request entropy).2
  | refuse {T : Type} {peer next : Peer S} {bytes : S.Bytes} {request now : Nat} {authenticate : S.Secret → Except Error T}
      {error : Error} (failed : peer.receive bytes request now authenticate = (.error error, next)) :
      Step peer (.refused now) next
  | accept {T : Type} {peer next : Peer S} {bytes : S.Bytes} {request now : Nat} {authenticate : S.Secret → Except Error T}
      {output : T} {offer : Offer S} (offered : (peer.expire now).offer bytes request = .ok offer)
      (passed : peer.receive bytes request now authenticate = (.ok output, next)) :
      Step peer (.accepted now offer.id offer.key offer.stored) next
  | expire (peer : Peer S) (now : Nat) : Step peer (.expired now) (peer.expire now)
  | discard (peer : Peer S) : Step peer .discarded peer.discardDelayed

abbrev Run (first : Peer S) (events : List (Event S)) (last : Peer S) : Prop := Trace Step first events last

theorem receive_ok {T : Type} {peer next : Peer S} {bytes : S.Bytes} {request now : Nat}
    {authenticate : S.Secret → Except Error T} {output : T} :
    peer.receive bytes request now authenticate = (.ok output, next) ↔
      ∃ offer, (peer.expire now).offer bytes request = .ok offer ∧ authenticate offer.key = .ok output ∧
        next = offer.after := by
  rw [receive_settles]
  unfold settle
  constructor
  · intro passed
    split at passed
    · cases passed
    next offer offered =>
      split at passed
      · cases passed
      next value accepted => cases passed; exact ⟨offer, offered, accepted, rfl⟩
  · rintro ⟨offer, offered, accepted, rfl⟩
    simp [offered, accepted]

theorem receive_error {T : Type} {peer next : Peer S} {bytes : S.Bytes} {request now : Nat}
    {authenticate : S.Secret → Except Error T} {error : Error}
    (failed : peer.receive bytes request now authenticate = (.error error, next)) : next = peer.expire now := by
  rw [receive_settles] at failed
  unfold settle at failed
  split at failed
  · cases failed
    rfl
  · split at failed
    · cases failed
      rfl
    · cases failed

theorem send_frame (peer : Peer S) (request : Nat) (entropy : Entropy S) :
    ∃ active, (peer.send request entropy).2 = { peer with active } ∧ active.receive = peer.active.receive := by
  unfold send
  cases sent : peer.active.sendWith request entropy with
  | error error => exact ⟨peer.active, rfl, rfl⟩
  | ok result =>
    obtain ⟨key, active⟩ := result
    obtain ⟨turn, sending, bytes, opened, -, -, -, -, rfl⟩ := Active.sendWith_ok.mp sent
    refine ⟨_, rfl, ?_⟩
    split at opened
    · obtain ⟨remote, seed, randomness, dh, -, -, -, -, rfl⟩ := Active.startTurn_ok.mp opened
      rfl
    · subst opened
      rfl

/-- The store and its history: every stored key carries the deadline of the time
at which its position was passed. -/
structure Kept (events : List (Event S)) (peer : Peer S) : Prop where
  store : KeyStore peer
  clock : peer.lastNow = latest events
  stamped : ∀ {id key}, peer.lookup id = some key → ∃ time, StoredAt events id time
  dated : ∀ {id key time}, peer.lookup id = some key → StoredAt events id time → key.expires = peer.retention.deadline time
  past : ∀ {id time}, StoredAt events id time → peer.active.Passed id

theorem Kept.initial {peer : Peer S} (initial : Initial peer) : Kept [] peer := by
  have never : ∀ {id : KeyId} {time : Nat}, ¬ StoredAt ([] : List (Event S)) id time := by
    rintro id time ⟨before, event, after, split, -⟩
    simp at split
  have empty : ∀ (root : S.Secret) localKeys remote client,
      Kept [] (Peer.new root localKeys remote client) := fun root localKeys remote client =>
    ⟨.new root localKeys remote client, rfl, fun found => by simp [Peer.new, lookup] at found,
      fun _ stored => absurd stored never, fun stored => absurd stored never⟩
  cases initial with
  | initiator created =>
    simp only [Peer.initiator, bind_ok, pure_ok] at created
    obtain ⟨-, -, rfl⟩ := created
    exact empty _ _ _ _
  | responder root keys => exact empty _ _ _ _

section Preservation

variable {events : List (Event S)} {peer : Peer S}

private theorem Kept.shrink (kept : Kept events peer) (next : Peer S) (event : Event S) (store : KeyStore next)
    (quiet : event.stored = []) (clock : next.lastNow = max peer.lastNow event.time)
    (subset : ∀ {id key}, next.lookup id = some key → peer.lookup id = some key)
    (retention : next.retention = peer.retention) (passed : ∀ {id}, peer.active.Passed id → next.active.Passed id) :
    Kept (events ++ [event]) next := by
  have same : ∀ {id time}, StoredAt (events ++ [event]) id time ↔ StoredAt events id time := by
    intro id time
    simp [StoredAt.snoc, quiet]
  refine ⟨store, ?_, ?_, ?_, ?_⟩
  · rw [latest_snoc, clock, kept.clock]
  · intro id key found
    simpa only [same] using kept.stamped (subset found)
  · intro id key time found stored
    rw [retention]
    exact kept.dated (subset found) (same.mp stored)
  · intro id time stored
    exact passed (kept.past (same.mp stored))

theorem expire_subset {peer : Peer S} (store : KeyStore peer) (now : Nat) {id : KeyId} {key : Skipped S}
    (found : (peer.expire now).lookup id = some key) : peer.lookup id = some key :=
  ((expire_drops peer now).keeps_newest (store.withClock now)).2.1 found

private theorem Kept.expire (kept : Kept events peer) (event : Event S) (quiet : event.stored = []) :
    Kept (events ++ [event]) (peer.expire event.time) := by
  obtain ⟨active, -, clock, retention⟩ := expire_frame peer event.time
  exact kept.shrink _ _ (kept.store.expire _) quiet clock (expire_subset kept.store _) retention
    fun passed => by rwa [active]

private theorem KeyStore.removeStored {peer : Peer S} (store : KeyStore peer) {id : KeyId} {key : Skipped S}
    (found : peer.lookup id = some key) : KeyStore (peer.remove id key.order) :=
  store.remove (store.filed found)

private theorem Kept.accept (kept : Kept events peer) {bytes : S.Bytes} {request now : Nat} {offer : Offer S}
    (offered : (peer.expire now).offer bytes request = .ok offer) :
    Kept (events ++ [.accepted now offer.id offer.key offer.stored]) offer.after := by
  obtain ⟨active, -, clock, retention⟩ := expire_frame peer now
  have store := kept.store.expire now
  cases offer_cases offered with
  | @stored header key opened number found secret quiet after =>
    obtain ⟨found, -⟩ := stored_some.mp found
    rw [after]
    refine kept.shrink _ _ (store.removeStored found) quiet clock ?_ retention fun passed => ?_
    · intro id other present
      rw [lookup_remove] at present
      split at present
      · cases present
      · exact expire_subset kept.store now present
    · rwa [show ((peer.expire now).remove offer.id key.order).active = peer.active from active]
  | @chain header next last pending opened counted derived room number between stored after =>
    have fits := receiveKey_fits derived
    obtain ⟨newActive, -, newClock, newRetention⟩ :=
      committed_frame (peer.expire now) last fits
    have fresh : ∀ {id time}, StoredAt events id time → ∀ skipped ∈ pending, skipped.id ≠ id := by
      rintro id time past skipped member rfl
      exact between.fresh skipped member (by rw [active]; exact kept.past past)
    have member : ∀ {id : KeyId}, id ∈ offer.stored ↔ ∃ skipped ∈ pending, skipped.id = id := by
      intro id
      rw [stored, List.mem_map]
    rw [after]
    refine ⟨store.committed between fits, ?_, ?_, ?_, ?_⟩
    · rw [newClock, clock, latest_snoc, kept.clock]
      rfl
    · intro id other found
      simp only [StoredAt.snoc]
      obtain old | ⟨skipped, inPending, same, -⟩ := lookup_committed between store fits found
      · obtain ⟨time, past⟩ := kept.stamped (expire_subset kept.store now old)
        exact ⟨time, .inl past⟩
      · exact ⟨_, .inr ⟨member.mpr ⟨skipped, inPending, same⟩, rfl⟩⟩
    · intro id other time found stamp
      rw [newRetention, retention]
      obtain past | ⟨inStored, rfl⟩ := StoredAt.snoc.mp stamp
      · obtain old | ⟨skipped, inPending, same, -⟩ := lookup_committed between store fits found
        · exact kept.dated (expire_subset kept.store now old) past
        · exact absurd same (fresh past skipped inPending)
      · obtain ⟨skipped, inPending, rfl⟩ := member.mp inStored
        obtain old | ⟨skipped, -, -, -, expires⟩ := lookup_committed between store fits found
        · exact absurd (store.passed old) (between.fresh skipped inPending)
        · rw [expires, retention, clock, latest_snoc, kept.clock]
          rfl
    · intro id time stamp
      rw [newActive]
      obtain past | ⟨inStored, rfl⟩ := StoredAt.snoc.mp stamp
      · exact between.kept id (by rw [active]; exact kept.past past)
      · obtain ⟨skipped, inPending, rfl⟩ := member.mp inStored
        exact between.pending_passed inPending

theorem Kept.step (kept : Kept events peer) {event : Event S} {next : Peer S} (step : Step peer event next) :
    Kept (events ++ [event]) next := by
  cases step with
  | send _ request entropy =>
    obtain ⟨active, shape, same⟩ := send_frame peer request entropy
    have passed : ∀ {id}, peer.active.Passed id → active.Passed id := fun ⟨receive, received, order⟩ =>
      ⟨receive, same.trans received, order⟩
    rw [shape]
    exact kept.shrink _ _ (kept.store.withActive active fun id key found => passed (kept.store.passed found)) rfl
      (Nat.max_zero _).symm (fun found => found) rfl passed
  | refuse failed =>
    rw [receive_error failed]
    exact kept.expire (.refused _) rfl
  | accept offered accepted =>
    obtain ⟨offer, again, -, rfl⟩ := receive_ok.mp accepted
    cases offered.symm.trans again
    exact kept.accept offered
  | expire _ now => exact kept.expire (.expired now) rfl
  | discard =>
    exact kept.shrink peer.discardDelayed .discarded .discard rfl (Nat.max_zero _).symm
      (fun found => by simp [discardDelayed, lookup] at found) rfl fun passed => passed

end Preservation

theorem Run.kept {first peer : Peer S} {events : List (Event S)} (initial : Initial first) (run : Run first events peer) :
    Kept events peer :=
  Trace.invariant Kept (Kept.initial initial) (fun kept move => kept.step move) run

private theorem KeyStore.order_lt {peer : Peer S} (store : KeyStore peer) {a b : KeyId} {older newer : Skipped S}
    (first : peer.lookup a = some older) (second : peer.lookup b = some newer) :
    older.order < newer.order ↔ Precedes a b := by
  refine ⟨store.sorted (store.filed first) (store.filed second), fun before => ?_⟩
  rcases Nat.lt_trichotomy older.order newer.order with less | same | more
  · exact less
  · have entry := store.filed first
    rw [same, store.filed second] at entry
    exact absurd (Option.some.inj entry).symm before.ne
  · exact absurd (before.trans (store.sorted (store.filed second) (store.filed first) more)) (Precedes.irrefl a)

private theorem Kept.young {events : List (Event S)} {peer : Peer S} (kept : Kept events peer) (timed : peer.retention = .timed)
    {id : KeyId} {key : Skipped S} {now time : Nat} (found : (peer.expire now).lookup id = some key)
    (stored : StoredAt events id time) : max (latest events) now < time + skippedKeyLifetimeMs := by
  have alive := kept.store.expire_live now found
  have expires := kept.dated (expire_subset kept.store now found) stored
  rw [timed, Retention.deadline] at expires
  simp only [live, expires, Option.all_some, decide_eq_true_eq, saturatingAdd, kept.clock] at alive
  omega

/-- In every reachable state the order of expiry lists exactly the stored keys,
at most 256, with order ids that follow the positions, deadlines that follow the
order ids and positions behind the receive chain. So nothing past its lifetime
survives `expire` or is offered again, whatever time a later call is given, and
eviction removes the oldest positions. -/
theorem skipped_keys_ordered {first peer : Peer S} {events : List (Event S)} (initial : Initial first)
    (run : Run first events peer) :
    (∀ (order : Nat) (id : KeyId), peer.order[order]? = some id ↔ ∃ key, peer.lookup id = some key ∧ key.order = order) ∧
    peer.order.size ≤ maxSkippedKeys ∧
    (∀ a b older newer, peer.lookup a = some older → peer.lookup b = some newer →
      (older.order < newer.order ↔ Precedes a b) ∧ (older.order < newer.order → NoLater older.expires newer.expires)) ∧
    (∀ receive, peer.active.receive = some receive → ∀ id key, peer.lookup id = some key →
      id.1 ≤ receive.epoch ∧ (id.1 = receive.epoch → id.2 < receive.chain.count)) ∧
    (∀ id key, peer.lookup id = some key →
      ∃ time, StoredAt events id time ∧ key.expires = peer.retention.deadline time) ∧
    (peer.retention = .timed → ∀ now id time, StoredAt events id time →
      ((∃ key, (peer.expire now).lookup id = some key) ∨
        ∃ bytes request offer, (peer.expire now).offer bytes request = .ok offer ∧ offer.id = id) →
      max (latest events) now < time + skippedKeyLifetimeMs) ∧
    ∀ incoming gone kept old new, peer.lookup gone = some old →
      (peer.evict incoming peer.order.size).2.lookup gone = none →
      (peer.evict incoming peer.order.size).2.lookup kept = some new → Precedes gone kept := by
  have history := Run.kept initial run
  have store := history.store
  refine ⟨?_, store.bounded, ?_, ?_, ?_, ?_, ?_⟩
  · intro order id
    exact ⟨store.listed, fun ⟨key, found, same⟩ => same ▸ store.filed found⟩
  · intro a b older newer first second
    exact ⟨store.order_lt first second, store.aging first second⟩
  · intro receive received id key found
    obtain ⟨current, same, order⟩ := store.passed found
    cases received.symm.trans same
    simp only [Precedes] at order
    omega
  · intro id key found
    obtain ⟨time, stored⟩ := history.stamped found
    exact ⟨time, stored, history.dated found stored⟩
  · rintro timed now id time stored (⟨key, found⟩ | ⟨bytes, request, offer, offered, rfl⟩)
    · exact history.young timed found stored
    · -- A position stored before is behind the chain, so only its stored key can be offered.
      cases offer_cases offered with
      | stored opened number found => exact history.young timed (stored_some.mp found).1 stored
      | chain opened counted derived room number between =>
        exact absurd (by rw [(expire_frame peer now).1]; exact history.past stored) between.released
  · intro incoming gone kept old new present absent stays
    exact ((evict_drops incoming _ peer).keeps_newest store).2.2 present absent stays

def sampleHeader : Header symbolic :=
  ⟨(KeyPair.fromSeed (S := symbolic) (.atom 2)).publicKeys,
    ((KeyPair.fromSeed (S := symbolic) (.atom 1)).publicKeys.encapsulate (.atom 3)).1, 0, 2⟩

def sampleResponder : Peer symbolic := Peer.responder (.atom 0) (KeyPair.fromSeed (S := symbolic) (.atom 1))

theorem sample_run : ∃ offer : Offer symbolic, offer.id.2 = 2 ∧ offer.stored.length = 2 ∧
    Run sampleResponder [.accepted 5 offer.id offer.key offer.stored] offer.after := by
  obtain ⟨offer, offered, number, stored⟩ := responder_offers Symbolic.sealing sampleHeader 7
    (.atom 0) (KeyPair.fromSeed (S := symbolic) (.atom 1)) rfl (by decide) rfl rfl rfl 5
  have accepted : sampleResponder.receive _ 7 5 (fun _ => .ok ()) = (.ok (), offer.after) :=
    receive_ok.mpr ⟨offer, offered, rfl, rfl⟩
  exact ⟨offer, number, stored, Trace.single (.accept offered accepted)⟩

/-- A responder that accepts it has stored the keys of the first two. -/
theorem skipped_keys_ordered_sample : ∃ (peer : Peer symbolic) (id : KeyId) (key : Term) (stored : List KeyId),
    Run sampleResponder [.accepted 5 id key stored] peer ∧ id.2 = 2 ∧ stored.length = 2 ∧ peer.order.size ≤ maxSkippedKeys ∧
    ∀ a b older newer, peer.lookup a = some older → peer.lookup b = some newer → (older.order < newer.order ↔ Precedes a b) := by
  obtain ⟨offer, number, stored, run⟩ := sample_run
  obtain ⟨-, bounded, ordered, -⟩ := skipped_keys_ordered (.responder _ _) run
  exact ⟨_, _, _, _, run, number, stored, bounded, fun a b older newer first second => (ordered a b older newer first second).1⟩

end Peer
end StogasVerifier.Channel
