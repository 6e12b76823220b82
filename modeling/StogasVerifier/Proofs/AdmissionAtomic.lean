import StogasVerifier.Proofs.PeerOnce
import StogasVerifier.Proofs.StartAcceptance

/-! What a failed `accept_start` leaves behind. The receive commits before the
response key is made, so a call that fails in between has used up the start. -/

namespace StogasVerifier.Channel
open Std Lib

variable {S : Suite}

namespace Peer

private theorem stored_earlier {peer : Peer S} {epoch number early late : Nat} (before : early ≤ late)
    (found : (peer.stored epoch number late).isSome) : (peer.stored epoch number early).isSome := by
  obtain ⟨key, present⟩ := Option.isSome_iff_exists.mp found
  obtain ⟨held, alive⟩ := stored_some.mp present
  apply Option.isSome_iff_exists.mpr
  refine ⟨key, stored_some.mpr ⟨held, ?_⟩⟩
  cases expires : key.expires with
  | none => simp [live, expires]
  | some deadline =>
    simp only [live, expires, Option.all_some, decide_eq_true_eq] at alive ⊢
    omega

private theorem expireOldest_expireOldest {early late : Nat} (before : early ≤ late) (count : Nat) (peer : Peer S)
    (size : peer.order.size = count) :
    expireOldest (expireOldest count { peer with lastNow := early }).order.size
        { expireOldest count { peer with lastNow := early } with lastNow := late } =
      expireOldest count { peer with lastNow := late } := by
  induction count generalizing peer with
  | zero => simp only [expireOldest, size]
  | succ count ih =>
    have shorter : ∀ {order id}, firstKeyValue peer.order = some (order, id) → (peer.remove id order).order.size = count := by
      intro order id first
      have smaller := remove_size first
      omega
    cases first : firstKeyValue peer.order with
    | none =>
      have empty := firstKeyValue_none first
      omega
    | some entry =>
      obtain ⟨order, id⟩ := entry
      by_cases kept : (peer.stored id.1 id.2 early).isSome
      · have stops : expireOldest (count + 1) { peer with lastNow := early } = { peer with lastNow := early } := by
          rw [expireOldest]
          simp only [first]
          exact if_pos kept
        rw [stops]
        simp only [size]
      · have gone : ¬ (peer.stored id.1 id.2 late).isSome := fun present => kept (stored_earlier before present)
        have drops : ∀ {time}, ¬ (peer.stored id.1 id.2 time).isSome → expireOldest (count + 1) { peer with lastNow := time } =
            expireOldest count { peer.remove id order with lastNow := time } := by
          intro time absent
          rw [expireOldest]
          simp only [first]
          exact if_neg absent
        rw [drops kept, drops gone]
        exact ih (peer.remove id order) (shorter first)

theorem expire_expire (peer : Peer S) {now later : Nat} (after : now ≤ later) :
    (peer.expire now).expire later = peer.expire later := by
  have clock := (expire_frame peer now).2.2.1
  have time : max (peer.expire now).lastNow later = max peer.lastNow later := by
    rw [clock]
    omega
  rw [expire, time]
  exact expireOldest_expireOldest (by omega : max peer.lastNow now ≤ max peer.lastNow later) peer.order.size peer rfl

/-- Accepting a message always shows: its key is gone from the store, or its
position is passed. -/
theorem offer_changes {peer : Peer S} {bytes : S.Bytes} {request : Nat} {offer : Offer S}
    (offered : peer.offer bytes request = .ok offer) : offer.after ≠ peer := by
  intro same
  cases offer_cases offered with
  | @stored header key opened number found secret quiet after =>
    obtain ⟨held, -⟩ := stored_some.mp found
    have gone : (peer.remove offer.id key.order).lookup offer.id = none := by rw [lookup_remove, if_pos rfl]
    rw [← after, same, held] at gone
    cases gone
  | @chain header next active pending opened counted derived room number between stored after =>
    have adopted : peer.active = active := by
      rw [← (committed_frame peer active (receiveKey_fits derived)).1, ← after, same]
    apply between.released
    rw [adopted]
    exact between.passed

theorem offer_once {peer : Peer S} (store : KeyStore peer) {bytes again : S.Bytes} {request repeated now : Nat}
    {offer second : Offer S} (offered : peer.offer bytes request = .ok offer) (kept : KeyStore offer.after)
    (reoffered : (offer.after.expire now).offer again repeated = .ok second) : second.id ≠ offer.id := by
  have unused : Spent [] peer := ⟨List.nodup_nil, nofun, nofun⟩
  have spent : Spent ([] ++ [.accepted now offer.id offer.key offer.stored]) offer.after := unused.accept store offered
  have used : offer.id ∈ (acceptances ([] ++ [.accepted now offer.id offer.key offer.stored])).map Prod.fst := List.mem_cons_self
  intro same
  cases offer_cases reoffered with
  | stored opened number found secret quiet after =>
    obtain ⟨held, -⟩ := stored_some.mp found
    have present := expire_subset kept now held
    rw [Prod.mk.eta, same, spent.gone used] at present
    cases present
  | chain opened counted derived room number between stored after =>
    apply between.released
    rw [same, (expire_frame offer.after now).1]
    exact spent.passed used

end Peer

theorem Active.sendWith_unseeded {active : Active S} (silent : active.send = none) {request : Nat} {entropy other : Entropy S}
    {result : SendKey S × Active S} (sent : active.sendWith request other = .ok result) {keySeed : S.Secret} {error : Error}
    (seeded : entropy.seed = .ok keySeed) (failed : entropy.randomness = .error error) :
    active.sendWith request entropy = .error error := by
  obtain ⟨key, after⟩ := result
  obtain ⟨turn, sending, bytes, opened, -⟩ := sendWith_ok.mp sent
  rw [silent, Option.isNone_none, if_pos rfl] at opened
  obtain ⟨remote, seed, randomness, dh, known, -⟩ := startTurn_ok.mp opened
  simp [sendWith, silent, startTurn, known, seeded, failed, bind, Except.bind]

namespace ServerSession

variable {session after : ServerSession S} {number now : Nat} {encoded : S.Bytes} {entropy : Entropy S}

def Reaches (session : ServerSession S) (number : Nat) (encoded : S.Bytes) : Prop :=
  session.screen number = .ok () ∧ (∃ header, startHeader encoded = .ok header) ∧ 0 < session.remainingStarts

def Commits (session : ServerSession S) (number : Nat) (encoded : S.Bytes) (now : Nat) : Prop :=
  session.Reaches number encoded ∧ ∃ peer header output, session.peer = some peer ∧ startHeader encoded = .ok header ∧
    (peer.receive header number now (session.authenticate number encoded)).1 = .ok output

theorem Commits.reaches (commits : session.Commits number encoded now) : session.Reaches number encoded := commits.1

/-- How a call can fail on a session that stays open. -/
inductive Fails (session : ServerSession S) (number : Nat) (encoded : S.Bytes) (now : Nat) (after : ServerSession S) : Prop where
  | early (before : ¬ session.Reaches number encoded) (same : after = session)
  | rejected {peer : Peer S} (reached : session.Reaches number encoded) (current : session.peer = some peer)
      (uncommitted : ¬ session.Commits number encoded now) (left : after = session.spend (peer.expire now))
      (budget : 0 < after.remainingStarts)
  | lost {peer : Peer S} {header : S.Bytes} {offer : Peer.Offer S} (committed : session.Commits number encoded now)
      (current : session.peer = some peer) (offered : (peer.expire now).offer header number = .ok offer)
      (left : after = session.spend offer.after)

private theorem settled_open (stays : after.settleBudget.peer.isSome) :
    after.settleBudget = after ∧ 0 < after.settleBudget.remainingStarts := by
  unfold settleBudget at stays ⊢
  split at stays
  · cases stays
  next left =>
    rw [if_neg left]
    exact ⟨rfl, Nat.pos_of_ne_zero left⟩

theorem fails {error : Error} (failed : session.acceptStart number encoded now entropy = (.error error, after))
    (stays : after.peer.isSome) : Fails session number encoded now after := by
  by_cases reached : session.Reaches number encoded
  · have ⟨screened, ⟨header, framed⟩, budget⟩ := reached
    cases current : session.peer with
    | none =>
      obtain ⟨error, closed⟩ := acceptStart_refuses session number encoded now entropy (by rw [current]; nofun)
      cases failed.symm.trans closed
      rw [current] at stays
      cases stays
    | some peer =>
      cases received : peer.receive header number now (session.authenticate number encoded) with
      | mk result next =>
        cases result with
        | error error =>
          obtain rfl := Peer.receive_error received
          cases failed.symm.trans (acceptStart_rejects current screened framed budget received)
          refine .rejected reached current ?_ (settled_open stays).1 (settled_open stays).2
          rintro ⟨-, other, bytes, output, present, encodes, accepted⟩
          cases current.symm.trans present
          cases framed.symm.trans encodes
          rw [received] at accepted
          cases accepted
        | ok output =>
          obtain ⟨offer, offered, authentic, rfl⟩ := Peer.receive_ok.mp received
          have committed : session.Commits number encoded now :=
            ⟨reached, peer, header, output, current, framed, by rw [received]⟩
          cases answered : offer.after.active.sendWith number entropy with
          | error error =>
            cases failed.symm.trans (acceptStart_unanswered current screened framed budget offered authentic answered)
            exact .lost committed current offered (settled_open stays).1
          | ok sent => cases failed.symm.trans (acceptStart_admits current screened framed budget offered authentic answered)
  · obtain ⟨error, refused⟩ := acceptStart_refuses session number encoded now entropy fun _ screened framed => by
      by_contra unspent
      exact reached ⟨screened, framed, Nat.pos_of_ne_zero unspent⟩
    cases failed.symm.trans refused
    exact .early reached rfl

private theorem authenticateStart_congr {peer other : Peer S} (current : session.peer = some peer) (instead : after.peer = some other)
    (id : after.id = session.id) (same : other.expire now = peer.expire now) (header : S.Bytes) :
    (after.authenticateStart number encoded header now entropy).1 = (session.authenticateStart number encoded header now entropy).1 := by
  have received : other.receive header number now (after.authenticate number encoded) =
      peer.receive header number now (session.authenticate number encoded) := by
    rw [Peer.receive_settles, Peer.receive_settles, same]
    unfold authenticate
    rw [id]
  unfold authenticateStart
  simp only [current, instead, received, id]
  split
  · rfl
  · split
    · rfl
    · rfl

private theorem acceptStart_congr {peer other : Peer S} (current : session.peer = some peer) (instead : after.peer = some other)
    (id : after.id = session.id) (next : after.next = session.next) (accepted : after.accepted = session.accepted)
    (budget : 0 < session.remainingStarts) (left : 0 < after.remainingStarts) (same : other.expire now = peer.expire now) :
    (after.acceptStart number encoded now entropy).1 = (session.acceptStart number encoded now entropy).1 := by
  have screened : after.screen number = session.screen number := by simp only [screen, next, accepted]
  unfold acceptStart
  simp only [current, instead, screened, Nat.ne_of_gt budget, Nat.ne_of_gt left, if_false]
  split
  · rfl
  · split
    · rfl
    next header framed =>
      apply authenticateStart_congr
      · rfl
      · rfl
      · exact id
      · exact same

/-- After a failed call on a session that stays open the window is as it was. The
peer is as after `expire` alone exactly if the call did not commit the receive
and either reached it or came when there was nothing to expire. Without a commit
the start fares at every later delivery as if it had not come before. -/
theorem start_atomic {error : Error} (failed : session.acceptStart number encoded now entropy = (.error error, after))
    (stays : after.peer.isSome) :
    after.next = session.next ∧ after.accepted = session.accepted ∧
    (after.peer = (session.expire now).peer ↔ ¬ session.Commits number encoded now ∧
      (session.Reaches number encoded ∨ (session.expire now).peer = session.peer)) ∧
    (¬ session.Commits number encoded now → ∀ later, now ≤ later → ∀ fresh : Entropy S,
      (after.acceptStart number encoded later fresh).1 = (session.acceptStart number encoded later fresh).1) := by
  cases fails failed stays with
  | early before same =>
    subst same
    have uncommitted : ¬ after.Commits number encoded now := fun commits => before commits.reaches
    refine ⟨rfl, rfl, ⟨fun kept => ⟨uncommitted, .inr kept.symm⟩, fun holds => ?_⟩, fun _ later _ fresh => rfl⟩
    rcases holds.2 with reached | idle
    · exact absurd reached before
    · exact idle.symm
  | @rejected peer reached current uncommitted left budget =>
    subst left
    refine ⟨rfl, rfl, ⟨fun _ => ⟨uncommitted, .inl reached⟩, fun _ => ?_⟩, fun _ later after fresh => ?_⟩
    · rw [expire, current]
      rfl
    · have instead : (session.spend (peer.expire now)).peer = some (peer.expire now) := rfl
      exact acceptStart_congr current instead rfl rfl rfl reached.2.2 budget (peer.expire_expire after)
  | @lost peer header offer committed current offered left =>
    subst left
    refine ⟨rfl, rfl, ⟨fun kept => ?_, fun holds => absurd committed holds.1⟩, fun uncommitted => absurd committed uncommitted⟩
    rw [expire, current] at kept
    exact absurd (Option.some.inj kept) (Peer.offer_changes offered)

end ServerSession

namespace Link

/-- In an honest run with working draws no start is lost: one that commits is admitted. -/
theorem Sound.commits_admitted {spaced : Prop} {link : Link S} (sound : Sound spaced link) (ideal : S.Ideal)
    (contributory : S.Contributory) {stream : Stream S} {kind : Kind} {content bytes : S.Bytes} (sent : stream ∈ link.sent .initiator)
    (starts : stream.Starts kind content bytes) {now : Nat} {entropy : Entropy S} {keySeed randomness : S.Secret}
    (seeded : entropy.seed = .ok keySeed) (drawn : entropy.randomness = .ok randomness)
    (commits : link.server.Commits stream.number bytes now) :
    ∃ admitted server, link.server.acceptStart stream.number bytes now entropy = (.ok admitted, server) := by
  obtain ⟨⟨screened, -, budget⟩, peer, header, ⟨incoming, kind, metadata⟩, current, framed, received⟩ := commits
  obtain ⟨offer, offered, authentic, -⟩ := Peer.receive_ok.mp (Prod.ext received rfl)
  obtain ⟨response, active, answered⟩ := sound.answers ideal contributory sent starts current budget framed offered seeded drawn
  exact ⟨_, _, ServerSession.acceptStart_admits current screened framed budget offered authentic answered⟩

/-- In an honest run, a start that the server has taken is refused from then on,
whether or not it could be answered. -/
theorem Sound.refuses_taken {spaced : Prop} {link : Link S} (sound : Sound spaced link) (ideal : S.Ideal) {stream : Stream S}
    {kind : Kind} {content bytes : S.Bytes} (sent : stream ∈ link.sent .initiator) (starts : stream.Starts kind content bytes)
    {peer : Peer S} (current : link.server.peer = some peer) {header : S.Bytes} (framed : startHeader bytes = .ok header)
    {now : Nat} {offer : Peer.Offer S} (offered : (peer.expire now).offer header stream.number = .ok offer)
    (later : Nat) (fresh : Entropy S) :
    ∃ error, ((link.server.spend offer.after).acceptStart stream.number bytes later fresh).1 = .error error := by
  obtain ⟨dated, exchange, turns, peers, carried, -⟩ := sound
  obtain ⟨index, found⟩ := List.mem_iff_getElem?.mp sent
  obtain ⟨turn, number, key, position, message, wire, incoming, authentic⟩ :=
    (carried.flow.outgoing .initiator).starts ideal.sealing found starts
  cases framed.symm.trans wire
  have expired := carried.serverExpire dated current now
  have inside := (List.getElem?_eq_some_iff.mp found).1
  have first : (Function.update peers .responder (peer.expire now) .responder).offer key.header stream.number = .ok offer := by
    rw [Function.update_self]
    exact offered
  obtain ⟨-, numbered, turned, -⟩ := expired.flow.paired.offered ideal message
    (show turn < turns (Side.other .responder) from position.started) first
  obtain ⟨-, -, entered, -, -, -, taken⟩ := expired.flow.receive .responder ideal inside position message first
  have kept : offer.after.KeyStore := by
    have store := taken.store .responder
    rw [Function.update_self] at store
    exact store
  cases result : (link.server.spend offer.after).acceptStart stream.number bytes later fresh with
  | mk outcome after =>
    cases outcome with
    | error error => exact ⟨error, rfl⟩
    | ok admitted =>
      have accepts := ServerSession.acceptStart_accepts (link.server.spend offer.after) stream.number bytes later fresh
      rw [result] at accepts
      cases accepts with
      | @admission _ other again second incoming kind metadata response active same screened framing left reoffered genuine answered
          settled =>
        cases same
        cases framing.symm.trans wire
        have waiting := taken.expire .responder later
        rw [Function.update_self] at waiting
        have repeated : (Function.update (Function.update (Function.update peers .responder (peer.expire now)) .responder offer.after)
            .responder (offer.after.expire later) .responder).offer key.header stream.number = .ok second := by
          rw [Function.update_self]
          exact reoffered
        obtain ⟨-, numbered', turned', -⟩ := waiting.paired.offered ideal message
          (show turn < Function.update turns .responder entered (Side.other .responder) from position.started) repeated
        have store := expired.flow.store .responder
        rw [Function.update_self] at store
        refine absurd (Prod.ext ?_ (numbered'.trans numbered.symm)) (Peer.offer_once store offered kept reoffered)
        simp only [Side.receives] at turned turned'
        omega

/-- The sample server takes the sample client's first start and cannot draw the
randomness of its answer. -/
private theorem unanswered_start : ∃ (link : Link symbolic) (stream : Stream symbolic) (bytes : symbolic.Bytes) (peer : Peer symbolic)
    (header : symbolic.Bytes) (offer : Peer.Offer symbolic),
    Trace Step sampleLink [.other] link ∧ stream ∈ link.sent .initiator ∧ stream.Starts .metadata [(7 : Nat)] bytes ∧
    link.server.peer = some peer ∧ startHeader bytes = .ok header ∧ (peer.expire 5).offer header stream.number = .ok offer ∧
    link.server.acceptStart stream.number bytes 5 ⟨.ok (.atom 4), .error .crypto⟩ = (.error .crypto, link.server.spend offer.after) ∧
    ∀ later, ∃ admitted, (link.server.acceptStart stream.number bytes later ⟨.ok (.atom 4), .ok (.atom 5)⟩).1 = .ok admitted := by
  obtain ⟨request, shared, done⟩ : ∃ request shared, sampleLink.client.session.requestWith sampleLink.client.shared
      ⟨.ok (.atom 2), .ok (.atom 3)⟩ = (.ok request, shared) := ⟨_, _, rfl⟩
  have run := Trace.single (Step.request done)
  have sound := Sound.run Symbolic.ideal sampleLink_initial run
  have ⟨_, exchange, turns, peers, carried, _⟩ := sound
  have found : ((sampleLink.requested request shared).sent .initiator)[0]? = some ⟨request.writer.number, request.writer.records⟩ := rfl
  obtain ⟨bytes, starts⟩ := (carried.flow.outgoing .initiator).exists_starts Symbolic.sealing found
    [(7 : Nat)] (List.cons_ne_nil _ _) (by decide)
  have admits : ∀ later, ∃ admitted server, (sampleLink.requested request shared).server.acceptStart request.writer.number bytes later
      ⟨.ok (.atom 4), .ok (.atom 5)⟩ = (.ok admitted, server) := by
    intro later
    obtain ⟨offer, reader, response, active, -, -, admitted⟩ := sound.admits Symbolic.ideal Symbolic.validates Symbolic.contributory
      (List.mem_of_getElem? found) starts List.mem_cons_self nofun rfl (show 0 < maxSessionStarts by decide) later
      ⟨.ok (.atom 4), .ok (.atom 5)⟩ rfl rfl nofun
    exact ⟨_, _, admitted⟩
  have accepts := ServerSession.acceptStart_accepts (sampleLink.requested request shared).server request.writer.number bytes 5
    ⟨.ok (.atom 4), .ok (.atom 5)⟩
  obtain ⟨admitted, server, result⟩ := admits 5
  rw [result] at accepts
  cases accepts with
  | @admission _ peer header offer incoming kind metadata response active current screened framed budget offered authentic answered
      settled =>
    have silent : offer.after.active.send = none := by
      obtain ⟨ended, -⟩ | ⟨same, -⟩ := Peer.offer_sending offered
      · exact ended
      · cases current
        rw [same, (Peer.expire_frame _ 5).1]
        rfl
    have unsent : offer.after.active.sendWith request.writer.number ⟨.ok (.atom 4), .error .crypto⟩ = .error .crypto :=
      Active.sendWith_unseeded silent answered rfl rfl
    have failed := ServerSession.acceptStart_unanswered current screened framed budget offered authentic unsent
    rw [ServerSession.settleBudget_open (show 0 < maxSessionStarts - 1 by decide)] at failed
    refine ⟨_, _, bytes, _, header, offer, run, List.mem_of_getElem? found, starts, current, framed, offered, failed, ?_⟩
    intro later
    obtain ⟨admitted, server, result⟩ := admits later
    exact ⟨admitted, by rw [result]⟩

theorem start_atomic_sample : ∃ (session after : ServerSession symbolic) (number : Nat) (bytes : symbolic.Bytes),
    session.acceptStart number bytes 5 ⟨.ok (.atom 4), .error .crypto⟩ = (.error .crypto, after) ∧ after.peer.isSome ∧
    after.next = session.next ∧ after.accepted = session.accepted ∧
    (after.peer = (session.expire 5).peer ↔ ¬ session.Commits number bytes 5 ∧
      (session.Reaches number bytes ∨ (session.expire 5).peer = session.peer)) := by
  obtain ⟨link, stream, bytes, peer, header, offer, -, -, -, -, -, -, failed, -⟩ := unanswered_start
  obtain ⟨next, accepted, kept, -⟩ := ServerSession.start_atomic failed rfl
  exact ⟨link.server, _, stream.number, bytes, failed, rfl, next, accepted, kept⟩

/-- A start that is lost: the server takes it, cannot draw the randomness of its
answer, and refuses every redelivery, although it would have admitted the start
at any time. -/
theorem start_lost : ∃ (link : Link symbolic) (stream : Stream symbolic) (bytes : symbolic.Bytes) (server : ServerSession symbolic),
    Trace Step sampleLink [.other] link ∧ stream ∈ link.sent .initiator ∧ stream.Starts .metadata [(7 : Nat)] bytes ∧
    link.server.acceptStart stream.number bytes 5 ⟨.ok (.atom 4), .error .crypto⟩ = (.error .crypto, server) ∧
    server.peer.isSome ∧ server.peer ≠ (link.server.expire 5).peer ∧
    (∀ later, ∃ admitted, (link.server.acceptStart stream.number bytes later ⟨.ok (.atom 4), .ok (.atom 5)⟩).1 = .ok admitted) ∧
    ∀ later fresh, ∃ error, (server.acceptStart stream.number bytes later fresh).1 = .error error := by
  obtain ⟨link, stream, bytes, peer, header, offer, run, sent, starts, current, framed, offered, failed, admits⟩ := unanswered_start
  refine ⟨link, stream, bytes, _, run, sent, starts, failed, rfl, ?_, admits, ?_⟩
  · rw [ServerSession.expire, current]
    exact fun same => Peer.offer_changes offered (Option.some.inj same)
  · exact (Sound.run Symbolic.ideal sampleLink_initial run).refuses_taken Symbolic.ideal sent starts current framed offered

end Link
end StogasVerifier.Channel
