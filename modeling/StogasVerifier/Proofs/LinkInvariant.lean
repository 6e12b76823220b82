import StogasVerifier.Proofs.LinkRuns

/-! What every run of a link keeps. -/

namespace StogasVerifier.Channel
open Std Lib

variable {S : Suite}

theorem sub_le_of_increasing {streams : List (Stream S)} (increasing : (streams.map Stream.number).Pairwise (· < ·))
    {first second : Nat} {earlier later : Stream S} (here : streams[first]? = some earlier) (there : streams[second]? = some later)
    (order : first ≤ second) : earlier.number + (second - first) ≤ later.number := by
  obtain ⟨gap, rfl⟩ := Nat.exists_eq_add_of_le order
  induction gap generalizing later with
  | zero => cases here.symm.trans there; simp
  | succ gap ih =>
    obtain ⟨inside, -⟩ := List.getElem?_eq_some_iff.mp there
    have before : streams[first + gap]? = some streams[first + gap] := List.getElem?_eq_getElem (by omega)
    have rest := ih before (by omega)
    have step : streams[first + gap].number < later.number := by
      have pairwise := List.pairwise_iff_getElem.mp increasing (first + gap) (first + (gap + 1)) (by simp; omega) (by simpa using inside) (by omega)
      simp only [List.getElem_map] at pairwise
      rw [List.getElem?_eq_getElem inside] at there
      cases there
      exact pairwise
    omega

theorem index_le_of_increasing {streams : List (Stream S)} (increasing : (streams.map Stream.number).Pairwise (· < ·))
    {index : Nat} {stream : Stream S} (found : streams[index]? = some stream) : index ≤ stream.number := by
  obtain ⟨inside, -⟩ := List.getElem?_eq_some_iff.mp found
  have first : streams[0]? = some streams[0] := List.getElem?_eq_getElem (by omega)
  have apart := sub_le_of_increasing increasing first found (Nat.zero_le _)
  omega

section Parts

variable {exchange longer : Exchange S} {turns later : Side → Nat} {peers : Side → Peer S} {sent : Side → List (Stream S)}

/-- Every response answers a start that the server's chain has passed, of an
earlier turn. -/
def Answered (exchange : Exchange S) (turns : Side → Nat) (reached : Nat) (sent : Side → List (Stream S)) : Prop :=
  ∀ place stream, (sent .responder)[place]? = some stream → ∃ index start turn number turn' number',
    (sent .initiator)[index]? = some start ∧ start.number = stream.number ∧ index < reached ∧
    Position exchange .initiator (turns .initiator) index turn number ∧
    Position exchange .responder (turns .responder) place turn' number' ∧ turn < turn'

/-- No turn of the client has more than 256 messages, because no response read in
it confirms one of them. -/
structure ShortTurns (exchange : Exchange S) (turns : Nat) (active : Active S) (sent : List (Stream S)) (confirmed : Nat) : Prop where
  short : ∀ {index}, index < sent.length → ∃ turn number, Position exchange .initiator turns index turn number ∧ number < replayWindow
  since : active.send.isSome → ∀ {index stream}, sent[index]? = some stream → exchange.offset (turns - 1) ≤ index →
    confirmed ≤ stream.number

/-- In one turn the server answers at most the client's turn and the keys that it
had stored before. -/
def Paced (peer : Peer S) (slack : Nat) : Prop :=
  ∀ sending, peer.active.send = some sending →
    sending.chain.count + peer.order.size + slack ≤ maxSkippedKeys + peer.active.received

def Held (exchange : Exchange S) (side : Side) (peer : Peer S) (index : Nat) : Prop :=
  ∃ slot key, peer.lookup slot = some key ∧ exchange.indexOf side slot = index

def Lapsed (exchange : Exchange S) (turns : Nat) (deadlines : Set (S.Secret × Nat)) (clock index : Nat) : Prop :=
  ∃ turn number deadline, Position exchange .initiator turns index turn number ∧
    (exchange.script.keyAt turn number, deadline) ∈ deadlines ∧ deadline ≤ clock

theorem Answered.grow {reached further : Nat} (answered : Answered exchange turns reached sent)
    (grows : Flow.Grows exchange longer turns later sent) (further_le : reached ≤ further) :
    Answered longer later further sent := by
  intro place stream found
  obtain ⟨index, start, turn, number, turn', number', sentAs, same, passed, position, answer, before⟩ := answered place stream found
  exact ⟨index, start, turn, number, turn', number', sentAs, same, Nat.lt_of_lt_of_le passed further_le,
    grows.positions (List.getElem?_eq_some_iff.mp sentAs).1 position,
    grows.positions (List.getElem?_eq_some_iff.mp found).1 answer, before⟩

theorem Answered.start {reached : Nat} (answered : Answered exchange turns reached sent) (stream : Stream S) :
    Answered exchange turns reached (Function.update sent .initiator (sent .initiator ++ [stream])) := by
  intro place response there
  obtain ⟨index, start, turn, number, turn', number', found, rest⟩ := answered place response there
  refine ⟨index, start, turn, number, turn', number', ?_, rest⟩
  rw [Function.update_self, List.getElem?_append_left (List.getElem?_eq_some_iff.mp found).1]
  exact found

theorem Answered.answer {reached index turn number turn' number' : Nat} {start response : Stream S}
    (answered : Answered exchange turns reached sent) (found : (sent .initiator)[index]? = some start)
    (same : start.number = response.number) (passed : index < reached)
    (position : Position exchange .initiator (turns .initiator) index turn number)
    (newest : Position exchange .responder (turns .responder) (sent .responder).length turn' number') (before : turn < turn') :
    Answered exchange turns reached (Function.update sent .responder (sent .responder ++ [response])) := by
  intro place stream there
  simp only [Function.update_self, ne_eq, reduceCtorEq, not_false_eq_true, Function.update_of_ne] at there ⊢
  rw [List.getElem?_append] at there
  split at there
  · exact answered place stream there
  · obtain ⟨last, rfl⟩ := List.getElem?_eq_some_iff.mp there
    rw [List.length_singleton] at last
    obtain rfl : place = (sent .responder).length := by omega
    rw [List.getElem_singleton]
    exact ⟨index, start, turn, number, turn', number', found, same, passed, position, newest, before⟩

theorem ShortTurns.congr {count confirmed : Nat} {active : Active S} {streams}
    (shortTurns : ShortTurns exchange count active streams confirmed) (tracks : Tracks .initiator exchange.script count active)
    (agrees : Exchange.Agrees count exchange longer) : ShortTurns longer count active streams confirmed := by
  refine ⟨fun inside => ?_, fun sending index stream found late => shortTurns.since sending found ?_⟩
  · obtain ⟨turn, number, position, bound⟩ := shortTurns.short inside
    exact ⟨turn, number, position.congr agrees (Nat.le_refl _), bound⟩
  · obtain ⟨current, present⟩ := Option.isSome_iff_exists.mp sending
    have positive := (tracks.sends present).1
    rwa [agrees.offset (by omega)]

theorem Held.grow {side : Side} {peer : Peer S} {index total : Nat} (held : Held exchange side peer index)
    (incoming : Incoming exchange side (turns side.other) peer total) (grows : Flow.Grows exchange longer turns later sent) :
    Held longer side peer index := by
  obtain ⟨slot, key, found, here⟩ := held
  exact ⟨slot, key, found, ((grows.agrees side.other).indexOf (incoming.stored found).started).trans here⟩

theorem Lapsed.grow {deadlines} {clock index : Nat}
    (lapsed : Lapsed exchange (turns .initiator) deadlines clock index) (grows : Flow.Grows exchange longer turns later sent)
    (inside : index < (sent .initiator).length) : Lapsed longer (later .initiator) deadlines clock index := by
  obtain ⟨turn, number, deadline, position, recorded, past⟩ := lapsed
  refine ⟨turn, number, deadline, grows.positions inside position, ?_, past⟩
  rwa [← (grows.agrees .initiator).script.keyAt position.started]

private theorem storeAll_size (pending : List (PendingKey S)) (peer : Peer S) :
    (pending.foldl Peer.store peer).order.size ≤ peer.order.size + pending.length := by
  induction pending generalizing peer with
  | nil => exact Nat.le_refl _
  | cons key rest ih =>
    have step : (peer.store key).order.size ≤ peer.order.size + 1 := TreeMap.size_insert_le
    have rest := ih (peer.store key)
    rw [List.foldl_cons, List.length_cons]
    omega

/-- A message accepted pays for one answer: it uses up a stored key, or passes one
more position than it stores keys. -/
theorem Paced.accept {peer : Peer S} {bytes : S.Bytes} {request : Nat} {offer} (paced : Paced peer 0)
    (store : peer.KeyStore) (offered : peer.offer bytes request = .ok offer) : Paced offer.after 1 := by
  cases Peer.offer_cases offered with
  | @stored header used opened number found secret quiet after =>
    have filed := store.filed (Peer.stored_some.mp found).1
    have smaller : (peer.remove offer.id used.order).order.size + 1 = peer.order.size := size_erase_of_lookup filed
    rw [after]
    intro sending present
    have bound := paced sending present
    change sending.chain.count + (peer.remove offer.id used.order).order.size + 1 ≤ maxSkippedKeys + peer.active.received
    omega
  | @chain header next active pending opened counted derived room number between stored after =>
    have fits := Peer.receiveKey_fits derived
    obtain ⟨last, drops, -, -, shape⟩ := Peer.committed_eq peer active fits
    have grown := storeAll_size pending { last with active }
    have fewer := drops.size_le
    have frame := (Peer.committed_frame peer active fits).1
    rw [after]
    intro sending present
    rw [frame] at present ⊢
    cases next with
    | false =>
      obtain ⟨receive, count, received, -, -, -, -, rfl, rfl⟩ := Active.receiveKey_current.mp derived
      have bound := paced sending present
      have before : peer.active.received = receive.chain.count := by simp only [Active.received, received, Option.elim_some]
      have moved : (Active.received { peer.active with receive := some (receive.after (count + 1)) }) =
          receive.chain.count + (count + 1) := rfl
      rw [moved, shape]
      simp only [List.nil_append, Receiving.keys_length] at grown ⊢
      omega
    | true =>
      obtain ⟨middle, tail, entered, rest⟩ := Active.receiveKey_next.mp derived
      obtain ⟨localKeys, dh, epoch, -, -, -, -, rfl, -⟩ := Active.nextTurn_ok.mp entered
      obtain ⟨receive, count, received, -, -, -, -, rfl, rfl⟩ := Active.receiveKey_current.mp rest
      cases present

end Parts

namespace Link

/-- Both sessions on one exchange, and the bounds that keep them together. A
closed server is represented by the peer that it had. -/
structure Carried (exchange : Exchange S) (turns : Side → Nat) (peers : Side → Peer S) (link : Link S) : Prop where
  flow : Flow exchange link.server.id turns peers link.sent
  client : link.client.shared.peer = peers .initiator
  server : ∀ {peer}, link.server.peer = some peer → peer = peers .responder
  id : link.client.session.id = link.server.id
  timed : (peers .responder).retention = .timed
  ledger : Ledger link.client.shared.starts ((link.sent .initiator).map Stream.number) link.client.owners link.client.unread
  window : ServerSession.Window ((link.sent .responder).map Stream.number) link.server
  behind : link.server.next ≤ link.client.shared.starts.next
  accepted : ∀ stream ∈ link.sent .responder, stream.number ∈ link.delivered
  answered : Answered exchange turns (exchange.reached .responder (peers .responder).active) link.sent
  confirmed : link.client.shared.starts.confirmedNext = 0 ∨
    ∃ stream ∈ link.sent .responder, stream.number + 1 = link.client.shared.starts.confirmedNext
  short : ShortTurns exchange (turns .initiator) (peers .initiator).active (link.sent .initiator)
    link.client.shared.starts.confirmedNext
  paced : Paced (peers .responder) 0
  spent : exchange.reached .responder (peers .responder).active + 257 * link.server.remainingStarts ≤ 257 * maxSessionStarts
  replies : (link.sent .responder).length + link.server.remainingStarts ≤ maxSessionStarts
  available : ∀ {index stream}, (link.sent .initiator)[index]? = some stream →
    index < exchange.reached .responder (peers .responder).active → stream.number ∈ link.client.owners →
    stream.number ∉ link.delivered → Held exchange .responder (peers .responder) index ∨
      Lapsed exchange (turns .initiator) link.deadlines (peers .responder).lastNow index

def Dated (link : Link S) : Prop := ∀ secret deadline, link.server.Holds secret deadline → (secret, deadline) ∈ link.deadlines

namespace Carried

variable {exchange : Exchange S} {turns : Side → Nat} {peers : Side → Peer S} {link next : Link S}

theorem mono (carried : Carried exchange turns peers link) (client : next.client = link.client) (sent : next.sent = link.sent)
    (id : next.server.id = link.server.id) (following : next.server.next = link.server.next)
    (accepted : next.server.accepted = link.server.accepted)
    (budget : next.server.remainingStarts ≤ link.server.remainingStarts)
    (server : ∀ {peer}, next.server.peer = some peer → peer = peers .responder)
    (delivered : link.delivered ⊆ next.delivered) (deadlines : link.deadlines ⊆ next.deadlines) :
    Carried exchange turns peers next := by
  have spent := carried.spent
  have replies := carried.replies
  refine ⟨?_, ?_, server, ?_, carried.timed, ?_, ?_, ?_, ?_, ?_, ?_, ?_, carried.paced, ?_, ?_, ?_⟩
  · rw [id, sent]
    exact carried.flow
  · rw [client]
    exact carried.client
  · rw [client, id]
    exact carried.id
  · rw [client, sent]
    exact carried.ledger
  · rw [sent]
    exact carried.window.congr following accepted
  · rw [client, following]
    exact carried.behind
  · rw [sent]
    exact fun stream member => delivered (carried.accepted stream member)
  · rw [sent]
    exact carried.answered
  · rw [client, sent]
    exact carried.confirmed
  · rw [client, sent]
    exact carried.short
  · omega
  · rw [sent]
    omega
  · intro index stream found passed pending undelivered
    rw [sent] at found
    rw [client] at pending
    rcases carried.available found passed pending (fun earlier => undelivered (delivered earlier)) with held | lapsed
    · exact .inl held
    · obtain ⟨turn, number, deadline, position, recorded, past⟩ := lapsed
      exact .inr ⟨turn, number, deadline, position, deadlines recorded, past⟩

/-- A client step that neither sends nor receives may drop stored keys and
owners, and give numbers up. -/
theorem clientShrink (carried : Carried exchange turns peers link) (client : Client S)
    (flow : Flow exchange link.server.id turns (Function.update peers .initiator client.shared.peer) link.sent)
    (active : client.shared.peer.active = (peers .initiator).active)
    (id : client.session.id = link.client.session.id)
    (ledger : Ledger client.shared.starts ((link.sent .initiator).map Stream.number) client.owners client.unread)
    (following : link.client.shared.starts.next ≤ client.shared.starts.next)
    (confirmed : client.shared.starts.confirmedNext = link.client.shared.starts.confirmedNext)
    (owners : client.owners ⊆ link.client.owners) :
    Carried exchange turns (Function.update peers .initiator client.shared.peer) { link with client } := by
  refine ⟨flow, rfl, carried.server, id.trans carried.id, carried.timed, ledger,
    carried.window, carried.behind.trans following, carried.accepted, carried.answered, ?_, ?_, carried.paced, carried.spent,
    carried.replies, fun found passed pending => carried.available found passed (owners pending)⟩
  · rw [confirmed]
    exact carried.confirmed
  · rw [confirmed, Function.update_self]
    exact ⟨carried.short.short, by rw [active]; exact carried.short.since⟩

theorem serverExpire (carried : Carried exchange turns peers link) (dated : link.Dated) {peer : Peer S}
    (current : link.server.peer = some peer) (now : Nat) :
    Carried exchange turns (Function.update peers .responder (peer.expire now))
      { link with server := { link.server with peer := some (peer.expire now) } } := by
  obtain rfl := carried.server current
  obtain ⟨active, orders, clock, retention⟩ := Peer.expire_frame (peers .responder) now
  have store := carried.flow.store .responder
  refine ⟨carried.flow.expire .responder now, carried.client, ?_, carried.id, ?_, carried.ledger, ?_, carried.behind,
    carried.accepted, ?_, carried.confirmed, carried.short, ?_, ?_, carried.replies, ?_⟩
  · intro peer same
    cases same
    rfl
  · exact retention.trans carried.timed
  · exact carried.window.congr rfl rfl
  · rw [Function.update_self, active]
    exact carried.answered
  · rw [Function.update_self]
    intro sending present
    rw [active] at present ⊢
    have fewer := (Peer.expire_drops (peers .responder) now).size_le
    have paced := carried.paced sending present
    simp only at fewer
    omega
  · rw [Function.update_self, active]
    exact carried.spent
  · rw [Function.update_self, active, clock]
    intro index stream found passed pending undelivered
    rcases carried.available found passed pending undelivered with ⟨slot, key, stored, here⟩ | lapsed
    · cases alive : Peer.live (max (peers .responder).lastNow now) key with
      | true => exact .inl ⟨slot, key, store.expire_keeps now stored alive, here⟩
      | false =>
        have position := (carried.flow.incoming .responder).stored stored
        rw [here] at position
        cases expires : key.expires with
        | none => simp [Peer.live, expires] at alive
        | some deadline =>
          have recorded := dated _ _ ⟨_, slot, key, current, stored, rfl, expires⟩
          rw [(carried.flow.paired.placed .responder).follows.secrets stored] at recorded
          refine .inr ⟨_, _, deadline, position, recorded, ?_⟩
          simpa only [Peer.live, expires, Option.all_some, decide_eq_false_iff_not, Nat.not_lt] using alive
    · obtain ⟨turn, number, deadline, position, recorded, past⟩ := lapsed
      exact .inr ⟨turn, number, deadline, position, recorded, past.trans (Nat.le_max_left _ _)⟩

/-- A number that the server has passed leaves room in its store up to the last
number that the client has given out. -/
theorem near (carried : Carried exchange turns peers link) {first second : Nat} {earlier later : Stream S}
    (here : (link.sent .initiator)[first]? = some earlier) (there : (link.sent .initiator)[second]? = some later)
    (pending : earlier.number ∈ link.client.owners) : second < first + replayWindow := by
  by_contra far
  have apart := sub_le_of_increasing carried.ledger.increasing here there (by simp only [replayWindow, maxSkippedKeys] at far; omega)
  have low := (carried.ledger.owned _ pending).2.1
  have below := carried.ledger.below later.number (List.mem_map_of_mem (List.mem_of_getElem? there))
  have narrow := carried.ledger.narrow
  omega

section ServerReceive

variable {index turn number : Nat} {stream : Stream S} {key : SendKey S} {offer : Peer.Offer S}

/-- Accepting a start keeps, or newly stores, the key of every pending start that
was passed and has not been delivered. -/
private theorem available_after (carried : Carried exchange turns peers link) (found : (link.sent .initiator)[index]? = some stream)
    (takes : Flow.Takes exchange .responder (turns .initiator) (peers .responder) offer.after index) {other : Nat} {pending : Stream S}
    (here : (link.sent .initiator)[other]? = some pending)
    (passed : other < exchange.reached .responder offer.after.active) (owned : pending.number ∈ link.client.owners)
    (undelivered : pending.number ∉ link.delivered) (different : other ≠ index) :
    Held exchange .responder offer.after other ∨
      Lapsed exchange (turns .initiator) link.deadlines offer.after.lastNow other := by
  have incoming := carried.flow.incoming .responder
  rw [takes.reached] at passed
  rw [takes.frame.1]
  rcases Nat.lt_or_ge other (exchange.reached .responder (peers .responder).active) with before | after
  · rcases carried.available here before owned undelivered with ⟨slot, stored, present, place⟩ | lapsed
    · refine .inl ⟨slot, stored, takes.keeps (Finset.Ico other (exchange.reached .responder (peers .responder).active))
        present (by rw [place]; exact different) fun _ => ⟨?_, ?_⟩, place⟩
      · have bounded := incoming.bounded
        have last : (link.sent .initiator)[exchange.reached .responder (peers .responder).active - 1]? = some _ :=
          List.getElem?_eq_getElem (by simp only [Side.other] at bounded; omega)
        have nearLast := carried.near here last owned
        have nearIndex := carried.near here found owned
        rw [Nat.card_Ico]
        simp only [replayWindow] at nearLast nearIndex
        omega
      · intro newer key inStore order
        rw [place] at order
        exact Finset.mem_Ico.mpr ⟨order, incoming.stored_lt (carried.flow.store .responder) inStore⟩
    · exact .inr lapsed
  · obtain ⟨turn', number', key', position, -⟩ := (carried.flow.outgoing .initiator).messages here
    obtain ⟨epoch, reaches⟩ := Side.responder.exists_receives position.owned
    have place : exchange.indexOf .responder (epoch, number') = other := by rw [Exchange.indexOf, reaches, position.index]
    obtain ⟨stored, present⟩ := takes.stores (epoch, number') (by rw [place]; exact after) (by rw [place]; omega)
      (by rw [place, reaches]; exact position)
    exact .inl ⟨_, stored, present, place⟩

/-- The server accepts a start: its chain moves, and one answer is paid for. -/
theorem serverReceive (carried : Carried exchange turns peers link) (ideal : S.Ideal)
    (found : (link.sent .initiator)[index]? = some stream)
    (position : Position exchange .initiator (turns .initiator) index turn number)
    (message : Paired.Message exchange turn number stream.number key)
    (offered : (peers .responder).offer key.header stream.number = .ok offer) (budget : 0 < link.server.remainingStarts) :
    offer.key = key.secret ∧ Paced offer.after 1 ∧ index < exchange.reached .responder offer.after.active ∧
      ∃ later, turn < later ∧ Carried exchange (Function.update turns .responder later)
        (Function.update peers .responder offer.after)
        { link with
          server := link.server.spend offer.after
          delivered := stream.number :: link.delivered } := by
  have inside := (List.getElem?_eq_some_iff.mp found).1
  obtain ⟨secret, takes, later, below, moves, grows, flow⟩ := carried.flow.receive .responder ideal inside position message offered
  have reached := takes.reached
  have paced := carried.paced.accept (carried.flow.store .responder) offered
  have spent := carried.spent
  have replies := carried.replies
  have near := takes.near
  refine ⟨secret, paced, by omega, later, below, flow, carried.client, ?_, carried.id, ?_, carried.ledger, ?_, carried.behind, ?_, ?_,
    carried.confirmed, carried.short, ?_, ?_, ?_, ?_⟩
  · intro peer same
    cases same
    rfl
  · exact takes.frame.2.trans carried.timed
  · exact carried.window.congr rfl rfl
  · exact fun other member => List.mem_cons_of_mem _ (carried.accepted other member)
  · rw [Function.update_self]
    exact carried.answered.grow grows (by omega)
  · rw [Function.update_self]
    intro sending present
    have bound := paced sending present
    omega
  · rw [Function.update_self]
    simp only [ServerSession.spend, maxSkippedKeys] at *
    omega
  · simp only [ServerSession.spend]
    omega
  · rw [Function.update_self]
    intro other pending here passed owned undelivered
    simp only [List.mem_cons, not_or] at undelivered
    refine carried.available_after found takes here passed owned undelivered.2 fun same => undelivered.1 ?_
    subst same
    cases found.symm.trans here
    rfl

end ServerReceive

/-- The server answers the start that it has just accepted. -/
theorem serverSend (carried : Carried exchange turns peers link) {index turn number : Nat} {stream : Stream S}
    (found : (link.sent .initiator)[index]? = some stream)
    (position : Position exchange .initiator (turns .initiator) index turn number) (below : turn < turns .responder)
    (passed : index < exchange.reached .responder (peers .responder).active) (paid : Paced (peers .responder) 1)
    (room : (link.sent .responder).length + link.server.remainingStarts < maxSessionStarts)
    (screened : link.server.screen stream.number = .ok ()) (delivered : stream.number ∈ link.delivered)
    {entropy key} {active : Active S} (sent : (peers .responder).active.sendWith stream.number entropy = .ok (key, active)) :
    ∃ longer later, Flow.Grows exchange longer turns later link.sent ∧
      Carried longer later (Function.update peers .responder { peers .responder with active })
      { link with
        server := { link.server with peer := some { peers .responder with active } }.markAccepted stream.number
        sent := Function.update link.sent .responder (link.sent .responder ++
          [⟨stream.number, Records.new key.secret link.server.id stream.number .response key.header⟩]) } := by
  obtain ⟨longer, turn', number', sends, grows, newest, flow⟩ := carried.flow.send sent
  have incoming := carried.flow.incoming .responder
  have agrees := grows.agrees .initiator
  have reached : longer.reached .responder active = exchange.reached .responder (peers .responder).active := by
    rw [← incoming.reached_congr agrees]
    simp only [Exchange.reached, sends.receive]
  have given : stream.number < link.client.shared.starts.next :=
    carried.ledger.below _ (List.mem_map_of_mem (List.mem_of_getElem? found))
  have later : turn < turn' := by
    have moved := sends.moved
    have mine := position.owned
    have theirs := sends.owned
    simp only [Side.Owns, Side.first] at mine theirs
    split at moved <;> omega
  have marked : ServerSession.Window ((link.sent .responder).map Stream.number ++ [stream.number])
      ({ link.server with peer := some { peers .responder with active } }.markAccepted stream.number) := by
    have open_ : ServerSession.Window ((link.sent .responder).map Stream.number)
      { link.server with peer := some { peers .responder with active } } := carried.window.congr rfl rfl
    exact (open_.markAccepted screened (given.le.trans carried.ledger.word)).1
  refine ⟨longer, Function.update turns .responder (turn' + 1), grows, ?_, carried.client, ?_, ?_, carried.timed, carried.ledger, ?_, ?_, ?_, ?_,
    ?_, ?_, ?_, ?_, ?_, ?_⟩
  · rw [ServerSession.markAccepted_id]
    exact flow
  · intro peer same
    rw [ServerSession.markAccepted_peer] at same
    cases same
    rfl
  · rw [ServerSession.markAccepted_id]
    exact carried.id
  · simpa using marked
  · rw [ServerSession.markAccepted_next]
    exact Nat.max_le.mpr ⟨carried.behind, given⟩
  · intro other member
    simp only [Function.update_self, List.mem_append, List.mem_singleton] at member
    rcases member with earlier | rfl
    · exact carried.accepted other earlier
    · exact delivered
  · rw [Function.update_self, reached]
    have grown := carried.answered.grow grows (Nat.le_refl _)
    have answer : Position longer .responder (Function.update turns .responder (turn' + 1) .responder)
        (link.sent .responder).length turn' number' := by
      rw [Function.update_self]
      exact newest
    exact grown.answer found rfl passed (grows.positions (List.getElem?_eq_some_iff.mp found).1 position) answer later
  · rcases carried.confirmed with none | ⟨other, member, same⟩
    · exact .inl none
    · exact .inr ⟨other, by simp [member], same⟩
  · exact carried.short.congr (carried.flow.tracks .initiator) agrees
  · rw [Function.update_self]
    intro sending present
    obtain ⟨current, same, counted⟩ := sends.counted
    cases same.symm.trans present
    have received : Active.received active = (peers .responder).active.received := by simp only [Active.received, sends.receive]
    change sending.chain.count + (peers .responder).order.size + 0 ≤ maxSkippedKeys + Active.received active
    rw [received, counted, sends.numbered]
    cases silent : (peers .responder).active.send with
    | some before =>
      have bound := paid before silent
      simp only [Option.elim_some]
      omega
    | none =>
      have bounded := (carried.flow.store .responder).bounded
      have heard : 0 < (peers .responder).active.received := by
        cases receiving : (peers .responder).active.receive with
        | none =>
          simp only [Exchange.reached, receiving, Option.elim_none] at passed
          omega
        | some receive =>
          simp only [Active.received, receiving, Option.elim_some]
          exact (incoming.current receiving).1
      simp only [Option.elim_none]
      omega
  · rw [Function.update_self, ServerSession.markAccepted_remaining, reached]
    exact carried.spent
  · simp only [Function.update_self, ServerSession.markAccepted_remaining, List.length_append, List.length_singleton]
    omega
  · rw [Function.update_self, reached]
    intro other pending here before owned undelivered
    rcases carried.available here before owned undelivered with held | lapsed
    · exact .inl (held.grow incoming grows)
    · exact .inr (lapsed.grow grows (List.getElem?_eq_some_iff.mp here).1)

/-- The turn that a request is sent in stays short: nothing in it was confirmed,
and the request is less than a window ahead of what was. -/
private theorem short_after (carried : Carried exchange turns peers link) {number turn place : Nat} {starts : Starts} {longer : Exchange S}
    {key : SendKey S} {active : Active S} (allocated : link.client.shared.starts.allocate = .ok (number, starts))
    (sends : Paired.Sends exchange longer turns peers .initiator number key active turn place)
    (grows : Flow.Grows exchange longer turns (Function.update turns .initiator (turn + 1)) link.sent)
    (newest : Position longer .initiator (turn + 1) (link.sent .initiator).length turn place) (stream : Stream S)
    (same : stream.number = number) :
    ShortTurns longer (turn + 1) active (link.sent .initiator ++ [stream]) starts.confirmedNext := by
  have ledger := carried.ledger.allocate allocated
  obtain ⟨-, -, -, rfl, rfl⟩ := Starts.allocate_ok.mp allocated
  have increasing : ((link.sent .initiator ++ [stream]).map Stream.number).Pairwise (· < ·) := by
    simpa [same] using ledger.increasing
  have moved := sends.moved
  have confirmed := carried.ledger.confirmed
  -- The messages of this turn so far are the ones that `since` speaks of.
  have earlier : ∀ {index : Nat} {other : Stream S}, (link.sent .initiator)[index]? = some other → longer.offset turn ≤ index →
      link.client.shared.starts.confirmedNext ≤ other.number := by
    intro index other found late
    have inside := (List.getElem?_eq_some_iff.mp found).1
    cases silent : (peers .initiator).active.send with
    | some current =>
      simp only [silent, Option.isNone_some, Bool.false_eq_true, if_false] at moved
      apply carried.short.since (by rw [silent]; rfl) found
      rw [← moved, Nat.add_sub_cancel, (grows.agrees .initiator).offset (by omega)]
      exact late
    | none =>
      have start := newest.index
      simp only [sends.numbered, silent, Option.elim_none] at start
      omega
  constructor
  · intro index inside
    rw [List.length_append, List.length_singleton] at inside
    rcases Nat.lt_succ_iff_lt_or_eq.mp inside with before | rfl
    · obtain ⟨turn', number', position, bound⟩ := carried.short.short before
      have kept := grows.positions before position
      rw [Function.update_self] at kept
      exact ⟨turn', number', kept, bound⟩
    · refine ⟨turn, place, newest, ?_⟩
      by_contra long
      have start := newest.index
      have first : longer.offset turn < (link.sent .initiator).length := by simp only [replayWindow, maxSkippedKeys] at long; omega
      have old : (link.sent .initiator)[longer.offset turn]? = some _ := List.getElem?_eq_getElem first
      have since := earlier old (Nat.le_refl _)
      have apart := sub_le_of_increasing increasing (by rw [List.getElem?_append_left first]; exact old)
        (List.getElem?_concat_length ..) (by omega)
      have near := ledger.near link.client.shared.starts.next (by simp)
      simp only at near
      omega
  · intro sending index other found late
    rw [List.getElem?_append] at found
    split at found
    · exact earlier found (by rwa [Nat.add_sub_cancel] at late)
    · obtain ⟨last, rfl⟩ := List.getElem?_eq_some_iff.mp found
      rw [List.getElem_singleton, same]
      exact confirmed

theorem clientSend (carried : Carried exchange turns peers link) {number : Nat} {starts : Starts} {entropy}
    {key} {active : Active S} (allocated : link.client.shared.starts.allocate = .ok (number, starts))
    (sent : (peers .initiator).active.sendWith number entropy = .ok (key, active)) :
    ∃ longer later, Flow.Grows exchange longer turns later link.sent ∧ active.receive = (peers .initiator).active.receive ∧
      Carried longer later (Function.update peers .initiator { peers .initiator with active })
      { link with
        client := link.client.allocated ⟨starts, { peers .initiator with active }⟩ number
        sent := Function.update link.sent .initiator (link.sent .initiator ++
          [⟨number, Records.new key.secret link.server.id number .request key.header⟩]) } := by
  obtain ⟨longer, turn, place, sends, grows, newest, flow⟩ := carried.flow.send sent
  have incoming := carried.flow.incoming .responder
  have agrees := grows.agrees .initiator
  have reached := incoming.reached_congr agrees
  have short := carried.short_after allocated sends grows newest
    ⟨number, Records.new key.secret link.server.id number .request key.header⟩ rfl
  have ledger := carried.ledger.allocate allocated
  obtain ⟨-, -, -, rfl, rfl⟩ := Starts.allocate_ok.mp allocated
  refine ⟨longer, Function.update turns .initiator (turn + 1), grows, sends.receive, flow, rfl, carried.server, carried.id, carried.timed, ?_, carried.window,
    carried.behind.trans (Nat.le_succ _), carried.accepted, ?_, carried.confirmed, ?_, carried.paced, ?_, carried.replies, ?_⟩
  · simpa [Client.allocated] using ledger
  · rw [Function.update_of_ne (by decide), reached]
    exact (carried.answered.grow grows (Nat.le_refl _)).start _
  · simpa only [Function.update_self, Client.allocated] using short
  · rw [Function.update_of_ne (by decide), reached]
    exact carried.spent
  · rw [Function.update_of_ne (by decide), reached]
    intro index stream found passed owned undelivered
    have bounded : exchange.reached .responder (peers .responder).active ≤ (link.sent .initiator).length := incoming.bounded
    simp only [Function.update_self] at found
    rw [List.getElem?_append_left (Nat.lt_of_lt_of_le passed bounded)] at found
    have given := carried.ledger.below _ (List.mem_map_of_mem (List.mem_of_getElem? found))
    have before : stream.number ∈ link.client.owners := by
      rcases List.mem_cons.mp owned with fresh | before
      · exact absurd fresh given.ne
      · exact before
    rcases carried.available found passed before undelivered with held | lapsed
    · exact .inl (held.grow incoming grows)
    · exact .inr (lapsed.grow grows (List.getElem?_eq_some_iff.mp found).1)

section ClientReceive

variable {place turn number now : Nat} {stream : Stream S} {key : SendKey S} {offer : Peer.Offer S}

/-- A response read in a turn confirms no request of that turn: the server
answered it before it knew the turn. -/
private theorem since_after (carried : Carried exchange turns peers link) (found : (link.sent .responder)[place]? = some stream)
    (position : Position exchange .responder (turns .responder) place turn number) {later : Nat} (below : turn < later)
    (moves : Paired.Moves (peers .initiator).active offer.after.active (turns .initiator) later turn) :
    ShortTurns exchange later offer.after.active (link.sent .initiator)
      (max link.client.shared.starts.confirmedNext (stream.number + 1)) := by
  obtain ⟨rfl, receive, active⟩ | ⟨rfl, entering, header, dh, kem, epoch, receive, active⟩ := moves
  · refine ⟨carried.short.short, fun sending index other here late => Nat.max_le.mpr ⟨?_, ?_⟩⟩
    · exact carried.short.since (by rw [active] at sending; exact sending) here late
    · obtain ⟨current, present⟩ := Option.isSome_iff_exists.mp sending
      rw [active] at present
      obtain ⟨positive, mine, -⟩ := (carried.flow.tracks .initiator).sends present
      obtain ⟨earlier, start, turn', number', turn'', number'', started, same, -, asked, answer, before⟩ :=
        carried.answered place stream found
      obtain ⟨rfl, -⟩ := answer.unique position
      have theirs := position.owned
      have ahead := asked.lt_offset mine (by simp only [Side.Owns, Side.first] at mine theirs; omega) (by omega)
      have apart := sub_le_of_increasing carried.ledger.increasing started here (by omega)
      omega
  · have foreign : ¬ Side.initiator.Owns (turns .initiator) := by
      rw [entering]
      exact (Side.initiator.owns_other turn).mp position.owned
    refine ⟨fun inside => ?_, fun sending => by rw [active] at sending; cases sending⟩
    obtain ⟨turn', number', here, bound⟩ := carried.short.short inside
    exact ⟨turn', number', here.foreign foreign, bound⟩

theorem clientReceive (carried : Carried exchange turns peers link) (ideal : S.Ideal)
    (found : (link.sent .responder)[place]? = some stream)
    (position : Position exchange .responder (turns .responder) place turn number)
    (message : Paired.Message exchange turn number stream.number key)
    (offered : (peers .initiator).offer key.header stream.number = .ok offer) (waiting : stream.number ∈ link.client.unread) :
    offer.key = key.secret ∧ Flow.Takes exchange .initiator (turns .responder) (peers .initiator) offer.after place ∧
      ∃ later, Carried exchange (Function.update turns .initiator later) (Function.update peers .initiator offer.after)
        { link with
          client := link.client.taken ⟨{ link.client.shared.starts with
            confirmedNext := max link.client.shared.starts.confirmedNext (stream.number + 1) }, offer.after⟩ stream.number
          opened := stream.number :: link.opened } := by
  have inside := (List.getElem?_eq_some_iff.mp found).1
  obtain ⟨secret, takes, later, below, moves, grows, flow⟩ := carried.flow.receive .initiator ideal inside position message offered
  have owned := carried.ledger.waiting _ waiting
  refine ⟨secret, takes, later, flow, rfl, carried.server, carried.id, carried.timed, (carried.ledger.confirm owned).take _,
    carried.window, carried.behind, carried.accepted, carried.answered.grow grows (Nat.le_refl _), ?_, ?_, carried.paced, carried.spent,
    carried.replies, ?_⟩
  · right
    rcases Nat.le_total link.client.shared.starts.confirmedNext (stream.number + 1) with more | less
    · exact ⟨stream, List.mem_of_getElem? found, (Nat.max_eq_right more).symm⟩
    · rcases carried.confirmed with none | ⟨other, member, same⟩
      · omega
      · exact ⟨other, member, same.trans (Nat.max_eq_left less).symm⟩
  · simpa only [Function.update_self, Client.taken] using carried.since_after found position below moves
  · intro index other here passed pending undelivered
    rcases carried.available here passed pending undelivered with held | lapsed
    · exact .inl held
    · exact .inr (lapsed.grow grows (List.getElem?_eq_some_iff.mp here).1)

end ClientReceive

end Carried

end Link
end StogasVerifier.Channel
