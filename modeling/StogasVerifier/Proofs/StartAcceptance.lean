import StogasVerifier.Proofs.LinkSound

/-! The first delivery of a pending request's start is accepted. -/

namespace StogasVerifier.Channel
open Std Lib

variable {S : Suite}

private theorem Records.check_request {records : Records S} {size : Nat} {kind : Kind} (waiting : records.phase = .metadata)
    (direction : records.direction = .request) (checked : records.check kind size = .ok ()) : kind = .metadata := by
  cases kind with
  | metadata => rfl
  | data | finished | keepalive => simp [check, waiting, direction, reject, bind_ok] at checked

private theorem ServerSession.authenticate_start {server : ServerSession S} {number : Nat} {bytes : S.Bytes}
    {secret : S.Secret} {output : Records S × Kind × S.Bytes}
    (authentic : Records.authenticateStart secret server.id number .request bytes = .ok output) :
    server.authenticate number bytes secret = .ok output := by
  have metadata : output.2.1 = .metadata := by
    simp only [Records.authenticateStart, bind_ok] at authentic
    obtain ⟨header, -, ⟨key, nonce, records⟩, keyed, plaintext, -, accepted⟩ := authentic
    cases keyed
    cases plaintext with
    | nil => cases accepted
    | cons first content =>
      simp only [Records.acceptOpen, bind_ok, pure_ok] at accepted
      obtain ⟨kind, -, done, checked, rfl⟩ := accepted
      exact Records.check_request rfl rfl checked
  simp [authenticate, authentic, metadata, reject, bind_ok]

namespace Link

namespace Carried

variable {exchange : Exchange S} {turns : Side → Nat} {peers : Side → Peer S} {link : Link S} {stream : Stream S} {index : Nat}

private theorem screened (carried : Carried exchange turns peers link) (found : (link.sent .initiator)[index]? = some stream)
    (pending : stream.number ∈ link.client.owners) (fresh : stream.number ∉ link.delivered) :
    link.server.screen stream.number = .ok () := by
  have known : stream.number ∈ (link.sent .initiator).map Stream.number := List.mem_map_of_mem (List.mem_of_getElem? found)
  have behind := carried.behind
  rw [ServerSession.screen_ok]
  split
  next before =>
    have low := (carried.ledger.owned _ pending).2.1
    have narrow := carried.ledger.narrow
    have inside : link.server.next ≤ stream.number + replayWindow := by omega
    refine ⟨inside, Bool.eq_false_iff.mpr fun marked => ?_⟩
    obtain ⟨other, member, same⟩ := List.mem_map.mp ((carried.window.exact _ before inside).mp marked)
    have delivered := carried.accepted other member
    rw [same] at delivered
    exact fresh delivered
  next beyond =>
    have below := carried.ledger.below _ known
    have word := carried.ledger.word
    have near := carried.ledger.near _ known
    have confirmed : link.client.shared.starts.confirmedNext ≤ link.server.next := by
      rcases carried.confirmed with none | ⟨other, member, same⟩
      · omega
      · have := carried.window.below _ (List.mem_map_of_mem member)
        omega
    exact ⟨by omega, by omega⟩

/-- A start is at most 256 messages ahead of the server's chain: the last
confirmed number was passed, and the start is less than a window after it. -/
private theorem gap (carried : Carried exchange turns peers link) (found : (link.sent .initiator)[index]? = some stream) :
    index ≤ exchange.reached .responder (peers .responder).active + maxSkippedKeys := by
  have near := carried.ledger.near _ (List.mem_map_of_mem (List.mem_of_getElem? found))
  simp only [replayWindow] at near
  rcases carried.confirmed with none | ⟨other, member, same⟩
  · have := index_le_of_increasing carried.ledger.increasing found
    omega
  · obtain ⟨place, answer⟩ := List.mem_iff_getElem?.mp member
    obtain ⟨earlier, start, turn, number, turn', number', there, number_eq, passed, -⟩ := carried.answered place other answer
    by_contra far
    have apart := sub_le_of_increasing carried.ledger.increasing there found (by omega)
    omega

theorem heard_short (carried : Carried exchange turns peers link) : (peers .responder).active.received ≤ replayWindow := by
  cases receiving : (peers .responder).active.receive with
  | none => simp [Active.received, receiving]
  | some receive =>
    have incoming := carried.flow.incoming .responder
    obtain ⟨positive, -, last⟩ := incoming.current receiving
    have bounded : exchange.reached .responder (peers .responder).active ≤ (link.sent .initiator).length := incoming.bounded
    have reached := incoming.reached_some receiving
    obtain ⟨turn, number, position, short⟩ := carried.short.short
      (show exchange.reached .responder (peers .responder).active - 1 < (link.sent .initiator).length by omega)
    obtain ⟨-, same⟩ := position.unique last
    simp only [Active.received, receiving, Option.elim_some]
    omega

theorem server_turn (carried : Carried exchange turns peers link) {slack : Nat} {sending : Sending S}
    (paid : Paced (peers .responder) slack) (present : (peers .responder).active.send = some sending) :
    sending.chain.count + slack ≤ 2 * replayWindow := by
  have bound := paid sending present
  have heard := carried.heard_short
  simp only [replayWindow] at *
  omega

private theorem offers_start (carried : Carried exchange turns peers link) (ideal : S.Ideal) (validates : S.Validates)
    {turn number : Nat} {key : SendKey S} (found : (link.sent .initiator)[index]? = some stream)
    (position : Position exchange .initiator (turns .initiator) index turn number)
    (message : Paired.Message exchange turn number stream.number key)
    (pending : stream.number ∈ link.client.owners) (fresh : stream.number ∉ link.delivered)
    (alive : ∀ {slot stored}, (peers .responder).lookup slot = some stored → Peer.live (peers .responder).lastNow stored = true)
    (live : ∀ deadline, (key.secret, deadline) ∈ link.deadlines → (peers .responder).lastNow < deadline) :
    ∃ offer, (peers .responder).offer key.header stream.number = .ok offer := by
  have spent := carried.spent
  apply carried.flow.offers .responder ideal validates position message
  · simp only [maxSkippedKeys, maxSessionStarts, u64Max] at *
    omega
  · intro ahead
    exact carried.gap found
  · intro passed
    rcases carried.available found passed pending fresh with ⟨slot, stored, present, place⟩ | lapsed
    · exact ⟨slot, stored, present, place, alive present⟩
    · obtain ⟨turn', number', deadline, same, recorded, past⟩ := lapsed
      obtain ⟨rfl, rfl⟩ := same.unique position
      rw [← message.secret] at recorded
      exact absurd past (Nat.not_le.mpr (live deadline recorded))

/-- When the server takes a genuine start, both sessions go on from the peer that it then has. -/
theorem takes (carried : Carried exchange turns peers link) (ideal : S.Ideal) (dated : link.Dated) {peer : Peer S}
    (current : link.server.peer = some peer) {kind : Kind} {content bytes header : S.Bytes} (sent : stream ∈ link.sent .initiator)
    (starts : stream.Starts kind content bytes) (framed : startHeader bytes = .ok header) {now : Nat} {offer : Peer.Offer S}
    (offered : (peer.expire now).offer header stream.number = .ok offer) (budget : 0 < link.server.remainingStarts) :
    Paced offer.after 1 ∧ 0 < exchange.reached .responder offer.after.active ∧
      ∃ later after next, after .responder = offer.after ∧ Carried exchange later after next := by
  obtain ⟨index, found⟩ := List.mem_iff_getElem?.mp sent
  obtain ⟨turn, number, key, position, message, wire, -⟩ := (carried.flow.outgoing .initiator).starts ideal.sealing found starts
  cases framed.symm.trans wire
  obtain ⟨-, paid, passed, later, -, received⟩ := (carried.serverExpire dated current now).serverReceive ideal found position
    message (by rw [Function.update_self]; exact offered) budget
  exact ⟨paid, Nat.zero_lt_of_lt passed, _, _, _, Function.update_self .., received⟩

end Carried

/-- With working draws the server answers every genuine start that it takes. -/
theorem Sound.answers {spaced : Prop} {link : Link S} (sound : Sound spaced link) (ideal : S.Ideal) (contributory : S.Contributory)
    {stream : Stream S} {kind : Kind} {content bytes header : S.Bytes} (sent : stream ∈ link.sent .initiator)
    (starts : stream.Starts kind content bytes) {peer : Peer S} (current : link.server.peer = some peer)
    (budget : 0 < link.server.remainingStarts) {now : Nat} {offer : Peer.Offer S} (framed : startHeader bytes = .ok header)
    (offered : (peer.expire now).offer header stream.number = .ok offer) {entropy : Entropy S} {keySeed randomness : S.Secret}
    (seeded : entropy.seed = .ok keySeed) (drawn : entropy.randomness = .ok randomness) :
    ∃ response active, offer.after.active.sendWith stream.number entropy = .ok (response, active) := by
  obtain ⟨dated, exchange, turns, peers, carried, -⟩ := sound
  obtain ⟨paid, passed, _, after, _, same, received⟩ := carried.takes ideal dated current sent starts framed offered budget
  rw [← same] at paid passed ⊢
  have known : (after .responder).active.remote.isSome := by
    apply (received.flow.tracks .responder).knows.mpr
    right
    cases receiving : (after .responder).active.receive with
    | none => simp [Exchange.reached, receiving] at passed
    | some receive => rfl
  refine received.flow.sends .responder ideal.sealing contributory known seeded drawn (fun sending present => ?_) stream.number
  have turn := received.server_turn paid present
  simp only [replayWindow, maxSkippedKeys, maxChainMessages] at *
  omega

/-- What the server does with the first delivery of a pending start. -/
theorem Sound.admits {spaced : Prop} {link : Link S} (sound : Sound spaced link) (ideal : S.Ideal)
    (validates : S.Validates) (contributory : S.Contributory) {stream : Stream S} {kind : Kind} {content bytes : S.Bytes}
    (sent : stream ∈ link.sent .initiator) (starts : stream.Starts kind content bytes)
    (pending : stream.number ∈ link.client.owners) (fresh : stream.number ∉ link.delivered) {peer : Peer S}
    (current : link.server.peer = some peer) (budget : 0 < link.server.remainingStarts) (now : Nat) (entropy : Entropy S)
    {keySeed randomness : S.Secret} (seeded : entropy.seed = .ok keySeed) (drawn : entropy.randomness = .ok randomness)
    (live : ∀ secret deadline output, (secret, deadline) ∈ link.deadlines →
      link.server.authenticate stream.number bytes secret = .ok output → max peer.lastNow now < deadline) :
    ∃ (offer : Peer.Offer S) (reader : Records S) (response : SendKey S) (active : Active S),
      offer.after.lastNow = max peer.lastNow now ∧
      (∀ {slot key}, offer.after.lookup slot = some key → peer.lookup slot = some key ∨
        key.expires = some (saturatingAdd (max peer.lastNow now) skippedKeyLifetimeMs)) ∧
      link.server.acceptStart stream.number bytes now entropy =
        (.ok ⟨reader, Records.new response.secret link.server.id stream.number .response response.header, content⟩,
          ((link.server.spend { offer.after with active }).markAccepted stream.number).settleBudget) := by
  have ⟨dated, exchange, turns, peers, carried, _⟩ := sound
  obtain ⟨index, found⟩ := List.mem_iff_getElem?.mp sent
  obtain ⟨turn, number, key, position, message, wire, incoming, authentic⟩ :=
    (carried.flow.outgoing .initiator).starts ideal.sealing found starts
  have opens : link.server.authenticate stream.number bytes key.secret = .ok (incoming, kind, content) :=
    ServerSession.authenticate_start authentic
  have expired := carried.serverExpire dated current now
  obtain rfl := carried.server current
  have clock := (Peer.expire_frame (peers .responder) now).2.2.1
  obtain ⟨offer, offered⟩ := expired.offers_start ideal validates found position message pending fresh
    (by
      rw [Function.update_self, clock]
      exact (carried.flow.store .responder).expire_live now)
    (by
      rw [Function.update_self, clock]
      exact fun deadline recorded => live _ _ _ recorded opens)
  obtain ⟨secret, -⟩ := expired.serverReceive ideal found position message offered budget
  obtain ⟨-, takes, -⟩ := expired.flow.receive .responder ideal (List.getElem?_eq_some_iff.mp found).1 position message offered
  rw [Function.update_self] at offered takes
  obtain ⟨response, active, answered⟩ := sound.answers ideal contributory sent starts current budget wire offered seeded drawn
  rw [← secret] at opens
  refine ⟨offer, incoming, response, active, takes.frame.1.trans clock, ?_,
    ServerSession.acceptStart_admits current (carried.screened found pending fresh) wire budget offered opens answered⟩
  intro slot stored present
  rcases (takes.lookup present).2 with earlier | ⟨-, -, expires⟩
  · exact .inl (Peer.expire_subset (carried.flow.store .responder) now earlier)
  · right
    rw [expires, (Peer.expire_frame (peers .responder) now).2.2.2, carried.timed, clock]
    rfl

end Link
end StogasVerifier.Channel
