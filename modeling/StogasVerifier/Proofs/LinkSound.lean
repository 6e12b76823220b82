import StogasVerifier.Proofs.ResponseStore
import StogasVerifier.Proofs.RecordStart

/-! Every step of a link keeps its invariants. -/

namespace StogasVerifier.Channel
open Std Lib

variable {S : Suite}

section
variable {exchange : Exchange S} {id : S.Bytes} {side : Side} {turns index : Nat} {active : Active S} {sent : List (Stream S)}
  {stream : Stream S}

theorem Outgoing.starts (outgoing : Outgoing exchange id side turns active sent) (sealing : S.Sealing)
    {kind : Kind} {content bytes : S.Bytes} (found : sent[index]? = some stream)
    (starts : stream.Starts kind content bytes) : ∃ turn number key, Position exchange side turns index turn number ∧
      Paired.Message exchange turn number stream.number key ∧ startHeader bytes = .ok key.header ∧
      ∃ incoming, Records.authenticateStart key.secret id stream.number side.direction bytes = .ok (incoming, kind, content) := by
  obtain ⟨turn, number, key, position, message, shape⟩ := outgoing.messages found
  obtain ⟨after, sealed⟩ := starts
  rw [shape] at sealed
  have width := HeaderCipher.sealHeader_length sealing message.sent
  exact ⟨turn, number, key, position, message, Records.startHeader_sealing sealing width sealed,
    Records.authenticateStart_sealing sealing width sealed⟩

theorem Outgoing.exists_starts (outgoing : Outgoing exchange id side turns active sent) (sealing : S.Sealing)
    (found : sent[index]? = some stream) (content : S.Bytes) (filled : content ≠ [])
    (short : recordOverhead + content.length + (2 + headerBytes) ≤ maxRecordBytes) :
    ∃ bytes, stream.Starts .metadata content bytes := by
  obtain ⟨turn, number, key, position, message, shape⟩ := outgoing.messages found
  have width := HeaderCipher.sealHeader_length sealing message.sent
  have size := List.length_pos_iff.mpr filled
  obtain ⟨sealedBytes, encrypted⟩ := sealing.total (Records.startKeys key.secret id stream.number side.direction).1 (nonce S 0)
    (Records.startPrefix key.header content.length) (S.u8 Kind.metadata.code :: content)
    (by simp only [List.length_cons, maxRecordBytes] at *; omega)
  refine ⟨_, _, shape ▸ (Records.sealing_start width).mpr ⟨?_, by rw [width]; exact short, sealedBytes, encrypted, rfl, rfl⟩⟩
  have fits : ¬ maxRecordPlaintext < content.length := by rw [maxRecordPlaintext]; omega
  simp [Records.check, Records.new, Records.fromKeys, bind_ok, reject_ok, maxRecords, fits, filled]

end

namespace Link

/-- What holds after every run, and what holds if its arrivals were spaced. -/
structure Sound (spaced : Prop) (link : Link S) : Prop where
  dated : link.Dated
  carried : ∃ exchange turns peers, Carried exchange turns peers link ∧ (spaced → Responses exchange peers link)

/-- What a client step does to its peer if it neither sends nor receives. -/
inductive Rests (peer : Peer S) (unread : List Nat) : Peer S → Prop where
  | same : Rests peer unread peer
  | expire (now : Nat) : Rests peer unread (peer.expire now)
  | discard (none : unread = []) : Rests peer unread peer.discardDelayed

namespace Sound

variable {spaced : Prop} {link : Link S}

/-- A client step that neither sends nor receives. -/
private theorem rest (sound : Sound spaced link) (client : Client S)
    (rests : Rests link.client.shared.peer client.unread client.shared.peer) (id : client.session.id = link.client.session.id)
    (ledger : ∀ {numbers}, Ledger link.client.shared.starts numbers link.client.owners link.client.unread →
      Ledger client.shared.starts numbers client.owners client.unread)
    (following : link.client.shared.starts.next ≤ client.shared.starts.next)
    (confirmed : client.shared.starts.confirmedNext = link.client.shared.starts.confirmedNext)
    (owners : client.owners ⊆ link.client.owners) (unread : client.unread ⊆ link.client.unread) :
    Sound spaced { link with client } := by
  obtain ⟨dated, exchange, turns, peers, carried, responses⟩ := sound
  have store := carried.flow.store .initiator
  have same := carried.client
  generalize new : client.shared.peer = peer at rests
  rw [same] at rests
  obtain ⟨flow, active, retention, subset, keeps⟩ : Flow exchange link.server.id turns (Function.update peers .initiator peer) link.sent ∧
      peer.active = (peers .initiator).active ∧ peer.retention = (peers .initiator).retention ∧
      (∀ {slot key}, peer.lookup slot = some key → (peers .initiator).lookup slot = some key) ∧
      (spaced → client.unread ≠ [] → ∀ {slot key}, (peers .initiator).lookup slot = some key → peer.lookup slot = some key) := by
    cases rests with
    | same =>
      rw [Function.update_eq_self]
      exact ⟨carried.flow, rfl, rfl, fun found => found, fun _ _ _ _ found => found⟩
    | expire now =>
      obtain ⟨active, -, -, retention⟩ := Peer.expire_frame (peers .initiator) now
      refine ⟨carried.flow.expire .initiator now, active, retention, Peer.expire_subset store now, fun spaced _ slot key found => ?_⟩
      exact store.expire_keeps now found (by simp [Peer.live, (responses spaced).lasting found])
    | discard none =>
      refine ⟨carried.flow.discardDelayed .initiator, rfl, rfl, ?_, fun _ waiting => absurd none waiting⟩
      intro slot key found
      simp [Peer.discardDelayed, Peer.lookup] at found
  subst new
  refine ⟨dated, exchange, turns, _, carried.clientShrink client flow active id (ledger carried.ledger) following confirmed owners, ?_⟩
  intro met
  apply (responses met).move
  · rw [Function.update_self, active]
  · rw [Function.update_self, retention]
  · rw [Function.update_self]
    exact subset
  · rw [Function.update_self]
    exact keeps met
  · rfl
  · rfl
  · exact fun stream _ waiting => unread waiting

theorem expireClient (sound : Sound spaced link) (now : Nat) : Sound spaced { link with client := { link.client with
    shared := { link.client.shared with peer := link.client.shared.peer.expire now } } } :=
  sound.rest { link.client with shared := { link.client.shared with peer := link.client.shared.peer.expire now } } (.expire now) rfl
    (fun ledger => ledger) (Nat.le_refl _) rfl (List.Subset.refl _) (List.Subset.refl _)

theorem request (sound : Sound spaced link) {entropy : Entropy S} {request : ClientRequest S} {shared : Shared S}
    (done : link.client.session.requestWith link.client.shared entropy = (.ok request, shared)) :
    Sound spaced (link.requested request shared) := by
  obtain ⟨dated, exchange, turns, peers, carried, responses⟩ := sound
  obtain ⟨-, number, starts, key, active, allocated, sent, rfl, rfl⟩ := ClientSession.requestWith_ok done
  rw [carried.client] at sent
  obtain ⟨longer, later, grows, receive, next⟩ := carried.clientSend allocated sent
  rw [Link.requested, carried.client, carried.id]
  refine ⟨dated, longer, later, _, next, fun met => ((responses met).grow (carried.flow.incoming .initiator) grows).move ?_ ?_ ?_ ?_ ?_ rfl ?_⟩
  · rw [Function.update_self]
    exact receive
  · rw [Function.update_self]
  · rw [Function.update_self]
    exact fun found => found
  · rw [Function.update_self]
    exact fun _ _ _ found => found
  · simp
  · intro stream member waiting
    rcases List.mem_cons.mp waiting with fresh | waiting
    · obtain ⟨place, found⟩ := List.mem_iff_getElem?.mp member
      obtain ⟨index, start, turn, number', turn', number'', there, same, -⟩ := carried.answered place stream found
      have below := carried.ledger.below _ (List.mem_map_of_mem (List.mem_of_getElem? there))
      obtain ⟨-, -, -, rfl, -⟩ := Starts.allocate_ok.mp allocated
      simp only at fresh
      omega
    · exact waiting

theorem fail (sound : Sound spaced link) {entropy : Entropy S} {error : Error} {shared : Shared S}
    (done : link.client.session.requestWith link.client.shared entropy = (.error error, shared)) :
    Sound spaced { link with client := { link.client with shared } } := by
  obtain rfl | ⟨number, starts, allocated, rfl⟩ := ClientSession.requestWith_error done
  · exact sound
  · apply sound.rest
    · exact .same
    · rfl
    · exact fun ledger => ledger.fail allocated
    · obtain ⟨-, -, -, -, rfl⟩ := Starts.allocate_ok.mp allocated
      rw [Starts.release_next]
      exact Nat.le_succ _
    · obtain ⟨-, -, -, -, rfl⟩ := Starts.allocate_ok.mp allocated
      rw [Starts.release_confirmedNext]
    · exact List.Subset.refl _
    · exact List.Subset.refl _

private theorem served_dated (link : Link S) (number : Nat) (outcome : Except Error (Admitted S) × ServerSession S) :
    (link.served number outcome).Dated := by
  obtain ⟨result, server⟩ := outcome
  cases result with
  | error error => exact fun secret deadline held => .inr held
  | ok admitted => exact fun secret deadline held => .inr held

private theorem settled {exchange : Exchange S} {turns : Side → Nat} {peers : Side → Peer S}
    (carried : Carried exchange turns peers link) (stored : Set (S.Secret × Nat)) :
    Carried exchange turns peers { link with server := link.server.settleBudget, deadlines := link.deadlines ∪ stored } := by
  refine carried.mono rfl rfl (ServerSession.settleBudget_id _) (ServerSession.settleBudget_next _)
    (ServerSession.settleBudget_accepted _) (ServerSession.settleBudget_remaining _).le ?_ (List.Subset.refl _) Set.subset_union_left
  intro peer found
  exact carried.server (ServerSession.settleBudget_peer found)

private theorem refused (sound : Sound spaced link) (number : Nat) (error : Error) :
    Sound spaced (link.served number (.error error, link.server)) := by
  obtain ⟨-, exchange, turns, peers, carried, responses⟩ := sound
  exact ⟨served_dated link number _, exchange, turns, peers, carried.mono rfl rfl rfl rfl rfl (Nat.le_refl _) carried.server
    (List.Subset.refl _) Set.subset_union_left, fun met => (responses met).idle rfl rfl rfl rfl⟩

private theorem rejected (sound : Sound spaced link) {peer : Peer S} (current : link.server.peer = some peer) (number now : Nat) (error : Error) :
    Sound spaced (link.served number (.error error, (link.server.spend (peer.expire now)).settleBudget)) := by
  obtain ⟨dated, exchange, turns, peers, carried, responses⟩ := sound
  have expired := carried.serverExpire dated current now
  have spent : Carried exchange turns _ { link with server := link.server.spend (peer.expire now) } :=
    expired.mono rfl rfl rfl rfl rfl (Nat.sub_le _ _) expired.server (List.Subset.refl _) (Set.Subset.refl _)
  exact ⟨served_dated link number _, exchange, turns, _, settled spent _, fun met => (responses met).idle rfl rfl rfl rfl⟩

theorem inject (sound : Sound spaced link) {number now : Nat} {bytes : S.Bytes} (forged : link.ForgedStart number bytes now)
    (entropy : Entropy S) : Sound spaced (link.served number (link.server.acceptStart number bytes now entropy)) := by
  have accepts := link.server.acceptStart_accepts number bytes now entropy
  generalize link.server.acceptStart number bytes now entropy = outcome at accepts ⊢
  obtain ⟨result, after⟩ := outcome
  cases accepts with
  | refuse => exact sound.refused number _
  | reject current screened framed budget failed settled =>
    cases settled
    exact sound.rejected current number now _
  | unanswered current screened framed budget offered authentic failed settled =>
    exact absurd authentic (forged _ _ _ _ current framed offered)
  | admission current screened framed budget offered authentic answered settled =>
    exact absurd authentic (forged _ _ _ _ current framed offered)

private theorem redelivered (sound : Sound spaced link) (number : Nat) : Sound spaced { link with delivered := number :: link.delivered } := by
  obtain ⟨dated, exchange, turns, peers, carried, responses⟩ := sound
  exact ⟨dated, exchange, turns, peers, carried.mono rfl rfl rfl rfl rfl (Nat.le_refl _) carried.server
    (List.subset_cons_self _ _) (Set.Subset.refl _), fun met => (responses met).idle rfl rfl rfl rfl⟩

/-- A start reaches the server, for the first time or again. -/
theorem deliver (sound : Sound spaced link) (ideal : S.Ideal) {stream : Stream S} {kind : Kind} {content bytes : S.Bytes}
    (member : stream ∈ link.sent .initiator) (starts : stream.Starts kind content bytes) (now : Nat) (entropy : Entropy S) :
    Sound spaced { link.served stream.number (link.server.acceptStart stream.number bytes now entropy) with
      delivered := stream.number :: link.delivered } := by
  have dated := served_dated link stream.number (link.server.acceptStart stream.number bytes now entropy)
  have accepts := link.server.acceptStart_accepts stream.number bytes now entropy
  generalize link.server.acceptStart stream.number bytes now entropy = outcome at accepts dated ⊢
  obtain ⟨result, after⟩ := outcome
  obtain ⟨index, found⟩ := List.mem_iff_getElem?.mp member
  cases accepts with
  | @refuse error => exact (sound.refused stream.number error).redelivered stream.number
  | @reject _ peer header error current screened framed budget failed settled =>
    cases settled
    exact (sound.rejected current stream.number now error).redelivered stream.number
  | @unanswered _ peer header offer output error current screened framed budget offered authentic failed shape =>
    obtain ⟨before, exchange, turns, peers, carried, responses⟩ := sound
    obtain ⟨turn, number, key, position, message, wire, -⟩ := (carried.flow.outgoing .initiator).starts ideal.sealing found starts
    cases framed.symm.trans wire
    obtain ⟨-, -, -, later, -, received⟩ := (carried.serverExpire before current now).serverReceive ideal found position message
      (by rw [Function.update_self]; exact offered) budget
    subst shape
    exact ⟨dated, exchange, _, _, settled received _, fun met => (responses met).idle rfl rfl rfl rfl⟩
  | @admission _ peer header offer incoming kind metadata response active current screened framed budget offered authentic answered shape =>
    obtain ⟨before, exchange, turns, peers, carried, responses⟩ := sound
    obtain ⟨turn, number, key, position, message, wire, -⟩ := (carried.flow.outgoing .initiator).starts ideal.sealing found starts
    cases framed.symm.trans wire
    have replies := carried.replies
    obtain ⟨-, paid, passed, later, below, received⟩ := (carried.serverExpire before current now).serverReceive ideal found position
      message (by rw [Function.update_self]; exact offered) budget
    obtain ⟨longer, turns', grows, done⟩ := received.serverSend found position (by rw [Function.update_self]; exact below)
      (by rw [Function.update_self]; exact passed) (by rw [Function.update_self]; exact paid)
      (by simp only [ServerSession.spend]; omega) screened List.mem_cons_self (by rw [Function.update_self]; exact answered)
    have once := done.window.once
    simp only [Function.update_self, List.map_append, List.map_cons, List.map_nil] at once
    have fresh : ∀ other ∈ link.sent .responder, other.number ≠ stream.number := by
      intro other earlier same
      exact (List.nodup_append.mp once).2.2 _ (List.mem_map_of_mem earlier) _ (List.mem_singleton_self _) same
    subst shape
    rw [Function.update_self] at done
    refine ⟨dated, longer, turns', _, settled done _, fun met => ?_⟩
    have waiting := (responses met).grow (received.flow.incoming .initiator) grows
    exact waiting.answer ⟨stream.number, .new response.secret link.server.id stream.number .response response.header⟩ fresh rfl
      (by simp only [served, Function.update_self]) rfl rfl

private theorem unheard (sound : Sound spaced link) (number : Nat) {shared : Shared S} (starts : shared.starts = link.client.shared.starts)
    (rests : Rests link.client.shared.peer (link.client.unread.erase number) shared.peer) (error : Error) :
    Sound spaced (link.heard number (.error error, shared)) := by
  apply sound.rest (link.client.taken shared number) rests rfl
  · intro numbers ledger
    simp only [Client.taken, starts]
    exact ledger.take number
  · simp only [Client.taken, starts]
    exact Nat.le_refl _
  · simp only [Client.taken, starts]
  · exact List.Subset.refl _
  · exact List.erase_subset

theorem misread (sound : Sound spaced link) {number now : Nat} {bytes : S.Bytes} (forged : link.ForgedResponse number bytes now) :
    Sound spaced (link.heard number (link.client.shared.readStart link.client.session.id number bytes now)) := by
  have reads := link.client.shared.readStart_reads link.client.session.id number bytes now
  generalize link.client.shared.readStart link.client.session.id number bytes now = outcome at reads ⊢
  obtain ⟨result, after⟩ := outcome
  cases reads with
  | misframed framed => exact sound.unheard number rfl .same _
  | reject framed failed settled =>
    subst settled
    apply sound.unheard number
    · rfl
    · exact .expire now
  | accept framed offered authentic settled => exact absurd authentic (forged _ _ _ framed offered)

theorem read (sound : Sound spaced link) (ideal : S.Ideal) {stream : Stream S} {kind : Kind} {content bytes : S.Bytes}
    (member : stream ∈ link.sent .responder) (starts : stream.Starts kind content bytes)
    (waiting : stream.number ∈ link.client.unread) (now : Nat) (near : spaced → link.Spaced (.response stream.number)) :
    Sound spaced (link.heard stream.number (link.client.shared.readStart link.client.session.id stream.number bytes now)) := by
  have reads := link.client.shared.readStart_reads link.client.session.id stream.number bytes now
  generalize link.client.shared.readStart link.client.session.id stream.number bytes now = outcome at reads ⊢
  obtain ⟨result, after⟩ := outcome
  cases reads with
  | misframed framed => exact sound.unheard stream.number rfl .same _
  | reject framed failed settled =>
    subst settled
    apply sound.unheard stream.number
    · rfl
    · exact .expire now
  | @accept header offer output _ framed offered authentic settled =>
    obtain ⟨dated, exchange, turns, peers, carried, responses⟩ := sound.expireClient now
    obtain ⟨place, found⟩ := List.mem_iff_getElem?.mp member
    obtain ⟨turn, number, key, position, message, wire, -⟩ := (carried.flow.outgoing .responder).starts ideal.sealing found starts
    cases framed.symm.trans wire
    rw [show link.client.shared.peer.expire now = peers .initiator from carried.client] at offered
    obtain ⟨-, takes, later, received⟩ := carried.clientReceive ideal found position message offered waiting
    subst settled
    refine ⟨dated, exchange, _, _, received, fun met => ?_⟩
    exact (responses met).take carried.flow found carried.window.once takes (near met) carried.ledger.single rfl rfl rfl
      (Function.update_self _ _ _)

theorem drop (sound : Sound spaced link) {number : Nat} (owned : number ∈ link.client.owners) :
    Sound spaced { link with client := link.client.dropped number } := by
  have rests : Rests link.client.shared.peer (link.client.unread.erase number) (link.client.shared.dropPending number).peer ∧
      (link.client.shared.dropPending number).starts = link.client.shared.starts.release number := by
    obtain ⟨-, exchange, turns, peers, carried, -⟩ := sound
    have ledger := carried.ledger.drop owned
    unfold Shared.dropPending
    simp only
    split
    next empty =>
      refine ⟨.discard (List.eq_nil_iff_forall_not_mem.mpr fun other waiting => ?_), rfl⟩
      obtain ⟨known, low, -⟩ := ledger.owned other (ledger.waiting other waiting)
      have below := ledger.below other known
      omega
    next => exact ⟨.same, rfl⟩
  apply sound.rest (link.client.dropped number) rests.1 rfl
  · intro numbers ledger
    simp only [Client.dropped, rests.2]
    exact ledger.drop owned
  · simp only [Client.dropped, rests.2, Starts.release_next]
    exact Nat.le_refl _
  · simp only [Client.dropped, rests.2, Starts.release_confirmedNext]
  · exact List.erase_subset
  · exact List.erase_subset

theorem expireServer (sound : Sound spaced link) (now : Nat) : Sound spaced { link with server := link.server.expire now } := by
  obtain ⟨dated, exchange, turns, peers, carried, responses⟩ := sound
  have clock : ∀ secret deadline, (link.server.expire now).Holds secret deadline → link.server.Holds secret deadline := by
    rintro secret deadline ⟨peer, id, key, current, found, rest⟩
    obtain ⟨before, same, rfl⟩ := Option.map_eq_some_iff.mp current
    obtain rfl := carried.server same
    exact ⟨_, id, key, same, Peer.expire_subset (carried.flow.store .responder) now found, rest⟩
  refine ⟨fun secret deadline held => dated _ _ (clock _ _ held), exchange, turns, ?_⟩
  cases current : link.server.peer with
  | none =>
    have same : link.server.expire now = link.server := by
      rw [ServerSession.expire, current, Option.map_none, ← current]
    rw [same]
    exact ⟨peers, carried, fun met => (responses met).idle rfl rfl rfl rfl⟩
  | some peer =>
    rw [ServerSession.expire, current, Option.map_some]
    exact ⟨_, carried.serverExpire dated current now, fun met => (responses met).idle rfl rfl rfl rfl⟩

theorem step (sound : Sound spaced link) (ideal : S.Ideal) {arrival : Arrival} {next : Link S} (moved : Step link arrival next)
    (near : spaced → link.Spaced arrival) : Sound spaced next := by
  cases moved with
  | request done => exact sound.request done
  | fail done => exact sound.fail done
  | deliver member starts now entropy => exact sound.deliver ideal member starts now entropy
  | inject forged entropy => exact sound.inject forged entropy
  | read member starts waiting now => exact sound.read ideal member starts waiting now near
  | misread waiting forged => exact sound.misread forged
  | drop owned => exact sound.drop owned
  | expireClient now =>
    unfold ClientSession.expire
    split
    · exact sound.expireClient now
    · exact sound
  | closeClient =>
    exact sound.rest { link.client with session := link.client.session.close } .same rfl (fun ledger => ledger) (Nat.le_refl _) rfl
      (List.Subset.refl _) (List.Subset.refl _)
  | expireServer now => exact sound.expireServer now
  | closeServer =>
    obtain ⟨dated, exchange, turns, peers, carried, responses⟩ := sound
    refine ⟨?_, exchange, turns, peers, carried.mono rfl rfl rfl rfl rfl (Nat.le_refl _) nofun (List.Subset.refl _) (Set.Subset.refl _),
      fun met => (responses met).idle rfl rfl rfl rfl⟩
    rintro secret deadline ⟨peer, id, key, current, rest⟩
    cases current

theorem initial {root seed : S.Secret} (initial : Initial root seed link) : Sound spaced link := by
  obtain ⟨⟨idleSeconds, created⟩, server, unread, owners, sent, delivered, opened, deadlines⟩ := initial
  simp only [ClientSession.new, bind_ok, pure_ok, Prod.mk.injEq] at created
  obtain ⟨peer, made, session, shared⟩ := created
  let peers : Side → Peer S := Side.rec peer (Peer.responder root (KeyPair.fromSeed seed))
  obtain ⟨exchange, flow⟩ := Flow.initial (show Peer.initiator root _ = .ok (peers .initiator) from made) rfl link.server.id
  have new : peers .initiator = Peer.new root none (some (KeyPair.fromSeed seed).publicKeys) true := by
    simp only [Peer.initiator, bind_ok, pure_ok] at made
    obtain ⟨-, -, rfl⟩ := made
    rfl
  have silent : link.server.peer = some (peers .responder) := by rw [server]; rfl
  have starts : link.client.shared.starts = Starts.default := by rw [← shared]
  refine ⟨?_, exchange, fun _ => 0, peers, ?_, fun _ => ?_⟩
  · rintro secret deadline ⟨other, slot, key, current, found, _⟩
    cases silent.symm.trans current
    simp [peers, Peer.responder, Peer.new, Peer.lookup] at found
  · have window := ServerSession.Window.new root link.server.id (KeyPair.fromSeed seed)
    rw [← server] at window
    have following : link.server.next = 0 := by rw [server]; rfl
    have budget : link.server.remainingStarts = maxSessionStarts := by rw [server]; rfl
    constructor
    case flow => rw [sent]; exact flow
    case client => rw [← shared]
    case server => intro other current; exact (Option.some.inj (silent.symm.trans current)).symm
    case id => rw [← session]
    case timed => rfl
    case ledger => rw [starts, sent, unread, owners]; exact .default
    case window => rw [sent]; exact window
    case behind => rw [following]; exact Nat.zero_le _
    case accepted => rw [sent]; simp
    case answered => rw [sent]; simp [Answered]
    case confirmed => rw [starts]; exact .inl rfl
    case short => rw [sent, starts, new]; exact ⟨by simp, by simp [Peer.new]⟩
    case paced => intro sending present; cases present
    case spent => rw [budget]; exact Nat.le_of_eq (Nat.zero_add _)
    case replies => rw [sent, budget]; exact Nat.le_of_eq (Nat.zero_add _)
    case available => rw [sent]; simp
  · have empty : ∀ {slot key}, (peers .initiator).lookup slot = some key → False := by
      intro slot key found
      rw [new] at found
      simp [Peer.new, Peer.lookup] at found
    have front : link.front = 0 := by
      rw [Link.front, sent]
      rfl
    refine ⟨by rw [new]; rfl, fun found => (empty found).elim, by rw [new, front]; rfl, fun found => (empty found).elim, ?_, ?_⟩
    · rw [opened]
      simp
    · rw [sent]
      simp

theorem run {root seed : S.Secret} (ideal : S.Ideal) {first : Link S} {arrivals : List Arrival} (started : Initial root seed first)
    (trace : Trace Step first arrivals link) : Sound False link :=
  trace.invariant (fun _ link => Sound False link) (.initial started) fun sound moved => sound.step ideal moved False.elim

theorem run_spaced {root seed : S.Secret} (ideal : S.Ideal) {first : Link S} {arrivals : List Arrival} (started : Initial root seed first)
    (trace : Trace SpacedStep first arrivals link) : Sound True link :=
  trace.invariant (fun _ link => Sound True link) (.initial started) fun sound moved => sound.step ideal moved.1 fun _ => moved.2

end Sound
end Link
end StogasVerifier.Channel
