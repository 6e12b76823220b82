import StogasVerifier.Proofs.ClientRuns
import StogasVerifier.Proofs.LinkStages

/-! Header nonces are request numbers, and the peer leaves their freshness to
its callers. Both kinds of session keep them fresh, whatever they are given. -/

namespace StogasVerifier.Channel
open Std Lib

variable {S : Suite}

abbrev HeaderSeal (S : Suite) := Option S.Secret × S.Bytes

def Peer.headerKey (peer : Peer S) : Option S.Secret := peer.active.send.map fun sending => sending.cipher.key

def ServerSession.responseKey (session : ServerSession S) (number : Nat) (encoded : S.Bytes) (now : Nat) (entropy : Entropy S) :
    Option S.Secret :=
  match startHeader encoded with
  | .error _ => none
  | .ok header => (session.authenticateStart number encoded header now entropy).2.peer.bind Peer.headerKey

inductive ServerSession.Answers : ServerSession S → List (HeaderSeal S) → ServerSession S → Prop where
  | accept {session after : ServerSession S} {number now : Nat} {encoded : S.Bytes} {entropy : Entropy S} {admitted : Admitted S}
      (word : number ≤ u64Max) (done : session.acceptStart number encoded now entropy = (.ok admitted, after)) :
      Answers session [(session.responseKey number encoded now entropy, nonce S number)] after
  | other {session after : ServerSession S} {event : Admission} (quiet : admissions [event] = []) (move : Step session event after) :
      Answers session [] after

/-- One call to a client session or to one of its requests, with the headers
that it sealed. A first response may be any bytes. -/
inductive Client.Step : Client S → List (HeaderSeal S) → Client S → Prop where
  | request {client : Client S} {entropy : Entropy S} {request : ClientRequest S} {shared : Shared S}
      (done : client.session.requestWith client.shared entropy = (.ok request, shared)) :
      Step client [(shared.peer.headerKey, nonce S request.writer.number)] (client.allocated shared request.writer.number)
  | fail {client : Client S} {entropy : Entropy S} {error : Error} {shared : Shared S}
      (done : client.session.requestWith client.shared entropy = (.error error, shared)) :
      Step client [] { client with shared }
  | read {client : Client S} {number : Nat} (waiting : number ∈ client.unread) (encoded : S.Bytes) (now : Nat) :
      Step client [] (client.taken (client.shared.readStart client.session.id number encoded now).2 number)
  | drop {client : Client S} {number : Nat} (owned : number ∈ client.owners) : Step client [] (client.dropped number)
  | expire (client : Client S) (now : Nat) :
      Step client [] { client with shared := (client.session.expire client.shared now).2 }
  | close (client : Client S) : Step client [] { client with session := client.session.close }

theorem nonce_injective {first second : Nat} (firstFits : first ≤ u64Max) (secondFits : second ≤ u64Max)
    (same : nonce S first = nonce S second) : first = second := by
  simp only [u64Max] at firstFits secondFits
  exact toBe_injective _ (by omega) (by omega) (List.append_cancel_left same)

structure SealedOnce (side : Side) (script : Script S) (turns : Nat) (numbers : List Nat) (seals : List (HeaderSeal S)) : Prop where
  nonces : seals.map Prod.snd = numbers.map (nonce S)
  once : numbers.Nodup
  word : ∀ number ∈ numbers, number ≤ u64Max
  keys : ∀ entry ∈ seals, ∃ turn, turn < turns ∧ side.Owns turn ∧ entry.1 = some (script.cipherAt turn).key

namespace SealedOnce

variable {side : Side} {script longer : Script S} {turns later : Nat} {numbers : List Nat} {seals : List (HeaderSeal S)}

theorem nil (side : Side) (script : Script S) : SealedOnce side script 0 [] [] :=
  ⟨rfl, List.nodup_nil, nofun, nofun⟩

theorem nodup (fresh : SealedOnce side script turns numbers seals) : seals.Nodup := by
  apply List.Nodup.of_map Prod.snd
  rw [fresh.nonces]
  apply fresh.once.map_on
  intro first member second other same
  exact nonce_injective (fresh.word first member) (fresh.word second other) same

theorem congr (fresh : SealedOnce side script turns numbers seals) (agrees : Script.Agrees turns script longer)
    (more : turns ≤ later) : SealedOnce side longer later numbers seals := by
  refine ⟨fresh.nonces, fresh.once, fresh.word, fun entry member => ?_⟩
  obtain ⟨turn, below, owned, key⟩ := fresh.keys entry member
  exact ⟨turn, by omega, owned, by rw [key, agrees.cipherAt (by omega)]⟩

theorem snoc (fresh : SealedOnce side script turns numbers seals) {number : Nat} (unused : number ∉ numbers)
    (word : number ≤ u64Max) {active : Active S} {sending} (tracks : Tracks side script turns active)
    (present : active.send = some sending) :
    SealedOnce side script turns (numbers ++ [number]) (seals ++ [(some sending.cipher.key, nonce S number)]) := by
  obtain ⟨positive, owned, cipher, -⟩ := tracks.sends present
  refine ⟨by simp [fresh.nonces], ?_, ?_, ?_⟩
  · rw [← List.concat_eq_append]
    exact fresh.once.concat unused
  · intro other member
    rcases List.mem_append.mp member with earlier | last
    · exact fresh.word other earlier
    · rw [List.mem_singleton.mp last]
      exact word
  · intro entry member
    rcases List.mem_append.mp member with earlier | last
    · exact fresh.keys entry earlier
    · rw [List.mem_singleton.mp last]
      exact ⟨turns - 1, by omega, owned, by rw [cipher]⟩

theorem disjoint (collisionFree : S.CollisionFree) {other : Script S} {otherTurns : Nat} {otherNumbers : List Nat}
    {otherSeals} (fresh : SealedOnce side script turns numbers seals)
    (theirs : SealedOnce side.other other otherTurns otherNumbers otherSeals) : seals.Disjoint otherSeals := by
  intro entry member shared
  obtain ⟨turn, -, owned, key⟩ := fresh.keys entry member
  obtain ⟨second, -, foreign, same⟩ := theirs.keys entry shared
  rw [key] at same
  obtain rfl := script.cipherAt_turn collisionFree other (Option.some.inj same)
  exact (side.owns_other turn).mp foreign owned

end SealedOnce

namespace Peer.Follows

variable {side : Side} {script : Script S} {turns : Nat} {peer : Peer S}

theorem accept (follows : Follows side script turns peer) {bytes : S.Bytes} {request now : Nat} {offer : Offer S}
    (offered : (peer.expire now).offer bytes request = .ok offer) :
    ∃ longer later, Script.Agrees turns script longer ∧ turns ≤ later ∧ Follows side longer later offer.after := by
  have accepted : peer.receive bytes request now (fun _ => .ok ()) = (.ok (), offer.after) :=
    receive_ok.mpr ⟨offer, offered, rfl, rfl⟩
  obtain ⟨longer, later, agrees, more, kept, -⟩ := follows.step (.accept offered accepted)
  exact ⟨longer, later, agrees, more, kept⟩

theorem sendWith (follows : Follows side script turns peer) {request : Nat} {entropy key}
    {active : Active S} (sent : peer.active.sendWith request entropy = .ok (key, active)) :
    ∃ longer later sending, Script.Agrees turns script longer ∧ turns ≤ later ∧
      Follows side longer later { peer with active } ∧ active.send = some sending := by
  obtain ⟨longer, later, agrees, more, kept, -⟩ := follows.step (.send peer request entropy)
  have shape : (peer.send request entropy).2 = { peer with active } := by simp only [Peer.send, sent]
  rw [shape] at kept
  obtain ⟨_, sending, _, _, _, _, _, _, rfl⟩ := Active.sendWith_ok.mp sent
  exact ⟨longer, later, _, agrees, more, kept, rfl⟩

end Peer.Follows

structure Client.Sealed (seals : List (HeaderSeal S)) (client : Client S) : Prop where
  word : client.shared.starts.next ≤ u64Max
  history : ∃ script turns numbers, Peer.Follows .initiator script turns client.shared.peer ∧
    SealedOnce .initiator script turns numbers seals ∧ ∀ number ∈ numbers, number < client.shared.starts.next

namespace Client

theorem Sealed.initial {client : Client S} (initial : Initial client) : Sealed [] client := by
  obtain ⟨root, id, idleSeconds, responder, created, -⟩ := initial
  simp only [ClientSession.new, bind_ok, pure_ok] at created
  obtain ⟨peer, made, same⟩ := created
  have shape : client.shared = ⟨Starts.default, peer⟩ := (Prod.mk.inj same).2.symm
  refine ⟨by rw [shape]; exact Nat.zero_le _, .blank root, 0, [], ?_, .nil _ _, fun _ member => absurd member List.not_mem_nil⟩
  rw [shape]
  exact Peer.Follows.initiator (.blank root) made

private theorem Sealed.quiet {seals} {client after : Client S} (fresh : Sealed seals client)
    (more : client.shared.starts.next ≤ after.shared.starts.next) (word : after.shared.starts.next ≤ u64Max)
    (moved : ∀ script turns, Peer.Follows .initiator script turns client.shared.peer → ∃ longer later,
      Script.Agrees turns script longer ∧ turns ≤ later ∧ Peer.Follows .initiator longer later after.shared.peer) :
    Sealed (seals ++ []) after := by
  obtain ⟨script, turns, numbers, follows, history, below⟩ := fresh.history
  obtain ⟨longer, later, agrees, grown, kept⟩ := moved script turns follows
  rw [List.append_nil]
  exact ⟨word, longer, later, numbers, kept, history.congr agrees grown,
    fun number member => Nat.lt_of_lt_of_le (below number member) more⟩

private theorem stays {script : Script S} {turns : Nat} {peer : Peer S} (follows : Peer.Follows .initiator script turns peer) :
    ∃ longer later, Script.Agrees turns script longer ∧ turns ≤ later ∧ Peer.Follows .initiator longer later peer :=
  ⟨script, turns, .refl _ _, Nat.le_refl _, follows⟩

theorem Sealed.step {seals added : List (HeaderSeal S)} {client after : Client S} (fresh : Sealed seals client)
    (move : Step client added after) : Sealed (seals ++ added) after := by
  have word := fresh.word
  cases move with
  | @request entropy request shared done =>
    obtain ⟨-, number, starts, key, active, allocated, sent, rfl, rfl⟩ := ClientSession.requestWith_ok done
    obtain ⟨room, -, -, rfl, rfl⟩ := Starts.allocate_ok.mp allocated
    obtain ⟨script, turns, numbers, follows, history, below⟩ := fresh.history
    obtain ⟨longer, later, sending, agrees, grown, kept, present⟩ := follows.sendWith sent
    have unused : client.shared.starts.next ∉ numbers := fun member => Nat.lt_irrefl _ (below _ member)
    have sealed := (history.congr agrees grown).snoc unused word kept.tracks present
    simp only [Peer.headerKey, present, Option.map_some]
    refine ⟨Nat.lt_of_le_of_ne word room, longer, later, _, kept, sealed, fun number member => ?_⟩
    rcases List.mem_append.mp member with earlier | last
    · exact Nat.lt_succ_of_lt (below number earlier)
    · rw [List.mem_singleton.mp last]
      exact Nat.lt_succ_self _
  | fail done =>
    obtain rfl | ⟨number, starts, allocated, rfl⟩ := ClientSession.requestWith_error done
    · exact fresh.quiet (Nat.le_refl _) word fun _ _ => stays
    · obtain ⟨room, -, -, rfl, rfl⟩ := Starts.allocate_ok.mp allocated
      refine fresh.quiet ?_ ?_ fun _ _ => stays
      · rw [Starts.release_next]
        exact Nat.le_succ _
      · rw [Starts.release_next]
        exact Nat.lt_of_le_of_ne word room
  | @read number waiting encoded now =>
    have reads := client.shared.readStart_reads client.session.id number encoded now
    generalize client.shared.readStart client.session.id number encoded now = done at reads
    obtain ⟨result, shared⟩ := done
    cases reads with
    | misframed => exact fresh.quiet (Nat.le_refl _) word fun _ _ => stays
    | reject framed failed settled =>
      subst settled
      exact fresh.quiet (Nat.le_refl _) word fun _ _ follows => stays (follows.expire now)
    | accept framed offered authentic settled =>
      subst settled
      exact fresh.quiet (Nat.le_refl _) word fun _ _ follows => follows.accept offered
  | @drop number owned =>
    simp only [Client.dropped, Shared.dropPending]
    split
    · exact fresh.quiet (by simp) (by simpa using word) fun _ _ follows => stays follows.discardDelayed
    · exact fresh.quiet (by simp) (by simpa using word) fun _ _ => stays
  | expire now =>
    unfold ClientSession.expire
    split
    · exact fresh.quiet (Nat.le_refl _) word fun _ _ follows => stays (follows.expire now)
    · exact fresh.quiet (Nat.le_refl _) word fun _ _ => stays
  | close => exact fresh.quiet (Nat.le_refl _) word fun _ _ => stays

end Client

structure ServerSession.Sealed (seals : List (HeaderSeal S)) (session : ServerSession S) : Prop where
  history : ∃ script turns numbers, (∀ peer, session.peer = some peer → Peer.Follows .responder script turns peer) ∧
    SealedOnce .responder script turns numbers seals ∧ Window numbers session

namespace ServerSession

theorem Sealed.new (root : S.Secret) (id : S.Bytes) (initial : KeyPair S) : Sealed [] (ServerSession.new root id initial) := by
  refine ⟨.blank root, 0, [], fun peer created => ?_, .nil _ _, .new root id initial⟩
  cases created
  exact Peer.Follows.responder (.blank root) initial

theorem responseKey_eq {session : ServerSession S} {peer : Peer S} {number now : Nat} {encoded header : S.Bytes} {entropy : Entropy S}
    {offer : Peer.Offer S} {output : Records S × Kind × S.Bytes} {response : SendKey S} {active : Active S}
    (current : session.peer = some peer) (framed : startHeader encoded = .ok header)
    (offered : (peer.expire now).offer header number = .ok offer)
    (authentic : session.authenticate number encoded offer.key = .ok output)
    (answered : offer.after.active.sendWith number entropy = .ok (response, active)) :
    session.responseKey number encoded now entropy = active.send.map fun sending => sending.cipher.key := by
  have received := Peer.receive_ok.mpr ⟨offer, offered, authentic, rfl⟩
  simp only [responseKey, framed, authenticateStart, current, received, Peer.send, answered, markAccepted, clearStale]
  split <;> rfl

theorem Sealed.step {seals added : List (HeaderSeal S)} {session after : ServerSession S} (fresh : Sealed seals session)
    (move : Answers session added after) : Sealed (seals ++ added) after := by
  obtain ⟨script, turns, numbers, follows, history, window⟩ := fresh.history
  cases move with
  | @accept _ number now encoded entropy admitted word done =>
    have accepts := acceptStart_accepts session number encoded now entropy
    rw [done] at accepts
    cases accepts with
    | @admission _ _ _ offer _ _ _ _ active current screened framed budget offered authentic answered settled =>
      subst settled
      rw [responseKey_eq current framed offered authentic answered]
      obtain ⟨middle, before, agrees, more, received⟩ := (follows _ current).accept offered
      obtain ⟨longer, later, sending, again, grown, kept, present⟩ := received.sendWith answered
      have spent : Window numbers (session.spend { offer.after with active }) := window.congr rfl rfl
      obtain ⟨marked, -⟩ := spent.markAccepted screened word
      have unused : number ∉ numbers := by
        have once := marked.once
        rw [← List.concat_eq_append, List.nodup_concat] at once
        exact once.1
      have sealed := ((history.congr agrees more).congr again grown).snoc unused word kept.tracks present
      rw [present]
      refine ⟨longer, later, _, fun peer open_ => ?_, sealed, marked.congr (settleBudget_next _) (settleBudget_accepted _)⟩
      cases (markAccepted_peer _ _).symm.trans (settleBudget_peer open_)
      exact kept
  | other quiet move =>
    rw [List.append_nil]
    cases move with
    | accept => cases quiet
    | @refuse _ number now encoded entropy error word done =>
      have accepts := acceptStart_accepts session number encoded now entropy
      rw [done] at accepts
      cases accepts with
      | refuse => exact fresh
      | reject current _ _ _ _ settled =>
        subst settled
        refine ⟨script, turns, numbers, fun peer open_ => ?_, history,
          window.congr (settleBudget_next _) (settleBudget_accepted _)⟩
        cases settleBudget_peer open_
        exact (follows _ current).expire now
      | unanswered current _ _ _ offered _ _ settled =>
        subst settled
        obtain ⟨longer, later, agrees, more, kept⟩ := (follows _ current).accept offered
        refine ⟨longer, later, numbers, fun peer open_ => ?_, history.congr agrees more,
          window.congr (settleBudget_next _) (settleBudget_accepted _)⟩
        cases settleBudget_peer open_
        exact kept
    | expire now =>
      refine ⟨script, turns, numbers, fun peer open_ => ?_, history, window.congr rfl rfl⟩
      obtain ⟨before, current, rfl⟩ := Option.map_eq_some_iff.mp open_
      exact (follows before current).expire now
    | close => exact ⟨script, turns, numbers, nofun, history, window.congr rfl rfl⟩

end ServerSession

/-- No header key seals two headers under one nonce. Each kind of session keeps
its own request numbers fresh; if distinct KDF inputs give distinct keys, a
client and a server do not share a header key either, whether or not they talk
to each other. -/
theorem header_nonces_fresh {first client : Client S} {sent answered : List (List (HeaderSeal S))} {root : S.Secret}
    {id : S.Bytes} {initial : KeyPair S} {session : ServerSession S} (started : first.Initial)
    (clientRun : Trace Client.Step first sent client)
    (serverRun : Trace ServerSession.Answers (ServerSession.new root id initial) answered session) :
    sent.flatten.Nodup ∧ answered.flatten.Nodup ∧ (S.CollisionFree → (sent.flatten ++ answered.flatten).Nodup) := by
  have mine : Client.Sealed sent.flatten client := by
    refine Trace.invariant (fun log client => Client.Sealed log.flatten client) (.initial started) ?_ clientRun
    intro log before added after fresh move
    simpa using fresh.step move
  have theirs : ServerSession.Sealed answered.flatten session := by
    refine Trace.invariant (fun log session => ServerSession.Sealed log.flatten session) (.new root id initial) ?_ serverRun
    intro log before added after fresh move
    simpa using fresh.step move
  obtain ⟨script, turns, numbers, -, own, -⟩ := mine.history
  obtain ⟨otherScript, otherTurns, otherNumbers, -, other, -⟩ := theirs.history
  refine ⟨own.nodup, other.nodup, fun collisionFree => ?_⟩
  exact List.nodup_append'.mpr ⟨own.nodup, other.nodup, own.disjoint collisionFree other⟩

def sampleClient : Client symbolic :=
  ⟨⟨true, [], 30⟩, ⟨Starts.default, Peer.new (S := symbolic) (.atom 0) none
    (some (KeyPair.fromSeed (S := symbolic) (.atom 1)).publicKeys) true⟩, [], []⟩

theorem sampleClient_initial : sampleClient.Initial :=
  ⟨.atom 0, [], 30, (KeyPair.fromSeed (S := symbolic) (.atom 1)).publicKeys, rfl, rfl, rfl⟩

/-- A client that sends two requests, and a server that answers two. -/
theorem header_nonces_fresh_sample : ∃ (sent answered : List (List (HeaderSeal symbolic))) (client : Client symbolic)
    (session : ServerSession symbolic), Trace Client.Step sampleClient sent client ∧
    Trace ServerSession.Answers (ServerSession.new (S := symbolic) (.atom 0) [] (KeyPair.fromSeed (S := symbolic) (.atom 1)))
      answered session ∧ sent.flatten.length = 2 ∧ answered.flatten.length = 2 ∧ (sent.flatten ++ answered.flatten).Nodup := by
  obtain ⟨request, shared, done, later, final, again⟩ : ∃ request shared, sampleClient.session.requestWith sampleClient.shared
      ⟨.ok (.atom 2), .ok (.atom 3)⟩ = (.ok request, shared) ∧ ∃ later final, sampleClient.session.requestWith shared
      ⟨.ok (.atom 4), .ok (.atom 5)⟩ = (.ok later, final) := ⟨_, _, rfl, _, _, rfl⟩
  have clientRun := (Trace.single (Client.Step.request done)).snoc (.request again)
  obtain ⟨asked, ahead, behind, -, -, -, fresh, -, jump, back⟩ := Link.overtaken
  rw [fresh] at jump
  cases jump with
  | accept word first =>
    cases back with
    | accept word' second =>
      have serverRun := (Trace.single (ServerSession.Answers.accept word first)).snoc (.accept word' second)
      exact ⟨_, _, _, _, clientRun, serverRun, rfl, rfl,
        (header_nonces_fresh sampleClient_initial clientRun serverRun).2.2 Symbolic.collisionFree⟩

end StogasVerifier.Channel
