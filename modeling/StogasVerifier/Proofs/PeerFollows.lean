import StogasVerifier.Proofs.PeerScript

/-! A whole peer along a script: its calls move it by at most one turn, and
every key it sends with, hands out or stores is the script's key of its turn and
number. -/

namespace StogasVerifier.Channel
open Std Lib

variable {S : Suite}

def SendsAs (script : Script S) (turns : Nat) (active : Active S) (entropy : Entropy S) : Prop :=
  active.send = none → ∀ remote seed randomness dh, active.remote = some remote → entropy.seed = .ok seed →
    entropy.randomness = .ok randomness → (KeyPair.fromSeed seed).agree remote = .ok dh →
    script.dh turns = dh ∧ script.kem turns = (remote.encapsulate randomness).2

def EntersAs (script : Script S) (turns : Nat) (active : Active S) (header : Header S) : Prop :=
  (active.receive.isSome → active.send.isSome) →
    ∀ localKeys dh, active.localKeys = some localKeys → localKeys.agree header.publicKeys = .ok dh →
    script.dh turns = dh ∧ script.kem turns = localKeys.decapsulate header.ciphertext ∧ script.digest turns = header.turn

theorem exists_sendsAs {active last : Active S} {request : Nat} {entropy key}
    (sent : active.sendWith request entropy = .ok (key, last)) (script : Script S) (turns : Nat) :
    ∃ longer, Script.Agrees turns script longer ∧ SendsAs longer turns active entropy := by
  cases silent : active.send with
  | some current => exact ⟨script, .refl _ _, fun absent => by rw [silent] at absent; cases absent⟩
  | none =>
    obtain ⟨turn, sending, bytes, opened, -⟩ := Active.sendWith_ok.mp sent
    simp only [silent, Option.isNone_none, if_true] at opened
    obtain ⟨remote, seed, randomness, dh, known, seeded, drawn, agreed, -⟩ := Active.startTurn_ok.mp opened
    refine ⟨script.record turns dh (remote.encapsulate randomness).2 (script.digest turns), script.agrees_record .., ?_⟩
    intro _ other otherSeed otherRandomness otherDh known' seeded' drawn' agreed'
    cases known.symm.trans known'
    cases seeded.symm.trans seeded'
    cases drawn.symm.trans drawn'
    cases agreed.symm.trans agreed'
    simp [Script.record]

theorem exists_entersAs (script : Script S) (turns : Nat) (active : Active S) (header : Header S) :
    ∃ longer, Script.Agrees turns script longer ∧ EntersAs longer turns active header := by
  by_cases possible : ∃ localKeys dh, active.localKeys = some localKeys ∧ localKeys.agree header.publicKeys = .ok dh
  · obtain ⟨localKeys, dh, held, agreed⟩ := possible
    refine ⟨script.record turns dh (localKeys.decapsulate header.ciphertext) header.turn, script.agrees_record .., ?_⟩
    intro _ other otherDh held' agreed'
    cases held.symm.trans held'
    cases agreed.symm.trans agreed'
    simp [Script.record]
  · exact ⟨script, .refl _ _, fun _ localKeys dh held agreed => absurd ⟨localKeys, dh, held, agreed⟩ possible⟩

namespace Tracks

variable {side : Side} {script : Script S} {turns : Nat} {active last : Active S}

theorem sendWith (tracks : Tracks side script turns active) {request : Nat} {entropy key}
    (sent : active.sendWith request entropy = .ok (key, last)) (entries : SendsAs script turns active entropy) :
    ∃ turn sending number, (turn + 1 = if active.send.isNone then turns + 1 else turns) ∧
      last.send = some sending ∧ sending.chain.count = number + 1 ∧ sending.header.number = number ∧
      number < maxChainMessages ∧ side.Owns turn ∧ key.secret = script.keyAt turn number ∧
      (script.cipherAt turn).sealHeader sending.header request = .ok key.header ∧
      Tracks side script (turn + 1) last := by
  obtain ⟨turn, sending, bytes, opened, present, room, wire, rfl, rfl⟩ := Active.sendWith_ok.mp sent
  have moved : Tracks side script (if active.send.isNone then turns + 1 else turns) turn := by
    cases silent : active.send with
    | none =>
      simp only [silent, Option.isNone_none, if_true] at opened ⊢
      obtain ⟨remote, seed, randomness, dh, known, seeded, drawn, agreed, rfl⟩ := Active.startTurn_ok.mp opened
      obtain ⟨rfl, same⟩ := entries silent remote seed randomness dh known seeded drawn agreed
      rw [← same]
      exact tracks.started silent (by rw [known]; rfl) _ _
    | some current =>
      simp only [silent, Option.isNone_some, Bool.false_eq_true, if_false] at opened ⊢
      subst opened
      exact tracks
  obtain ⟨positive, owned, cipher, secret⟩ := moved.sends present
  refine ⟨(if active.send.isNone then turns + 1 else turns) - 1, _, sending.chain.count, by omega, rfl, rfl, rfl, room,
    owned, ?_, by rw [← cipher]; exact wire, ?_⟩
  · simp only [secret, Script.keyAt, messageKey_add, Nat.add_zero]
  · rw [Nat.sub_add_cancel positive]
    exact moved.sealed present

theorem receiveKey (tracks : Tracks side script turns active) {header : Header S} {next : Bool} {key : S.Secret}
    {pending} (derived : active.receiveKey header next [] = .ok (key, last, pending))
    (entries : next = true → EntersAs script turns active header) :
    Tracks side script (if next then turns + 1 else turns) last ∧
    (∃ receive, last.receive = some receive ∧ key = script.keyAt (side.receives receive.epoch) header.number ∧
      if next then side.receives receive.epoch = turns ∧ ¬ side.Owns turns
      else ∃ before, active.receive = some before ∧ before.epoch = receive.epoch) ∧
    ∀ skipped ∈ pending, skipped.secret = script.keyAt (side.receives skipped.id.1) skipped.id.2 ∧
      skipped.header = script.headerAt (side.receives skipped.id.1) := by
  have passed : ∀ {turns : Nat} {active : Active S} {receive : Receiving S} {count : Nat}, Tracks side script turns active →
      active.receive = some receive → ∀ skipped ∈ receive.keys count,
        skipped.secret = script.keyAt (side.receives skipped.id.1) skipped.id.2 ∧
          skipped.header = script.headerAt (side.receives skipped.id.1) := by
    intro turns active receive count tracks received skipped member
    obtain ⟨offset, -, rfl⟩ := Receiving.mem_keys.mp member
    exact ⟨tracks.key received offset, (tracks.receives received).2.2.1⟩
  cases next with
  | false =>
    obtain ⟨receive, count, received, same, -, -, rfl, rfl, rfl⟩ := Active.receiveKey_current.mp derived
    refine ⟨tracks.follow received _, ⟨_, rfl, ?_, receive, received, rfl⟩,
      fun skipped member => passed tracks received skipped (by simpa using member)⟩
    rw [tracks.key received, same]
    rfl
  | true =>
    obtain ⟨middle, tail, entered, rest⟩ := Active.receiveKey_next.mp derived
    obtain ⟨localKeys, dh, epoch, alternates, -, held, agreed, rfl, shape⟩ := Active.nextTurn_ok.mp entered
    obtain ⟨receive, count, received, same, -, -, rfl, rfl, rfl⟩ := Active.receiveKey_current.mp rest
    obtain ⟨rfl, mixed, digest⟩ := entries rfl alternates localKeys dh held agreed
    have counted : epoch = active.receive.elim 0 fun receive => receive.epoch + 1 := by
      obtain ⟨absent, -, rfl, -⟩ | ⟨previous, gap, found, -, -, -, rfl, -⟩ := shape
      · rw [absent]; rfl
      · rw [found]; rfl
    obtain ⟨foreign, reached⟩ := tracks.enters (by rw [held]; rfl) alternates
    have inTurn := tracks.turned (by rw [held]; rfl) alternates digest
    rw [mixed, ← counted] at inTurn
    refine ⟨inTurn.follow received _, ⟨_, rfl, ?_, ?_, foreign⟩, ?_⟩
    · rw [inTurn.key received, same]
      rfl
    · cases received
      rw [reached, ← counted]
      rfl
    · intro skipped member
      rcases List.mem_append.mp member with member | member
      · obtain ⟨-, -, -, rfl⟩ | ⟨previous, gap, found, -, -, -, -, -, rfl⟩ := shape
        · cases member
        · exact passed tracks found skipped member
      · exact passed inTurn received skipped member

end Tracks

namespace Peer

/-- A peer after the first `turns` turns of a script. -/
structure Follows (side : Side) (script : Script S) (turns : Nat) (peer : Peer S) : Prop where
  store : KeyStore peer
  tracks : Tracks side script turns peer.active
  secrets : ∀ {id : KeyId} {key : Skipped S}, peer.lookup id = some key →
    key.secret = script.keyAt (side.receives id.1) id.2
  groups : ∀ {epoch : Nat} {group : Group S}, peer.skipped[epoch]? = some group →
    group.header = script.headerAt (side.receives epoch)

section Groups

variable {peer : Peer S}

theorem group_remove {id : KeyId} {order epoch : Nat} {group : Group S}
    (found : (peer.remove id order).skipped[epoch]? = some group) :
    ∃ old, peer.skipped[epoch]? = some old ∧ old.header = group.header := by
  simp only [remove] at found
  cases grouped : peer.skipped[id.1]? with
  | none =>
    simp only [grouped] at found
    exact ⟨group, found, rfl⟩
  | some old =>
    simp only [grouped] at found
    split at found
    · rw [lookup_erase] at found
      split at found
      · cases found
      · exact ⟨group, found, rfl⟩
    · rw [lookup_insert] at found
      split at found
      next same =>
        cases found
        exact ⟨old, same ▸ grouped, rfl⟩
      · exact ⟨group, found, rfl⟩

theorem Drops.group {last : Peer S} (drops : Drops peer last) {epoch : Nat} {group : Group S}
    (found : last.skipped[epoch]? = some group) : ∃ old, peer.skipped[epoch]? = some old ∧ old.header = group.header := by
  induction drops with
  | refl peer => exact ⟨group, found, rfl⟩
  | step _ _ ih =>
    obtain ⟨middle, present, same⟩ := ih found
    obtain ⟨old, earlier, kept⟩ := group_remove present
    exact ⟨old, earlier, kept.trans same⟩

theorem group_storeAll {pending : List (PendingKey S)} {epoch : Nat} {group : Group S}
    (found : (pending.foldl Peer.store peer).skipped[epoch]? = some group) :
    (∃ old, peer.skipped[epoch]? = some old ∧ old.header = group.header) ∨
      ∃ skipped ∈ pending, skipped.id.1 = epoch ∧ skipped.header = group.header := by
  induction pending generalizing peer with
  | nil => exact .inl ⟨group, found, rfl⟩
  | cons key rest ih =>
    obtain ⟨middle, present, same⟩ | ⟨skipped, member, rest⟩ := ih found
    · simp only [Peer.store, lookup_insert] at present
      split at present
      next here =>
        cases present
        cases grouped : peer.skipped[key.id.1]? with
        | none => exact .inr ⟨key, List.mem_cons_self, here, by simpa [grouped] using same⟩
        | some old => exact .inl ⟨old, here ▸ grouped, by simpa [grouped] using same⟩
      · exact .inl ⟨middle, present, same⟩
    · exact .inr ⟨skipped, List.mem_cons_of_mem _ member, rest⟩

theorem group_committed {active : Active S} {pending : List (PendingKey S)} (fits : pending.length ≤ maxSkippedKeys)
    {epoch : Nat} {group : Group S} (found : (peer.committed active pending).skipped[epoch]? = some group) :
    (∃ old, peer.skipped[epoch]? = some old ∧ old.header = group.header) ∨
      ∃ skipped ∈ pending, skipped.id.1 = epoch ∧ skipped.header = group.header := by
  obtain ⟨last, drops, -, -, shape⟩ := committed_eq peer active fits
  rw [shape] at found
  obtain ⟨middle, present, same⟩ | added := group_storeAll found
  · obtain ⟨old, earlier, kept⟩ := Drops.group drops present
    exact .inl ⟨old, earlier, kept.trans same⟩
  · exact .inr added

end Groups

namespace Follows

variable {side : Side} {script other : Script S} {turns : Nat} {peer : Peer S}

theorem stored_turn (follows : Follows side script turns peer) {id : KeyId} {key}
    (found : peer.lookup id = some key) : side.receives id.1 < turns := by
  obtain ⟨receive, received, order⟩ := follows.store.passed found
  have current := (follows.tracks.receives received).1
  simp only [Precedes, Side.receives] at order current ⊢
  omega

theorem congr (follows : Follows side script turns peer) (agrees : Script.Agrees turns script other) :
    Follows side other turns peer := by
  refine ⟨follows.store, follows.tracks.congr agrees, ?_, ?_⟩
  · intro id key found
    rw [follows.secrets found, agrees.keyAt (follows.stored_turn found)]
  · intro epoch group found
    obtain ⟨number, key, present⟩ := follows.store.inhabited found
    have held : peer.lookup (epoch, number) = some key := by simp [lookup, found, present]
    rw [follows.groups found, agrees.headerAt (follows.stored_turn held)]

/-- Dropping keys changes nothing else. -/
theorem drops (follows : Follows side script turns peer) {last : Peer S} (drops : Drops peer last) :
    Follows side script turns last := by
  obtain ⟨kept, subset, -⟩ := drops.keeps_newest follows.store
  refine ⟨kept, by rw [drops.frame.1]; exact follows.tracks, fun found => follows.secrets (subset found), ?_⟩
  intro epoch group found
  obtain ⟨old, present, same⟩ := drops.group found
  rw [← same, follows.groups present]

theorem expire (follows : Follows side script turns peer) (now : Nat) : Follows side script turns (peer.expire now) := by
  have clocked : Follows side script turns { peer with lastNow := max peer.lastNow now } :=
    ⟨follows.store.withClock now, follows.tracks, follows.secrets, follows.groups⟩
  exact clocked.drops (expire_drops peer now)

theorem discardDelayed (follows : Follows side script turns peer) : Follows side script turns peer.discardDelayed :=
  ⟨.discard, follows.tracks, fun found => by simp [Peer.discardDelayed, lookup] at found,
    fun found => by simp [Peer.discardDelayed] at found⟩

theorem remove (follows : Follows side script turns peer) {id : KeyId} {key} (found : peer.lookup id = some key) :
    Follows side script turns (peer.remove id key.order) := by
  refine ⟨follows.store.remove (follows.store.filed found), follows.tracks, ?_, ?_⟩
  · intro other kept present
    rw [lookup_remove] at present
    split at present
    · cases present
    · exact follows.secrets present
  · intro epoch group present
    obtain ⟨old, earlier, same⟩ := group_remove present
    rw [← same, follows.groups earlier]

theorem withActive (follows : Follows side script turns peer) {active : Active S} {later : Nat}
    (tracks : Tracks side script later active) (same : active.receive = peer.active.receive) :
    Follows side script later { peer with active } := by
  refine ⟨follows.store.withActive active ?_, tracks, follows.secrets, follows.groups⟩
  intro id key found
  obtain ⟨receive, received, order⟩ := follows.store.passed found
  exact ⟨receive, same.trans received, order⟩

/-- The offer of a peer on a script: the script's key of its position. The
position is in the turn of the header key that opened the header. -/
theorem offered (follows : Follows side script turns peer) {bytes : S.Bytes} {request : Nat} {offer : Offer S}
    (offered : peer.offer bytes request = .ok offer)
    (entries : ∀ header, peer.openHeader bytes request = .ok (.next header) → EntersAs script turns peer.active header) :
    ∃ later header, offer.key = script.keyAt (side.receives offer.id.1) header.number ∧ offer.id.2 = header.number ∧
      side.receives offer.id.1 < later ∧ Follows side script later offer.after ∧
      (later = turns ∧ (∃ receive, offer.after.active = { peer.active with receive }) ∧
          (peer.openHeader bytes request = .ok (.skipped offer.id.1 header) ∨
            peer.openHeader bytes request = .ok (.current header) ∧
              ∃ receive, peer.active.receive = some receive ∧ receive.epoch = offer.id.1) ∨
        later = turns + 1 ∧ (∃ dh kem epoch receive,
            offer.after.active = { peer.active.turned header dh kem epoch with receive }) ∧
          peer.openHeader bytes request = .ok (.next header) ∧ side.receives offer.id.1 = turns ∧ ¬ side.Owns turns) := by
  cases offer_cases offered with
  | @stored header key opened number found secret quiet after =>
    obtain ⟨found, -⟩ := stored_some.mp found
    rw [after, secret]
    exact ⟨turns, header, by rw [follows.secrets found, number], number, follows.stored_turn found, follows.remove found,
      .inl ⟨rfl, ⟨peer.active.receive, rfl⟩, opened⟩⟩
  | @chain header next active pending opened counted derived room number between stored after =>
    have fits := receiveKey_fits derived
    have entering : next = true → EntersAs script turns peer.active header := by
      intro starts
      apply entries header
      rw [opened, starts]
      rfl
    obtain ⟨tracks, ⟨receive, received, key, reached⟩, skipped⟩ := follows.tracks.receiveKey derived entering
    obtain ⟨_, position, epoch, -⟩ := between.position
    cases received.symm.trans position
    refine ⟨if next then turns + 1 else turns, header, by rw [key, epoch], number,
      by rw [epoch]; exact (tracks.receives received).1, ?_, ?_⟩
    · rw [after]
      refine ⟨follows.store.committed between fits, by rw [(committed_frame _ _ fits).1]; exact tracks, ?_, ?_⟩
      · intro id other found
        obtain old | ⟨pendingKey, member, rfl, secret, -⟩ := lookup_committed between follows.store fits found
        · exact follows.secrets old
        · rw [secret, (skipped pendingKey member).1]
      · intro epoch group found
        obtain ⟨old, present, same⟩ | ⟨pendingKey, member, rfl, same⟩ := group_committed fits found
        · rw [← same, follows.groups present]
        · rw [← same, (skipped pendingKey member).2]
    · cases next with
      | false =>
        obtain ⟨before, present, same⟩ := reached
        obtain ⟨_, count, -, -, -, -, -, rfl, -⟩ := Active.receiveKey_current.mp derived
        exact .inl ⟨rfl, ⟨_, by rw [after, (committed_frame _ _ fits).1]⟩, .inr ⟨opened, before, present, same.trans epoch.symm⟩⟩
      | true =>
        obtain ⟨middle, tail, entered, rest⟩ := Active.receiveKey_next.mp derived
        obtain ⟨localKeys, dh, _, -, -, -, -, rfl, -⟩ := Active.nextTurn_ok.mp entered
        obtain ⟨_, count, -, -, -, -, -, rfl, -⟩ := Active.receiveKey_current.mp rest
        exact .inr ⟨rfl, ⟨_, _, _, _, by rw [after, (committed_frame _ _ fits).1]⟩, opened, by rw [epoch]; exact reached.1,
          reached.2⟩

private theorem new {root : S.Secret} {localKeys remote} {client : Bool}
    (tracks : Tracks side script turns (Peer.new root localKeys remote client).active) :
    Follows side script turns (Peer.new root localKeys remote client) := by
  refine ⟨.new _ _ _ _, tracks, ?_, ?_⟩
  · intro id key found
    simp [Peer.new, lookup] at found
  · intro epoch group found
    simp [Peer.new] at found

theorem initiator (script : Script S) {remote} {peer : Peer S}
    (created : Peer.initiator script.root remote = .ok peer) : Follows .initiator script 0 peer := by
  simp only [Peer.initiator, bind_ok, pure_ok] at created
  obtain ⟨-, -, rfl⟩ := created
  exact new (Tracks.initiator script remote)

theorem responder (script : Script S) (keys : KeyPair S) : Follows .responder script 0 (Peer.responder script.root keys) :=
  new (Tracks.responder script keys)

theorem initial (first : Peer S) (created : Initial first) :
    ∃ side script, Follows side script 0 first := by
  cases created with
  | @initiator root remote peer created => exact ⟨.initiator, .blank root, Follows.initiator (.blank root) created⟩
  | responder root keys => exact ⟨.responder, .blank root, Follows.responder (.blank root) keys⟩

end Follows

def Explains (side : Side) (script : Script S) (turns : Nat) : Event S → Prop
  | .accepted _ id key _ => side.receives id.1 < turns ∧ key = script.keyAt (side.receives id.1) id.2
  | .sent request (.ok key) => ∃ turn header, turn < turns ∧ side.Owns turn ∧ key.secret = script.keyAt turn header.number ∧
      (script.cipherAt turn).sealHeader header request = .ok key.header
  | _ => True

theorem Explains.mono {side : Side} {script longer : Script S} {turns later : Nat} {event : Event S}
    (explains : Explains side script turns event) (agrees : Script.Agrees turns script longer) (more : turns ≤ later) :
    Explains side longer later event := by
  match event, explains with
  | .accepted .., ⟨below, key⟩ => exact ⟨by omega, by rw [key, agrees.keyAt below]⟩
  | .sent _ (.ok _), ⟨turn, header, below, owned, secret, wire⟩ =>
    exact ⟨turn, header, by omega, owned, by rw [secret, agrees.keyAt below],
      by rw [← agrees.cipherAt (show turn < turns + 2 by omega)]; exact wire⟩
  | .sent _ (.error _), _ | .refused _, _ | .expired _, _ | .discarded, _ => trivial

theorem Follows.step {side : Side} {script : Script S} {turns : Nat} {peer next : Peer S} {event : Event S}
    (follows : Follows side script turns peer) (move : Step peer event next) :
    ∃ longer later, Script.Agrees turns script longer ∧ turns ≤ later ∧ Follows side longer later next ∧
      Explains side longer later event := by
  cases move with
  | send _ request entropy =>
    obtain ⟨active, shape, same⟩ := send_frame peer request entropy
    unfold Peer.send at shape ⊢
    cases sent : peer.active.sendWith request entropy with
    | error error => exact ⟨script, turns, .refl _ _, Nat.le_refl _, follows, trivial⟩
    | ok result =>
      obtain ⟨key, last⟩ := result
      simp only [sent] at shape
      obtain ⟨longer, agrees, entries⟩ := exists_sendsAs sent script turns
      obtain ⟨turn, sending, number, moved, -, -, labelled, -, owned, secret, wire, tracks⟩ :=
        (follows.tracks.congr agrees).sendWith sent entries
      refine ⟨longer, turn + 1, agrees, by rw [moved]; split <;> omega, ?_,
        turn, sending.header, Nat.lt_succ_self _, owned, by rw [secret, labelled], wire⟩
      have kept : last.receive = peer.active.receive := by
        rw [← same]
        exact congrArg (fun peer => peer.active.receive) shape
      exact (follows.congr agrees).withActive tracks kept
  | refuse failed =>
    rw [receive_error failed]
    exact ⟨script, turns, .refl _ _, Nat.le_refl _, follows.expire _, trivial⟩
  | @accept _ _ _ bytes request now _ _ _ offered accepted =>
    obtain ⟨offer, again, -, rfl⟩ := receive_ok.mp accepted
    cases offered.symm.trans again
    have prepared : ∃ longer, Script.Agrees turns script longer ∧ ∀ header,
        (peer.expire now).openHeader bytes request = .ok (.next header) → EntersAs longer turns (peer.expire now).active header := by
      by_cases starts : ∃ header, (peer.expire now).openHeader bytes request = .ok (.next header)
      · obtain ⟨header, opened⟩ := starts
        obtain ⟨longer, agrees, entries⟩ := exists_entersAs script turns (peer.expire now).active header
        exact ⟨longer, agrees, fun other found => by cases opened.symm.trans found; exact entries⟩
      · exact ⟨script, .refl _ _, fun header opened => absurd ⟨header, opened⟩ starts⟩
    obtain ⟨longer, agrees, entries⟩ := prepared
    obtain ⟨later, header, key, number, below, kept, route⟩ := ((follows.expire now).congr agrees).offered offered entries
    refine ⟨longer, later, agrees, ?_, kept, below, by rw [key, number]⟩
    obtain ⟨same, -⟩ | ⟨same, -⟩ := route <;> omega
  | expire _ now => exact ⟨script, turns, .refl _ _, Nat.le_refl _, follows.expire now, trivial⟩
  | discard => exact ⟨script, turns, .refl _ _, Nat.le_refl _, follows.discardDelayed, trivial⟩

theorem Run.follows {first last : Peer S} {events} (initial : Initial first) (run : Run first events last) :
    ∃ side script turns, Follows side script turns last ∧ ∀ event ∈ events, Explains side script turns event := by
  obtain ⟨side, script, start⟩ := Follows.initial first initial
  refine ⟨side, Trace.invariant (fun events last => ∃ script turns, Follows side script turns last ∧
    ∀ event ∈ events, Explains side script turns event) ⟨script, 0, start, nofun⟩ ?_ run⟩
  rintro events before event after ⟨script, turns, follows, explained⟩ move
  obtain ⟨longer, later, agrees, more, kept, explains⟩ := follows.step move
  refine ⟨longer, later, kept, fun call member => ?_⟩
  rcases List.mem_append.mp member with earlier | last
  · exact (explained call earlier).mono agrees more
  · rwa [List.mem_singleton.mp last]

end Peer
end StogasVerifier.Channel
