import StogasVerifier.Proofs.LinkSound

/-! The first response to a waiting request opens, if arrivals are spaced. -/

namespace StogasVerifier.Channel
open Std Lib

variable {S : Suite}

def ResponseReader.waiting (number : Nat) (sessionId : S.Bytes) : ResponseReader S := ⟨some number, sessionId, none, false⟩

theorem ResponseReader.openRecord_waiting (shared : Shared S) (number now : Nat) (sessionId bytes : S.Bytes) :
    ((waiting number sessionId).openRecord shared bytes now).1 = (shared.readStart sessionId number bytes now).1.map Prod.snd := by
  simp only [waiting, openRecord, Bool.false_eq_true, if_false, start]
  cases shared.readStart sessionId number bytes now with
  | mk result after => cases result <;> rfl

theorem ResponseReader.openRecord_accepts {shared : Shared S} {number now : Nat} {sessionId bytes header : S.Bytes}
    {offer : Peer.Offer S} {records : Records S} {output : Kind × S.Bytes} (framed : startHeader bytes = .ok header)
    (offered : (shared.peer.expire now).offer header number = .ok offer)
    (authentic : Records.authenticateStart offer.key sessionId number .response bytes = .ok (records, output)) :
    ((waiting number sessionId).openRecord shared bytes now).1 = .ok output := by
  have received : shared.peer.receive header number now
      (fun secret => Records.authenticateStart secret sessionId number .response bytes) = (.ok (records, output), offer.after) :=
    Peer.receive_ok.mpr ⟨offer, offered, authentic, rfl⟩
  simp [openRecord_waiting, Shared.readStart, framed, received, Except.map]

namespace Link

variable {link : Link S} {stream : Stream S} {kind : Kind} {content bytes : S.Bytes}

theorem Sound.opens (sound : Sound True link) (ideal : S.Ideal) (validates : S.Validates) (sent : stream ∈ link.sent .responder)
    (starts : stream.Starts kind content bytes) (waiting : stream.number ∈ link.client.unread)
    (spaced : link.Spaced (.response stream.number)) (now : Nat) :
    ((ResponseReader.waiting stream.number link.client.session.id).openRecord link.client.shared bytes now).1 = .ok (kind, content) := by
  obtain ⟨-, exchange, turns, peers, carried, responses⟩ := sound.expireClient now
  obtain ⟨owned, lasting, front, unused, known, held⟩ := responses trivial
  have front : exchange.reached .initiator (peers .initiator).active = link.front := front
  have client : link.client.shared.peer.expire now = peers .initiator := carried.client
  have id : link.client.session.id = link.server.id := carried.id
  obtain ⟨place, found⟩ := List.mem_iff_getElem?.mp sent
  obtain ⟨turn, number, key, position, message, wire, records, authentic⟩ :=
    (carried.flow.outgoing .responder).starts ideal.sealing found starts
  have bounded : exchange.reached .initiator (peers .initiator).active ≤ (link.sent .responder).length :=
    (carried.flow.incoming .initiator).bounded
  have replies := carried.replies
  obtain ⟨offer, offered⟩ : ∃ offer, (peers .initiator).offer key.header stream.number = .ok offer := by
    apply carried.flow.offers .initiator ideal validates position message
    · simp only [maxSkippedKeys, maxSessionStarts, u64Max] at *
      omega
    · intro ahead
      rw [front] at ahead ⊢
      have crowd := spaced place stream place stream found rfl found waiting (Nat.le_refl _)
      rw [Nat.min_eq_left ahead, card_unopened (Nat.le_refl _) ahead] at crowd
      omega
    · intro passed
      obtain ⟨slot, stored, present, here⟩ := held found waiting (front ▸ passed)
      exact ⟨slot, stored, present, here, by simp [Peer.live, lasting present]⟩
  obtain ⟨secret, -⟩ := carried.flow.receive .initiator ideal (List.getElem?_eq_some_iff.mp found).1 position message offered
  rw [← secret, ← id] at authentic
  exact ResponseReader.openRecord_accepts wire (by rw [client]; exact offered) authentic

end Link
end StogasVerifier.Channel
