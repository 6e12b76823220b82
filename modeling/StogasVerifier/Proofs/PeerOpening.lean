import StogasVerifier.Proofs.PeerFollows

/-! Which header key opens a genuine header. Header keys differ from turn to
turn, so a header opens in its own turn or not at all. -/

namespace StogasVerifier.Channel
open Std Lib

variable {S : Suite}

structure Genuine (script : Script S) (turn request : Nat) (header : Header S) (bytes : S.Bytes) : Prop where
  sent : (script.cipherAt turn).sealHeader header request = .ok bytes
  previous : header.previous ≤ u64Max
  number : header.number ≤ u64Max

namespace Genuine

variable {script : Script S} {turn request : Nat} {header : Header S} {bytes : S.Bytes}

theorem opens (genuine : Genuine script turn request header bytes) (sealing : S.Sealing) :
    (script.cipherAt turn).openHeader bytes request = .ok header :=
  HeaderCipher.openHeader_sealHeader sealing genuine.previous genuine.number genuine.sent

theorem unique (genuine : Genuine script turn request header bytes) (ideal : S.Ideal) {other : Nat} {opened : Header S}
    (found : (script.cipherAt other).openHeader bytes request = .ok opened) : other = turn ∧ opened = header := by
  have same := HeaderCipher.openHeader_key ideal.committing genuine.sent found
  obtain rfl := script.cipherAt_turn ideal.collisionFree script (congrArg HeaderCipher.key same)
  rw [genuine.opens ideal.sealing] at found
  exact ⟨rfl, (Except.ok.inj found).symm⟩

theorem refuses (genuine : Genuine script turn request header bytes) (ideal : S.Ideal) {other : Nat} (different : other ≠ turn) :
    ∃ error, (script.cipherAt other).openHeader bytes request = .error error := by
  cases found : (script.cipherAt other).openHeader bytes request with
  | error error => exact ⟨error, rfl⟩
  | ok opened => exact absurd (genuine.unique ideal found).1 different

end Genuine

namespace Peer.Follows

variable {side : Side} {script : Script S} {turns turn request : Nat} {peer : Peer S} {header : Header S} {bytes : S.Bytes}

private theorem nextOwn_ge (side : Side) (turns : Nat) : turns ≤ side.nextOwn turns := by
  unfold Side.nextOwn
  omega

private theorem openSkipped_genuine (genuine : Genuine script turn request header bytes) (ideal : S.Ideal)
    {current : Option Nat} {groups : List (Nat × Group S)}
    (headers : ∀ entry ∈ groups, entry.2.header = script.headerAt (side.receives entry.1)) {opened : Opened S}
    (found : openSkipped current bytes request groups = .ok opened) :
    ∃ epoch, opened = .skipped epoch header ∧ side.receives epoch = turn := by
  induction groups with
  | nil => cases found
  | cons entry rest ih =>
    obtain ⟨epoch, group⟩ := entry
    have later := ih fun entry member => headers entry (List.mem_cons_of_mem _ member)
    have known : group.header = script.headerAt (side.receives epoch) := headers _ List.mem_cons_self
    simp only [openSkipped, known, Script.headerAt] at found
    split at found
    · exact later found
    · split at found
      · exact later found
      next unsealed =>
        obtain ⟨same, rfl⟩ := genuine.unique ideal unsealed
        split at found
        · cases found
        · cases found
          exact ⟨epoch, rfl, same⟩

private theorem openSkipped_found (genuine : Genuine script turn request header bytes) (ideal : S.Ideal)
    {current : Option Nat} {groups : List (Nat × Group S)}
    (headers : ∀ entry ∈ groups, entry.2.header = script.headerAt (side.receives entry.1)) {epoch : Nat} {group : Group S}
    (member : (epoch, group) ∈ groups) (older : current ≠ some epoch) (same : side.receives epoch = turn)
    (digest : header.turn = script.digest turn) :
    openSkipped current bytes request groups = .ok (.skipped epoch header) := by
  induction groups with
  | nil => cases member
  | cons entry rest ih =>
    obtain ⟨first, candidate⟩ := entry
    have known : candidate.header = script.headerAt (side.receives first) := headers _ List.mem_cons_self
    simp only [openSkipped, known, Script.headerAt]
    by_cases here : first = epoch
    · subst here
      simp only [older, if_false, same, genuine.opens ideal.sealing, digest, ne_eq, not_true]
    · have later := ih (fun entry inRest => headers entry (List.mem_cons_of_mem _ inRest)) (by
        rcases List.mem_cons.mp member with same | inRest
        · exact absurd (congrArg Prod.fst same).symm here
        · exact inRest)
      have different : side.receives first ≠ turn := fun equal => here (Side.receives_injective (equal.trans same.symm))
      obtain ⟨error, refused⟩ := genuine.refuses ideal different
      simp only [refused, later, ite_self]

theorem opened (follows : Follows side script turns peer) (genuine : Genuine script turn request header bytes)
    (ideal : S.Ideal) {opened : Opened S} (found : peer.openHeader bytes request = .ok opened) :
    (opened = .current header ∧ ∃ receive, peer.active.receive = some receive ∧ side.receives receive.epoch = turn) ∨
      (opened = .next header ∧ turn = side.other.nextOwn turns) ∨
      ∃ epoch, opened = .skipped epoch header ∧ side.receives epoch = turn := by
  have later : peer.openLater bytes request = .ok opened →
      (opened = .next header ∧ turn = side.other.nextOwn turns) ∨
        ∃ epoch, opened = .skipped epoch header ∧ side.receives epoch = turn := by
    intro found
    rw [openLater, follows.tracks.nextReceive] at found
    split at found
    next unsealed =>
      obtain ⟨same, rfl⟩ := genuine.unique ideal unsealed
      cases found
      exact .inl ⟨rfl, same.symm⟩
    · apply Or.inr
      apply openSkipped_genuine genuine ideal _ found
      intro entry member
      exact follows.groups (TreeMap.mem_toList_iff_getElem?_eq_some.mp member)
  rw [Peer.openHeader] at found
  split at found
  · cases found
  · split at found
    · exact .inr (later found)
    next receive received =>
      have known := (follows.tracks.receives received).2.2.1
      simp only [known, Script.headerAt] at found
      split at found
      next unsealed =>
        obtain ⟨same, rfl⟩ := genuine.unique ideal unsealed
        split at found
        · cases found
        · cases found
          exact .inl ⟨rfl, receive, received, same⟩
      · exact .inr (later found)

section Forward

variable (follows : Follows side script turns peer) (genuine : Genuine script turn request header bytes) (ideal : S.Ideal)
include follows genuine ideal

private theorem opens_later (different : ∀ receive, peer.active.receive = some receive → side.receives receive.epoch ≠ turn) :
    peer.openHeader bytes request = peer.openLater bytes request := by
  have length := HeaderCipher.sealHeader_length ideal.sealing genuine.sent
  rw [Peer.openHeader, if_neg (not_not_intro length)]
  cases received : peer.active.receive with
  | none => rfl
  | some receive =>
    have known := (follows.tracks.receives received).2.2.1
    obtain ⟨error, refused⟩ := genuine.refuses ideal (different receive received)
    simp only [known, Script.headerAt, refused]

theorem opens_next (next : turn = side.other.nextOwn turns) : peer.openHeader bytes request = .ok (.next header) := by
  have ahead := nextOwn_ge side.other turns
  rw [follows.opens_later genuine ideal, openLater, follows.tracks.nextReceive, ← next, genuine.opens ideal.sealing]
  intro receive received
  have before := (follows.tracks.receives received).1
  omega

theorem opens_current {receive : Receiving S} (received : peer.active.receive = some receive)
    (same : side.receives receive.epoch = turn) (digest : header.turn = script.digest turn) :
    peer.openHeader bytes request = .ok (.current header) := by
  have length := HeaderCipher.sealHeader_length ideal.sealing genuine.sent
  have known := (follows.tracks.receives received).2.2.1
  rw [Peer.openHeader, if_neg (not_not_intro length)]
  simp only [received, known, Script.headerAt, same, genuine.opens ideal.sealing, digest, ne_eq, not_true, if_false]

theorem opens_skipped {epoch : Nat} {group : Group S} (grouped : peer.skipped[epoch]? = some group)
    (same : side.receives epoch = turn) (old : turn < turns) (digest : header.turn = script.digest turn)
    (older : ∀ receive, peer.active.receive = some receive → receive.epoch ≠ epoch) :
    peer.openHeader bytes request = .ok (.skipped epoch header) := by
  have ahead := nextOwn_ge side.other turns
  obtain ⟨error, refused⟩ := genuine.refuses ideal (show side.other.nextOwn turns ≠ turn by omega)
  rw [follows.opens_later genuine ideal, openLater, follows.tracks.nextReceive, refused]
  · apply openSkipped_found genuine ideal
    · intro entry member
      exact follows.groups (TreeMap.mem_toList_iff_getElem?_eq_some.mp member)
    · exact TreeMap.mem_toList_iff_getElem?_eq_some.mpr grouped
    · intro current
      obtain ⟨receive, received, equal⟩ := Option.map_eq_some_iff.mp current
      exact older receive received equal
    · exact same
    · exact digest
  · intro receive received equal
    exact older receive received (Side.receives_injective (equal.trans same.symm))

end Forward
end Peer.Follows
end StogasVerifier.Channel
