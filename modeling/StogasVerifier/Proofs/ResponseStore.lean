import StogasVerifier.Proofs.LinkInvariant

/-! What the client keeps for the responses that it has not opened. -/

namespace StogasVerifier.Channel
open Std Lib

variable {S : Suite}

namespace Link

variable {link : Link S} {place : Nat}

theorem openedAt_true : link.openedAt place = true ↔
    ∃ stream, (link.sent .responder)[place]? = some stream ∧ stream.number ∈ link.opened := by
  simp [openedAt, Option.any_eq_true]

theorem front_le {bound : Nat} (all : ∀ place, link.openedAt place = true → place < bound) : link.front ≤ bound := by
  apply Finset.sup_le
  intro place _
  split
  next opened => exact all place opened
  next => exact Nat.zero_le _

theorem lt_front (opened : link.openedAt place = true) : place < link.front := by
  obtain ⟨stream, found, -⟩ := openedAt_true.mp opened
  have inside := (List.getElem?_eq_some_iff.mp found).1
  have below := Finset.le_sup (f := fun place => if link.openedAt place then place + 1 else 0) (Finset.mem_range.mpr inside)
  rw [if_pos opened] at below
  exact below

private theorem front_congr {next : Link S} (places : next.openedAt = link.openedAt) : next.front = link.front := by
  apply Nat.le_antisymm
  · exact front_le fun place opened => lt_front (by rw [← places]; exact opened)
  · exact front_le fun place opened => lt_front (by rw [places]; exact opened)

theorem card_unopened {low high : Nat} (below : low ≤ link.front) (above : link.front ≤ high) :
    (link.unopened low high).card = (link.unopened low link.front).card + (high - link.front) := by
  have beyond : (Finset.Ico link.front high).filter (fun place => link.openedAt place = false) = Finset.Ico link.front high := by
    apply Finset.filter_true_of_mem
    intro place inside
    rw [Bool.eq_false_iff]
    intro marked
    exact absurd (lt_front marked) (Nat.not_lt.mpr (Finset.mem_Ico.mp inside).1)
  have split : link.unopened low high = link.unopened low link.front ∪ Finset.Ico link.front high := by
    rw [unopened, unopened, ← beyond, ← Finset.filter_union, Finset.Ico_union_Ico_eq_Ico below above]
  rw [split, Finset.card_union_of_disjoint, Nat.card_Ico]
  exact Finset.disjoint_of_subset_left (Finset.filter_subset _ _) (Finset.Ico_disjoint_Ico_consecutive low link.front high)

/-- The client's side of a run whose arrivals were spaced. -/
structure Responses (exchange : Exchange S) (peers : Side → Peer S) (link : Link S) : Prop where
  owned : (peers .initiator).retention = .owned
  lasting : ∀ {slot key}, (peers .initiator).lookup slot = some key → key.expires = none
  front : exchange.reached .initiator (peers .initiator).active = link.front
  unused : ∀ {slot key}, (peers .initiator).lookup slot = some key → link.openedAt (exchange.indexOf .initiator slot) = false
  known : ∀ number ∈ link.opened, ∃ stream ∈ link.sent .responder, stream.number = number
  held : ∀ {place stream}, (link.sent .responder)[place]? = some stream → stream.number ∈ link.client.unread →
    place < link.front → Held exchange .initiator (peers .initiator) place

namespace Responses

variable {exchange longer : Exchange S} {turns later : Side → Nat} {peers after : Side → Peer S} {next : Link S}

theorem move (responses : Responses exchange peers link)
    (receive : (after .initiator).active.receive = (peers .initiator).active.receive)
    (retention : (after .initiator).retention = (peers .initiator).retention)
    (subset : ∀ {slot key}, (after .initiator).lookup slot = some key → (peers .initiator).lookup slot = some key)
    (keeps : next.client.unread ≠ [] → ∀ {slot key}, (peers .initiator).lookup slot = some key →
      (after .initiator).lookup slot = some key)
    (sent : next.sent .responder = link.sent .responder) (opened : next.opened = link.opened)
    (unread : ∀ stream ∈ link.sent .responder, stream.number ∈ next.client.unread → stream.number ∈ link.client.unread) :
    Responses exchange after next := by
  have places : next.openedAt = link.openedAt := by
    funext place
    rw [openedAt, openedAt, sent, opened]
  have fronts := front_congr places
  refine ⟨retention.trans responses.owned, fun found => responses.lasting (subset found), ?_, ?_, ?_, ?_⟩
  · rw [fronts, ← responses.front, Exchange.reached, receive, Exchange.reached]
  · rw [places]
    exact fun found => responses.unused (subset found)
  · rw [opened, sent]
    exact responses.known
  · intro place stream found waiting passed
    rw [sent] at found
    rw [fronts] at passed
    obtain ⟨slot, key, present, here⟩ := responses.held found (unread stream (List.mem_of_getElem? found) waiting) passed
    exact ⟨slot, key, keeps (List.ne_nil_of_mem waiting) present, here⟩

/-- The server does something that is not an answer. -/
theorem idle (responses : Responses exchange peers link) (same : after .initiator = peers .initiator)
    (sent : next.sent .responder = link.sent .responder) (opened : next.opened = link.opened) (client : next.client = link.client) :
    Responses exchange after next := by
  apply responses.move
  · rw [same]
  · rw [same]
  · rw [same]
    exact fun found => found
  · rw [same]
    exact fun _ _ _ found => found
  · exact sent
  · exact opened
  · rw [client]
    exact fun _ _ waiting => waiting

theorem grow (responses : Responses exchange peers link) {total : Nat}
    (incoming : Incoming exchange .initiator (turns .responder) (peers .initiator) total)
    (grows : Flow.Grows exchange longer turns later link.sent) : Responses longer peers link := by
  refine ⟨responses.owned, responses.lasting, ?_, ?_, responses.known, fun found waiting passed =>
    (responses.held found waiting passed).grow incoming grows⟩
  · rw [incoming.reached_congr (grows.agrees .responder)]
    exact responses.front
  · intro slot key found
    rw [(grows.agrees .responder).indexOf (incoming.stored found).started]
    exact responses.unused found

theorem answer (responses : Responses exchange peers link) (stream : Stream S)
    (fresh : ∀ other ∈ link.sent .responder, other.number ≠ stream.number) (same : after .initiator = peers .initiator)
    (sent : next.sent .responder = link.sent .responder ++ [stream]) (opened : next.opened = link.opened)
    (client : next.client = link.client) : Responses exchange after next := by
  have places : next.openedAt = link.openedAt := by
    funext place
    rw [Bool.eq_iff_iff, openedAt_true, openedAt_true, sent, opened]
    constructor
    · rintro ⟨other, found, member⟩
      obtain ⟨earlier, known, same⟩ := responses.known _ member
      rw [List.getElem?_append] at found
      split at found
      · exact ⟨other, found, member⟩
      · rw [List.mem_singleton.mp (List.mem_of_getElem? found)] at same
        exact absurd same (fresh earlier known)
    · rintro ⟨other, found, member⟩
      exact ⟨other, by rw [List.getElem?_append_left (List.getElem?_eq_some_iff.mp found).1]; exact found, member⟩
  have fronts := front_congr places
  have bounded : link.front ≤ (link.sent .responder).length := by
    apply front_le
    intro place marked
    obtain ⟨other, found, -⟩ := openedAt_true.mp marked
    exact (List.getElem?_eq_some_iff.mp found).1
  obtain ⟨owned, lasting, front, unused, known, held⟩ := responses
  refine ⟨by rw [same]; exact owned, by rw [same]; exact lasting, by rw [same, fronts]; exact front, by rw [same, places]; exact unused, ?_, ?_⟩
  · intro number member
    rw [opened] at member
    obtain ⟨other, earlier, same⟩ := known number member
    exact ⟨other, by rw [sent]; exact List.mem_append_left _ earlier, same⟩
  · intro place other found waiting passed
    rw [fronts] at passed
    rw [sent, List.getElem?_append_left (by omega)] at found
    rw [client] at waiting
    rw [same]
    exact held found waiting passed

section Take

variable {stream : Stream S} {peer : Peer S} {place : Nat}
  (found : (link.sent .responder)[place]? = some stream) (once : ((link.sent .responder).map Stream.number).Nodup)
  (opened : next.opened = stream.number :: link.opened) (sent : next.sent = link.sent)
include found once opened sent

private theorem openedAt_take (other : Nat) : next.openedAt other = true ↔ other = place ∨ link.openedAt other = true := by
  rw [openedAt_true, openedAt_true, opened, sent]
  constructor
  · rintro ⟨response, here, member⟩
    rcases List.mem_cons.mp member with same | earlier
    · left
      have first : ((link.sent .responder).map Stream.number)[other]? = some stream.number := by simp [here, same]
      have second : ((link.sent .responder).map Stream.number)[place]? = some stream.number := by simp [found]
      exact (List.getElem?_inj (List.getElem?_eq_some_iff.mp first).1 once).mp (first.trans second.symm)
    · exact .inr ⟨response, here, earlier⟩
  · intro either
    rcases either with rfl | ⟨response, here, member⟩
    · exact ⟨stream, found, List.mem_cons_self⟩
    · exact ⟨response, here, List.mem_cons_of_mem _ member⟩

private theorem front_take : next.front = max link.front (place + 1) := by
  have marks := openedAt_take found once opened sent
  apply Nat.le_antisymm
  · apply front_le
    intro other marked
    rcases (marks other).mp marked with rfl | earlier
    · exact Nat.lt_of_lt_of_le (Nat.lt_succ_self _) (Nat.le_max_right _ _)
    · exact Nat.lt_of_lt_of_le (lt_front earlier) (Nat.le_max_left _ _)
  · apply Nat.max_le.mpr
    exact ⟨front_le fun other marked => lt_front ((marks other).mpr (.inr marked)), lt_front ((marks place).mpr (.inl rfl))⟩

end Take

/-- Opening a response keeps the keys of the other readers if the arrival is spaced. -/
theorem take (responses : Responses exchange peers link) {id : S.Bytes} (flow : Flow exchange id turns peers link.sent)
    {stream : Stream S} {peer : Peer S} {place : Nat} (found : (link.sent .responder)[place]? = some stream)
    (once : ((link.sent .responder).map Stream.number).Nodup)
    (takes : Flow.Takes exchange .initiator (turns .responder) (peers .initiator) peer place)
    (spaced : link.Spaced (.response stream.number)) (single : link.client.unread.Nodup)
    (opened : next.opened = stream.number :: link.opened) (sent : next.sent = link.sent)
    (unread : next.client.unread = link.client.unread.erase stream.number) (same : after .initiator = peer) :
    Responses exchange after next := by
  have marks := openedAt_take found once opened sent
  have front := responses.front
  have reached := takes.reached
  refine ⟨?_, ?_, ?_, ?_, ?_, ?_⟩
  · rw [same]
    exact takes.frame.2.trans responses.owned
  · intro slot key present
    rw [same] at present
    rcases (takes.lookup present).2 with earlier | ⟨-, -, expires⟩
    · exact responses.lasting earlier
    · rw [expires, responses.owned]
      rfl
  · rw [same, reached, front, front_take found once opened sent]
  · intro slot key present
    rw [same] at present
    obtain ⟨different, origin⟩ := takes.lookup present
    rw [Bool.eq_false_iff]
    intro marked
    rcases (marks _).mp marked with here | earlier
    · exact different here
    · rcases origin with stored | ⟨low, -⟩
      · rw [responses.unused stored] at earlier
        cases earlier
      · have := lt_front earlier
        omega
  · rw [opened, sent]
    intro number member
    rcases List.mem_cons.mp member with rfl | earlier
    · exact ⟨stream, List.mem_of_getElem? found, rfl⟩
    · exact responses.known number earlier
  · intro other waiting here pending passed
    rw [sent] at here
    rw [unread] at pending
    obtain ⟨different, pending⟩ := single.mem_erase_iff.mp pending
    have apart : other ≠ place := by
      intro same
      subst same
      cases found.symm.trans here
      exact different rfl
    rw [front_take found once opened sent] at passed
    rw [same]
    rcases Nat.lt_or_ge other link.front with before | beyond
    · obtain ⟨slot, key, present, index⟩ := responses.held here pending before
      refine ⟨slot, key, takes.keeps (link.unopened other link.front) present (by rw [index]; exact apart) fun ahead => ⟨?_, ?_⟩, index⟩
      · rw [front] at ahead ⊢
        have crowd := spaced place stream other waiting found rfl here pending (by omega)
        rw [Nat.min_eq_right before.le, card_unopened before.le ahead] at crowd
        exact crowd
      · intro newer stored inStore order
        rw [index] at order
        refine Finset.mem_filter.mpr ⟨Finset.mem_Ico.mpr ⟨order, ?_⟩, responses.unused inStore⟩
        rw [← front]
        exact (flow.incoming .initiator).stored_lt (flow.store .initiator) inStore
    · obtain ⟨turn, number, key, position, -⟩ := (flow.outgoing .responder).messages here
      obtain ⟨epoch, receives⟩ := Side.initiator.exists_receives position.owned
      have index : exchange.indexOf .initiator (epoch, number) = other := by rw [Exchange.indexOf, receives, position.index]
      obtain ⟨stored, present⟩ := takes.stores (epoch, number) (by rw [index, front]; exact beyond) (by rw [index]; omega)
        (by rw [index, receives]; exact position)
      exact ⟨_, stored, present, index⟩

end Responses
end Link
end StogasVerifier.Channel
