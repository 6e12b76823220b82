import StogasVerifier.Proofs.StartAcceptance

/-! Runs of the sample link, in which requests overtake each other on the way to the server,
and what the server accepts over whole runs. -/

namespace StogasVerifier.Channel
open Std Lib

namespace Link

/-- A state of the run: this many requests, and these answers in order. Nothing
was lost on the way and no time has passed. -/
structure Stage (link : Link symbolic) (given : Nat) (answers : List Nat) : Prop where
  run : ∃ arrivals, Trace SpacedStep sampleLink arrivals link
  sound : Sound True link
  attached : link.client.session.attached = true
  numbers : (link.sent .initiator).map Stream.number = List.range given
  following : link.client.shared.starts.next = given
  answered : (link.sent .responder).map Stream.number = answers
  delivered : ∀ number ∈ link.delivered, number ∈ answers
  budget : link.server.remainingStarts + answers.length = maxSessionStarts
  current : ∃ peer, link.server.peer = some peer ∧ peer.lastNow = 0
  deadlines : ∀ entry ∈ link.deadlines, 0 < entry.2
  few : given ≤ maxChainMessages

namespace Stage

variable {link : Link symbolic} {given : Nat} {answers : List Nat}

theorem start : Stage sampleLink 0 [] := by
  refine ⟨⟨[], .nil⟩, .initial sampleLink_initial, rfl, rfl, rfl, rfl, nofun, rfl, ⟨_, rfl, rfl⟩, nofun, Nat.zero_le _⟩

theorem request (stage : Stage link given answers) (few : given < maxChainMessages)
    (confirmed : given < link.client.shared.starts.confirmedNext + replayWindow)
    (pending : given < link.client.shared.starts.firstPending + replayWindow) :
    ∃ next, Stage next (given + 1) answers ∧ next.client.owners = given :: link.client.owners ∧
      next.client.unread = given :: link.client.unread ∧ next.opened = link.opened ∧ next.server = link.server ∧
      next.client.shared.starts.confirmedNext = link.client.shared.starts.confirmedNext ∧
      next.client.shared.starts.firstPending = link.client.shared.starts.firstPending := by
  obtain ⟨⟨arrivals, run⟩, sound, attached, numbers, following, answered, delivered, budget, current, deadlines, -⟩ := stage
  have allocated : link.client.shared.starts.allocate = .ok (given, { link.client.shared.starts with
      pending := link.client.shared.starts.pending.mark given, next := given + 1 }) := by
    rw [← following]
    apply Starts.allocate_ok.mpr
    have width : 0 < replayWindow := by decide
    have word : maxChainMessages ≤ u64Max := by decide
    exact ⟨by omega, by omega, by omega, rfl, rfl⟩
  obtain ⟨key, active, sent⟩ : ∃ key active, link.client.shared.peer.active.sendWith given ⟨.ok (.atom 2), .ok (.atom 3)⟩ =
      .ok (key, active) := by
    obtain ⟨-, exchange, turns, peers, carried, -⟩ := sound
    rw [carried.client]
    apply carried.flow.sends .initiator Symbolic.sealing Symbolic.contributory
    · exact (carried.flow.tracks .initiator).knows.mpr (.inl rfl)
    · rfl
    · rfl
    · intro sending present
      have count := (carried.flow.outgoing .initiator).sending present
      have length := congrArg List.length numbers
      rw [List.length_map, List.length_range] at length
      omega
  have done := ClientSession.requestWith_succeeds attached allocated sent
  refine ⟨_, ⟨⟨_, run.snoc ⟨.request done, trivial⟩⟩, sound.request done, attached, ?_, rfl, ?_, delivered, budget, current, deadlines, few⟩,
    rfl, rfl, rfl, rfl, rfl, rfl⟩
  · simp [Link.requested, numbers, List.range_succ]
  · simp [Link.requested, answered]

theorem requests (stage : Stage link given answers) (count : Nat) (few : given + count < maxChainMessages)
    (confirmed : given + count ≤ link.client.shared.starts.confirmedNext + replayWindow)
    (pending : given + count ≤ link.client.shared.starts.firstPending + replayWindow) :
    ∃ next, Stage next (given + count) answers ∧ link.client.owners ⊆ next.client.owners ∧
      (∀ number, given ≤ number → number < given + count → number ∈ next.client.owners ∧ number ∈ next.client.unread) ∧
      next.opened = link.opened ∧ next.server = link.server ∧
      next.client.shared.starts.confirmedNext = link.client.shared.starts.confirmedNext ∧
      next.client.shared.starts.firstPending = link.client.shared.starts.firstPending := by
  induction count with
  | zero => exact ⟨link, stage, List.Subset.refl _, by omega, rfl, rfl, rfl, rfl⟩
  | succ count ih =>
    obtain ⟨middle, reached, kept, waiting, opened, served, sameConfirmed, samePending⟩ := ih (by omega) (by omega) (by omega)
    obtain ⟨next, later, owners, unread, same, server, confirmed', pending'⟩ := reached.request (by omega) (by omega) (by omega)
    refine ⟨next, later, ?_, ?_, same.trans opened, server.trans served, confirmed'.trans sameConfirmed, pending'.trans samePending⟩
    · rw [owners]
      exact List.Subset.trans kept (List.subset_cons_self _ _)
    · intro number low high
      rw [owners, unread]
      rcases Nat.lt_or_ge number (given + count) with before | last
      · obtain ⟨owned, unanswered⟩ := waiting number low before
        exact ⟨List.mem_cons_of_mem _ owned, List.mem_cons_of_mem _ unanswered⟩
      · obtain rfl : number = given + count := by omega
        exact ⟨List.mem_cons_self, List.mem_cons_self⟩

theorem opening (stage : Stage link given answers) {number : Nat} (below : number < given) : ∃ stream bytes,
    stream ∈ link.sent .initiator ∧ stream.number = number ∧ stream.Starts .metadata [(7 : Nat)] bytes := by
  have numbered : (link.sent .initiator)[number]?.map Stream.number = some number := by
    rw [← List.getElem?_map, stage.numbers, List.getElem?_range below]
  obtain ⟨stream, found, named⟩ := Option.map_eq_some_iff.mp numbered
  obtain ⟨-, exchange, turns, peers, carried, -⟩ := stage.sound
  obtain ⟨bytes, starts⟩ := (carried.flow.outgoing .initiator).exists_starts Symbolic.sealing found
    [(7 : Nat)] (List.cons_ne_nil _ _) (by decide)
  exact ⟨stream, bytes, List.mem_of_getElem? found, named, starts⟩

theorem deliver (stage : Stage link given answers) (number : Nat) (below : number < given) (pending : number ∈ link.client.owners)
    (fresh : number ∉ answers) (few : answers.length + 1 < maxSessionStarts) :
    ∃ next, Stage next given (answers ++ [number]) ∧ next.client = link.client ∧ next.opened = link.opened ∧
      ServerSession.Step link.server (.accepted number) next.server := by
  obtain ⟨stream, bytes, member, rfl, starts⟩ := stage.opening below
  obtain ⟨⟨arrivals, run⟩, sound, attached, numbers, following, answered, delivered, budget, ⟨peer, current, clock⟩, deadlines, room⟩ := stage
  obtain ⟨offer, reader, response, active, late, stored, done⟩ := sound.admits Symbolic.ideal Symbolic.validates
    Symbolic.contributory member starts pending (fun earlier => fresh (delivered _ earlier)) current (by omega) 0
    ⟨.ok (.atom 4), .ok (.atom 5)⟩ rfl rfl (fun secret deadline output recorded _ => by
      rw [clock]
      exact deadlines _ recorded)
  have moved := Step.deliver member starts 0 (⟨.ok (.atom 4), .ok (.atom 5)⟩ : Entropy symbolic)
  have kept := sound.step Symbolic.ideal moved fun _ => trivial
  have trace := run.snoc (show SpacedStep _ .other _ from ⟨moved, trivial⟩)
  rw [done] at trace kept
  have word : stream.number ≤ u64Max := (below.le.trans room).trans (by decide)
  refine ⟨_, ⟨⟨_, trace⟩, kept, attached, ?_, following, ?_, ?_, ?_, ?_, ?_, room⟩, rfl, rfl, .accept word done⟩
  · simp [served, numbers]
  · simp [served, answered]
  · intro other earlier
    rcases List.mem_cons.mp earlier with rfl | before
    · exact List.mem_append_right _ (List.mem_singleton_self _)
    · exact List.mem_append_left _ (delivered other before)
  · simp only [served, ServerSession.settleBudget_remaining, ServerSession.markAccepted_remaining, ServerSession.spend,
      List.length_append, List.length_singleton]
    omega
  · refine ⟨{ offer.after with active }, ?_, ?_⟩
    · simp only [served]
      rw [ServerSession.settleBudget_open, ServerSession.markAccepted_peer]
      · rfl
      · rw [ServerSession.markAccepted_remaining]
        change 0 < link.server.remainingStarts - 1
        omega
    · exact late.trans (by rw [clock]; rfl)
  · intro entry recorded
    rcases recorded with before | ⟨other, slot, key, present, inStore, secret, expires⟩
    · exact deadlines entry before
    · have after := ServerSession.settleBudget_peer present
      rw [ServerSession.markAccepted_peer] at after
      cases after
      rcases stored inStore with earlier | new
      · exact deadlines _ (sound.dated _ _ ⟨peer, slot, key, current, earlier, secret, expires⟩)
      · rw [Option.some.inj (expires.symm.trans new)]
        simp [saturatingAdd, skippedKeyLifetimeMs, u64Max]

/-- The numbers of the first `count` answers are given out, and pending. -/
theorem deliver_range (stage : Stage link given answers) (count first : Nat) (below : first + count ≤ given)
    (pending : ∀ number, first ≤ number → number < first + count → number ∈ link.client.owners)
    (fresh : ∀ number ∈ answers, number < first ∨ first + count ≤ number) (few : answers.length + count < maxSessionStarts) :
    ∃ next, Stage next given (answers ++ List.range' first count) ∧ next.client = link.client ∧ next.opened = link.opened := by
  induction count with
  | zero => exact ⟨link, by simpa using stage, rfl, rfl⟩
  | succ count ih =>
    obtain ⟨middle, reached, client, opened⟩ := ih (by omega) (fun number low high => pending number low (by omega))
      (fun number member => by have := fresh number member; omega) (by omega)
    obtain ⟨next, later, same, kept, -⟩ := reached.deliver (first + count) (by omega)
      (by rw [client]; exact pending _ (by omega) (by omega))
      (by
        intro member
        rcases List.mem_append.mp member with earlier | now
        · have := fresh _ earlier
          omega
        · have := List.mem_range'_1.mp now
          omega)
      (by rw [List.length_append, List.length_range']; omega)
    refine ⟨next, ?_, same.trans client, kept.trans opened⟩
    rw [List.range'_concat, ← List.append_assoc, Nat.one_mul]
    exact later

end Stage

/-- Of three requests the last reaches the server first, and then the first. -/
theorem overtaken : ∃ asked ahead behind : Link symbolic, Stage asked 3 [] ∧ Stage ahead 3 [2] ∧ Stage behind 3 [2, 0] ∧
    asked.server = sampleLink.server ∧ 0 ∈ ahead.client.owners ∧
    ServerSession.Step asked.server (.accepted 2) ahead.server ∧ ServerSession.Step ahead.server (.accepted 0) behind.server := by
  obtain ⟨asked, first, -, waiting, -, fresh, -⟩ := Stage.start.requests 3 (by decide) (by decide) (by decide)
  obtain ⟨ahead, second, client, -, jump⟩ := first.deliver 2 (by decide) (waiting 2 (by decide) (by decide)).1 (by decide) (by decide)
  have pending : 0 ∈ ahead.client.owners := client ▸ (waiting 0 (by decide) (by decide)).1
  obtain ⟨behind, third, -, -, back⟩ := second.deliver 0 (by decide) pending (by decide) (by decide)
  exact ⟨asked, ahead, behind, first, second, third, fresh, pending, jump, back⟩

end Link

namespace ServerSession

variable {S : Suite}

/-- At its peer an accepted start is a message that is accepted and one that is sent. -/
theorem accepted_run {session after : ServerSession S} {number : Nat} {first peer last : Peer S} {events : List (Event S)}
    (before : Peer.Run first events peer) (move : Step session (.accepted number) after) (current : session.peer = some peer)
    (still : after.peer = some last) : ∃ now id key stored response,
    Peer.Run first (events ++ [.accepted now id key stored] ++ [.sent number (.ok response)]) last := by
  cases move with
  | @accept _ _ now encoded entropy admitted word done =>
    have accepts := acceptStart_accepts session number encoded now entropy
    rw [done] at accepts
    cases accepts with
    | @admission _ _ _ offer _ _ _ response active known _ _ _ offered authentic answered settled =>
      cases current.symm.trans known
      have passed := Peer.receive_ok.mpr ⟨offer, offered, authentic, rfl⟩
      have sent : offer.after.send number entropy = (.ok response, { offer.after with active }) := by rw [Peer.send, answered]
      have final : some last = some { offer.after with active } := by
        rw [show after = _ from settled] at still
        rw [← settleBudget_peer still, markAccepted_peer]
        rfl
      have answers := Peer.Step.send offer.after number entropy
      rw [sent] at answers
      cases final
      exact ⟨_, _, _, _, _, (before.snoc (.accept offered passed)).snoc answers⟩

/-- Whatever a client sends, even one that holds every key: no number is
accepted twice, the last 64-bit number never is, `next` never decreases or
wraps, and the bitmap tells exactly which numbers of the window were accepted. -/
theorem accepts_each_number_once {root : S.Secret} {id : S.Bytes} {initial : KeyPair S} {session : ServerSession S}
    {events : List Admission} (run : Trace Step (ServerSession.new root id initial) events session) :
    (admissions events).Nodup ∧ u64Max ∉ admissions events ∧ session.next ≤ u64Max ∧
      (∀ event after, Step session event after → session.next ≤ after.next ∧ after.next ≤ u64Max) ∧
      ∀ number, session.next ≤ number + replayWindow → number < session.next →
        (session.accepted.test number = true ↔ number ∈ admissions events) := by
  have window := Window.run run
  refine ⟨window.once, ?_, window.word, ?_, fun number inside below => window.exact number below inside⟩
  · intro member
    exact absurd (window.below _ member) (Nat.not_lt.mpr window.word)
  · intro event after move
    obtain ⟨next, more⟩ := window.step move
    exact ⟨more, next.word⟩

/-- Of three requests the last arrives first, then the first, and then the last once more, which is refused. -/
theorem accepts_each_number_once_sample : ∃ (session : ServerSession symbolic) (bytes : symbolic.Bytes) (entropy : Entropy symbolic),
    Trace Step (ServerSession.new (S := symbolic) (.atom 0) [] (KeyPair.fromSeed (S := symbolic) (.atom 1)))
      [.accepted 2, .accepted 0, .refused] session ∧
    session.acceptStart 2 bytes 0 entropy = (.error .record, session) ∧ session.next = 3 ∧
    session.accepted.test 0 = true ∧ session.accepted.test 1 = false ∧ session.accepted.test 2 = true := by
  obtain ⟨asked, ahead, behind, -, -, stage, fresh, -, jump, back⟩ := Link.overtaken
  obtain ⟨_, bytes, -, -, -⟩ := stage.opening (show 2 < 3 by decide)
  obtain ⟨peer, current, -⟩ := stage.current
  rw [fresh] at jump
  have run := (Trace.single jump).snoc back
  have replayed : behind.server.acceptStart 2 bytes 0 ⟨.ok (.atom 6), .ok (.atom 7)⟩ = (.error .record, behind.server) :=
    (Window.run run).refuses_again current (by decide)
  have next : behind.server.next = 3 := by rw [accepted_next back, accepted_next jump]; rfl
  have whole := run.snoc (.refuse (by decide) replayed)
  have exact := (accepts_each_number_once whole).2.2.2.2
  rw [next] at exact
  refine ⟨behind.server, bytes, _, whole, replayed, next, (exact 0 (by decide) (by decide)).mpr (by decide), ?_,
    (exact 2 (by decide) (by decide)).mpr (by decide)⟩
  rw [Bool.eq_false_iff, ne_eq, exact 1 (by decide) (by decide)]
  decide

end ServerSession

namespace Link

variable {S : Suite}

/-- In every run, the first delivery of the start of a request that is pending at
the client is admitted, as long as the session is open with budget and
randomness, and a key that the server stored for it is not past its deadline. -/
theorem start_accepted {root seed : S.Secret} {first link : Link S} {arrivals : List Arrival} (ideal : S.Ideal)
    (validates : S.Validates) (contributory : S.Contributory) (started : Initial root seed first)
    (run : Trace Step first arrivals link) {stream : Stream S} {kind : Kind} {content bytes : S.Bytes}
    (sent : stream ∈ link.sent .initiator) (starts : stream.Starts kind content bytes)
    (pending : stream.number ∈ link.client.owners) (fresh : stream.number ∉ link.delivered) {peer : Peer S}
    (current : link.server.peer = some peer) (budget : 0 < link.server.remainingStarts) {now : Nat} {entropy : Entropy S}
    {keySeed randomness : S.Secret} (seeded : entropy.seed = .ok keySeed) (drawn : entropy.randomness = .ok randomness)
    (live : ∀ secret deadline output, (secret, deadline) ∈ link.deadlines →
      link.server.authenticate stream.number bytes secret = .ok output → max peer.lastNow now < deadline) :
    ∃ admitted server, link.server.acceptStart stream.number bytes now entropy = (.ok admitted, server) ∧
      admitted.metadata = content := by
  obtain ⟨offer, reader, response, active, -, -, done⟩ := (Sound.run ideal started run).admits ideal validates contributory sent starts
    pending fresh current budget now entropy seeded drawn live
  exact ⟨_, _, done, rfl⟩

/-- The first of three requests is admitted after the last has overtaken it. -/
theorem start_accepted_sample : ∃ (arrivals : List Arrival) (link : Link symbolic) (stream : Stream symbolic) (bytes : symbolic.Bytes),
    Trace Step sampleLink arrivals link ∧ (link.sent .responder).map Stream.number = [2] ∧ stream ∈ link.sent .initiator ∧
    stream.number = 0 ∧ stream.Starts .metadata [(7 : Nat)] bytes ∧
    ∃ admitted server, link.server.acceptStart stream.number bytes 0 ⟨.ok (.atom 4), .ok (.atom 5)⟩ = (.ok admitted, server) ∧
      admitted.metadata = [(7 : Nat)] := by
  obtain ⟨-, ahead, -, -, stage, -, -, owned, -⟩ := overtaken
  obtain ⟨stream, bytes, member, named, starts⟩ := stage.opening (show 0 < 3 by decide)
  obtain ⟨arrivals, spaced⟩ := stage.run
  obtain ⟨peer, current, clock⟩ := stage.current
  have run := spaced.mono fun move => move.1
  have pending : stream.number ∈ ahead.client.owners := named ▸ owned
  have fresh : stream.number ∉ ahead.delivered := by
    intro earlier
    have := stage.delivered _ earlier
    rw [named] at this
    exact absurd this (by decide)
  have budget : ahead.server.remainingStarts + 1 = maxSessionStarts := stage.budget
  have many : 1 < maxSessionStarts := by decide
  refine ⟨arrivals, ahead, stream, bytes, run, stage.answered, member, named, starts, start_accepted Symbolic.ideal Symbolic.validates
    Symbolic.contributory sampleLink_initial run member starts pending fresh current (by omega) rfl rfl ?_⟩
  intro secret deadline output recorded _
  rw [clock]
  exact stage.deadlines _ recorded

end Link
end StogasVerifier.Channel
