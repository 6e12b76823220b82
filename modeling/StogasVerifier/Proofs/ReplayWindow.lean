import StogasVerifier.Proofs.ServerSteps

/-! The replay window of a server session, under any calls whatever. -/

namespace StogasVerifier.Channel
open Std Lib

variable {S : Suite}

/-- What one call to a server session did. -/
inductive Admission where
  | accepted (number : Nat)
  | refused
  | expired
  | closed

def admissions (events : List Admission) : List Nat :=
  events.filterMap fun
    | .accepted number => some number
    | _ => none

namespace ServerSession

/-- One call with arbitrary arguments. Request numbers are 64-bit. -/
inductive Step : ServerSession S → Admission → ServerSession S → Prop where
  | accept {session after : ServerSession S} {number now : Nat} {encoded : S.Bytes} {entropy : Entropy S} {admitted : Admitted S}
      (word : number ≤ u64Max) (done : session.acceptStart number encoded now entropy = (.ok admitted, after)) :
      Step session (.accepted number) after
  | refuse {session after : ServerSession S} {number now : Nat} {encoded : S.Bytes} {entropy : Entropy S} {error : Error}
      (word : number ≤ u64Max) (done : session.acceptStart number encoded now entropy = (.error error, after)) :
      Step session .refused after
  | expire (session : ServerSession S) (now : Nat) : Step session .expired (session.expire now)
  | close (session : ServerSession S) : Step session .closed session.close

/-- The bitmap is exact on the window that ends at `next`. -/
structure Window (numbers : List Nat) (session : ServerSession S) : Prop where
  once : numbers.Nodup
  below : ∀ number ∈ numbers, number < session.next
  word : session.next ≤ u64Max
  exact : ∀ number, number < session.next → session.next ≤ number + replayWindow →
    (session.accepted.test number = true ↔ number ∈ numbers)

variable {session : ServerSession S}

theorem screen_ok {number : Nat} :
    session.screen number = .ok () ↔
      if number < session.next then session.next ≤ number + replayWindow ∧ session.accepted.test number = false
      else number ≠ u64Max ∧ number < session.next + replayWindow := by
  unfold screen
  split
  · rw [reject_ok, not_or, Bool.not_eq_true]
    exact and_congr_left fun _ => by omega
  · rw [reject_ok, not_or]
    exact and_congr_right fun _ => by omega

theorem Window.new (root : S.Secret) (id : S.Bytes) (initial : KeyPair S) : Window [] (ServerSession.new root id initial) := by
  refine ⟨List.nodup_nil, nofun, Nat.zero_le _, ?_⟩
  intro number below
  exact absurd below (Nat.not_lt_zero _)

variable {numbers : List Nat}

theorem Window.congr {after : ServerSession S} (window : Window numbers session)
    (next : after.next = session.next) (accepted : after.accepted = session.accepted) : Window numbers after := by
  refine ⟨window.once, ?_, ?_, ?_⟩
  · rw [next]
    exact window.below
  · rw [next]
    exact window.word
  · rw [next, accepted]
    exact window.exact

theorem Window.clearStale {number : Nat} (window : Window numbers session)
    (near : number < session.next + replayWindow) (word : number < u64Max) : Window numbers (session.clearStale number) := by
  unfold ServerSession.clearStale
  split
  next beyond =>
    refine ⟨window.once, ?_, word, ?_⟩
    · intro other member
      exact Nat.lt_succ_of_le ((window.below other member).le.trans beyond)
    · intro other below inside
      simp only at below inside ⊢
      rw [Bitmap.test_foldl_clear _ _ (by decide)]
      by_cases recent : session.next ≤ other
      · have unused : other ∉ numbers := fun member => absurd (window.below other member) (Nat.not_lt.mpr recent)
        have stale : other ∈ List.range' session.next (number + 1 - session.next) := by
          rw [List.mem_range'_1]
          omega
        exact ⟨fun kept => absurd rfl (kept.2 other stale), fun member => absurd member unused⟩
      · have kept := window.exact other (by omega) (by omega)
        rw [kept]
        refine ⟨fun both => both.1, fun member => ⟨member, fun stale inRange => ?_⟩⟩
        rw [List.mem_range'_1] at inRange
        -- Two numbers of one slot are a whole window apart.
        simp only [replayWindow, maxSkippedKeys] at *
        omega
  · exact window

theorem Window.mark {number : Nat} (window : Window numbers session)
    (below : number < session.next) (inside : session.next ≤ number + replayWindow) (unused : number ∉ numbers) :
    Window (numbers ++ [number]) { session with accepted := session.accepted.mark number } := by
  refine ⟨?_, ?_, window.word, ?_⟩
  · apply List.nodup_append.mpr
    refine ⟨window.once, List.nodup_singleton number, ?_⟩
    intro other member _ last same
    rw [List.mem_singleton.mp last] at same
    exact unused (same ▸ member)
  · intro other member
    rcases List.mem_append.mp member with earlier | last
    · exact window.below other earlier
    · rw [List.mem_singleton.mp last]
      exact below
  · intro other early late
    simp only at early late ⊢
    rw [Bitmap.test_mark _ _ _ (by decide), List.mem_append, List.mem_singleton]
    split
    next same =>
      have equal : other = number := by
        simp only [replayWindow, maxSkippedKeys] at *
        omega
      simp [equal]
    next different =>
      have distinct : other ≠ number := fun equal => different (by rw [equal])
      rw [window.exact other early late]
      simp [distinct]

theorem Window.markAccepted {number : Nat} (window : Window numbers session)
    (screened : session.screen number = .ok ()) (word : number ≤ u64Max) :
    Window (numbers ++ [number]) (session.markAccepted number) ∧ session.next ≤ (session.markAccepted number).next := by
  rw [screen_ok] at screened
  split at screened
  next before =>
    obtain ⟨inside, clear⟩ := screened
    have kept : session.clearStale number = session := if_neg (Nat.not_le.mpr before)
    have unused : number ∉ numbers := by
      rw [← window.exact number before inside, clear]
      exact Bool.false_ne_true
    rw [ServerSession.markAccepted, kept]
    exact ⟨window.mark before inside unused, Nat.le_refl _⟩
  next beyond =>
    obtain ⟨last, near⟩ := screened
    have moved : session.clearStale number = _ := if_pos (Nat.not_lt.mp beyond)
    have next : (session.clearStale number).next = number + 1 := by rw [moved]
    have cleared := window.clearStale near (by omega)
    have unused : number ∉ numbers := fun member => beyond (window.below number member)
    rw [ServerSession.markAccepted]
    refine ⟨cleared.mark (by omega) (by omega) unused, ?_⟩
    change session.next ≤ (session.clearStale number).next
    omega

theorem Window.step {events : List Admission} {after : ServerSession S} {event : Admission}
    (window : Window (admissions events) session) (move : Step session event after) :
    Window (admissions (events ++ [event])) after ∧ session.next ≤ after.next := by
  have appended : admissions (events ++ [event]) = admissions events ++ admissions [event] := List.filterMap_append
  rw [appended]
  cases move with
  | @accept _ number now encoded entropy admitted word done =>
    have accepts := acceptStart_accepts session number encoded now entropy
    rw [done] at accepts
    cases accepts with
    | @admission _ _ _ offer _ _ _ _ active current screened framed budget offered authentic answered settled =>
      subst settled
      have spent : Window (admissions events) (session.spend { offer.after with active }) := window.congr rfl rfl
      obtain ⟨marked, more⟩ := spent.markAccepted screened word
      exact ⟨marked.congr (settleBudget_next _) (settleBudget_accepted _), by rw [settleBudget_next]; exact more⟩
  | @refuse _ number now encoded entropy error word done =>
    have accepts := acceptStart_accepts session number encoded now entropy
    rw [done] at accepts
    rw [show admissions [Admission.refused] = [] from rfl, List.append_nil]
    cases accepts with
    | refuse => exact ⟨window, Nat.le_refl _⟩
    | reject _ _ _ _ _ settled =>
      subst settled
      exact ⟨window.congr (settleBudget_next _) (settleBudget_accepted _),
        (settleBudget_next (session.spend _)).ge⟩
    | unanswered _ _ _ _ _ _ _ settled =>
      subst settled
      exact ⟨window.congr (settleBudget_next _) (settleBudget_accepted _),
        (settleBudget_next (session.spend _)).ge⟩
  | expire now =>
    rw [show admissions [Admission.expired] = [] from rfl, List.append_nil]
    exact ⟨window.congr rfl rfl, Nat.le_refl _⟩
  | close =>
    rw [show admissions [Admission.closed] = [] from rfl, List.append_nil]
    exact ⟨window.congr rfl rfl, Nat.le_refl _⟩

theorem Window.refuses_again (window : Window numbers session) {peer : Peer S} (current : session.peer = some peer) {number : Nat}
    (member : number ∈ numbers) {encoded : S.Bytes} {now : Nat} {entropy : Entropy S} :
    session.acceptStart number encoded now entropy = (.error .record, session) := by
  have below := window.below number member
  have known : replayWindow < session.next - number ∨ session.accepted.test number = true := by
    by_cases inside : session.next ≤ number + replayWindow
    · exact .inr ((window.exact number below inside).mpr member)
    · exact .inl (by omega)
  have screened : session.screen number = .error .record := by rw [screen, if_pos below, reject, if_pos known]
  simp only [acceptStart, current, screened]

theorem accepted_next {number : Nat} {after : ServerSession S} (move : Step session (.accepted number) after) :
    after.next = max session.next (number + 1) := by
  cases move with
  | @accept _ _ now encoded entropy admitted word done =>
    have accepts := acceptStart_accepts session number encoded now entropy
    rw [done] at accepts
    cases accepts with
    | admission _ _ _ _ _ _ _ settled =>
      subst settled
      rw [settleBudget_next]
      change (clearStale _ number).next = _
      unfold clearStale
      split
      next beyond =>
        have : session.next ≤ number := beyond
        simp only
        omega
      next before =>
        have : ¬ session.next ≤ number := before
        change session.next = _
        omega

theorem Window.run {root : S.Secret} {id : S.Bytes} {initial : KeyPair S} {events : List Admission}
    (run : Trace Step (ServerSession.new root id initial) events session) : Window (admissions events) session :=
  Trace.invariant (fun events session => Window (admissions events) session) (.new root id initial)
    (fun window move => (window.step move).1) run

end ServerSession
end StogasVerifier.Channel
