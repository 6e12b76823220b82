import StogasVerifier.Proofs.StartLedger

/-! Every sequence of allocations, releases and confirmations of the request numbers of a
session (`Starts` of `session.rs`). The circular bitmap tells which numbers are outstanding,
because they never span more numbers than it has bits. -/

namespace StogasVerifier.Channel
open Lib

/-- The window with the numbers that it gave out and those that came back. -/
structure Window where
  starts : Starts
  given : List Nat
  released : List Nat

namespace Window

def initial : Window := ⟨Starts.default, [], []⟩

def Outstanding (window : Window) (number : Nat) : Prop := number ∈ window.given ∧ number ∉ window.released

inductive Event where
  | allocate (result : Except Error Nat)
  | release (number : Nat)
  | confirm (number : Nat)

inductive Step : Window → Event → Window → Prop where
  | allocated {window : Window} {number : Nat} {starts : Starts} (given : window.starts.allocate = .ok (number, starts)) :
      Step window (.allocate (.ok number)) ⟨starts, window.given ++ [number], window.released⟩
  | refused {window : Window} {error : Error} (given : window.starts.allocate = .error error) : Step window (.allocate (.error error)) window
  | release {window : Window} {number : Nat} (outstanding : window.Outstanding number) :
      Step window (.release number) ⟨window.starts.release number, window.given, number :: window.released⟩
  /-- The update that ends `start`. -/
  | confirm {window : Window} {number : Nat} (known : number ∈ window.given) :
      Step window (.confirm number)
        { window with starts := { window.starts with confirmedNext := max window.starts.confirmedNext (number + 1) } }

variable {window after : Window} {number other : Nat} {starts : Starts}

/-- What holds between the operations. -/
structure Valid (window : Window) : Prop where
  ordered : window.starts.firstPending ≤ window.starts.next
  narrow : window.starts.next ≤ window.starts.firstPending + replayWindow
  confirmed : window.starts.confirmedNext ≤ window.starts.next
  word : window.starts.next ≤ u64Max
  once : window.given.Nodup
  below : ∀ number ∈ window.given, number < window.starts.next
  above : ∀ number, window.Outstanding number → window.starts.firstPending ≤ number
  first : window.starts.firstPending < window.starts.next → window.Outstanding window.starts.firstPending
  bits : ∀ number, window.starts.pending.test number = true ↔
    ∃ other, other % replayWindow = number % replayWindow ∧ window.Outstanding other

theorem Valid.initial : Valid initial where
  ordered := Nat.le_refl _
  narrow := Nat.zero_le _
  confirmed := Nat.le_refl _
  word := Nat.zero_le _
  once := .nil
  below := nofun
  above := fun _ outstanding => absurd outstanding.1 List.not_mem_nil
  first := fun later => absurd later (Nat.lt_irrefl _)
  bits := by
    intro number
    constructor
    · intro set
      exact absurd set (Bool.eq_false_iff.mp (Bitmap.test_empty number))
    · rintro ⟨_, -, outstanding⟩
      exact absurd outstanding.1 List.not_mem_nil

private theorem Valid.slot (valid : window.Valid) (outstanding : window.Outstanding other)
    (atLeast : window.starts.firstPending ≤ number) (below : number < window.starts.next)
    (same : other % replayWindow = number % replayWindow) : other = number := by
  have low := valid.above other outstanding
  have high := valid.below other outstanding.1
  have narrow := valid.narrow
  simp only [replayWindow, maxSkippedKeys] at same narrow
  omega

theorem Valid.bit (valid : window.Valid) (atLeast : window.starts.firstPending ≤ number) (below : number < window.starts.next) :
    window.starts.pending.test number = true ↔ window.Outstanding number := by
  rw [valid.bits]
  constructor
  · rintro ⟨other, same, outstanding⟩
    rwa [← valid.slot outstanding atLeast below same]
  · intro outstanding
    exact ⟨number, rfl, outstanding⟩

private theorem Valid.fresh (valid : window.Valid) : window.starts.next ∉ window.given :=
  fun member => Nat.lt_irrefl _ (valid.below _ member)

def Returned (window : Window) : Prop := ∀ number ∈ window.released, number ∈ window.given

private theorem Valid.allocated (valid : window.Valid) (returned : window.Returned)
    (given : window.starts.allocate = .ok (number, starts)) :
    Valid ⟨starts, window.given ++ [number], window.released⟩ := by
  obtain ⟨room, confirming, pending, rfl, shape⟩ := Starts.allocate_ok.mp given
  have ordered := valid.ordered
  have confirmed := valid.confirmed
  have word := valid.word
  have outstanding (other : Nat) :
      Outstanding ⟨starts, window.given ++ [window.starts.next], window.released⟩ other ↔ window.Outstanding other ∨ other = window.starts.next := by
    simp only [Outstanding, List.mem_append, List.mem_singleton]
    constructor
    · rintro ⟨earlier | last, kept⟩
      · exact .inl ⟨earlier, kept⟩
      · exact .inr last
    · rintro (⟨earlier, kept⟩ | rfl)
      · exact ⟨.inl earlier, kept⟩
      · exact ⟨.inr rfl, fun back => valid.fresh (returned _ back)⟩
  subst shape
  constructor
  case ordered => exact Nat.le_succ_of_le ordered
  case narrow => simp only; omega
  case confirmed => exact Nat.le_succ_of_le confirmed
  case word => simp only; omega
  case once =>
    rw [List.nodup_append]
    refine ⟨valid.once, List.nodup_singleton _, ?_⟩
    intro earlier member last same equal
    exact valid.fresh (List.mem_singleton.mp same ▸ equal ▸ member)
  case below =>
    intro other member
    rcases List.mem_append.mp member with earlier | last
    · exact Nat.lt_succ_of_lt (valid.below other earlier)
    · exact List.mem_singleton.mp last ▸ Nat.lt_succ_self _
  case above =>
    intro other kept
    obtain earlier | rfl := (outstanding other).mp kept
    · exact valid.above other earlier
    · exact ordered
  case first =>
    intro _
    apply (outstanding _).mpr
    rcases Nat.eq_or_lt_of_le ordered with same | earlier
    · exact .inr same
    · exact .inl (valid.first earlier)
  case bits =>
    intro number
    rw [Bitmap.test_mark _ _ _ (by decide)]
    split
    next here => exact ⟨fun _ => ⟨window.starts.next, here, (outstanding _).mpr (.inr rfl)⟩, fun _ => rfl⟩
    next elsewhere =>
      rw [valid.bits]
      constructor
      · rintro ⟨other, same, earlier⟩
        exact ⟨other, same, (outstanding other).mpr (.inl earlier)⟩
      · rintro ⟨other, same, kept⟩
        obtain earlier | rfl := (outstanding other).mp kept
        · exact ⟨other, same, earlier⟩
        · exact absurd same elsewhere

private theorem Valid.released (valid : window.Valid) (outstanding : window.Outstanding number) :
    Valid ⟨window.starts.release number, window.given, number :: window.released⟩ := by
  have ordered := valid.ordered
  have narrow := valid.narrow
  obtain ⟨first, shape, more, bounded, skipped, stops⟩ := Starts.advancePending_spec (window.starts.next - window.starts.firstPending)
    { window.starts with pending := window.starts.pending.clear number } (Nat.le_refl _) ordered
  have more : window.starts.firstPending ≤ first := more
  have release : window.starts.release number =
      { window.starts with pending := window.starts.pending.clear number, firstPending := first } := shape
  have remaining (other : Nat) :
      Outstanding ⟨window.starts.release number, window.given, number :: window.released⟩ other ↔ window.Outstanding other ∧ other ≠ number := by
    simp only [Outstanding, List.mem_cons, not_or]
    exact ⟨fun ⟨known, different, kept⟩ => ⟨⟨known, kept⟩, different⟩, fun ⟨⟨known, kept⟩, different⟩ => ⟨known, different, kept⟩⟩
  -- A cleared bit is no other outstanding number's.
  have bits (probe : Nat) : (window.starts.pending.clear number).test probe = true ↔
      ∃ other, other % replayWindow = probe % replayWindow ∧ window.Outstanding other ∧ other ≠ number := by
    rw [Bitmap.test_clear _ _ _ (by decide)]
    split
    next here =>
      refine ⟨nofun, ?_⟩
      rintro ⟨other, same, kept, different⟩
      refine absurd ?_ different
      exact valid.slot kept (valid.above _ outstanding) (valid.below _ outstanding.1) (same.trans (Eq.symm here))
    next elsewhere =>
      rw [valid.bits]
      constructor
      · rintro ⟨other, same, kept⟩
        refine ⟨other, same, kept, ?_⟩
        rintro rfl
        exact elsewhere same
      · rintro ⟨other, same, kept, -⟩
        exact ⟨other, same, kept⟩
  constructor
  case ordered => simpa only [release] using bounded
  case narrow => simp only [release]; omega
  case confirmed => simpa only [release] using valid.confirmed
  case word => simpa only [release] using valid.word
  case once => exact valid.once
  case below => simpa only [release] using valid.below
  case above =>
    intro other kept
    obtain ⟨earlier, different⟩ := (remaining other).mp kept
    simp only [release]
    by_contra passed
    have clear := skipped other (valid.above other earlier) (Nat.not_le.mp passed)
    exact Bool.eq_false_iff.mp clear ((bits other).mpr ⟨other, rfl, earlier, different⟩)
  case first =>
    intro later
    apply (remaining _).mpr
    simp only [release] at later ⊢
    obtain ⟨other, same, kept, different⟩ := (bits first).mp (stops later)
    have here := valid.slot kept more later same
    exact here ▸ ⟨kept, different⟩
  case bits =>
    intro probe
    simp only [remaining]
    simpa only [release] using bits probe

private theorem Valid.confirm (valid : window.Valid) (known : number ∈ window.given) :
    Valid { window with starts := { window.starts with confirmedNext := max window.starts.confirmedNext (number + 1) } } :=
  { valid with confirmed := Nat.max_le.mpr ⟨valid.confirmed, valid.below number known⟩ }

theorem Valid.step {event : Event} (valid : window.Valid ∧ window.Returned) (step : Step window event after) : after.Valid ∧ after.Returned := by
  obtain ⟨valid, returned⟩ := valid
  cases step with
  | allocated given => exact ⟨valid.allocated returned given, fun other back => List.mem_append_left _ (returned other back)⟩
  | refused => exact ⟨valid, returned⟩
  | release outstanding =>
    refine ⟨valid.released outstanding, ?_⟩
    intro other back
    rcases List.mem_cons.mp back with rfl | earlier
    · exact outstanding.1
    · exact returned other earlier
  | confirm known => exact ⟨valid.confirm known, returned⟩

theorem Valid.run {events : List Event} (run : Trace Step Window.initial events window) : window.Valid :=
  (run.invariant (fun _ window => window.Valid ∧ window.Returned) ⟨.initial, nofun⟩ Valid.step).1

theorem Valid.nothing (valid : window.Valid) : window.starts.firstPending = window.starts.next ↔ ∀ number, ¬window.Outstanding number := by
  constructor
  · intro empty number outstanding
    have low := valid.above number outstanding
    have high := valid.below number outstanding.1
    omega
  · intro none
    have ordered := valid.ordered
    by_contra different
    exact none _ (valid.first (Nat.lt_of_le_of_ne ordered different))

theorem Valid.refused (valid : window.Valid) {error : Error} (given : window.starts.allocate = .error error) :
    (error = .limit ∧ (window.starts.next = u64Max ∨
      replayWindow ≤ window.starts.next - window.starts.confirmedNext ∧ ∀ number, ¬window.Outstanding number)) ∨
    (error = .pending ∧ ∃ number, window.Outstanding number) := by
  have pending (some : window.starts.firstPending ≠ window.starts.next) : ∃ number, window.Outstanding number := by
    by_contra none
    exact some (valid.nothing.mpr (not_exists.mp none))
  unfold Starts.allocate at given
  split at given
  next last =>
    cases given
    exact .inl ⟨rfl, .inl last⟩
  next =>
    split at given
    next full =>
      split at given
      next empty =>
        cases given
        exact .inl ⟨rfl, .inr ⟨full, valid.nothing.mp empty⟩⟩
      next some =>
        cases given
        exact .inr ⟨rfl, pending some⟩
    next =>
      split at given
      next wide =>
        cases given
        refine .inr ⟨rfl, pending fun same => ?_⟩
        rw [same, Nat.sub_self] at wide
        exact absurd wide (by decide)
      next => cases given

/-- After any sequence of operations the bits are those of the outstanding numbers, the first
pending number is the least of them, no number was given out twice, and a refusal has its reason. -/
theorem starts_window {events : List Event} (run : Trace Step Window.initial events window) :
    (∀ number, window.starts.pending.test number = true ↔
      ∃ other, other % replayWindow = number % replayWindow ∧ window.starts.firstPending ≤ other ∧ other < window.starts.next ∧
        window.Outstanding other) ∧
    (∀ number, window.starts.firstPending ≤ number → number < window.starts.next →
      (window.starts.pending.test number = true ↔ window.Outstanding number)) ∧
    (IsLeast { number | window.Outstanding number } window.starts.firstPending ∨
      (window.starts.firstPending = window.starts.next ∧ ∀ number, ¬window.Outstanding number)) ∧
    window.starts.firstPending ≤ window.starts.next ∧ window.starts.confirmedNext ≤ window.starts.next ∧
    window.given.Nodup ∧ window.starts.next ≤ u64Max ∧
    (∀ number starts, window.starts.allocate = .ok (number, starts) →
      number ∉ window.given ∧ starts.next = window.starts.next + 1 ∧ starts.next ≤ u64Max) ∧
    ∀ error, window.starts.allocate = .error error →
      (error = .limit ∧ (window.starts.next = u64Max ∨
        replayWindow ≤ window.starts.next - window.starts.confirmedNext ∧ ∀ number, ¬window.Outstanding number)) ∨
      (error = .pending ∧ ∃ number, window.Outstanding number) := by
  have valid := Valid.run run
  refine ⟨?_, fun _ atLeast below => valid.bit atLeast below, ?_, valid.ordered, valid.confirmed, valid.once, valid.word, ?_, fun _ => valid.refused⟩
  · intro number
    rw [valid.bits]
    constructor
    · rintro ⟨other, same, outstanding⟩
      exact ⟨other, same, valid.above _ outstanding, valid.below _ outstanding.1, outstanding⟩
    · rintro ⟨other, same, -, -, outstanding⟩
      exact ⟨other, same, outstanding⟩
  · rcases Nat.eq_or_lt_of_le valid.ordered with empty | earlier
    · exact .inr ⟨empty, valid.nothing.mp empty⟩
    · exact .inl ⟨valid.first earlier, valid.above⟩
  · intro number starts given
    obtain ⟨room, -, -, rfl, rfl⟩ := Starts.allocate_ok.mp given
    exact ⟨valid.fresh, rfl, Nat.lt_of_le_of_ne valid.word room⟩

def sample : Window := ⟨Starts.release ⟨2, 0, 1, ((Bitmap.empty 4).mark 0).mark 1⟩ 0, [0, 1], [0]⟩

private theorem sample_run : Trace Step Window.initial [.allocate (.ok 0), .allocate (.ok 1), .confirm 0, .release 0] sample := by
  have first : Step Window.initial (.allocate (.ok 0)) ⟨⟨1, 0, 0, (Bitmap.empty 4).mark 0⟩, [0], []⟩ := .allocated rfl
  have second : Step ⟨⟨1, 0, 0, (Bitmap.empty 4).mark 0⟩, [0], []⟩ (.allocate (.ok 1))
      ⟨⟨2, 0, 0, ((Bitmap.empty 4).mark 0).mark 1⟩, [0, 1], []⟩ := .allocated rfl
  have third : Step ⟨⟨2, 0, 0, ((Bitmap.empty 4).mark 0).mark 1⟩, [0, 1], []⟩ (.confirm 0)
      ⟨⟨2, 0, 1, ((Bitmap.empty 4).mark 0).mark 1⟩, [0, 1], []⟩ := .confirm List.mem_cons_self
  have fourth : Step ⟨⟨2, 0, 1, ((Bitmap.empty 4).mark 0).mark 1⟩, [0, 1], []⟩ (.release 0) sample :=
    .release ⟨List.mem_cons_self, List.not_mem_nil⟩
  exact (((Trace.single first).snoc second).snoc third).snoc fourth

/-- Then the second is the one that is pending. -/
theorem starts_window_sample :
    Trace Step Window.initial [.allocate (.ok 0), .allocate (.ok 1), .confirm 0, .release 0] sample ∧
      sample.starts.firstPending = 1 ∧ sample.Outstanding 1 := by
  have first : sample.starts.firstPending = 1 := by decide +kernel
  have inside : 1 < sample.starts.next := by decide +kernel
  have set : sample.starts.pending.test 1 = true := by decide +kernel
  exact ⟨sample_run, first, ((starts_window sample_run).2.1 1 first.le inside).mp set⟩

end Window
end StogasVerifier.Channel
