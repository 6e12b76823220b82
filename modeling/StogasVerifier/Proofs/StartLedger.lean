import StogasVerifier.Proofs.ClientRuns

/-! The client's window of request numbers. A number is given out once; the
pending ones span at most 256 numbers, and so do those after the last one that
a response confirmed. -/

namespace StogasVerifier.Channel
open Std Lib

/-- The numbers given to requests, the requests whose `PendingStart` is alive and
those still waiting for a first response, against the client's window. -/
structure Ledger (starts : Starts) (numbers owners unread : List Nat) : Prop where
  ordered : starts.firstPending ≤ starts.next
  narrow : starts.next ≤ starts.firstPending + replayWindow
  confirmed : starts.confirmedNext ≤ starts.next
  word : starts.next ≤ u64Max
  increasing : numbers.Pairwise (· < ·)
  below : ∀ number ∈ numbers, number < starts.next
  near : ∀ number ∈ numbers, number < starts.confirmedNext + replayWindow
  once : owners.Nodup
  owned : ∀ number ∈ owners, number ∈ numbers ∧ starts.firstPending ≤ number ∧ starts.pending.test number = true
  single : unread.Nodup
  waiting : ∀ number ∈ unread, number ∈ owners

namespace Ledger

variable {starts after : Starts} {numbers owners unread : List Nat} {number : Nat}

theorem default : Ledger Starts.default [] [] [] := by
  refine ⟨Nat.le_refl _, Nat.zero_le _, Nat.le_refl _, Nat.zero_le _, .nil, ?_, ?_, .nil, ?_, .nil, ?_⟩ <;> nofun

private theorem slot_unique {first second low : Nat} (lowFirst : low ≤ first) (lowSecond : low ≤ second)
    (highFirst : first < low + replayWindow) (highSecond : second < low + replayWindow)
    (same : first % (64 * 4) = second % (64 * 4)) : first = second := by
  simp only [replayWindow, maxSkippedKeys] at *
  omega

private theorem marked (ledger : Ledger starts numbers owners unread) (allocated : starts.allocate = .ok (number, after)) :
    number = starts.next ∧ after.firstPending = starts.firstPending ∧ after.confirmedNext = starts.confirmedNext ∧
      after.next = starts.next + 1 ∧ after.next ≤ u64Max ∧ after.next ≤ after.firstPending + replayWindow ∧
      number < after.confirmedNext + replayWindow ∧ after.pending.test number = true ∧
      ∀ other ∈ owners, after.pending.test other = true := by
  obtain ⟨room, confirmed, pending, rfl, rfl⟩ := Starts.allocate_ok.mp allocated
  have word := ledger.word
  have ordered := ledger.ordered
  have behind := ledger.confirmed
  refine ⟨rfl, rfl, rfl, rfl, ?_, ?_, ?_, ?_, ?_⟩
  · simp only
    omega
  · simp only
    omega
  · simp only
    omega
  · simp [Bitmap.test_mark]
  · intro other member
    rw [Bitmap.test_mark _ _ _ (by decide), (ledger.owned other member).2.2, ite_self]

theorem allocate (ledger : Ledger starts numbers owners unread) (allocated : starts.allocate = .ok (number, after)) :
    Ledger after (numbers ++ [number]) (number :: owners) (number :: unread) := by
  obtain ⟨rfl, first, confirmed, next, word, narrow, near, here, others⟩ := ledger.marked allocated
  have ordered := ledger.ordered
  have behind := ledger.confirmed
  have unused : starts.next ∉ owners := fun member => Nat.lt_irrefl _ (ledger.below _ (ledger.owned _ member).1)
  refine ⟨by omega, narrow, by omega, word, ?_, ?_, ?_, List.nodup_cons.mpr ⟨unused, ledger.once⟩, ?_,
    List.nodup_cons.mpr ⟨fun member => unused (ledger.waiting _ member), ledger.single⟩, ?_⟩
  · apply List.pairwise_append.mpr
    refine ⟨ledger.increasing, List.pairwise_singleton _ _, ?_⟩
    intro earlier member last same
    rw [List.mem_singleton.mp same]
    exact ledger.below earlier member
  · intro other member
    rcases List.mem_append.mp member with earlier | last
    · have := ledger.below other earlier
      omega
    · rw [List.mem_singleton.mp last]
      omega
  · intro other member
    rcases List.mem_append.mp member with earlier | last
    · rw [confirmed]
      exact ledger.near other earlier
    · rw [List.mem_singleton.mp last]
      exact near
  · intro other member
    rcases List.mem_cons.mp member with rfl | earlier
    · exact ⟨by simp, by omega, here⟩
    · obtain ⟨known, low, -⟩ := ledger.owned other earlier
      exact ⟨List.mem_append_left _ known, by omega, others other earlier⟩
  · intro other member
    rcases List.mem_cons.mp member with rfl | earlier
    · exact List.mem_cons_self
    · exact List.mem_cons_of_mem _ (ledger.waiting other earlier)

private theorem released (number : Nat) (ordered : starts.firstPending ≤ starts.next) (narrow : starts.next ≤ starts.firstPending + replayWindow)
    (low : starts.firstPending ≤ number) (below : number < starts.next) :
    starts.firstPending ≤ (starts.release number).firstPending ∧ (starts.release number).firstPending ≤ starts.next ∧
      ∀ other, starts.firstPending ≤ other → other < starts.next → starts.pending.test other = true → other ≠ number →
        (starts.release number).firstPending ≤ other ∧ (starts.release number).pending.test other = true := by
  obtain ⟨first, shape, more, bounded, skipped, -⟩ := Starts.advancePending_spec (starts.next - starts.firstPending)
    { starts with pending := starts.pending.clear number } (Nat.le_refl _) ordered
  have release : starts.release number = { starts with pending := starts.pending.clear number, firstPending := first } := shape
  rw [release]
  refine ⟨more, bounded, fun other atLeast inside set different => ?_⟩
  have kept : (starts.pending.clear number).test other = true := by
    rw [Bitmap.test_clear _ _ _ (by decide), if_neg]
    · exact set
    · intro slot
      exact different (slot_unique atLeast low (by omega) (by omega) slot.symm)
  refine ⟨?_, kept⟩
  by_contra passed
  rw [skipped other atLeast (Nat.not_le.mp passed)] at kept
  cases kept

theorem fail (ledger : Ledger starts numbers owners unread) (allocated : starts.allocate = .ok (number, after)) :
    Ledger (after.release number) numbers owners unread := by
  obtain ⟨rfl, first, confirmed, next, word, narrow, near, here, others⟩ := ledger.marked allocated
  have ordered := ledger.ordered
  have behind := ledger.confirmed
  obtain ⟨more, bounded, kept⟩ := released starts.next (show after.firstPending ≤ after.next by omega) narrow
    (by omega) (by omega)
  refine ⟨by rw [Starts.release_next]; exact bounded, by rw [Starts.release_next]; omega, ?_, by rw [Starts.release_next]; exact word,
    ledger.increasing, ?_, ?_, ledger.once, ?_, ledger.single, ledger.waiting⟩
  · rw [Starts.release_next, Starts.release_confirmedNext]
    omega
  · intro other member
    have := ledger.below other member
    rw [Starts.release_next]
    omega
  · intro other member
    rw [Starts.release_confirmedNext, confirmed]
    exact ledger.near other member
  · intro other member
    obtain ⟨known, low, -⟩ := ledger.owned other member
    have below := ledger.below other known
    exact ⟨known, kept other (by omega) (by omega) (others other member) (by omega)⟩

/-- A `PendingStart` is dropped. -/
theorem drop (ledger : Ledger starts numbers owners unread) (member : number ∈ owners) :
    Ledger (starts.release number) numbers (owners.erase number) (unread.erase number) := by
  obtain ⟨known, low, -⟩ := ledger.owned number member
  have narrow := ledger.narrow
  obtain ⟨more, bounded, kept⟩ := released number ledger.ordered narrow low (ledger.below number known)
  refine ⟨by rw [Starts.release_next]; exact bounded, by rw [Starts.release_next]; omega, ?_, by rw [Starts.release_next]; exact ledger.word,
    ledger.increasing, ?_, ?_, ledger.once.erase _, ?_, ledger.single.erase _, ?_⟩
  · rw [Starts.release_next, Starts.release_confirmedNext]
    exact ledger.confirmed
  · rw [Starts.release_next]
    exact ledger.below
  · rw [Starts.release_confirmedNext]
    exact ledger.near
  · intro other inside
    obtain ⟨different, earlier⟩ := ledger.once.mem_erase_iff.mp inside
    obtain ⟨present, atLeast, set⟩ := ledger.owned other earlier
    exact ⟨present, kept other atLeast (ledger.below other present) set different⟩
  · intro other inside
    obtain ⟨different, earlier⟩ := ledger.single.mem_erase_iff.mp inside
    exact ledger.once.mem_erase_iff.mpr ⟨different, ledger.waiting other earlier⟩

theorem take (ledger : Ledger starts numbers owners unread) (number : Nat) :
    Ledger starts numbers owners (unread.erase number) :=
  { ledger with
    single := ledger.single.erase _
    waiting := fun other inside => ledger.waiting other (List.mem_of_mem_erase inside) }

theorem confirm (ledger : Ledger starts numbers owners unread) (member : number ∈ owners) :
    Ledger { starts with confirmedNext := max starts.confirmedNext (number + 1) } numbers owners unread := by
  have below := ledger.below number (ledger.owned number member).1
  have confirmed := ledger.confirmed
  refine { ledger with confirmed := ?_, near := ?_ }
  · simp only
    omega
  · intro other inside
    have near := ledger.near other inside
    simp only
    omega

end Ledger
end StogasVerifier.Channel
