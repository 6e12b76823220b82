import Mathlib
import StogasVerifier.Approvals.Keys

/-! What a key state knows depends on the decisions that were delivered, and not
on their order. -/

namespace StogasVerifier.Approvals

def VerifiedKeys.generation (keys : VerifiedKeys) : Nat := keys.document.generation

/-- Everything that one more decision can do to what was learned. -/
inductive Learned.Learns (learned : Learned) (keys : VerifiedKeys) : Except Error Unit → Learned → Prop where
  | older (order : keys.generation < learned.keys.generation) : Learns learned keys (.error .rollback) learned
  | newer (order : learned.keys.generation < keys.generation) : Learns learned keys (.ok ()) ⟨keys, false⟩
  | agrees (order : keys.generation = learned.keys.generation) (same : keys.digest = learned.keys.digest)
      (quiet : learned.conflicting = false) : Learns learned keys (.ok ()) ⟨keys, false⟩
  | disputed (order : keys.generation = learned.keys.generation) (same : keys.digest = learned.keys.digest)
      (known : learned.conflicting = true) : Learns learned keys (.error .equivocation) learned
  | contradicts (order : keys.generation = learned.keys.generation) (other : keys.digest ≠ learned.keys.digest) :
      Learns learned keys (.error .equivocation) { learned with conflicting := true }

namespace KeyState

variable {learned : Learned} {keys : VerifiedKeys} {deliveries : List VerifiedKeys}

theorem learn_some (learned : Learned) (keys : VerifiedKeys) :
    ∃ result after, learn (some learned) keys = (result, some after) ∧ learned.Learns keys result after := by
  unfold learn
  dsimp only
  by_cases contradicts : keys.document.generation = learned.keys.document.generation ∧ keys.digest ≠ learned.keys.digest
  · rw [if_pos contradicts]
    exact ⟨_, _, rfl, .contradicts contradicts.1 contradicts.2⟩
  · simp only [if_neg contradicts, Learned.check]
    by_cases older : keys.document.generation < learned.keys.document.generation
    · rw [if_pos older]
      exact ⟨_, _, rfl, .older older⟩
    · rw [if_neg older]
      by_cases newer : learned.keys.document.generation < keys.document.generation
      · rw [if_neg (by omega)]
        exact ⟨_, _, rfl, .newer newer⟩
      · have order : keys.document.generation = learned.keys.document.generation := by omega
        have same : keys.digest = learned.keys.digest := by
          by_contra other
          exact contradicts ⟨order, other⟩
        cases known : learned.conflicting with
        | true =>
          rw [if_pos ⟨order, .inl rfl⟩]
          exact ⟨_, _, rfl, .disputed order same known⟩
        | false =>
          rw [if_neg (by simp [same])]
          exact ⟨_, _, rfl, .agrees order same known⟩

theorem Learns.mono {result : Except Error Unit} {after : Learned} (learns : learned.Learns keys result after) :
    learned.keys.generation ≤ after.keys.generation := by
  cases learns with
  | older | disputed | contradicts => exact Nat.le_refl _
  | newer order => exact Nat.le_of_lt order
  | agrees order => exact Nat.le_of_eq order.symm

/-- Later states know at least as late a generation, and of the same one the same decision and its conflict. -/
def Advances (before after : KeyState) : Prop :=
  ∀ old, before = some old → ∃ new, after = some new ∧ old.keys.generation ≤ new.keys.generation ∧
    (new.keys.generation = old.keys.generation → new.keys.digest = old.keys.digest ∧ (old.conflicting = true → new.conflicting = true))

theorem Advances.refl (state : KeyState) : Advances state state :=
  fun old known => ⟨old, known, Nat.le_refl _, fun _ => ⟨rfl, id⟩⟩

theorem Advances.trans {first second third : KeyState} (begun : Advances first second) (rest : Advances second third) :
    Advances first third := by
  intro old known
  obtain ⟨middle, reached, order, kept⟩ := begun old known
  obtain ⟨new, final, later, keptLater⟩ := rest middle reached
  refine ⟨new, final, order.trans later, fun same => ?_⟩
  obtain ⟨digest, conflict⟩ := kept (by omega)
  obtain ⟨digestLater, conflictLater⟩ := keptLater (by omega)
  exact ⟨digestLater.trans digest, conflictLater ∘ conflict⟩

theorem learn_advances (state : KeyState) (keys : VerifiedKeys) : Advances state (state.learn keys).2 := by
  rintro old rfl
  obtain ⟨result, after, step, learns⟩ := learn_some old keys
  refine ⟨after, by rw [step], Learns.mono learns, fun level => ?_⟩
  cases learns with
  | older | disputed | contradicts => exact ⟨rfl, by simp⟩
  | newer order => exact absurd level (Nat.ne_of_gt order)
  | agrees _ same quiet => exact ⟨same, by simp [quiet]⟩

structure Knows (deliveries : List VerifiedKeys) (learned : Learned) : Prop where
  delivered : learned.keys ∈ deliveries
  newest : ∀ keys ∈ deliveries, keys.generation ≤ learned.keys.generation
  conflict : learned.conflicting = true ↔
    ∃ keys ∈ deliveries, keys.generation = learned.keys.generation ∧ keys.digest ≠ learned.keys.digest

theorem Knows.first (keys : VerifiedKeys) : Knows [keys] ⟨keys, false⟩ := by
  refine ⟨List.mem_singleton_self keys, ?_, ?_⟩
  · intro other member
    cases List.mem_singleton.mp member
    exact Nat.le_refl _
  · simp

private theorem mem_snoc {other : VerifiedKeys} (member : other ∈ deliveries ++ [keys]) : other ∈ deliveries ∨ other = keys :=
  (List.mem_append.mp member).imp_right List.mem_singleton.mp

/-- A decision that is not newer leaves the learned one, which it may contradict. -/
theorem Knows.keep (knows : Knows deliveries learned) {conflicting : Bool} (order : keys.generation ≤ learned.keys.generation)
    (conflict : conflicting = true ↔ learned.conflicting = true ∨
      (keys.generation = learned.keys.generation ∧ keys.digest ≠ learned.keys.digest)) :
    Knows (deliveries ++ [keys]) { learned with conflicting } := by
  refine ⟨List.mem_append_left _ knows.delivered, ?_, conflict.trans ?_⟩
  · intro other member
    rcases mem_snoc member with earlier | rfl
    · exact knows.newest other earlier
    · exact order
  · rw [knows.conflict]
    constructor
    · intro known
      rcases known with ⟨other, member, level, differs⟩ | ⟨level, differs⟩
      · exact ⟨other, List.mem_append_left _ member, level, differs⟩
      · exact ⟨keys, List.mem_append_right _ (List.mem_singleton_self keys), level, differs⟩
    · intro found
      obtain ⟨other, member, level, differs⟩ := found
      rcases mem_snoc member with earlier | rfl
      · exact .inl ⟨other, earlier, level, differs⟩
      · exact .inr ⟨level, differs⟩

theorem Knows.replace (knows : Knows deliveries learned) (order : learned.keys.generation ≤ keys.generation)
    (again : learned.keys.generation = keys.generation → learned.conflicting = false ∧ keys.digest = learned.keys.digest) :
    Knows (deliveries ++ [keys]) ⟨keys, false⟩ := by
  refine ⟨List.mem_append_right _ (List.mem_singleton_self keys), ?_, nofun, ?_⟩
  · intro other member
    rcases mem_snoc member with earlier | rfl
    · exact (knows.newest other earlier).trans order
    · exact Nat.le_refl _
  · intro found
    obtain ⟨other, member, level, differs⟩ := found
    rcases mem_snoc member with earlier | rfl
    · have same : learned.keys.generation = keys.generation := Nat.le_antisymm order (level ▸ knows.newest other earlier)
      obtain ⟨quiet, digest⟩ := again same
      have known := knows.conflict.mpr ⟨other, earlier, level.trans same.symm, digest ▸ differs⟩
      rw [quiet] at known
      cases known
    · exact absurd rfl differs

theorem Knows.step (knows : Knows deliveries learned) {result : Except Error Unit} {after : Learned}
    (learns : learned.Learns keys result after) : Knows (deliveries ++ [keys]) after := by
  cases learns with
  | older order =>
    refine knows.keep (Nat.le_of_lt order) ⟨.inl, fun known => known.resolve_right ?_⟩
    exact fun differs => absurd differs.1 (Nat.ne_of_lt order)
  | newer order => exact knows.replace (Nat.le_of_lt order) fun same => absurd same (Nat.ne_of_lt order)
  | agrees order same quiet => exact knows.replace (Nat.le_of_eq order.symm) fun _ => ⟨quiet, same⟩
  | disputed order same known => exact knows.keep (Nat.le_of_eq order) ⟨.inl, fun _ => known⟩
  | contradicts order differs => exact knows.keep (Nat.le_of_eq order) ⟨fun _ => .inr ⟨order, differs⟩, fun _ => rfl⟩

theorem learnAll_snoc (state : KeyState) (deliveries : List VerifiedKeys) (keys : VerifiedKeys) :
    learnAll state (deliveries ++ [keys]) = ((learnAll state deliveries).learn keys).2 := by
  rw [learnAll, List.foldl_append]
  rfl

theorem learnAll_knows {deliveries : List VerifiedKeys} (some_ : deliveries ≠ []) :
    ∃ learned, learnAll none deliveries = some learned ∧ Knows deliveries learned := by
  induction deliveries using List.reverseRecOn with
  | nil => exact absurd rfl some_
  | append_singleton deliveries keys ih =>
    by_cases empty : deliveries = []
    · subst empty
      exact ⟨_, rfl, .first keys⟩
    · obtain ⟨learned, before, knows⟩ := ih empty
      obtain ⟨result, after, step, learns⟩ := learn_some learned keys
      refine ⟨after, ?_, knows.step learns⟩
      rw [learnAll_snoc, before, step]

theorem Knows.conflicting_iff (knows : Knows deliveries learned) : learned.conflicting = true ↔
    ∃ first ∈ deliveries, ∃ second ∈ deliveries, first.generation = learned.keys.generation ∧
      second.generation = learned.keys.generation ∧ first.digest ≠ second.digest := by
  rw [knows.conflict]
  constructor
  · intro found
    obtain ⟨other, member, level, differs⟩ := found
    exact ⟨other, member, learned.keys, knows.delivered, level, rfl, differs⟩
  · intro found
    obtain ⟨first, one, second, two, level, same, differ⟩ := found
    by_cases agrees : first.digest = learned.keys.digest
    · exact ⟨second, two, same, fun equal => differ (agrees.trans equal.symm)⟩
    · exact ⟨first, one, level, agrees⟩

theorem conflict_stays {learned : Learned} (known : learned.conflicting = true) {deliveries : List VerifiedKeys}
    (earlier : ∀ keys ∈ deliveries, keys.generation ≤ learned.keys.generation) :
    ∃ after, learnAll (some learned) deliveries = some after ∧ after.conflicting = true ∧
      after.keys.generation = learned.keys.generation := by
  induction deliveries using List.reverseRecOn with
  | nil => exact ⟨learned, rfl, known, rfl⟩
  | append_singleton deliveries keys ih =>
    obtain ⟨before, reached, conflicting, level⟩ := ih fun keys member => earlier keys (List.mem_append_left _ member)
    have order := earlier keys (List.mem_append_right _ (List.mem_singleton_self keys))
    obtain ⟨result, after, step, learns⟩ := learn_some before keys
    refine ⟨after, by rw [learnAll_snoc, reached, step], ?_⟩
    cases learns with
    | older | disputed => exact ⟨conflicting, level⟩
    | newer later => omega
    | agrees _ _ quiet =>
      rw [conflicting] at quiet
      cases quiet
    | contradicts => exact ⟨rfl, level⟩

/-- What is learned is the latest of the delivered decisions, in whichever order
and however often they come, and whether they conflict. -/
theorem learn_order {deliveries : List VerifiedKeys} (some_ : deliveries ≠ []) :
    (∃ learned, learnAll none deliveries = some learned ∧
      IsGreatest {generation | ∃ keys ∈ deliveries, keys.generation = generation} learned.keys.generation ∧
      (learned.conflicting = true ↔ ∃ first ∈ deliveries, ∃ second ∈ deliveries,
        first.generation = learned.keys.generation ∧ second.generation = learned.keys.generation ∧ first.digest ≠ second.digest) ∧
      (∀ others, (∀ keys, keys ∈ others ↔ keys ∈ deliveries) → ∃ other, learnAll none others = some other ∧
        other.keys.generation = learned.keys.generation ∧ other.conflicting = learned.conflicting)) ∧
    (∀ (learned : Learned) (keys : VerifiedKeys), ∃ after, (learn (some learned) keys).2 = some after ∧
      learned.keys.generation ≤ after.keys.generation) ∧
    ∀ learned : Learned, learned.conflicting = true →
      (∀ others : List VerifiedKeys, (∀ keys ∈ others, keys.generation ≤ learned.keys.generation) →
        ∀ manifest, (learnAll (some learned) others).requireCurrent manifest = .error .equivocation) ∧
      ∀ keys : VerifiedKeys, learned.keys.generation < keys.generation →
        learn (some learned) keys = (.ok (), some ⟨keys, false⟩) := by
  refine ⟨?_, ?_, ?_⟩
  · obtain ⟨learned, reached, knows⟩ := learnAll_knows some_
    refine ⟨learned, reached, ⟨⟨learned.keys, knows.delivered, rfl⟩, ?_⟩, knows.conflicting_iff, ?_⟩
    · intro generation found
      obtain ⟨keys, member, rfl⟩ := found
      exact knows.newest keys member
    · intro others same
      have filled : others ≠ [] := List.ne_nil_of_mem ((same _).mpr knows.delivered)
      obtain ⟨other, also, known⟩ := learnAll_knows filled
      have level : other.keys.generation = learned.keys.generation :=
        Nat.le_antisymm (knows.newest _ ((same _).mp known.delivered)) (known.newest _ ((same _).mpr knows.delivered))
      refine ⟨other, also, level, Bool.eq_iff_iff.mpr ?_⟩
      rw [known.conflicting_iff, knows.conflicting_iff]
      simp only [same, level]
  · intro learned keys
    obtain ⟨result, after, step, learns⟩ := learn_some learned keys
    exact ⟨after, by rw [step], Learns.mono learns⟩
  · intro learned known
    refine ⟨?_, ?_⟩
    · intro others earlier manifest
      obtain ⟨after, reached, conflicting, -⟩ := conflict_stays known earlier
      rw [reached, requireCurrent]
      simp only [conflicting, if_true]
    · intro keys later
      obtain ⟨result, after, step, learns⟩ := learn_some learned keys
      rw [step]
      cases learns with
      | newer => rfl
      | older order | agrees order | disputed order | contradicts order => omega

def sampleKeys (generation : Nat) (digest : String) : VerifiedKeys :=
  ⟨⟨"stogas.keys.v1", .production, generation, "2100-01-01T00:00:00Z", ⟨"key", "public", "log"⟩, []⟩, digest⟩

theorem learn_order_sample : ∃ learned, learnAll none [sampleKeys 1 "a", sampleKeys 2 "b", sampleKeys 2 "c"] = some learned ∧
    learned.keys.generation = 2 ∧ learned.conflicting = true := by
  obtain ⟨⟨learned, reached, ⟨⟨keys, member, level⟩, newest⟩, conflict, -⟩, -⟩ :=
    learn_order (by decide : [sampleKeys 1 "a", sampleKeys 2 "b", sampleKeys 2 "c"] ≠ [])
  have two : learned.keys.generation = 2 := by
    refine Nat.le_antisymm ?_ (newest ⟨sampleKeys 2 "b", by simp, rfl⟩)
    rw [← level]
    fin_cases member <;> decide
  exact ⟨learned, reached, two, conflict.mpr ⟨sampleKeys 2 "b", by simp, sampleKeys 2 "c", by simp, two.symm, two.symm, by decide⟩⟩

end KeyState
end StogasVerifier.Approvals
