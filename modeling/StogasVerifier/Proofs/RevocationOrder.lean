import StogasVerifier.Evidence.Revocations

/-! What an issuer retains of the CRLs that were delivered for it, over whole histories
of observed evidence. -/

namespace StogasVerifier.Evidence
open Lib
open Std (TreeMap)
open Sigstore (Bytes)

namespace Issuer

def learnAll (issuer : Issuer) (crls : List Crl) : Issuer := crls.foldl (fun issuer crl => (issuer.learn crl).2) issuer

def unlearned (certificate : Bytes) : Issuer := { certificate, latest := none, conflicting := false }

structure Retains (old : Crl) (stale : Prop) (issuer : Issuer) : Prop where
  newer : ∃ crl, issuer.latest = some crl ∧ old.number ≤ crl.number ∧
    old.validity.notBeforeUnixMs ≤ crl.validity.notBeforeUnixMs ∧ (stale → crl = old)

theorem learn_cases (issuer : Issuer) (crl : Crl) :
    (issuer.latest = none ∧ (issuer.learn crl).2 = { issuer with latest := some crl, conflicting := false }) ∨
      ∃ old, issuer.latest = some old ∧
        ((crl.number < old.number ∧ (issuer.learn crl).2 = issuer) ∨
          (crl.number = old.number ∧
            (issuer.learn crl).2 = { issuer with conflicting := issuer.conflicting || crl.contents ≠ old.contents }) ∨
          (old.number < crl.number ∧ crl.validity.notBeforeUnixMs < old.validity.notBeforeUnixMs ∧ (issuer.learn crl).2 = issuer) ∨
          (old.number < crl.number ∧ old.validity.notBeforeUnixMs ≤ crl.validity.notBeforeUnixMs ∧
            (issuer.learn crl).2 = { issuer with latest := some crl, conflicting := false })) := by
  cases known : issuer.latest with
  | none => exact .inl ⟨rfl, by simp [learn, known]⟩
  | some old =>
    refine .inr ⟨old, rfl, ?_⟩
    by_cases lower : crl.number < old.number
    · exact .inl ⟨lower, by simp [learn, known, lower]⟩
    by_cases same : crl.number = old.number
    · exact .inr (.inl ⟨same, by simp [learn, known, same]⟩)
    have higher : old.number < crl.number := by omega
    by_cases dated : crl.validity.notBeforeUnixMs < old.validity.notBeforeUnixMs
    · exact .inr (.inr (.inl ⟨higher, dated, by simp [learn, known, lower, same, dated]⟩))
    · exact .inr (.inr (.inr ⟨higher, not_lt.mp dated, by simp [learn, known, lower, same, dated]⟩))

variable {issuer : Issuer}

theorem learn_latest {crl : Crl} (known : issuer.latest = some crl) :
    issuer.learn crl = (rejectIf issuer.conflicting .crlOrder, issuer) := by
  obtain ⟨certificate, latest, conflicting⟩ := issuer
  simp_all [learn]

theorem retains_learn {old : Crl} (known : issuer.latest = some old) (crl : Crl) :
    Retains old (crl.number ≤ old.number) (issuer.learn crl).2 := by
  rcases learn_cases issuer crl with ⟨absent, -⟩ | ⟨other, found, change⟩
  · rw [known] at absent
    cases absent
  obtain rfl : other = old := Option.some.inj (found.symm.trans known)
  rcases change with ⟨-, kept⟩ | ⟨-, kept⟩ | ⟨-, -, kept⟩ | ⟨higher, later, kept⟩
  · exact ⟨other, by rw [kept, known], le_rfl, le_rfl, fun _ => rfl⟩
  · exact ⟨other, by rw [kept]; exact known, le_rfl, le_rfl, fun _ => rfl⟩
  · exact ⟨other, by rw [kept, known], le_rfl, le_rfl, fun _ => rfl⟩
  · exact ⟨crl, by rw [kept], higher.le, later, fun stale => absurd stale (not_le.mpr higher)⟩

theorem retains_learnAll {old : Crl} (known : issuer.latest = some old) (crls : List Crl) :
    Retains old (∀ crl ∈ crls, crl.number ≤ old.number) (issuer.learnAll crls) := by
  induction crls generalizing issuer old with
  | nil => exact ⟨old, known, le_rfl, le_rfl, fun _ => rfl⟩
  | cons crl crls ih =>
    obtain ⟨next, found, higher, later, same⟩ := (retains_learn known crl).newer
    obtain ⟨last, final, above, after, last_same⟩ := (ih found).newer
    refine ⟨last, final, higher.trans above, later.trans after, fun stale => ?_⟩
    obtain rfl := same (stale crl List.mem_cons_self)
    exact last_same fun other member => stale other (List.mem_cons_of_mem _ member)

def Dated (crls : List Crl) : Prop :=
  ∀ first ∈ crls, ∀ second ∈ crls, first.number < second.number →
    first.validity.notBeforeUnixMs ≤ second.validity.notBeforeUnixMs

def Disputed (crls : List Crl) (number : Nat) : Prop :=
  ∃ first ∈ crls, ∃ second ∈ crls, first.number = number ∧ second.number = number ∧ first.contents ≠ second.contents

structure Settles (crls : List Crl) (issuer : Issuer) (top : Crl) : Prop where
  retained : issuer.latest = some top
  delivered : top ∈ crls
  greatest : ∀ crl ∈ crls, crl.number ≤ top.number
  conflict : issuer.conflicting = true ↔ ∃ crl ∈ crls, crl.number = top.number ∧ crl.contents ≠ top.contents

theorem Settles.disputed {crls : List Crl} {top : Crl} (settles : Settles crls issuer top) :
    issuer.conflicting = true ↔ Disputed crls top.number := by
  rw [settles.conflict]
  constructor
  · rintro ⟨crl, member, number, contents⟩
    exact ⟨crl, member, top, settles.delivered, number, rfl, contents⟩
  · rintro ⟨first, firstMember, second, secondMember, firstNumber, secondNumber, differ⟩
    by_cases same : first.contents = top.contents
    · exact ⟨second, secondMember, secondNumber, fun other => differ (same.trans other.symm)⟩
    · exact ⟨first, firstMember, firstNumber, same⟩

theorem Settles.learn {crls : List Crl} {top crl : Crl} (settles : Settles crls issuer top)
    (dated : Dated (crls ++ [crl])) : ∃ next, Settles (crls ++ [crl]) (issuer.learn crl).2 next := by
  rcases learn_cases issuer crl with ⟨absent, -⟩ | ⟨other, found, change⟩
  · rw [settles.retained] at absent
    cases absent
  obtain rfl : other = top := Option.some.inj (found.symm.trans settles.retained)
  have below : ∀ {top' : Crl}, top'.number = other.number → crl.number ≤ other.number →
      ∀ later ∈ crls ++ [crl], later.number ≤ top'.number := by
    intro top' same bound later member
    rw [same]
    rcases List.mem_append.mp member with earlier | last
    · exact settles.greatest later earlier
    · rw [List.mem_singleton.mp last]
      exact bound
  rcases change with ⟨lower, kept⟩ | ⟨same, kept⟩ | ⟨higher, backdated, -⟩ | ⟨higher, -, kept⟩
  · refine ⟨other, by rw [kept, settles.retained], List.mem_append_left _ settles.delivered, below rfl lower.le, ?_⟩
    rw [kept, settles.conflict]
    simp [lower.ne]
  · refine ⟨other, by rw [kept]; exact settles.retained, List.mem_append_left _ settles.delivered, below rfl same.le, ?_⟩
    rw [kept]
    simp [settles.conflict, same, or_and_right, exists_or]
  · have first := List.mem_append_left [crl] settles.delivered
    exact absurd (dated other first crl (by simp) higher) (not_le.mpr backdated)
  · refine ⟨crl, by rw [kept], by simp, ?_, ?_⟩
    · intro later member
      rcases List.mem_append.mp member with earlier | last
      · exact (settles.greatest later earlier).trans higher.le
      · rw [List.mem_singleton.mp last]
    · rw [kept]
      simp only [Bool.false_eq_true, List.mem_append, List.mem_singleton, false_iff]
      rintro ⟨later, earlier | rfl, number, contents⟩
      · have bound := settles.greatest later earlier
        omega
      · exact contents rfl

theorem settles_learnAll (certificate : Bytes) {crls : List Crl} (dated : Dated crls) (nonempty : crls ≠ []) :
    ∃ top, Settles crls ((unlearned certificate).learnAll crls) top := by
  induction crls using List.reverseRecOn with
  | nil => exact absurd rfl nonempty
  | append_singleton crls crl ih =>
    rw [learnAll, List.foldl_append, List.foldl_cons, List.foldl_nil]
    change ∃ top, Settles _ (((unlearned certificate).learnAll crls).learn crl).2 top
    cases crls with
    | nil => exact ⟨crl, rfl, by simp, by simp, by simp [learnAll, unlearned, learn]⟩
    | cons first crls =>
      have earlier : Dated (first :: crls) := fun one oneMember two twoMember =>
        dated one (List.mem_append_left _ oneMember) two (List.mem_append_left _ twoMember)
      obtain ⟨top, settles⟩ := ih earlier (List.cons_ne_nil _ _)
      exact settles.learn dated

end Issuer

/-- How one issuer changes when CRLs are delivered for it. A root may become known before
its first CRL. -/
inductive Learns : Option Issuer → List Crl → Option Issuer → Prop where
  | known (issuer : Issuer) (crls : List Crl) : Learns (some issuer) crls (some (issuer.learnAll crls))
  | unknown : Learns none [] none
  | added (certificate : Bytes) (crls : List Crl) : Learns none crls (some ((Issuer.unlearned certificate).learnAll crls))

theorem Learns.refl (issuer : Option Issuer) : Learns issuer [] issuer := by
  cases issuer with
  | none => exact .unknown
  | some issuer => exact .known issuer []

theorem Learns.trans {first middle last : Option Issuer} {earlier later : List Crl} (begun : Learns first earlier middle)
    (rest : Learns middle later last) : Learns first (earlier ++ later) last := by
  cases begun with
  | known issuer =>
    cases rest with
    | known =>
      rw [Issuer.learnAll, Issuer.learnAll, ← List.foldl_append]
      exact .known issuer _
  | unknown => exact rest
  | added certificate =>
    cases rest with
    | known =>
      rw [Issuer.learnAll, Issuer.learnAll, ← List.foldl_append]
      exact .added certificate _

/-- The later issuer is the same root. It retains as new a CRL, and of the same number the same
CRL and its conflict. -/
structure Issuer.Advances (issuer next : Issuer) : Prop where
  certificate : next.certificate = issuer.certificate
  latest : ∀ crl, issuer.latest = some crl → ∃ last, next.latest = some last ∧ crl.number ≤ last.number ∧
    crl.validity.notBeforeUnixMs ≤ last.validity.notBeforeUnixMs ∧
    (last.number = crl.number → last = crl ∧ (issuer.conflicting = true → next.conflicting = true))

theorem Issuer.Advances.refl (issuer : Issuer) : issuer.Advances issuer :=
  ⟨rfl, fun crl known => ⟨crl, known, le_rfl, le_rfl, fun _ => ⟨rfl, id⟩⟩⟩

theorem Issuer.Advances.trans {first second third : Issuer} (begun : first.Advances second) (rest : second.Advances third) :
    first.Advances third := by
  refine ⟨rest.certificate.trans begun.certificate, fun crl known => ?_⟩
  obtain ⟨middle, reached, higher, later, kept⟩ := begun.latest crl known
  obtain ⟨last, final, above, after, keptLater⟩ := rest.latest middle reached
  refine ⟨last, final, higher.trans above, later.trans after, fun same => ?_⟩
  obtain ⟨rfl, conflict⟩ := kept (by omega)
  obtain ⟨rfl, conflictLater⟩ := keptLater (by omega)
  exact ⟨rfl, conflictLater ∘ conflict⟩

theorem Issuer.learn_advances (issuer : Issuer) (crl : Crl) : issuer.Advances (issuer.learn crl).2 := by
  rcases learn_cases issuer crl with ⟨absent, kept⟩ | ⟨old, known, ⟨-, kept⟩ | ⟨-, kept⟩ | ⟨-, -, kept⟩ | ⟨higher, later, kept⟩⟩
  all_goals rw [kept]
  · exact ⟨rfl, fun crl known => by simp [absent] at known⟩
  · exact .refl issuer
  · exact ⟨rfl, fun crl found => ⟨crl, found, le_rfl, le_rfl, fun _ => ⟨rfl, fun conflict => by simp [conflict]⟩⟩⟩
  · exact .refl issuer
  · refine ⟨rfl, fun other found => ?_⟩
    obtain rfl := Option.some.inj (known.symm.trans found)
    exact ⟨crl, rfl, higher.le, later, fun same => absurd same higher.ne'⟩

theorem Issuer.learnAll_advances (issuer : Issuer) (crls : List Crl) : issuer.Advances (issuer.learnAll crls) := by
  induction crls generalizing issuer with
  | nil => exact .refl issuer
  | cons crl crls ih => exact (issuer.learn_advances crl).trans (ih _)

def Revocations.Advances (before after : Revocations) : Prop :=
  ∀ (id : IssuerId) (issuer : Issuer), before[id]? = some issuer → ∃ next, after[id]? = some next ∧ issuer.Advances next

theorem Revocations.Advances.refl (issuers : Revocations) : issuers.Advances issuers :=
  fun _ issuer known => ⟨issuer, known, .refl issuer⟩

namespace Revocations
variable (L : Libraries)

def delivered (issuers : Revocations) (der : Bytes) (now : Int) : Option (IssuerId × Crl) :=
  match retaining issuers der with
  | some (id, issuer) => issuer.latest.map fun crl => (id, crl)
  | none => authenticating L issuers der now

def rowDelivery (now : Int) (issuers : Revocations) (row : L.Value) : Option (IssuerId × Crl) :=
  match L.rowDer row with
  | .error _ => none
  | .ok der => delivered L issuers der now

def rowDeliveries (now : Int) : Except Error Unit × Revocations → List L.Value → List (IssuerId × Crl)
  | _, [] => []
  | progress, row :: rows =>
    (rowDelivery L now progress.2 row).toList ++ rowDeliveries now (observeRow L now progress row) rows

def bodyDeliveries (issuers : Revocations) (body : L.Value) (now : Int) : List (IssuerId × Crl) :=
  if maxVendorCollateral < (rows L body).length then []
  else rowDeliveries L now (.ok (), (rowsOfType L "ark" body).foldl (observeRoot L) issuers) (rowsOfType L "crl" body)

abbrev History := List (L.Value × Int)

variable {L}

def observeAll (issuers : Revocations) (history : History L) : Revocations :=
  history.foldl (fun issuers observed => (observe L issuers observed.1 observed.2).2) issuers

def deliveries : Revocations → History L → List (IssuerId × Crl)
  | _, [] => []
  | issuers, (body, now) :: history => bodyDeliveries L issuers body now ++ deliveries (observe L issuers body now).2 history

def only (id : IssuerId) (deliveries : List (IssuerId × Crl)) : List Crl :=
  deliveries.filterMap fun delivery => if delivery.1 = id then some delivery.2 else none

def deliveredTo (issuers : Revocations) (history : History L) (id : IssuerId) : List Crl := only id (deliveries issuers history)

private theorem only_append (id : IssuerId) (earlier later : List (IssuerId × Crl)) :
    only id (earlier ++ later) = only id earlier ++ only id later :=
  List.filterMap_append

private theorem retaining_found {issuers : Revocations} {der : Bytes} {id : IssuerId} {issuer : Issuer}
    (found : retaining issuers der = some (id, issuer)) :
    issuers[id]? = some issuer ∧ ∃ crl, issuer.latest = some crl := by
  refine ⟨TreeMap.mem_toList_iff_getElem?_eq_some.mp (List.mem_of_find?_eq_some found), ?_⟩
  have held := List.find?_some found
  exact Option.isSome_iff_exists.mp (Option.isSome_of_any held)

private theorem authenticating_found {issuers : Revocations} {der : Bytes} {now : Int} {id : IssuerId} {crl : Crl}
    (found : authenticating L issuers der now = some (id, crl)) : ∃ issuer, issuers[id]? = some issuer := by
  obtain ⟨entry, member, authenticated⟩ := List.exists_of_findSome?_eq_some found
  have known := TreeMap.mem_toList_iff_getElem?_eq_some.mp member
  split at authenticated
  · cases authenticated
    exact ⟨entry.2, known⟩
  · cases authenticated

theorem observeCrl_learns (issuers : Revocations) (der : Bytes) (now : Int) (id : IssuerId) :
    Learns issuers[id]? (only id (delivered L issuers der now).toList) (observeCrl L issuers der now).2[id]? := by
  unfold observeCrl delivered
  cases same : retaining issuers der with
  | some entry =>
    obtain ⟨other, issuer⟩ := entry
    obtain ⟨known, crl, latest⟩ := retaining_found same
    simp only [latest, Option.map_some, Option.toList_some, only, List.filterMap_cons, List.filterMap_nil]
    split
    next apart => split at apart <;> simp_all [Learns.refl]
    next crl' here =>
      split at here
      next matching =>
        obtain rfl : crl = crl' := Option.some.inj here
        rw [← matching, known]
        have unchanged : issuer.learnAll [crl] = issuer := by simp [Issuer.learnAll, Issuer.learn_latest latest]
        nth_rewrite 2 [← unchanged]
        exact .known issuer [crl]
      next => cases here
  | none =>
    cases first : authenticating L issuers der now with
    | none => exact Learns.refl _
    | some entry =>
      obtain ⟨other, crl⟩ := entry
      obtain ⟨issuer, known⟩ := authenticating_found first
      simp only [known, only, Option.toList_some, List.filterMap_cons, List.filterMap_nil, lookup_insert]
      by_cases matching : other = id
      · subst matching
        rw [known, if_pos rfl, if_pos rfl]
        exact .known issuer [crl]
      · simp only [if_neg matching]
        exact Learns.refl _

theorem observeRoot_learns (issuers : Revocations) (row : L.Value) (id : IssuerId) :
    Learns issuers[id]? [] (observeRoot L issuers row)[id]? := by
  unfold observeRoot
  split
  · exact Learns.refl _
  next other der pinned =>
    split
    · exact Learns.refl _
    next fresh =>
      rw [lookup_insert]
      split
      next matching =>
        subst matching
        have absent : issuers[other]? = none :=
          TreeMap.getElem?_eq_none fun known => fresh (.inl (TreeMap.contains_iff_mem.mpr known))
        rw [absent]
        exact .added der []
      next => exact Learns.refl _

theorem observeRoots_learns (issuers : Revocations) (rows : List L.Value) (id : IssuerId) :
    Learns issuers[id]? [] (rows.foldl (observeRoot L) issuers)[id]? := by
  induction rows generalizing issuers with
  | nil => exact Learns.refl _
  | cons row rows ih => exact (observeRoot_learns issuers row id).trans (ih _)

theorem observeRow_learns (now : Int) (progress : Except Error Unit × Revocations) (row : L.Value) (id : IssuerId) :
    Learns progress.2[id]? (only id (rowDelivery L now progress.2 row).toList) (observeRow L now progress row).2[id]? := by
  unfold rowDelivery observeRow
  cases L.rowDer row with
  | error => exact Learns.refl _
  | ok der => exact observeCrl_learns progress.2 der now id

theorem observeRows_learns (now : Int) (progress : Except Error Unit × Revocations) (rows : List L.Value) (id : IssuerId) :
    Learns progress.2[id]? (only id (rowDeliveries L now progress rows)) (rows.foldl (observeRow L now) progress).2[id]? := by
  induction rows generalizing progress with
  | nil => exact Learns.refl _
  | cons row rows ih =>
    rw [rowDeliveries, only_append]
    exact (observeRow_learns now progress row id).trans (ih _)

theorem observe_learns (issuers : Revocations) (body : L.Value) (now : Int) (id : IssuerId) :
    Learns issuers[id]? (only id (bodyDeliveries L issuers body now)) (observe L issuers body now).2[id]? := by
  unfold bodyDeliveries observe
  split
  · exact Learns.refl _
  · exact (observeRoots_learns issuers _ id).trans (observeRows_learns now (.ok (), _) _ id)

theorem observe_advances (issuers : Revocations) (body : L.Value) (now : Int) : issuers.Advances (observe L issuers body now).2 := by
  intro id issuer known
  have learned := observe_learns issuers body now id
  rw [known] at learned
  generalize (observe L issuers body now).2[id]? = next at learned
  cases learned with
  | known => exact ⟨_, rfl, issuer.learnAll_advances _⟩

theorem observeAll_learns (issuers : Revocations) (history : History L) (id : IssuerId) :
    Learns issuers[id]? (deliveredTo issuers history id) (observeAll issuers history)[id]? := by
  induction history generalizing issuers with
  | nil => exact Learns.refl _
  | cons observed history ih =>
    obtain ⟨body, now⟩ := observed
    rw [deliveredTo, deliveries, only_append]
    exact (observe_learns issuers body now id).trans (ih _)

theorem validity_ok {issuers : Revocations} {id : IssuerId} {serial : Bytes} {certificates validity : Validity} {now : Int}
    (valid : issuers.validity id serial certificates now = .ok validity) :
    ∃ issuer crl, issuers[id]? = some issuer ∧ issuer.latest = some crl ∧ issuer.conflicting = false ∧ serial ∉ crl.revoked := by
  simp only [Revocations.validity, bind_ok, required_ok, rejectIf_ok, exists_unit] at valid
  obtain ⟨issuer, known, crl, latest, agreed, absent, -⟩ := valid
  exact ⟨issuer, crl, known, latest, by simpa using agreed, absent⟩

/-- Over every history of observed evidence: what is retained for an issuer only advances;
without back-dated numbers it is the greatest number delivered, in conflict exactly when two
contents carry it; and nothing is valid against a conflict or a retained revocation, also
after its CRL expired or older ones are replayed. -/
theorem retained_revocations (history later : History L) (id : IssuerId) :
    let issuers : Revocations := observeAll ∅ history
    let final : Revocations := observeAll issuers later
    (∀ issuer crl, issuers[id]? = some issuer → issuer.latest = some crl →
      ∃ next last, final[id]? = some next ∧ next.latest = some last ∧ crl.number ≤ last.number ∧
        crl.validity.notBeforeUnixMs ≤ last.validity.notBeforeUnixMs) ∧
    (Issuer.Dated (deliveredTo ∅ history id) → deliveredTo ∅ history id ≠ [] →
      ∃ issuer crl, issuers[id]? = some issuer ∧ issuer.latest = some crl ∧
        IsGreatest {number | ∃ other ∈ deliveredTo ∅ history id, other.number = number} crl.number ∧
        (issuer.conflicting = true ↔ Issuer.Disputed (deliveredTo ∅ history id) crl.number)) ∧
    (∀ serial certificates now validity, issuers.validity id serial certificates now = .ok validity →
      ∃ issuer crl, issuers[id]? = some issuer ∧ issuer.latest = some crl ∧ issuer.conflicting = false ∧ serial ∉ crl.revoked) ∧
    (∀ issuer crl serial, issuers[id]? = some issuer → issuer.latest = some crl → serial ∈ crl.revoked →
      (∀ stale ∈ deliveredTo issuers later id, stale.number ≤ crl.number) →
      ∀ certificates now validity, final.validity id serial certificates now ≠ .ok validity) := by
  intro issuers final
  have retains : ∀ {issuer crl}, issuers[id]? = some issuer → issuer.latest = some crl →
      ∃ next, final[id]? = some next ∧
        next.Retains crl (∀ stale ∈ deliveredTo issuers later id, stale.number ≤ crl.number) := by
    intro issuer crl known latest
    have learned := observeAll_learns issuers later id
    rw [known] at learned
    change Learns (some issuer) _ final[id]? at learned
    generalize final[id]? = next at learned
    cases learned with
    | known => exact ⟨_, rfl, Issuer.retains_learnAll latest _⟩
  refine ⟨?_, ?_, fun _ _ _ _ => validity_ok, ?_⟩
  · intro issuer crl known latest
    obtain ⟨next, reached, last, final, higher, dated, -⟩ := retains known latest
    exact ⟨next, last, reached, final, higher, dated⟩
  · intro dated nonempty
    have learned := observeAll_learns ∅ history id
    rw [TreeMap.getElem?_emptyc] at learned
    change Learns none _ issuers[id]? at learned
    generalize issuers[id]? = issuer at learned
    generalize deliveredTo ∅ history id = crls at learned dated nonempty
    cases learned with
    | unknown => exact absurd rfl nonempty
    | added certificate =>
      obtain ⟨top, settles⟩ := Issuer.settles_learnAll certificate dated nonempty
      refine ⟨_, top, rfl, settles.retained, ⟨⟨top, settles.delivered, rfl⟩, ?_⟩, settles.disputed⟩
      rintro number ⟨other, member, rfl⟩
      exact settles.greatest other member
  · intro issuer crl serial known latest revoked stale certificates now validity valid
    obtain ⟨next, reached, last, held, -, -, same⟩ := retains known latest
    obtain ⟨found, kept, foundHere, keptHere, -, absent⟩ := validity_ok valid
    obtain rfl : found = next := Option.some.inj (foundHere.symm.trans reached)
    obtain rfl : kept = last := Option.some.inj (keptHere.symm.trans held)
    exact absent (same stale ▸ revoked)

end Revocations
end StogasVerifier.Evidence
