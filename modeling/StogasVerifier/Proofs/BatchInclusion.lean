import StogasVerifier.Attestation.Batch

/-! The batches of the gateway and the proofs about them: every proof of a batch
verifies its leaf, and nothing else verifies against the batch. -/

namespace StogasVerifier.Attestation
open Lib Lib.Merkle Approvals

variable {H : Hashing 64}

theorem BatchProof.pathDepth_eq (count index : Nat) : pathDepth count index = (sides count index).length := by
  fun_induction pathDepth count index with
  | case1 count index many left ih => rw [sides_left many left, ih, List.length_append]; rfl
  | case2 count index many right ih => rw [sides_right many (by omega), ih, List.length_append]; rfl
  | case3 count index single => rw [sides_one (by omega)]; rfl

section Walk

open BatchProof

theorem walk_promoted {index : Nat} (even : index % 2 = 0) (inner : index ≠ 0) (sibling : H.Digest) (siblings : List H.Digest)
    (hash : H.Digest) :
    walk (sibling :: siblings) hash index index = walk (sibling :: siblings) hash (index / 2) (index / 2) := by
  have skips : skipLevels index index = skipLevels (index / 2) (index / 2) := by
    rw [skipLevels, if_pos ⟨inner, even⟩]
  simp only [walk, or_true, if_true, skips]

theorem walk_right {index : Nat} (odd : index % 2 = 1) (last : Nat) (sibling : H.Digest) (siblings : List H.Digest)
    (hash : H.Digest) :
    walk (sibling :: siblings) hash index last = walk siblings (H.nodeHash sibling hash) (index / 2) (last / 2) := by
  have skips : skipLevels index last = (index, last) := by rw [skipLevels, if_neg (by omega)]
  simp only [walk, odd, true_or, if_true, skips, parentHash]

theorem walk_left {index last : Nat} (even : index % 2 = 0) (inner : index ≠ last) (sibling : H.Digest) (siblings : List H.Digest)
    (hash : H.Digest) :
    walk (sibling :: siblings) hash index last = walk siblings (H.nodeHash hash sibling) (index / 2) (last / 2) := by
  rw [walk, if_neg (by omega)]
  rfl

/-- The walk of `verify_leaf` climbs from the leaf to the root, and ends there. -/
theorem walk_climbs {size index : Nat} (inside : index < size) {siblings} {hash : H.Digest}
    (length : siblings.length = (sides size index).length) :
    walk siblings hash index (size - 1) = (climb H.nodeHash hash ((sides size index).zip siblings), 0) := by
  induction size using Nat.strong_induction_on generalizing index siblings hash with
  | _ size ih =>
    by_cases many : 1 < size
    · have filled : siblings ≠ [] := by
        rw [← List.length_pos_iff, length, List.length_pos_iff]
        exact sides_ne_nil many index
      obtain ⟨sibling, rest, rfl⟩ := List.exists_cons_of_ne_nil filled
      have last : (size - 1) / 2 = (size + 1) / 2 - 1 := by omega
      have levels := sides_halve many inside
      have upper {siblings : List H.Digest} {hash : H.Digest}
          (length : siblings.length = (sides ((size + 1) / 2) (index / 2)).length) :
          walk siblings hash (index / 2) ((size + 1) / 2 - 1) = _ := ih ((size + 1) / 2) (by omega) (by omega) length
      by_cases promoted : index + 1 = size ∧ index % 2 = 0
      · rw [if_pos promoted] at levels
        rw [levels] at length ⊢
        rw [← upper length, ← last, (by omega : size - 1 = index), walk_promoted promoted.2 (by omega)]
      · rw [if_neg promoted] at levels
        rw [levels] at length ⊢
        by_cases even : index % 2 = 0
        · rw [walk_left even (by omega), last, upper (Nat.succ.inj length), side, if_pos even]
          rfl
        · rw [walk_right (by omega), last, upper (Nat.succ.inj length), side, if_neg even]
          rfl
    · obtain rfl : size = 1 := by omega
      rw [sides_one (Nat.le_refl 1)] at length ⊢
      rw [List.length_eq_zero_iff.mp length]
      rfl

end Walk

/-- What `verify_leaf` checks of a proof with a path of the right length. -/
theorem BatchProof.verifyLeaf_ok {proof : BatchProof H} (inside : proof.leafIndex < proof.leafCount)
    (length : proof.siblings.length = (sides proof.leafCount proof.leafIndex).length) {leaf reportData : H.Digest} :
    proof.verifyLeaf leaf reportData = .ok () ↔ batchReportData proof.leafCount
      (climb H.nodeHash leaf ((sides proof.leafCount proof.leafIndex).zip proof.siblings)) = reportData := by
  rw [verifyLeaf, walk_climbs inside length]
  simp

private theorem map_mapIdx {α β γ : Type} {first : Nat → α → β} {second : β → γ} {both : Nat → α → γ} (items : List α)
    (same : ∀ place < items.length, ∀ item, second (first place item) = both place item) :
    (items.mapIdx first).map second = items.mapIdx both := by
  apply List.ext_getElem (by simp)
  intro place _ inside
  rw [List.length_mapIdx] at inside
  simp [same place inside]

theorem subtree_eq {leaf : Nat → H.Digest} {start : Nat} {leaves} (filled : 0 < leaves.length)
    (listed : ∀ place (inside : place < leaves.length), leaves[place] = leaf (start + place)) {paths}
    (same : paths.length = leaves.length) :
    subtree leaves filled paths = (treeHash H.nodeHash leaf start leaves.length,
      paths.mapIdx fun place path => path ++ auditPath H.nodeHash leaf start leaves.length place) := by
  fun_induction subtree leaves filled paths generalizing start with
  | case1 leaves filled paths many below above left right lower =>
    rename_i upper
    have count : (leaves.take (split leaves.length)).length = split leaves.length := by rw [List.length_take]; omega
    have others : (leaves.drop (split leaves.length)).length = leaves.length - split leaves.length := List.length_drop
    have size : (paths.take (split leaves.length)).length = split leaves.length := by rw [List.length_take]; omega
    have lefts := @lower start (fun place inside => by
      rw [List.getElem_take]
      exact listed place (by omega)) (size.trans count.symm)
    have rights := @upper (start + split leaves.length) (fun place inside => by
      rw [List.getElem_drop, listed _ (by omega), Nat.add_assoc]) (by rw [List.length_drop, others]; omega)
    rw [count] at lefts
    rw [others] at rights
    simp only [left, right, lefts, rights]
    have whole := List.take_append_drop (split leaves.length) paths
    rw [treeHash_node many]
    refine Prod.ext rfl ?_
    conv_rhs => rw [← whole]
    rw [List.mapIdx_append, size]
    refine congrArg₂ _ (map_mapIdx _ ?_) (map_mapIdx _ ?_)
    · intro place inside path
      rw [auditPath_left many (by omega), List.append_assoc]
    · intro place inside path
      rw [auditPath_right many (by omega), Nat.add_sub_cancel, List.append_assoc]
  | case2 leaves filled paths single =>
    have one : leaves.length ≤ 1 := by omega
    simp only [treeHash_one one, auditPath_one one, List.append_nil, listed 0 filled, Nat.add_zero]
    refine Prod.ext rfl (List.ext_getElem (by simp) ?_)
    simp

namespace BatchProof

/-- A proof that `from_bytes` could have returned. -/
structure Sound (proof : BatchProof H) : Prop where
  counted : 0 < proof.leafCount ∧ proof.leafCount ≤ maxBatchLeaves
  inside : proof.leafIndex < proof.leafCount
  minimal : proof.siblings.length = (sides proof.leafCount proof.leafIndex).length

theorem chunksExact_length {count : Nat} {bytes : H.Bytes} (long : 64 * count ≤ bytes.length) :
    (chunksExact count bytes).length = count := by
  induction count generalizing bytes with
  | zero => rfl
  | succ count ih =>
    have whole : (bytes.take 64).length = 64 := by rw [List.length_take]; omega
    rw [chunksExact, dif_pos whole]
    exact congrArg Nat.succ (ih (by rw [List.length_drop]; omega))

theorem chunksExact_flatten (digests : List H.Digest) :
    chunksExact digests.length (digests.map List.Vector.toList).flatten = digests := by
  induction digests with
  | nil => rfl
  | cons digest digests ih =>
    have width := digest.toList_length
    have first : ((digest :: digests).map List.Vector.toList).flatten.take 64 = digest.toList := by
      rw [List.map_cons, List.flatten_cons, List.take_left' width]
    have rest : ((digest :: digests).map List.Vector.toList).flatten.drop 64 = (digests.map List.Vector.toList).flatten := by
      rw [List.map_cons, List.flatten_cons, List.drop_left' width]
    rw [List.length_cons, chunksExact, dif_pos (by rw [first, width])]
    simp only [first, rest, ih]
    rfl

theorem flatten_length (digests : List H.Digest) : (digests.map List.Vector.toList).flatten.length = 64 * digests.length := by
  induction digests with
  | nil => rfl
  | cons digest digests ih =>
    rw [List.map_cons, List.flatten_cons, List.length_append, ih, List.Vector.toList_length, List.length_cons]
    omega

theorem fromBytes_sound {bytes : H.Bytes} {proof} (decoded : fromBytes bytes = .ok proof) : proof.Sound := by
  unfold fromBytes at decoded
  split at decoded
  · cases decoded
  next sized =>
    dsimp only at decoded
    split at decoded
    · cases decoded
    next shaped =>
      split at decoded
      · cases decoded
      next minimal =>
        cases decoded
        simp only [not_or] at shaped
        obtain ⟨some_, few, inside⟩ := shaped
        refine ⟨⟨Nat.pos_of_ne_zero some_, Nat.not_lt.mp few⟩, Nat.not_le.mp inside, ?_⟩
        rw [chunksExact_length (by rw [List.length_drop]; omega), ← pathDepth_eq]
        exact (not_not.mp minimal).symm

theorem Sound.roundtrip {proof : BatchProof H} (sound : proof.Sound) : fromBytes proof.toBytes = .ok proof := by
  obtain ⟨leafCount, leafIndex, siblings⟩ := proof
  obtain ⟨counted, inside, minimal⟩ := sound
  dsimp only at counted inside minimal
  rw [maxBatchLeaves] at counted
  have height : siblings.length ≤ maxProofHashes := minimal ▸ sides_length_le counted.2
  have body := flatten_length siblings
  have length : (toBytes ⟨leafCount, leafIndex, siblings⟩ : H.Bytes).length = 4 + 64 * siblings.length := by
    simp only [toBytes, List.length_append, toBe_length, body]
  have count : ofBe H.toOctets ((toBytes ⟨leafCount, leafIndex, siblings⟩ : H.Bytes).take 2) = leafCount := by
    rw [toBytes, List.append_assoc, List.take_left' (toBe_length _ _ _)]
    exact ofBe_toBe _ _ leafCount (by omega)
  have index : ofBe H.toOctets (((toBytes ⟨leafCount, leafIndex, siblings⟩ : H.Bytes).drop 2).take 2) = leafIndex := by
    rw [toBytes, List.append_assoc, List.drop_left' (toBe_length _ _ _), List.take_left' (toBe_length _ _ _)]
    exact ofBe_toBe _ _ leafIndex (by omega)
  have rest : (toBytes ⟨leafCount, leafIndex, siblings⟩ : H.Bytes).drop 4 = (siblings.map List.Vector.toList).flatten := by
    rw [toBytes, List.drop_left' (by simp only [List.length_append, toBe_length])]
  have depth : (4 + 64 * siblings.length - 4) / 64 = siblings.length := by omega
  rw [fromBytes, length, if_neg (by omega), count, index, rest, depth]
  simp only [pathDepth_eq, maxBatchLeaves]
  rw [if_neg (by omega), if_neg (not_not.mpr minimal.symm), chunksExact_flatten]

end BatchProof

def leafAt (leaves : List H.Digest) (filled : 0 < leaves.length) (place : Nat) : H.Digest := leaves.getD place leaves[0]

theorem leafAt_eq {leaves : List H.Digest} (filled : 0 < leaves.length) {place : Nat} (inside : place < leaves.length) :
    leafAt leaves filled place = leaves[place] := by
  rw [leafAt, List.getD_eq_getElem _ _ inside]

def proofAt (leaves : List H.Digest) (filled : 0 < leaves.length) (place : Nat) : BatchProof H :=
  ⟨leaves.length, place, auditPath H.nodeHash (leafAt leaves filled) 0 leaves.length place⟩

def rootOf (leaves : List H.Digest) (filled : 0 < leaves.length) : H.Digest :=
  treeHash H.nodeHash (leafAt leaves filled) 0 leaves.length

theorem quoteBatch_ok {leaves : List H.Digest} {result : H.Digest × List (BatchProof H)} :
    quoteBatch leaves = .ok result ↔ ∃ sized : 1 ≤ leaves.length ∧ leaves.length ≤ maxBatchLeaves,
      result = (batchReportData leaves.length (rootOf leaves sized.1), (List.range leaves.length).map (proofAt leaves sized.1)) := by
  by_cases sized : 1 ≤ leaves.length ∧ leaves.length ≤ maxBatchLeaves
  · have tree := @subtree_eq _ (leafAt leaves sized.1) 0 leaves sized.1
      (fun place inside => by rw [Nat.zero_add, leafAt_eq sized.1 inside]) (List.replicate leaves.length []) List.length_replicate
    have proofs : ((List.replicate leaves.length []).mapIdx fun place path =>
        path ++ auditPath H.nodeHash (leafAt leaves sized.1) 0 leaves.length place).mapIdx
          (fun index siblings => (⟨leaves.length, index, siblings⟩ : BatchProof H)) =
        (List.range leaves.length).map (proofAt leaves sized.1) := by
      apply List.ext_getElem (by simp)
      intro place _ _
      simp [proofAt]
    rw [quoteBatch, dif_pos sized, tree]
    simp only [proofs]
    constructor
    · intro same
      cases same
      exact ⟨sized, rfl⟩
    · intro made
      obtain ⟨-, rfl⟩ := made
      rfl
  · rw [quoteBatch, dif_neg sized]
    exact ⟨nofun, fun made => absurd made.1 sized⟩

theorem proofAt_sound {leaves : List H.Digest} (sized : 1 ≤ leaves.length ∧ leaves.length ≤ maxBatchLeaves) {place : Nat}
    (inside : place < leaves.length) : (proofAt leaves sized.1 place).Sound :=
  ⟨sized, inside, auditPath_length sized.1⟩

theorem proofAt_verifies {leaves : List H.Digest} (filled : 0 < leaves.length) {place : Nat} (inside : place < leaves.length) :
    (proofAt leaves filled place).verifyLeaf leaves[place] (batchReportData leaves.length (rootOf leaves filled)) = .ok () := by
  have minimal : (proofAt leaves filled place).siblings.length = (sides leaves.length place).length := auditPath_length filled
  rw [BatchProof.verifyLeaf_ok inside minimal, rootOf, ← climb_auditPath inside, Nat.zero_add, leafAt_eq filled inside]
  rfl

/-- Every batch of a valid size has a proof of each leaf, in order, that survives
its encoding and verifies the leaf. -/
theorem batch_complete (leaves : List H.Digest) (filled : 1 ≤ leaves.length) (few : leaves.length ≤ 1024) :
    ∃ reportData proofs, quoteBatch leaves = .ok (reportData, proofs) ∧ proofs.length = leaves.length ∧
      ∀ place (inside : place < leaves.length), ∃ proof, proofs[place]? = some proof ∧ proof.leafCount = leaves.length ∧
        proof.leafIndex = place ∧ BatchProof.fromBytes proof.toBytes = .ok proof ∧
        proof.verifyLeaf leaves[place] reportData = .ok () := by
  refine ⟨_, _, quoteBatch_ok.mpr ⟨⟨filled, few⟩, rfl⟩, by simp, ?_⟩
  intro place inside
  have sound := proofAt_sound ⟨filled, few⟩ inside
  exact ⟨proofAt leaves filled place, by simp [inside], rfl, rfl, sound.roundtrip, proofAt_verifies filled inside⟩

def sampleLeaves : List (Hashing.free 63).Digest := [List.Vector.replicate 64 (1 : Nat), List.Vector.replicate 64 (2 : Nat),
  List.Vector.replicate 64 (3 : Nat)]

theorem batch_complete_sample : ∃ reportData proofs, quoteBatch sampleLeaves = .ok (reportData, proofs) ∧ proofs.length = 3 := by
  obtain ⟨reportData, proofs, made, count, -⟩ := batch_complete sampleLeaves (by decide) (by decide)
  exact ⟨reportData, proofs, made, count⟩

theorem batchReportData_injective (free : H.CollisionFree) {count other : Nat} {root second : H.Digest}
    (few : count ≤ maxBatchLeaves) (also : other ≤ maxBatchLeaves) (same : batchReportData count root = batchReportData other second) :
    count = other ∧ root = second := by
  obtain ⟨fronts, roots⟩ := List.append_inj (free same) (by simp only [List.length_append, toBe_length])
  rw [maxBatchLeaves] at few also
  exact ⟨toBe_injective _ (by omega) (by omega) (List.append_cancel_left fronts), List.Vector.eq _ _ roots⟩

theorem environmentByte_injective {first second}
    (same : H.u8 (environmentByte first) = H.u8 (environmentByte second)) : first = second := by
  have value (environment : Environment) : H.value (H.u8 (environmentByte environment)) = environmentByte environment :=
    H.value_u8 _ (by cases environment <;> decide)
  have bytes := (value first).symm.trans ((congrArg H.value same).trans (value second))
  cases first <;> cases second <;> first | rfl | cases bytes

private theorem vector_append {front other : H.Bytes} {part second : List.Vector H.Symbol 32}
    (same : front ++ part.toList = other ++ second.toList) : front = other ∧ part = second := by
  obtain ⟨fronts, parts⟩ := List.append_inj' same (by rw [List.Vector.toList_length, List.Vector.toList_length])
  exact ⟨fronts, List.Vector.eq _ _ parts⟩

theorem Binding.leafInput_length (binding : Binding H) :
    binding.leafInput.length = match binding with | .nativeTls .. => 119 | .e2eeSession .. => 89 := by
  have tls : (tlsDomain H).length = 21 := text_length _ _
  have e2ee : (e2eeDomain H).length = 23 := text_length _ _
  cases binding with
  | nativeTls => simp only [leafInput, List.length_append, List.length_singleton, List.Vector.toList_length, tls]
  | e2eeSession => simp only [leafInput, List.length_append, List.length_singleton, List.Vector.toList_length, e2ee]

theorem Binding.leafInput_injective {first second : Binding H} (same : first.leafInput = second.leafInput) : first = second := by
  have lengths := congrArg List.length same
  rw [leafInput_length, leafInput_length] at lengths
  cases first with
  | nativeTls environment boot challenge signer =>
    cases second with
    | nativeTls otherEnvironment otherBoot otherChallenge otherSigner =>
      obtain ⟨challenges, rfl⟩ := vector_append same
      obtain ⟨boots, rfl⟩ := vector_append challenges
      obtain ⟨fronts, rfl⟩ := vector_append boots
      obtain rfl := environmentByte_injective (List.head_eq_of_cons_eq (List.append_cancel_left fronts))
      rfl
    | e2eeSession => cases lengths
  | e2eeSession environment boot transcript =>
    cases second with
    | nativeTls => cases lengths
    | e2eeSession otherEnvironment otherBoot otherTranscript =>
      obtain ⟨boots, rfl⟩ := vector_append same
      obtain ⟨fronts, rfl⟩ := vector_append boots
      obtain rfl := environmentByte_injective (List.head_eq_of_cons_eq (List.append_cancel_left fronts))
      rfl

/-- What verifies against the report of a batch is a leaf of it, at its place,
and no two bindings share a leaf. -/
theorem batch_sound (free : H.CollisionFree) :
    (∀ (leaves : List H.Digest) (reportData : H.Digest) (proofs : List (BatchProof H)),
      quoteBatch leaves = .ok (reportData, proofs) →
      ∀ (bytes : H.Bytes) (proof : BatchProof H), BatchProof.fromBytes bytes = .ok proof →
      ∀ leaf, proof.verifyLeaf leaf reportData = .ok () →
        proof.leafCount = leaves.length ∧ leaves[proof.leafIndex]? = some leaf) ∧
    ∀ first second : Binding H, first.leafHash = second.leafHash → first = second := by
  refine ⟨?_, fun first second same => Binding.leafInput_injective (free same)⟩
  intro leaves reportData proofs made bytes proof decoded leaf verified
  obtain ⟨sized, same⟩ := quoteBatch_ok.mp made
  cases same
  have sound := BatchProof.fromBytes_sound decoded
  have climbs := (BatchProof.verifyLeaf_ok sound.inside sound.minimal).mp verified
  obtain ⟨counts, roots⟩ := batchReportData_injective free sound.counted.2 sized.2 climbs
  have inside : proof.leafIndex < leaves.length := counts ▸ sound.inside
  have minimal := sound.minimal
  rw [counts] at roots minimal
  obtain ⟨found, -⟩ := climb_sound free.node inside minimal roots
  rw [found, Nat.zero_add, leafAt_eq sized.1 inside]
  exact ⟨counts, List.getElem?_eq_getElem inside⟩

theorem batch_sound_sample : ∃ proof : BatchProof (Hashing.free 63), ∃ reportData proofs,
    quoteBatch sampleLeaves = .ok (reportData, proofs) ∧ BatchProof.fromBytes proof.toBytes = .ok proof ∧
    proof.verifyLeaf (List.Vector.replicate 64 (2 : Nat)) reportData = .ok () ∧
    proof.leafCount = 3 ∧ sampleLeaves[proof.leafIndex]? = some (List.Vector.replicate 64 (2 : Nat)) := by
  have sized : 1 ≤ sampleLeaves.length ∧ sampleLeaves.length ≤ maxBatchLeaves := by decide
  have made := quoteBatch_ok.mpr ⟨sized, rfl⟩
  have inside : 1 < sampleLeaves.length := by decide
  have sound := proofAt_sound sized inside
  have verified : (proofAt sampleLeaves sized.1 1).verifyLeaf (List.Vector.replicate 64 (2 : Nat))
      (batchReportData sampleLeaves.length (rootOf sampleLeaves sized.1)) = .ok () := proofAt_verifies sized.1 inside
  obtain ⟨count, found⟩ := (batch_sound (Hashing.free_collisionFree 63)).1 _ _ _ made _ _ sound.roundtrip _ verified
  exact ⟨_, _, _, made, sound.roundtrip, verified, count, found⟩

end StogasVerifier.Attestation
