import StogasVerifier.Sdk.EvidenceArchive

/-! The sizes that an accepted index declares: they bound what is downloaded, where each
reference counts once, but not what is copied, where each counts as often as it stands in
the index. What a download returns is rebuilt from the objects that the index names. -/

namespace StogasVerifier.Sdk.Archive
open Lib
open Std (TreeMap)
open Sigstore (Bytes hexEncode)
open Approvals (maxInputBytes)
open Evidence (checkedAdd maxArchiveBytes)

theorem getChunks_bounded {url : String} {maxBytes : Nat} {complete : Bool} {chunks : List Bytes} {bytes result : Bytes}
    (read : getChunks url maxBytes complete chunks bytes = .ok result) (within : bytes.length ≤ maxBytes) : result.length ≤ maxBytes := by
  induction chunks generalizing bytes with
  | nil =>
    unfold getChunks at read
    split at read
    · cases read
      exact within
    · cases read
  | cons chunk chunks ih =>
    unfold getChunks at read
    split at read
    · cases read
    next enough =>
      apply ih read
      rw [List.length_append]
      omega

theorem get_bounded {origin : Origin} {path : String} {maxBytes : Nat} {bytes : Bytes} (got : get origin path maxBytes = .ok bytes) :
    bytes.length ≤ maxBytes := by
  simp only [get] at got
  split at got
  · cases got
  · obtain ⟨_, -, read⟩ := bind_ok.mp got
    exact getChunks_bounded read (Nat.zero_le _)

namespace Index

variable {index : Index}

def size (index : Index) (hash : String) : Nat := index.sizes[hash]?.getD 0

/-- What `assemble` copies, by the declared sizes. -/
def copied (index : Index) : Nat := (index.sources.map index.size).sum

def declared (index : Index) : Nat := (index.references.map index.size).sum

theorem references_perm (index : Index) : index.references.Perm index.sources.dedup := List.mergeSort_perm _ _

theorem mem_references {hash : String} : hash ∈ index.references ↔ hash ∈ index.sources := by
  rw [index.references_perm.mem_iff, List.mem_dedup]

theorem references_nodup (index : Index) : index.references.Nodup := index.references_perm.nodup_iff.mpr (List.nodup_dedup _)

theorem checked_sum {sizes : List Nat} {start total : Nat} (added : sizes.foldlM checkedAdd start = some total) :
    total = start + sizes.sum := by
  induction sizes generalizing start with
  | nil =>
    cases added
    rfl
  | cons size sizes ih =>
    obtain ⟨next, sum, rest⟩ := Option.bind_eq_some_iff.mp added
    unfold checkedAdd at sum
    split at sum
    · cases sum
      rw [ih rest, List.sum_cons, Nat.add_assoc]
    · cases sum

theorem checked_total {sizes : List Nat} {start : Nat} (fits : start + sizes.sum < 2 ^ 64) :
    sizes.foldlM checkedAdd start = some (start + sizes.sum) := by
  induction sizes generalizing start with
  | nil => rfl
  | cons size sizes ih =>
    rw [List.sum_cons, ← Nat.add_assoc] at fits ⊢
    rw [List.foldlM_cons, checkedAdd, if_pos (by omega)]
    exact ih fits

/-- What `parse` requires of an index. -/
structure Accepted (index : Index) (bodySha256 : String) : Prop where
  identity : index.schema = "stogas.evidence-archive.v1" ∧ index.bodySha256 = bodySha256
  few : index.references.length ≤ maxObjects
  hashes : index.references.all isSha256
  count : index.sizes.size = index.references.length
  known : index.references.all fun hash => index.sizes.contains hash
  bounded : index.total.any (· ≤ maxInputBytes)

theorem parse_ok {F : Formats} {bytes : Bytes} {bodySha256 : String} :
    parse F bytes bodySha256 = .ok index ↔ F.readIndex bytes = .ok index ∧ index.Accepted bodySha256 := by
  simp only [parse, bind_ok, mapError_ok, rejectIf_ok, exists_unit, not_not, pure_ok]
  constructor
  · rintro ⟨_, read, identity, ⟨few, hashes, count, known, bounded⟩, rfl⟩
    exact ⟨read, identity, few, hashes, count, known, bounded⟩
  · rintro ⟨read, identity, few, hashes, count, known, bounded⟩
    exact ⟨index, read, identity, ⟨few, hashes, count, known, bounded⟩, rfl⟩

namespace Accepted

variable {bodySha256 : String} (accepted : index.Accepted bodySha256)
include accepted

theorem sized {hash : String} (member : hash ∈ index.references) : hash ∈ index.sizes :=
  TreeMap.contains_iff_mem.mp (List.all_eq_true.mp accepted.known hash member)

theorem names : index.references.Perm index.sizes.keys := by
  have subset : index.references ⊆ index.sizes.keys := fun hash member => TreeMap.mem_keys.mpr (accepted.sized member)
  apply (List.subperm_of_subset index.references_nodup subset).perm_of_length_le
  rw [TreeMap.length_keys, accepted.count]

theorem declared_le : index.declared ≤ maxInputBytes := by
  obtain ⟨total, added, most⟩ := (Option.any_eq_true _ _).mp accepted.bounded
  have values : index.sizes.toList.map Prod.snd = index.sizes.keys.map index.size := by
    rw [← TreeMap.map_fst_toList_eq_keys, List.map_map]
    refine List.map_congr_left fun entry member => ?_
    obtain ⟨hash, value⟩ := entry
    rw [Function.comp, size, TreeMap.mem_toList_iff_getElem?_eq_some.mp member]
    rfl
  have sum := checked_sum added
  rw [values, ← (accepted.names.map index.size).sum_eq, Nat.zero_add] at sum
  rw [declared, ← sum]
  exact of_decide_eq_true most

def heavy (index : Index) (hash : String) : Index :=
  { index with sizes := index.sizes.map fun name _ => if name = hash then maxInputBytes else 0 }

omit accepted in
theorem heavy_size {hash : String} (member : hash ∈ index.sizes) : (heavy index hash).size hash = maxInputBytes := by
  rw [size, heavy, TreeMap.getElem?_map, TreeMap.getElem?_eq_some_getElem member]
  simp

theorem heavy_accepted {hash : String} (member : hash ∈ index.references) : (heavy index hash).Accepted bodySha256 where
  identity := accepted.identity
  few := accepted.few
  hashes := accepted.hashes
  count := TreeMap.size_map.trans accepted.count
  known := by
    simp only [heavy, TreeMap.contains_map]
    exact accepted.known
  bounded := by
    have values : (heavy index hash).sizes.toList.map Prod.snd =
        index.sizes.keys.map fun name => if name = hash then maxInputBytes else 0 := by
      rw [heavy, TreeMap.toList_map, ← TreeMap.map_fst_toList_eq_keys, List.map_map, List.map_map]
      rfl
    have once : index.sizes.keys.count hash = 1 :=
      List.count_eq_one_of_mem TreeMap.nodup_keys (TreeMap.mem_keys.mpr (accepted.sized member))
    have sum : ((heavy index hash).sizes.toList.map Prod.snd).sum = maxInputBytes := by
      rw [values, List.sum_map_eq_nsmul_single hash _ fun other differs _ => if_neg differs, once, one_nsmul, if_pos rfl]
    have total : (heavy index hash).total = some maxInputBytes := by
      rw [total, checked_total (by rw [sum]; decide), sum, Nat.zero_add]
    rw [total]
    decide

theorem copied_heavy {hash : String} (twice : index.sources.Duplicate hash) : maxInputBytes < (heavy index hash).copied := by
  have copies := ((List.duplicate_iff_sublist.mp twice).map (heavy index hash).size).sum_le_sum fun _ _ => Nat.zero_le _
  have size := heavy_size (accepted.sized (mem_references.mpr twice.mem))
  simp only [List.map_cons, List.map_nil, List.sum_cons, List.sum_nil, size] at copies
  have positive : 0 < maxInputBytes := by decide
  change _ ≤ (heavy index hash).copied at copies
  omega

end Accepted

theorem fetch_ok {F : Formats} {origin : Origin} {hash : String} {bytes : Bytes} (fetched : index.fetch F origin hash = .ok bytes) :
    bytes.length ≤ index.size hash ∧ hexEncode (F.sha256 bytes) = hash := by
  simp only [fetch, bind_ok, required_ok, rejectIf_ok, exists_unit, not_not, pure_ok] at fetched
  obtain ⟨limit, found, _, read, digest, rfl⟩ := fetched
  rw [size, found]
  exact ⟨get_bounded read, digest⟩

theorem fetched_bounded {F : Formats} {origin : Origin} {hashes : List String} {contents : List Bytes}
    (fetched : hashes.mapM (index.fetch F origin) = .ok contents) : (contents.map List.length).sum ≤ (hashes.map index.size).sum := by
  induction hashes generalizing contents with
  | nil =>
    cases fetched
    rfl
  | cons hash hashes ih =>
    rw [List.mapM_cons] at fetched
    obtain ⟨bytes, first, fetched⟩ := bind_ok.mp fetched
    obtain ⟨rest, more, fetched⟩ := bind_ok.mp fetched
    cases fetched
    rw [List.map_cons, List.sum_cons, List.map_cons, List.sum_cons]
    exact Nat.add_le_add (fetch_ok first).1 (ih more)

theorem fetched_of_download {F : Formats} {origin : Origin} {hashes : List String} {objects : List (String × Json)}
    (read : (hashes.mapM fun hash => do
      let bytes ← index.fetch F origin hash
      return (hash, ← F.readValue bytes)) = .ok objects) :
    ∃ contents, hashes.mapM (index.fetch F origin) = .ok contents ∧ objects.map Prod.fst = hashes ∧
      ∀ object ∈ objects, ∃ bytes, index.fetch F origin object.1 = .ok bytes ∧ F.readValue bytes = .ok object.2 := by
  induction hashes generalizing objects with
  | nil =>
    cases read
    exact ⟨[], rfl, rfl, by simp⟩
  | cons hash hashes ih =>
    rw [List.mapM_cons] at read
    obtain ⟨entry, first, read⟩ := bind_ok.mp read
    obtain ⟨bytes, got, first⟩ := bind_ok.mp first
    obtain ⟨value, parsed, first⟩ := bind_ok.mp first
    obtain ⟨rest, more, read⟩ := bind_ok.mp read
    cases first
    cases read
    obtain ⟨contents, others, names, each⟩ := ih more
    refine ⟨bytes :: contents, ?_, by rw [List.map_cons, names], List.forall_mem_cons.mpr ⟨⟨bytes, got, parsed⟩, each⟩⟩
    rw [List.mapM_cons]
    exact bind_ok.mpr ⟨bytes, got, bind_ok.mpr ⟨contents, others, rfl⟩⟩

def copies (body : Json) : List (Option Json) :=
  [body.get "sigstore", body.get "keys", body.get "approvals"] ++
    (((body.get "vendor_collateral").bind Json.asArray).getD []).map fun entry => entry.get "der_base64url"

theorem get_setMember (entries : List (String × Json)) (key : String) (value : Json) :
    (Json.object (setMember entries key value)).get key = some value := by
  have absent : (entries.filter (·.1 ≠ key)).lookup key = none := by
    simp only [List.lookup_eq_none_iff, List.mem_filter, decide_eq_true_eq, bne_iff_ne]
    exact fun entry member => Ne.symm member.2
  simp only [Json.get, setMember, List.lookup_append, absent]
  simp

/-- What `assemble` writes: each source, as often as it stands in the index, is copied from its
object, and the body has the digest of the index. -/
theorem assemble_copies {F : Formats} {objects : List (String × Json)} {evidence : Bytes}
    (rebuilt : index.assemble F objects = .ok evidence) :
    ∃ body, copies body = index.sources.map (List.lookup · objects) ∧ (∀ hash ∈ index.sources, (objects.lookup hash).isSome) ∧
      F.payloadSha256 body = .ok index.bodySha256 ∧
      F.toVec (.object [("schema", .string "stogas.confidential-bundle-envelope.v1"),
        ("body_sha256", .string index.bodySha256), ("body", body)]) = .ok evidence := by
  simp only [assemble, object, bind_ok, required_ok, rejectIf_ok, exists_unit, not_not, mapM_ok, pure_ok] at rebuilt
  obtain ⟨collateral, copied, sigstore, first, keys, second, approvals, third, _, digest, rfl, written⟩ := rebuilt
  have entries : collateral.map (fun entry => entry.get "der_base64url") = (index.vendorCollateral.map Collateral.der).map (List.lookup · objects) ∧
      ∀ entry ∈ index.vendorCollateral, (objects.lookup entry.der).isSome := by
    clear written digest
    generalize index.vendorCollateral = listed at copied ⊢
    induction copied with
    | nil => exact ⟨rfl, by simp⟩
    | cons one _ ih =>
      obtain ⟨value, found, rfl⟩ := one
      simp only [List.map_cons, get_setMember, found, ih.1, List.forall_mem_cons, Option.isSome_some, true_and]
      exact ih.2
  refine ⟨_, ?_, ?_, digest, written⟩
  · simp only [sources, List.map_append, List.map_cons, List.map_nil, first, second, third, ← entries.1]
    rfl
  · intro hash member
    simp only [sources, List.mem_append, List.mem_cons, List.not_mem_nil, or_false, List.mem_map] at member
    rcases member with (rfl | rfl | rfl) | ⟨entry, member, rfl⟩
    · simp [first]
    · simp [second]
    · simp [third]
    · exact entries.2 entry member

/-- The download is within the limit. The copies are, whatever sizes are accepted for these references,
exactly if no reference is repeated. -/
theorem archive_bounds {F : Formats} {bytes : Bytes} {bodySha256 : String} (parsed : parse F bytes bodySha256 = .ok index) :
    (index.references.Nodup ∧ (∀ hash, hash ∈ index.references ↔ hash ∈ index.sources) ∧ index.references.length ≤ 1024 ∧
      index.declared ≤ maxInputBytes ∧
      ∀ (origin : Origin) (objects : List (String × Json)),
        (index.references.mapM fun hash => do
          let bytes ← index.fetch F origin hash
          return (hash, ← F.readValue bytes)) = .ok objects →
        ∃ contents, index.references.mapM (index.fetch F origin) = .ok contents ∧ objects.map Prod.fst = index.references ∧
          (contents.map List.length).sum ≤ maxInputBytes) ∧
    (∀ objects evidence, index.assemble F objects = .ok evidence → ∃ body, copies body = index.sources.map (List.lookup · objects) ∧
      F.payloadSha256 body = .ok bodySha256) ∧
    ((∀ F bytes sizes, parse F bytes bodySha256 = .ok { index with sizes } → ({ index with sizes } : Index).copied ≤ maxInputBytes) ↔
      index.sources.Nodup) := by
  obtain ⟨-, accepted⟩ := parse_ok.mp parsed
  refine ⟨⟨index.references_nodup, fun _ => mem_references, accepted.few, accepted.declared_le, fun origin objects read => ?_⟩, ?_, ?_⟩
  · obtain ⟨contents, fetched, names, -⟩ := fetched_of_download read
    exact ⟨contents, fetched, names, (fetched_bounded fetched).trans accepted.declared_le⟩
  · intro objects evidence rebuilt
    obtain ⟨body, copied, -, digest, -⟩ := assemble_copies rebuilt
    exact ⟨body, copied, accepted.identity.2 ▸ digest⟩
  · constructor
    · intro bounded
      by_contra repeated
      obtain ⟨hash, twice⟩ := List.exists_duplicate_iff_not_nodup.mpr repeated
      have heavy := accepted.heavy_accepted (mem_references.mpr twice.mem)
      have most := bounded { F with readIndex := fun _ => .ok (Accepted.heavy index hash) } bytes _ (parse_ok.mpr ⟨rfl, heavy⟩)
      exact absurd most (Nat.not_le.mpr (accepted.copied_heavy twice))
    · intro once F bytes sizes parsed
      have same : ({ index with sizes } : Index).references.Perm index.sources := once.dedup ▸ references_perm { index with sizes }
      exact (same.map (size _)).sum_eq.ge.trans (parse_ok.mp parsed).2.declared_le

end Index

/-- What a download returns: a boot archive within its limit, and evidence with the digest that the
archive names, each part of which is copied from an object of the digest and size in an accepted index. -/
theorem download_rebuilds {F : Formats} {origin : Origin} {bootSha256 : String} {boot evidence : Bytes}
    (downloaded : downloadFrom F origin bootSha256 = .ok (boot, evidence)) :
    boot.length ≤ maxArchiveBytes ∧ ∃ (index : Index) (objects : List (String × Json)) (body : Json),
      index.Accepted index.bodySha256 ∧ namedEvidence F boot = some index.bodySha256 ∧
      F.payloadSha256 body = .ok index.bodySha256 ∧
      F.toVec (.object [("schema", .string "stogas.confidential-bundle-envelope.v1"),
        ("body_sha256", .string index.bodySha256), ("body", body)]) = .ok evidence ∧
      Index.copies body = index.sources.map (List.lookup · objects) ∧
      ∀ hash ∈ index.sources, ∃ bytes value, objects.lookup hash = some value ∧ F.readValue bytes = .ok value ∧
        hexEncode (F.sha256 bytes) = hash ∧ bytes.length ≤ index.size hash := by
  simp only [downloadFrom, bind_ok, required_ok, pure_ok, Prod.mk.injEq] at downloaded
  obtain ⟨_, gotBoot, named, isNamed, _, -, index, parsed, objects, read, _, rebuilt, rfl, rfl⟩ := downloaded
  have accepted := (Index.parse_ok.mp parsed).2
  obtain rfl := accepted.identity.2
  obtain ⟨body, copied, present, digest, written⟩ := Index.assemble_copies rebuilt
  obtain ⟨-, -, -, each⟩ := Index.fetched_of_download read
  refine ⟨get_bounded gotBoot, index, objects, body, accepted, isNamed, digest, written, copied, fun hash member => ?_⟩
  obtain ⟨value, found⟩ := Option.isSome_iff_exists.mp (present hash member)
  obtain ⟨_, _, rfl, -⟩ := List.lookup_eq_some_iff.mp found
  obtain ⟨bytes, fetched, parsed⟩ := each (hash, value) (by simp)
  exact ⟨bytes, value, found, parsed, (Index.fetch_ok fetched).2, (Index.fetch_ok fetched).1⟩

private def sampleHash (digit : Char) : String := String.ofList (List.replicate 64 digit)

/-- An index of the objects with these names, each of one size. The first is named again where there are
fewer than three. -/
def sampleIndex (names : List Char) (size : Nat) : Index where
  schema := "stogas.evidence-archive.v1"
  bodySha256 := sampleHash '0'
  sizes := names.foldl (fun sizes name => sizes.insert (sampleHash name) size) ∅
  sigstore := sampleHash '0'
  keys := sampleHash (names.getD 1 '0')
  approvals := sampleHash (names.getD 2 '0')
  vendorCollateral := []

private def sampleValue : Json := .object [("document", .object [("evidence_sha256", .string (sampleHash '0'))])]

def sampleFormats (names : List Char) (size : Nat) : Formats where
  readValue _ := .ok sampleValue
  readIndex _ := .ok (sampleIndex names size)
  toVec _ := .ok []
  -- The digest repeats the digit that stands in the path of the object.
  sha256 bytes := List.replicate 32 (17 * (bytes.getD 16 48 - 48))
  payloadSha256 _ := .ok (sampleHash '0')

private def sampleText (text : String) : Bytes := text.toList.map fun char => char.toNat.toUInt8

def sampleOrigin : Origin where
  url := ""
  answers path := .answered 200 none none [sampleText path] true

private theorem sample_get {path : String} {maxBytes : Nat} (fits : (sampleText path).length ≤ maxBytes) :
    get sampleOrigin path maxBytes = .ok (sampleText path) := by
  simp [get, sampleOrigin, getChunks, rejectIf, ok_bind, Nat.not_lt.mpr fits]

private def sampleObject (hash : String) : String := s!"/ledger/objects/{hash}.json"

private structure Sample (names : List Char) (size : Nat) : Prop where
  accepted : (sampleIndex names size).Accepted (sampleHash '0')
  fetched : ∀ hash ∈ (sampleIndex names size).references, (sampleIndex names size).sizes[hash]? = some size ∧
    (sampleText (sampleObject hash)).length ≤ size ∧ hexEncode ((sampleFormats names size).sha256 (sampleText (sampleObject hash))) = hash

private theorem Sample.parse {names : List Char} {size : Nat} (sample : Sample names size) (bytes : Bytes) :
    Index.parse (sampleFormats names size) bytes (sampleHash '0') = .ok (sampleIndex names size) :=
  Index.parse_ok.mpr ⟨rfl, sample.accepted⟩

private theorem Sample.read {names : List Char} {size : Nat} (sample : Sample names size) :
    ((sampleIndex names size).references.mapM fun hash => do
      let bytes ← (sampleIndex names size).fetch (sampleFormats names size) sampleOrigin hash
      return (hash, ← (sampleFormats names size).readValue bytes)) =
    .ok ((sampleIndex names size).references.map fun hash => (hash, sampleValue)) := by
  refine mapM_ok.mpr (List.forall₂_map_right_iff.mpr (List.forall₂_same.mpr fun hash member => ?_))
  obtain ⟨sized, fits, digest⟩ := sample.fetched hash member
  simp only [Index.fetch, bind_ok, required_ok, rejectIf_ok, exists_unit, not_not, pure_ok]
  exact ⟨_, ⟨size, sized, _, sample_get fits, digest, rfl⟩, sampleValue, rfl, rfl⟩

private theorem Sample.assemble {names : List Char} {size : Nat} :
    (sampleIndex names size).assemble (sampleFormats names size)
      ((sampleIndex names size).references.map fun hash => (hash, sampleValue)) = .ok [] := by
  have found : ∀ hash ∈ (sampleIndex names size).sources,
      ((sampleIndex names size).references.map fun hash => (hash, sampleValue)).lookup hash = some sampleValue :=
    fun hash member => List.lookup_graph (fun _ => sampleValue) (Index.mem_references.mpr member)
  have first := found (sampleIndex names size).sigstore (by simp [Index.sources])
  have second := found (sampleIndex names size).keys (by simp [Index.sources])
  have third := found (sampleIndex names size).approvals (by simp [Index.sources])
  simp only [Index.assemble, Index.object, first, second, third]
  rfl

private theorem Sample.download {names : List Char} {size : Nat} (sample : Sample names size) :
    downloadFrom (sampleFormats names size) sampleOrigin "" = .ok (sampleText "/ledger/boots/.json", []) := by
  have hash : isSha256 (sampleHash '0') = true := by decide +kernel
  have boot := sample_get (show (sampleText "/ledger/boots/.json").length ≤ maxArchiveBytes by decide +kernel)
  have short : ∀ name, name = sampleHash '0' → (sampleText s!"/ledger/snapshots/{name}.json").length ≤ maxIndexBytes := by
    rintro name rfl
    decide +kernel
  simp only [downloadFrom, bind_ok, required_ok, pure_ok]
  refine ⟨_, boot, sampleHash '0', ?_, _, sample_get (short _ rfl), _, sample.parse _, _, sample.read, _, Sample.assemble, rfl⟩
  exact Option.filter_eq_some_iff.mpr ⟨rfl, hash⟩

private theorem sample_single : Sample ['0'] maxInputBytes := by
  have references : (sampleIndex ['0'] maxInputBytes).references = [sampleHash '0'] := by
    have distinct : (sampleIndex ['0'] maxInputBytes).sources.dedup = [sampleHash '0'] := by decide +kernel
    rw [Index.references, distinct, List.mergeSort_singleton]
  constructor
  · constructor <;> (try simp only [references]) <;> decide +kernel
  · simp only [references]
    decide +kernel

private theorem sample_distinct : Sample ['0', '1', '2'] 100 := by
  have references : (sampleIndex ['0', '1', '2'] 100).references = [sampleHash '0', sampleHash '1', sampleHash '2'] := by
    have distinct : (sampleIndex ['0', '1', '2'] 100).sources.dedup = [sampleHash '0', sampleHash '1', sampleHash '2'] := by decide +kernel
    rw [Index.references, distinct, List.mergeSort_of_pairwise (by decide +kernel)]
  constructor
  · constructor <;> (try simp only [references]) <;> decide +kernel
  · simp only [references]
    decide +kernel

/-- One object of the full size, copied for each of the three documents. -/
theorem copies_unbounded : ∃ F bytes bodySha256 index objects evidence, Index.parse F bytes bodySha256 = .ok index ∧
    index.assemble F objects = .ok evidence ∧ maxInputBytes < index.copied :=
  ⟨_, [], _, _, _, _, sample_single.parse _, Sample.assemble, by decide +kernel⟩

theorem archive_bounds_sample : (sampleIndex ['0', '1', '2'] 100).copied ≤ maxInputBytes ∧
    ¬ (∀ F bytes sizes, Index.parse F bytes (sampleHash '0') = .ok { sampleIndex ['0'] maxInputBytes with sizes } →
      ({ sampleIndex ['0'] maxInputBytes with sizes } : Index).copied ≤ maxInputBytes) ∧
    ∃ contents, (sampleIndex ['0', '1', '2'] 100).references.mapM
        ((sampleIndex ['0', '1', '2'] 100).fetch (sampleFormats ['0', '1', '2'] 100) sampleOrigin) = .ok contents ∧
      (contents.map List.length).sum ≤ maxInputBytes := by
  obtain ⟨⟨-, -, -, -, fetches⟩, -, copies⟩ := Index.archive_bounds (sample_distinct.parse [])
  obtain ⟨contents, got, -, bounded⟩ := fetches sampleOrigin _ sample_distinct.read
  refine ⟨copies.mpr (by decide +kernel) _ _ _ (sample_distinct.parse []), ?_, contents, got, bounded⟩
  exact (Index.archive_bounds (sample_single.parse [])).2.2.not.mpr (by decide +kernel)

theorem download_rebuilds_sample : ∃ (index : Index) (objects : List (String × Json)) (body : Json),
    namedEvidence (sampleFormats ['0', '1', '2'] 100) (sampleText "/ledger/boots/.json") = some index.bodySha256 ∧
      Index.copies body = index.sources.map (List.lookup · objects) := by
  obtain ⟨-, index, objects, body, -, named, -, -, copied, -⟩ := download_rebuilds sample_distinct.download
  exact ⟨index, objects, body, named, copied⟩

end StogasVerifier.Sdk.Archive
