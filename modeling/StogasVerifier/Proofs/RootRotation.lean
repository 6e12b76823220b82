import StogasVerifier.Sigstore.Tuf

/-! Which lists of root files lead from a trusted root to a newer one. -/

namespace StogasVerifier.Tuf
open Lib
open Sigstore (Bytes)

variable {L : Libraries}

def Root.signers (L : Libraries) (root : Root) (role : Role) (metadata : Metadata) : Set Bytes :=
  { key | ∃ keyid ∈ role.keyids, ∃ signature, root.keys.lookup keyid = some key ∧
    metadata.signatures.lookup keyid = some signature ∧ L.verifySpki key .ecdsaP256Sha256 metadata.canonical signature = .ok () }

def Root.Signs (L : Libraries) (root : Root) (metadata : Metadata) : Prop :=
  ∃ role, root.roles.lookup "root" = some role ∧ role.threshold ≤ (root.signers L role metadata).ncard

theorem Root.signer_some {root : Root} {metadata : Metadata} {keyid : String} {key : Bytes} :
    root.signer L metadata keyid = some key ↔ ∃ signature, root.keys.lookup keyid = some key ∧
      metadata.signatures.lookup keyid = some signature ∧
      L.verifySpki key .ecdsaP256Sha256 metadata.canonical signature = .ok () := by
  unfold signer
  split
  next found signature listed signed =>
    rw [listed, signed]
    constructor
    · intro signs
      split at signs
      next valid =>
        cases signs
        exact ⟨signature, rfl, rfl, valid⟩
      next => cases signs
    · rintro ⟨other, same, also, valid⟩
      cases same
      cases also
      rw [valid]
  next missing =>
    constructor
    · nofun
    · rintro ⟨signature, listed, signed, _⟩
      exact absurd signed (missing _ _ listed)

theorem Root.signers_card (root : Root) (role : Role) (metadata : Metadata) :
    (role.keyids.filterMap (root.signer L metadata)).dedup.length = (root.signers L role metadata).ncard := by
  have same : root.signers L role metadata = ((role.keyids.filterMap (root.signer L metadata)).toFinset : Set Bytes) := by
    ext key
    rw [List.coe_toFinset]
    simp only [signers, Set.mem_ofPred_eq, List.mem_filterMap, signer_some]
  rw [same, Set.ncard_coe_finset, List.card_toFinset]

theorem Metadata.parse_kind {bytes : Bytes} {kind : String} {metadata : Metadata} (parsed : Metadata.parse L bytes kind = .ok metadata) :
    (metadata.signed.member "_type").asStr = some kind ∧ metadata.version < 2 ^ 64 := by
  simp only [Metadata.parse, bind_ok, required_ok, rejectIf_ok, exists_unit, not_not, pure_ok] at parsed
  obtain ⟨_, -, signed, -, typed, -, version, read, _, -, _, -, _, -, _, -, rfl⟩ := parsed
  exact ⟨typed, Json.asU64_lt (Option.eq_some_of_filter_eq_some read)⟩

theorem Root.verify_ok {root : Root} {metadata : Metadata} (kind : (metadata.signed.member "_type").asStr = some "root") :
    root.verify L metadata = .ok () ↔ root.Signs L metadata := by
  simp only [verify, kind, bind_ok, required_ok, rejectIf_ok, Option.getD_some, signers_card, not_lt]
  rfl

theorem Root.parse_version {metadata : Metadata} {root : Root} (read : Root.parse L metadata = .ok root) :
    root.version = metadata.version := by
  simp only [Root.parse, bind_ok, pure_ok] at read
  obtain ⟨_, -, _, -, _, -, rfl⟩ := read
  rfl

def Root.Follows (L : Libraries) (current : Root) (bytes : Bytes) (next : Root) : Prop :=
  ∃ metadata, Metadata.parse L bytes "root" = .ok metadata ∧ Root.parse L metadata = .ok next ∧
    next.version = current.version + 1 ∧ current.Signs L metadata ∧ next.Signs L metadata

theorem Root.advance_ok {current next : Root} {bytes : Bytes} :
    current.advance L bytes = .ok next ↔ current.Follows L bytes next := by
  simp only [advance, bind_ok, rejectIf_ok, exists_unit, not_not, pure_ok]
  apply exists_congr
  intro metadata
  apply and_congr_right
  intro parsed
  obtain ⟨kind, small⟩ := Metadata.parse_kind parsed
  constructor
  · rintro ⟨continues, signed, other, read, own, same⟩
    subst same
    obtain ⟨-, version⟩ := Option.ite_none_right_eq_some.mp continues
    rw [parse_version read, ← Option.some.inj version]
    exact ⟨read, rfl, (verify_ok kind).mp signed, (verify_ok kind).mp own⟩
  · rintro ⟨read, version, signed, own⟩
    rw [parse_version read] at version
    rw [version] at small
    exact ⟨by rw [if_pos small, version], (verify_ok kind).mpr signed, next, read, (verify_ok kind).mpr own, rfl⟩

theorem newestRoot_cons {trusted result : Root} {bytes : Bytes} {files : List Bytes} :
    newestRoot L trusted (bytes :: files) = .ok result ↔
      ∃ next, trusted.Follows L bytes next ∧ newestRoot L next files = .ok result := by
  rw [newestRoot, List.foldlM_cons, bind_ok]
  apply exists_congr
  intro next
  rw [Root.advance_ok]
  rfl

/-- Files lead from a trusted root to another one exactly if each parses as root
metadata, continues the versions without a gap, and is signed by a threshold of
its predecessor's root keys and of its own; the last root is the result. Reading
a list in two parts gives what reading it at once gives, failures included. -/
theorem newest_root (L : Libraries) (trusted : Root) (files : List Bytes) :
    (∀ result, newestRoot L trusted files = .ok result ↔ ∃ roots : List Root, roots.length = files.length ∧
      (trusted :: roots).getLast? = some result ∧
      ∀ index bytes before next, files[index]? = some bytes → (trusted :: roots)[index]? = some before → roots[index]? = some next →
        ∃ metadata, Metadata.parse L bytes "root" = .ok metadata ∧ Root.parse L metadata = .ok next ∧
          next.version = trusted.version + 1 + index ∧ before.Signs L metadata ∧ next.Signs L metadata) ∧
    ∀ more, newestRoot L trusted (files ++ more) = newestRoot L trusted files >>= fun root => newestRoot L root more := by
  refine ⟨fun result => ?_, fun more => List.foldlM_append⟩
  induction files generalizing trusted with
  | nil =>
    constructor
    · intro done
      cases done
      exact ⟨[], rfl, rfl, nofun⟩
    · rintro ⟨roots, empty, last, _⟩
      cases List.length_eq_zero_iff.mp empty
      cases last
      rfl
  | cons file files ih =>
    rw [newestRoot_cons]
    constructor
    · rintro ⟨root, ⟨metadata, parsed, read, version, signed, own⟩, rest⟩
      obtain ⟨roots, length, last, each⟩ := (ih root).mp rest
      refine ⟨root :: roots, congrArg Nat.succ length, last, ?_⟩
      intro index bytes before next here earlier later
      cases index with
      | zero =>
        cases here
        cases earlier
        cases later
        exact ⟨metadata, parsed, read, version, signed, own⟩
      | succ index =>
        obtain ⟨other, parsed, read, number, signed, own⟩ := each index bytes before next here earlier later
        exact ⟨other, parsed, read, by omega, signed, own⟩
    · rintro ⟨roots, length, last, each⟩
      cases roots with
      | nil => cases length
      | cons root roots =>
        obtain ⟨metadata, parsed, read, version, signed, own⟩ := each 0 file trusted root rfl rfl rfl
        refine ⟨root, ⟨metadata, parsed, read, version, signed, own⟩, (ih root).mpr ⟨roots, Nat.succ.inj length, last, ?_⟩⟩
        intro index bytes before next here earlier later
        obtain ⟨other, parsed, read, number, signed, own⟩ := each (index + 1) bytes before next here earlier later
        exact ⟨other, parsed, read, by omega, signed, own⟩

end StogasVerifier.Tuf
