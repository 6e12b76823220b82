import StogasVerifier.Proofs.CanonicalReading
import StogasVerifier.Proofs.RefreshAtomic
import StogasVerifier.Proofs.SessionCheck

/-! Reuse of verified releases is transparent: a refresh computes the entries that it would
compute without any earlier result. -/

namespace StogasVerifier.Evidence
open Lib
open Std (TreeMap)
open Sigstore (Bytes TrustedRoot hexEncode)
open Approvals (Environment RootKey VerifiedApprovals VerifiedKeys VerifiedSigstore ApprovalVerifier)

def Cached.content {Result : Type} (entry : Cached Result) : String × Result := (entry.digest, entry.value)

def SameEntries {Result : Type} (first second : TreeMap String (Cached Result) compare) : Prop :=
  ∀ id : String, first[id]?.map Cached.content = second[id]?.map Cached.content

namespace ReleaseKind
variable {Release Result : Type} {kind : ReleaseKind Release Result} {listed : Release → Prop}

def Stored (kind : ReleaseKind Release Result) (listed : Release → Prop) (id : String) (entry : Cached Result) : Prop :=
  ∃ release, listed release ∧ kind.releaseId release = .ok id ∧ kind.digest release = .ok entry.digest ∧
    kind.verify release entry.verifiedAt = .ok entry.value

def Stable (kind : ReleaseKind Release Result) (listed : Release → Prop) : Prop :=
  ∀ first second digest, listed first → listed second → kind.digest first = .ok digest → kind.digest second = .ok digest →
    ∀ now later, now ≤ later → Keeps (kind.verify first now) (kind.verify second later)

theorem cached_stored {prior} {id : String}
    (earlier : ∀ entry, prior = some entry → kind.Stored listed id entry) {release : Release} (member : listed release)
    (identity : kind.releaseId release = .ok id) {digest : String} (named : kind.digest release = .ok digest) {nowUnixMs : Int}
    {entry} (ok : cached prior digest nowUnixMs (kind.verify release nowUnixMs) = .ok entry) :
    kind.Stored listed id entry := by
  unfold cached at ok
  split at ok
  next old reused =>
    obtain ⟨found, fits⟩ := Option.filter_eq_some_iff.mp reused
    simp only [Bool.decide_and, Bool.and_eq_true, decide_eq_true_eq] at fits
    cases ok
    obtain ⟨source, known, identity, same, verified⟩ := earlier old found
    exact ⟨source, known, identity, fits.1 ▸ same, verified⟩
  next =>
    obtain ⟨value, verified, made⟩ := bind_ok.mp ok
    cases made
    exact ⟨release, member, identity, named, mapError_ok.mp verified⟩

theorem cached_transparent (stable : kind.Stable listed) {prior} {id : String}
    (earlier : ∀ entry, prior = some entry → kind.Stored listed id entry) {release : Release} (member : listed release)
    {digest : String} (named : kind.digest release = .ok digest) (nowUnixMs : Int) :
    SameOutcome (fun first second => first.content = second.content)
      (cached prior digest nowUnixMs (kind.verify release nowUnixMs))
      (cached none digest nowUnixMs (kind.verify release nowUnixMs)) := by
  have fresh : cached none digest nowUnixMs (kind.verify release nowUnixMs) = do
      let value ← (kind.verify release nowUnixMs).mapError .approval
      return { digest, verifiedAt := nowUnixMs, value } := rfl
  rw [fresh]
  unfold cached
  split
  next old reused =>
    obtain ⟨found, fits⟩ := Option.filter_eq_some_iff.mp reused
    simp only [Bool.decide_and, Bool.and_eq_true, decide_eq_true_eq] at fits
    obtain ⟨source, known, -, same, verified⟩ := earlier old found
    have again := stable source release digest known member (fits.1 ▸ same) named _ nowUnixMs fits.2 verified
    rw [again]
    exact .ok rfl
  next =>
    cases kind.verify release nowUnixMs with
    | error error => exact .error _
    | ok value => exact .ok rfl

theorem verifyEach_stored {prior : String → Option (Cached Result)} {nowUnixMs : Int}
    (earlier : ∀ id entry, prior id = some entry → kind.Stored listed id entry) {releases}
    (members : ∀ release ∈ releases, listed release) {entries final}
    (stored : ∀ (id : String) entry, entries[id]? = some entry → kind.Stored listed id entry)
    (ok : kind.verifyEach prior nowUnixMs releases entries = .ok final) :
    ∀ (id : String) entry, final[id]? = some entry → kind.Stored listed id entry := by
  induction releases generalizing entries with
  | nil =>
    cases ok
    exact stored
  | cons release releases ih =>
    simp only [verifyEach, bind_ok, mapError_ok] at ok
    obtain ⟨id, identity, digest, named, entry, made, rest⟩ := ok
    refine ih (fun other member => members other (List.mem_cons_of_mem _ member)) (fun other found lookup => ?_) rest
    rw [lookup_insert] at lookup
    split at lookup
    next same =>
      cases lookup
      exact same ▸ cached_stored (earlier id) (members release List.mem_cons_self) identity named made
    · exact stored other found lookup

theorem verifyEach_transparent (stable : kind.Stable listed) {prior : String → Option (Cached Result)} (nowUnixMs : Int)
    (earlier : ∀ id entry, prior id = some entry → kind.Stored listed id entry) (releases : List Release)
    (members : ∀ release ∈ releases, listed release) {entries fresh} (same : SameEntries entries fresh) :
    SameOutcome SameEntries (kind.verifyEach prior nowUnixMs releases entries)
      (kind.verifyEach (fun _ => none) nowUnixMs releases fresh) := by
  induction releases generalizing entries fresh with
  | nil => exact .ok same
  | cons release releases ih =>
    refine .after fun id _ => .after fun digest named => ?_
    have result := cached_transparent stable (earlier id) (members release List.mem_cons_self) (mapError_ok.mp named) nowUnixMs
    refine result.bind fun entry other content => ?_
    refine ih (fun other member => members other (List.mem_cons_of_mem _ member)) fun key => ?_
    simp only [lookup_insert]
    split
    · simp only [Option.map_some, content]
    · exact same key

end ReleaseKind

variable {L : Libraries}

def Libraries.approved (L : Libraries) (evidence : Bytes) : Option L.Manifest := do
  let value ← (L.parseJson evidence).toOption
  let envelope ← (L.readEnvelope value).toOption
  return envelope.approvals.document

def Libraries.ListedGateway (L : Libraries) (evidence : List Bytes) (gateway : AllowedIgvm L.Value) : Prop :=
  ∃ bytes ∈ evidence, ∃ manifest, L.approved bytes = some manifest ∧ gateway ∈ manifest.gateways

def Libraries.ListedCatalog (L : Libraries) (evidence : List Bytes) (catalog : AllowedCatalog L.Value) : Prop :=
  ∃ bytes ∈ evidence, ∃ manifest, L.approved bytes = some manifest ∧ catalog ∈ manifest.catalogs

structure CollisionFree (L : Libraries) (evidence : List Bytes) : Prop where
  gateways : ∀ first second digest, L.ListedGateway evidence first → L.ListedGateway evidence second →
    L.payloadSha256 (L.allowedGatewayValue first) = .ok digest → L.payloadSha256 (L.allowedGatewayValue second) = .ok digest →
    SameRelease first second
  catalogs : ∀ first second digest, L.ListedCatalog evidence first → L.ListedCatalog evidence second →
    L.payloadSha256 (L.allowedCatalogValue first) = .ok digest → L.payloadSha256 (L.allowedCatalogValue second) = .ok digest →
    SameRelease first second

theorem gatewayKind_stable (reads : JsonReaders L) {evidence} (free : CollisionFree L evidence)
    (approvals : VerifiedApprovals L.toApprovals) : (gatewayKind approvals).Stable (L.ListedGateway evidence) :=
  fun first second digest known other one two _ _ order =>
    verifyGateway_later reads approvals (free.gateways first second digest known other one two) order

theorem catalogKind_stable (reads : JsonReaders L) {evidence} (free : CollisionFree L evidence)
    (approvals : VerifiedApprovals L.toApprovals) : (catalogKind approvals).Stable (L.ListedCatalog evidence) :=
  fun first second digest known other one two _ _ order =>
    verifyCatalog_later reads approvals (free.catalogs first second digest known other one two) order

theorem gatewayKind_congr {first second : VerifiedApprovals L.toApprovals} (sigstore : first.sigstore = second.sigstore)
    (environment : first.keys.environment = second.keys.environment) : gatewayKind first = gatewayKind second := by
  have verify : verifyGateway first = verifyGateway second := by
    funext release now
    simp only [verifyGateway, sigstore, environment]
  simp only [gatewayKind, verify]

theorem catalogKind_congr {first second : VerifiedApprovals L.toApprovals} (sigstore : first.sigstore = second.sigstore)
    (environment : first.keys.environment = second.keys.environment) : catalogKind first = catalogKind second := by
  have verify : verifyCatalog first = verifyCatalog second := by
    funext release now
    simp only [verifyCatalog, sigstore, environment]
  simp only [catalogKind, verify]

namespace Verifier

def uncached (verifier : Verifier L) : Verifier L :=
  { verifier with current := verifier.current.map fun snapshot => { snapshot with gateways := ∅, catalogs := ∅ } }

/-- Where the current results for releases and hardware come from. -/
structure Caches (verifier : Verifier L) (evidence : List Bytes) : Prop where
  environment : ∀ snapshot, verifier.current = some snapshot →
    snapshot.approvals.keys.environment = verifier.approvals.environment
  gateways : ∀ snapshot, verifier.current = some snapshot → ∀ (id : String) entry, snapshot.gateways[id]? = some entry →
    (gatewayKind snapshot.approvals).Stored (L.ListedGateway evidence) id entry
  catalogs : ∀ snapshot, verifier.current = some snapshot → ∀ (id : String) entry, snapshot.catalogs[id]? = some entry →
    (catalogKind snapshot.approvals).Stored (L.ListedCatalog evidence) id entry
  hardware : ∀ snapshot, verifier.current = some snapshot →
    L.verifyHardwarePolicy snapshot.approvals.manifest.hardwarePolicy = .ok snapshot.hardware

/-- The first authority of a refresh decides about reuse and environment. -/
structure Authorized (verifier : Verifier L) (sigstore : VerifiedSigstore) (reused : Bool) (keys : VerifiedKeys) : Prop where
  sigstore : reused → ∃ snapshot, verifier.current = some snapshot ∧ snapshot.approvals.sigstore = sigstore
  environment : keys.document.environment = verifier.approvals.environment

variable {verifier : Verifier L} {sigstore : VerifiedSigstore} {reused : Bool}

theorem sigstore_reused {files : L.Value} (found : verifier.sigstore files = .ok (sigstore, reused)) (reuse : reused) :
    ∃ snapshot, verifier.current = some snapshot ∧ snapshot.approvals.sigstore = sigstore := by
  simp only [Verifier.sigstore, bind_ok] at found
  obtain ⟨_, -, digest, -, chosen⟩ := found
  split at chosen
  next snapshot same =>
    cases chosen
    exact ⟨snapshot, (Option.filter_eq_some_iff.mp same).1, rfl⟩
  next =>
    obtain ⟨verified, -, made⟩ := bind_ok.mp chosen
    cases made
    cases reuse

variable {bytes : Bytes} {nowUnixMs : Int} {keys : VerifiedKeys}

theorem observeKeys_verified {verifier : ApprovalVerifier L.toApprovals} {trust : TrustedRoot}
    (observed : (verifier.observeKeys bytes trust nowUnixMs).1 = .ok keys) :
    verifier.verifyKeys bytes trust nowUnixMs = .ok keys := by
  unfold ApprovalVerifier.observeKeys at observed
  split at observed
  · cases observed
  next verified authorized =>
    obtain ⟨_, -, rfl⟩ := map_ok.mp observed
    exact authorized

theorem verifyKeys_ok {verifier : ApprovalVerifier L.toApprovals} {trust : TrustedRoot}
    (authorized : verifier.verifyKeys bytes trust nowUnixMs = .ok keys) :
    keys.document.environment = verifier.environment ∧ ∃ document signature, L.keysValue keys.document = .ok document ∧
      L.verifySignature document signature verifier.root.keyId verifier.root.publicKey = .ok () := by
  simp only [ApprovalVerifier.verifyKeys, Approvals.Libraries.validateKeys, bind_ok, rejectIf_ok, mapError_ok, pure_ok, exists_unit,
    not_not] at authorized
  obtain ⟨_, _, -, signed, -, ⟨-, environment, -⟩, rest⟩ := authorized
  obtain ⟨document, written, signed, _, -, _, -, _, -, -, _, -, rfl⟩ := rest
  exact ⟨environment, document, _, written, signed⟩

theorem observeKeys_ok {body : L.Value} (ok : (verifier.observeKeys body nowUnixMs).1 = .ok (sigstore, reused, keys)) :
    verifier.sigstore (L.index body "sigstore") = .ok (sigstore, reused) ∧
      ∃ bytes, verifier.approvals.verifyKeys bytes sigstore.trustedRoot nowUnixMs = .ok keys := by
  unfold observeKeys at ok
  cases found : verifier.sigstore (L.index body "sigstore") with
  | error error => simp [found] at ok
  | ok pair =>
    obtain ⟨chosen, flag⟩ := pair
    cases serialized : L.toVec (L.index body "keys") with
    | error error => simp [found, serialized] at ok
    | ok bytes =>
      simp only [found, serialized, map_ok, mapError_ok] at ok
      obtain ⟨observed, learned, same⟩ := ok
      cases same
      exact ⟨rfl, bytes, observeKeys_verified learned⟩

theorem observeKeys_authorized {body : L.Value} (ok : (verifier.observeKeys body nowUnixMs).1 = .ok (sigstore, reused, keys)) :
    verifier.Authorized sigstore reused keys := by
  obtain ⟨found, bytes, authorized⟩ := observeKeys_ok ok
  exact ⟨fun reuse => sigstore_reused found reuse, (verifyKeys_ok authorized).1⟩

variable {approvals : VerifiedApprovals L.toApprovals}

theorem verifyWithKeys_ok {verifier : ApprovalVerifier L.toApprovals} {signed : L.SignedApprovals}
    (ok : verifier.verifyWithKeys keys signed sigstore nowUnixMs = .ok approvals) :
    approvals.sigstore = sigstore ∧ approvals.keys = keys.document ∧ approvals.manifest = signed.document ∧
      L.expiryUnixMs approvals.keys = .ok approvals.expiresUnixMs := by
  simp only [ApprovalVerifier.verifyWithKeys, bind_ok, mapError_ok, pure_ok] at ok
  obtain ⟨_, -, _, -, _, decided, _, -, _, -, rfl⟩ := ok
  simp only [Approvals.verifyOnlineApproval, bind_ok, mapError_ok, pure_ok] at decided
  obtain ⟨_, -, _, -, _, -, _, -, _, -, _, -, _, -, _, -, _, -, _, expiry, rfl⟩ := decided
  exact ⟨rfl, rfl, rfl, expiry⟩

theorem verifyCandidate_ok {value : L.Value} {snapshot : Snapshot L}
    (ok : verifier.verifyCandidate value (sigstore, reused, keys) nowUnixMs = .ok snapshot) :
    snapshot.approvals.sigstore = sigstore ∧ snapshot.approvals.keys = keys.document ∧
    L.expiryUnixMs snapshot.approvals.keys = .ok snapshot.approvals.expiresUnixMs ∧
    ∃ envelope, L.readEnvelope value = .ok envelope ∧ snapshot.approvals.manifest = envelope.approvals.document ∧
      verifier.verifySnapshot ⟨envelope.bodySha256, snapshot.approvals, reused, envelope.vendorCollateral⟩ nowUnixMs = .ok snapshot := by
  simp only [verifyCandidate, bind_ok, mapError_ok] at ok
  obtain ⟨envelope, parsed, approvals, authorized, verified⟩ := ok
  have made : snapshot.approvals = approvals := by
    simp only [verifySnapshot, bind_ok, mapError_ok, pure_ok] at verified
    obtain ⟨_, -, _, -, _, -, _, -, rfl⟩ := verified
    rfl
  subst made
  simp only [Libraries.parseEnvelope, bind_ok, rejectIf_ok, mapError_ok, pure_ok, exists_unit] at parsed
  obtain ⟨_, -, envelope, read, -, -, rfl⟩ := parsed
  obtain ⟨sigstore, keys, manifest, expiry⟩ := verifyWithKeys_ok authorized
  exact ⟨sigstore, keys, expiry, envelope, read, manifest, verified⟩

theorem Authorized.reuse {evidence} (caches : verifier.Caches evidence)
    (authorized : verifier.Authorized approvals.sigstore reused keys) (same : approvals.keys = keys.document) {snapshot}
    (found : (verifier.current.filter fun _ => reused) = some snapshot) :
    verifier.current = some snapshot ∧ snapshot.approvals.sigstore = approvals.sigstore ∧
      snapshot.approvals.keys.environment = approvals.keys.environment := by
  obtain ⟨current, reuse⟩ := Option.filter_eq_some_iff.mp found
  obtain ⟨other, again, sigstore⟩ := authorized.sigstore reuse
  rw [current] at again
  cases again
  exact ⟨current, sigstore, by rw [caches.environment snapshot current, same, authorized.environment]⟩

theorem prior_gateways {evidence : List Bytes} (caches : verifier.Caches evidence)
    (authorized : verifier.Authorized approvals.sigstore reused keys) (same : approvals.keys = keys.document)
    (id : String) (entry : Cached VerifiedRelease)
    (prior : ((verifier.current.filter fun _ => reused).bind fun snapshot => snapshot.gateways[id]?) = some entry) :
    (gatewayKind approvals).Stored (L.ListedGateway evidence) id entry := by
  obtain ⟨snapshot, found, stored⟩ := Option.bind_eq_some_iff.mp prior
  obtain ⟨current, sigstore, environment⟩ := authorized.reuse caches same found
  rw [← gatewayKind_congr sigstore environment]
  exact caches.gateways snapshot current id entry stored

theorem prior_catalogs {evidence : List Bytes} (caches : verifier.Caches evidence)
    (authorized : verifier.Authorized approvals.sigstore reused keys) (same : approvals.keys = keys.document)
    (id : String) (entry : Cached VerifiedCatalogRelease)
    (prior : ((verifier.current.filter fun _ => reused).bind fun snapshot => snapshot.catalogs[id]?) = some entry) :
    (catalogKind approvals).Stored (L.ListedCatalog evidence) id entry := by
  obtain ⟨snapshot, found, stored⟩ := Option.bind_eq_some_iff.mp prior
  obtain ⟨current, sigstore, environment⟩ := authorized.reuse caches same found
  rw [← catalogKind_congr sigstore environment]
  exact caches.catalogs snapshot current id entry stored

theorem Caches.learning {evidence} (caches : verifier.Caches evidence)
    (keyState : Approvals.KeyState) (revocations : Revocations) : (verifier.learning keyState revocations).Caches evidence :=
  ⟨caches.environment, caches.gateways, caches.catalogs, caches.hardware⟩

theorem Caches.installing {evidence} (caches : verifier.Caches evidence) {value : L.Value} {snapshot}
    (authorized : verifier.Authorized sigstore reused keys)
    (listed : ∀ envelope, L.readEnvelope value = .ok envelope →
      (∀ gateway ∈ envelope.approvals.document.gateways, L.ListedGateway evidence gateway) ∧
      ∀ catalog ∈ envelope.approvals.document.catalogs, L.ListedCatalog evidence catalog)
    (verified : verifier.verifyCandidate value (sigstore, reused, keys) nowUnixMs = .ok snapshot) :
    (verifier.installing snapshot).Caches evidence := by
  obtain ⟨rfl, same, -, envelope, read, manifest, made⟩ := verifyCandidate_ok verified
  obtain ⟨gatewaysListed, catalogsListed⟩ := listed envelope read
  rw [← manifest] at gatewaysListed catalogsListed
  simp only [verifySnapshot, bind_ok, mapError_ok, pure_ok] at made
  obtain ⟨gateways, gatewaysMade, catalogs, catalogsMade, hardware, approved, _, -, made⟩ := made
  have gatewaysSame : snapshot.gateways = gateways := by rw [← made]
  have catalogsSame : snapshot.catalogs = catalogs := by rw [← made]
  refine ⟨?_, ?_, ?_, ?_⟩
  · rintro _ ⟨⟩
    rw [same, authorized.environment]
    rfl
  · rintro _ ⟨⟩
    rw [gatewaysSame]
    exact ReleaseKind.verifyEach_stored (prior_gateways caches authorized same) gatewaysListed (by simp) gatewaysMade
  · rintro _ ⟨⟩
    rw [catalogsSame]
    exact ReleaseKind.verifyEach_stored (prior_catalogs caches authorized same) catalogsListed (by simp) catalogsMade
  · rintro _ ⟨⟩
    rw [approved, ← made]

def Call.evidence : Call → Option Bytes
  | .refresh bytes _ => some bytes
  | .verifyKeyManifest _ _ => none

theorem listed_of_approved {evidence} (member : bytes ∈ evidence) {value : L.Value}
    (parsed : L.parseJson bytes = .ok value) {envelope} (read : L.readEnvelope value = .ok envelope) :
    (∀ gateway ∈ envelope.approvals.document.gateways, L.ListedGateway evidence gateway) ∧
    ∀ catalog ∈ envelope.approvals.document.catalogs, L.ListedCatalog evidence catalog := by
  have approved : L.approved bytes = some envelope.approvals.document := by
    simp [Libraries.approved, parsed, read, Except.toOption]
  exact ⟨fun _ listed => ⟨bytes, member, _, approved, listed⟩, fun _ listed => ⟨bytes, member, _, approved, listed⟩⟩

theorem Caches.perform {evidence} (caches : verifier.Caches evidence) {call : Call}
    (member : ∀ bytes, call.evidence = some bytes → bytes ∈ evidence) : (verifier.perform call).Caches evidence := by
  cases call with
  | verifyKeyManifest bytes nowUnixMs =>
    obtain ⟨keyState, learned⟩ := verifyKeyManifest_learning verifier bytes nowUnixMs
    rw [Verifier.perform, learned]
    exact caches.learning keyState _
  | refresh bytes nowUnixMs =>
    rcases refresh_cases verifier bytes nowUnixMs with
      ⟨error, keyState, revocations, failed⟩ |
      ⟨value, ⟨sigstore, reused, keys⟩, keyState, revocations, snapshot, final, parsed, observed, verified, -, done⟩
    · rw [Verifier.perform, failed]
      exact caches.learning keyState revocations
    · rw [Verifier.perform, done]
      obtain ⟨reuse, environment⟩ := observeKeys_authorized observed
      have stored := (caches.learning keyState revocations).installing ⟨reuse, environment⟩
        (fun _ read => listed_of_approved (member bytes rfl) parsed read) verified
      exact ⟨stored.environment, stored.gateways, stored.catalogs, stored.hardware⟩

theorem Caches.run {evidence} (caches : verifier.Caches evidence) {calls}
    (members : ∀ call ∈ calls, ∀ bytes, call.evidence = some bytes → bytes ∈ evidence) : (verifier.run calls).Caches evidence := by
  induction calls generalizing verifier with
  | nil => exact caches
  | cons call calls ih =>
    exact ih (caches.perform (members call List.mem_cons_self)) fun other later => members other (List.mem_cons_of_mem _ later)

theorem new_caches {environment} {root : RootKey}
    (created : Verifier.new L environment root = .ok verifier) (evidence : List Bytes) : verifier.Caches evidence := by
  simp only [Verifier.new, bind_ok, mapError_ok, pure_ok] at created
  obtain ⟨approvals, -, rfl⟩ := created
  constructor <;> (intro snapshot current; cases current)

def SameSnapshot (first second : Snapshot L) : Prop :=
  second = { first with gateways := second.gateways, catalogs := second.catalogs } ∧
    SameEntries first.gateways second.gateways ∧ SameEntries first.catalogs second.catalogs

theorem uncached_observeKeys (verifier : Verifier L) (body : L.Value) (nowUnixMs : Int) :
    verifier.uncached.observeKeys body nowUnixMs =
      ((verifier.observeKeys body nowUnixMs).1, (verifier.observeKeys body nowUnixMs).2.uncached) := by
  have sigstore : verifier.uncached.sigstore = verifier.sigstore := by
    funext files
    unfold Verifier.sigstore uncached
    cases verifier.current with
    | none => rfl
    | some snapshot =>
      simp only [Option.map_some, Option.filter_some]
      refine bind_congr fun _ => bind_congr fun digest => ?_
      by_cases same : snapshot.approvals.sigstore.digest = digest <;> simp [same]
  unfold observeKeys
  rw [sigstore]
  split
  · rfl
  · split <;> rfl

theorem verifySnapshot_transparent (reads : JsonReaders L) {evidence}
    (free : CollisionFree L evidence) (caches : verifier.Caches evidence) {candidate}
    (authorized : verifier.Authorized candidate.approvals.sigstore candidate.sigstoreReused keys)
    (same : candidate.approvals.keys = keys.document)
    (gateways : ∀ gateway ∈ candidate.approvals.manifest.gateways, L.ListedGateway evidence gateway)
    (catalogs : ∀ catalog ∈ candidate.approvals.manifest.catalogs, L.ListedCatalog evidence catalog) (nowUnixMs : Int) :
    SameOutcome SameSnapshot (verifier.verifySnapshot candidate nowUnixMs) (verifier.uncached.verifySnapshot candidate nowUnixMs) := by
  have cleared : ∀ snapshot, (verifier.uncached.current.filter fun _ => candidate.sigstoreReused) = some snapshot →
      snapshot.gateways = ∅ ∧ snapshot.catalogs = ∅ := by
    intro snapshot found
    obtain ⟨old, -, rfl⟩ := Option.map_eq_some_iff.mp (Option.filter_eq_some_iff.mp found).1
    exact ⟨rfl, rfl⟩
  have noGateways : (fun id : String => (verifier.uncached.current.filter fun _ => candidate.sigstoreReused).bind
      fun snapshot => snapshot.gateways[id]?) = fun _ => none := by
    funext id
    rw [Option.bind_eq_none_iff]
    intro snapshot found
    rw [(cleared snapshot found).1, TreeMap.getElem?_emptyc]
  have noCatalogs : (fun id : String => (verifier.uncached.current.filter fun _ => candidate.sigstoreReused).bind
      fun snapshot => snapshot.catalogs[id]?) = fun _ => none := by
    funext id
    rw [Option.bind_eq_none_iff]
    intro snapshot found
    rw [(cleared snapshot found).2, TreeMap.getElem?_emptyc]
  have collateral : verifier.uncached.current.map Snapshot.collateral = verifier.current.map Snapshot.collateral := by
    rw [uncached, Option.map_map]
    rfl
  unfold verifySnapshot
  dsimp only
  rw [noGateways, noCatalogs, collateral]
  refine (ReleaseKind.verifyEach_transparent (gatewayKind_stable reads free _) nowUnixMs (prior_gateways caches authorized same) _
    gateways fun _ => rfl).bind fun _ _ sameGateways => ?_
  refine (ReleaseKind.verifyEach_transparent (catalogKind_stable reads free _) nowUnixMs (prior_catalogs caches authorized same) _
    catalogs fun _ => rfl).bind fun _ _ sameCatalogs => ?_
  exact .after fun _ _ => .after fun _ _ => .ok ⟨rfl, sameGateways, sameCatalogs⟩

theorem verifyCandidate_transparent (reads : JsonReaders L) {evidence : List Bytes}
    (free : CollisionFree L evidence) (caches : verifier.Caches evidence) (member : bytes ∈ evidence) {value : L.Value}
    (parsed : L.parseJson bytes = .ok value)
    (authorized : verifier.Authorized sigstore reused keys) (nowUnixMs : Int) :
    SameOutcome SameSnapshot (verifier.verifyCandidate value (sigstore, reused, keys) nowUnixMs)
      (verifier.uncached.verifyCandidate value (sigstore, reused, keys) nowUnixMs) := by
  refine .after fun envelope checked => .after fun approvals decided => ?_
  simp only [Libraries.parseEnvelope, bind_ok, rejectIf_ok, mapError_ok, pure_ok, exists_unit] at checked
  obtain ⟨_, -, envelope, read, -, -, rfl⟩ := checked
  obtain ⟨gateways, catalogs⟩ := listed_of_approved member parsed read
  obtain ⟨rfl, same, manifest, -⟩ := verifyWithKeys_ok (mapError_ok.mp decided)
  rw [← manifest] at gateways catalogs
  exact verifySnapshot_transparent reads free caches authorized same gateways catalogs nowUnixMs

theorem install_transparent (verifier : Verifier L) {first second} (same : SameSnapshot first second) :
    SameOutcome SameSnapshot (verifier.install first).1 (verifier.uncached.install second).1 := by
  have approvals : second.approvals = first.approvals := by rw [same.1]
  simp only [install_result, approvals, uncached]
  cases (verifier.approvals.accept first.approvals).1 with
  | error error => exact .error _
  | ok done => exact .ok same

theorem refresh_transparent (reads : JsonReaders L) {evidence} (free : CollisionFree L evidence)
    (caches : verifier.Caches evidence) (member : bytes ∈ evidence) (nowUnixMs : Int) :
    SameOutcome SameSnapshot (verifier.refresh bytes nowUnixMs).1 (verifier.uncached.refresh bytes nowUnixMs).1 := by
  rw [refresh_result, refresh_result]
  refine .after fun value parsed => ?_
  have observed : verifier.uncached.observed (L.index value "body") nowUnixMs =
      (verifier.observed (L.index value "body") nowUnixMs).uncached := by
    rw [Verifier.observed, uncached_observeKeys]
    rfl
  obtain ⟨keyState, learned⟩ := observe_learning verifier (L.index value "body") nowUnixMs
  dsimp only
  rw [uncached_observeKeys, observed]
  refine .after fun _ found => .after fun _ _ => ?_
  have authorized := observeKeys_authorized found
  have stored : (verifier.observed (L.index value "body") nowUnixMs).Caches evidence := by
    rw [Verifier.observed, learned]
    exact caches.learning keyState _
  refine (verifyCandidate_transparent reads free stored member parsed ?_ nowUnixMs).bind fun _ _ same => install_transparent _ same
  rw [Verifier.observed, learned]
  exact ⟨authorized.sigstore, authorized.environment⟩

/-- A refresh computes the entries that it would compute without earlier results, whatever
calls came before; and an attestation that verifies once gives the same at every later time. -/
theorem release_cache_transparent (reads : JsonReaders L) (environment : Environment) (root : RootKey) (verifier : Verifier L)
    (created : Verifier.new L environment root = .ok verifier) (calls : List Call) (bytes : Bytes) (nowUnixMs : Int)
    (free : CollisionFree L (bytes :: calls.filterMap Call.evidence)) :
    SameOutcome SameSnapshot ((verifier.run calls).refresh bytes nowUnixMs).1 ((verifier.run calls).uncached.refresh bytes nowUnixMs).1 ∧
    ∀ trust value expected policy now later, now ≤ later →
      Keeps (L.verifyGithubAttestationValue trust value expected policy now)
        (L.verifyGithubAttestationValue trust value expected policy later) ∧
      ∀ bundle, L.strictJson bundle = .ok value →
        Keeps (L.verifyGithubAttestation trust bundle expected policy now)
          (L.verifyGithubAttestation trust bundle expected policy later) := by
  constructor
  · have caches := (new_caches created (bytes :: calls.filterMap Call.evidence)).run fun call member evidence carried =>
      List.mem_cons_of_mem _ (List.mem_filterMap.mpr ⟨call, member, carried⟩)
    exact refresh_transparent reads free caches List.mem_cons_self nowUnixMs
  · intro trust value expected policy now later order
    have kept : Keeps (L.verifyGithubAttestationValue trust value expected policy now)
        (L.verifyGithubAttestationValue trust value expected policy later) :=
      Sigstore.Libraries.verifyGithubAttestationValue_later order value expected policy
    refine ⟨kept, fun bundle parsed result ok => ?_⟩
    obtain ⟨size, verified⟩ := (Sigstore.Libraries.verifyGithubAttestation_document parsed _ _ _).mp ok
    exact (Sigstore.Libraries.verifyGithubAttestation_document parsed _ _ _).mpr ⟨size, kept verified⟩

end Verifier

def digestOf (byte : UInt8) : String := hexEncode (List.replicate 32 byte)

def labLaunch : LaunchValues := { sampleLaunch with policy := "0x0000000002120200" }
def labReport : Bytes :=
  [5] ++ List.replicate 8 0 ++ [2, 0x12, 2] ++ List.replicate 0x28 0 ++ [1] ++ List.replicate 0x153 0 ++ [0x19, 1, 1] ++
    List.replicate 0x315 0

def labKeys : Approvals.KeyManifest where
  schema := "stogas.keys.v1"
  environment := .staging
  generation := 1
  expiresAt := "2100-01-01T00:00:00Z"
  activeKey := ⟨"key", "online", "rekor"⟩
  retiredKeys := []

def labManifest : GatewayReleaseManifest where
  artifacts := ⟨⟨zeros 64, 1⟩⟩
  build := {
    environment := ⟨"C", "1", "UTC", "022"⟩
    goVendorTreeSha256 := zeros 64
    goVersion := "go"
    guestCaBundlePath := "/etc/ssl/certs/ca-certificates.crt"
    guixChannelCommit := zeros 40
    inputSha256 := ("stogas/release/snp-launch-policies.json" :: gatewayBuildInputs).map fun path => (path, zeros 64)
    kernelConfigSha256 := zeros 64
    kernelVersion := "6"
    linuxBzImageSha256 := zeros 64
    ovmfSha256 := zeros 64
    systemdStubSha256 := zeros 64
    ukiSha256 := zeros 64 }
  minimumCatalogSequence := 1
  source := ⟨zeros 40, "https://github.com/StogasAI/gateway", zeros 64, "v0.0.1"⟩
  schema := "stogas.gateway.release.v1"
  sequence := 1
  sevSnp := {
    checkKvm := true
    launchMeasurement := zeros 96
    launchPolicies := ⟨[⟨labLaunch, "Milan"⟩], "stogas.snp-launch-policies.v1"⟩
    measurementCommand := "igvmmeasure --check-kvm gateway.igvm measure"
    measurementTool := "igvmmeasure"
    measurementToolSha256 := zeros 64
    measurementToolVersion := "1"
    platform := "SEV_SNP"
    vcpuCount := 1
    vmm := "qemu-kvm" }

def labRecord : BootRecord :=
  ⟨bootSchema, digestOf 12, blank 1579, ⟨reportDataSchema, .staging, blank 2646, blank 1622, zeros 64, zeros 64⟩⟩

def labSignature (keyId : String) : StogasSignature := ⟨keyId, "signature"⟩

def labEnvelope : Envelope (Fin 32) where
  schema := bundleEnvelopeSchema
  bodySha256 := digestOf 1
  bodySchema := bundleSchema
  approvals :=
    { document :=
        { schema := "stogas.approvals.v1", environment := .staging, revision := 1, keyManifestSha256 := digestOf 3
          sigstoreSha256 := digestOf 2, gateways := [⟨labManifest, 28⟩], catalogs := [], hardwarePolicy := samplePolicy }
      signature := labSignature "key", inclusion := 25 }
  vendorCollateral := [5, 6, 7, 8]

def labTexts : List (Fin 32 × String) :=
  [(5, "ark"), (6, "ask"), (7, "crl"), (8, "vcek"), (13, "ark-der"), (14, "ask-der"), (15, "crl-der"), (16, "vcek-der"),
    (21, digestOf 1), (22, digestOf 2), (23, digestOf 3), (24, digestOf 4), (27, "1"), (28, stagingProvenanceType)]

def labGet (value : Fin 32) (name : String) : Option (Fin 32) :=
  [("body", 1), ("sigstore", 2), ("keys", 3), ("vendor_collateral", 4), ("collateral_type", value), ("der_base64url", value + 8),
    ("sha256", value + 16), ("verificationMaterial", 25), ("tlogEntries", 25), ("integratedTime", 27), ("predicateType", 28)].lookup name

def labArk : X509Certificate :=
  { sampleCertificate with
    extensions := [⟨"2.5.29.14", false, [], .subjectKeyIdentifier []⟩]
    -- The digest of a key is the key itself here, so this is the digest that Milan pins.
    publicKey := [0x12, 0x49, 0xf6, 0x7f, 0x15, 0xcf, 0x22, 0x9a, 0x40, 0x69, 0x19, 0x5e, 0x1a, 0x9c, 0xe5, 0x37, 0xd1, 0x76, 0x5e, 0xf7,
      0x06, 0xa1, 0xf4, 0xa1, 0x23, 0xc3, 0x6b, 0xe9, 0x51, 0x87, 0x86, 0x51, 0x5d, 0x25, 0xec, 0xc0, 0x07, 0xf3, 0x66, 0xb5,
      0x64, 0xd2, 0xb3, 0xf3, 0x1c, 0x48, 0x08, 0x2e] }

def labVcek : X509Certificate :=
  { sampleCertificate with
    extensions := [⟨"1.3.6.1.4.1.3704.1.1", false, [2, 1, 0], .other⟩,
        ⟨"1.3.6.1.4.1.3704.1.2", false, [0x16, 5, 0x4d, 0x69, 0x6c, 0x61, 0x6e], .other⟩,
        ⟨"1.3.6.1.4.1.3704.1.4", false, List.replicate 64 0, .other⟩] ++
      (tcbExtensions .family19h).map fun extension => ⟨extension.1, false, [2, 1, 0], .other⟩ }

def labCrl : X509Crl where
  remaining := []
  issuer := []
  lastUpdate := 0
  nextUpdate := some 100
  signatureAlgorithm := ⟨Libraries.rsaPssOid, none⟩
  tbsSignature := ⟨Libraries.rsaPssOid, none⟩
  tbsCertList := []
  signatureValue := []
  extensions := [⟨"2.5.29.35", false, [], .authorityKeyIdentifier (some [])⟩]
  crlNumber := some 1
  revokedCertificates := []

def labCollateral (row : Fin 32) : AmdKdsPayload where
  caProductName := "Milan"
  chipId := if row = 8 then some (zeros 128) else none
  collateralType := (labTexts.lookup row).getD ""
  derBase64url := (labTexts.lookup (row + 8)).getD ""
  fetchedAt := "now"
  reportedTcb := if row = 8 then some (zeros 16) else none
  schema := "stogas.amd-kds-collateral.v1"
  sha256 := (labTexts.lookup (row + 16)).getD ""
  source := "amd-kds"
  sourceUrl := ""

/-- The sample with a directory of values. -/
def labLibraries : Libraries where
  __ := sampleLibraries
  Value := Fin 32
  strictJson := fun bytes => match bytes with
    | byte :: _ => if small : byte.toNat < 32 then .ok ⟨byte.toNat, small⟩ else .error "unknown"
    | [] => .error "empty"
  null := 0
  get := labGet
  isObject := fun _ => false
  asArray := fun value => if value = 4 then some [5, 6, 7, 8] else some [26]
  asStr := fun value => labTexts.lookup value
  readStatement := fun _ => .error "no statement"
  readDsseBundle := fun _ => .error "no bundle"
  readBundle := fun _ => .ok ⟨Sigstore.Libraries.bundleMediaType, "SHA2_512", "signature", "signature", zeros 64, [sampleEntry]⟩
  readBody := fun _ => .ok ⟨"0.0.1", "hashedrekord", "sha512", zeros 128, "signature", "submitter"⟩
  standardDecode := fun text => .ok <|
    if text = "authority" then [1] else if text = "online" then [2]
    else List.replicate (if text = "signature" then 64 else if text = "rekor" then 44 else 32) 0
  sha256 := fun bytes => List.Vector.replicate 32 (match bytes with | [byte] => byte | _ => 0)
  keysValue := fun _ => .ok 3
  approvalsValue := fun _ => .ok 9
  hardwareValue := fun _ => .ok 11
  signedValue := fun _ _ => 30
  readKeys := fun _ => .ok ⟨labKeys, labSignature "root", 25⟩
  toVec := fun value => if value = 10 then .error "line feed" else .ok [UInt8.ofNat value.val]
  canonicalize := fun value => .ok (String.singleton (Char.ofNat value.val))
  standardEncode := fun bytes => if bytes = [1] then "authority" else if bytes = [2] then "online" else "rekor"
  urlSafeDecode := fun text => .ok <|
    if text.utf8ByteSize = 1579 then labReport
    else if 100 < text.utf8ByteSize then List.replicate (text.utf8ByteSize * 6 / 8) 0
    else match [("ark-der", (1 : UInt8)), ("ask-der", 2), ("crl-der", 3), ("vcek-der", 4)].lookup text with
      | some byte => [byte]
      | none => List.replicate 3373 0
  urlSafeEncode := fun bytes => if bytes.length = 3373 then "signature" else blank ((bytes.length * 8 + 5) / 6)
  parseRfc3339 := fun text => some ⟨100000, 0, text⟩
  stagingBuild := true
  jsonFromSlice := fun bytes => match bytes with
    | byte :: _ => if small : byte.toNat < 32 then .ok ⟨byte.toNat, small⟩ else .error "unknown"
    | [] => .error "empty"
  gatewayValue := fun _ => .ok 12
  catalogValue := fun _ => .ok 0
  allowedGatewayValue := fun _ => .ok 17
  allowedCatalogValue := fun _ => .ok 0
  launchPoliciesValue := fun _ => .ok 19
  profileValue := fun _ => .ok 18
  readStaging := fun _ => .ok ⟨"https://in-toto.io/Statement/v1", stagingProvenanceType, "staging",
    [("release-manifest.json", [("sha256", zeros 64)]), ("gateway.igvm", [("sha256", zeros 64)])]⟩
  readSigstoreFiles := fun _ => .ok ⟨[], "", ""⟩
  sigstoreFilesValue := fun _ => .ok 2
  verifyTrustUpdate := fun _ _ _ => .ok ⟨[], [⟨List.replicate 32 0, [], none⟩], [], []⟩
  readEnvelope := fun _ => .ok labEnvelope
  readAmdKds := fun row => .ok (labCollateral row)
  readRecord := fun _ => .ok labRecord
  readInclusion := fun _ => .ok ⟨digestOf 1, labSignature "key", 25⟩
  readArchive := fun _ => .ok ⟨⟨bootPublicationSchema, labRecord, digestOf 1⟩, labSignature "key", 25⟩
  recordValue := fun _ => .ok 20
  inclusionValue := fun _ => 25
  reportDataValue := fun _ => .ok 31
  publicationValue := fun _ => .ok 29
  parseX509Certificate := fun der => .ok (if der = [1] then labArk else if der = [2] then sampleCertificate else labVcek)
  parseX509Crl := fun _ => .ok labCrl
  signatureAlgorithm := fun _ => some (some ⟨Libraries.sha384Oid, some (Libraries.mgf1Oid, Libraries.sha384Oid), 48, 1⟩)

def labRoot : RootKey := ⟨"root", "authority"⟩

def labVerifier : Verifier labLibraries where
  approvals := ⟨.staging, labRoot, List.Vector.replicate 32 1, none, none⟩
  current := none
  revocations := ∅
  snapshots := 0

def labTrust : TrustedRoot := ⟨[], [⟨List.replicate 32 0, [], none⟩], [], []⟩
def labSigstore : VerifiedSigstore := ⟨digestOf 2, labTrust⟩
def labKeyState : Approvals.KeyState := some ⟨⟨labKeys, digestOf 3⟩, false⟩

def labApprovals : VerifiedApprovals labLibraries.toApprovals where
  authority := List.Vector.replicate 32 1
  keys := labKeys
  approvals := labEnvelope.approvals
  sigstore := labSigstore
  keysDigest := digestOf 3
  approvalsDigest := digestOf 9
  expiresUnixMs := 100000

def labRelease : VerifiedRelease where
  githubIntegratedTimeUnixMs := none
  igvmSha256 := zeros 64
  launchPolicies := labManifest.sevSnp.launchPolicies
  measurement := zeros 96
  minimumCatalogSequence := 1
  provenance := .staging
  releaseTag := "v0.0.1"
  releaseManifestSha256 := zeros 64
  sequence := 1
  sourceCommit := zeros 40
  sourceRepository := "https://github.com/StogasAI/gateway"
  sourceSha256 := zeros 64
  vcpuCount := 1

def labPlatform : Platform where
  digest := digestOf 1 ++ digestOf 2 ++ digestOf 4
  issuer := milan.rootSpkiSha384
  askSerial := []
  certificates := ⟨0, 100000⟩
  vcek := [4]

def labEntry (row : Fin 32) : AmdCollateralEntry where
  caProductName := "Milan"
  collateralType := (labTexts.lookup row).getD ""
  der := [UInt8.ofNat (row.val - 4)]
  sha256 := (labTexts.lookup (row + 16)).getD ""
  chipId := (labCollateral row).chipId
  reportedTcb := (labCollateral row).reportedTcb

def labIssuer : Issuer := ⟨[1], some ⟨1, List.Vector.replicate 32 0, [3], ⟨0, 100000⟩, []⟩, false⟩

def labRow (row : Fin 32) : VendorCollateral (Fin 32) where
  chipId := (labCollateral row).chipId
  collateralType := (labCollateral row).collateralType
  fetchedAt := "now"
  payload := row
  sha256 := (labCollateral row).sha256
  sourceUrl := ""

def labExtensions : List (String × Bytes) :=
  (labVcek.extensions.map fun extension => (extension.oid, extension.value)).reverse

private structure LabEvaluation : Prop where
  sequence : gatewayReleaseSequence "v0.0.1" = some 1
  inputs : (gatewayBuildInputs.find? fun path => !(labManifest.build.inputSha256.any fun input => input.1 = path)) = none
  paths : (labManifest.build.inputSha256.any fun input => input.1 = "" || decide (256 < input.1.utf8ByteSize)) = false
  policy : isPrefixedLowerHex labLaunch.policy 8 = true ∧ parseRadix16 (labLaunch.policy.toList.drop 2) = some 0x2120200 ∧
    validateSnpLaunchPolicy 0x2120200 milan = .ok ()
  product : (amdProductProfiles.find? fun profile => profile.productName = "Milan") = some milan
  placeholder : labLibraries.isStagingDevelopmentProvenance [28]
    [⟨"release-manifest.json", zeros 64⟩, ⟨"gateway.igvm", zeros 64⟩] = .ok true
  released : labLibraries.releaseManifestSha256 (labLibraries.gatewayValue labManifest) = .ok (zeros 64) ∧
    labLibraries.payloadSha256 (labLibraries.gatewayValue labManifest) = .ok (digestOf 12) ∧
    labLibraries.payloadSha256 (labLibraries.allowedGatewayValue ⟨labManifest, (28 : Fin 32)⟩) = .ok (digestOf 17) ∧
    labLibraries.textSha256 (String.singleton (Char.ofNat (19 : Fin 32).val) ++ "\n") = zeros 64
  root : labLibraries.decodeKey labRoot.keyId labRoot.publicKey = .ok [1]
  authority : (labVerifier.observeKeys (1 : Fin 32) 1000).1 = .ok (labSigstore, false, ⟨labKeys, digestOf 3⟩) ∧
    (labVerifier.observeKeys (1 : Fin 32) 1000).2.approvals.keyState = labKeyState
  approval : labLibraries.verifyDocumentInclusion (9 : Fin 32) (labSignature "key") (25 : Fin 32) labTrust 1000 = .ok 1 ∧
    labLibraries.verifySignature (9 : Fin 32) (labSignature "key") "key" "online" = .ok () ∧
    labLibraries.keysSha256 labKeys = .ok (digestOf 3) ∧ labLibraries.digestHex (9 : Fin 32) = .ok (digestOf 9) ∧
    labLibraries.expiryUnixMs labKeys = .ok 100000
  accepted : ({ labVerifier.approvals with keyState := labKeyState } : ApprovalVerifier _).checkUpdate labApprovals = .ok () ∧
    (({ labVerifier.approvals with keyState := labKeyState } : ApprovalVerifier _).accept labApprovals).1 = .ok () ∧
    (({ labVerifier.approvals with keyState := labKeyState } : ApprovalVerifier _).accept labApprovals).2.keyState = labKeyState
  hardware : (labLibraries.validateHardwarePolicy samplePolicy).toOption.isSome = true
  envelope : labLibraries.payloadSha256 (.ok (labLibraries.index (0 : Fin 32) "body")) = .ok (digestOf 1) ∧ (labGet 0 "body").getD 0 = 1
  vendor : (Revocations.observe labLibraries ∅ (1 : Fin 32) 1000).1 = .ok ()
  rows : labLibraries.parseAmdEntry (labRow 5) [] = .ok (labEntry 5) ∧
    labLibraries.parseAmdEntry (labRow 6) [digestOf 1] = .ok (labEntry 6) ∧
    labLibraries.parseAmdEntry (labRow 7) [digestOf 2, digestOf 1] = .ok (labEntry 7) ∧
    labLibraries.parseAmdEntry (labRow 8) [digestOf 3, digestOf 2, digestOf 1] = .ok (labEntry 8)
  extensions : vendorExtensions [] labVcek.extensions = .ok labExtensions
  tcb : checkTcbExtensions labExtensions (List.replicate 8 0) (tcbExtensions milan.tcbLayout) = .ok ()
  named : requiredExtension labExtensions "1.3.6.1.4.1.3704.1.1" = .ok [2, 1, 0] ∧ parseDerU8 [2, 1, 0] = some 0 ∧
    requiredExtension labExtensions "1.3.6.1.4.1.3704.1.2" = .ok [0x16, 5, 0x4d, 0x69, 0x6c, 0x61, 0x6e] ∧
    parseDerIa5String [0x16, 5, 0x4d, 0x69, 0x6c, 0x61, 0x6e] = some "Milan" ∧ amdProductFromVcekName "Milan" = some milan ∧
    requiredExtension labExtensions "1.3.6.1.4.1.3704.1.4" = .ok (List.replicate 64 0)
  issuer : hexEncode labArk.publicKey = milan.rootSpkiSha384
  values : ∀ first second : Fin 32, String.singleton (Char.ofNat first.val) = String.singleton (Char.ofNat second.val) → first = second
  codes : ∀ value : Fin 32, value ≠ 10 → 10 ∉ [UInt8.ofNat value.val]
  parsed : ∀ value : Fin 32, (if small : (UInt8.ofNat value.val).toNat < 32 then
    (.ok ⟨(UInt8.ofNat value.val).toNat, small⟩ : Except String (Fin 32)) else .error "unknown") = .ok value

private theorem lab_evaluation : LabEvaluation := by constructor <;> decide +kernel

private theorem lab_same (value : Fin 32) : labLibraries.Alike value value := ⟨_, rfl, rfl⟩

private theorem lab_serialized {value : Fin 32} {bytes : Bytes} (serialized : labLibraries.toVec value = .ok bytes) :
    value ≠ 10 ∧ bytes = [UInt8.ofNat value.val] := by
  change (if value = 10 then .error "line feed" else .ok [UInt8.ofNat value.val] : Except String Bytes) = .ok bytes at serialized
  split at serialized
  next => cases serialized
  next other =>
    cases serialized
    exact ⟨other, rfl⟩

section
-- A variable and not the theorem, so that the lemmas do not wait for the evaluation.
variable (facts : LabEvaluation)
include facts

private theorem lab_vcek : validateVcekExtensions labVcek (zeros 128) (zeros 16) = .ok milan := by
  obtain ⟨version, number, name, text, product, chip⟩ := facts.named
  simp only [validateVcekExtensions, bind_ok, rejectIf_ok, required_ok, pure_ok, exists_unit, not_not]
  refine ⟨_, hexDecode_zeros 8, List.length_replicate, _, facts.extensions, _, version, 0, number, _, name, _, text,
    milan, product, rfl, facts.tcb, _, hexDecode_zeros 64, List.length_replicate, _, chip, List.replicate 64 0,
    if_pos (.inr List.length_replicate), _, rfl, rfl, rfl⟩

private theorem lab_entries : ∃ entries, labLibraries.parseAmdCollateralEntries [labRow 5, labRow 6, labRow 7, labRow 8] {} = .ok entries ∧
    entries.common = [(("Milan", "crl"), labEntry 7), (("Milan", "ask"), labEntry 6), (("Milan", "ark"), labEntry 5)] ∧
    entries.vceks.toList = [(zeros 128 ++ ":" ++ zeros 16, labEntry 8)] := by
  obtain ⟨ark, ask, crl, vcek⟩ := facts.rows
  refine ⟨_, bind_ok.mpr ⟨_, ark, bind_ok.mpr ⟨_, rfl, bind_ok.mpr ⟨_, ask, bind_ok.mpr ⟨_, rfl, bind_ok.mpr ⟨_, crl,
    bind_ok.mpr ⟨_, rfl, bind_ok.mpr ⟨_, vcek, bind_ok.mpr ⟨_, rfl, rfl⟩⟩⟩⟩⟩⟩⟩⟩, rfl, ?_⟩
  rw [← amdPlatformKey_zeros]
  rfl

private theorem lab_certificates : labLibraries.verifyPlatform (labEntry 5) (labEntry 6) (labEntry 8) labPlatform.digest = .ok labPlatform := by
  have chain : ¬ (hexEncode labArk.publicKey ≠ milan.rootSpkiSha384 ∨ labArk.subject ≠ labArk.issuer ∨
      sampleCertificate.issuer ≠ labArk.subject ∨ labVcek.issuer ≠ sampleCertificate.subject) := by
    rw [facts.issuer]
    decide
  simp only [Libraries.verifyPlatform, Libraries.verifyAmdCertificates, bind_ok, rejectIf_ok, required_ok, pure_ok, mapError_ok, exists_unit]
  refine ⟨⟨0, 100000⟩, by decide, ⟨0, 100000⟩, by decide, _, rfl, _, rfl, ⟨labArk, rfl, sampleCertificate, rfl, labVcek, rfl, by decide,
    by decide, by decide, by decide, milan, lab_vcek facts, chain, (), rfl, rfl⟩, labArk, rfl, sampleCertificate, rfl, ?_⟩
  change (⟨labPlatform.digest, hexEncode labArk.publicKey, [], ⟨0, 100000⟩, [4]⟩ : Platform) = labPlatform
  rw [facts.issuer]
  rfl

private theorem lab_platforms : ∃ store, Store.verify labLibraries ([5, 6, 7, 8] : List (Fin 32)) none = .ok store ∧
    store[zeros 128 ++ ":" ++ zeros 16]? = some labPlatform := by
  obtain ⟨entries, parsed, common, vceks⟩ := lab_entries facts
  simp only [Store.verify, bind_ok, rejectIf_ok, mapError_ok, pure_ok, exists_unit]
  let store : Store := (∅ : TreeMap String Platform compare).insert (zeros 128 ++ ":" ++ zeros 16) labPlatform
  refine ⟨store, ⟨by decide, _, rfl, entries, parsed, ([digestOf 1, digestOf 2, digestOf 3], store), ?_, ?_, rfl⟩, by simp [store]⟩
  · rw [vceks, Store.verifyPlatforms, Store.commonEntry, Store.commonEntry, Store.commonEntry, common]
    exact bind_ok.mpr ⟨labEntry 5, by decide, bind_ok.mpr ⟨labEntry 6, by decide, bind_ok.mpr ⟨labEntry 7, by decide,
      bind_ok.mpr ⟨labPlatform, lab_certificates facts, rfl⟩⟩⟩⟩
  · rw [common]
    decide

private theorem lab_build : validateGatewayReleaseBuild labManifest.build = .ok () := by
  have digests : ∀ input ∈ labManifest.build.inputSha256, isLowerHex input.2 32 = true := by
    simp [labManifest, isLowerHex_zeros]
  have entries : (labManifest.build.inputSha256.any fun input =>
      input.1 = "" || decide (256 < input.1.utf8ByteSize) || !isLowerHex input.2 32) = false := by
    rw [List.any_eq_false]
    intro input member
    have path := List.any_eq_false.mp facts.paths input member
    simp only [digests input member, Bool.not_true, Bool.or_false]
    exact path
  simp only [validateGatewayReleaseBuild, facts.inputs, bind_ok, rejectIf_ok, exists_unit, not_not, entries]
  simp [labManifest, isLowerHex_zeros]

private theorem lab_policies : validateGatewayLaunchPolicies labManifest.sevSnp.launchPolicies = .ok () := by
  obtain ⟨text, value, bits⟩ := facts.policy
  have launch : validateGatewayLaunchPolicy labLaunch milan = .ok () := by
    simp only [validateGatewayLaunchPolicy, bind_ok, rejectIf_ok, required_ok, mapError_ok, exists_unit, text]
    exact ⟨by simp [labLaunch, sampleLaunch, isLowerHex_zeros], 0x2120200, value, bits⟩
  have listed : labManifest.sevSnp.launchPolicies.policies = [⟨labLaunch, "Milan"⟩] := rfl
  simp only [validateGatewayLaunchPolicies, listed, validateLaunchPolicies, bind_ok, rejectIf_ok, required_ok, exists_unit]
  exact ⟨by decide, by decide, milan, facts.product, launch, trivial⟩

private theorem lab_manifest : labLibraries.validateGatewayReleaseManifest labManifest = .ok () := by
  have shape : gatewayReleaseManifestShapeIsValid labManifest = true := by
    simp [gatewayReleaseManifestShapeIsValid, labManifest, isLowerHex_zeros, facts.sequence, maxSafeInteger,
      gatewayBuildInputs]
    decide
  simp only [Libraries.validateGatewayReleaseManifest, bind_ok, rejectIf_ok, mapError_ok, exists_unit, not_not]
  exact ⟨shape, lab_build facts, lab_policies facts, _, rfl, _, rfl, congrArg some facts.released.2.2.2.symm⟩

private theorem lab_gateway : verifyGateway labApprovals ⟨labManifest, (28 : Fin 32)⟩ 1000 = .ok labRelease := by
  simp only [verifyGateway, Libraries.verifyGatewayRelease, Libraries.verifyReleaseProvenance, bind_ok, rejectIf_ok, mapError_ok,
    pure_ok, exists_unit]
  refine ⟨labRelease, ⟨lab_manifest facts, zeros 64, facts.released.1, [28], rfl, (none, .staging), ?_, rfl⟩, by decide, rfl⟩
  simp only [Libraries.verifyProvenance]
  exact bind_ok.mpr ⟨true, facts.placeholder, rfl⟩

private theorem lab_gateways : (gatewayKind labApprovals).verifyEach (fun _ => none) 1000 labApprovals.manifest.gateways ∅ =
    .ok ((∅ : TreeMap String (Cached VerifiedRelease) compare).insert (digestOf 12) ⟨digestOf 17, 1000, labRelease⟩) := by
  obtain ⟨-, id, digest, -⟩ := facts.released
  refine bind_ok.mpr ⟨digestOf 12, mapError_ok.mpr id, bind_ok.mpr ⟨digestOf 17, mapError_ok.mpr digest, bind_ok.mpr ⟨_, ?_, rfl⟩⟩⟩
  exact bind_ok.mpr ⟨labRelease, mapError_ok.mpr (lab_gateway facts), rfl⟩

private theorem lab_approved (revocations : Revocations) :
    (labVerifier.learning labKeyState revocations).approvals.verifyWithKeys ⟨labKeys, digestOf 3⟩ labEnvelope.approvals labSigstore
      1000 = .ok labApprovals := by
  obtain ⟨included, signed, keys, digest, expiry⟩ := facts.approval
  simp only [ApprovalVerifier.verifyWithKeys, Approvals.verifyOnlineApproval, bind_ok, rejectIf_ok, mapError_ok, pure_ok, exists_unit]
  exact ⟨(9 : Fin 32), rfl, 1, included, labApprovals, ⟨by decide, by decide, digestOf 3, keys, by simp [labEnvelope],
    by simp [labEnvelope, labSigstore], by decide, (9 : Fin 32), rfl, signed, digestOf 9, digest, 100000, expiry, rfl⟩,
    100000, by decide, facts.accepted.1, rfl⟩

private theorem lab_alike {first second : Fin 32} (alike : labLibraries.Alike first second) : first = second := by
  obtain ⟨text, left, right⟩ := alike
  exact facts.values first second (Except.ok.inj (left.trans right.symm))

private theorem lab_parsed (value : Fin 32) : labLibraries.strictJson [UInt8.ofNat value.val] = .ok value :=
  facts.parsed value

private theorem lab_reread {first second bytes other value} (alike : labLibraries.Alike first second)
    (serialized : labLibraries.toVec first = .ok bytes) (again : labLibraries.toVec second = .ok other)
    (parsed : labLibraries.strictJson bytes = .ok value) :
    labLibraries.Alike first value ∧ ∃ again, labLibraries.strictJson other = .ok again ∧ labLibraries.Alike second again := by
  cases lab_alike facts alike
  cases serialized.symm.trans again
  obtain ⟨-, rfl⟩ := lab_serialized serialized
  cases (lab_parsed facts first).symm.trans parsed
  exact ⟨lab_same first, first, parsed, lab_same first⟩

private theorem lab_readers : JsonReaders labLibraries where
  get := by
    intro first second alike name
    cases lab_alike facts alike
    cases labLibraries.get first name with
    | none => exact .none
    | some member => exact .some (lab_same member)
  isObject := by
    intro first second alike
    cases lab_alike facts alike
    rfl
  asStr := by
    intro first second alike
    cases lab_alike facts alike
    rfl
  asArray := by
    intro first second alike
    cases lab_alike facts alike
    cases labLibraries.asArray first with
    | none => exact .none
    | some members => exact .some (List.forall₂_same.mpr fun member _ => lab_same member)
  readDsseBundle := by
    intro first second alike
    cases lab_alike facts alike
    exact .refl _
  readStaging := by
    intro first second alike
    cases lab_alike facts alike
    exact .refl _
  toVec_line := by
    intro value bytes serialized
    obtain ⟨other, rfl⟩ := lab_serialized serialized
    exact facts.codes value other
  toVec := by
    intro first second bytes alike serialized
    cases lab_alike facts alike
    exact ⟨bytes, serialized⟩
  strictJson := lab_reread facts
  jsonFromSlice := lab_reread facts
  bundle_length := by
    intro first second bytes other bundle alike read serialized again
    cases lab_alike facts alike
    cases serialized.symm.trans again
    rfl

private theorem lab_observed : (labVerifier.observeKeys (1 : Fin 32) 1000).2 = labVerifier.learning labKeyState ∅ ∧
    labVerifier.observed (1 : Fin 32) 1000 =
      labVerifier.learning labKeyState (Revocations.observe labLibraries ∅ (1 : Fin 32) 1000).2 := by
  obtain ⟨keyState, learned⟩ := Verifier.observe_learning labVerifier (1 : Fin 32) 1000
  obtain rfl : keyState = labKeyState := by
    rw [← facts.authority.2, learned]
    rfl
  refine ⟨learned, ?_⟩
  unfold Verifier.observed
  rw [learned]
  rfl

end

theorem lab_refresh : ∃ snapshot, (labVerifier.refresh [0] 1000).1 = .ok snapshot ∧ snapshot.approvals = labApprovals ∧
    snapshot.gateway (digestOf 12) = some labRelease ∧
    snapshot.collateral[zeros 128 ++ ":" ++ zeros 16]? = some labPlatform := by
  have facts := lab_evaluation
  obtain ⟨digest, body⟩ := facts.envelope
  obtain ⟨store, verified, stored⟩ := lab_platforms facts
  have envelope : labLibraries.parseEnvelope (0 : Fin 32) = .ok labEnvelope :=
    bind_ok.mpr ⟨digestOf 1, mapError_ok.mpr digest, bind_ok.mpr ⟨labEnvelope, rfl, bind_ok.mpr ⟨(), by decide,
      bind_ok.mpr ⟨(), by simp [labEnvelope, rejectIf_ok], rfl⟩⟩⟩⟩
  obtain ⟨hardware, approved⟩ : ∃ hardware, labLibraries.verifyHardwarePolicy samplePolicy = .ok hardware := by
    obtain ⟨text, valid⟩ := Option.isSome_iff_exists.mp facts.hardware
    exact ⟨_, bind_ok.mpr ⟨text, toOption_some.mp valid, rfl⟩⟩
  let snapshot : Snapshot labLibraries :=
    { bodySha256 := digestOf 1, identity := 0, approvals := labApprovals
      gateways := (∅ : TreeMap String (Cached VerifiedRelease) compare).insert (digestOf 12) ⟨digestOf 17, 1000, labRelease⟩
      catalogs := ∅, hardware, collateral := store }
  obtain ⟨learned, observed⟩ := lab_observed facts
  refine ⟨snapshot, ?_, rfl, by simp [Snapshot.gateway, snapshot], stored⟩
  rw [Verifier.refresh_result]
  refine bind_ok.mpr ⟨(0 : Fin 32), rfl, ?_⟩
  dsimp only
  rw [show labLibraries.index (0 : Fin 32) "body" = (1 : Fin 32) from body, learned, observed]
  refine bind_ok.mpr ⟨_, facts.authority.1, bind_ok.mpr ⟨(), facts.vendor, bind_ok.mpr ⟨snapshot, ?_, ?_⟩⟩⟩
  · refine bind_ok.mpr ⟨labEnvelope, envelope, bind_ok.mpr ⟨labApprovals, mapError_ok.mpr (lab_approved facts _), ?_⟩⟩
    exact bind_ok.mpr ⟨_, lab_gateways facts, bind_ok.mpr ⟨_, rfl, bind_ok.mpr ⟨hardware, mapError_ok.mpr approved,
      bind_ok.mpr ⟨store, verified, rfl⟩⟩⟩⟩
  · rw [Verifier.install_result]
    exact map_ok.mpr ⟨(), mapError_ok.mpr facts.accepted.2.1, rfl⟩

theorem lab_verified : labLibraries.verifyPlatform (labEntry 5) (labEntry 6) (labEntry 8) labPlatform.digest = .ok labPlatform :=
  lab_certificates lab_evaluation

theorem lab_listed {evidence gateway} (listed : labLibraries.ListedGateway evidence gateway) : gateway = ⟨labManifest, (28 : Fin 32)⟩ := by
  obtain ⟨bytes, -, manifest, approved, member⟩ := listed
  obtain ⟨value, -, read⟩ := Option.bind_eq_some_iff.mp approved
  cases read
  exact List.mem_singleton.mp member

private theorem lab_free (evidence : List Bytes) : CollisionFree labLibraries evidence where
  gateways := by
    intro first second digest one two _ _
    cases lab_listed one
    cases lab_listed two
    exact ⟨rfl, lab_same 28⟩
  catalogs := by
    intro first second digest listed
    obtain ⟨bytes, -, manifest, approved, member⟩ := listed
    obtain ⟨value, -, read⟩ := Option.bind_eq_some_iff.mp approved
    cases read
    cases member

theorem lab_created : Verifier.new labLibraries .staging labRoot = .ok labVerifier := by
  have facts := lab_evaluation
  exact bind_ok.mpr ⟨_, mapError_ok.mpr (bind_ok.mpr ⟨[1], facts.root, rfl⟩), rfl⟩

/-- The second refresh finds the result of the first one. -/
theorem release_cache_transparent_lab :
    (∃ snapshot, (labVerifier.refresh [0] 1000).1 = .ok snapshot ∧ snapshot.gateway (digestOf 12) = some labRelease) ∧
    SameOutcome Verifier.SameSnapshot ((labVerifier.run [.refresh [0] 1000]).refresh [0] 2000).1
      ((labVerifier.run [.refresh [0] 1000]).uncached.refresh [0] 2000).1 := by
  obtain ⟨snapshot, refreshed, -, gateway, -⟩ := lab_refresh
  exact ⟨⟨snapshot, refreshed, gateway⟩,
    (Verifier.release_cache_transparent (lab_readers lab_evaluation) .staging labRoot labVerifier lab_created [.refresh [0] 1000] [0] 2000
      (lab_free _)).1⟩

end StogasVerifier.Evidence
