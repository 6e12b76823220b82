import StogasVerifier.Proofs.CollateralCache
import StogasVerifier.Proofs.RegisteredFacts

/-! The validity of a session: what it lies within, and how long it lasts. -/

namespace StogasVerifier.Evidence
open Lib Std
open Sigstore (Bytes hexEncode TrustedRoot)
open Approvals (Environment RootKey ApprovalVerifier VerifiedApprovals VerifiedKeys VerifiedSigstore)

namespace Validity

def Within (inner outer : Validity) : Prop :=
  outer.notBeforeUnixMs ≤ inner.notBeforeUnixMs ∧ inner.notAfterUnixMs ≤ outer.notAfterUnixMs

def Contains (validity : Validity) (now : Int) : Prop := validity.notBeforeUnixMs ≤ now ∧ now < validity.notAfterUnixMs

theorem Within.trans {first second third : Validity} (inner : first.Within second) (outer : second.Within third) : first.Within third :=
  ⟨outer.1.trans inner.1, inner.2.trans outer.2⟩

theorem intersect_left (first second : Validity) : (first.intersect second).Within first := ⟨le_max_left _ _, min_le_left _ _⟩

theorem intersect_right (first second : Validity) : (first.intersect second).Within second := ⟨le_max_right _ _, min_le_right _ _⟩

theorem contains_intersect {first second : Validity} {now : Int} :
    (first.intersect second).Contains now ↔ first.Contains now ∧ second.Contains now := by
  simp only [Contains, intersect]
  omega

theorem Contains.later {validity : Validity} {now later : Int} (contains : validity.Contains now) (order : now ≤ later)
    (early : later < validity.notAfterUnixMs) : validity.Contains later := ⟨contains.1.trans order, early⟩

theorem at_ok {validity result : Validity} {now : Int} : validity.at_ now = .ok result ↔ validity.Contains now ∧ validity = result := by
  unfold at_ Contains
  split
  next outside =>
    constructor
    · intro failed
      cases failed
    · intro inside
      omega
  next inside =>
    rw [Except.ok.injEq]
    constructor
    · intro same
      exact ⟨by omega, same⟩
    · intro ok
      exact ok.2

end Validity

theorem checkedThousand_some {seconds millis : Int} (fits : Approvals.checkedThousand seconds = some millis) : millis = seconds * 1000 := by
  unfold Approvals.checkedThousand at fits
  split at fits
  · exact (Option.some.inj fits).symm
  · cases fits

def X509Certificate.validity (certificate : X509Certificate) : Validity := ⟨certificate.notBefore * 1000, certificate.notAfter * 1000⟩

section
variable {L : Libraries}

theorem certificatesValidity_within {start result : Validity} {ders : List Bytes}
    (ok : L.certificatesValidity start ders = .ok result) :
    result.Within start ∧ ∀ der ∈ ders, ∃ certificate, L.parseX509Certificate der = .ok certificate ∧ result.Within certificate.validity := by
  induction ders generalizing start with
  | nil =>
    cases ok
    exact ⟨⟨le_rfl, le_rfl⟩, nofun⟩
  | cons der ders hypothesis =>
    simp only [Libraries.certificatesValidity, bind_ok, mapError_ok, rejectIf_ok, required_ok, exists_unit] at ok
    obtain ⟨certificate, parsed, -, before, beforeFits, after, afterFits, rest⟩ := ok
    obtain ⟨within, others⟩ := hypothesis rest
    have same : (⟨before, after⟩ : Validity) = certificate.validity := by
      rw [X509Certificate.validity, checkedThousand_some beforeFits, checkedThousand_some afterFits]
    rw [same] at within
    refine ⟨within.trans (Validity.intersect_left _ _), ?_⟩
    intro other member
    rcases List.mem_cons.mp member with rfl | later
    · exact ⟨certificate, parsed, within.trans (Validity.intersect_right _ _)⟩
    · exact others other later

/-- Everything that a report of this chip and level rests on is valid in an interval: the
three certificates that its platform was verified with, and the CRL that is retained of
their issuer. -/
def Snapshot.Backs (snapshot : Snapshot L) (learned : Learned) (chip tcb : String) (validity : Validity) : Prop :=
  ∃ platform arkDer askDer ark ask vcek issuer crl, snapshot.collateral[amdPlatformKey L.toLowercase chip tcb]? = some platform ∧
    (∃ chipId reportedTcb, Certifies L arkDer askDer platform.vcek chipId reportedTcb platform) ∧
    L.parseX509Certificate arkDer = .ok ark ∧ L.parseX509Certificate askDer = .ok ask ∧ L.parseX509Certificate platform.vcek = .ok vcek ∧
    learned.revocations[platform.issuer]? = some issuer ∧ issuer.latest = some crl ∧
    validity.Within ark.validity ∧ validity.Within ask.validity ∧ validity.Within vcek.validity ∧ validity.Within crl.validity

theorem Snapshot.Backs.shrink {snapshot : Snapshot L} {learned : Learned} {chip tcb : String} {validity inner : Validity}
    (backs : snapshot.Backs learned chip tcb validity) (within : inner.Within validity) : snapshot.Backs learned chip tcb inner := by
  obtain ⟨platform, arkDer, askDer, ark, ask, vcek, issuer, crl, found, certified, arkParsed, askParsed, vcekParsed, held, latest, first,
    second, third, fourth⟩ := backs
  exact ⟨platform, arkDer, askDer, ark, ask, vcek, issuer, crl, found, certified, arkParsed, askParsed, vcekParsed, held, latest,
    within.trans first, within.trans second, within.trans third, within.trans fourth⟩

theorem Certifies.within {ark ask vek : Bytes} {chip tcb : String} {platform : Platform} (certifies : Certifies L ark ask vek chip tcb platform) :
    ∃ root signer leaf, L.parseX509Certificate ark = .ok root ∧ L.parseX509Certificate ask = .ok signer ∧
      L.parseX509Certificate vek = .ok leaf ∧ platform.certificates.Within root.validity ∧
      platform.certificates.Within signer.validity ∧ platform.certificates.Within leaf.validity := by
  obtain ⟨-, each⟩ := certificatesValidity_within certifies.interval
  simp only [List.forall_mem_cons] at each
  obtain ⟨⟨root, rootParsed, rootWithin⟩, ⟨signer, signerParsed, signerWithin⟩, ⟨leaf, leafParsed, leafWithin⟩, -⟩ := each
  exact ⟨root, signer, leaf, rootParsed, signerParsed, leafParsed, rootWithin, signerWithin, leafWithin⟩

namespace Snapshot
variable {snapshot : Snapshot L} {learned : Learned} {chip tcb : String} {now later : Int} {validity : Validity}

theorem collateralValidity_ok :
    snapshot.collateralValidity learned chip tcb now = .ok validity ↔
      ∃ platform issuer crl, snapshot.collateral[amdPlatformKey L.toLowercase chip tcb]? = some platform ∧
        learned.revocations[platform.issuer]? = some issuer ∧ issuer.latest = some crl ∧ ¬ issuer.conflicting = true ∧
        platform.askSerial ∉ crl.revoked ∧ validity.Contains now ∧
        validity = { platform.certificates.intersect crl.validity with
          notAfterUnixMs := min (platform.certificates.intersect crl.validity).notAfterUnixMs snapshot.approvals.expiresUnixMs } := by
  simp only [collateralValidity, Store.validity, Revocations.validity, VerifiedApprovals.validUntil, bind_ok, mapError_ok, required_ok,
    rejectIf_ok, pure_ok, exists_unit, Validity.at_ok]
  constructor
  · intro ok
    obtain ⟨expires, unexpired, interval, ⟨platform, found, issuer, held, crl, latest, agreed, unrevoked, ⟨inside, rfl⟩⟩, rfl⟩ := ok
    split at unexpired
    · cases unexpired
    next early =>
      cases unexpired
      refine ⟨platform, issuer, crl, found, held, latest, agreed, unrevoked, ?_, rfl⟩
      unfold Validity.Contains at inside ⊢
      dsimp only
      omega
  · intro ok
    obtain ⟨platform, issuer, crl, found, held, latest, agreed, unrevoked, inside, rfl⟩ := ok
    unfold Validity.Contains at inside
    dsimp only at inside
    refine ⟨snapshot.approvals.expiresUnixMs, if_neg (by omega), _, ⟨platform, found, issuer, held, crl, latest, agreed, unrevoked, ?_, rfl⟩, rfl⟩
    unfold Validity.Contains
    omega

/-- Nothing that was learned later concerns a snapshot: its keys are current, and of the
issuers of its platforms the same is known. -/
structure Undisturbed (snapshot : Snapshot L) (learned after : Learned) : Prop where
  keys : snapshot.requireCurrentKeys after = .ok ()
  issuers : ∀ (id : String) platform, snapshot.collateral[id]? = some platform →
    after.revocations[platform.issuer]? = learned.revocations[platform.issuer]?

theorem Undisturbed.collateralValidity {after : Learned} (undisturbed : snapshot.Undisturbed learned after)
    (ok : snapshot.collateralValidity learned chip tcb now = .ok validity) (inside : validity.Contains later) :
    snapshot.collateralValidity after chip tcb later = .ok validity := by
  obtain ⟨platform, issuer, crl, found, held, latest, agreed, unrevoked, -, interval⟩ := collateralValidity_ok.mp ok
  rw [← undisturbed.issuers _ platform found] at held
  exact collateralValidity_ok.mpr ⟨platform, issuer, crl, found, held, latest, agreed, unrevoked, inside, interval⟩

theorem Undisturbed.both {after : Learned} (undisturbed : snapshot.Undisturbed learned after) {chip' tcb' : String} {first second : Validity}
    (one : snapshot.collateralValidity learned chip tcb now = .ok first) (two : snapshot.collateralValidity learned chip' tcb' now = .ok second)
    (inside : (first.intersect second).Contains later) :
    snapshot.collateralValidity after chip tcb later = .ok first ∧ snapshot.collateralValidity after chip' tcb' later = .ok second := by
  obtain ⟨firstInside, secondInside⟩ := Validity.contains_intersect.mp inside
  exact ⟨undisturbed.collateralValidity one firstInside, undisturbed.collateralValidity two secondInside⟩

/-- A snapshot's platforms were verified from some rows, and its deadline is that of the keys
that the root signed. -/
structure Grounded (root : RootKey) (snapshot : Snapshot L) : Prop where
  built : ∃ rows, Store.Built L rows snapshot.collateral
  expiry : L.expiryUnixMs snapshot.approvals.keys = .ok snapshot.approvals.expiresUnixMs
  signed : ∃ document signature, L.keysValue snapshot.approvals.keys = .ok document ∧
    L.verifySignature document signature root.keyId root.publicKey = .ok ()

theorem Grounded.backs {root : RootKey} (grounded : snapshot.Grounded root)
    (ok : snapshot.collateralValidity learned chip tcb now = .ok validity) : snapshot.Backs learned chip tcb validity := by
  obtain ⟨platform, issuer, crl, found, held, latest, -, -, -, rfl⟩ := collateralValidity_ok.mp ok
  obtain ⟨rows, built⟩ := grounded.built
  obtain ⟨ark, ask, vek, source⟩ := built.sourced _ platform found
  obtain ⟨-, _, _, -, -, certifies⟩ := verifyPlatform_ok.mp source.verified
  rw [← certifies.vcek] at certifies
  obtain ⟨ark, ask, vcek, arkParsed, askParsed, vcekParsed, first, second, third⟩ := certifies.within
  have capped : Validity.Within { platform.certificates.intersect crl.validity with
      notAfterUnixMs := min (platform.certificates.intersect crl.validity).notAfterUnixMs snapshot.approvals.expiresUnixMs }
      (platform.certificates.intersect crl.validity) := ⟨le_rfl, min_le_left _ _⟩
  have certificates := capped.trans (Validity.intersect_left _ _)
  exact ⟨platform, _, _, ark, ask, vcek, issuer, crl, found, ⟨_, _, certifies⟩, arkParsed, askParsed, vcekParsed, held, latest,
    certificates.trans first, certificates.trans second, certificates.trans third, capped.trans (Validity.intersect_right _ _)⟩

theorem collateralValidity_expiry (ok : snapshot.collateralValidity learned chip tcb now = .ok validity) :
    validity.notAfterUnixMs ≤ snapshot.approvals.expiresUnixMs := by
  obtain ⟨platform, _, crl, -, -, -, -, -, -, rfl⟩ := collateralValidity_ok.mp ok
  exact min_le_right _ _

/-- What the validity of a session means at some time: it holds then, the material of both
reports is valid in all of it, and the deadline of the root's keys ends it. -/
structure Holds (snapshot : Snapshot L) (root : RootKey) (learned : Learned) (boot live : VerifiedSnpReport) (validity : Validity) (now : Int) :
    Prop where
  current : validity.Contains now
  boot : snapshot.Backs learned boot.chipId boot.reportedTcb validity
  live : snapshot.Backs learned live.chipId live.reportedTcb validity
  keys : ∃ document signature expires, L.keysValue snapshot.approvals.keys = .ok document ∧
    L.verifySignature document signature root.keyId root.publicKey = .ok () ∧
    L.expiryUnixMs snapshot.approvals.keys = .ok expires ∧ validity.notAfterUnixMs ≤ expires

theorem Grounded.holds {root : RootKey} (grounded : snapshot.Grounded root) {boot live : VerifiedSnpReport} {first second : Validity}
    (one : snapshot.collateralValidity learned boot.chipId boot.reportedTcb now = .ok first)
    (two : snapshot.collateralValidity learned live.chipId live.reportedTcb now = .ok second) :
    snapshot.Holds root learned boot live (first.intersect second) now := by
  have firstNow : first.Contains now := by
    obtain ⟨_, _, _, -, -, -, -, -, inside, -⟩ := collateralValidity_ok.mp one
    exact inside
  have secondNow : second.Contains now := by
    obtain ⟨_, _, _, -, -, -, -, -, inside, -⟩ := collateralValidity_ok.mp two
    exact inside
  obtain ⟨document, signature, written, signed⟩ := grounded.signed
  exact {
    current := Validity.contains_intersect.mpr ⟨firstNow, secondNow⟩
    boot := (grounded.backs one).shrink (Validity.intersect_left _ _)
    live := (grounded.backs two).shrink (Validity.intersect_right _ _)
    keys := ⟨document, signature, _, written, signed, grounded.expiry, (min_le_left _ _).trans (collateralValidity_expiry one)⟩ }

end Snapshot

namespace Verifier

def Grounded (verifier : Verifier L) : Prop := ∀ snapshot, verifier.current = some snapshot → snapshot.Grounded verifier.approvals.root

variable {verifier : Verifier L}

theorem Grounded.installing (grounded : verifier.Grounded) {value : L.Value} {sigstore : VerifiedSigstore}
    {reused : Bool} {keys : VerifiedKeys} {nowUnixMs : Int} {snapshot : Snapshot L} {bytes : Bytes} {trust : TrustedRoot}
    (authorized : verifier.approvals.verifyKeys bytes trust nowUnixMs = .ok keys)
    (verified : verifier.verifyCandidate value (sigstore, reused, keys) nowUnixMs = .ok snapshot) :
    snapshot.Grounded verifier.approvals.root := by
  obtain ⟨-, same, expiry, envelope, -, -, made⟩ := verifyCandidate_ok verified
  refine ⟨?_, expiry, ?_⟩
  · simp only [verifySnapshot, bind_ok, mapError_ok, pure_ok] at made
    obtain ⟨_, -, _, -, _, -, collateral, checked, made⟩ := made
    have stored : snapshot.collateral = collateral := by rw [← made]
    rw [stored]
    cases current : verifier.current with
    | none =>
      rw [current] at checked
      exact ⟨_, .first checked⟩
    | some previous =>
      rw [current] at checked
      obtain ⟨rows, built⟩ := (grounded previous current).built
      exact ⟨_, .next built checked⟩
  · rw [same]
    exact (verifyKeys_ok authorized).2

theorem Grounded.perform (grounded : verifier.Grounded) (call : Call) : (verifier.perform call).Grounded := by
  cases call with
  | verifyKeyManifest bytes nowUnixMs =>
    obtain ⟨keyState, learned⟩ := verifyKeyManifest_learning verifier bytes nowUnixMs
    rw [Verifier.perform, learned]
    exact grounded
  | refresh bytes nowUnixMs =>
    rcases refresh_cases verifier bytes nowUnixMs with
      ⟨error, keyState, revocations, failed⟩ |
      ⟨value, ⟨sigstore, reused, keys⟩, keyState, revocations, snapshot, final, -, observed, verified, -, done⟩
    · rw [Verifier.perform, failed]
      exact grounded
    · rw [Verifier.perform, done]
      obtain ⟨-, source, authorized⟩ := observeKeys_ok observed
      have learning : (verifier.learning keyState revocations).Grounded := grounded
      intro installed current
      cases current
      exact learning.installing authorized verified

theorem Grounded.run (grounded : verifier.Grounded) (calls : List Call) : (verifier.run calls).Grounded := by
  induction calls generalizing verifier with
  | nil => exact grounded
  | cons call calls hypothesis => exact hypothesis (grounded.perform call)

theorem new_grounded {environment : Environment} {root : RootKey}
    (created : Verifier.new L environment root = .ok verifier) : verifier.Grounded ∧ verifier.approvals.root = root := by
  simp only [Verifier.new, ApprovalVerifier.new, bind_ok, mapError_ok, pure_ok] at created
  obtain ⟨approvals, ⟨_, -, rfl⟩, rfl⟩ := created
  refine ⟨fun snapshot current => ?_, rfl⟩
  cases current

theorem run_root (verifier : Verifier L) (calls : List Call) : (verifier.run calls).approvals.root = verifier.approvals.root := by
  induction calls generalizing verifier with
  | nil => rfl
  | cons call calls hypothesis =>
    refine (hypothesis (verifier.perform call)).trans ?_
    rcases perform_cases verifier call with ⟨keyState, revocations, same⟩ | ⟨keyState, revocations, snapshot, same, -⟩ <;>
      (rw [same]; rfl)

end Verifier

/-- What an appraisal or the current checks of a session return, under any snapshot of a
verifier and whatever was learned, holds at that time within the validity of everything that
both reports rest on and up to the deadline of the root's keys; and both return it again
until then, unless the keys are retired or something is learned about the issuers. -/
theorem session_validity (environment : Environment) (root : RootKey) (verifier : Verifier L)
    (created : Verifier.new L environment root = .ok verifier) (calls : List Verifier.Call) (snapshot : Snapshot L)
    (current : (verifier.run calls).current = some snapshot) (learned : Learned) (now : Int) :
    (∀ artifacts session, snapshot.appraiseSession learned artifacts now = .ok session →
      snapshot.Holds root learned session.boot.hardware session.live session.validity now ∧
      ∀ after later, snapshot.Undisturbed learned after → now ≤ later → later < session.validity.notAfterUnixMs →
        snapshot.appraiseSession after artifacts later = .ok session ∧ snapshot.checkSession after session later = .ok session.validity) ∧
    ∀ session validity, snapshot.checkSession learned session now = .ok validity →
      snapshot.Holds root learned session.boot.hardware session.live validity now ∧
      ∀ after later, snapshot.Undisturbed learned after → now ≤ later → later < validity.notAfterUnixMs →
        snapshot.checkSession after session later = .ok validity := by
  obtain ⟨started, root'⟩ := Verifier.new_grounded created
  have grounded : snapshot.Grounded root := by
    rw [← root', ← Verifier.run_root verifier calls]
    exact started.run calls snapshot current
  constructor
  · intro artifacts session ok
    obtain ⟨-, record, report, commitment, publication, proof, integrated, millis, identified, included, first, one, second, two, rfl⟩ :=
      Snapshot.appraiseSession_ok.mp ok
    have holds : snapshot.Holds root learned (appraisedReport report first) (appraisedReport artifacts.report second) _ now :=
      grounded.holds one two
    refine ⟨holds, fun after later undisturbed order early => ?_⟩
    obtain ⟨oneLater, twoLater⟩ := undisturbed.both one two (holds.current.later order early)
    exact ⟨Snapshot.appraiseSession_ok.mpr ⟨undisturbed.keys, record, report, commitment, publication, proof, integrated, millis, identified,
        Approvals.Libraries.verifyDocumentInclusion_mono order included, first, oneLater, second, twoLater, rfl⟩,
      Snapshot.checkSession_ok.mpr ⟨undisturbed.keys, first, oneLater, second, twoLater, rfl⟩⟩
  · intro session validity ok
    simp only [Snapshot.checkSession, bind_ok, rejectIf_ok, pure_ok, exists_unit, not_not] at ok ⊢
    obtain ⟨same, -, first, one, second, two, rfl⟩ := ok
    have holds := grounded.holds one two
    refine ⟨holds, fun after later undisturbed order early => ?_⟩
    obtain ⟨oneLater, twoLater⟩ := undisturbed.both one two (holds.current.later order early)
    exact ⟨same, undisturbed.keys, first, oneLater, second, twoLater, rfl⟩

end

def labSession (snapshot : Snapshot labLibraries) : VerifiedSession :=
  snapshot.appraisedSession ⟨labReport, [], []⟩ labRecord labReport 0 ⟨0, 100000⟩ ⟨0, 100000⟩

/-- What the sample's snapshot returns for a session at one second stays until the interval
of its certificates ends. -/
theorem session_validity_lab : ∃ snapshot, (labVerifier.refresh [0] 1000).1 = .ok snapshot ∧
    snapshot.checkSession labLearned (labSession snapshot) 1000 = .ok ⟨0, 100000⟩ ∧
    snapshot.checkSession labLearned (labSession snapshot) 99999 = .ok ⟨0, 100000⟩ := by
  obtain ⟨snapshot, refreshed, approvals, -, platform⟩ := lab_refresh
  have held : (labVerifier.run [.refresh [0] 1000]).current = some snapshot := by
    rw [Verifier.run, List.foldl_cons, List.foldl_nil, Verifier.perform]
    exact (Verifier.refresh_installs refreshed).1
  have keys : snapshot.requireCurrentKeys labLearned = .ok () := by
    rw [Snapshot.requireCurrentKeys, approvals]
    rfl
  have known : labLearned.revocations[milan.rootSpkiSha384]? = some labIssuer := by simp [labLearned]
  have valid := lab_valid approvals platform known
  have checked : snapshot.checkSession labLearned (labSession snapshot) 1000 = .ok ⟨0, 100000⟩ :=
    Snapshot.checkSession_ok.mpr ⟨keys, _, valid, _, valid, rfl⟩
  obtain ⟨-, stays⟩ := (session_validity .staging labRoot labVerifier lab_created [.refresh [0] 1000] snapshot held labLearned 1000).2 _ _ checked
  exact ⟨snapshot, refreshed, checked, stays labLearned 99999 ⟨keys, fun _ _ _ => rfl⟩ (by decide) (by decide)⟩

end StogasVerifier.Evidence
