import StogasVerifier.Evidence.History
import StogasVerifier.Proofs.ReleaseCache

/-! Historical appraisal depends on the environment, the root and the archived bytes. The
caller's clock only says whether the logged time has come. -/

namespace StogasVerifier.Evidence
open Lib
open Sigstore (Bytes)

variable {L : Libraries}

theorem archiveTime_later {inclusion : L.Value} {now later time : Int} (ok : L.archiveTime inclusion now = .ok time)
    (reached : time ≤ later) : L.archiveTime inclusion later = .ok time := by
  simp only [Libraries.archiveTime, bind_ok, required_ok, Option.filter_eq_some_iff, decide_eq_true_eq] at ok ⊢
  obtain ⟨entry, single, logged, positive, -⟩ := ok
  exact ⟨entry, single, logged, positive, reached⟩

namespace Verifier

theorem historicalVerifier_congr {first second : Verifier L}
    (environment : first.approvals.environment = second.approvals.environment)
    (root : first.approvals.root = second.approvals.root) : first.historicalVerifier = second.historicalVerifier := by
  simp only [historicalVerifier, Approvals.ApprovalVerifier.historicalAuthority, environment, root]

theorem appraiseArchive_later {verifier : Verifier L} {archive evidence : Bytes} {now later : Int} {boot : VerifiedBoot}
    (ok : verifier.appraiseArchive archive evidence now = .ok boot) (reached : boot.integratedTimeUnixMs ≤ later) :
    verifier.appraiseArchive archive evidence later = .ok boot := by
  simp only [appraiseArchive, bind_ok, rejectIf_ok, mapError_ok, pure_ok, exists_unit, not_not] at ok ⊢
  obtain ⟨sizes, value, parsed, record, read, time, logged, historical, fresh, rest⟩ := ok
  refine ⟨sizes, value, parsed, record, read, time, archiveTime_later logged ?_, historical, fresh, rest⟩
  obtain ⟨_, -, -, _, -, _, -, _, -, _, -, same, rfl⟩ := rest
  exact same ▸ reached

/-- Verifiers with one environment and root give one result for an archive, whatever else
they have learned or accepted; none of them changes; and the result stays the same from the
logged time on. -/
theorem history_isolated (first second : Verifier L) (environment : first.approvals.environment = second.approvals.environment)
    (root : first.approvals.root = second.approvals.root) (archive evidence : Bytes) (now : Int) :
    (first.verifyBootArchive archive evidence now).1 = (second.verifyBootArchive archive evidence now).1 ∧
    (first.verifyBootArchive archive evidence now).2 = first ∧
    ∀ boot, (first.verifyBootArchive archive evidence now).1 = .ok boot → ∀ later, boot.integratedTimeUnixMs ≤ later →
      (first.verifyBootArchive archive evidence later).1 = .ok boot := by
  refine ⟨?_, rfl, fun boot ok later reached => appraiseArchive_later ok reached⟩
  simp only [verifyBootArchive, appraiseArchive, historicalVerifier_congr environment root]

end Verifier

/-- A verifier that learned another key decision gives the same result. -/
theorem history_isolated_lab :
    (labVerifier.verifyBootArchive [0] [0] 1000).1 =
      ((labVerifier.learning (some ⟨⟨labKeys, ""⟩, true⟩) ∅).verifyBootArchive [0] [0] 1000).1 :=
  (Verifier.history_isolated labVerifier (labVerifier.learning (some ⟨⟨labKeys, ""⟩, true⟩) ∅) rfl rfl [0] [0] 1000).1

end StogasVerifier.Evidence
