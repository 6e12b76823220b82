import StogasVerifier.Evidence.Session
import StogasVerifier.Evidence.Verifier

/-! Historical appraisal of archived boots (`evidence/history.rs`). -/

namespace StogasVerifier.Approvals

/-- Historical appraisal is separate from all learned current decisions. -/
def ApprovalVerifier.historicalAuthority {L : Libraries} (verifier : ApprovalVerifier L) : Except Error (ApprovalVerifier L) :=
  ApprovalVerifier.new L verifier.environment verifier.root

end StogasVerifier.Approvals

namespace StogasVerifier.Evidence
open Lib
open Sigstore (Bytes)
open Approvals (maxInputBytes)

def maxArchiveBytes : Nat := 64 * 1024

variable {L : Libraries}

def Libraries.archiveTime (L : Libraries) (inclusion : L.Value) (nowUnixMs : Int) : Except Error Int := do
  let entries := L.asArray (L.index (L.index inclusion "verificationMaterial") "tlogEntries")
  let entry ← required ((entries.filter fun entries => entries.length = 1).bind List.head?)
    (.invalid "boot archive requires one log entry")
  let seconds := (L.asStr (L.index entry "integratedTime")).bind fun text => (Sigstore.parseI64 text "").toOption
  required ((seconds.bind Approvals.checkedThousand).filter fun time => 0 < time ∧ time ≤ nowUnixMs)
    (.invalid "invalid boot archive log time")

namespace Verifier

def historicalVerifier (verifier : Verifier L) : Except Error (Verifier L) := do
  let approvals ← verifier.approvals.historicalAuthority.mapError .approval
  return { approvals, current := none, revocations := ∅, snapshots := 0 }

def appraiseArchive (verifier : Verifier L) (archive evidence : Bytes) (nowUnixMs : Int) : Except Error VerifiedBoot := do
  rejectIf (maxArchiveBytes < archive.length ∨ maxInputBytes < evidence.length) .tooLarge
  let value ← (L.strictJson archive).mapError .invalid
  let archive ← (L.readArchive value).mapError .invalid
  let time ← L.archiveTime archive.inclusion nowUnixMs
  let historical ← verifier.historicalVerifier
  let (refreshed, historical) := historical.refresh evidence time
  let snapshot ← refreshed
  rejectIf (archive.document.schema ≠ bootPublicationSchema ∨ snapshot.bodySha256 ≠ archive.document.evidenceSha256)
    (.invalid "boot archive evidence identity differs")
  let value ← (L.recordValue archive.document.boot).mapError .invalid
  let document ← (L.canonicalJson value).mapError .invalid
  let inclusion ← (L.toVec (L.inclusionValue ⟨archive.document.evidenceSha256, archive.signature, archive.inclusion⟩)).mapError .invalid
  let boot ← snapshot.verifyLoggedBoot historical.learned document.toUTF8.toList inclusion time
  rejectIf (boot.integratedTimeUnixMs ≠ time) (.invalid "boot archive log time differs")
  return boot

/-- `verify_boot_archive`: the historical verifier shares nothing with the verifier that
makes it, whose state stays as it is. -/
def verifyBootArchive (verifier : Verifier L) (archive evidence : Bytes) (nowUnixMs : Int) : Except Error VerifiedBoot × Verifier L :=
  (verifier.appraiseArchive archive evidence nowUnixMs, verifier)

end Verifier
end StogasVerifier.Evidence
