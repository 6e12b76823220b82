import StogasVerifier.Lib.Resend
import StogasVerifier.Proofs.SessionCheck
import StogasVerifier.Proofs.WireBounds
import StogasVerifier.Sdk.Proxy

/-! How often a call submits its request, and whether its error says so. Every way
out of a call is before its submissions, after a refusal, or late. -/

namespace StogasVerifier

open Lib.Resend

namespace Http2

/-- The gateway processed nothing of a request that came back, whose stream it refused or
left out of its GOAWAY, or that it refused with a response. -/
inductive Outcome.Unprocessed : Outcome → Prop where
  | returned (cause : Option StreamError) : Unprocessed (.failed true cause)
  | goAway (returned : Bool) (cause : StreamError) (remote : cause.remote = true) (away : cause.goAway = true) :
      Unprocessed (.failed returned (some cause))
  | refusedStream (returned : Bool) (cause : StreamError) (remote : cause.remote = true) (reason : cause.reason = some Http2.refusedStream) :
      Unprocessed (.failed returned (some cause))
  | refused (response : Sdk.HttpResponse) (refused : Sdk.NativeHttp.refused response = true) : Unprocessed (.answered response)

def Attempt.Refused (attempt : Attempt) : Prop := attempt.outcome.Unprocessed

theorem unprocessed_of_notSent {returned : Bool} {cause} (unsent : notSent returned cause = true) :
    (Outcome.failed returned cause).Unprocessed := by
  simp only [notSent, Bool.or_eq_true, decide_eq_true_eq] at unsent
  rcases unsent with (back | away) | reason
  · rw [back]
    exact .returned cause
  · cases refusal : cause.filter (·.remote) with
    | none => rw [refusal] at away; cases away
    | some found =>
      obtain ⟨present, remote⟩ := Option.filter_eq_some_iff.mp refusal
      rw [present]
      rw [refusal] at away
      exact .goAway returned found remote away
  · obtain ⟨found, refusal, reason⟩ := Option.bind_eq_some_iff.mp reason
    obtain ⟨present, remote⟩ := Option.filter_eq_some_iff.mp refusal
    rw [present]
    exact .refusedStream returned found remote reason

/-- What a permit does: its checks fail and nothing is submitted, or it submits once. -/
theorem Sending.send_cases (sending : Sending) :
    sending.send = (.error .deadline, []) ∨ sending.send = (.error .closed, []) ∨
      sending.send = (sending.outcome.result, [⟨sending.outcome, sending.processed⟩]) := by
  unfold send
  split
  · exact .inl rfl
  · split
    · exact .inr (.inl rfl)
    · exact .inr (.inr rfl)

end Http2

namespace Sdk.NativeHttp
open Http2 (Attempt)
open Proxy (Failure)

variable {L : Evidence.Libraries}

def Error.Late (error : Error) : Prop := (Failure.native error).submission = .executionUnknown

theorem result_late {outcome : Http2.Outcome} {error : Http2.Error} (failed : outcome.result = .error error) (submitted : ¬ outcome.Unprocessed) :
    Error.Late (.pool error) := by
  cases outcome with
  | late =>
    cases failed
    rfl
  | failed returned cause =>
    cases failed
    have sent : Http2.notSent returned cause = false := Bool.eq_false_iff.mpr fun unsent => submitted (Http2.unprocessed_of_notSent unsent)
    rw [sent]
    rfl
  | answered response => cases failed

theorem dispatch_single (submission : Submission L) (context : RequestContext L) :
    Single Attempt.Refused Error.Late (submission.dispatch context) := by
  rcases submission.sending.send_cases with sent | sent | sent <;> simp only [Submission.dispatch, sent]
  · exact .silent _
  · exact .silent _
  · cases result : submission.sending.outcome.result with
    | error error =>
      refine ⟨Nat.le_refl 1, ?_⟩
      rintro _ ⟨⟩ ⟨_, member, unrefused⟩
      cases List.mem_singleton.mp member
      exact result_late result unrefused
    | ok response => exact ⟨Nat.le_refl 1, Tells.of_late nofun⟩

theorem submit_single (submission : Submission L) (retained : Nat) :
    Single Attempt.Refused Error.Late (submission.submit retained) := by
  unfold Submission.submit
  split
  · exact .silent _
  · exact dispatch_single submission _

theorem submit_resends {submission : Submission L} {retained : Nat} {error : Error} {attempts : List Attempt}
    (failed : submission.submit retained = (.error error, attempts)) (resends : error.resends = true) :
    ∀ attempt ∈ attempts, attempt.Refused := by
  unfold Submission.submit at failed
  split at failed
  · cases failed
    exact nofun
  · rcases submission.sending.send_cases with sent | sent | sent <;> rw [Submission.dispatch, sent] at failed
    · cases failed
      exact nofun
    · cases failed
      exact nofun
    · cases outcome : submission.sending.outcome with
      | late =>
        rw [outcome] at failed
        cases failed
        cases resends
      | failed returned cause =>
        rw [outcome] at failed
        cases failed
        intro attempt member
        cases List.mem_singleton.mp member
        exact Http2.unprocessed_of_notSent resends
      | answered response =>
        rw [outcome] at failed
        cases failed

theorem submit_ok {submission : Submission L} {retained : Nat} {response : HttpResponse} {context : RequestContext L}
    {attempts : List Attempt} (submitted : submission.submit retained = (.ok (response, context), attempts)) :
    attempts = [⟨.answered response, submission.sending.processed⟩] := by
  unfold Submission.submit at submitted
  split at submitted
  · cases submitted
  · rcases submission.sending.send_cases with sent | sent | sent <;> rw [Submission.dispatch, sent] at submitted
    · cases submitted
    · cases submitted
    · cases outcome : submission.sending.outcome with
      | late => rw [outcome] at submitted; cases submitted
      | failed returned cause => rw [outcome] at submitted; cases submitted
      | answered response =>
        rw [outcome] at submitted
        cases submitted
        rfl

theorem submissions_double (world : World L) (retained : Nat) : Double Attempt.Refused Error.Late (submissions world retained) := by
  have single := submit_single world.first retained
  unfold submissions
  split
  next error attempts failed =>
    rw [failed] at single
    split
    next resends => exact (submit_single world.second retained).resent single.one (submit_resends failed resends)
    next => exact single.double
  next response context attempts submitted =>
    rw [submitted] at single
    split
    next marked =>
      have refused : ∀ attempt ∈ attempts, attempt.Refused := by
        rw [submit_ok submitted]
        intro attempt member
        cases List.mem_singleton.mp member
        exact .refused response marked
      split
      next selected _ => exact (dispatch_single world.second selected).resent single.one refused
      next error _ =>
        apply Single.double
        split
        · exact ⟨single.one, Tells.of_late nofun⟩
        · exact ⟨single.one, Tells.of_refused refused⟩
    next => exact single.double

theorem finish_late {R : Receipt.Libraries} {request : Request} {wanted : Bool} {body : ReadBody} {response : HttpResponse}
    {context : RequestContext L} {error : Error} (failed : finish R request wanted body response context = .error error) : error.Late := by
  unfold finish at failed
  split at failed
  · cases verified : ReceiptHttp.verify R response context.session.boot (R.sha256 request.body) body with
    | error cause =>
      rw [verified] at failed
      cases failed
      rfl
    | ok response =>
      rw [verified] at failed
      cases failed
  · cases failed

theorem send_double (R : Receipt.Libraries) (world : World L) (request : Request) :
    Double Attempt.Refused Error.Late (send R world request) := by
  unfold send
  split
  · exact (Single.silent _).double
  · split
    · exact (Single.silent _).double
    next retained _ =>
      have double := submissions_double world retained
      split
      next failed =>
        rw [failed] at double
        exact ⟨double.two, double.earlier, double.tells.passed⟩
      next submitted =>
        rw [submitted] at double
        exact ⟨double.two, double.earlier, Tells.of_late fun _ failed => finish_late failed⟩

end Sdk.NativeHttp

namespace Sdk.EncryptedHttp
open StogasVerifier.Channel (Suite ClientRequest)

variable {S : Suite} {fromSlice : S.Bytes → Option Lib.Json}

def Error.Late : Error → Prop
  | .request | .notSentDeadline => False
  | _ => True

def Error.Completion (error : Error) : Prop := ∃ cause, error = .completion cause

def Attempt.Refused (attempt : Attempt) : Prop := attempt.shown.any (·.refused) = true

/-- Events are only completed after metadata, which says whether there is a body. -/
structure Incoming.Shown (state : Incoming) : Prop where
  first : state.metadata = none → state.completion = none
  body : ∀ metadata, state.metadata = some metadata → (state.bodyAllowed = true ↔ metadata.status ∉ bodiless)

theorem Incoming.Shown.take {state after : Incoming} (shown : state.Shown) {record}
    (taken : state.take fromSlice record = .ok after) : after.Shown := by
  obtain ⟨kind, bytes⟩ := record
  cases kind with
  | metadata =>
    simp only [Incoming.take] at taken
    split at taken
    · cases taken
    · cases taken
      refine ⟨nofun, ?_⟩
      rintro _ ⟨⟩
      exact decide_eq_true_iff
  | data =>
    simp only [Incoming.take] at taken
    split at taken
    · cases taken
    · split at taken
      · cases taken
        exact ⟨shown.first, shown.body⟩
      next completion held =>
        split at taken
        · cases taken
        · cases taken
          refine ⟨fun missing => ?_, shown.body⟩
          rw [shown.first missing] at held
          cases held
  | finished =>
    cases taken
    exact shown
  | keepalive =>
    cases taken
    exact shown

theorem Incoming.Shown.absorb {state : Incoming} (shown : state.Shown) (records : List (Channel.Kind × S.Bytes)) :
    (state.absorb fromSlice records).1.Shown := by
  induction records generalizing state with
  | nil => exact shown
  | cons record records ih =>
    unfold Incoming.absorb
    split
    · exact shown
    next taken => exact ih (shown.take taken)

def Ends {α : Type} (failure : Error → Prop) (holds : Receiving S → Prop) : Except Error α × Receiving S → Prop
  | (.error error, _) => failure error
  | (.ok _, after) => holds after

def Reads (state : Receiving S) : Except Error Unit × Receiving S → Prop :=
  Ends (fun error => error.Late ∧ (error.Completion → state.incoming.completion ≠ none))
    fun after => state.incoming.Shown → after.incoming.Shown

theorem finish_reads (state : Receiving S) : Reads state state.finish := by
  unfold Receiving.finish
  split
  · exact ⟨trivial, nofun⟩
  · split
    · exact ⟨trivial, nofun⟩
    · exact id
    next held =>
      split
      · refine ⟨trivial, fun _ missing => ?_⟩
        rw [missing] at held
        cases held
      · exact fun shown => ⟨fun _ => rfl, shown.body⟩

theorem push_reads (state : Receiving S) (shared : Channel.Shared S) (now : Nat) : Reads state (state.push fromSlice shared now) := by
  simp only [Receiving.push]
  split
  · exact ⟨trivial, nofun⟩
  · generalize Channel.Decoding.push _ _ _ now = pushed
    obtain ⟨result, decoding⟩ := pushed
    cases result with
    | ok done => exact fun shown => shown.absorb decoding.emitted
    | error error =>
      simp only [Except.mapError, Reads, Ends]
      split
      · exact ⟨trivial, nofun⟩
      · exact ⟨trivial, nofun⟩

theorem advance_reads (state : Receiving S) (tick : Tick S) : Reads state (state.advance fromSlice tick) := by
  unfold Receiving.advance
  split
  · exact ⟨trivial, nofun⟩
  · split
    · split
      · exact ⟨trivial, nofun⟩
      · exact ⟨trivial, nofun⟩
      · exact finish_reads state
      next bytes _ => exact push_reads { state with input := bytes } tick.shared tick.now
    · exact push_reads state tick.shared tick.now

/-- The rule of the loop: an invariant that each read keeps while the loop goes on. -/
theorem advanceWhile_ends {continues : Receiving S → Bool} {failure : Error → Prop} {holds : Receiving S → Prop} (late : failure .deadline)
    (step : ∀ state tick, holds state → continues state = true → Ends failure holds (state.advance fromSlice tick)) (ticks : List (Tick S))
    (state : Receiving S) (start : holds state) : Ends failure holds (state.advanceWhile fromSlice continues ticks) := by
  induction ticks generalizing state with
  | nil =>
    unfold Receiving.advanceWhile
    split
    · exact late
    · exact start
  | cons tick ticks ih =>
    unfold Receiving.advanceWhile
    split
    next going =>
      have step := step state tick start going
      cases read : state.advance fromSlice tick with
      | mk result after =>
        rw [read] at step
        cases result with
        | error error => exact step
        | ok done => exact ih after step
    next => exact start

theorem head_ends (ticks : List (Tick S)) {state : Receiving S} (shown : state.incoming.Shown) :
    Ends (fun error => error.Late ∧ ¬ error.Completion) (·.incoming.Shown)
      (state.advanceWhile fromSlice (fun state => state.incoming.metadata.isNone && state.decoder.isSome) ticks) := by
  apply advanceWhile_ends ⟨trivial, nofun⟩ _ ticks state shown
  intro state tick shown going
  have missing : state.incoming.metadata = none := Option.isNone_iff_eq_none.mp (Bool.and_eq_true_iff.mp going).1
  have reads := @advance_reads S fromSlice state tick
  cases read : state.advance fromSlice tick with
  | mk result after =>
    rw [read] at reads
    cases result with
    | error error => exact ⟨reads.1, fun completion => reads.2 completion (shown.first missing)⟩
    | ok done => exact reads shown

theorem rest_ends (ticks : List (Tick S)) (state : Receiving S) :
    Ends Error.Late (fun _ => True) (state.advanceWhile fromSlice (fun state => state.decoder.isSome) ticks) := by
  apply advanceWhile_ends trivial _ ticks state trivial
  intro state tick _ _
  have reads := @advance_reads S fromSlice state tick
  cases read : state.advance fromSlice tick with
  | mk result after =>
    rw [read] at reads
    cases result with
    | error error => exact reads.1
    | ok done => trivial

variable {exchange : ClientRequest S} {carriage : Carriage S}

/-- Once the outer request is sent every error is late. The events are incomplete only
where a response has no body. -/
theorem respond_late {error : Error} {shown : Option ResponseMetadata}
    (failed : respond fromSlice exchange carriage = (.error error, shown)) :
    error.Late ∧ (error.Completion → ∃ metadata, shown = some metadata ∧ metadata.status ∈ bodiless) := by
  unfold respond at failed
  split at failed
  · cases failed
    exact ⟨trivial, nofun⟩
  · cases failed
    exact ⟨trivial, nofun⟩
  split at failed
  · cases failed
    exact ⟨trivial, nofun⟩
  dsimp only at failed
  have head := @head_ends S fromSlice carriage.ticks
    ⟨some ⟨.fromReader exchange.reader, carriage.shared, []⟩, [], .start⟩ ⟨fun _ => rfl, nofun⟩
  split at failed
  next read =>
    rw [read] at head
    cases failed
    exact ⟨head.1, fun completion => absurd completion head.2⟩
  next ticks state read =>
    rw [read] at head
    split at failed
    · cases failed
      exact ⟨trivial, nofun⟩
    next metadata present =>
      split at failed
      · cases failed
      next none =>
        have rest := @rest_ends S fromSlice ticks { state with incoming := { state.incoming with metadata := Option.none } }
        split at failed
        next read =>
          rw [read] at rest
          cases failed
          refine ⟨rest, fun _ => ⟨metadata, rfl, ?_⟩⟩
          by_contra bodied
          exact none ((head.body metadata present).mpr bodied)
        next => cases failed

theorem respond_ok {response shown}
    (responded : respond fromSlice exchange carriage = (.ok response, shown)) : shown.map (·.refused) = some response.refused := by
  unfold respond at responded
  split at responded
  · cases responded
  · cases responded
  split at responded
  · cases responded
  dsimp only at responded
  split at responded
  · cases responded
  split at responded
  · cases responded
  split at responded
  · cases responded
    rfl
  split at responded
  · cases responded
  · cases responded
    rfl

theorem send_single (nodeId : String) (exchange : ClientRequest S) (request : Channel.HttpRequest S) (carriage : Carriage S) :
    Single Attempt.Refused Error.Late (send fromSlice nodeId exchange request carriage) := by
  unfold send
  split
  · exact .silent _
  · exact ⟨Nat.le_refl 1, Tells.of_late fun error failed => (respond_late (Prod.ext failed rfl)).1⟩

variable {request : Channel.HttpRequest S}

theorem send_refused {nodeId : String}
    {response attempts} (sent : send fromSlice nodeId exchange request carriage = (.ok response, attempts))
    (marked : response.refused = true) : ∀ attempt ∈ attempts, attempt.Refused := by
  unfold send at sent
  split at sent
  · cases sent
  · cases responded : respond fromSlice exchange carriage with
    | mk result shown =>
      rw [responded] at sent
      cases sent
      have shows := respond_ok responded
      intro attempt member
      cases List.mem_singleton.mp member
      obtain ⟨metadata, rfl, same⟩ := Option.map_eq_some_iff.mp shows
      exact same.trans marked

private theorem ofSend_failed {α : Type} {result : Except Channel.SendError α} {error : Error} (failed : result.mapError .ofSend = .error error) :
    ¬ error.Completion := by
  rintro ⟨cause, rfl⟩
  cases result with
  | ok => cases failed
  | error sent =>
    have same : Error.ofSend sent = .completion cause := Except.error.inj failed
    cases sent <;> cases same

theorem upload_failed {nodeId : String} {error : Error}
    (failed : upload nodeId exchange request carriage = .error error) : ¬ error.Completion := by
  unfold upload at failed
  cases metadata : request.metadata.mapError Error.ofSend with
  | error cause =>
    rw [metadata] at failed
    cases failed
    exact ofSend_failed metadata
  | ok bytes =>
    rw [metadata, Lib.ok_bind, Lib.rejectIf] at failed
    split at failed
    · cases failed
      exact nofun
    · exact ofSend_failed failed

theorem send_completion {nodeId : String}
    {error : Error} {attempts : List Attempt} (failed : send fromSlice nodeId exchange request carriage = (.error error, attempts))
    (completion : error.Completion) : ∃ attempt ∈ attempts, ∃ metadata, attempt.shown = some metadata ∧ metadata.status ∈ bodiless := by
  unfold send at failed
  split at failed
  next unsent =>
    cases failed
    exact absurd completion (upload_failed unsent)
  · cases responded : respond fromSlice exchange carriage with
    | mk result shown =>
      rw [responded] at failed
      cases failed
      exact ⟨_, List.mem_singleton.mpr rfl, (respond_late responded).2 completion⟩

end Sdk.EncryptedHttp

namespace Sdk.EncryptedClient
open StogasVerifier.Channel (Suite HttpRequest)
open EncryptedHttp (Attempt Carriage)

variable {S : Suite} {L : Evidence.Libraries} {R : Receipt.Libraries} {fromSlice : S.Bytes → Option Lib.Json}

def Error.Late : Error → Prop
  | .receipt _ => True
  | .http error => error.Late
  | _ => False

theorem exchange_single (request : HttpRequest S) (carriage : Carriage S) (selected : Selected S L) :
    Single Attempt.Refused Error.Late (exchange fromSlice request carriage selected) := by
  have single := @EncryptedHttp.send_single S fromSlice selected.nodeId selected.exchange request carriage
  unfold exchange
  split
  next error attempts sent =>
    rw [sent] at single
    refine ⟨single.one, ?_⟩
    rintro _ ⟨⟩ submitted
    exact single.tells error rfl submitted
  next sent =>
    rw [sent] at single
    exact ⟨single.one, Tells.of_late nofun⟩

variable {request : HttpRequest S}

theorem own_failed {wanted : Bool} {body : ReadBody} {response : HttpResponse} {context : RequestContext L}
    {error : Error} (failed : own R request wanted body response context = .error error) : ∃ cause, error = .receipt cause := by
  unfold own at failed
  split at failed
  · cases verified : ReceiptHttp.verify R response context.session.boot (R.sha256 (EncryptedHttp.octets request.body)) body with
    | error cause =>
      rw [verified] at failed
      cases failed
      exact ⟨cause, rfl⟩
    | ok response =>
      rw [verified] at failed
      cases failed
  · cases failed

theorem ownExchange_single {wanted : Bool} {world : World S L}
    {call : Except Error (HttpResponse × RequestContext L) × List Attempt} (single : Single Attempt.Refused Error.Late call) :
    Single Attempt.Refused Error.Late (ownExchange R request wanted world call) := by
  obtain ⟨result, attempts⟩ := call
  cases result with
  | error error => exact ⟨single.one, single.tells.passed⟩
  | ok response =>
    refine ⟨single.one, Tells.of_late fun error failed => ?_⟩
    obtain ⟨cause, rfl⟩ := own_failed failed
    trivial

variable {attempts : List Attempt}

theorem exchange_refused {carriage : Carriage S} {selected : Selected S L} {response : HttpResponse} {context : RequestContext L}
    (exchanged : exchange fromSlice request carriage selected = (.ok (response, context), attempts)) (marked : response.refused = true) :
    ∀ attempt ∈ attempts, attempt.Refused := by
  unfold exchange at exchanged
  split at exchanged
  · cases exchanged
  next sent =>
    cases exchanged
    exact EncryptedHttp.send_refused sent marked

theorem send_double (world : World S L) (request : HttpRequest S) :
    Double Attempt.Refused Error.Late (send R fromSlice world request) := by
  unfold send
  split
  · exact (Single.silent _).double
  split
  · exact (Single.silent _).double
  next selected _ =>
    have single := @exchange_single S L fromSlice request world.firstCarriage selected
    split
    next failed =>
      rw [failed] at single
      apply Single.double
      exact ⟨single.one, single.tells.passed⟩
    next response context attempts exchanged =>
      rw [exchanged] at single
      split
      next => exact (ownExchange_single single).double
      next marked =>
        have refused := exchange_refused exchanged (Bool.eq_true_of_not_eq_false marked)
        split
        next selected _ =>
          exact (ownExchange_single (exchange_single request world.secondCarriage selected)).resent single.one refused
        next error _ =>
          apply Single.double
          split
          · exact ⟨single.one, Tells.of_late nofun⟩
          · exact ⟨single.one, Tells.of_refused refused⟩

theorem exchange_completion {carriage : Carriage S} {selected : Selected S L} {error : EncryptedHttp.Error}
    (failed : exchange fromSlice request carriage selected = (.error (.http error), attempts))
    (completion : error.Completion) :
    ∃ attempt ∈ attempts, ∃ metadata, attempt.shown = some metadata ∧ metadata.status ∈ EncryptedHttp.bodiless := by
  unfold exchange at failed
  split at failed
  next sent =>
    cases failed
    exact EncryptedHttp.send_completion sent completion
  next => cases failed

theorem ownExchange_completion {wanted : Bool} {world : World S L} {carriage : Carriage S} {selected : Selected S L}
    {error : EncryptedHttp.Error}
    (failed : ownExchange R request wanted world (exchange fromSlice request carriage selected) = (.error (.http error), attempts))
    (completion : error.Completion) :
    ∃ attempt ∈ attempts, ∃ metadata, attempt.shown = some metadata ∧ metadata.status ∈ EncryptedHttp.bodiless := by
  cases exchanged : exchange fromSlice request carriage selected with
  | mk result attempts =>
    rw [exchanged] at failed
    cases result with
    | error error =>
      cases failed
      exact exchange_completion exchanged completion
    | ok response =>
      obtain ⟨cause, differs⟩ := own_failed (congrArg Prod.fst failed)
      cases differs

/-- The completion of events fails a call only where a response has no body. -/
theorem send_completion {world : World S L} {error : EncryptedHttp.Error}
    (failed : send R fromSlice world request = (.error (.http error), attempts)) (submitted : ∃ attempt ∈ attempts, ¬ attempt.Refused)
    (completion : error.Completion) :
    ∃ attempt ∈ attempts, ∃ metadata, attempt.shown = some metadata ∧ metadata.status ∈ EncryptedHttp.bodiless := by
  obtain ⟨submission, member, unrefused⟩ := submitted
  unfold send at failed
  split at failed
  · cases failed
  split at failed
  · cases failed
    cases member
  next selected _ =>
    split at failed
    next exchanged =>
      cases failed
      exact exchange_completion exchanged completion
    next response context earlier exchanged =>
      split at failed
      next =>
        rw [← exchanged] at failed
        exact ownExchange_completion failed completion
      next marked =>
        split at failed
        next selected _ =>
          obtain ⟨fails, rfl⟩ := Prod.mk.inj failed
          obtain ⟨attempt, last, shows⟩ := ownExchange_completion (Prod.ext fails rfl) completion
          exact ⟨attempt, List.mem_append_right earlier last, shows⟩
        next =>
          split at failed
          · cases failed
          · cases failed
            exact absurd (exchange_refused exchanged (Bool.eq_true_of_not_eq_false marked) submission member) unrefused

theorem reported_iff {error : Error} (late : error.Late) :
    (Proxy.Failure.encrypted error).submission = .executionUnknown ↔ ∀ cause, error ≠ .http (.completion cause) := by
  cases error with
  | receipt cause => exact ⟨fun _ => nofun, fun _ => rfl⟩
  | http error =>
    cases error with
    | completion cause => exact ⟨nofun, fun differs => absurd rfl (differs cause)⟩
    | request => cases late
    | notSentDeadline => cases late
    | _ => exact ⟨fun _ => nofun, fun _ => rfl⟩
  | _ => cases late

end Sdk.EncryptedClient
namespace Sdk
open Proxy (Failure)

/-- A call that fails after a submission that the gateway did not refuse reports that the
execution is unknown; over encrypted sessions it does so unless the completion of events failed,
which only the status of a response without a body can make it do. -/
theorem submission_reported (L : Evidence.Libraries) (R : Receipt.Libraries) :
    (∀ (world : NativeHttp.World L) (request : NativeHttp.Request) (error : NativeHttp.Error) (attempts : List Http2.Attempt),
      NativeHttp.send R world request = (.error error, attempts) → (∃ attempt ∈ attempts, ¬ attempt.Refused) →
      (Failure.native error).submission = .executionUnknown) ∧
    ∀ (S : Channel.Suite) (fromSlice : S.Bytes → Option Lib.Json) (world : EncryptedClient.World S L)
      (request : Channel.HttpRequest S) (error : EncryptedClient.Error) (attempts : List EncryptedHttp.Attempt),
      EncryptedClient.send R fromSlice world request = (.error error, attempts) → (∃ attempt ∈ attempts, ¬ attempt.Refused) →
      ((Failure.encrypted error).submission = .executionUnknown ↔ ∀ cause, error ≠ .http (.completion cause)) ∧
      (∀ cause, error = .http (.completion cause) →
        ∃ attempt ∈ attempts, ∃ metadata, attempt.shown = some metadata ∧ metadata.status ∈ EncryptedHttp.bodiless) ∧
      ((∀ attempt ∈ attempts, ∀ metadata, attempt.shown = some metadata → metadata.status ∉ EncryptedHttp.bodiless) →
        (Failure.encrypted error).submission = .executionUnknown) := by
  constructor
  · intro world request error attempts failed submitted
    have double := NativeHttp.send_double R world request
    rw [failed] at double
    exact double.tells error rfl submitted
  · intro S fromSlice world request error attempts failed submitted
    have double := @EncryptedClient.send_double S L R fromSlice world request
    rw [failed] at double
    have reported := EncryptedClient.reported_iff (double.tells error rfl submitted)
    have bodiless : ∀ cause, error = .http (.completion cause) → _ := fun cause same =>
      EncryptedClient.send_completion (same ▸ failed) submitted ⟨cause, rfl⟩
    refine ⟨reported, bodiless, fun ordinary => reported.mpr fun cause same => ?_⟩
    obtain ⟨attempt, member, metadata, shown, status⟩ := bodiless cause same
    exact ordinary attempt member metadata shown status

def noReceipts : Receipt.Libraries where
  strictJson _ := .error ""
  toVec _ := .error ""
  canonicalize _ := .error ""
  sha256 _ := List.Vector.replicate 32 0
  urlSafeDecode _ := .error ""
  urlSafeEncode _ := ""
  verifySigning _ _ _ := .error ""

section
open StogasVerifier.Channel (plain plainId plainShared plainRecord plainHeader Shared ClientSession KeyPair)

def plainOwner : Option (EncryptedClient.Owner plain) :=
  (ClientSession.new (S := plain) () plainId 30 (KeyPair.fromSeed (S := plain) ()).publicKeys).toOption.map fun created =>
    ⟨"node", created.1, created.2, 0, true, false⟩

def plainPass (owner : EncryptedClient.Owner plain) : EncryptedClient.Pass plain Evidence.sampleLibraries :=
  ⟨[owner], false, false, 0, ⟨.ok (), .ok ()⟩, .ok ⟨Evidence.sampleSnapshot, Evidence.sampleSession⟩, none, false⟩

def plainCarriage (shared : Shared plain) (head : plain.Bytes) (processed : Bool) : EncryptedHttp.Carriage plain :=
  ⟨0, 1, .head 200 (some EncryptedHttp.contentType) none, shared,
    [⟨false, .bytes (plainRecord plainHeader .metadata head ++ plainRecord [] .finished []), shared, 0⟩, ⟨false, .ended, shared, 0⟩], processed⟩

def plainRequest : Channel.HttpRequest plain := ⟨"POST", "/v1/responses", none, [], []⟩

def eventHead : plain.Bytes := plain.text "\x7b\"status\":204,\"headers\":\x7b\"content-type\":\"text/event-stream\"\x7d\x7d"
def refusedHead : plain.Bytes := plain.text "\x7b\"status\":503,\"headers\":\x7b\x7d,\"refused\":true\x7d"
def plainHead : plain.Bytes := plain.text "\x7b\"status\":200,\"headers\":\x7b\x7d\x7d"

def readHead (bytes : plain.Bytes) : Option Lib.Json :=
  if bytes = eventHead then
    some (.object [("status", .number (.posInt 204)), ("headers", .object [("content-type", .string "text/event-stream")])])
  else if bytes = refusedHead then
    some (.object [("status", .number (.posInt 503)), ("headers", .object []), ("refused", .bool true)])
  else if bytes = plainHead then some (.object [("status", .number (.posInt 200)), ("headers", .object [])])
  else none

def plainWorld (owner : EncryptedClient.Owner plain) (shared : Shared plain) (head : plain.Bytes) (processed : Bool) :
    EncryptedClient.World plain Evidence.sampleLibraries :=
  ⟨1, [plainPass owner], plainCarriage shared head processed, .late, [plainPass owner], plainCarriage shared plainHead true, .late⟩

private def forgotten : Except EncryptedClient.Error HttpResponse × List EncryptedHttp.Attempt → Bool
  | (.error error, [attempt]) => (Failure.encrypted error).submission = .notSent ∧ attempt.shown.any (·.refused) = false ∧ attempt.processed
  | _ => false

private def resent : Except EncryptedClient.Error HttpResponse × List EncryptedHttp.Attempt → Bool
  | (.ok _, [first, second]) => first.shown.any (·.refused) ∧ first.processed = false ∧ second.shown.any (·.refused) = false
  | _ => false

private structure SubmissionEvaluation : Prop where
  forgets : (plainOwner.bind fun owner => plainShared.map fun shared =>
    forgotten (EncryptedClient.send noReceipts readHead (plainWorld owner shared eventHead true) plainRequest)) = some true
  resends : (plainOwner.bind fun owner => plainShared.map fun shared =>
    resent (EncryptedClient.send noReceipts readHead (plainWorld owner shared refusedHead false) plainRequest)) = some true

private theorem submissionEvaluation : SubmissionEvaluation := by
  constructor <;> decide +kernel

private theorem forgotten_run : ∃ owner shared error attempts,
    EncryptedClient.send noReceipts readHead (plainWorld owner shared eventHead true) plainRequest = (.error error, attempts) ∧
      (∃ attempt ∈ attempts, ¬ attempt.Refused ∧ attempt.processed = true) ∧ (Failure.encrypted error).submission = .notSent := by
  obtain ⟨owner, -, evaluated⟩ := Option.bind_eq_some_iff.mp submissionEvaluation.forgets
  obtain ⟨shared, -, evaluated⟩ := Option.map_eq_some_iff.mp evaluated
  refine ⟨owner, shared, ?_⟩
  unfold forgotten at evaluated
  split at evaluated
  next error attempt sent =>
    obtain ⟨reported, unrefused, processed⟩ := of_decide_eq_true evaluated
    exact ⟨error, [attempt], sent, ⟨attempt, List.mem_singleton.mpr rfl, Bool.eq_false_iff.mp unrefused, processed⟩, reported⟩
  next => cases evaluated

/-- A response without a body that announces events: the gateway processed the request,
and the report says that it was not sent. -/
theorem completion_not_sent : ∃ owner shared error attempts,
    EncryptedClient.send noReceipts readHead (plainWorld owner shared eventHead true) plainRequest = (.error error, attempts) ∧
      (∃ attempt ∈ attempts, ¬ attempt.Refused ∧ attempt.processed = true) ∧ (Failure.encrypted error).submission = .notSent :=
  forgotten_run

end

section
open Http2 (Pool)

def nativeSubmission (outcome : Http2.Outcome) (processed : Bool) : NativeHttp.Submission Evidence.sampleLibraries :=
  ⟨⟨false, Pool.new ⟨1, 1⟩, [.granted]⟩, .ok ⟨Evidence.sampleSnapshot, Evidence.sampleSession⟩, ⟨false, false, outcome, processed⟩⟩

def nativeWorld (outcome : Http2.Outcome) (processed : Bool) : NativeHttp.World Evidence.sampleLibraries :=
  ⟨nativeSubmission outcome processed, nativeSubmission .late true, .late, .late⟩

def nativeRequest : NativeHttp.Request := ⟨"", [], []⟩

/-- The deadline of a response, and the run that the report forgets. -/
theorem submission_reported_sample :
    (Failure.native (.pool .responseDeadline)).submission = .executionUnknown ∧
    ∃ owner shared error attempts,
      EncryptedClient.send noReceipts readHead (plainWorld owner shared eventHead true) plainRequest = (.error error, attempts) ∧
      ((Failure.encrypted error).submission = .executionUnknown ↔ ∀ cause, error ≠ .http (.completion cause)) := by
  constructor
  · apply (submission_reported _ noReceipts).1 (nativeWorld .late true) nativeRequest (.pool .responseDeadline) [⟨.late, true⟩] rfl
    exact ⟨_, List.mem_singleton.mpr rfl, nofun⟩
  · obtain ⟨owner, shared, error, attempts, sent, ⟨attempt, member, unrefused, -⟩, -⟩ := forgotten_run
    exact ⟨owner, shared, error, attempts, sent, ((submission_reported _ _).2 _ _ _ _ _ _ sent ⟨attempt, member, unrefused⟩).1⟩

end

/-- However the network and the gateway behave, if what they say was refused was not
processed, a call submits twice at most and one submission at most is processed. -/
theorem at_most_once :
    (∀ (L : Evidence.Libraries) (R : Receipt.Libraries) (world : NativeHttp.World L) (request : NativeHttp.Request),
      (∀ attempt ∈ (NativeHttp.send R world request).2, attempt.Refused → attempt.processed = false) →
      (NativeHttp.send R world request).2.length ≤ 2 ∧ (NativeHttp.send R world request).2.countP (·.processed) ≤ 1) ∧
    ∀ (S : Channel.Suite) (L : Evidence.Libraries) (R : Receipt.Libraries) (fromSlice : S.Bytes → Option Lib.Json)
      (world : EncryptedClient.World S L) (request : Channel.HttpRequest S),
      (∀ attempt ∈ (EncryptedClient.send R fromSlice world request).2, attempt.Refused → attempt.processed = false) →
      (EncryptedClient.send R fromSlice world request).2.length ≤ 2 ∧
        (EncryptedClient.send R fromSlice world request).2.countP (·.processed) ≤ 1 := by
  constructor
  · intro L R world request truthful
    have double := NativeHttp.send_double R world request
    exact ⟨double.two, double.countP_le truthful⟩
  · intro S L R fromSlice world request truthful
    have double := @EncryptedClient.send_double S L R fromSlice world request
    exact ⟨double.two, double.countP_le truthful⟩

/-- A request is refused and sent again, over TLS and over a session. -/
theorem at_most_once_sample :
    (NativeHttp.send noReceipts (nativeWorld (.failed true none) false) nativeRequest).2.countP (·.processed) ≤ 1 ∧
    ∃ owner shared, (EncryptedClient.send noReceipts readHead (plainWorld owner shared refusedHead false) plainRequest).2.length = 2 ∧
      (EncryptedClient.send noReceipts readHead (plainWorld owner shared refusedHead false) plainRequest).2.countP (·.processed) ≤ 1 := by
  constructor
  · apply And.right
    apply at_most_once.1
    have sent : (NativeHttp.send noReceipts (nativeWorld (.failed true none) false) nativeRequest).2 =
        [⟨.failed true none, false⟩, ⟨.late, true⟩] := rfl
    rw [sent]
    rintro attempt member refused
    rcases List.mem_pair.mp member with rfl | rfl
    · rfl
    · cases refused
  · obtain ⟨owner, -, evaluated⟩ := Option.bind_eq_some_iff.mp submissionEvaluation.resends
    obtain ⟨shared, -, evaluated⟩ := Option.map_eq_some_iff.mp evaluated
    refine ⟨owner, shared, ?_⟩
    have bound := at_most_once.2 _ _ noReceipts readHead (plainWorld owner shared refusedHead false) plainRequest
    generalize EncryptedClient.send noReceipts readHead (plainWorld owner shared refusedHead false) plainRequest = call at evaluated bound
    unfold resent at evaluated
    split at evaluated
    next first second =>
      obtain ⟨-, unprocessed, unrefused⟩ := of_decide_eq_true evaluated
      refine ⟨rfl, (bound ?_).2⟩
      rintro attempt member refused
      rcases List.mem_pair.mp member with rfl | rfl
      · exact unprocessed
      · exact absurd refused (Bool.eq_false_iff.mp unrefused)
    next => cases evaluated

end Sdk
end StogasVerifier
