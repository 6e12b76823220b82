import StogasVerifier.Bindings.EncryptedRequest
import StogasVerifier.Channel.Symbolic

/-! The record state of a request has one owner until the request closes. -/

namespace StogasVerifier.Bindings
open Lib
open Channel (Suite Kind ClientRequest CipherCall symbolic)

variable {S : Suite}

namespace RequestEvent

def Closes : RequestEvent S → Prop
  | .failed _ | .freed => True
  | _ => False

def Fails : RequestEvent S → Prop
  | .refused error => error = .closed
  | .failed failure => failure = .channel .closed ∨ failure = .thrown
  | .receipt result => result = .error (.channel .closed)
  | .threw | .freed => True
  | _ => False

def content : RequestEvent S → S.Bytes
  | .sealed .data content => content
  | _ => []

end RequestEvent

def digested (events : List (RequestEvent S)) : S.Bytes := events.flatMap RequestEvent.content

namespace RequestState

variable {state next : RequestState S} {event success : RequestEvent S} {events : List (RequestEvent S)} {io after : RequestIo S}
  {operation : Operation S} {earlier later : List (Operation S)} {receipt closed thrown clock : Bool} {hasher : Option S.Bytes}
  {kind : Kind} {content : S.Bytes} {reply : CipherCall S} {body : Except Failure (RequestIo S)}

inductive Placed (hasher : Option S.Bytes) : RequestState S → Prop where
  | idle {io : RequestIo S} (hashed : io.requestHasher = hasher) : Placed hasher ⟨some io, false, []⟩
  | busy {operation : Operation S} (hashed : operation.io.requestHasher = hasher) : Placed hasher ⟨none, false, [operation]⟩
  | gone {operations : List (Operation S)} (few : operations.length ≤ 1) : Placed hasher ⟨none, true, operations⟩

/-- What one step does to the place of the record state, and what it shows. -/
structure Moves (hasher : Option S.Bytes) (state : RequestState S) (event : RequestEvent S) (next : RequestState S) : Prop where
  placed : Placed (hasher.map (· ++ event.content)) next
  late : state.closed = true → next.closed = true ∧ event.Fails
  closes : event.Closes → next.closed = true
  digest : ∀ result, event = .receipt (.ok result) → hasher.map S.sha256 = some result

theorem Moves.close {operations : List (Operation S)} (few : operations.length ≤ 1) (closes : event.Closes)
    (late : state.closed = true → event.Fails) : Moves hasher state event ⟨none, true, operations⟩ where
  placed := .gone few
  late shut := ⟨rfl, late shut⟩
  closes _ := rfl
  digest := by
    rintro result rfl
    exact closes.elim

theorem Placed.rest (placed : Placed hasher state) (silent : event.content = []) (harmless : ¬ event.Closes)
    (late : state.closed = true → event.Fails) (digest : ∀ result, event = .receipt (.ok result) → hasher.map S.sha256 = some result) :
    Moves hasher state event state where
  placed := by simpa [silent] using placed
  late shut := ⟨shut, late shut⟩
  closes shown := absurd shown harmless
  digest := digest

theorem Placed.begins (placed : Placed hasher state) (taken : state.begin = .ok (io, next)) :
    state = ⟨some io, false, []⟩ ∧ next = ⟨none, false, []⟩ ∧ io.requestHasher = hasher := by
  simp only [begin, checkOpen, bind_ok, rejectIf_ok, exists_unit, required_ok, pure_ok, Prod.mk.injEq] at taken
  obtain ⟨-, _, here, rfl, rfl⟩ := taken
  cases placed with
  | idle hashed =>
    cases here
    exact ⟨rfl, rfl, hashed⟩
  | busy => cases here
  | gone => cases here

theorem Placed.takes (placed : Placed hasher state) (taken : state.begin = .ok (operation.io, next)) :
    Moves hasher state .began { next with operations := next.operations ++ [operation] } := by
  obtain ⟨rfl, rfl, hashed⟩ := placed.begins taken
  exact ⟨.busy (by simp [hashed, RequestEvent.content]), by rintro ⟨⟩, False.elim, by rintro _ ⟨⟩⟩

theorem Placed.alone (placed : Placed hasher state) (here : state.operations = earlier ++ operation :: later) :
    state = ⟨none, state.closed, [operation]⟩ ∧ earlier = [] ∧ later = [] ∧ (state.closed = false → operation.io.requestHasher = hasher) := by
  cases placed with
  | idle => simp at here
  | busy hashed =>
    obtain ⟨rfl, same⟩ | ⟨-, absurd⟩ := List.singleton_eq_append_iff.mp here
    · obtain ⟨rfl, rfl⟩ := List.cons_eq_cons.mp same
      exact ⟨rfl, rfl, rfl, fun _ => hashed⟩
    · cases absurd
  | gone few =>
    simp only at here
    simp only [here, List.length_append, List.length_cons] at few
    obtain rfl := List.eq_nil_of_length_eq_zero (by omega : earlier.length = 0)
    obtain rfl := List.eq_nil_of_length_eq_zero (by omega : later.length = 0)
    exact ⟨by rw [here]; rfl, rfl, rfl, by rintro ⟨⟩⟩

theorem conclude_moves (same : state.closed = closed) (hashed : closed = false → io.requestHasher = hasher)
    (ends : ∀ after, body = .ok after → after.requestHasher = io.requestHasher.map (· ++ success.content))
    (late : closed = true → ∀ failure, body = .error failure → failure = .channel .closed ∨ failure = .thrown)
    (succeeds : success = .done ∨ ∃ kind content, success = .sealed kind content) :
    Moves hasher state (settled success (conclude ⟨none, closed, []⟩ body).1) (conclude ⟨none, closed, []⟩ body).2 := by
  unfold conclude
  cases body with
  | error failure => exact .close (Nat.zero_le 1) trivial fun shut => late (same ▸ shut) failure rfl
  | ok after =>
    cases closed with
    | true => exact .close (Nat.zero_le 1) trivial fun _ => .inl rfl
    | false =>
      refine ⟨.idle ((ends after rfl).trans (by rw [hashed rfl]; rfl)), fun shut => ?_, ?_, ?_⟩
      · cases same.symm.trans shut
      · rcases succeeds with rfl | ⟨_, _, rfl⟩ <;> exact False.elim
      · rcases succeeds with rfl | ⟨_, _, rfl⟩ <;> rintro _ ⟨⟩

theorem sealBody_ok (ends : state.sealBody kind content io reply = some (.ok after)) :
    after.requestHasher = io.requestHasher.map (· ++ (RequestEvent.sealed kind content).content) := by
  unfold sealBody at ends
  split at ends
  · cases ends
  · split at ends
    · cases ends
    · obtain ⟨result, -, made⟩ := Option.map_eq_some_iff.mp ends
      cases result with
      | error error => cases made
      | ok record =>
        cases made
        cases kind <;> simp [RequestEvent.content]

theorem sealBody_late (shut : state.closed = true) (ends : state.sealBody kind content io reply = some body) :
    body = .error (.channel .closed) := by
  unfold sealBody at ends
  split at ends
  · exact (Option.some.inj ends).symm
  · rw [if_pos shut] at ends
    exact (Option.some.inj ends).symm

variable {decoder : Channel.ResponseDecoder S} {result : Except Channel.Error Unit}

theorem pushBody_ok (ends : state.pushBody io thrown clock decoder result = .ok after) : after.requestHasher = io.requestHasher := by
  simp only [pushBody, bind_ok, rejectIf_ok, mapError_ok, pure_ok, exists_unit] at ends
  obtain ⟨-, -, -, -, -, rfl⟩ := ends
  cases io.request <;> rfl

theorem pushBody_late {failure : Failure} (shut : state.closed = true) (ends : state.pushBody io thrown clock decoder result = .error failure) :
    failure = .channel .closed ∨ failure = .thrown := by
  simp only [pushBody, rejectIf, checkOpen, shut, if_true] at ends
  split_ifs at ends <;> cases ends <;> simp

theorem Placed.receives (placed : Placed hasher state) {digest : S.Digest} (taken : state.responseReceipt = .ok digest) :
    hasher.map S.sha256 = some digest := by
  simp only [responseReceipt, bind_ok, mapError_ok, exists_unit, required_ok, pure_ok] at taken
  obtain ⟨-, io, here, content, hashed, rfl⟩ := taken
  cases placed with
  | idle same =>
    cases (Option.filter_eq_some_iff.mp here).1
    rw [← same, hashed]
    rfl
  | busy => cases here
  | gone => cases here

theorem Placed.moves (placed : Placed hasher state) (step : Step state event next) : Moves hasher state event next := by
  cases step with
  | refuse refused =>
    refine placed.rest rfl id (fun shut => ?_) (by rintro _ ⟨⟩)
    simp only [begin, checkOpen, rejectIf, shut, if_true] at refused
    exact (Except.error.inj refused).symm
  | beginSeal taken kind content => exact placed.takes taken
  | sealUnknown taken unknown =>
    obtain ⟨rfl, rfl, -⟩ := placed.begins taken
    exact .close (Nat.zero_le 1) trivial (by rintro ⟨⟩)
  | beginPush taken => exact placed.takes taken
  | finish taken complete =>
    obtain ⟨rfl, rfl, hashed⟩ := placed.begins taken
    refine conclude_moves rfl (fun _ => hashed) (fun after ends => ?_) (by rintro ⟨⟩) (.inl rfl)
    simp only [finishBody, bind_ok, mapError_ok, pure_ok, exists_unit] at ends
    obtain ⟨_, -, -, rfl⟩ := ends
    simp [RequestEvent.content]
  | sealed here ends =>
    obtain ⟨same, rfl, rfl, hashed⟩ := placed.alone here
    rw [same]
    refine conclude_moves rfl hashed (by rintro after rfl; exact sealBody_ok ends) (fun shut failure failed => ?_) (.inr ⟨_, _, rfl⟩)
    cases failed.symm.trans (sealBody_late shut ends)
    exact .inl rfl
  | emit here opened => exact placed.rest rfl id (fun shut => absurd (opened.symm.trans shut) Bool.false_ne_true) (by rintro _ ⟨⟩)
  | throw here =>
    obtain ⟨same, rfl, rfl, hashed⟩ := placed.alone here
    rw [same]
    cases shut : state.closed with
    | true => exact ⟨.gone (Nat.le_refl 1), fun _ => ⟨rfl, trivial⟩, False.elim, by rintro _ ⟨⟩⟩
    | false => exact ⟨.busy (by simpa [RequestEvent.content, Operation.io] using hashed shut), by rintro ⟨⟩, False.elim, by rintro _ ⟨⟩⟩
  | pushed here clock decoder result =>
    obtain ⟨same, rfl, rfl, hashed⟩ := placed.alone here
    have shape : { state with operations := [] ++ [] } = (⟨none, state.closed, []⟩ : RequestState S) := by rw [same]; rfl
    rw [shape]
    refine conclude_moves rfl hashed (fun after ends => ?_) (fun shut failure failed => pushBody_late shut failed) (.inl rfl)
    rw [pushBody_ok ends]
    simp [RequestEvent.content, Operation.io]
  | free => exact .close (by cases placed <;> simp_all) trivial fun _ => trivial
  | receipt =>
    refine placed.rest rfl id (fun shut => ?_) fun result taken => placed.receives (RequestEvent.receipt.inj taken)
    simp [RequestEvent.Fails, responseReceipt, checkOpen, rejectIf, shut, Except.mapError, bind, Except.bind]

/-- What every run keeps. -/
structure Owned (receipt : Bool) (events : List (RequestEvent S)) (state : RequestState S) : Prop where
  placed : Placed (if receipt then some (digested events) else none) state
  closes : ∀ event ∈ events, event.Closes → state.closed = true
  order : events.Pairwise fun earlier later => earlier.Closes → later.Fails
  digests : ∀ index digest, events[index]? = some (.receipt (.ok digest)) → receipt = true ∧ digest = S.sha256 (digested (events.take index))

theorem Owned.step (owned : Owned receipt events state) (step : Step state event next) : Owned receipt (events ++ [event]) next := by
  have moves := owned.placed.moves step
  refine ⟨?_, ?_, ?_, ?_⟩
  · have placed := moves.placed
    cases receipt <;> simpa [digested] using placed
  · intro other member closes
    rcases List.mem_append.mp member with before | last
    · exact (moves.late (owned.closes other before closes)).1
    · exact moves.closes (List.mem_singleton.mp last ▸ closes)
  · refine List.pairwise_append.mpr ⟨owned.order, List.pairwise_singleton _ _, fun other member last here closes => ?_⟩
    exact List.mem_singleton.mp here ▸ (moves.late (owned.closes other member closes)).2
  · intro index digest found
    rcases Nat.lt_or_ge index events.length with inside | outside
    · rw [List.getElem?_append_left inside] at found
      rw [List.take_append_of_le_length inside.le]
      exact owned.digests index digest found
    · rw [List.getElem?_append_right outside, List.getElem?_singleton] at found
      split at found
      next last =>
        obtain rfl : index = events.length := by omega
        have same := moves.digest digest (Option.some.inj found)
        cases receipt with
        | false => cases same
        | true => exact ⟨rfl, by rw [List.take_left]; exact (Option.some.inj same).symm⟩
      next => cases found

theorem refused_same {error : Channel.Error} (step : Step state (.refused error) next) : next = state := by
  generalize shown : RequestEvent.refused error = event at step
  cases step with
  | refuse => rfl
  | finish | sealed | pushed => cases ends : (conclude _ _).1 <;> rw [ends] at shown <;> cases shown
  | _ => cases shown

/-- After every run at most one operation owns the record state; while one does, and after the request is closed, an
operation is refused and changes nothing; a closed request stays closed and fails what comes later; and a digest is
that of the data that was sealed before it. -/
theorem request_owned (request : ClientRequest S) (receipt : Bool) (run : Trace Step (new request receipt) events state) :
    state.operations.length + state.io.toList.length ≤ 1 ∧
    (state.operations ≠ [] → state.closed = false → state.begin = .error .pending) ∧
    (∀ error next, Step state (.refused error) next → next = state) ∧
    (∀ event ∈ events, event.Closes → state.closed = true) ∧
    (state.closed = true → state.io = none ∧ state.begin = .error .closed) ∧
    events.Pairwise (fun earlier later => earlier.Closes → later.Fails) ∧
    ∀ index digest, events[index]? = some (.receipt (.ok digest)) → receipt = true ∧ digest = S.sha256 (digested (events.take index)) := by
  have owned := run.invariant (Owned receipt) ⟨.idle rfl, by simp, .nil, by simp⟩ fun owned step => owned.step step
  refine ⟨?_, ?_, fun _ _ step => refused_same step, owned.closes, ?_, owned.order, owned.digests⟩
  all_goals cases owned.placed <;> simp_all [begin, checkOpen, rejectIf, required, bind, Except.bind]

def sampleRequest : ClientRequest symbolic :=
  ⟨⟨[], 0, ⟨some ⟨.atom 0⟩, none, 1, 0, .request, .body⟩⟩, ⟨some 0, [], none, false⟩⟩

/-- A call that overlaps a seal is refused, and the digest is that of the sealed data. -/
theorem request_owned_sample : ∃ events state, Trace Step (new sampleRequest true) events state ∧
    (∃ error, events[1]? = some (.refused error)) ∧ events[5]? = some (.receipt (.ok [(7 : Nat)])) ∧
    [(7 : Nat)] = symbolic.sha256 (digested (events.take 5)) := by
  have run : Trace Step (new sampleRequest true) _ _ :=
    Trace.nil |>.snoc (.beginSeal rfl .data [(7 : Nat)]) |>.snoc (.refuse rfl)
      |>.snoc (@Step.sealed symbolic _ [] [] _ _ _ (fun _ _ _ text => .returned text) _ rfl rfl)
      |>.snoc (.beginSeal rfl .finished [])
      |>.snoc (@Step.sealed symbolic _ [] [] _ _ _ (fun _ _ _ text => .returned text) _ rfl rfl)
      |>.snoc .receipt
  exact ⟨_, _, run, ⟨_, rfl⟩, rfl, ((request_owned sampleRequest true run).2.2.2.2.2.2 5 [(7 : Nat)] rfl).2⟩

end RequestState
end StogasVerifier.Bindings
