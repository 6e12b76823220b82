import Mathlib
import StogasVerifier.Channel.Upload
import StogasVerifier.Proofs.Fragmentation

/-! How long an accepted stream can be. Every record adds its overhead, the
metadata comes once and the body has a limit; the records of a request are few
because all data records but the last are full. -/

namespace StogasVerifier.Channel
open Lib Grammar

variable {S : Suite}

namespace Records

variable {records after : Records S}

theorem prefixSize_place {bytes : S.Bytes} {front : Nat} (found : records.prefixSize bytes = .ok front) :
    front = 4 + if records.sequence = 0 then 2 + headerBytes else 0 := by
  unfold prefixSize at found
  split at found
  next first =>
    simp only [bind_ok, pure_ok, reject_ok] at found
    obtain ⟨_, _, _, width, rfl⟩ := found
    rw [not_not.mp (not_or.mp width).1, if_pos first]
    omega
  next later =>
    rw [if_neg later]
    exact (Except.ok.inj found).symm

theorem opening_length (laws : S.InPlace) {bytes content : S.Bytes} {kind : Kind}
    (opened : records.opening bytes = .ok ((kind, content), after)) :
    bytes.length = encodedSize records.sequence content.length := by
  simp only [opening, bind_ok, pure_ok] at opened
  obtain ⟨offset, framed, ⟨key, nonceBytes, next⟩, -, plaintext, read, ⟨_, _, _⟩, accepted, same⟩ := opened
  cases same
  have size := parse_length (acceptOpen_ok.mp accepted).1
  obtain ⟨-, decrypted⟩ := decryptNow_ok.mp read
  have whole := laws _ _ _ _ _ decrypted
  simp only [checkEncoded, bind_ok, pure_ok, reject_ok] at framed
  obtain ⟨_, _, _, _, _, _, _, _, _, _, front, widened, _, long, rfl⟩ := framed
  have place := prefixSize_place widened
  rw [List.length_drop] at whole
  simp only [encodedSize, recordOverhead] at *
  omega

/-- What a direction says about the bytes that it has opened. -/
structure Weighed (records : Records S) (total : Nat) : Prop where
  records_le : records.sequence ≤ maxRecords
  body_le : records.bodyBytes ≤ maxBody records.direction
  tail : records.phase = .tail → records.direction = .request
  parts : ∃ metadata, (records.phase = .metadata → metadata = 0) ∧ metadata ≤ maxRecordPlaintext ∧
    total = records.sequence * recordOverhead + metadata + records.bodyBytes + if records.sequence = 0 then 0 else 2 + headerBytes

theorem Weighed.fresh (keys : Keys S) (direction : Direction) (header : Option S.Bytes) :
    (fromKeys keys direction header).Weighed 0 :=
  ⟨Nat.zero_le _, Nat.zero_le _, nofun, 0, fun _ => rfl, Nat.zero_le _, rfl⟩

def Fits (records : Records S) (kind : Kind) (size : Nat) : Prop :=
  match kind with
  | .metadata => records.phase = .metadata
  | .data => records.phase = .body ∧ 0 < size ∧ records.bodyBytes + size ≤ maxBody records.direction
  | .finished => size = 0 ∧ records.phase ≠ .metadata
  | .keepalive => size = 0 ∧ records.direction = .response

theorem check_fits {kind : Kind} {size : Nat} (checked : records.check kind size = .ok ()) :
    records.sequence < maxRecords ∧ size ≤ maxRecordPlaintext ∧ records.Fits kind size := by
  simp only [check, bind_ok, reject_ok, exists_unit] at checked
  obtain ⟨-, bounds, allowed⟩ := checked
  refine ⟨by omega, by omega, ?_⟩
  cases kind with
  | metadata => exact not_not.mp (not_or.mp (reject_ok.mp allowed)).1
  | data =>
    simp only [bind_ok, reject_ok, exists_unit] at allowed
    exact ⟨not_not.mp (not_or.mp allowed.1).1, Nat.pos_of_ne_zero (not_or.mp allowed.1).2, by omega⟩
  | finished =>
    obtain ⟨later, empty⟩ := not_or.mp (reject_ok.mp allowed)
    exact ⟨not_not.mp empty, later⟩
  | keepalive =>
    obtain ⟨response, empty⟩ := not_or.mp (reject_ok.mp allowed)
    exact ⟨not_not.mp empty, not_not.mp response⟩

theorem Weighed.opening {total : Nat} (weighed : records.Weighed total) (laws : S.InPlace) {bytes : S.Bytes}
    {output} (opened : records.opening bytes = .ok (output, after)) : after.Weighed (total + bytes.length) := by
  obtain ⟨kind, content⟩ := output
  have length := opening_length laws opened
  obtain ⟨-, checked, keys, rfl⟩ := opening_accepts opened
  obtain ⟨room, fits, shape⟩ := check_fits checked
  obtain ⟨metadata, early, short, sum⟩ := weighed.parts
  -- The new record adds its overhead, its content and, if it is the first, the header.
  have weight : ∀ metadata' body', metadata' + body' = metadata + records.bodyBytes + content.length →
      total + bytes.length = (records.sequence + 1) * recordOverhead + metadata' + body' +
        if records.sequence + 1 = 0 then 0 else 2 + headerBytes := by
    intro metadata' body' same
    rw [length, sum, encodedSize, if_neg (Nat.succ_ne_zero _), Nat.succ_mul]
    split <;> omega
  cases kind with
  | metadata =>
    have none := early shape
    exact ⟨room, weighed.body_le, by simp [advance], content.length, by simp [advance], fits, weight _ records.bodyBytes (by omega)⟩
  | data =>
    obtain ⟨inside, -, body⟩ := shape
    refine ⟨room, body, ?_, metadata, ?_, short, weight _ (records.bodyBytes + content.length) (by omega)⟩
    · intro tail
      by_contra response
      have stays : (advance { records with keys } .data content.length).phase = records.phase := if_neg fun other => response other.1
      rw [stays, inside] at tail
      cases tail
    · intro waiting
      have moved : (advance { records with keys } .data content.length).phase ≠ .metadata := by
        simp only [advance, inside]
        split <;> simp
      exact absurd waiting moved
  | finished =>
    obtain ⟨empty, -⟩ := shape
    exact ⟨room, weighed.body_le, by simp [advance], metadata, by simp [advance], short, weight _ records.bodyBytes (by omega)⟩
  | keepalive =>
    obtain ⟨empty, -⟩ := shape
    exact ⟨room, weighed.body_le, weighed.tail, metadata, early, short, weight _ records.bodyBytes (by omega)⟩

theorem Weighed.response_le {total : Nat} (weighed : records.Weighed total) (response : records.direction = .response) :
    total ≤ maxResponseWireBytes := by
  obtain ⟨metadata, -, short, sum⟩ := weighed.parts
  have count := weighed.records_le
  have body := weighed.body_le
  have overhead := Nat.mul_le_mul_right recordOverhead count
  rw [response] at body
  simp only [maxBody, maxResponseWireBytes] at *
  split at sum <;> omega

def Counted (records : Records S) : Prop :=
  match records.phase with
  | .metadata => records.sequence = 0 ∧ records.bodyBytes = 0
  | .body => records.sequence * maxRecordPlaintext = records.bodyBytes + maxRecordPlaintext
  | .tail => records.sequence * maxRecordPlaintext < records.bodyBytes + 2 * maxRecordPlaintext
  | .finished => records.sequence * maxRecordPlaintext < records.bodyBytes + 3 * maxRecordPlaintext
  | .failed => False

theorem Counted.opening (counted : records.Counted) (request : records.direction = .request) {bytes : S.Bytes}
    {output} (opened : records.opening bytes = .ok (output, after)) :
    after.Counted := by
  obtain ⟨kind, content⟩ := output
  obtain ⟨-, checked, keys, rfl⟩ := opening_accepts opened
  obtain ⟨-, fits, shape⟩ := check_fits checked
  obtain ⟨live, -⟩ := check_live checked
  have grown : (records.sequence + 1) * maxRecordPlaintext = records.sequence * maxRecordPlaintext + maxRecordPlaintext :=
    Nat.succ_mul _ _
  cases kind with
  | metadata =>
    have early : records.phase = .metadata := shape
    simp only [Counted, early] at counted
    obtain ⟨none, empty⟩ := counted
    simp only [Counted, advance, none, empty]
    omega
  | data =>
    obtain ⟨inside, some_, -⟩ := shape
    simp only [Counted, inside] at counted
    by_cases short : content.length < maxRecordPlaintext
    · simp only [Counted, advance, request, short, and_self, if_true]
      omega
    · simp only [Counted, advance, short, and_false, if_false, inside]
      omega
  | finished =>
    simp only [Counted, advance]
    cases place : records.phase with
    | metadata => exact absurd place shape.2
    | finished => exact absurd place live
    | failed => simp only [Counted, place] at counted
    | body | tail =>
      have positive : 0 < maxRecordPlaintext := by decide
      simp only [Counted, place] at counted
      omega
  | keepalive =>
    obtain ⟨-, response⟩ := shape
    rw [request] at response
    cases response

theorem Weighed.request_le {total : Nat} (weighed : records.Weighed total) (request : records.direction = .request)
    (counted : records.Counted) : requestPrefixBytes + total ≤ maxRequestWireBytes := by
  obtain ⟨metadata, -, short, sum⟩ := weighed.parts
  have body := weighed.body_le
  rw [request] at body
  have count : records.sequence ≤ maxRequestRecords := by
    simp only [maxRequestRecords, maxRequestBody, maxBody, maxRecordPlaintext, maxRecordBytes, recordOverhead] at *
    cases place : records.phase <;> simp only [Counted, place, maxRecordPlaintext, maxRecordBytes, recordOverhead] at counted
    all_goals omega
  have overhead := Nat.mul_le_mul_right recordOverhead count
  simp only [maxBody, maxRequestWireBytes] at *
  split at sum <;> omega

theorem openAll_weighed {total : Nat} (laws : S.InPlace) {frames : List S.Bytes} {contents : List (Kind × S.Bytes)}
    (weighed : records.Weighed total) (request : records.direction = .request) (counted : records.Counted)
    (opened : records.openAll frames = (contents.map .ok, after)) :
    after.direction = .request ∧ after.Counted ∧ after.Weighed (total + (frames.map List.length).sum) := by
  induction frames generalizing records contents total with
  | nil =>
    obtain ⟨-, rfl⟩ := Prod.mk.inj opened
    exact ⟨request, counted, weighed⟩
  | cons frame frames ih =>
    obtain ⟨outputs, last⟩ := Prod.mk.inj opened
    cases contents with
    | nil => cases outputs
    | cons output contents =>
      obtain ⟨head, tail⟩ := List.cons_eq_cons.mp outputs
      have opening := openRecord_ok.mp (Prod.ext head rfl)
      have direction := (opening_direction opening).trans request
      have final := ih (weighed.opening laws opening) direction (counted.opening request opening) (Prod.ext tail last)
      rwa [Nat.add_assoc, ← List.sum_cons, ← List.map_cons] at final

end Records

def ResponseReader.Weighs (reader : ResponseReader S) (total : Nat) : Prop :=
  match reader.records with
  | none => total = 0
  | some records => records.direction = .response ∧ records.Weighed total

theorem ResponseReader.Weighs.opened {reader after : ResponseReader S} {shared : Shared S} {bytes : S.Bytes} {now total : Nat}
    {output : Kind × S.Bytes} (weighs : reader.Weighs total) (laws : S.InPlace)
    (opens : reader.opened shared bytes now = some (output, after)) : after.Weighs (total + bytes.length) := by
  obtain ⟨kind, content⟩ := output
  obtain ⟨pending, sessionId, records, failed⟩ := reader
  cases failed with
  | true => cases opens
  | false =>
    cases records with
    | some records =>
      obtain ⟨response, weighed⟩ := weighs
      obtain ⟨next, opening, rfl⟩ := (ResponseReader.opened_started records shared).mp opens
      exact ⟨(Records.opening_direction opening).trans response, weighed.opening laws opening⟩
    | none =>
      cases (weighs : total = 0)
      cases pending with
      | none => cases opens
      | some number =>
        obtain ⟨records, succeeds, rfl⟩ := opened_pending.mp opens
        have reads := shared.readStart_reads sessionId number bytes now
        rw [succeeds] at reads
        cases reads with
        | accept framed offered authentic settled =>
          have opening := Records.authenticateStart_ok.mp authentic
          exact ⟨Records.opening_direction opening, (Records.Weighed.fresh _ _ _).opening laws opening⟩

namespace Decoding

variable {emit : Callback S} {state : Decoding S} {total now : Nat}

/-- What an open decoder has read is so long. -/
structure Consumed (state : Decoding S) (total : Nat) : Prop where
  settled : Settled state
  weighs : ∀ reader, state.decoder.request = some reader →
    ∃ opened, reader.Weighs opened ∧ total = opened + state.decoder.buffer.length

theorem Consumed.feed (consumed : Consumed state total) (laws : S.InPlace) (byte : S.Symbol) :
    Consumed (state.feed emit (byte, now)) (total + 1) := by
  refine ⟨consumed.settled.feed _, fun next kept => ?_⟩
  cases request : state.decoder.request with
  | none =>
    have still : state.feed emit (byte, now) = state := by rw [Decoding.feed, request]; rfl
    rw [still, request] at kept
    cases kept
  | some reader =>
    obtain ⟨opened, weighs, sum⟩ := consumed.weighs reader request
    have shape := congrArg Prod.fst (feed_view emit now consumed.settled.ready request byte)
    dsimp only at shape
    rw [shape] at kept ⊢
    unfold view at kept ⊢
    cases stepped : state.decoder.step byte with
    | mk result decoder =>
      rw [stepped] at kept
      cases result with
      | error error => cases kept
      | ok full =>
        obtain ⟨-, joined, -, same⟩ := ResponseDecoder.step_frame consumed.settled.ready stepped
        have longer : decoder.buffer.length = state.decoder.buffer.length + 1 := by rw [joined, List.length_append]; rfl
        cases full with
        | false =>
          cases (same.trans request).symm.trans kept
          exact ⟨opened, weighs, by dsimp only; omega⟩
        | true =>
          dsimp only at kept ⊢
          cases opens : reader.opened state.shared decoder.buffer now with
          | none =>
            rw [opens] at kept
            cases kept
          | some pair =>
            obtain ⟨output, after⟩ := pair
            rw [opens] at kept
            dsimp only at kept ⊢
            cases told : emit (state.emitted ++ [output]) with
            | error error =>
              rw [told] at kept
              cases kept
            | ok _ =>
              rw [told] at kept
              cases kept
              exact ⟨_, weighs.opened laws opens, by dsimp only [ResponseDecoder.clearBuffer, List.length_nil]; omega⟩

theorem Consumed.feedAll (consumed : Consumed state total) (laws : S.InPlace) (entries : List (S.Symbol × Nat)) :
    Consumed (entries.foldl (Decoding.feed emit) state) (total + entries.length) := by
  induction entries generalizing state total with
  | nil => exact consumed
  | cons entry entries ih =>
    have next : Consumed (state.feed emit entry) (total + 1) := consumed.feed laws entry.1
    have all := ih next
    rwa [Nat.add_assoc, Nat.add_comm 1] at all

/-- One push, after whatever others did to the state that they share. -/
inductive Pushed : Decoding S → S.Bytes → Decoding S → Prop where
  | push (emit : Callback S) (state : Decoding S) (shared : Shared S) (input : S.Bytes) (now : Nat) :
      Pushed state input (Decoding.push emit { state with shared } input now).2

theorem Consumed.share (consumed : Consumed state total) (shared : Shared S) : Consumed { state with shared } total := by
  refine ⟨⟨consumed.settled.ready, fun closed => ?_⟩, consumed.weighs⟩
  have decoder := congrArg Decoding.decoder (consumed.settled.closed closed)
  have request : state.decoder.request = none := closed
  simp only [close, request] at decoder ⊢
  rw [decoder]
  rfl

theorem Consumed.pushed {input : S.Bytes} {after} (consumed : Consumed state total) (laws : S.InPlace)
    (move : Pushed state input after) : Consumed after (total + input.length) := by
  cases move with
  | push emit _ shared _ now =>
    have same := consumed.share shared
    rw [push_eq same.settled]
    have fed : Consumed ((input.map (·, now)).foldl (Decoding.feed emit) { state with shared }) _ := same.feedAll laws _
    rwa [List.length_map] at fed

theorem finish_bounded (laws : S.InPlace) {number : Nat} {sessionId : S.Bytes} {shared : Shared S} {inputs last}
    (run : Trace Pushed ⟨.fromReader ⟨some number, sessionId, none, false⟩, shared, []⟩ inputs last)
    (finished : last.finish.1 = .ok ()) : inputs.flatten.length ≤ maxResponseWireBytes := by
  have start : Consumed (⟨.fromReader ⟨some number, sessionId, none, false⟩, shared, []⟩ : Decoding S) 0 := by
    refine ⟨⟨(by decide : 0 < 4), nofun⟩, fun reader request => ⟨0, ?_, rfl⟩⟩
    cases request
    exact rfl
  have consumed : Consumed last inputs.flatten.length := by
    apply run.invariant fun inputs state => Consumed state inputs.flatten.length
    · exact start
    · intro inputs before input after consumed move
      have next := consumed.pushed laws move
      rwa [List.flatten_append, List.length_append, List.flatten_singleton]
  obtain ⟨reader, request, empty, -, records, present, -⟩ := (finish_ok last).mp finished
  obtain ⟨opened, weighs, sum⟩ := consumed.weighs reader request
  rw [empty, List.length_nil, Nat.add_zero] at sum
  rw [ResponseReader.Weighs, present] at weighs
  rw [sum]
  exact weighs.2.response_le weighs.1

end Decoding

theorem RequestEncoder.prefixBytes_length {sender : RequestEncoder S} (wide : sender.sessionId.length = 32) :
    sender.prefixBytes.length = requestPrefixBytes := by
  have header : (requestHeader S).length = 6 := S.text_length _
  rw [prefixBytes, List.length_append, List.length_append, header, wide, toBe_length]
  rfl

theorem ServerSession.accepted_bounded (laws : S.InPlace) {session : ServerSession S} {number now : Nat} {encoded : S.Bytes}
    {entropy : Entropy S} {admitted : Admitted S} {frames : List S.Bytes} {contents : List (Kind × S.Bytes)} {final : Records S}
    (accepted : (session.acceptStart number encoded now entropy).1 = .ok admitted)
    (opened : admitted.reader.openAll frames = (contents.map .ok, final)) :
    requestPrefixBytes + (encoded ++ frames.flatten).length ≤ maxRequestWireBytes := by
  have accepts := session.acceptStart_accepts number encoded now entropy
  rw [accepted] at accepts
  generalize (session.acceptStart number encoded now entropy).2 = server at accepts
  cases accepts with
  | @admission _ peer header offer incoming kind metadata response active current screened framed budget offered authentic =>
    simp only [authenticate, bind_ok, pure_ok] at authentic
    obtain ⟨_, authentic, _, -, rfl⟩ := authentic
    have opening := Records.authenticateStart_ok.mp authentic
    have weighed := (Records.Weighed.fresh _ _ _).opening laws opening
    have request := Records.opening_direction opening
    have fresh : (Records.fromKeys (Keys.new offer.key session.id number .request) .request none).Counted := ⟨rfl, rfl⟩
    have counted : incoming.Counted := fresh.opening rfl opening
    obtain ⟨direction, counted, weighed⟩ := Records.openAll_weighed laws weighed request counted opened
    rw [Nat.zero_add, ← List.length_flatten, ← List.length_append] at weighed
    exact weighed.request_le direction counted

/-- A response stream that a decoder finishes, in whatever pushes and whatever
others do to the session meanwhile, and a request stream that a server accepts
are as long as the limits of the wire at most. -/
theorem wire_bounded (laws : S.InPlace) :
    (∀ number (sessionId : S.Bytes) (shared : Shared S) (inputs : List S.Bytes) (last : Decoding S),
      Trace Decoding.Pushed ⟨.fromReader ⟨some number, sessionId, none, false⟩, shared, []⟩ inputs last →
      last.finish.1 = .ok () → inputs.flatten.length ≤ maxResponseWireBytes) ∧
    ∀ (sender : RequestEncoder S) (session : ServerSession S) number encoded now entropy admitted frames
        (contents : List (Kind × S.Bytes)) final,
      sender.sessionId.length = 32 → (session.acceptStart number encoded now entropy).1 = .ok admitted →
      admitted.reader.openAll frames = (contents.map .ok, final) →
      (sender.prefixBytes ++ encoded ++ frames.flatten).length ≤ maxRequestWireBytes := by
  refine ⟨fun number sessionId shared inputs last run finished => Decoding.finish_bounded laws run finished, ?_⟩
  intro sender session number encoded now entropy admitted frames contents final wide accepted opened
  have bounded := session.accepted_bounded laws accepted opened
  rwa [← RequestEncoder.prefixBytes_length wide, ← List.length_append, ← List.append_assoc] at bounded

private theorem plain_value (octet : Nat) (_ : octet < 256) : id (id octet) = octet := rfl

def plain : Suite where
  Symbol := Nat
  u8 := id
  value := id
  value_u8 := plain_value
  Secret := Unit
  expand _ _ _ := ()
  expandRoot _ _ _ _ := ()
  expandRecord _ _ _ := ()
  DhPublic := Unit
  clamp := id
  secretToPublic := id
  ecdh _ _ := some ()
  KemPublic := Unit
  KemPrivate := Unit
  Ciphertext := Unit
  generateKeyPair _ _ := ((), ())
  validatePublicKey _ := true
  encapsulate _ _ := ((), ())
  decapsulate _ _ := ()
  encodeKeys _ := List.replicate publicKeyBytes 0
  decodeKeys _ := ((), ())
  encodeKeys_length _ := List.length_replicate
  decodeKeys_encodeKeys _ := rfl
  encodeCiphertext _ := List.replicate ciphertextBytes 0
  decodeCiphertext _ := ()
  encodeCiphertext_length _ := List.length_replicate
  decodeCiphertext_encodeCiphertext _ := rfl
  Digest := Unit
  digestEq := inferInstance
  sha256 _ := ()
  encrypt _ _ _ plaintext := some (plaintext ++ List.replicate 16 0)
  decrypt _ _ _ bytes := if 16 ≤ bytes.length then some (bytes.take (bytes.length - 16)) else none

instance : DecidableEq plain.Symbol := inferInstanceAs (DecidableEq Nat)

private theorem plain_inPlace : plain.InPlace := by
  intro key nonce aad bytes plaintext decrypted
  have opened : (if 16 ≤ bytes.length then some (bytes.take (bytes.length - 16)) else none) = some plaintext := decrypted
  obtain ⟨long, taken⟩ := Option.ite_none_right_eq_some.mp opened
  cases taken
  rw [List.length_take]
  omega

def plainRecord (front : List Nat) (kind : Kind) (content : List Nat) : plain.Bytes :=
  let length : List Nat := plain.be 4 (recordOverhead + front.length + content.length)
  length ++ front ++ kind.code :: content ++ List.replicate 16 0

def plainHeader : List Nat :=
  let width : List Nat := plain.be 2 headerBytes
  width ++ List.replicate headerBytes 0

def plainId : List Nat := List.replicate 32 0

def plainServer : ServerSession plain := ServerSession.new () plainId (KeyPair.fromSeed (S := plain) ())

def plainShared : Option (Shared plain) :=
  match ClientSession.new (S := plain) () plainId 30 (KeyPair.fromSeed (S := plain) ()).publicKeys with
  | .error _ => none
  | .ok (session, shared) =>
    match session.requestWith shared ⟨.ok (), .ok ()⟩ with
    | (.error _, _) => none
    | (.ok _, shared) => some shared

def plainDecoding (shared : Shared plain) : Decoding plain := ⟨.fromReader ⟨some 0, plainId, none, false⟩, shared, []⟩

def plainPush (state : Decoding plain) (input : plain.Bytes) : Decoding plain := (state.push (fun _ => .ok ()) input 0).2

private theorem plain_pushed (state : Decoding plain) (input : plain.Bytes) : Decoding.Pushed state input (plainPush state input) :=
  .push _ state state.shared input 0

/-- A response in two pushes, and a request of three records. -/
theorem wire_bounded_sample :
    (∃ shared last, Trace Decoding.Pushed (plainDecoding shared)
        [plainRecord plainHeader .metadata [7], plainRecord [] .finished []] last ∧ last.finish.1 = .ok () ∧
      [plainRecord plainHeader .metadata [7], plainRecord [] .finished []].flatten.length ≤ maxResponseWireBytes) ∧
    ∃ admitted, (plainServer.acceptStart 0 (plainRecord plainHeader .metadata [7]) 0 ⟨.ok (), .ok ()⟩).1 = .ok admitted ∧
      (RequestEncoder.prefixBytes ⟨plainId, 0, admitted.writer⟩ ++ plainRecord plainHeader .metadata [7] ++
        [plainRecord [] .data [1, 2], plainRecord [] .finished []].flatten).length ≤ maxRequestWireBytes := by
  obtain ⟨response, request⟩ := wire_bounded plain_inPlace
  constructor
  · have evaluated : (plainShared.map fun shared => (plainPush (plainPush (plainDecoding shared)
        (plainRecord plainHeader .metadata [7])) (plainRecord [] .finished [])).finish.1) = some (.ok ()) := by decide +kernel
    obtain ⟨shared, -, finished⟩ := Option.map_eq_some_iff.mp evaluated
    have run := (Trace.single (plain_pushed (plainDecoding shared) (plainRecord plainHeader .metadata [7]))).snoc
      (plain_pushed _ (plainRecord [] .finished []))
    exact ⟨shared, _, run, finished, response 0 plainId shared _ _ run finished⟩
  · let contents : List (Kind × plain.Bytes) := [(.data, ([1, 2] : List Nat)), (.finished, [])]
    have evaluated : ((plainServer.acceptStart 0 (plainRecord plainHeader .metadata [7]) 0 ⟨.ok (), .ok ()⟩).1.toOption.map
        fun admitted => (admitted.reader.openAll [plainRecord [] .data [1, 2], plainRecord [] .finished []]).1) =
          some (contents.map .ok) := by decide +kernel
    obtain ⟨admitted, accepted, opened⟩ := Option.map_eq_some_iff.mp evaluated
    have accepted := toOption_some.mp accepted
    exact ⟨admitted, accepted, request _ _ _ _ _ _ _ _ contents _ rfl accepted (Prod.ext opened rfl)⟩

end StogasVerifier.Channel
