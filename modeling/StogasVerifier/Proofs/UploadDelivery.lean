import StogasVerifier.Channel.Upload
import StogasVerifier.Proofs.HeaderNonces
import StogasVerifier.Proofs.RecordPair
import StogasVerifier.Proofs.StartAcceptance

/-! Every accepted request can be uploaded to its end, and a server that accepts
the start of the upload reads the request from it. -/

namespace StogasVerifier.Channel
open Lib Grammar Records

variable {S : Suite}

namespace Upload

theorem word_short {phase : Phase} {word} (reaches : Reaches .request phase word)
    (live : phase = .body ∨ phase = .tail) (room : bodySize word ≤ maxRequestBody) : word.length + 1 < maxRecords := by
  rcases live with rfl | rfl
  · obtain ⟨metadata, count, -, rfl⟩ := reaches
    have size : bodySize ((.metadata, metadata) :: List.replicate count (.data, maxRecordPlaintext)) =
        count * maxRecordPlaintext := by simp [bodySize]
    rw [size] at room
    simp only [List.length_cons, List.length_replicate, maxRequestBody, maxRecordPlaintext, maxRecordBytes, recordOverhead,
      maxRecords] at *
    omega
  · obtain ⟨metadata, count, last, -, -, -, rfl⟩ := reaches
    have size : bodySize ((.metadata, metadata) :: List.replicate count (.data, maxRecordPlaintext) ++ [(.data, last)]) =
        count * maxRecordPlaintext + last := by simp [bodySize]
    rw [size] at room
    simp only [List.length_append, List.length_cons, List.length_replicate, List.length_nil, maxRequestBody, maxRecordPlaintext,
      maxRecordBytes, recordOverhead, maxRecords] at *
    omega

section Sealing

variable {keys : Keys S} {records : Records S} {word : List Letter} {kind : Kind} {content : S.Bytes} {next : Phase}

theorem seals (laws : S.Sealing) (standing : Standing keys records word) (later : word ≠ [])
    (moves : Moves records.direction records.phase (kind, content.length) next) (below : word.length < maxRecords)
    (fits : content.length ≤ maxRecordPlaintext)
    (room : kind = .data → bodySize word + content.length ≤ maxBody records.direction) :
    ∃ bytes after, records.sealRecord kind content = (.ok bytes, after) ∧ after.direction = records.direction ∧
      after.phase = next ∧ Standing keys after (word ++ [letter (kind, content)]) := by
  have long : word.length ≠ 0 := fun none => later (List.length_eq_zero_iff.mp none)
  have size : encodedSize word.length content.length ≤ maxRecordBytes := by
    simp only [encodedSize, if_neg long, maxRecordPlaintext, maxRecordBytes, recordOverhead] at fits ⊢
    omega
  have checked : records.check kind content.length = .ok () :=
    check_of_moves moves (by rw [standing.sequence]; exact below) fits (by rw [standing.body]; exact room)
  have allowed := (standing.check_iff size).mp checked
  obtain ⟨bytes, after, done⟩ := standing.sealRecord_succeeds laws
    (fun first => absurd (standing.sequence.symm.trans first) long) allowed
  obtain ⟨-, kept, stands⟩ := standing.sealRecord_ok done
  refine ⟨bytes, after, done, kept, ?_, stands⟩
  have reaches := stands.reaches
  rw [kept] at reaches
  exact reaches.unique (standing.reaches.move moves)

end Sealing

/-- An upload that has sent its metadata and some of its body. -/
structure Streaming (keys : Keys S) (upload : Upload S) (word : List Letter) : Prop where
  standing : Standing keys upload.encoder.records word
  direction : upload.encoder.records.direction = .request
  phase : upload.encoder.records.phase = .body ∨ (upload.encoder.records.phase = .tail ∧ upload.body = [])
  room : bodySize word + upload.body.length ≤ maxRequestBody
  initial : upload.initial = []
  finished : upload.finished = false
  cancelled : upload.cancelled = false

variable {keys : Keys S} {upload : Upload S} {word : List Letter}

theorem Streaming.started (streaming : Streaming keys upload word) : word ≠ [] := by
  intro none
  have reaches := streaming.standing.reaches
  rw [none] at reaches
  have phase := reaches_nil reaches
  rcases streaming.phase with body | ⟨tail, -⟩
  · rw [phase] at body
    cases body
  · rw [phase] at tail
    cases tail

theorem Streaming.below (streaming : Streaming keys upload word) : word.length + 1 < maxRecords := by
  have reaches := streaming.standing.reaches
  have room := streaming.room
  rw [streaming.direction] at reaches
  exact word_short reaches (streaming.phase.imp_right And.left) (by omega)

theorem next_piece {now : Nat} (streaming : Streaming keys upload word) (early : now < upload.deadline) (filled : upload.body ≠ []) :
    upload.next now = { upload with body := upload.body.drop (min upload.body.length maxRecordPlaintext) }.sealNext .data
      (upload.body.take (min upload.body.length maxRecordPlaintext)) := by
  have live := streaming.cancelled
  have sent := streaming.initial
  obtain ⟨_, _, _, _, _, _⟩ := upload
  dsimp only at live sent early filled
  subst live sent
  simp [next, Nat.not_le.mpr early, filled]

theorem next_finish {now : Nat} (streaming : Streaming keys upload word) (early : now < upload.deadline) (empty : upload.body = []) :
    upload.next now = { upload with finished := true }.sealNext .finished [] := by
  have live := streaming.cancelled
  have sent := streaming.initial
  have more := streaming.finished
  obtain ⟨_, _, _, _, _, _⟩ := upload
  dsimp only at live sent more early empty
  subst live sent more empty
  simp [next, Nat.not_le.mpr early]

theorem next_none {now : Nat} {records} (streaming : Streaming keys upload word) (early : now < upload.deadline)
    (empty : upload.body = []) :
    ({ upload with finished := true, encoder := { upload.encoder with records } } : Upload S).next now =
      (.ok none, { upload with finished := true, encoder := { upload.encoder with records } }) := by
  simp [next, streaming.cancelled, streaming.initial, Nat.not_le.mpr early, empty]

theorem sealNext_ok (upload : Upload S) {kind : Kind} {content bytes : S.Bytes} {after}
    (done : upload.encoder.records.sealRecord kind content = (.ok bytes, after)) :
    upload.sealNext kind content = (.ok (some bytes), { upload with encoder := { upload.encoder with records := after } }) := by
  simp only [sealNext, RequestEncoder.sealRecord, done]

theorem Streaming.finish (laws : S.Sealing) (streaming : Streaming keys upload word) (empty : upload.body = [])
    (clock : Nat → Nat) (early : ∀ step, clock step < upload.deadline) :
    ∃ bytes after, upload.drain clock 2 = some (.ok [bytes]) ∧
      upload.encoder.records.sealRecord .finished [] = (.ok bytes, after) := by
  have moves : Moves upload.encoder.records.direction upload.encoder.records.phase
      (.finished, ([] : S.Bytes).length) .finished := by
    rcases streaming.phase with body | ⟨tail, -⟩
    · rw [body]
      exact .finish
    · rw [tail]
      exact .finishTail
  obtain ⟨bytes, after, done, -⟩ := seals laws streaming.standing streaming.started moves
    (Nat.lt_of_succ_lt streaming.below) (Nat.zero_le _) nofun
  have last := next_finish streaming (early 1) empty
  rw [sealNext_ok { upload with finished := true } done] at last
  refine ⟨bytes, after, ?_, done⟩
  simp only [drain, last, next_none streaming (early 0) empty]

theorem Streaming.piece (laws : S.Sealing) (streaming : Streaming keys upload word) (filled : upload.body ≠ []) :
    ∃ piece bytes after, piece ≠ [] ∧ upload.body = piece ++ after.body ∧
      (∀ now < upload.deadline, upload.next now = (.ok (some bytes), after)) ∧
      after.deadline = upload.deadline ∧
      upload.encoder.records.sealRecord .data piece = (.ok bytes, after.encoder.records) ∧
      Streaming keys after (word ++ [letter (.data, piece)]) := by
  have body : upload.encoder.records.phase = .body := by
    rcases streaming.phase with body | ⟨-, none⟩
    · exact body
    · exact absurd none filled
  have positive := List.length_pos_iff.mpr filled
  have wide : 0 < maxRecordPlaintext := by decide
  have size : (upload.body.take (min upload.body.length maxRecordPlaintext)).length = min upload.body.length maxRecordPlaintext := by
    rw [List.length_take]
    omega
  have room := streaming.room
  have step (now : Nat) (early : now < upload.deadline) := next_piece streaming early filled
  generalize shape : upload.body.take (min upload.body.length maxRecordPlaintext) = piece at size step
  obtain ⟨next, moves, settles⟩ : ∃ next, Moves upload.encoder.records.direction upload.encoder.records.phase (.data, piece.length) next ∧
      (next = .body ∨ (next = .tail ∧ upload.body.drop (min upload.body.length maxRecordPlaintext) = [])) := by
    rw [streaming.direction, body]
    by_cases short : piece.length < maxRecordPlaintext
    · refine ⟨.tail, .short (by omega) short, .inr ⟨rfl, List.drop_of_length_le ?_⟩⟩
      omega
    · have full : piece.length = maxRecordPlaintext := by omega
      rw [full]
      exact ⟨.body, .full, .inl rfl⟩
  obtain ⟨bytes, after, done, kept, phase, stands⟩ := seals laws streaming.standing streaming.started moves
    (Nat.lt_of_succ_lt streaming.below) (by omega) (by
      rw [streaming.direction]
      exact fun _ => Nat.le_trans (by omega) room)
  refine ⟨piece, bytes, { upload with
      body := upload.body.drop (min upload.body.length maxRecordPlaintext), encoder := { upload.encoder with records := after } },
    List.length_pos_iff.mp (by omega), ?_, ?_, rfl, done, stands, kept.trans streaming.direction, ?_, ?_, streaming.initial,
    streaming.finished, streaming.cancelled⟩
  · rw [← shape, List.take_append_drop]
  · intro now early
    rw [step now early]
    exact sealNext_ok { upload with body := upload.body.drop (min upload.body.length maxRecordPlaintext) } done
  · rw [phase]
    exact settles
  · rw [letter, bodySize_append, if_pos rfl, List.length_drop]
    simp only
    omega

theorem Streaming.drains (laws : S.Sealing) (clock : Nat → Nat) {deadline : Nat} (early : ∀ step, clock step < deadline)
    (streaming : Streaming keys upload word) (same : upload.deadline = deadline) :
    ∃ (count : Nat) (pieces outputs : List S.Bytes) (final : Records S), upload.drain clock count = some (.ok outputs) ∧
      pieces.flatten = upload.body ∧
      upload.encoder.records.sealAll (pieces.map (.data, ·) ++ [(.finished, [])]) = (outputs.map .ok, final) := by
  induction length : upload.body.length using Nat.strong_induction_on generalizing upload word with
  | _ size ih =>
    by_cases empty : upload.body = []
    · obtain ⟨bytes, after, drained, done⟩ := streaming.finish laws empty clock (by rw [same]; exact early)
      exact ⟨2, [], [bytes], after, drained, empty.symm, by simp [sealAll, done]⟩
    · obtain ⟨piece, bytes, after, some_, body, step, kept, done, next⟩ := streaming.piece laws empty
      have shorter : after.body.length < size := by
        have split := congrArg List.length body
        rw [List.length_append] at split
        have positive := List.length_pos_iff.mpr some_
        omega
      obtain ⟨count, pieces, outputs, final, drained, flat, sealed⟩ := ih _ shorter next (kept.trans same) rfl
      refine ⟨count + 1, piece :: pieces, bytes :: outputs, final, ?_, ?_, ?_⟩
      · simp only [drain, step _ (by rw [same]; exact early count), drained]
      · rw [List.flatten_cons, flat, body]
      · simp only [List.map_cons, List.cons_append, sealAll, done, sealed]

section Creation

theorem metadata_ok {request : HttpRequest S} {metadata : S.Bytes} (accepted : request.metadata = .ok metadata) :
    metadata ≠ [] ∧ metadata.length ≤ maxMetadataBytes ∧ request.body.length ≤ maxRequestBody := by
  unfold HttpRequest.metadata at accepted
  split at accepted
  · cases accepted
  next allowed =>
    split at accepted
    · cases accepted
    next headers collected =>
      dsimp only at accepted
      split at accepted
      · cases accepted
      next fits =>
        cases accepted
        refine ⟨List.length_pos_iff.mp ?_, Nat.not_lt.mp fits, Nat.not_lt.mp fun long => allowed (.inr (.inl long))⟩
        rw [Suite.text_length, HttpRequest.json]
        simp only [String.utf8ByteSize_append]
        have opened : "\x7b\"method\":".utf8ByteSize = 10 := by decide
        omega

theorem next_initial {now : Nat} {bytes : S.Bytes} {rest} (live : upload.cancelled = false)
    (early : now < upload.deadline) (initial : upload.initial = bytes :: rest) :
    upload.next now = (.ok (some bytes), { upload with initial := rest }) := by
  obtain ⟨_, _, _, _, _, _⟩ := upload
  dsimp only at live early initial
  subst live initial
  simp [next, Nat.not_le.mpr early]

theorem seals_metadata (laws : S.Sealing) {records} {metadata header : S.Bytes} (width : header.length = headerBytes)
    (writes : records = Records.fromKeys keys .request (some header)) (filled : metadata ≠ []) (short : metadata.length ≤ maxMetadataBytes) :
    ∃ first after, records.sealRecord .metadata metadata = (.ok first, after) ∧ after.direction = .request ∧ after.phase = .body ∧
      Standing keys after [letter (.metadata, metadata)] := by
  have stands : Standing keys records [] := by
    rw [writes]
    exact .fresh keys .request (some header)
  have direction : records.direction = .request := by rw [writes]; rfl
  have fits : encodedSize 0 metadata.length ≤ maxRecordBytes := by
    have wide : headerBytes ≤ 4096 := by decide
    simp only [encodedSize, if_true, recordOverhead, maxRecordBytes, maxMetadataBytes] at short ⊢
    omega
  obtain ⟨first, after, done⟩ := stands.sealRecord_succeeds laws (fun _ => ⟨header, by rw [writes]; rfl, width⟩) (by
    rw [direction]
    exact allowed_metadata .request (List.length_pos_iff.mpr filled) fits)
  obtain ⟨-, kept, standing⟩ := stands.sealRecord_ok done
  refine ⟨first, after, done, kept.trans direction, ?_, standing⟩
  have reaches := standing.reaches
  rw [kept, direction] at reaches
  exact reaches.unique ((reaches_start .request).move (.metadata (List.length_pos_iff.mpr filled)))

theorem creates (laws : S.Sealing) {request : HttpRequest S} {metadata header : S.Bytes} {exchange : ClientRequest S}
    {now deadline : Nat} (accepted : request.metadata = .ok metadata) (before : now < deadline)
    (width : header.length = headerBytes) (writes : exchange.writer.records = Records.fromKeys keys .request (some header)) :
    ∃ upload first, create request exchange now deadline = .ok upload ∧ upload.initial = [exchange.writer.prefixBytes, first] ∧
      upload.deadline = deadline ∧ upload.body = request.body ∧ upload.cancelled = false ∧
      exchange.writer.records.sealRecord .metadata metadata = (.ok first, upload.encoder.records) ∧
      Streaming keys { upload with initial := [] } [letter (.metadata, metadata)] := by
  obtain ⟨filled, short, room⟩ := metadata_ok accepted
  obtain ⟨first, after, done, direction, phase, standing⟩ := seals_metadata laws width writes filled short
  have sealed : exchange.writer.sealRecord .metadata metadata = (.ok first, { exchange.writer with records := after }) := by
    simp only [RequestEncoder.sealRecord, done]
  refine ⟨⟨{ exchange.writer with records := after }, request.body, [exchange.writer.prefixBytes, first], false, false, deadline⟩,
    first, ?_, rfl, rfl, rfl, rfl, done, standing, direction, .inl phase, ?_, rfl, rfl, rfl⟩
  · simp only [create, accepted, if_neg (Nat.not_le.mpr before), sealed]
  · exact (Nat.zero_add _).trans_le room

end Creation

section Server

variable {origin : Origin S} {header : S.Bytes} {first : S.Bytes} {rest : List S.Bytes}
  {content : Kind × S.Bytes} {contents : List (Kind × S.Bytes)} {final : Records S}

theorem same_origin (laws : S.Sealing) (committing : S.Committing) (free : S.RecordFree) {other : Origin S}
    {plaintext : S.Bytes} {output after} (authentic : Authentic origin.keys 0 plaintext first)
    (opened : (fromKeys other.keys other.direction none).opening first = .ok (output, after)) : other = origin := by
  simp only [opening, bind_ok] at opened
  obtain ⟨offset, framed, ⟨key, nonceBytes, next⟩, found, text, read, -⟩ := opened
  cases found
  obtain ⟨place, sealedBytes, width, encrypted, rfl⟩ := authentic
  have sized := laws.length _ _ _ _ _ encrypted
  obtain ⟨-, -, -, -, rfl⟩ : (_ ∧ _) ∧ _ ∧ _ ∧ _ ∧ offset = _ := (checkEncoded_front width sized).mp framed
  obtain ⟨-, read⟩ := decryptNow_ok.mp read
  have whole : (fromKeys other.keys other.direction none).sequence = 0 := rfl
  rw [whole, List.take_left' rfl, List.drop_left' rfl] at read
  obtain ⟨same, -⟩ := committing _ _ _ _ _ encrypted _ _ _ _ read
  exact (Origin.key_injective free (by decide : 0 < 2 ^ 64) (by decide : 0 < 2 ^ 64) same).1

theorem server_reads (laws : S.Sealing) (committing : S.Committing) (free : S.RecordFree)
    (sealed : (origin.sender header).sealAll (content :: contents) = ((first :: rest).map .ok, final)) {server after : ServerSession S}
    {now : Nat} {entropy : Entropy S} {admitted : Admitted S}
    (done : server.acceptStart origin.number first now entropy = (.ok admitted, after)) :
    admitted.metadata = content.2 ∧ ∃ receiver, admitted.reader.openAll rest = (contents.map .ok, receiver) ∧
      Standing origin.keys receiver ((content :: contents).map letter) ∧ receiver.direction = origin.direction := by
  have accepts := server.acceptStart_accepts origin.number first now entropy
  rw [done] at accepts
  cases accepts with
  | @admission _ _ _ offer incoming kind metadata response active current screened framed budget offered authentic answered settled =>
    simp only [ServerSession.authenticate, bind_ok, pure_ok] at authentic
    obtain ⟨_, opened, _, -, rfl⟩ := authentic
    have opened := authenticateStart_ok.mp opened
    obtain ⟨-, authentics, -⟩ := (Standing.sender origin header).sealAll_ok sealed
    have same : (⟨offer.key, server.id, origin.number, .request, origin.bounded⟩ : Origin S) = origin :=
      same_origin laws committing free (authentics 0 (plain content, first) rfl) opened
    have keys : Keys.new offer.key server.id origin.number .request = origin.keys := congrArg Origin.keys same
    have direction : Direction.request = origin.direction := congrArg Origin.direction same
    rw [keys, direction] at opened
    obtain ⟨receiver, all, -, stands, -, kept, -⟩ := sealAll_opens laws none sealed
    have all : (fromKeys origin.keys origin.direction none).openAll (first :: rest) = _ := all
    rw [openAll, openRecord, opened] at all
    obtain ⟨outputs, last⟩ := Prod.mk.inj all
    obtain ⟨output, others⟩ := List.cons.inj outputs
    cases output
    exact ⟨rfl, receiver, Prod.ext others last, stands, kept⟩

end Server

theorem split_frames {frames : List S.Bytes} (framed : ∀ frame ∈ frames, recordSize (frame.take 4) = .ok frame.length) {count : Nat}
    (enough : frames.flatten.length ≤ count) : splitRecords count frames.flatten = .ok frames := by
  induction frames generalizing count with
  | nil => cases count <;> rfl
  | cons frame frames ih =>
    have size := framed frame List.mem_cons_self
    obtain ⟨-, -, low, -⟩ := recordSize_ok.mp size
    rw [recordOverhead] at low
    rw [List.flatten_cons, List.length_append] at enough
    cases count with
    | zero => omega
    | succ count =>
      have filled : frame ++ frames.flatten ≠ [] := List.append_ne_nil_of_left_ne_nil (List.length_pos_iff.mp (by omega)) _
      have first : (frame ++ frames.flatten).take 4 = frame.take 4 := List.take_append_of_le_length (by omega)
      have rest := ih (fun frame member => framed frame (List.mem_cons_of_mem _ member)) (by omega : frames.flatten.length ≤ count)
      simp only [List.flatten_cons, splitRecords, if_neg filled, first, size, List.drop_left' rfl, List.take_left' rfl, rest]

theorem openAll_framed {records : Records S} {encoded : List S.Bytes} {outputs : List (Kind × S.Bytes)}
    (opened : (records.openAll encoded).1 = outputs.map .ok) :
    ∀ frame ∈ encoded, recordSize (frame.take 4) = .ok frame.length := by
  induction encoded generalizing records outputs with
  | nil => nofun
  | cons bytes rest ih =>
    cases outputs with
    | nil => cases opened
    | cons output outputs =>
      obtain ⟨first, others⟩ := List.cons.inj opened
      intro frame member
      rcases List.mem_cons.mp member with rfl | later
      · exact (opening_accepts (openRecord_ok.mp (Prod.ext first rfl))).1
      · exact ih others frame later

theorem prefix_splits (rest : S.Bytes) {encoder : RequestEncoder S} {id : S.Bytes} {records : Records S} {number : Nat}
    (writes : encoder = ⟨id, number, records⟩) (bounded : number < 2 ^ 64) (wide : id.length = 32) :
    (encoder.prefixBytes ++ rest).take 6 = requestHeader S ∧ ((encoder.prefixBytes ++ rest).drop 6).take 32 = id ∧
      S.number (((encoder.prefixBytes ++ rest).drop 38).take 8) = encoder.number ∧ (encoder.prefixBytes ++ rest).drop 46 = rest := by
  have six : (requestHeader S).length = 6 := S.text_length _
  have shape : encoder.prefixBytes ++ rest = requestHeader S ++ (id ++ (S.be 8 number ++ rest)) := by
    simp only [writes, RequestEncoder.prefixBytes, List.append_assoc]
  have afterHeader : (encoder.prefixBytes ++ rest).drop 6 = id ++ (S.be 8 number ++ rest) := by
    rw [shape, List.drop_left' six]
  have afterId : (encoder.prefixBytes ++ rest).drop 38 = S.be 8 number ++ rest := by
    rw [show 38 = 6 + 32 from rfl, ← List.drop_drop, afterHeader, List.drop_left' wide]
  refine ⟨?_, ?_, ?_, ?_⟩
  · rw [shape, List.take_left' six]
  · rw [afterHeader, List.take_left' wide]
  · rw [afterId, List.take_left' (toBe_length _ _ _), writes]
    exact ofBe_toBe _ _ _ bounded
  · rw [show 46 = 38 + 8 from rfl, ← List.drop_drop, afterId, List.drop_left' (toBe_length _ _ _)]

theorem finished_phase {records word} (standing : Standing keys records (word ++ [(.finished, 0)])) :
    records.phase = .finished := by
  obtain ⟨before, -, moves⟩ := standing.reaches.last
  generalize records.phase = phase at moves ⊢
  generalize records.direction = direction at moves
  cases moves with
  | streamed streamed =>
    rcases streamed with ⟨_, -, same⟩ | same
    · cases same
    · cases same
  | finish => rfl
  | finishTail => rfl

theorem drain_initial {upload : Upload S} {clock : Nat → Nat} {front first : S.Bytes} {count : Nat} {outputs}
    (live : upload.cancelled = false) (early : ∀ step, clock step < upload.deadline) (initial : upload.initial = [front, first])
    (drained : ({ upload with initial := [] } : Upload S).drain clock count = some (.ok outputs)) :
    upload.drain clock (count + 2) = some (.ok (front :: first :: outputs)) := by
  have one := next_initial live (early (count + 1)) initial
  have two : ({ upload with initial := [first] } : Upload S).next (clock count) = _ := next_initial live (early count) rfl
  simp only [drain, one, two, drained]

/-- Every accepted request is uploaded without a failure, and a server that
accepts the start of the upload obtains the metadata and the body. -/
theorem upload_delivers (laws : S.Sealing) (committing : S.Committing) (free : S.RecordFree) {initial client : Client S}
    {log : List (List (HeaderSeal S))} (created : initial.Initial) (run : Trace Client.Step initial log client)
    (wide : client.session.id.length = 32) {entropy : Entropy S} {exchange : ClientRequest S} {shared : Shared S}
    (allocated : client.session.requestWith client.shared entropy = (.ok exchange, shared)) {request : HttpRequest S}
    {metadata : S.Bytes} (accepted : request.metadata = .ok metadata) {now deadline : Nat} (before : now < deadline)
    {clock : Nat → Nat} (early : ∀ step, clock step < deadline) :
    ∃ upload count outputs, create request exchange now deadline = .ok upload ∧ upload.drain clock count = some (.ok outputs) ∧
      outputs.flatten.take 6 = requestHeader S ∧ (outputs.flatten.drop 6).take 32 = client.session.id ∧
      S.number ((outputs.flatten.drop 38).take 8) = exchange.writer.number ∧
      ∃ start rest, splitRecords outputs.flatten.length (outputs.flatten.drop 46) = .ok (start :: rest) ∧
        (exchange.writer.records.sealRecord .metadata metadata).1 = .ok start ∧
        ∀ (server after : ServerSession S) (time : Nat) (random : Entropy S) (admitted : Admitted S),
          server.acceptStart exchange.writer.number start time random = (.ok admitted, after) →
          admitted.metadata = metadata ∧ ∃ (pieces : List S.Bytes) (final : Records S), pieces.flatten = request.body ∧
            admitted.reader.openAll rest = (((pieces.map fun piece => (Kind.data, piece)) ++ [(Kind.finished, [])]).map .ok, final) ∧
            final.complete = (.ok (), final) := by
  have sealedRun : Client.Sealed log.flatten client := by
    refine Trace.invariant (fun log client => Client.Sealed log.flatten client) (.initial created) ?_ run
    intro log before added after fresh move
    simpa using fresh.step move
  obtain ⟨-, number, starts, key, active, given, sent, -, same⟩ := ClientSession.requestWith_ok allocated
  obtain ⟨-, -, -, rfl, -⟩ := Starts.allocate_ok.mp given
  obtain ⟨turn, sending, header, _, _, _, sealedHeader, rfl, _⟩ := Active.sendWith_ok.mp sent
  let origin : Origin S := ⟨messageKey sending.chain.secret 0, client.session.id, client.shared.starts.next, .request,
    Nat.lt_of_le_of_lt sealedRun.word (by decide)⟩
  have writes : exchange.writer = ⟨client.session.id, origin.number, origin.sender header⟩ := by rw [same]; rfl
  obtain ⟨upload, first, made, begins, due, body, live, opened, streaming⟩ := creates laws accepted before
    (HeaderCipher.sealHeader_length laws sealedHeader)
    (by rw [writes]; rfl : exchange.writer.records = fromKeys origin.keys .request (some _))
  obtain ⟨count, pieces, outputs, final, drained, flat, sealed⟩ := streaming.drains laws clock early due
  have drained := drain_initial live (by rw [due]; exact early) begins drained
  have whole : (origin.sender header).sealAll ((.metadata, metadata) :: (pieces.map (Kind.data, ·) ++ [(.finished, [])])) =
      ((first :: outputs).map .ok, final) := by
    rw [writes] at opened
    simp only [sealAll, opened, sealed, List.map_cons]
  obtain ⟨_, opens, -⟩ := sealAll_opens laws none whole
  have split := split_frames (openAll_framed (congrArg Prod.fst opens))
    (by simp : _ ≤ (exchange.writer.prefixBytes :: first :: outputs).flatten.length)
  obtain ⟨header, id, word, tail⟩ := prefix_splits (first :: outputs).flatten writes origin.bounded wide
  refine ⟨upload, _, _, made, drained, header, id, word, first, outputs, ?_, congrArg Prod.fst opened, ?_⟩
  · rw [List.flatten_cons, tail]
    exact split
  · intro server after time random admitted done
    rw [writes] at done
    obtain ⟨told, receiver, read, stands, -⟩ := server_reads laws committing free whole done
    refine ⟨told, pieces, receiver, flat.trans body, read, ?_⟩
    rw [List.map_cons, List.map_append, ← List.cons_append] at stands
    rw [complete, if_pos (finished_phase stands)]

def sampleRequest : HttpRequest symbolic := ⟨"POST", "/v1/responses", none, [("accept", some "*/*")], ([5, 6, 7] : List Nat)⟩

theorem sampleRequest_metadata : ∃ metadata, sampleRequest.metadata = .ok metadata := by
  have headers : HttpRequest.collectHeaders sampleRequest.headers [] = .ok [("accept", "*/*")] := by
    simp [sampleRequest, HttpRequest.collectHeaders, HttpRequest.hopHeaders]
  have short : ¬ maxMetadataBytes < (symbolic.text (sampleRequest.json [("accept", "*/*")])).length := by
    rw [Suite.text_length]
    decide +kernel
  refine ⟨symbolic.text (sampleRequest.json [("accept", "*/*")]), ?_⟩
  unfold HttpRequest.metadata
  rw [if_neg (by decide), headers]
  exact if_neg short

def deliveryLink : Link symbolic :=
  { Link.sampleLink with
    client := { Link.sampleLink.client with session := ⟨true, List.replicate 32 (0 : Nat), 0⟩ }
    server := .new (.atom 0) (List.replicate 32 (0 : Nat)) (KeyPair.fromSeed (S := symbolic) (.atom 1)) }

theorem upload_delivers_sample : ∃ (exchange : ClientRequest symbolic) (shared : Shared symbolic) (outputs : List symbolic.Bytes)
      (metadata start : symbolic.Bytes) (rest : List symbolic.Bytes),
    deliveryLink.client.session.requestWith deliveryLink.client.shared ⟨.ok (.atom 2), .ok (.atom 3)⟩ = (.ok exchange, shared) ∧
    sampleRequest.metadata = .ok metadata ∧ splitRecords outputs.flatten.length (outputs.flatten.drop 46) = .ok (start :: rest) ∧
    ∃ (admitted : Admitted symbolic) (server : ServerSession symbolic) (pieces : List symbolic.Bytes) (final : Records symbolic),
      (deliveryLink.requested exchange shared).server.acceptStart exchange.writer.number start 5
        ⟨.ok (.atom 4), .ok (.atom 5)⟩ = (.ok admitted, server) ∧ admitted.metadata = metadata ∧
      pieces.flatten = ([5, 6, 7] : List Nat) ∧
      admitted.reader.openAll rest = (((pieces.map fun piece => (Kind.data, piece)) ++ [(Kind.finished, [])]).map .ok, final) := by
  obtain ⟨exchange, shared, done⟩ : ∃ exchange shared, deliveryLink.client.session.requestWith deliveryLink.client.shared
      ⟨.ok (.atom 2), .ok (.atom 3)⟩ = (.ok exchange, shared) := ⟨_, _, rfl⟩
  obtain ⟨metadata, accepted⟩ := sampleRequest_metadata
  have created : deliveryLink.client.Initial :=
    ⟨.atom 0, _, 0, (KeyPair.fromSeed (S := symbolic) (.atom 1)).publicKeys, rfl, rfl, rfl⟩
  obtain ⟨upload, count, outputs, -, -, -, -, -, start, rest, split, sealed, delivers⟩ :=
    upload_delivers Symbolic.sealing Symbolic.committing Symbolic.recordFree created .nil (by rfl) done accepted
      (Nat.one_pos : 0 < 1) (fun step => (Nat.one_pos : (fun _ => 0) step < 1))
  have initial : Link.Initial (S := symbolic) (.atom 0) (.atom 1) deliveryLink := ⟨⟨0, rfl⟩, rfl, rfl, rfl, rfl, rfl, rfl, rfl⟩
  have run := Trace.single (Link.Step.request done)
  have member : ⟨exchange.writer.number, exchange.writer.records⟩ ∈ (deliveryLink.requested exchange shared).sent .initiator :=
    List.mem_cons_self
  have starts : Stream.Starts ⟨exchange.writer.number, exchange.writer.records⟩ .metadata metadata start :=
    ⟨_, sealRecord_iff.mp (Prod.ext sealed rfl)⟩
  obtain ⟨offer, reader, response, active, -, -, admits⟩ := (Link.Sound.run Symbolic.ideal initial run).admits Symbolic.ideal
    Symbolic.validates Symbolic.contributory member starts List.mem_cons_self nofun rfl
    (show 0 < maxSessionStarts by decide) 5 ⟨.ok (.atom 4), .ok (.atom 5)⟩ rfl rfl nofun
  obtain ⟨told, pieces, final, flat, read, -⟩ := delivers _ _ _ _ _ admits
  exact ⟨exchange, shared, outputs, metadata, start, rest, done, accepted, split, _, _, pieces, final, admits, told, flat, read⟩

end Upload
end StogasVerifier.Channel
