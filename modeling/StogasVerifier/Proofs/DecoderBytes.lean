import StogasVerifier.Channel.Decoder

/-! A decoder reads chunk by chunk; it could as well read byte by byte. -/

namespace StogasVerifier.Channel

variable {S : Suite}

namespace ResponseDecoder

variable {decoder : ResponseDecoder S}

def Ready (decoder : ResponseDecoder S) : Prop := decoder.buffer.length < decoder.needed

def step (decoder : ResponseDecoder S) (byte : S.Symbol) : Except Error Bool × ResponseDecoder S :=
  if decoder.finished then (.error .record, decoder)
  else
    let decoder := (decoder.extend [byte]).1
    if decoder.buffer.length ≠ decoder.needed then (.ok false, decoder)
    else if start : decoder.needed = 4 then
      match decoder.announce start with
      | .error error => (.error error, decoder)
      | .ok decoder => (.ok false, decoder)
    else (.ok true, decoder)

def fillBytes (decoder : ResponseDecoder S) : S.Bytes → Except Error (Bool × S.Bytes) × ResponseDecoder S
  | [] => (.ok (false, []), decoder)
  | byte :: rest =>
    match decoder.step byte with
    | (.error error, decoder) => (.error error, decoder)
    | (.ok true, decoder) => (.ok (true, rest), decoder)
    | (.ok false, decoder) => decoder.fillBytes rest

theorem extend_needed (decoder : ResponseDecoder S) (input : S.Bytes) : (decoder.extend input).1.needed = decoder.needed := rfl

variable {after : ResponseDecoder S}

theorem announce_ok {start : decoder.needed = 4} (announced : decoder.announce start = .ok after) :
    recordSize decoder.buffer = .ok after.needed ∧ after.buffer = decoder.buffer ∧ after.finished = decoder.finished ∧
      after.request = decoder.request := by
  unfold announce at announced
  split at announced
  · cases announced
  next needed sized =>
    cases announced
    exact ⟨sized, rfl, rfl, rfl⟩

theorem announce_ready {start : decoder.needed = 4} (announced : decoder.announce start = .ok after) :
    after.Ready := by
  obtain ⟨sized, same, -⟩ := announce_ok announced
  have few := decoder.short
  rw [Ready, same]
  exact Nat.lt_of_le_of_lt (start ▸ few) (recordSize_bounds sized).1

private theorem take_min {α : Type} (items : List α) (count : Nat) :
    items.take (min items.length count) = items.take count ∧ items.drop (min items.length count) = items.drop count := by
  rcases Nat.le_total items.length count with whole | part
  · rw [Nat.min_eq_left whole, List.take_length, List.drop_length, List.take_of_length_le whole, List.drop_of_length_le whole]
    exact ⟨rfl, rfl⟩
  · rw [Nat.min_eq_right part]
    exact ⟨rfl, rfl⟩

theorem extend_buffer (decoder : ResponseDecoder S) (input : S.Bytes) :
    (decoder.extend input).1.buffer = decoder.buffer ++ input.take (decoder.needed - decoder.buffer.length) :=
  congrArg (decoder.buffer ++ ·) (take_min _ _).1

theorem extend_rest (decoder : ResponseDecoder S) (input : S.Bytes) :
    (decoder.extend input).2 = input.drop (decoder.needed - decoder.buffer.length) := (take_min _ _).2

theorem extend_byte (ready : decoder.Ready) (byte : S.Symbol) : (decoder.extend [byte]).1.buffer = decoder.buffer ++ [byte] := by
  rw [extend_buffer, List.take_of_length_le]
  exact Nat.sub_pos_of_lt ready

theorem extend_last (full : decoder.buffer.length + 1 = decoder.needed) (byte : S.Symbol) (rest : S.Bytes) :
    decoder.extend (byte :: rest) = ((decoder.extend [byte]).1, rest) := by
  have one : decoder.needed - decoder.buffer.length = 1 := by omega
  refine Prod.ext (ResponseDecoder.ext rfl ?_ rfl rfl) ?_
  · rw [extend_buffer, extend_buffer, one]
    rfl
  · rw [extend_rest, one]
    rfl

theorem extend_cons (more : decoder.buffer.length + 1 < decoder.needed) (byte : S.Symbol) (rest : S.Bytes) :
    decoder.extend (byte :: rest) = (decoder.extend [byte]).1.extend rest := by
  have ready : decoder.Ready := Nat.lt_of_succ_lt more
  have count : decoder.needed - decoder.buffer.length =
      (decoder.extend [byte]).1.needed - (decoder.extend [byte]).1.buffer.length + 1 := by
    rw [extend_byte ready, extend_needed, List.length_append, List.length_singleton]
    omega
  refine Prod.ext (ResponseDecoder.ext rfl ?_ rfl rfl) ?_
  · rw [extend_buffer, extend_buffer, count, extend_byte ready, List.take_succ_cons, List.append_assoc]
    rfl
  · rw [extend_rest, extend_rest, count, List.drop_succ_cons]

def fillExtended (extended : ResponseDecoder S × S.Bytes) : Except Error (Bool × S.Bytes) × ResponseDecoder S :=
  if extended.1.buffer.length ≠ extended.1.needed then (.ok (false, extended.2), extended.1)
  else if start : extended.1.needed = 4 then
    match extended.1.announce start with
    | .error error => (.error error, extended.1)
    | .ok decoder => decoder.fillBytes extended.2
  else (.ok (true, extended.2), extended.1)

theorem step_more (running : decoder.finished = false) (more : decoder.buffer.length + 1 < decoder.needed) (byte : S.Symbol) :
    decoder.step byte = (.ok false, (decoder.extend [byte]).1) := by
  have open_ : (decoder.extend [byte]).1.buffer.length ≠ (decoder.extend [byte]).1.needed := by
    rw [extend_byte (Nat.lt_of_succ_lt more), extend_needed, List.length_append, List.length_singleton]
    omega
  simp only [step, running, Bool.false_eq_true, if_false, if_pos open_]

theorem fillBytes_last (running : decoder.finished = false) (full : decoder.buffer.length + 1 = decoder.needed)
    (byte : S.Symbol) (rest : S.Bytes) :
    decoder.fillBytes (byte :: rest) = fillExtended ((decoder.extend [byte]).1, rest) := by
  have closed : ¬ (decoder.extend [byte]).1.buffer.length ≠ (decoder.extend [byte]).1.needed := by
    rw [extend_byte (show decoder.Ready by unfold Ready; omega), extend_needed, List.length_append, List.length_singleton]
    omega
  simp only [fillBytes, step, fillExtended, running, Bool.false_eq_true, if_false, if_neg closed]
  by_cases start : (decoder.extend [byte]).1.needed = 4
  · simp only [dif_pos start]
    cases (decoder.extend [byte]).1.announce start <;> rfl
  · simp only [dif_neg start]

theorem fillBytes_extend (ready : decoder.Ready) (running : decoder.finished = false) (byte : S.Symbol) (rest : S.Bytes) :
    decoder.fillBytes (byte :: rest) = fillExtended (decoder.extend (byte :: rest)) := by
  induction rest generalizing decoder byte with
  | nil =>
    by_cases full : decoder.buffer.length + 1 = decoder.needed
    · rw [fillBytes_last running full, extend_last full]
    · have more : decoder.buffer.length + 1 < decoder.needed := Nat.lt_of_le_of_ne ready full
      have open_ : (decoder.extend [byte]).1.buffer.length ≠ (decoder.extend [byte]).1.needed := by
        rw [extend_byte ready, extend_needed, List.length_append, List.length_singleton]
        exact full
      rw [fillBytes, step_more running more, fillExtended, if_pos open_, extend_rest]
      have none : [byte].drop (decoder.needed - decoder.buffer.length) = [] := List.drop_of_length_le (Nat.sub_pos_of_lt ready)
      rw [none]
      rfl
  | cons next rest ih =>
    by_cases full : decoder.buffer.length + 1 = decoder.needed
    · rw [fillBytes_last running full, extend_last full byte (next :: rest)]
    · have more : decoder.buffer.length + 1 < decoder.needed := Nat.lt_of_le_of_ne ready full
      have later : (decoder.extend [byte]).1.Ready := by
        rw [Ready, extend_byte ready, extend_needed, List.length_append]
        exact more
      rw [fillBytes, step_more running more, extend_cons more byte (next :: rest)]
      exact ih later running next

/-- The loop reads what single bytes would. -/
theorem fill_eq {count : Nat} {input : S.Bytes} (ready : decoder.Ready) (enough : input.length ≤ count) :
    decoder.fill count input = decoder.fillBytes input := by
  induction count generalizing decoder input with
  | zero =>
    cases List.length_eq_zero_iff.mp (Nat.le_zero.mp enough)
    rfl
  | succ count ih =>
    cases input with
    | nil => rfl
    | cons byte rest =>
      cases running : decoder.finished with
      | true => simp [fill, fillBytes, step, running]
      | false =>
        have taken : (decoder.extend (byte :: rest)).2.length ≤ count := by
          rw [extend_rest, List.length_drop]
          have := Nat.sub_pos_of_lt ready
          rw [List.length_cons] at enough ⊢
          omega
        rw [fillBytes_extend ready running, fill, if_neg (List.cons_ne_nil _ _), running]
        simp only [Bool.false_eq_true, if_false, fillExtended]
        split
        next open_ =>
          have later : (decoder.extend (byte :: rest)).1.Ready :=
            Nat.lt_of_le_of_ne (decoder.extend (byte :: rest)).1.short open_
          have none : (decoder.extend (byte :: rest)).2 = [] := by
            unfold Ready at later
            rw [extend_buffer, extend_needed, List.length_append, List.length_take] at later
            rw [extend_rest]
            exact List.drop_of_length_le (by omega)
          rw [ih later taken, none]
          rfl
        next =>
          split
          next start =>
            cases announced : (decoder.extend (byte :: rest)).1.announce start with
            | error error => rfl
            | ok after => exact ih (announce_ready announced) taken
          next => rfl

/-- A byte that does not complete a frame leaves it incomplete. -/
theorem step_ready {byte : S.Symbol} (stepped : decoder.step byte = (.ok false, after)) : after.Ready := by
  unfold step at stepped
  split at stepped
  · cases stepped
  · dsimp only at stepped
    split at stepped
    next open_ =>
      cases stepped
      exact Nat.lt_of_le_of_ne (decoder.extend [byte]).1.short open_
    next =>
      split at stepped
      next start =>
        cases announced : (decoder.extend [byte]).1.announce start with
        | error error => rw [announced] at stepped; cases stepped
        | ok final =>
          rw [announced] at stepped
          cases stepped
          exact announce_ready announced
      next => cases stepped

theorem step_frame (ready : decoder.Ready) {byte : S.Symbol} {full : Bool} (stepped : decoder.step byte = (.ok full, after)) :
    decoder.finished = false ∧ after.buffer = decoder.buffer ++ [byte] ∧ after.finished = false ∧ after.request = decoder.request := by
  have joined := extend_byte ready byte
  unfold step at stepped
  split at stepped
  · cases stepped
  next running =>
    have running : decoder.finished = false := Bool.eq_false_iff.mpr running
    refine ⟨running, ?_⟩
    dsimp only at stepped
    split at stepped
    · cases stepped
      exact ⟨joined, running, rfl⟩
    · split at stepped
      next start =>
        cases announced : (decoder.extend [byte]).1.announce start with
        | error error => rw [announced] at stepped; cases stepped
        | ok final =>
          rw [announced] at stepped
          cases stepped
          obtain ⟨-, buffer, finished, request⟩ := announce_ok announced
          exact ⟨buffer.trans joined, finished.trans running, request⟩
      next =>
        cases stepped
        exact ⟨joined, running, rfl⟩

theorem fillBytes_frame (empty : decoder.buffer = []) (start : decoder.needed = 4) (running : decoder.finished = false)
    {frame : S.Bytes} (sized : recordSize (frame.take 4) = .ok frame.length) :
    ∃ after, decoder.fillBytes frame = (.ok (true, []), after) ∧ after.buffer = frame ∧ after.finished = false ∧
      after.request = decoder.request := by
  have long := (recordSize_bounds sized).1
  have ready : decoder.Ready := by rw [Ready, empty, start]; exact Nat.zero_lt_succ 3
  have count : decoder.needed - decoder.buffer.length = 4 := by rw [start, empty]; rfl
  have first : (decoder.extend frame).1.buffer = frame.take 4 := by rw [extend_buffer, count, empty, List.nil_append]
  have four : (frame.take 4).length = 4 := by rw [List.length_take]; omega
  obtain ⟨byte, rest, rfl⟩ := List.exists_cons_of_length_pos (by omega : 0 < frame.length)
  have closed : ¬ (decoder.extend (byte :: rest)).1.buffer.length ≠ (decoder.extend (byte :: rest)).1.needed := by
    rw [first, four, extend_needed, start]
    exact not_not.mpr rfl
  rw [fillBytes_extend ready running, fillExtended, if_neg closed, dif_pos (show (decoder.extend (byte :: rest)).1.needed = 4 from start)]
  cases announced : (decoder.extend (byte :: rest)).1.announce start with
  | error error =>
    unfold announce at announced
    split at announced
    next failed => rw [first, sized] at failed; cases failed
    next => cases announced
  | ok middle =>
    obtain ⟨size, buffer, finished, request⟩ := announce_ok announced
    rw [first] at size buffer
    rw [sized] at size
    have needed : middle.needed = (byte :: rest).length := (Except.ok.inj size).symm
    have left : middle.needed - middle.buffer.length = ((byte :: rest).drop 4).length := by
      rw [needed, buffer, four, List.length_drop]
    have more : ((byte :: rest).drop 4).length ≠ 0 := by
      rw [List.length_drop]
      omega
    have whole : (middle.extend ((byte :: rest).drop 4)).1.buffer = byte :: rest := by
      rw [extend_buffer, left, List.take_length, buffer, List.take_append_drop]
    rw [extend_rest, count]
    dsimp only
    obtain ⟨next, tail, shape⟩ := List.exists_cons_of_length_pos (Nat.pos_of_ne_zero more)
    have full : ¬ (middle.extend (next :: tail)).1.buffer.length ≠ (middle.extend (next :: tail)).1.needed := by
      rw [← shape, whole, extend_needed, needed]
      exact not_not.mpr rfl
    have wide : ¬ (middle.extend (next :: tail)).1.needed = 4 := by
      rw [extend_needed, needed]
      omega
    have rest : (middle.extend (next :: tail)).2 = [] := by
      rw [extend_rest, ← shape, left, List.drop_length]
    rw [shape, fillBytes_extend (announce_ready announced) (finished.trans running), fillExtended, if_neg full, dif_neg wide, rest]
    refine ⟨_, rfl, ?_, finished.trans running, request⟩
    rw [← shape, whole]

end ResponseDecoder

namespace Decoding

variable {emit : Callback S} {now : Nat}

def byteStep (emit : Callback S) (now : Nat) (state : Decoding S) (byte : S.Symbol) : Except Error Unit × Decoding S :=
  match state.decoder.step byte with
  | (.error error, decoder) => (.error error, { state with decoder })
  | (.ok false, decoder) => (.ok (), { state with decoder })
  | (.ok true, decoder) => decode emit { state with decoder } now

def readBytes (emit : Callback S) (now : Nat) (state : Decoding S) : S.Bytes → Except Error Unit × Decoding S
  | [] => (.ok (), state)
  | byte :: rest =>
    match byteStep emit now state byte with
    | (.error error, state) => (.error error, state)
    | (.ok (), state) => state.readBytes emit now rest

theorem readBytes_fill (state : Decoding S) (input : S.Bytes) :
    readBytes emit now state input =
      match state.decoder.fillBytes input with
      | (.error error, decoder) => (.error error, { state with decoder })
      | (.ok (false, _), decoder) => (.ok (), { state with decoder })
      | (.ok (true, rest), decoder) =>
        match decode emit { state with decoder } now with
        | (.error error, state) => (.error error, state)
        | (.ok (), state) => readBytes emit now state rest := by
  induction input generalizing state with
  | nil => rfl
  | cons byte rest ih =>
    rw [readBytes, byteStep, ResponseDecoder.fillBytes]
    cases state.decoder.step byte with
    | mk result decoder =>
      cases result with
      | error error => rfl
      | ok full =>
        cases full with
        | true => rfl
        | false => exact ih { state with decoder }

variable {state : Decoding S}

theorem decode_ready {after : Decoding S} (decoded : decode emit state now = (.ok (), after)) : after.decoder.Ready := by
  unfold decode at decoded
  split at decoded
  · cases decoded
  · split at decoded
    · cases decoded
    · dsimp only at decoded
      split at decoded
      · cases decoded
      · cases decoded
        exact (by decide : 0 < 4)

theorem fillBytes_rest {decoder after : ResponseDecoder S} {input rest : S.Bytes}
    (filled : decoder.fillBytes input = (.ok (true, rest), after)) : rest.length < input.length := by
  induction input generalizing decoder with
  | nil => cases filled
  | cons byte input ih =>
    rw [ResponseDecoder.fillBytes] at filled
    split at filled
    · cases filled
    · cases filled
      exact Nat.lt_succ_self _
    · exact Nat.lt_succ_of_lt (ih filled)

theorem read_eq {count : Nat} {input : S.Bytes} (ready : state.decoder.Ready) (enough : input.length ≤ count) :
    read emit now count state input = readBytes emit now state input := by
  induction count generalizing state input with
  | zero =>
    cases List.length_eq_zero_iff.mp (Nat.le_zero.mp enough)
    rfl
  | succ count ih =>
    rw [readBytes_fill, read, ResponseDecoder.fill_eq ready (Nat.le_refl _)]
    cases filled : state.decoder.fillBytes input with
    | mk result decoder =>
      cases result with
      | error error => rfl
      | ok outcome =>
        obtain ⟨full, rest⟩ := outcome
        cases full with
        | false => rfl
        | true =>
          have fewer := fillBytes_rest filled
          cases decoded : decode emit { state with decoder } now with
          | mk outcome after =>
            simp only [decoded]
            cases outcome with
            | error error => rfl
            | ok _ => exact ih (decode_ready decoded) (by omega)

def run (emit : Callback S) (state : Decoding S) (pushes : List (S.Bytes × Nat)) : Decoding S :=
  pushes.foldl (fun state chunk => (push emit state chunk.1 chunk.2).2) state

def feed (emit : Callback S) (state : Decoding S) (entry : S.Symbol × Nat) : Decoding S :=
  if state.decoder.request.isNone then state
  else match byteStep emit entry.2 state entry.1 with
    | (.error _, after) => after.close
    | (.ok (), after) => after

/-- An open decoder is in the middle of a frame, and a closed one is as `close`
left it. -/
structure Settled (state : Decoding S) : Prop where
  ready : state.decoder.Ready
  closed : state.decoder.request = none → state.close = state

theorem close_close (state : Decoding S) : state.close.close = state.close := rfl

theorem Settled.close (state : Decoding S) : Settled state.close := ⟨(by decide : 0 < 4), fun _ => state.close_close⟩

theorem byteStep_open {after : Decoding S} (ready : state.decoder.Ready) (open_ : state.decoder.request ≠ none) {byte : S.Symbol}
    (stepped : byteStep emit now state byte = (.ok (), after)) : Settled after ∧ after.decoder.request ≠ none := by
  unfold byteStep at stepped
  split at stepped
  · cases stepped
  next decoder moved =>
    cases stepped
    obtain ⟨-, -, -, request⟩ := ResponseDecoder.step_frame ready moved
    rw [← request] at open_
    exact ⟨⟨ResponseDecoder.step_ready moved, fun none => absurd none open_⟩, open_⟩
  next decoder moved =>
    have kept : after.decoder.request ≠ none := by
      unfold decode at stepped
      split at stepped
      · cases stepped
      · split at stepped
        · cases stepped
        · dsimp only at stepped
          split at stepped
          · cases stepped
          · cases stepped
            exact nofun
    exact ⟨⟨decode_ready stepped, fun none => absurd none kept⟩, kept⟩

theorem Settled.feed (settled : Settled state) (entry : S.Symbol × Nat) : Settled (state.feed emit entry) := by
  unfold Decoding.feed
  split
  · exact settled
  next open_ =>
    have open_ : state.decoder.request ≠ none := fun none => open_ (by rw [none]; rfl)
    cases stepped : byteStep emit entry.2 state entry.1 with
    | mk result after =>
      cases result with
      | error error => exact .close after
      | ok _ => exact (byteStep_open settled.ready open_ stepped).1

theorem feedAll_closed (closed : state.decoder.request = none) (entries : List (S.Symbol × Nat)) :
    entries.foldl (feed emit) state = state := by
  induction entries with
  | nil => rfl
  | cons entry entries ih =>
    have still : state.feed emit entry = state := by rw [feed, closed]; rfl
    rw [List.foldl_cons, still, ih]

theorem push_eq (settled : Settled state) (input : S.Bytes) (now : Nat) :
    (push emit state input now).2 = (input.map (·, now)).foldl (feed emit) state := by
  unfold push
  split
  next closed =>
    have closed := Option.isNone_iff_eq_none.mp closed
    rw [feedAll_closed closed]
    exact settled.closed closed
  next open_ =>
    rw [read_eq settled.ready (Nat.le_refl _)]
    induction input generalizing state with
    | nil => rfl
    | cons byte rest ih =>
      have shape : state.feed emit (byte, now) = match byteStep emit now state byte with
          | (.error _, after) => after.close
          | (.ok (), after) => after := by rw [feed, if_neg open_]
      have open_ : state.decoder.request ≠ none := fun none => open_ (by rw [none]; rfl)
      rw [readBytes, List.map_cons, List.foldl_cons, shape]
      cases stepped : byteStep emit now state byte with
      | mk result after =>
        cases result with
        | error error => exact (feedAll_closed rfl _).symm
        | ok _ =>
          obtain ⟨later, kept⟩ := byteStep_open settled.ready open_ stepped
          exact ih later (by rwa [Option.isNone_iff_eq_none])

def stamped (pushes : List (S.Bytes × Nat)) : List (S.Symbol × Nat) := pushes.flatMap fun chunk => chunk.1.map (·, chunk.2)

theorem stamped_bytes (pushes : List (S.Bytes × Nat)) : (stamped pushes).map Prod.fst = (pushes.map Prod.fst).flatten := by
  induction pushes with
  | nil => rfl
  | cons chunk pushes ih =>
    rw [stamped, List.flatMap_cons, List.map_append, ← stamped, ih]
    simp [Function.comp_def]

theorem Settled.feedAll (settled : Settled state) (entries : List (S.Symbol × Nat)) :
    Settled (entries.foldl (Decoding.feed emit) state) := by
  induction entries generalizing state with
  | nil => exact settled
  | cons entry entries ih => exact ih (settled.feed entry)

theorem run_eq (settled : Settled state) (pushes : List (S.Bytes × Nat)) :
    run emit state pushes = (stamped pushes).foldl (feed emit) state := by
  induction pushes generalizing state with
  | nil => rfl
  | cons chunk pushes ih =>
    have split : stamped (chunk :: pushes) = chunk.1.map (·, chunk.2) ++ stamped pushes := List.flatMap_cons
    rw [run, List.foldl_cons, push_eq settled, ← run, ih (settled.feedAll _), split, List.foldl_append]

end Decoding
end StogasVerifier.Channel
