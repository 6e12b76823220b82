import StogasVerifier.Channel.RecordOperation
import StogasVerifier.Proofs.RecordPair

/-! Every record key goes into one cipher operation. The chain is replaced before
the cipher is called and the sequence only advances after it, so an operation
that stops in between must close its direction. -/

namespace StogasVerifier.Channel
open Lib

variable {S : Suite} {T : Type}

def Keys.recordKey (keys : Keys S) (sequence : Nat) : S.Secret := (keys.next sequence).1

inductive Operation.Ends (records : Records S) : Operation S T → Prop where
  | silent (error : Error) : Ends records ⟨some (.error error), records.close, []⟩
  | unkeyed {keys : Keys S} (held : records.keys = some keys) (room : records.sequence < maxRecords) (error : Error) :
      Ends records ⟨some (.error error), records.close, [.derived (keys.recordKey records.sequence)]⟩
  | stopped {keys : Keys S} {result : Option (Except Error T)} (held : records.keys = some keys)
      (room : records.sequence < maxRecords) (unfinished : ∀ value, result ≠ some (.ok value)) :
      Ends records ⟨result, records.close,
        [.derived (keys.recordKey records.sequence), .used (keys.recordKey records.sequence) (nonce S records.sequence)]⟩
  | done {keys : Keys S} {after : Records S} {value : T} (held : records.keys = some keys) (room : records.sequence < maxRecords)
      (advanced : after.sequence = records.sequence + 1) :
      Ends records ⟨some (.ok value), after,
        [.derived (keys.recordKey records.sequence), .used (keys.recordKey records.sequence) (nonce S records.sequence)]⟩

namespace Records

variable {records : Records S}

private theorem cipher_ends {U : Type} (room : records.sequence < maxRecords) (reply : S.Secret → S.Bytes → Reply U)
    (rest : U → Attempt S T)
    (finishes : ∀ value stepped, stepped.sequence = records.sequence →
      (∃ output after, rest value stepped = ⟨some (.ok output), after, []⟩ ∧ after.sequence = records.sequence + 1) ∨
        ∃ error, rest value stepped = ⟨some (.error error), stepped, []⟩) :
    Operation.Ends records (Attempt.guarded (Attempt.bind (Attempt.cipher reply) rest) records) := by
  unfold Attempt.guarded Attempt.bind Attempt.cipher
  cases held : records.keys with
  | none => exact .silent _
  | some keys =>
    simp only
    cases replied : reply (keys.next records.sequence).1 (keys.next records.sequence).2.1 with
    | underived error => exact .silent _
    | unkeyed error => exact .unkeyed held room _
    | failed error => exact .stopped held room nofun
    | cancelled => exact .stopped held room nofun
    | returned value =>
      simp only
      obtain ⟨output, after, finished, advanced⟩ | ⟨error, refused⟩ :=
        finishes value { records with keys := some (keys.next records.sequence).2.2 } rfl
      · rw [finished]
        exact .done held room advanced
      · rw [refused]
        exact .stopped held room nofun

theorem check_room {kind : Kind} {size : Nat} (checked : records.check kind size = .ok ()) : records.sequence < maxRecords := by
  simp only [check, bind_ok, reject_ok, exists_unit, not_or, Nat.not_le] at checked
  exact checked.2.1.1

theorem advance_sequence (records : Records S) (kind : Kind) (size : Nat) :
    (records.advance kind size).sequence = records.sequence + 1 := by
  cases kind <;> rfl

private theorem guarded_check {U : Type} (test : Records S → Except Error U) (next : U → Attempt S T) :
    Attempt.guarded (Attempt.bind (Attempt.check test) next) records =
      match test records with
      | .ok value => Attempt.guarded (next value) records
      | .error error => ⟨some (.error error), records.close, []⟩ := by
  unfold Attempt.guarded Attempt.bind Attempt.check
  cases test records with
  | error error => rfl
  | ok value => simp only [List.nil_append]

private theorem sealAsync_ends (kind : Kind) (content : S.Bytes) (reply : CipherCall S) :
    Operation.Ends records (sealAsync kind content reply records) := by
  unfold sealAsync
  simp only [bind]
  rw [guarded_check]
  cases encoded : records.encode kind content with
  | error error => exact .silent _
  | ok bytes =>
    have checked := (encode_ok.mp encoded).1
    dsimp only
    rw [guarded_check]
    cases records.prefixSize bytes with
    | error error => exact .silent _
    | ok offset =>
      apply cipher_ends (check_room checked)
      intro value stepped same
      refine .inl ⟨_, _, rfl, ?_⟩
      rw [advance_sequence, same]

private theorem acceptOpen_sequence {plaintext content : S.Bytes} {after : Records S} {kind : Kind}
    (accepted : records.acceptOpen plaintext = .ok (after, kind, content)) : after.sequence = records.sequence + 1 := by
  cases plaintext with
  | nil => cases accepted
  | cons first rest =>
    simp only [acceptOpen, bind_ok, pure_ok, Prod.mk.injEq] at accepted
    obtain ⟨_, -, -, -, rfl, -, -⟩ := accepted
    exact advance_sequence _ _ _

private theorem openAsync_ends (encoded : S.Bytes) (reply : CipherCall S) :
    Operation.Ends records (openAsync encoded reply records) := by
  unfold openAsync
  simp only [bind]
  rw [guarded_check]
  cases checked : records.checkEncoded encoded with
  | error error => exact .silent _
  | ok offset =>
    have room : records.sequence < maxRecords := by
      simp only [checkEncoded, bind_ok, reject_ok, exists_unit, Nat.not_le] at checked
      exact checked.2.1
    apply cipher_ends room
    intro value stepped same
    cases accepted : stepped.acceptOpen value with
    | error error => exact .inr ⟨error, by simp only [Attempt.adopt, accepted]⟩
    | ok output =>
      obtain ⟨after, kind, content⟩ := output
      refine .inl ⟨(kind, content), after, by simp only [Attempt.adopt, accepted], ?_⟩
      rw [acceptOpen_sequence accepted, same]

end Records

private theorem Attempt.map_apply {U : Type} (wrap : T → U) (attempt : Attempt S T) (records : Records S) :
    (wrap <$> attempt) records =
      ⟨(attempt records).result.map (Except.map wrap), (attempt records).records, (attempt records).events⟩ := by
  change Attempt.bind attempt (pure ∘ wrap) records = _
  unfold Attempt.bind
  obtain ⟨result, after, events⟩ := attempt records
  rcases result with _ | error | value
  · rfl
  · rfl
  · change Operation.mk (some (.ok (wrap value))) after (events ++ []) = _
    rw [List.append_nil]
    rfl

theorem Operation.Ends.map {records : Records S} {attempt : Attempt S T} {U : Type} (wrap : T → U)
    (ends : Operation.Ends records (attempt records)) : Operation.Ends records ((wrap <$> attempt) records) := by
  rw [Attempt.map_apply]
  generalize attempt records = operation at ends
  cases ends with
  | silent error => exact .silent error
  | unkeyed held room error => exact .unkeyed held room error
  | @stopped keys result held room unfinished =>
    apply Ends.stopped held room
    intro value same
    rcases result with _ | error | output
    · cases same
    · cases same
    · exact unfinished output rfl
  | done held room advanced => exact .done held room advanced

namespace Records

theorem perform_ends (records : Records S) (call : RecordCall S) : Operation.Ends records (perform call records) := by
  cases call with
  | sealNow kind content => exact (sealAsync_ends kind content _).map _
  | openNow encoded => exact (openAsync_ends encoded _).map _
  | sealAsync kind content reply => exact (sealAsync_ends kind content reply).map _
  | openAsync encoded reply => exact (openAsync_ends encoded reply).map _

private theorem perform_closed (closed : records.phase = .failed) (call : RecordCall S) :
    perform call records = ⟨some (.error .closed), records.close, []⟩ := by
  have unsealed : ∀ kind content, records.encode kind content = .error .closed := by
    intro kind content
    simp [encode, check, closed, reject, bind, Except.bind]
  have unopened : ∀ encoded, records.checkEncoded encoded = .error .closed := by
    intro encoded
    simp [checkEncoded, closed, reject, bind, Except.bind]
  have sealAsync_closed : ∀ kind content reply, Records.sealAsync kind content reply records = ⟨some (.error .closed), records.close, []⟩ := by
    intro kind content reply
    unfold Records.sealAsync
    simp only [bind]
    rw [guarded_check, unsealed]
  have openAsync_closed : ∀ encoded reply, Records.openAsync encoded reply records = ⟨some (.error .closed), records.close, []⟩ := by
    intro encoded reply
    unfold Records.openAsync
    simp only [bind]
    rw [guarded_check, unopened]
  cases call with
  | sealNow kind content | sealAsync kind content reply => rw [perform, Attempt.map_apply, sealAsync_closed]; rfl
  | openNow encoded | openAsync encoded reply => rw [perform, Attempt.map_apply, openAsync_closed]; rfl

private theorem performAll_closed (calls : List (RecordCall S)) {records : Records S} (closed : records.phase = .failed) :
    ∀ operation ∈ records.performAll calls, operation.result = some (.error .closed) ∧ operation.events = [] := by
  induction calls generalizing records with
  | nil => nofun
  | cons call rest ih =>
    rw [performAll, perform_closed closed]
    intro operation member
    rcases List.mem_cons.mp member with rfl | later
    · exact ⟨rfl, rfl⟩
    · exact ih rfl operation later

end Records

def derivedKeys (operations : List (Operation S T)) : List S.Secret :=
  operations.flatMap fun operation => operation.events.filterMap fun
    | .derived key => some key
    | .used _ _ => none

def usedKeys (operations : List (Operation S T)) : List (S.Secret × S.Bytes) :=
  operations.flatMap fun operation => operation.events.filterMap fun
    | .derived _ => none
    | .used key nonceBytes => some (key, nonceBytes)

section Runs

variable {records : Records S}

private theorem Keys.recordKey_injective (free : S.RecordFree) {first second : Keys S} {place position : Nat}
    (low : place < maxRecords) (high : position < maxRecords)
    (same : first.recordKey place = second.recordKey position) : place = position := by
  obtain ⟨-, infos, -⟩ := free _ _ _ _ _ _ same
  apply toBe_injective _ _ _ (List.append_cancel_left infos)
  · exact low.trans (by decide)
  · exact high.trans (by decide)

private theorem derivedKeys_closed (closed : records.phase = .failed) (calls : List (RecordCall S)) :
    derivedKeys (records.performAll calls) = [] := by
  rw [derivedKeys, List.flatMap_eq_nil_iff]
  intro operation member
  rw [(Records.performAll_closed calls closed operation member).2]
  rfl

private theorem derivedKeys_from (calls : List (RecordCall S)) (records : Records S) :
    ∀ key ∈ derivedKeys (records.performAll calls), ∃ keys sequence, records.sequence ≤ sequence ∧ sequence < maxRecords ∧
      key = Keys.recordKey keys sequence := by
  induction calls generalizing records with
  | nil => nofun
  | cons call rest ih =>
    intro key member
    have ends := records.perform_ends call
    rw [Records.performAll, derivedKeys, List.flatMap_cons, ← derivedKeys, List.mem_append] at member
    generalize Records.perform call records = operation at ends member
    cases ends with
    | silent error => simp [derivedKeys_closed (show records.close.phase = .failed from rfl)] at member
    | @unkeyed keys held room error | @stopped keys result held room unfinished =>
      simp only [derivedKeys_closed (show records.close.phase = .failed from rfl), List.filterMap_cons, List.filterMap_nil,
        List.mem_singleton, List.not_mem_nil, or_false] at member
      exact ⟨keys, records.sequence, Nat.le_refl _, room, member⟩
    | @done keys after value held room advanced =>
      simp only [List.filterMap_cons, List.filterMap_nil, List.mem_singleton] at member
      rcases member with rfl | later
      · exact ⟨keys, records.sequence, Nat.le_refl _, room, rfl⟩
      · obtain ⟨keys, sequence, low, high, same⟩ := ih after key later
        exact ⟨keys, sequence, by omega, high, same⟩

private theorem derivedKeys_once (free : S.RecordFree) (calls : List (RecordCall S)) (records : Records S) :
    (derivedKeys (records.performAll calls)).Nodup := by
  induction calls generalizing records with
  | nil => exact List.nodup_nil
  | cons call rest ih =>
    have ends := records.perform_ends call
    rw [Records.performAll, derivedKeys, List.flatMap_cons, ← derivedKeys]
    generalize Records.perform call records = operation at ends
    cases ends with
    | silent error | unkeyed held room error | stopped held room unfinished =>
      simp [derivedKeys_closed (show records.close.phase = .failed from rfl)]
    | @done keys after value held room advanced =>
      simp only [List.filterMap_cons, List.filterMap_nil, List.singleton_append]
      refine List.nodup_cons.mpr ⟨fun member => ?_, ih after⟩
      obtain ⟨other, sequence, low, high, same⟩ := derivedKeys_from rest after _ member
      have equal := Keys.recordKey_injective free room high same
      omega

private theorem usedKeys_derived (calls : List (RecordCall S)) (records : Records S) :
    ((usedKeys (records.performAll calls)).map Prod.fst).Sublist (derivedKeys (records.performAll calls)) := by
  induction calls generalizing records with
  | nil => exact .slnil
  | cons call rest ih =>
    have ends := records.perform_ends call
    rw [Records.performAll, derivedKeys, usedKeys, List.flatMap_cons, List.flatMap_cons, ← derivedKeys, ← usedKeys, List.map_append]
    apply List.Sublist.append _ (ih _)
    generalize Records.perform call records = operation at ends
    cases ends with
    | silent error => exact .slnil
    | unkeyed held room error => exact List.nil_sublist _
    | stopped held room unfinished => exact List.Sublist.refl _
    | done held room advanced => exact List.Sublist.refl _

private theorem Operation.Ends.closes {operation : Operation S T} (ends : operation.Ends records)
    (unfinished : ∀ value, operation.result ≠ some (.ok value)) : operation.records.phase = .failed := by
  cases ends with
  | silent | unkeyed | stopped => rfl
  | done held room advanced => exact absurd rfl (unfinished _)

private theorem performAll_ends (calls : List (RecordCall S)) (records : Records S) :
    ∀ operation ∈ records.performAll calls, ∃ reached, operation.Ends reached := by
  induction calls generalizing records with
  | nil => nofun
  | cons call rest ih =>
    intro operation member
    rcases List.mem_cons.mp member with rfl | later
    · exact ⟨records, records.perform_ends call⟩
    · exact ih _ operation later

private theorem performAll_stops (calls : List (RecordCall S)) (records : Records S)
    {before after : List (Operation S (CallOutput S))} {operation : Operation S (CallOutput S)}
    (split : records.performAll calls = before ++ operation :: after)
    (unfinished : ∀ value, operation.result ≠ some (.ok value)) :
    ∀ later ∈ after, later.result = some (.error .closed) ∧ later.events = [] := by
  induction calls generalizing records before with
  | nil => simp [Records.performAll] at split
  | cons call rest ih =>
    rw [Records.performAll] at split
    cases before with
    | nil =>
      obtain ⟨rfl, rfl⟩ := List.cons.inj split
      exact Records.performAll_closed rest ((records.perform_ends call).closes unfinished)
    | cons first others => exact ih _ (List.cons.inj split).2

/-- Over every sequence of calls on any direction, each operation derives at most
one key and hands it to at most one cipher call, with the nonce of its record. No
key is derived twice, so none goes into two cipher calls or meets two nonces.
After an operation that failed or was dropped, every later one fails without
deriving a key. -/
theorem record_keys_once (free : S.RecordFree) (records : Records S) (calls : List (RecordCall S)) :
    (derivedKeys (records.performAll calls)).Nodup ∧ ((usedKeys (records.performAll calls)).map Prod.fst).Nodup ∧
    (∀ operation ∈ records.performAll calls, operation.events = [] ∨ ∃ key, operation.events = [.derived key] ∨
      ∃ sequence < maxRecords, operation.events = [.derived key, .used key (nonce S sequence)]) ∧
    ∀ before operation after, records.performAll calls = before ++ operation :: after →
      (∀ value, operation.result ≠ some (.ok value)) →
      ∀ later ∈ after, later.result = some (.error .closed) ∧ later.events = [] := by
  refine ⟨derivedKeys_once free calls records, (derivedKeys_once free calls records).sublist (usedKeys_derived calls records), ?_, ?_⟩
  · intro operation member
    obtain ⟨reached, ends⟩ := performAll_ends calls records operation member
    cases ends with
    | silent error => exact .inl rfl
    | unkeyed held room error => exact .inr ⟨_, .inl rfl⟩
    | stopped held room unfinished => exact .inr ⟨_, .inr ⟨_, room, rfl⟩⟩
    | done held room advanced => exact .inr ⟨_, .inr ⟨_, room, rfl⟩⟩
  · intro before operation after split unfinished
    exact performAll_stops calls records split unfinished

/-- The second call is dropped while its cipher runs, and the third fails. -/
theorem record_keys_once_sample :
    let records : Records symbolic := ⟨some ⟨.atom 0⟩, none, 1, 0, .response, .body⟩
    let calls : List (RecordCall symbolic) := [.sealAsync .data [(7 : Nat)] fun _ _ _ text => .returned text,
      .sealAsync .data [(8 : Nat)] fun _ _ _ _ => .cancelled, .sealNow .keepalive []]
    (records.performAll calls).map (fun operation => operation.events.length) = [2, 2, 0] ∧
      (derivedKeys (records.performAll calls)).Nodup ∧ ((usedKeys (records.performAll calls)).map Prod.fst).Nodup := by
  refine ⟨rfl, ?_, ?_⟩
  · exact (record_keys_once Symbolic.recordFree _ _).1
  · exact (record_keys_once Symbolic.recordFree _ _).2.1

end Runs

namespace Records

private theorem guarded_software (records : Records S) (call : S.Secret → S.Bytes → S.Bytes → S.Bytes → Except Error S.Bytes)
    (aad text : S.Bytes) (settle : S.Bytes → Records S → Except Error (Records S × T)) (operation : Operation S T)
    (performed : operation = Attempt.guarded (Attempt.bind
      (Attempt.cipher fun key nonceBytes => softwareReply call key nonceBytes aad text) fun value => Attempt.adopt (settle value)) records) :
    (operation.result, operation.records) =
      match (do
        let (key, nonceBytes, stepped) ← records.nextKey
        let value ← call key nonceBytes aad text
        settle value stepped) with
      | .ok (after, output) => (some (.ok output), after)
      | .error error => (some (.error error), records.close) := by
  subst performed
  unfold Attempt.guarded Attempt.bind Attempt.cipher nextKey softwareReply
  cases held : records.keys with
  | none => rfl
  | some keys =>
    simp only [ok_bind]
    cases called : call (keys.next records.sequence).1 (keys.next records.sequence).2.1 aad text with
    | error error => rfl
    | ok value =>
      simp only [ok_bind, Attempt.adopt]
      cases settle value { records with keys := some (keys.next records.sequence).2.2 } with
      | error error => rfl
      | ok output => rfl

/-- `seal` is the same operation with the software cipher. -/
theorem sealRecord_operation (records : Records S) (kind : Kind) (content : S.Bytes) :
    ((sealAsync kind content (softwareReply encryptNow) records).result,
      (sealAsync kind content (softwareReply encryptNow) records).records) =
    (some (records.sealRecord kind content).1, (records.sealRecord kind content).2) := by
  unfold sealAsync sealRecord sealing
  simp only [bind]
  rw [guarded_check]
  cases records.encode kind content with
  | error error => rfl
  | ok encoded =>
    dsimp only [Except.bind]
    rw [guarded_check]
    cases records.prefixSize encoded with
    | error error => rfl
    | ok offset =>
      dsimp only
      refine (guarded_software records encryptNow _ _ _ _ rfl).trans ?_
      cases records.nextKey with
      | error error => rfl
      | ok stepped =>
        obtain ⟨key, nonceBytes, stepped⟩ := stepped
        simp only [ok_bind]
        cases encryptNow key nonceBytes (encoded.take offset) (encoded.drop offset) <;> rfl

/-- `open` is the same operation with the software cipher. -/
theorem openRecord_operation (records : Records S) (encoded : S.Bytes) :
    ((openAsync encoded (softwareReply decryptNow) records).result, (openAsync encoded (softwareReply decryptNow) records).records) =
    (some (records.openRecord encoded).1, (records.openRecord encoded).2) := by
  unfold openAsync openRecord opening
  simp only [bind]
  rw [guarded_check]
  cases records.checkEncoded encoded with
  | error error => rfl
  | ok offset =>
    dsimp only [Except.bind]
    refine (guarded_software records decryptNow _ _ _ _ rfl).trans ?_
    cases records.nextKey with
    | error error => rfl
    | ok stepped =>
      obtain ⟨key, nonceBytes, stepped⟩ := stepped
      simp only [ok_bind]
      cases decryptNow key nonceBytes (encoded.take offset) (encoded.drop offset) with
      | error error => rfl
      | ok plaintext =>
        simp only [ok_bind]
        cases stepped.acceptOpen plaintext <;> rfl

/-- The calls that do not wait are the asynchronous ones with the software cipher: they
return the same result and leave the same direction. -/
theorem software_operations (records : Records S) :
    (∀ kind content, (records.sealRecord kind content).1 = (sealAsync kind content (softwareReply encryptNow) records).result ∧
      (records.sealRecord kind content).2 = (sealAsync kind content (softwareReply encryptNow) records).records) ∧
    ∀ encoded, (records.openRecord encoded).1 = (openAsync encoded (softwareReply decryptNow) records).result ∧
      (records.openRecord encoded).2 = (openAsync encoded (softwareReply decryptNow) records).records := by
  constructor
  · intro kind content
    obtain ⟨result, after⟩ := Prod.mk.inj (sealRecord_operation records kind content)
    exact ⟨result.symm, after.symm⟩
  · intro encoded
    obtain ⟨result, after⟩ := Prod.mk.inj (openRecord_operation records encoded)
    exact ⟨result.symm, after.symm⟩

end Records
end StogasVerifier.Channel
