import StogasVerifier.Lib.JsonText
import StogasVerifier.Receipt.Buffered

/-! What the split of a buffered response accepts, and that it undoes the appending of a
last member. -/

namespace StogasVerifier.Receipt
open Lib
open Sigstore (Bytes)

/-- The response with the proof appended as its last `stogas` member. -/
def appendStogas (content proof : Bytes) : Bytes :=
  if content = emptyObject then bufferedOnlyStogasField ++ proof ++ [125]
  else content.dropLast ++ bufferedStogasField ++ proof ++ [125]

private structure FieldTexts : Prop where
  empty : emptyObject = [123, 125]
  field : bufferedStogasField = 44 :: 34 :: (ascii "stogas" ++ [34, 58])
  only : bufferedOnlyStogasField = 123 :: 34 :: (ascii "stogas" ++ [34, 58])

private theorem fieldTexts : FieldTexts := by constructor <;> decide +kernel

variable {strictJson : Bytes → Except String Json} {body proof content : Bytes} {maxBodyBytes : Nat}

/-- The two ways to be accepted. -/
theorem split_cases (split : splitBufferedResponse strictJson body maxBodyBytes = .ok (proof, content)) :
    (∃ before, searchLast bufferedStogasField body = some before.length ∧
      body = before ++ bufferedStogasField ++ proof ++ [125] ∧ content = before ++ [125] ∧ before.head? = some 123) ∨
    (searchLast bufferedStogasField body = none ∧ body = bufferedOnlyStogasField ++ proof ++ [125] ∧ content = emptyObject) := by
  unfold splitBufferedResponse at split
  obtain ⟨_, -, split⟩ := bind_ok.mp split
  obtain ⟨_, ends, split⟩ := bind_ok.mp split
  obtain ⟨⟨fieldStart, proofStart, emptyResponse⟩, located, split⟩ := bind_ok.mp split
  obtain ⟨_, inside, split⟩ := bind_ok.mp split
  obtain ⟨_, -, split⟩ := bind_ok.mp split
  obtain ⟨_, -, split⟩ := bind_ok.mp split
  obtain ⟨_, -, split⟩ := bind_ok.mp split
  obtain ⟨_, -, split⟩ := bind_ok.mp split
  obtain ⟨rfl, rfl⟩ := Prod.mk.inj (pure_ok.mp split)
  rw [rejectIf_ok, not_or, not_not, not_not] at ends
  rw [rejectIf_ok, not_lt] at inside
  rw [required_ok] at located
  have tail : body.drop proofStart = (body.take (body.length - 1)).drop proofStart ++ [125] := by
    obtain ⟨front, whole⟩ := List.getLast?_eq_some_iff.mp ends.2
    rw [whole, List.length_append, List.length_singleton, Nat.add_sub_cancel] at inside ⊢
    rw [List.take_left, List.drop_append_of_le_length inside]
  unfold locateField at located
  split at located
  next found =>
    cases located
    have cut := searchLast_some found
    left
    refine ⟨body.take fieldStart, ?_, ?_, rfl, ?_⟩
    · rw [found, List.length_take, min_eq_left (by omega)]
    · rwa [tail, ← List.append_assoc] at cut
    · cases fieldStart with
      | zero =>
        have first := congrArg List.head? cut
        rw [ends.1, List.take_zero, List.nil_append, fieldTexts.field] at first
        cases first
      | succ _ =>
        obtain _ | ⟨head, rest⟩ := body
        · cases ends.1
        · exact ends.1
  next missing =>
    split at located
    next starts =>
      cases located
      right
      obtain ⟨rest, whole⟩ := List.isPrefixOf_iff_prefix.mp starts
      have cut : body.drop bufferedOnlyStogasField.length = rest := by rw [← whole, List.drop_left]
      refine ⟨missing, ?_, rfl⟩
      rw [List.append_assoc, ← tail, cut, whole]
    · cases located

/-- What is accepted was appended, unless the last comma and name stand directly behind the brace. -/
theorem split_appended (split : splitBufferedResponse strictJson body maxBodyBytes = .ok (proof, content)) :
    body = appendStogas content proof ↔ searchLast bufferedStogasField body ≠ some 1 := by
  rcases split_cases split with ⟨before, found, whole, rfl, first⟩ | ⟨missing, rfl, rfl⟩
  · obtain _ | ⟨head, rest⟩ := before
    · cases first
    cases first
    rw [found, whole]
    cases rest with
    | nil =>
      have same : [123] ++ [125] = emptyObject := fieldTexts.empty.symm
      rw [appendStogas, if_pos same, fieldTexts.field, fieldTexts.only]
      simp
    | cons next rest =>
      have other : 123 :: next :: rest ++ [125] ≠ emptyObject := by
        rw [fieldTexts.empty]
        simp
      rw [appendStogas, if_neg other, List.dropLast_concat]
      simp
  · rw [appendStogas, if_pos rfl, missing]
    simp

/-- Where nothing but a brace stands before the last comma and name, the same pair comes from two
bodies; elsewhere the pair determines the body. -/
theorem split_determines (split : splitBufferedResponse strictJson body maxBodyBytes = .ok (proof, content)) :
    (body = appendStogas content proof ↔ searchLast bufferedStogasField body ≠ some 1) ∧
    ∀ other, splitBufferedResponse strictJson other maxBodyBytes = .ok (proof, content) →
      searchLast bufferedStogasField body ≠ some 1 → searchLast bufferedStogasField other ≠ some 1 → body = other := by
  refine ⟨split_appended split, fun other again plain also => ?_⟩
  rw [(split_appended split).mpr plain, (split_appended again).mpr also]

def commaBody : Bytes := ascii "\x7b,\"stogas\":\x7b\x7d\x7d"
def aloneBody : Bytes := ascii "\x7b\"stogas\":\x7b\x7d\x7d"
def laterBody : Bytes := ascii "\x7b\"a\":1,\"stogas\":\x7b\x7d\x7d"
def sampleMetadata : Bytes := ascii "\x7b\"stogas\":1\x7d"

private def sampleStrict (bytes : Bytes) : Except String Json :=
  if bytes = emptyObject then .ok (.object [])
  else if bytes = sampleMetadata then .ok (.object [("stogas", .number (.posInt 1))])
  else .error ""

private structure SplitEvaluation : Prop where
  comma : splitBufferedResponse sampleStrict commaBody maxBufferedBody = .ok (emptyObject, emptyObject)
  alone : splitBufferedResponse sampleStrict aloneBody maxBufferedBody = .ok (emptyObject, emptyObject)
  later : splitBufferedResponse sampleStrict laterBody maxBufferedBody = .ok (emptyObject, ascii "\x7b\"a\":1\x7d")
  apart : commaBody ≠ aloneBody
  places : searchLast bufferedStogasField aloneBody = none ∧ searchLast bufferedStogasField laterBody = some 6

private theorem splitEvaluation : SplitEvaluation := by constructor <;> decide +kernel

/-- A body that is no JSON splits as the proper one. -/
theorem split_collides : ∃ (strictJson : Bytes → Except String Json) (body other : Bytes), body ≠ other ∧
    splitBufferedResponse strictJson body maxBufferedBody = .ok (emptyObject, emptyObject) ∧
    splitBufferedResponse strictJson other maxBufferedBody = .ok (emptyObject, emptyObject) ∧ body ≠ appendStogas emptyObject emptyObject := by
  refine ⟨sampleStrict, _, _, splitEvaluation.apart, splitEvaluation.comma, splitEvaluation.alone, ?_⟩
  decide +kernel

theorem split_determines_sample :
    aloneBody = appendStogas emptyObject emptyObject ∧
    laterBody = appendStogas (ascii "\x7b\"a\":1\x7d") emptyObject := by
  obtain ⟨alone, later⟩ := splitEvaluation.places
  refine ⟨(split_determines splitEvaluation.alone).1.mpr ?_, (split_determines splitEvaluation.later).1.mpr ?_⟩
  · rw [alone]
    decide
  · rw [later]
    decide

section Append
open JsonText (Node Spelled Compact)

private structure FieldMarks : Prop where
  marker : bufferedStogasField = JsonText.marker (ascii "stogas")
  plain : ∀ byte ∈ ascii "stogas", byte ≠ 34 ∧ byte ≠ 92
  begins : ascii "stogas" = 115 :: ascii "togas" ∧ 115 ∉ JsonText.whiteSpace ∧ 115 ∉ JsonText.Token.starts
  last : bufferedStogasField.getLast? = some 58
  only : 44 ∉ bufferedOnlyStogasField
  tail : 44 ∉ bufferedStogasField.tail

private theorem fieldMarks : FieldMarks := by constructor <;> decide +kernel

theorem field_absent {node : Node} {front metadata : Bytes} (spelled : Spelled node.tokens metadata) (never : node.NeverLater (ascii "stogas"))
    (absent : 44 ∉ front) : ¬ bufferedStogasField <:+: front ++ (metadata ++ [125]) := by
  rw [List.infix_iff_prefix_suffix]
  rintro ⟨after, start, inside⟩
  rcases JsonText.suffix_append_cases inside with inside | ⟨part, some, within, rfl⟩
  · rcases JsonText.suffix_append_cases inside with inside | ⟨part, some, within, rfl⟩
    · have member := inside.subset (start.subset (by rw [fieldTexts.field]; exact .head _))
      cases List.mem_singleton.mp member
    · rcases List.prefix_concat_iff.mp start with whole | start
      · have last := fieldMarks.last
        rw [whole, List.getLast?_concat] at last
        cases last
      · obtain ⟨first, other, other'⟩ := fieldMarks.begins
        rw [fieldMarks.marker] at start
        have clean := Node.clean_tokens node never [] trivial
        rw [List.append_nil] at clean
        exact spelled.unmarked ⟨fieldMarks.plain, _, _, first, other, other'⟩ clean within start
  · obtain _ | ⟨first, part⟩ := part
    · exact some rfl
    rw [fieldTexts.field] at start
    obtain ⟨rfl, -⟩ := List.cons_prefix_cons.mp start
    exact absent (within.subset (.head _))

theorem searchLast_absent {needle stream : Bytes} (absent : ¬ needle <:+: stream) : searchLast needle stream = none := by
  cases found : searchLast needle stream with
  | none => rfl
  | some position => exact absurd ⟨_, _, (searchLast_some found).symm⟩ absent

/-- What follows once the member is found. -/
theorem split_located {front metadata unsigned : Bytes} {fieldStart : Nat} {emptyResponse : Bool} {value : Json}
    (located : locateField (front ++ metadata ++ [125]) = some (fieldStart, front.length, emptyResponse)) (head : front.head? = some 123)
    (rebuilt : (if emptyResponse then emptyObject else (front ++ metadata ++ [125]).take fieldStart ++ [125]) = unsigned)
    (parsed : strictJson metadata = .ok value) (object : value.isObject = true) (nonempty : metadata ≠ []) (small : metadata.length ≤ maxProofBytes)
    (short : unsigned.length ≤ maxBodyBytes) (total : (front ++ metadata ++ [125]).length ≤ maxBodyBytes + maxProofBytes + 16) :
    splitBufferedResponse strictJson (front ++ metadata ++ [125]) maxBodyBytes = .ok (metadata, unsigned) := by
  have length : (front ++ metadata ++ [125]).length - 1 = (front ++ metadata).length := by
    rw [List.length_append, List.length_singleton, Nat.add_sub_cancel]
  have cut : ((front ++ metadata ++ [125]).take ((front ++ metadata ++ [125]).length - 1)).drop front.length = metadata := by
    rw [length, List.take_left, List.drop_left]
  have first : (front ++ metadata ++ [125]).head? = some 123 := by
    obtain _ | ⟨byte, front⟩ := front
    · cases head
    · exact head
  simp only [splitBufferedResponse, bind_ok, rejectIf_ok, required_ok, mapError_ok, exists_unit, pure_ok]
  refine ⟨not_lt.mpr total, ?_, _, located, ?_, ?_, value, ?_, not_not.mpr object, ?_, ?_⟩
  · rw [first, List.getLast?_concat]
    exact fun wrong => wrong.elim (fun other => other rfl) fun other => other rfl
  · rw [length, List.length_append]
    exact not_lt.mpr (Nat.le_add_right _ _)
  · rw [cut, List.isEmpty_iff]
    exact not_or_intro nonempty (not_lt.mpr small)
  · rwa [cut]
  · rw [rebuilt]
    exact not_lt.mpr short
  · rw [cut, rebuilt]

/-- The split undoes the append. -/
theorem split_append {node : Node} {members : List (Bytes × Node)} {response metadata : Bytes} {value : Json}
    (compact : Compact (.object members) response) (short : response.length ≤ 64 * 1024 * 1024)
    (spelled : Spelled node.tokens metadata) (never : node.NeverLater (ascii "stogas")) (parsed : strictJson metadata = .ok value)
    (object : value.isObject = true) (small : metadata.length ≤ 16 * 1024) :
    splitBufferedResponse strictJson (appendStogas response metadata) maxBufferedBody = .ok (metadata, response) := by
  have nonempty := spelled.nonempty node.tokens_nonempty
  have width : bufferedStogasField.length = 10 ∧ bufferedOnlyStogasField.length = 10 := by decide +kernel
  obtain ⟨middle, whole⟩ := compact.braces
  by_cases empty : response = emptyObject
  · rw [appendStogas, if_pos empty]
    have located : locateField (bufferedOnlyStogasField ++ metadata ++ [125]) = some (0, bufferedOnlyStogasField.length, true) := by
      have absent := field_absent spelled never fieldMarks.only
      rw [← List.append_assoc] at absent
      rw [locateField, searchLast_absent absent]
      refine if_pos (List.isPrefixOf_iff_prefix.mpr ?_)
      rw [List.append_assoc]
      exact List.prefix_append _ _
    refine split_located located ?_ empty.symm parsed object nonempty small short ?_
    · rw [fieldTexts.only]
      rfl
    · simp only [List.length_append, List.length_singleton, width.2, maxProofBytes, maxMetadataBytes]
      omega
  · rw [appendStogas, if_neg empty]
    have ends : response.dropLast ++ [125] = response := by
      rw [whole, ← List.cons_append, List.dropLast_concat]
    have located : locateField (response.dropLast ++ bufferedStogasField ++ metadata ++ [125]) =
        some (response.dropLast.length, (response.dropLast ++ bufferedStogasField).length, false) := by
      have absent := field_absent spelled never fieldMarks.tail
      have split : bufferedStogasField = 44 :: bufferedStogasField.tail := by rw [fieldTexts.field]; rfl
      have found : searchLast bufferedStogasField (response.dropLast ++ bufferedStogasField ++ metadata ++ [125]) =
          some response.dropLast.length := by
        rw [List.append_assoc, List.append_assoc, split]
        rw [split] at absent
        exact searchLast_behind absent
      rw [locateField, found, List.length_append]
    refine split_located located ?_ ?_ parsed object nonempty small short ?_
    · obtain _ | ⟨byte, rest⟩ := middle
      · exact absurd (whole.trans fieldTexts.empty.symm) empty
      · rw [whole, ← List.cons_append, List.dropLast_concat]
        rfl
    · rw [List.append_assoc, List.append_assoc, List.take_left, ends]
      rfl
    · have count := congrArg List.length ends
      simp only [List.length_append, List.length_singleton, width.1, maxProofBytes, maxMetadataBytes, maxBufferedBody] at count ⊢
      omega

def sampleResponse : Bytes := ascii "\x7b\"a\":\x7b\"b\":1,\"stogas\":2\x7d\x7d"
def sampleMembers : List (Bytes × Node) := [(ascii "a", .object [(ascii "b", .word (ascii "1")), (ascii "stogas", .word (ascii "2"))])]

private structure AppendEvaluation : Prop where
  response : (Node.object sampleMembers).tokens.flatMap JsonText.Token.bytes = sampleResponse
  metadata : (Node.object [(ascii "stogas", .word (ascii "1"))]).tokens.flatMap JsonText.Token.bytes = sampleMetadata
  short : sampleResponse.length ≤ 64 * 1024 * 1024
  names : ∀ name ∈ [ascii "a", ascii "b", ascii "stogas"], ∀ byte ∈ name, 32 ≤ byte ∧ byte ≠ 34 ∧ byte ≠ 92
  digits : ∀ digit ∈ [(49 : UInt8), 50], digit ∈ JsonText.wordStarts ∧ digit ∈ JsonText.wordLetters
  words : ascii "1" = [49] ∧ ascii "2" = [50]

private theorem appendEvaluation : AppendEvaluation := by constructor <;> decide +kernel

private theorem sample_word {letters : Bytes} {digit : UInt8} (known : digit ∈ [(49 : UInt8), 50]) (same : letters = [digit]) :
    (JsonText.Token.word letters).Valid := by
  obtain ⟨start, letter⟩ := appendEvaluation.digits digit known
  refine ⟨⟨digit, start, [], same⟩, fun other member => ?_⟩
  rw [same, List.mem_singleton] at member
  rwa [member]

private theorem sample_compact : Compact (.object sampleMembers) sampleResponse := by
  refine ⟨?_, appendEvaluation.response.symm⟩
  simp only [sampleMembers, Node.tokens, Node.firstMembers, Node.laterMembers, List.cons_append, List.nil_append, List.append_nil,
    List.forall_mem_cons]
  refine ⟨trivial, ?_, trivial, trivial, ?_, trivial, sample_word (.head _) appendEvaluation.words.1, trivial, ?_, trivial,
    sample_word (.tail _ (.head _)) appendEvaluation.words.2, trivial, trivial, nofun⟩
  · exact .of_plain (appendEvaluation.names _ (.head _))
  · exact .of_plain (appendEvaluation.names _ (.tail _ (.head _)))
  · exact .of_plain (appendEvaluation.names _ (.tail _ (.tail _ (.head _))))

/-- The metadata may begin with a member of the same name. -/
theorem split_append_sample :
    splitBufferedResponse sampleStrict (appendStogas sampleResponse sampleMetadata) maxBufferedBody =
      .ok (sampleMetadata, sampleResponse) := by
  have metadata : Compact (.object [(ascii "stogas", .word (ascii "1"))]) sampleMetadata := by
    refine ⟨?_, appendEvaluation.metadata.symm⟩
    simp only [Node.tokens, Node.firstMembers, Node.laterMembers, List.cons_append, List.nil_append, List.append_nil,
      List.forall_mem_cons]
    exact ⟨trivial, .of_plain (appendEvaluation.names _ (.tail _ (.tail _ (.head _)))), trivial,
      sample_word (.head _) appendEvaluation.words.1, trivial, nofun⟩
  refine split_append sample_compact appendEvaluation.short metadata.spelled ?_ ((if_neg (by decide +kernel)).trans (if_pos rfl)) rfl
    (by decide +kernel)
  simp only [Node.NeverLater, Node.NeverLaterMembers, and_self]

end Append

end StogasVerifier.Receipt
