import Mathlib

/-! The texts of JSON: trees, their tokens, and the bytes that spell them with white
space between. Every text of RFC 8259 is spelled here, and some others: an escape is a
backslash with any byte, and literals and numbers are words of their letters. -/

namespace StogasVerifier.Lib.JsonText

abbrev Text := List UInt8

inductive Token where
  | openObject | closeObject | openArray | closeArray | comma | colon
  | string (raw : Text)
  | word (letters : Text)

/-- What stands between the quotation marks. -/
inductive Chars : Text → Prop where
  | nil : Chars []
  | plain {byte : UInt8} {rest : Text} (printable : 32 ≤ byte) (quote : byte ≠ 34) (backslash : byte ≠ 92) (chars : Chars rest) :
      Chars (byte :: rest)
  | escape {byte : UInt8} {rest : Text} (printable : 32 ≤ byte) (chars : Chars rest) : Chars (92 :: byte :: rest)

theorem Chars.of_plain {raw : Text} (plain : ∀ byte ∈ raw, 32 ≤ byte ∧ byte ≠ 34 ∧ byte ≠ 92) : Chars raw := by
  induction raw with
  | nil => exact .nil
  | cons byte rest ih =>
    obtain ⟨printable, quote, backslash⟩ := plain byte (.head _)
    exact .plain printable quote backslash (ih fun other member => plain other (.tail _ member))

/-- Numbers and literals begin with a digit, a minus or a letter of `t`, `f` and `n`. -/
def wordStarts : Text := "-0123456789tfn".toUTF8.toList

def wordLetters : Text := "+-.0123456789Eaeflnrstu".toUTF8.toList

def whiteSpace : Text := [32, 9, 10, 13]

namespace Token

def bytes : Token → Text
  | openObject => [123]
  | closeObject => [125]
  | openArray => [91]
  | closeArray => [93]
  | comma => [44]
  | colon => [58]
  | string raw => 34 :: raw ++ [34]
  | word letters => letters

def Valid : Token → Prop
  | string raw => Chars raw
  | word letters => (∃ first ∈ wordStarts, ∃ rest, letters = first :: rest) ∧ ∀ letter ∈ letters, letter ∈ wordLetters
  | _ => True

/-- The first bytes of tokens. -/
def starts : Text := [123, 125, 91, 93, 44, 58, 34] ++ wordStarts

theorem bytes_starts {token : Token} (valid : token.Valid) : ∃ first ∈ starts, ∃ rest, token.bytes = first :: rest := by
  cases token with
  | word letters =>
    obtain ⟨⟨first, known, rest, whole⟩, -⟩ := valid
    exact ⟨first, List.mem_append_right _ known, rest, whole⟩
  | string raw => exact ⟨34, by decide +kernel, _, rfl⟩
  | openObject | closeObject | openArray | closeArray | comma | colon => exact ⟨_, by decide +kernel, [], rfl⟩

end Token

inductive Node where
  | word (letters : Text)
  | string (raw : Text)
  | array (items : List Node)
  | object (members : List (Text × Node))

namespace Node

mutual
def tokens : Node → List Token
  | word letters => [.word letters]
  | string raw => [.string raw]
  | array items => .openArray :: firstItems items ++ [.closeArray]
  | object members => .openObject :: firstMembers members ++ [.closeObject]

def firstItems : List Node → List Token
  | [] => []
  | item :: items => item.tokens ++ laterItems items

def laterItems : List Node → List Token
  | [] => []
  | item :: items => .comma :: item.tokens ++ laterItems items

def firstMembers : List (Text × Node) → List Token
  | [] => []
  | (name, value) :: members => .string name :: .colon :: value.tokens ++ laterMembers members

def laterMembers : List (Text × Node) → List Token
  | [] => []
  | (name, value) :: members => .comma :: .string name :: .colon :: value.tokens ++ laterMembers members
end

mutual
def NeverLater (name : Text) : Node → Prop
  | word _ => True
  | string _ => True
  | array items => NeverLaterItems name items
  | object [] => True
  | object ((_, value) :: members) => value.NeverLater name ∧ NeverLaterMembers name members

def NeverLaterItems (name : Text) : List Node → Prop
  | [] => True
  | item :: items => item.NeverLater name ∧ NeverLaterItems name items

def NeverLaterMembers (name : Text) : List (Text × Node) → Prop
  | [] => True
  | (other, value) :: members => other ≠ name ∧ value.NeverLater name ∧ NeverLaterMembers name members
end

end Node

inductive Spelled : List Token → Text → Prop where
  | done {space : Text} (white : ∀ byte ∈ space, byte ∈ whiteSpace) : Spelled [] space
  | token {space rest : Text} {token : Token} {tokens : List Token} (white : ∀ byte ∈ space, byte ∈ whiteSpace) (valid : token.Valid)
      (spelled : Spelled tokens rest) : Spelled (token :: tokens) (space ++ (token.bytes ++ rest))

/-- A text without white space. -/
def Compact (node : Node) (text : Text) : Prop := (∀ token ∈ node.tokens, token.Valid) ∧ text = node.tokens.flatMap Token.bytes

def Clean (name : Text) : List Token → Prop
  | [] => True
  | token :: rest => (token = .comma → ∀ more, rest ≠ .string name :: .colon :: more) ∧ Clean name rest

namespace Node
variable {name : Text}

theorem item_apart (item : Node) {rest : List Token} (follows : ∀ more, rest ≠ .colon :: more) (more : List Token) :
    item.tokens ++ rest ≠ .string name :: .colon :: more := by
  intro same
  cases item with
  | string raw =>
    rw [tokens, List.singleton_append] at same
    exact follows more (List.cons.inj same).2
  | word letters | array items | object members =>
    rw [tokens] at same
    cases same

theorem laterItems_follows (items : List Node) (rest more : List Token) : laterItems items ++ .closeArray :: rest ≠ .colon :: more := by
  intro same
  cases items with
  | nil =>
    rw [laterItems] at same
    cases same
  | cons item items =>
    rw [laterItems] at same
    cases same

mutual
theorem clean_tokens (node : Node) (never : node.NeverLater name) (rest : List Token) (clean : Clean name rest) :
    Clean name (node.tokens ++ rest) := by
  cases node with
  | word letters | string raw =>
    simp only [tokens, List.cons_append, List.nil_append]
    exact ⟨nofun, clean⟩
  | array items =>
    simp only [tokens, List.cons_append, List.append_assoc, List.nil_append]
    refine ⟨nofun, ?_⟩
    cases items with
    | nil =>
      simp only [firstItems, List.nil_append]
      exact ⟨nofun, clean⟩
    | cons item items =>
      simp only [NeverLater, NeverLaterItems] at never
      simp only [firstItems, List.append_assoc]
      exact clean_tokens item never.1 _ (clean_laterItems items never.2 rest clean)
  | object members =>
    simp only [tokens, List.cons_append, List.append_assoc, List.nil_append]
    refine ⟨nofun, ?_⟩
    cases members with
    | nil =>
      simp only [firstMembers, List.nil_append]
      exact ⟨nofun, clean⟩
    | cons member members =>
      simp only [NeverLater] at never
      simp only [firstMembers, List.cons_append, List.append_assoc]
      refine ⟨nofun, nofun, ?_⟩
      exact clean_tokens member.2 never.1 _ (clean_laterMembers members never.2 rest clean)

theorem clean_laterItems (items : List Node) (never : NeverLaterItems name items) (rest : List Token) (clean : Clean name rest) :
    Clean name (laterItems items ++ .closeArray :: rest) := by
  cases items with
  | nil =>
    simp only [laterItems, List.nil_append]
    exact ⟨nofun, clean⟩
  | cons item items =>
    simp only [NeverLaterItems] at never
    simp only [laterItems, List.cons_append, List.append_assoc]
    refine ⟨fun _ => item_apart item (laterItems_follows items rest), ?_⟩
    exact clean_tokens item never.1 _ (clean_laterItems items never.2 rest clean)

theorem clean_laterMembers (members : List (Text × Node)) (never : NeverLaterMembers name members) (rest : List Token)
    (clean : Clean name rest) : Clean name (laterMembers members ++ .closeObject :: rest) := by
  cases members with
  | nil =>
    simp only [laterMembers, List.nil_append]
    exact ⟨nofun, clean⟩
  | cons member members =>
    simp only [NeverLaterMembers] at never
    simp only [laterMembers, List.cons_append, List.append_assoc]
    refine ⟨fun _ more same => never.1 ?_, nofun, nofun, ?_⟩
    · exact Token.string.inj (List.cons.inj same).1
    · exact clean_tokens member.2 never.2.1 _ (clean_laterMembers members never.2.2 rest clean)
end

end Node

theorem Spelled.begins {tokens : List Token} {text : Text} (spelled : Spelled tokens text) {first : UInt8} {rest : Text}
    (whole : text = first :: rest) : first ∈ whiteSpace ∨ first ∈ Token.starts := by
  cases spelled with
  | done white => exact .inl (white first (whole ▸ .head _))
  | @token space more token tokens white valid spelled =>
    cases space with
    | nil =>
      obtain ⟨start, known, bytes, same⟩ := Token.bytes_starts valid
      rw [List.nil_append, same] at whole
      cases whole
      exact .inr known
    | cons byte space =>
      cases whole
      exact .inl (white first (.head _))

theorem Node.tokens_nonempty (node : Node) : node.tokens ≠ [] := by
  cases node with
  | word letters | string raw | array items | object members =>
    rw [tokens]
    nofun

theorem Spelled.nonempty {tokens : List Token} {text : Text} (spelled : Spelled tokens text) (some : tokens ≠ []) : text ≠ [] := by
  cases spelled with
  | done => exact absurd rfl some
  | token _ valid =>
    obtain ⟨first, -, rest, bytes⟩ := Token.bytes_starts valid
    intro empty
    rw [List.append_eq_nil_iff, List.append_eq_nil_iff, bytes] at empty
    cases empty.2.1

theorem Compact.spelled {node : Node} {text : Text} (compact : Compact node text) : Spelled node.tokens text := by
  obtain ⟨valid, rfl⟩ := compact
  generalize node.tokens = tokens at valid
  induction tokens with
  | nil => exact .done nofun
  | cons token tokens ih =>
    have none : ∀ byte ∈ ([] : Text), byte ∈ whiteSpace := nofun
    exact .token none (valid token (.head _)) (ih fun other member => valid other (.tail _ member))

theorem Compact.braces {members : List (Text × Node)} {text : Text} (compact : Compact (.object members) text) :
    ∃ middle, text = 123 :: (middle ++ [125]) := by
  refine ⟨(Node.firstMembers members).flatMap Token.bytes, ?_⟩
  rw [compact.2, Node.tokens, List.cons_append, List.flatMap_cons, List.flatMap_append]
  rfl

section Marker
variable {name : Text}

/-- The bytes of a comma, a name and a colon. -/
def marker (name : Text) : Text := 44 :: 34 :: (name ++ [34, 58])

/-- A name that is spelled without escapes, and does not begin as white space or a
token. -/
structure Simple (name : Text) : Prop where
  plain : ∀ byte ∈ name, byte ≠ 34 ∧ byte ≠ 92
  begins : ∃ first rest, name = first :: rest ∧ first ∉ whiteSpace ∧ first ∉ Token.starts

/-- The bytes that may stand behind a token. -/
def Follows (rest : Text) : Prop := ∀ first more, rest = first :: more → first ∈ whiteSpace ∨ first ∈ Token.starts

theorem Chars.unquoted {raw rest : Text} (simple : Simple name) (chars : Chars raw) (follows : Follows rest) :
    ¬ 34 :: (name ++ [34, 58]) <+: raw ++ ([34] ++ rest) := by
  rintro ⟨tail, same⟩
  cases chars with
  | nil =>
    obtain ⟨first, more, whole, white, start⟩ := simple.begins
    rw [whole] at same
    rcases follows first _ (List.cons.inj same).2.symm with space | token
    · exact white space
    · exact start token
  | plain _ quote => exact quote (List.cons.inj same).1.symm
  | escape => cases (List.cons.inj same).1

/-- The marker does not begin within a string. -/
theorem Chars.unmarked {raw rest after : Text} (simple : Simple name) (chars : Chars raw) (follows : Follows rest)
    (inside : after <:+ raw ++ [34]) (some : after ≠ []) : ¬ marker name <+: after ++ rest := by
  have ahead {byte : UInt8} {raw : Text} (chars : Chars raw) : ¬ marker name <+: (byte :: (raw ++ [34])) ++ rest := by
    intro start
    rw [List.cons_append, List.append_assoc] at start
    exact chars.unquoted simple follows (List.cons_prefix_cons.mp start).2
  induction chars with
  | nil =>
    rcases List.suffix_cons_iff.mp inside with rfl | none
    · intro start
      cases (List.cons_prefix_cons.mp start).1
    · exact absurd (List.suffix_nil.mp none) some
  | plain _ _ _ chars ih =>
    rcases List.suffix_cons_iff.mp inside with rfl | later
    · exact ahead chars
    · exact ih later
  | escape _ chars ih =>
    rcases List.suffix_cons_iff.mp inside with rfl | later
    · intro start
      cases (List.cons_prefix_cons.mp start).1
    · rcases List.suffix_cons_iff.mp later with rfl | later
      · exact ahead chars
      · exact ih later

/-- The first bare quotation mark ends a string. -/
theorem Chars.unique {raw rest left : Text} (plain : ∀ byte ∈ name, byte ≠ 34 ∧ byte ≠ 92) (chars : Chars raw)
    (same : raw ++ 34 :: rest = name ++ 34 :: left) : raw = name ∧ rest = left := by
  induction name generalizing raw with
  | nil =>
    cases chars with
    | nil => exact ⟨rfl, (List.cons.inj same).2⟩
    | plain _ quote => exact absurd (List.cons.inj same).1 quote
    | escape => cases (List.cons.inj same).1
  | cons byte name ih =>
    cases chars with
    | nil => exact absurd (List.cons.inj same).1.symm (plain byte (.head _)).1
    | plain _ _ _ chars =>
      obtain ⟨rfl, tail⟩ := List.cons.inj same
      obtain ⟨rfl, rfl⟩ := ih (fun other member => plain other (.tail _ member)) chars tail
      exact ⟨rfl, rfl⟩
    | escape => exact absurd (List.cons.inj same).1.symm (plain byte (.head _)).2

theorem Spelled.quote {tokens : List Token} {more : Text} (spelled : Spelled tokens (34 :: more)) :
    ∃ raw later rest, tokens = .string raw :: later ∧ Chars raw ∧ more = raw ++ 34 :: rest ∧ Spelled later rest := by
  generalize whole : 34 :: more = text at spelled
  cases spelled with
  | done white => exact absurd (white 34 (whole ▸ .head _)) (by decide)
  | @token space rest token tokens white valid spelled =>
    cases space with
    | cons byte space =>
      cases whole
      exact absurd (white 34 (.head _)) (by decide)
    | nil =>
      rw [List.nil_append] at whole
      cases token with
      | string raw =>
        simp only [Token.bytes, List.cons_append, List.append_assoc, List.nil_append] at whole
        exact ⟨raw, tokens, rest, rfl, valid, (List.cons.inj whole).2, spelled⟩
      | word letters =>
        obtain ⟨⟨first, known, tail, rfl⟩, -⟩ := valid
        obtain ⟨rfl, -⟩ := List.cons.inj whole
        exact absurd known (by decide +kernel)
      | openObject | closeObject | openArray | closeArray | comma | colon => cases whole

theorem Spelled.colon {tokens : List Token} {more : Text} (spelled : Spelled tokens (58 :: more)) : ∃ later, tokens = .colon :: later := by
  generalize whole : 58 :: more = text at spelled
  cases spelled with
  | done white => exact absurd (white 58 (whole ▸ .head _)) (by decide)
  | @token space rest token tokens white valid spelled =>
    cases space with
    | cons byte space =>
      cases whole
      exact absurd (white 58 (.head _)) (by decide)
    | nil =>
      rw [List.nil_append] at whole
      cases token with
      | colon => exact ⟨tokens, rfl⟩
      | word letters =>
        obtain ⟨⟨first, known, tail, rfl⟩, -⟩ := valid
        obtain ⟨rfl, -⟩ := List.cons.inj whole
        exact absurd known (by decide +kernel)
      | openObject | closeObject | openArray | closeArray | comma | string => cases whole

theorem suffix_append_cases {after front rest : Text} (inside : after <:+ front ++ rest) :
    after <:+ rest ∨ ∃ part, part ≠ [] ∧ part <:+ front ∧ after = part ++ rest := by
  obtain ⟨before, whole⟩ := inside
  rcases List.append_eq_append_iff.mp whole with ⟨part, cut, same⟩ | ⟨part, cut, same⟩
  · by_cases empty : part = []
    · rw [empty] at same
      exact .inl ⟨[], same⟩
    · exact .inr ⟨part, empty, ⟨before, cut.symm⟩, same⟩
  · exact .inl ⟨part, same.symm⟩

theorem Spelled.unmarked {tokens : List Token} {text after : Text} (simple : Simple name) (spelled : Spelled tokens text)
    (clean : Clean name tokens) (inside : after <:+ text) : ¬ marker name <+: after := by
  induction spelled generalizing after with
  | done white =>
    intro start
    have member := inside.subset (start.subset (.head _))
    exact absurd (white 44 member) (by decide)
  | @token space rest token tokens white valid spelled ih =>
    rcases suffix_append_cases inside with inside | ⟨part, some, within, rfl⟩
    · rcases suffix_append_cases inside with later | ⟨part, some, within, rfl⟩
      · exact ih clean.2 later
      · intro start
        obtain _ | ⟨first, part⟩ := part
        · exact some rfl
        obtain ⟨rfl, tail⟩ := List.cons_prefix_cons.mp start
        cases token with
        | comma =>
          obtain rfl : part = [] := List.eq_nil_of_length_eq_zero (Nat.le_zero.mp (Nat.le_of_succ_le_succ within.length_le))
          obtain ⟨more, whole⟩ := tail
          have quoted : Spelled tokens (34 :: (name ++ 34 :: (58 :: more))) := by
            have same : rest = 34 :: (name ++ 34 :: (58 :: more)) := by
              rw [List.cons_append, List.append_assoc] at whole
              exact whole.symm
            rwa [same] at spelled
          obtain ⟨raw, later, left, rfl, chars, cut, spelled⟩ := quoted.quote
          obtain ⟨rfl, rfl⟩ := chars.unique simple.plain cut.symm
          obtain ⟨last, rfl⟩ := spelled.colon
          exact clean.1 rfl last rfl
        | string raw =>
          rcases List.suffix_cons_iff.mp within with whole | within
          · cases whole
          · exact Chars.unmarked simple valid (fun _ _ whole => spelled.begins whole) within some start
        | word letters => exact absurd (valid.2 44 (within.subset (.head _))) (by decide +kernel)
        | openObject | closeObject | openArray | closeArray | colon =>
          have member := within.subset (.head _)
          cases List.mem_singleton.mp member
    · intro start
      obtain _ | ⟨first, part⟩ := part
      · exact some rfl
      obtain ⟨rfl, -⟩ := List.cons_prefix_cons.mp start
      exact absurd (white 44 (within.subset (.head _))) (by decide)

end Marker
end StogasVerifier.Lib.JsonText
