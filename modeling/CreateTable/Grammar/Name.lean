import CreateTable.Reader

/-!
# Names

What a token says where a name is due, and lists of names.

## Main definitions

- `Token.name?` — the name that a token stands for
- `Token.isTypeWord` — whether a token may be part of a type
- `NameList` — names with commas between, up to a closing parenthesis
-/

namespace CreateTable

namespace Token

/-- The name that a token stands for: a bare word, a quoted name, a string, or a keyword that is
    not reserved. Bare words keep their case. -/
def name? (t : Token) : Option String :=
  match t.kind with
  | .identifier => some t.source
  | .quotedIdentifier name => some name
  | .stringLiteral value => some value
  | .keyword word => if word.isReserved then none else some t.source
  | _ => none

/-- Whether a token may be part of a type. Every name may but the word that begins a computed
    column. -/
def isTypeWord (t : Token) : Bool :=
  t.name?.isSome && !t.isKeyword .generated

/-- Whether a token is a bare word with the given upper-case spelling, in any mixture of cases. -/
def isBareWord (t : Token) (word : String) : Bool :=
  t.kind == .identifier && String.ofList (t.text.map Char.toUpper) == word

/-- Whether a token is a word with the given upper-case spelling, bare or quoted, in any mixture of
    cases. -/
def isWord (t : Token) (word : String) : Bool :=
  match t.kind with
  | .quotedIdentifier name => String.ofList (name.toList.map Char.toUpper) == word
  | .stringLiteral value => String.ofList (value.toList.map Char.toUpper) == word
  | _ => t.isBareWord word

theorem kind_ne_endOfInput_of_name? {t : Token} {name : String} (h : t.name? = some name) :
    t.kind ≠ .endOfInput := by
  intro hend
  simp [name?, hend] at h

theorem kind_ne_endOfInput_of_isKeyword {t : Token} {word : Keyword} (h : t.isKeyword word) :
    t.kind ≠ .endOfInput := by
  intro hend
  simp [isKeyword, hend] at h

end Token

namespace Grammar

open Verdict

/-- Takes a token as a name. -/
def takeName {σ α : Type} (t : Token) (role : NameRole) (next : String → σ) : Verdict σ α :=
  match t.name? with
  | some name => .taken (next name)
  | none => t.refuse (.name role)

theorem sparesEnd_takeName {σ α : Type} (t : Token) (role : NameRole) (next : String → σ) :
    (takeName t role next : Verdict σ α).SparesEnd t := by
  unfold takeName
  split
  · exact sparesEnd_taken.2 (Token.kind_ne_endOfInput_of_name? ‹_›)
  · simp

/-- Takes a token of one kind. -/
def takeKind {σ α : Type} (t : Token) (kind : TokenKind) (what : Expectation) (next : σ) :
    Verdict σ α :=
  if t.kind = kind then .taken next else t.refuse what

/-- Takes a keyword. -/
def takeKeyword {σ α : Type} (t : Token) (word : Keyword) (what : Expectation) (next : σ) :
    Verdict σ α :=
  takeKind t (.keyword word) what next

theorem sparesEnd_takeKind {σ α : Type} (t : Token) {kind : TokenKind} (what : Expectation)
    (next : σ) (h : kind ≠ .endOfInput) :
    (takeKind t kind what next : Verdict σ α).SparesEnd t := by
  unfold takeKind
  split
  · rename_i ht
    exact sparesEnd_taken.2 (ht ▸ h)
  · simp

theorem sparesEnd_takeKeyword {σ α : Type} (t : Token) (word : Keyword) (what : Expectation)
    (next : σ) : (takeKeyword t word what next : Verdict σ α).SparesEnd t :=
  sparesEnd_takeKind t what next (by simp)

namespace NameList

/-- Where a list of names is. The names read so far stand latest first. -/
inductive State where
  /-- A name is due. -/
  | name (names : List String)
  /-- A comma or the end of the list is due. -/
  | next (names : List String)
  /-- The list is closed. -/
  | closed (names : List String)
  deriving Repr, DecidableEq

/-- The verdict on a token of a list of names behind its opening parenthesis. -/
def step (role : NameRole) (closing : Expectation) : State → Token → Verdict State (List String)
  | .name names, t => takeName t role fun name => .next (name :: names)
  | .next names, t =>
    match t.kind with
    | .comma => .taken (.name names)
    | .rightParen => .taken (.closed names.reverse)
    | _ => t.refuse closing
  | .closed names, _ => .complete names

theorem step_sparesEnd (role : NameRole) (closing : Expectation) (s : State) (t : Token) :
    (step role closing s t).SparesEnd t := by
  unfold step
  split
  · exact sparesEnd_takeName _ _ _
  · split
    · simp [*]
    · simp [*]
    · simp
  · simp

end NameList

end Grammar

end CreateTable
