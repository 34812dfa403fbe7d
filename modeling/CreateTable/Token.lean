import CreateTable.Keyword
import CreateTable.Text.Span

/-!
# Tokens

A token holds its own text and the blanks and comments before it, so tokens in a row give back the
text they were read from.

## Main definitions

- `TokenKind` — what a token is
- `Token` — a token at its place
- `Token.verbatim` — the text from the first of some neighbouring tokens through the last
-/

namespace CreateTable

/-- What a token is. -/
inductive TokenKind where
  /-- A word that spells a keyword. -/
  | keyword (word : Keyword)
  /-- Any other bare word. -/
  | identifier
  /-- A name in double quotes, back quotes or brackets, and the name meant. -/
  | quotedIdentifier (name : String)
  /-- Text in single quotes, and the text meant. -/
  | stringLiteral (value : String)
  | number
  | blob
  | leftParen
  | rightParen
  | comma
  | semicolon
  | dot
  /-- An operator. Expressions are not looked into, so which one it is matters for signs only. -/
  | operator
  /-- The end of the text, itself without text. -/
  | endOfInput
  deriving Repr, DecidableEq

/-- A token at its place. -/
structure Token where
  kind : TokenKind
  /-- The blanks and comments before it. -/
  lead : List Char
  /-- Its own text. -/
  text : List Char
  /-- The byte offset of its text. -/
  start : Nat
  deriving Repr, DecidableEq

namespace Token

/-- The byte offset behind a token. -/
def stop (t : Token) : Nat := t.start + Text.byteLength t.text

/-- The bytes of a token's text. -/
def span (t : Token) : Text.Span := ⟨t.start, t.stop⟩

/-- The text of a token. -/
def source (t : Token) : String := String.ofList t.text

/-- Whether a token is a given keyword. -/
def isKeyword (t : Token) (word : Keyword) : Bool := t.kind == .keyword word

/-- Whether a token stands for the end of the text. -/
def isEnd (t : Token) : Bool := t.kind == .endOfInput

/-- The text from the first of some neighbouring tokens through the last, with all that stands
    between them. -/
def verbatim : List Token → String
  | [] => ""
  | t :: rest => String.ofList (t.text ++ rest.flatMap fun u => u.lead ++ u.text)

end Token

end CreateTable
