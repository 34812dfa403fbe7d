import CreateTable.Lexical.Quote
import CreateTable.Token

/-!
# Lexemes

A lexeme is the front of a text: the trivia there and the token or the faulty text behind it. It
knows no offsets.

## Main definitions

- `LexicalFault` — why some text is no token
- `Lexeme` — the front of a text and the rest
-/

namespace CreateTable.Lexical

/-- Why some text is no token. -/
inductive LexicalFault where
  /-- The closing mark is missing. -/
  | unterminated (quote : Quote)
  /-- The closing mark of a blob is missing. -/
  | unterminatedBlob
  /-- A blob is not made of pairs of hexadecimal digits. -/
  | malformedBlob
  /-- A hexadecimal number has no digits. -/
  | missingHexDigits
  /-- An exponent has no digits. -/
  | missingExponent
  /-- An exclamation mark stands without an equals sign. -/
  | loneExclamation
  /-- The text fits nothing. -/
  | unrecognized
  deriving Repr, DecidableEq

/-- The text of a fault. -/
def LexicalFault.message : LexicalFault → String
  | unterminated .single => "unterminated string literal"
  | unterminated .bracket => "unterminated bracketed identifier"
  | unterminated _ => "unterminated quoted identifier"
  | unterminatedBlob => "unterminated blob literal"
  | malformedBlob => "malformed blob literal"
  | missingHexDigits => "expected hex digits after 0x"
  | missingExponent => "expected digits in exponent"
  | loneExclamation => "expected '=' after '!'"
  | unrecognized => "unrecognized token"

/-- The front of a text. The three parts, in order, are the text. -/
structure Lexeme where
  /-- What is passed over. -/
  lead : List Char
  /-- The text of the token, or the text at fault. -/
  text : List Char
  /-- What the text is. -/
  outcome : Except LexicalFault TokenKind
  /-- What follows. -/
  rest : List Char

/-- The parts of a lexeme in order. -/
def Lexeme.all (l : Lexeme) : List Char := l.lead ++ l.text ++ l.rest

end CreateTable.Lexical
