import CreateTable.Lexical.CharClass

/-!
# Trivia

Blanks and comments stand between tokens and mean nothing. A comment runs from `--` to the end of
its line, or from `/*` to the next `*/`; one that is not closed runs to the end of the text.

## Main definitions

- `Trivia.split` — cuts the trivia off the front of a text
-/

namespace CreateTable.Lexical

namespace Trivia

/-- Where a character of trivia stands. -/
inductive Mode where
  | between
  | line
  | block
  deriving Repr, DecidableEq

/-- Reads on in a mode behind the reversed trivia `taken`. The `/` that opens a comment and the
    `*` behind it are both taken before a `*/` is looked for. -/
def scan (taken : List Char) : Mode → List Char → List Char × List Char
  | .between, '-' :: '-' :: rest => scan ('-' :: '-' :: taken) .line rest
  | .between, '/' :: '*' :: rest => scan ('*' :: '/' :: taken) .block rest
  | .between, c :: rest =>
    if isBlank c then scan (c :: taken) .between rest else (taken.reverse, c :: rest)
  | .line, '\n' :: rest => scan ('\n' :: taken) .between rest
  | .line, c :: rest => scan (c :: taken) .line rest
  | .block, '*' :: '/' :: rest => scan ('/' :: '*' :: taken) .between rest
  | .block, c :: rest => scan (c :: taken) .block rest
  | _, [] => (taken.reverse, [])

/-- The trivia at the front of a text, and the rest of it. -/
def split (text : List Char) : List Char × List Char :=
  scan [] .between text

private theorem scan_append (taken : List Char) (mode : Mode) (text : List Char) :
    (scan taken mode text).1 ++ (scan taken mode text).2 = taken.reverse ++ text := by
  fun_induction scan taken mode text <;> simp_all

/-- A cut loses nothing. -/
theorem split_append (text : List Char) : (split text).1 ++ (split text).2 = text :=
  scan_append [] .between text

end Trivia

end CreateTable.Lexical
