import CreateTable.Text.Bytes

/-!
# Places in a text

A place is found from a byte offset and shown as an excerpt: the numbered line that holds it, and
under it a caret.

## Main definitions

- `Place` — a line of a text, cut where the place is
- `Place.ofOffset` — the place of a byte offset
- `Place.excerpt` — the two lines that show a place

## Design notes

Lines end at line feeds only, so a carriage return belongs to its line. An offset past the end is
the end of the text, and one inside a character is the start of that character.
-/

namespace CreateTable.Text

/-- A line of a text with a place in it. -/
structure Place where
  /-- The number of the line, from one. -/
  line : Nat
  /-- The part of the line before the place. -/
  before : List Char
  /-- The part of the line from the place on. -/
  after : List Char
  deriving Repr, DecidableEq

namespace Place

/-- The place of a byte offset in a text. -/
def ofOffset (text : List Char) (offset : Nat) : Place :=
  let (before, after) := splitAtByte offset text
  { line := before.count '\n' + 1
    before := (before.reverse.takeWhile (· ≠ '\n')).reverse
    after := after.takeWhile (· ≠ '\n') }

/-- A text with spaces before it, up to `width` characters in all. -/
def alignRight (width : Nat) (text : List Char) : List Char :=
  List.replicate (width - text.length) ' ' ++ text

/-- The line of a place after its number, and a line with a caret behind as many spaces as the
    line has characters before the place. -/
def excerpt (p : Place) : String :=
  String.ofList (alignRight 4 (toString p.line).toList) ++ " | "
    ++ String.ofList (p.before ++ p.after) ++ "\n     | "
    ++ String.ofList (List.replicate p.before.length ' ') ++ "^"

end Place

end CreateTable.Text
