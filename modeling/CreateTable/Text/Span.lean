import CreateTable.Text.Bytes

/-!
# Spans

A span is a range of bytes in a text, given by its two ends.

## Main definitions

- `Span` — a range of bytes
- `Span.cover` — the range from the start of one span to the stop of another
- `Span.slice?` — the text in a span, if both ends lie between characters
-/

namespace CreateTable.Text

/-- The bytes from `start` up to, and without, `stop`. -/
structure Span where
  start : Nat
  stop : Nat
  deriving Repr, DecidableEq

namespace Span

/-- From the start of one span through the stop of another, and never backwards. -/
def cover (a b : Span) : Span := ⟨a.start, max b.stop a.start⟩

/-- The number of bytes in a span. -/
def length (s : Span) : Nat := s.stop - s.start

/-- Whether a span holds no byte. -/
def isEmpty (s : Span) : Bool := s.start == s.stop

/-- The text in a span. There is none if an end lies outside the text or inside a character, or
    if the ends are in the wrong order. -/
def slice? (s : Span) (text : String) : Option String :=
  let (before, rest) := splitAtByte s.start text.toList
  let (inside, _) := splitAtByte (s.stop - s.start) rest
  if byteLength before = s.start ∧ byteLength inside = s.stop - s.start ∧ s.start ≤ s.stop then
    some (String.ofList inside)
  else none

end Span

end CreateTable.Text
