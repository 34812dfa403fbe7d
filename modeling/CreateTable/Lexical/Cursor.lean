import CreateTable.Lexical.Reading
import CreateTable.ParseError

/-!
# Cursors

A cursor is a place in a text from which tokens are read one after another.

## Main definitions

- `Cursor` — the rest of a text and its byte offset
- `Cursor.next` — the next token or fault, and the place behind it
- `Cursor.scan` — a given number of tokens or faults

## Design notes

Reading goes on behind a fault, and at the end of the text it gives the end again and again. A
cursor therefore has no state besides its place.
-/

namespace CreateTable.Lexical

/-- A place in a text. -/
structure Cursor where
  /-- The byte offset of the place. -/
  offset : Nat
  /-- The text from the place on. -/
  rest : List Char
  deriving Repr, DecidableEq

namespace Cursor

/-- The place before a text. -/
def ofText (text : List Char) : Cursor := ⟨0, text⟩

/-- The token at a place, or the fault there, and the place behind it. -/
def next (c : Cursor) : Except ParseError Token × Cursor :=
  let l := Lexeme.read c.rest
  let start := c.offset + Text.byteLength l.lead
  let result :=
    match l.outcome with
    | .ok kind => .ok { kind, lead := l.lead, text := l.text, start }
    | .error fault =>
      .error { cause := .lexical fault, offset := start, token := some (String.ofList l.text) }
  (result, ⟨start + Text.byteLength l.text, l.rest⟩)

/-- A token other than the end of the text leaves less to read. -/
theorem length_rest_next_lt {c c' : Cursor} {t : Token} (h : c.next = (.ok t, c'))
    (ht : t.kind ≠ .endOfInput) : c'.rest.length < c.rest.length := by
  obtain ⟨h₁, h₂⟩ := Prod.mk.inj h
  rw [← h₂]
  apply Lexeme.length_rest_read_lt
  intro hend
  rw [hend] at h₁
  cases h₁
  exact ht rfl

/-- The next `n` tokens or faults. -/
def scan (n : Nat) (c : Cursor) : List (Except ParseError Token) :=
  go [] c n
where
  /-- Reads on behind the reversed results `taken`. -/
  go (taken : List (Except ParseError Token)) (c : Cursor) : Nat → List (Except ParseError Token)
    | 0 => taken.reverse
    | n + 1 => go (c.next.1 :: taken) c.next.2 n

end Cursor

end CreateTable.Lexical
