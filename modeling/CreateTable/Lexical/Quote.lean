/-!
# Quotes

Strings and quoted names stand between marks. Inside all but brackets, the closing mark is written
twice to stand for itself.

## Main definitions

- `Quote` — the ways to quote
- `Enclosed.read?` — the text up to a closing mark
-/

namespace CreateTable.Lexical

/-- A way to quote: `'x'`, `"x"`, back quotes or `[x]`. -/
inductive Quote where
  | single | double | back | bracket
  deriving Repr, DecidableEq

namespace Quote

/-- The mark before quoted text. -/
def opening : Quote → Char
  | single => '\x27'
  | double => '\x22'
  | back => '\x60'
  | bracket => '['

/-- The mark behind quoted text. -/
def closing : Quote → Char
  | bracket => ']'
  | q => q.opening

/-- Whether the closing mark, written twice, stands for itself. -/
def doubles : Quote → Bool
  | bracket => false
  | _ => true

/-- The way to quote that a mark opens. -/
def ofOpening? (c : Char) : Option Quote :=
  [single, double, back, bracket].find? fun q => q.opening == c

end Quote

/-- What stands before a closing mark. -/
structure Enclosed where
  /-- The text as written. -/
  inner : List Char
  /-- The text meant, with one mark for each two. -/
  value : List Char
  /-- What follows the closing mark. -/
  rest : List Char
  deriving Repr, DecidableEq

namespace Enclosed

/-- Reads on behind the reversed `inner` text, which means the reversed `value`. -/
def scan (close : Char) (doubles : Bool) (inner value : List Char) : List Char → Option Enclosed
  | [] => none
  | c :: rest =>
    if c = close then
      match doubles, rest with
      | true, d :: rest' =>
        if d = close then scan close doubles (close :: close :: inner) (close :: value) rest'
        else some ⟨inner.reverse, value.reverse, d :: rest'⟩
      | _, rest => some ⟨inner.reverse, value.reverse, rest⟩
    else scan close doubles (c :: inner) (c :: value) rest

/-- Reads up to the closing mark, which is missing if the text ends first. -/
def read? (close : Char) (doubles : Bool) (text : List Char) : Option Enclosed :=
  scan close doubles [] [] text

private theorem scan_eq_some {close : Char} {doubles : Bool} {inner value text : List Char}
    {e : Enclosed} (h : scan close doubles inner value text = some e) :
    inner.reverse ++ text = e.inner ++ close :: e.rest := by
  fun_induction scan close doubles inner value text with
  | case1 => simp at h
  | case2 inner value rest' _ ih => simpa using ih h
  | case3 inner value d rest' =>
    obtain rfl := Option.some.inj h
    simp
  | case4 inner value rest =>
    obtain rfl := Option.some.inj h
    simp
  | case5 inner value c rest hc ih => simpa using ih h

/-- The text read is the inner text, the closing mark and the rest. -/
theorem eq_of_read? {close : Char} {doubles : Bool} {text : List Char} {e : Enclosed}
    (h : read? close doubles text = some e) : text = e.inner ++ close :: e.rest := by
  simpa using scan_eq_some h

end Enclosed

end CreateTable.Lexical
