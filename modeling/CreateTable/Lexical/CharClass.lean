/-!
# Character classes

The classes of characters that lexemes are made of. Outside ASCII every character may stand in a
word, and none is a blank, a digit or a sign.

## Main definitions

- `isBlank` — characters that separate tokens
- `isHexDigit` — digits of blobs and of hexadecimal numbers
- `isWordStart`, `isWordPart` — characters of bare names and keywords
-/

namespace CreateTable.Lexical

/-- Space, tab, line feed, form feed and carriage return. -/
def isBlank (c : Char) : Bool :=
  c = ' ' || c = '\t' || c = '\n' || c = '\x0c' || c = '\r'

/-- The digits, and the letters from `a` to `f` in either case. -/
def isHexDigit (c : Char) : Bool :=
  c.isDigit || ('a' ≤ c && c ≤ 'f') || ('A' ≤ c && c ≤ 'F')

/-- The characters that begin a word: ASCII letters, the underscore and all that is not ASCII. -/
def isWordStart (c : Char) : Bool :=
  c.isAlpha || c = '_' || '\x80' ≤ c

/-- The characters that continue a word. -/
def isWordPart (c : Char) : Bool :=
  isWordStart c || c.isDigit || c = '$'

end CreateTable.Lexical
