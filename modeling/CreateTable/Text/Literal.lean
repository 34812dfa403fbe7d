import CreateTable.Text.Hidden

/-!
# Literals

A text on one line between double quotes, in which every character can be seen.

## Main definitions

- `literal` — the literal of a text
-/

namespace CreateTable.Text

/-- A character inside a literal. -/
def escape (c : Char) : List Char :=
  if c = '\x00' then ['\\', '0']
  else if c = '\t' then ['\\', 't']
  else if c = '\n' then ['\\', 'n']
  else if c = '\r' then ['\\', 'r']
  else if c = '\x22' then ['\\', '\x22']
  else if c = '\\' then ['\\', '\\']
  else if isHidden c then ['\\', 'u', '\x7b'] ++ Nat.toDigits 16 c.toNat ++ ['\x7d']
  else [c]

/-- The literal of a text. -/
def literal (text : String) : String :=
  String.ofList ('\x22' :: text.toList.flatMap escape ++ ['\x22'])

end CreateTable.Text
