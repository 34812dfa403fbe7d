/-!
# JSON

Values with ordered members, and their indented text.

## Main definitions

- `Json.Value` — a value
- `Json.quote` — a text as a JSON string
- `Json.pretty` — a value over several lines

## Design notes

Members stand in the order they are given. Text is written as it is but for quotes, backslashes and
control characters. An empty list stays on its line.
-/

namespace CreateTable.Json

/-- A value. Numbers are left out, since no model holds any. -/
inductive Value where
  | null
  | bool (b : Bool)
  | string (s : String)
  | list (items : List Value)
  | object (members : List (String × Value))

-- ════════════════════════════════════════════════════════════════════════
-- Strings
-- ════════════════════════════════════════════════════════════════════════

/-- The digit of a number below sixteen. -/
def hexDigit (n : Nat) : Char := Nat.digitChar n

/-- A character inside a string. -/
def escape (c : Char) : List Char :=
  if c = '\x22' then ['\\', '\x22']
  else if c = '\\' then ['\\', '\\']
  else if c = '\x08' then ['\\', 'b']
  else if c = '\t' then ['\\', 't']
  else if c = '\n' then ['\\', 'n']
  else if c = '\x0c' then ['\\', 'f']
  else if c = '\r' then ['\\', 'r']
  else if c < ' ' then ['\\', 'u', '0', '0', hexDigit (c.toNat / 16), hexDigit (c.toNat % 16)]
  else [c]

/-- A text as a string. -/
def quote (s : String) : String :=
  String.ofList ('\x22' :: s.toList.flatMap escape ++ ['\x22'])

-- ════════════════════════════════════════════════════════════════════════
-- Values
-- ════════════════════════════════════════════════════════════════════════

/-- A line feed and the blanks before the next line, two for each level. -/
def newline (level : Nat) : String :=
  String.ofList ('\n' :: List.replicate (2 * level) ' ')

mutual

/-- Writes a value at a level behind `text`. -/
def write (level : Nat) (text : String) : Value → String
  | .null => text ++ "null"
  | .bool true => text ++ "true"
  | .bool false => text ++ "false"
  | .string s => text ++ quote s
  | .list [] => text ++ "[]"
  | .list (item :: items) =>
    writeItems (level + 1) (write (level + 1) (text ++ "[" ++ newline (level + 1)) item) items
      ++ newline level ++ "]"
  | .object [] => text ++ "\x7b\x7d"
  | .object ((name, value) :: members) =>
    writeMembers (level + 1)
        (write (level + 1) (text ++ "\x7b" ++ newline (level + 1) ++ quote name ++ ": ") value)
        members
      ++ newline level ++ "\x7d"

/-- Writes further items of a list. -/
def writeItems (level : Nat) (text : String) : List Value → String
  | [] => text
  | item :: items => writeItems level (write level (text ++ "," ++ newline level) item) items

/-- Writes further members of an object. -/
def writeMembers (level : Nat) (text : String) : List (String × Value) → String
  | [] => text
  | (name, value) :: members =>
    writeMembers level (write level (text ++ "," ++ newline level ++ quote name ++ ": ") value)
      members

end

/-- A value over several lines. -/
def pretty (v : Value) : String := write 0 "" v

end CreateTable.Json
