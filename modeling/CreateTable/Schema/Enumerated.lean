/-!
# Enumerated clauses

The small types of a schema have numbered and labelled values. Numbers start at zero and follow one
order, in which the value for an absent clause comes first.

## Main definitions

- `Enumerated` — a type with values in order, each with a label
- `Enumerated.code`, `Enumerated.ofCode` — from values to numbers and back
- `InvalidCode` — a number without a value
-/

namespace CreateTable

/-- A number that stands for no value of a type. -/
structure InvalidCode where
  /-- The label of the type. -/
  typeLabel : String
  code : Nat
  deriving Repr, DecidableEq

/-- The text of an invalid code. -/
def InvalidCode.message (e : InvalidCode) : String :=
  toString e.code ++ " is not a valid " ++ e.typeLabel ++ " discriminant"

/-- A type with values in a fixed order, each with a label. -/
class Enumerated (α : Type) where
  /-- The label of the type. -/
  typeLabel : String
  /-- All values. The number of a value is its position. -/
  values : List α
  /-- The label of a value. -/
  label : α → String

namespace Enumerated

variable {α : Type} [Enumerated α]

/-- The number of a value. -/
def code [BEq α] (a : α) : Nat := (values : List α).idxOf a

/-- The value with a number. -/
def ofCode (n : Nat) : Except InvalidCode α :=
  match (values : List α)[n]? with
  | some a => .ok a
  | none => .error ⟨typeLabel α, n⟩

/-- A listed value is the one with its number. -/
theorem ofCode_code [BEq α] [LawfulBEq α] {a : α} (h : a ∈ (values : List α)) :
    ofCode (code a) = .ok a := by
  have hlt := List.idxOf_lt_length_of_mem h
  simp [ofCode, code, List.getElem?_eq_getElem hlt]

end Enumerated

end CreateTable
