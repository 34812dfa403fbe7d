/-!
# Limits

How large a statement may be. The same limits are in force for a whole statement.

## Main definitions

- `Limits` — the limits, with their usual values
-/

namespace CreateTable

/-- How large a statement may be. -/
structure Limits where
  /-- The most bytes of a statement. -/
  maxSqlLength : Nat := 1000000
  /-- The most columns of a table. -/
  maxColumns : Nat := 2000
  /-- The most parentheses of an expression that may be open at once. The outer pair counts, but
      one pair is always allowed. -/
  maxExprDepth : Nat := 1000
  deriving Repr, DecidableEq, Inhabited

end CreateTable
