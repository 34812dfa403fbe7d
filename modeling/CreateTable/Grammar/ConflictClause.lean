import CreateTable.Grammar.Name
import CreateTable.Schema.Clause

/-!
# Conflict clauses

`[ON CONFLICT (ROLLBACK | ABORT | FAIL | IGNORE | REPLACE)]`

## Main definitions

- `ConflictClause.step` — reads a conflict clause, which may be absent
-/

namespace CreateTable.Grammar.ConflictClause

open Verdict

/-- Where a conflict clause is. -/
inductive State where
  /-- `ON`, or nothing of a clause. -/
  | start
  /-- `CONFLICT` is due. -/
  | conflict
  /-- A resolution is due. -/
  | resolution
  /-- The clause is read. -/
  | closed (resolution : ConflictResolution)
  deriving Repr, DecidableEq

/-- The resolution that a token names. -/
def resolution? (t : Token) : Option ConflictResolution :=
  match t.kind with
  | .keyword word => ConflictResolution.ofKeyword? word
  | _ => none

/-- The verdict on a token of a conflict clause. -/
def step : State → Token → Verdict State ConflictResolution
  | .start, t => if t.isKeyword .on then .taken .conflict else .complete .unspecified
  | .conflict, t => takeKeyword t .conflict .conflictAfterOn .resolution
  | .resolution, t =>
    match resolution? t with
    | some r => .taken (.closed r)
    | none => t.refuse .resolution
  | .closed r, _ => .complete r

theorem step_sparesEnd (s : State) (t : Token) : (step s t).SparesEnd t := by
  unfold step
  split
  · split
    · exact sparesEnd_taken.2 (Token.kind_ne_endOfInput_of_isKeyword ‹_›)
    · simp
  · exact sparesEnd_takeKeyword _ _ _ _
  · split
    · rename_i h
      exact sparesEnd_taken.2 fun hend => by simp [resolution?, hend] at h
    · simp
  · simp

end CreateTable.Grammar.ConflictClause
