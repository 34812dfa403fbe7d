import CreateTable.Grammar.Name
import CreateTable.Limits

/-!
# Expressions

`'(' … ')'`, of which nothing is looked at but the parentheses. The text between the outer pair is
held as it was written, from its first token through its last.

## Main definitions

- `Expression.step` — reads an expression in parentheses

## Design notes

An expression without a token is refused only when the token behind it is offered, so a fault right
behind it is reported first.
-/

namespace CreateTable.Grammar.Expression

open Verdict

/-- Where an expression is. -/
inductive State where
  /-- The outer opening parenthesis is due. -/
  | opening
  /-- Inside, with so many inner parentheses open, behind some tokens, latest first. -/
  | inside (nested : Nat) (read : List Token)
  /-- The expression is closed. -/
  | closed (text : String)
  /-- The parentheses are closed, and hold nothing. -/
  | empty (close : Token)
  deriving Repr, DecidableEq

/-- The state behind the outer closing parenthesis. -/
def close (read : List Token) (t : Token) : State :=
  if read.isEmpty then .empty t else .closed (Token.verbatim read.reverse)

/-- The verdict on a token of an expression. -/
def step (limits : Limits) : State → Token → Verdict State String
  | .opening, t => takeKind t .leftParen .openParen (.inside 0 [])
  | .inside nested read, t =>
    match t.kind, nested with
    | .endOfInput, _ => .refused (t.error .unbalanced)
    | .leftParen, _ =>
      if nested + 2 ≤ limits.maxExprDepth then .taken (.inside (nested + 1) (t :: read))
      else .refused (t.error (.nestedTooDeep limits.maxExprDepth))
    | .rightParen, 0 => .taken (close read t)
    | .rightParen, nested + 1 => .taken (.inside nested (t :: read))
    | _, _ => .taken (.inside nested (t :: read))
  | .closed text, _ => .complete text
  | .empty close, _ => close.refuse .expression

theorem step_sparesEnd (limits : Limits) (s : State) (t : Token) :
    (step limits s t).SparesEnd t := by
  unfold step
  split
  · exact sparesEnd_takeKind _ _ _ (by simp)
  · split
    · simp
    · split
      · simp [*]
      · simp
    · simp [*]
    · simp [*]
    · exact sparesEnd_taken.2 (by assumption)
  · simp
  · simp

end CreateTable.Grammar.Expression
