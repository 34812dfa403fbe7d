import CreateTable.Grammar.Name

/-!
# Signed numbers

`['+' | '-'] number`

## Main definitions

- `SignedNumber.step` — reads a number and gives its tokens
-/

namespace CreateTable

/-- Whether a token is a plus or a minus. -/
def Token.isSign (t : Token) : Bool :=
  t.kind == .operator && (t.text == ['+'] || t.text == ['-'])

theorem Token.kind_ne_endOfInput_of_isSign {t : Token} (h : t.isSign) : t.kind ≠ .endOfInput := by
  intro hend
  simp [isSign, hend] at h

namespace Grammar.SignedNumber

open Verdict

/-- Where a signed number is. -/
inductive State where
  /-- A sign or a number is due. -/
  | start
  /-- A number is due. -/
  | signed (sign : Token)
  /-- The number is read. -/
  | closed (tokens : List Token)
  deriving Repr, DecidableEq

/-- The verdict on a token of a signed number. -/
def step (what : Expectation) : State → Token → Verdict State (List Token)
  | .start, t =>
    if t.kind = .number then .taken (.closed [t])
    else if t.isSign then .taken (.signed t)
    else t.refuse what
  | .signed sign, t => takeKind t .number what (.closed [sign, t])
  | .closed tokens, _ => .complete tokens

theorem step_sparesEnd (what : Expectation) (s : State) (t : Token) :
    (step what s t).SparesEnd t := by
  unfold step
  split
  · split
    · simp [*]
    · split
      · exact sparesEnd_taken.2 (Token.kind_ne_endOfInput_of_isSign ‹_›)
      · simp
  · exact sparesEnd_takeKind _ _ _ (by simp)
  · simp

end Grammar.SignedNumber

end CreateTable
