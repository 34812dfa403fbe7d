import CreateTable.Grammar.ConflictClause
import CreateTable.Grammar.SignedNumber
import CreateTable.Grammar.SortClause
import CreateTable.Limits
import CreateTable.Parser.Ending

/-!
# Clauses

The procedures for names, directions, conflict clauses, numbers and expressions, which others call.

## Main definitions

- `Parser.name`, `Parser.nameList` — names
- `Parser.order` — `[ASC | DESC]`
- `Parser.conflictClause` — `[ON CONFLICT resolution]`
- `Parser.signedNumber` — `['+' | '-'] number`
- `Parser.expression` — `'(' … ')'`, the text between being held as it was written
-/

namespace CreateTable.Parser

open Grammar

-- ════════════════════════════════════════════════════════════════════════
-- Names
-- ════════════════════════════════════════════════════════════════════════

/-- A name. -/
def name (role : NameRole) : Parser String := do
  match (← current).name? with
  | some name =>
    let _ ← advance
    return name
  | none => refuse (.name role)

/-- One more name, behind others that stand latest first. -/
def nameTurn (role : NameRole) (names : List String) : Parser (List String ⊕ List String) := do
  let name ← name role
  if ← eat .comma then
    return .inl (name :: names)
  else
    return .inr (name :: names).reverse

/-- Names with commas between. -/
def nameList (role : NameRole) : Parser (List String) := loop (nameTurn role) []

theorem name_spends (role : NameRole) : Spends (name role) fun _ => True := by
  intro p
  refine .current ?_
  split
  · rename_i hname
    exact .advance_bind (Token.kind_ne_endOfInput_of_name? hname) fun _ => .pure id
  · exact Spends.refuse p

theorem nameTurn_spends (role : NameRole) (names : List String) :
    Spends (nameTurn role names) (·.isLeft) :=
  (name_spends role).bind_total fun _ => .eat_bind nofun (.pure id) (.pure id)

theorem nameList_total (role : NameRole) : Total (nameList role) :=
  .loop (nameTurn_spends role) []

-- ════════════════════════════════════════════════════════════════════════
-- Directions and conflicts
-- ════════════════════════════════════════════════════════════════════════

/-- A direction. -/
def order : Parser SortOrder := do
  if ← eatKeyword .asc then
    return .ascending
  else if ← eatKeyword .desc then
    return .descending
  else
    return .unspecified

/-- What is done about a conflict. -/
def conflictClause : Parser ConflictResolution := do
  if ← eatKeyword .on then
    let _ ← expectKeyword .conflict .conflictAfterOn
    match ConflictClause.resolution? (← current) with
    | some resolution =>
      let _ ← advance
      return resolution
    | none => refuse .resolution
  else
    return .unspecified

theorem order_total : Total order :=
  .eatKeyword_bind (.pure id) (.eatKeyword_bind (.pure id) (.pure id))

theorem conflictClause_total : Total conflictClause := by
  refine .eatKeyword_bind (Spends.expectKeyword_bind fun _ p => .current ?_) (.pure id)
  split
  · rename_i hresolution
    refine .advance_bind (fun hend => ?_) fun _ => .pure id
    simp [ConflictClause.resolution?, hend] at hresolution
  · exact Spends.refuse p

-- ════════════════════════════════════════════════════════════════════════
-- Numbers
-- ════════════════════════════════════════════════════════════════════════

/-- A sign, if one stands there. -/
def sign : Parser (List Token) := do
  if (← current).isSign then
    return [← advance]
  else
    return []

/-- A number with or without a sign. The tokens of it are given. -/
def signedNumber (what : Expectation) : Parser (List Token) := do
  let sign ← sign
  return sign ++ [← expect .number what]

theorem sign_total : Total sign := by
  intro p
  refine .current ?_
  split
  · rename_i hsign
    exact .advance_bind (Token.kind_ne_endOfInput_of_isSign hsign) fun _ => .pure id
  · exact Spends.pure id p

theorem signedNumber_spends (what : Expectation) : Spends (signedNumber what) fun _ => True :=
  sign_total.bind fun _ => .expect_bind nofun fun _ => .pure id

-- ════════════════════════════════════════════════════════════════════════
-- Expressions
-- ════════════════════════════════════════════════════════════════════════

/-- One more token of an expression, with so many inner parentheses open, behind other tokens that
    stand latest first. The outer closing parenthesis is left. -/
def expressionTurn (limits : Limits) :
    Nat × List Token → Parser (Nat × List Token ⊕ List Token)
  | (nested, read) => do
    let t ← current
    match t.kind, nested with
    | .endOfInput, _ => failHere .unbalanced
    | .leftParen, _ =>
      if nested + 2 ≤ limits.maxExprDepth then
        return .inl (nested + 1, (← advance) :: read)
      else
        failHere (.nestedTooDeep limits.maxExprDepth)
    | .rightParen, 0 => return .inr read
    | .rightParen, nested + 1 => return .inl (nested, (← advance) :: read)
    | _, _ => return .inl (nested, (← advance) :: read)

/-- The text between two parentheses. That there is none is found behind the closing one. -/
def expression (limits : Limits) : Parser String := do
  let _ ← expect .leftParen .openParen
  let read ← loop (expressionTurn limits) (0, [])
  let close ← advance
  if read.isEmpty then
    fail (close.unexpected .expression)
  else
    return Token.verbatim read.reverse

/-- A turn that goes on moves past a token, and the last one stands at a closing parenthesis. -/
theorem expressionTurn_ends (limits : Limits) (b : Nat × List Token) (p : Point) :
    Ends (expressionTurn limits b) p fun r ts q =>
      (∀ b, r = .inl b → ts ≠ []) ∧ ∀ a, r = .inr a → q.window.current.kind = .rightParen := by
  obtain ⟨nested, read⟩ := b
  have htake : ∀ nested' : Nat, p.window.current.kind ≠ .endOfInput →
      Ends (do return .inl (nested', (← advance) :: read)) p
        fun (r : Nat × List Token ⊕ List Token) ts q => (∀ b, r = .inl b → ts ≠ []) ∧
          ∀ a, r = .inr a → q.window.current.kind = .rightParen := by
    intro nested' hkind
    refine (Ends.advance hkind).bind fun t ts q _ hts => .pure ⟨fun _ _ => ?_, nofun⟩
    rwa [List.append_nil]
  refine .current ?_
  split
  · exact .fail
  · split
    · exact htake _ (by simp [*])
    · exact .fail
  · exact .pure ⟨nofun, fun _ _ => by assumption⟩
  · exact htake _ (by simp [*])
  · exact htake _ (by assumption)

theorem expressionTurn_spends (limits : Limits) (b : Nat × List Token) :
    Spends (expressionTurn limits b) (·.isLeft) := by
  refine fun p => (expressionTurn_ends limits b p).mono fun r ts _ hr hleft => ?_
  obtain ⟨b', rfl⟩ := Sum.isLeft_iff.1 hleft
  exact hr.1 b' rfl

theorem expression_spends (limits : Limits) : Spends (expression limits) fun _ => True := by
  refine .expect_bind nofun fun _ p => ?_
  refine (Ends.loop (expressionTurn_ends limits) (0, []) p).bind fun read ts q _ hclose => ?_
  refine (Ends.advance_bind (R := fun _ => False) ?_ fun close => ?_).mono ?_
  · simp [hclose]
  · split
    · exact .fail
    · exact .pure id
  · exact fun _ _ _ _ => nofun

end CreateTable.Parser
