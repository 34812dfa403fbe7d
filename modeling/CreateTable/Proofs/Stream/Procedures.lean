import CreateTable.Parser.Statement
import CreateTable.Proofs.Stream.Window

/-!
# What procedures read

Whatever a procedure does, it drops tokens from what is to come one by one, in order, and drops
nothing else. A loop drops at least one with each turn that goes on.

## Main definitions

- `IsProcedure` — the procedures of the parser
- `IsLoop` — the turns of its loops
- `Point.ReadsOn` — what a procedure may do to what is to come

## Main statements

- `Point.Leads.drops` — from point to point tokens are dropped
- `IsProcedure.readsOn` — every procedure ends, and drops tokens
- `IsLoop.loop_eq` — a loop is its first turn, and the loop behind it
- `IsLoop.drops` — a turn that goes on drops a token
- `IsLoop.ends` — every loop ends
-/

namespace CreateTable

open Lexical CreateTable.Parser

-- ════════════════════════════════════════════════════════════════════════
-- From point to point
-- ════════════════════════════════════════════════════════════════════════

namespace Point

variable {p q : Point} {ts : List Token}

/-- From point to point tokens are dropped, and nothing else. -/
theorem Leads.drops (h : p.Leads ts q) : p.window.Drops ts q.window := by
  induction h with
  | nil => exact .refl _
  | advance _ _ hw ih => exact ih.advance hw
  | peekSecond _ _ hw ih => exact ih.peekSecond hw

/-- A window that a run has passed is that of a point on the way. -/
theorem Leads.of_mem_passed (h : p.Leads ts q) {w : Window} (hw : w ∈ q.passed) :
    w ∈ p.passed ∨ ∃ us q', us <+: ts ∧ p.Leads us q' ∧ q'.window = w := by
  induction h with
  | nil => exact .inl hw
  | @advance q ts t w' hleads hend hmove ih =>
    obtain rfl | hw := List.mem_cons.1 hw
    · exact .inr ⟨ts, q, List.prefix_append ts [t], hleads, rfl⟩
    · obtain hpassed | ⟨us, q', hus, hleads'⟩ := ih hw
      · exact .inl hpassed
      · exact .inr ⟨us, q', hus.trans (List.prefix_append ts [t]), hleads'⟩
  | @peekSecond q ts t w' hleads hend hmove ih =>
    obtain rfl | hw := List.mem_cons.1 hw
    · exact .inr ⟨ts, q, List.prefix_rfl, hleads, rfl⟩
    · exact ih hw

/-- Behind a token that is the end of the text nothing is looked at. -/
theorem Leads.kind_current_ne (h : p.Leads ts q) (hp : p.window.lookahead = none)
    (hq : q.window.lookahead ≠ none) : q.window.current.kind ≠ .endOfInput := by
  cases h with
  | nil => exact absurd hp hq
  | advance _ _ hw => exact absurd (Window.lookahead_advance hw) hq
  | peekSecond _ hend hw =>
    rw [Window.current_peekSecond hw]
    exact hend

/-- The end of a text is not moved past. -/
theorem Leads.kind_ne (h : p.Leads ts q) : ∀ t ∈ ts, t.kind ≠ .endOfInput := by
  induction h with
  | nil => exact nofun
  | advance _ hend hw ih =>
    obtain ⟨rfl, -⟩ := Window.size_advance hw
    simpa [or_imp, forall_and, hend] using ih
  | peekSecond _ _ _ ih => exact ih

/-- What a procedure may do to what is to come: it drops tokens, and then it may call for one where
    there is none, which is an error. -/
inductive ReadsOn (p : Point) {α : Type} : Except ParseError α → Point → Prop
  | drops {result : Except ParseError α} {ts : List Token} {q : Point} :
    p.window.Drops ts q.window → ReadsOn p result q
  | faults {e : ParseError} {ts : List Token} {q q' : Point} :
    p.window.Drops ts q.window → q.Faults e q' → ReadsOn p (.error e) q'

theorem ReadsOn.of_outcome {α : Type} {Q : α → List Token → Point → Prop}
    {result : Except ParseError α} (h : Outcome p Q result q) : p.ReadsOn result q := by
  cases h with
  | ok hleads => exact .drops hleads.drops
  | refused hleads => exact .drops hleads.drops
  | fault hleads hfaults => exact .faults hleads.drops hfaults

end Point

-- ════════════════════════════════════════════════════════════════════════
-- Procedures
-- ════════════════════════════════════════════════════════════════════════

/-- The procedures of the parser. -/
inductive IsProcedure (limits : Limits) : {α : Type} → Parser α → Prop
  | eat {kind : TokenKind} : kind ≠ .endOfInput → IsProcedure limits (eat kind)
  | eatKeyword {word : Keyword} : IsProcedure limits (eatKeyword word)
  | expect {kind : TokenKind} {what : Expectation} : kind ≠ .endOfInput →
    IsProcedure limits (expect kind what)
  | expectKeyword {word : Keyword} {what : Expectation} :
    IsProcedure limits (expectKeyword word what)
  | name {role : NameRole} : IsProcedure limits (name role)
  | nameList {role : NameRole} : IsProcedure limits (nameList role)
  | order : IsProcedure limits order
  | conflictClause : IsProcedure limits conflictClause
  | signedNumber {what : Expectation} : IsProcedure limits (signedNumber what)
  | expression : IsProcedure limits (expression limits)
  | action : IsProcedure limits action
  | foreignKey : IsProcedure limits foreignKey
  | columnType {column : Column} : IsProcedure limits (columnType column)
  | default : IsProcedure limits (default limits)
  | columnConstraint {column : Column} : IsProcedure limits (columnConstraint limits column)
  | column : IsProcedure limits (column limits)
  | indexedColumns : IsProcedure limits indexedColumns
  | tableConstraint : IsProcedure limits (tableConstraint limits)
  | body : IsProcedure limits (body limits)
  | options {table : Table} : IsProcedure limits (options table)
  | statementEnd : IsProcedure limits statementEnd
  | createTable : IsProcedure limits (createTable limits)

variable {limits : Limits} {α β : Type}

theorem IsProcedure.total {x : Parser α} (h : IsProcedure limits x) : Total x := by
  cases h with
  | eat hkind => exact (Spends.eat hkind).total
  | eatKeyword => exact Spends.eatKeyword.total
  | expect hkind => exact (Spends.expect hkind).total
  | expectKeyword => exact Spends.expectKeyword.total
  | name => exact (name_spends _).total
  | nameList => exact nameList_total _
  | order => exact order_total
  | conflictClause => exact conflictClause_total
  | signedNumber => exact (signedNumber_spends _).total
  | expression => exact (expression_spends limits).total
  | action => exact action_total
  | foreignKey => exact foreignKey_spends.total
  | columnType => exact columnType_total _
  | default => exact default_total limits
  | columnConstraint => exact (columnConstraint_spends limits _).total
  | column => exact (column_spends limits).total
  | indexedColumns => exact indexedColumns_total
  | tableConstraint => exact (tableConstraint_spends limits).total
  | body => exact body_total limits
  | options => exact options_total _
  | statementEnd => exact statementEnd_total
  | createTable => exact createTable_total limits

/-- Every procedure ends, and drops tokens. -/
theorem IsProcedure.readsOn {x : Parser α} (h : IsProcedure limits x) (p : Point) :
    ∃ result q, x p = some (result, q) ∧ p.ReadsOn result q := by
  obtain ⟨result, q, hx, houtcome⟩ := h.total p
  exact ⟨result, q, hx, .of_outcome houtcome⟩

-- ════════════════════════════════════════════════════════════════════════
-- Loops
-- ════════════════════════════════════════════════════════════════════════

/-- The turns of the loops of the parser. -/
inductive IsLoop (limits : Limits) : {α β : Type} → (β → Parser (β ⊕ α)) → Prop
  | names {role : NameRole} : IsLoop limits (nameTurn role)
  | expression : IsLoop limits (expressionTurn limits)
  | foreignKey : IsLoop limits foreignKeyTurn
  | typeWords : IsLoop limits typeTurn
  | columnConstraints : IsLoop limits (columnConstraint limits)
  | indexedColumns : IsLoop limits indexedColumnTurn
  | body : IsLoop limits (bodyTurn limits)
  | options : IsLoop limits optionTurn
  | semicolons : IsLoop limits semicolonTurn

theorem IsLoop.spends {turn : β → Parser (β ⊕ α)} (h : IsLoop limits turn) (b : β) :
    Spends (turn b) (·.isLeft) := by
  cases h with
  | names => exact nameTurn_spends _ b
  | expression => exact expressionTurn_spends limits b
  | foreignKey => exact foreignKeyTurn_spends b
  | typeWords => exact typeTurn_spends b
  | columnConstraints => exact columnConstraint_spends limits b
  | indexedColumns => exact indexedColumnTurn_spends b
  | body => exact bodyTurn_spends limits b
  | options => exact optionTurn_spends b
  | semicolons => exact semicolonTurn_spends b

/-- A loop is its first turn, and the loop behind it if that goes on. -/
theorem IsLoop.loop_eq {turn : β → Parser (β ⊕ α)} (h : IsLoop limits turn) (b : β) :
    loop turn b = turn b >>= Sum.elim (loop turn) pure := loop_eq_bind h.spends b

/-- A turn that goes on drops a token at least. -/
theorem IsLoop.drops {turn : β → Parser (β ⊕ α)} (h : IsLoop limits turn) {b b' : β} {p q : Point}
    (hturn : turn b p = some (.ok (.inl b'), q)) :
    ∃ ts, ts ≠ [] ∧ p.window.Drops ts q.window := by
  obtain ⟨result, q', hx, houtcome⟩ := h.spends b p
  rw [hturn] at hx
  cases hx
  cases houtcome with
  | ok hleads hts => exact ⟨_, hts rfl, hleads.drops⟩

/-- Every loop ends. -/
theorem IsLoop.ends {turn : β → Parser (β ⊕ α)} (h : IsLoop limits turn) (b : β) (p : Point) :
    ∃ result q, loop turn b p = some (result, q) ∧ p.ReadsOn result q := by
  obtain ⟨result, q, hx, houtcome⟩ := Total.loop h.spends b p
  exact ⟨result, q, hx, .of_outcome houtcome⟩

end CreateTable
