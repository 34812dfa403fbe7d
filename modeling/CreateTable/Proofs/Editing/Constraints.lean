import CreateTable.Proofs.Editing.Columns
import CreateTable.Proofs.Editing.Splicing
import CreateTable.Proofs.Rendering.Column

/-!
# The order of the constraints on a column

Two neighbouring constraints on a column that are of different kinds may be exchanged, with all that
belongs to them, unless both have names.

## Main definitions

- `ColumnConstraint.keyword` — the word that a constraint begins with
- `Statement.Neighbours` — two neighbouring constraints on a column, and the tokens around them

## Main statements

- `Column.add_comm` — constraints of different kinds act on a column in either order
- `Statement.Derives.exists_neighbours` — neighbouring constraints on a column are neighbours among
  the tokens
- `parse_exchanged_constraints` — neighbouring constraints may be exchanged
-/

namespace CreateTable

open Lexical Grammar Token

-- ════════════════════════════════════════════════════════════════════════
-- Effects on a column
-- ════════════════════════════════════════════════════════════════════════

/-- The word that a constraint begins with, behind its name. It tells the kinds apart. -/
def ColumnConstraint.keyword : ColumnConstraint → Keyword
  | .primaryKey .. => .primary
  | .notNull _ => .not
  | .null => .null
  | .unique _ => .unique
  | .check _ => .check
  | .default _ => .default
  | .collate _ => .collate
  | .references _ => .references

theorem Grammar.ColumnConstraint.Derives.keyword_eq {depth : Nat} {ts : List Token}
    {k : CreateTable.ColumnConstraint} (h : Derives depth ts k) :
    ∃ t us, ts = t :: us ∧ t.kind = .keyword k.keyword := by
  cases h with
  | primaryKey hword => exact ⟨_, _, rfl, hword⟩
  | notNull hword => exact ⟨_, _, rfl, hword⟩
  | null hword => exact ⟨_, _, rfl, hword⟩
  | unique hword => exact ⟨_, _, rfl, hword⟩
  | check hword => exact ⟨_, _, rfl, hword⟩
  | defaultExpression hword => exact ⟨_, _, rfl, hword⟩
  | defaultNumber hword => exact ⟨_, _, rfl, hword⟩
  | defaultLiteral hword => exact ⟨_, _, rfl, hword⟩
  | collate hword => exact ⟨_, _, rfl, hword⟩
  | references hword => exact ⟨_, _, rfl, hword⟩

namespace Column

variable {c : Column} {a b : WrittenConstraint}

theorem constrain_comm {k k' : ColumnConstraint} (h : k.keyword ≠ k'.keyword) :
    (c.constrain k).constrain k' = (c.constrain k').constrain k := by
  cases k <;> cases k' <;> first | rfl | exact absurd rfl h

/-- A constraint does not touch the name that is kept. -/
theorem constrain_constraintName (c : Column) (name : Option String) (k : ColumnConstraint) :
    { c with constraintName := name }.constrain k =
      { c.constrain k with constraintName := name } := by
  cases k <;> rfl

theorem add_eq (c : Column) (w : WrittenConstraint) :
    c.add w = { c.constrain w.constraint with constraintName := w.name.or c.constraintName } :=
  constrain_constraintName c _ _

/-- Constraints of different kinds act on a column in either order, unless both have names. -/
theorem add_comm (hkeyword : a.constraint.keyword ≠ b.constraint.keyword)
    (hname : a.name = none ∨ b.name = none) : (c.add a).add b = (c.add b).add a := by
  have hnames : b.name.or (a.name.or c.constraintName) =
      a.name.or (b.name.or c.constraintName) := by
    obtain hname | hname := hname <;> simp [hname]
  simp only [add_eq, constrain_constraintName, constrain_comm hkeyword, hnames]

end Column

-- ════════════════════════════════════════════════════════════════════════
-- Neighbouring constraints
-- ════════════════════════════════════════════════════════════════════════

namespace Grammar

variable {depth : Nat} {ts us before as bs after : List Token} {a b : WrittenConstraint}

/-- More constraints behind a column. -/
theorem Column.Derives.append {w : WrittenColumn} {ws : List WrittenConstraint}
    (h : Derives depth ts w) (h' : Constraints depth us ws) :
    Derives depth (ts ++ us) { w with constraints := w.constraints ++ ws } := by
  obtain ⟨hname, htype, hconstraints⟩ := h
  rw [List.append_assoc]
  exact .intro hname htype (hconstraints.append h')

/-- Constraints are taken apart where any of them ends. -/
theorem Column.Constraints.split {ws ws' : List WrittenConstraint}
    (h : Constraints depth ts (ws ++ ws')) :
    ∃ us vs, ts = us ++ vs ∧ Constraints depth us ws ∧ Constraints depth vs ws' := by
  induction ws generalizing ts with
  | nil => exact ⟨[], ts, rfl, .nil, h⟩
  | cons w ws ih =>
    obtain _ | ⟨hname, hconstraint, hrest⟩ := h
    obtain ⟨us, vs, rfl, hus, hvs⟩ := ih hrest
    exact ⟨_, vs, (List.append_assoc ..).symm, .cons hname hconstraint hus, hvs⟩

theorem Column.Constraints.ne_nil {ws : List WrittenConstraint} (h : Constraints depth ts (a :: ws)) :
    ts ≠ [] := by
  obtain _ | ⟨-, hconstraint, -⟩ := h
  obtain ⟨t, us, rfl, -⟩ := hconstraint.keyword_eq
  simp

namespace Statement

/-- Two neighbouring constraints on a column: what stands before them in the statement, either of
    them with its tokens, and what stands behind them. -/
inductive Neighbours (depth : Nat) :
    List Token → List Token → WrittenConstraint → List Token → WrittenConstraint →
      List Token → Prop
  | intro {before front as bs rest after : List Token} {w : WrittenColumn}
      {a b : WrittenConstraint} {more : List WrittenConstraint} :
    AroundColumn depth before after → Column.Derives depth front w →
    Column.Constraints depth as [a] → Column.Constraints depth bs [b] →
    Column.Constraints depth rest more →
    Neighbours depth (before ++ front) as a bs b (rest ++ after)

/-- Where constraints stand next to each other in a column of a statement, they do so among the
    tokens. -/
theorem Derives.exists_neighbours {written : List WrittenColumn} {table : Table}
    {w : WrittenColumn} {front more : List WrittenConstraint} (h : Derives depth ts written table)
    (hw : w ∈ written) (hconstraints : w.constraints = front ++ a :: b :: more) :
    ∃ before as bs after, ts = before ++ as ++ bs ++ after ∧
      Neighbours depth before as a bs b after := by
  obtain ⟨before, us, after, rfl, haround, hus⟩ := h.exists_column hw
  obtain @⟨t, types, vs, name, type, length, constraints, hname, htype, hvs⟩ := hus
  obtain rfl : constraints = front ++ ([a] ++ ([b] ++ more)) := hconstraints
  obtain ⟨fs, vs, rfl, hfs, hvs⟩ := hvs.split
  obtain ⟨as, vs, rfl, has, hvs⟩ := hvs.split
  obtain ⟨bs, rest, rfl, hbs, hrest⟩ := hvs.split
  have hneighbours : Neighbours depth _ as a bs b _ :=
    .intro haround (.intro hname htype hfs) has hbs hrest
  exact ⟨_, as, bs, _, by simp, hneighbours⟩

variable {limits : Limits} {written : List WrittenColumn} {table : Table}

/-- Two neighbouring constraints of different kinds are read as the same the other way round. -/
theorem Admits.exchange {as' bs' after' : List Token}
    (hab : Neighbours limits.maxExprDepth before as a bs b after)
    (hkeyword : a.constraint.keyword ≠ b.constraint.keyword) (hname : a.name = none ∨ b.name = none)
    (hbs : Shifted bs bs') (has : Shifted as as') (hafter : Shifted after after')
    (h : Admits limits (before ++ as ++ bs ++ after) written table) :
    ∃ written', Admits limits (before ++ bs' ++ as' ++ after') written' table := by
  obtain @⟨before, front, _, _, rest, after, w, _, _, more, haround, hfront, ha, hb, hrest⟩ := hab
  obtain ⟨rest', _, rfl, hrest', -⟩ := exists_append_of_forall₂ hafter.alike
  obtain ⟨hrest', hafter'⟩ := hafter.of_append hrest'.length_eq
  obtain ⟨u, vs, -, rfl, -⟩ := hfront.exists_name
  have hw := hfront.append ((ha.append hb).append hrest)
  have hw' := hfront.append
    (((hb.of_shifted hbs).append (ha.of_shifted has)).append (hrest.of_shifted hrest'))
  have hcolumn : ({ w with constraints := w.constraints ++ ([a] ++ [b] ++ more) } :
      WrittenColumn).column =
      ({ w with constraints := w.constraints ++ ([b] ++ [a] ++ more) } : WrittenColumn).column := by
    simp [WrittenColumn.column, Column.add_comm hkeyword hname]
  obtain ⟨written', hadmits⟩ :=
    Admits.replace_column haround hw hw' hcolumn hafter' (by simpa using h)
  exact ⟨written', by simpa using hadmits⟩

end Statement

end Grammar

-- ════════════════════════════════════════════════════════════════════════
-- Texts
-- ════════════════════════════════════════════════════════════════════════

/-- Neighbouring constraints on a column that are of different kinds, and of which at most one has a
    name, may be exchanged with all that belongs to them. The table stays the same under limits that
    allow for the spaces. -/
theorem parse_exchanged_constraints {limits : Limits} {sql : String} {table : Table}
    {before as bs after : List Token} {a b : WrittenConstraint} {gap gap' gap'' : List Char}
    {length : Nat} (h : parse limits sql = .ok table)
    (htokens : tokenize sql.toList = .ok (before ++ as ++ bs ++ after))
    (hab : Statement.Neighbours limits.maxExprDepth before as a bs b after)
    (hkeyword : a.constraint.keyword ≠ b.constraint.keyword) (hname : a.name = none ∨ b.name = none)
    (hgap : Trivia.Separator gap) (hgap' : Trivia.Separator gap') (hgap'' : Trivia.Separator gap'')
    (hlength : (exchanged sql as bs gap gap' gap'').utf8ByteSize ≤ length) :
    parse { limits with maxSqlLength := length } (exchanged sql as bs gap gap' gap'') =
      .ok table := by
  obtain ⟨has, hbs⟩ : as ≠ [] ∧ bs ≠ [] := by
    obtain ⟨-, -, ha, hb, -⟩ := hab
    exact ⟨ha.ne_nil, hb.ne_nil⟩
  refine parse_exchanged h htokens has hbs hgap hgap' hgap'' ?_ hlength
  intro bs' as' after' written hbs' has' hafter' hadmits
  exact hadmits.exchange hab hkeyword hname hbs' has' hafter'

/-- A foreign key with a name, and behind it a `NOT` that might belong to it. -/
theorem parse_exchanged_constraints_references :
    ∃ before as bs after a b,
      tokenize "CREATE TABLE t(x CONSTRAINT k REFERENCES u NOT NULL)".toList =
        .ok (before ++ as ++ bs ++ after) ∧
      Statement.Neighbours 1000 before as a bs b after ∧
      a.constraint.keyword ≠ b.constraint.keyword ∧ (a.name = none ∨ b.name = none) ∧
      exchanged "CREATE TABLE t(x CONSTRAINT k REFERENCES u NOT NULL)" as bs [' '] [' '] [' '] =
        "CREATE TABLE t(x  NOT NULL CONSTRAINT k REFERENCES u )" ∧
      parse { maxSqlLength := 54 } "CREATE TABLE t(x  NOT NULL CONSTRAINT k REFERENCES u )" = .ok
        { name := "t"
          columns := [{ name := "x", constraintName := "k", notNull := true,
                        foreignKey := some { table := "u" } }] } := by
  have hparse : parse {} "CREATE TABLE t(x CONSTRAINT k REFERENCES u NOT NULL)" = .ok
      { name := "t"
        columns := [{ name := "x", constraintName := "k", notNull := true,
                      foreignKey := some { table := "u" } }] } :=
    parse_eq_ok.2 ⟨by decide, eq_ok_of_toOption (by decide +kernel)⟩
  have htokens : tokenize "CREATE TABLE t(x CONSTRAINT k REFERENCES u NOT NULL)".toList = .ok
      ([⟨.keyword .create, [], "CREATE".toList, 0⟩, ⟨.keyword .table, [' '], "TABLE".toList, 7⟩,
          ⟨.identifier, [' '], ['t'], 13⟩, ⟨.leftParen, [], ['('], 14⟩,
          ⟨.identifier, [], ['x'], 15⟩] ++
        [⟨.keyword .constraint, [' '], "CONSTRAINT".toList, 17⟩, ⟨.identifier, [' '], ['k'], 28⟩,
          ⟨.keyword .references, [' '], "REFERENCES".toList, 30⟩,
          ⟨.identifier, [' '], ['u'], 41⟩] ++
        [⟨.keyword .not, [' '], "NOT".toList, 43⟩, ⟨.keyword .null, [' '], "NULL".toList, 47⟩] ++
        [⟨.rightParen, [], [')'], 51⟩]) :=
    eq_ok_of_toOption (by decide +kernel)
  have hname : (⟨.identifier, [' '], ['t'], 13⟩ : Token).name? = some "t" := by decide +kernel
  have hheader : Statement.Header
      ([⟨.keyword .create, [], "CREATE".toList, 0⟩, ⟨.keyword .table, [' '], "TABLE".toList, 7⟩] ++
        [] ++ [⟨.identifier, [' '], ['t'], 13⟩]) :=
    .intro (.intro rfl .absent rfl) .absent (.plain hname)
  have haround : Statement.AroundColumn 1000 (_ ++ [⟨.leftParen, [], ['('], 14⟩])
      [⟨.rightParen, [], [')'], 51⟩] :=
    .intro hheader rfl .nil (.inr rfl)
  have hfront : Column.Derives 1000 ([⟨.identifier, [], ['x'], 15⟩] ++ []) ⟨"x", none, none, []⟩ :=
    .intro (by decide +kernel) .absent .nil
  have hkey : References.Derives [⟨.identifier, [' '], ['u'], 41⟩] { table := "u" } :=
    .plain (by decide +kernel) .nil
  have ha : Column.Constraints 1000
      ([⟨.keyword .constraint, [' '], "CONSTRAINT".toList, 17⟩, ⟨.identifier, [' '], ['k'], 28⟩] ++
        [⟨.keyword .references, [' '], "REFERENCES".toList, 30⟩,
          ⟨.identifier, [' '], ['u'], 41⟩] ++ [])
      [⟨some "k", .references { table := "u" }⟩] :=
    .cons (.present rfl (by decide +kernel)) (.references rfl hkey) .nil
  have hb : Column.Constraints 1000
      ([] ++ [⟨.keyword .not, [' '], "NOT".toList, 43⟩, ⟨.keyword .null, [' '], "NULL".toList, 47⟩] ++
        []) [⟨none, .notNull .unspecified⟩] :=
    .cons .absent (.notNull rfl rfl .absent) .nil
  have hab := Statement.Neighbours.intro haround hfront ha hb .nil
  have hexchanged : exchanged "CREATE TABLE t(x CONSTRAINT k REFERENCES u NOT NULL)"
      [⟨.keyword .constraint, [' '], "CONSTRAINT".toList, 17⟩, ⟨.identifier, [' '], ['k'], 28⟩,
        ⟨.keyword .references, [' '], "REFERENCES".toList, 30⟩, ⟨.identifier, [' '], ['u'], 41⟩]
      [⟨.keyword .not, [' '], "NOT".toList, 43⟩, ⟨.keyword .null, [' '], "NULL".toList, 47⟩]
      [' '] [' '] [' '] = "CREATE TABLE t(x  NOT NULL CONSTRAINT k REFERENCES u )" := by
    decide +kernel
  have hgap : Trivia.Separator [' '] := ⟨⟨' ', rfl, rfl⟩, .blank rfl .nil⟩
  refine ⟨_, _, _, _, _, _, htokens, hab, by decide, .inr rfl, hexchanged, ?_⟩
  rw [← hexchanged]
  exact @parse_exchanged_constraints {} _ _ _ _ _ _ _ _ _ _ _ _ hparse htokens hab (by decide)
    (.inr rfl) hgap hgap hgap (by decide +kernel)

end CreateTable
