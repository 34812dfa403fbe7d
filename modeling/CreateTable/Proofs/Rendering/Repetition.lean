import CreateTable.Proofs.Grammar.Exactness
import CreateTable.Proofs.Rendering.Clauses

/-!
# Repeated constraints on a column

A column holds one check and one foreign key. Of the `CHECK` and `REFERENCES` constraints that are
written on a column, the last one of each kind is held, and it is written in the statement of the
table. Nothing is lost where no constraint is repeated.

## Main definitions

- `WrittenColumn.checks`, `WrittenColumn.foreignKeys` — what is written on a column
- `WrittenColumn.KeptIn` — what a column and a statement keep of a written column

## Main statements

- `Column.foldl_add_field` — what the constraints on a column leave in one of its fields
- `keptIn_of_parse` — what is left of the constraints in a text
- `check_lost_of_repeated` — of two checks on a column the first is lost
-/

namespace CreateTable

open Grammar

variable {limits : Limits} {sql : String} {t : Table} {c : Column}

/-- The expression of a `CHECK`. -/
def ColumnConstraint.check? : ColumnConstraint → Option String
  | .check text => some text
  | _ => none

/-- What a `REFERENCES` refers to. -/
def ColumnConstraint.references? : ColumnConstraint → Option ForeignKey
  | .references key => some key
  | _ => none

/-- The expressions of the `CHECK` constraints that are written on a column. -/
def WrittenColumn.checks (w : WrittenColumn) : List String :=
  w.constraints.filterMap (·.constraint.check?)

/-- What the `REFERENCES` constraints that are written on a column refer to. -/
def WrittenColumn.foreignKeys (w : WrittenColumn) : List ForeignKey :=
  w.constraints.filterMap (·.constraint.references?)

/-- A field that some constraints set holds what the last of them says, or what it held before. -/
theorem Column.foldl_add_field {α : Type} {field : Column → Option α}
    {write : ColumnConstraint → Option α}
    (hadd : ∀ c w, field (Column.add c w) = (write w.constraint).or (field c))
    (ws : List WrittenConstraint) (c : Column) :
    field (ws.foldl Column.add c) =
      (ws.filterMap (write ·.constraint)).getLast?.or (field c) := by
  induction ws generalizing c with
  | nil => rfl
  | cons w ws ih =>
    rw [List.foldl_cons, ih, hadd]
    cases hw : write w.constraint with
    | none => simp [hw]
    | some a =>
      simp only [List.filterMap_cons, hw, List.getLast?_cons]
      cases (ws.filterMap (write ·.constraint)).getLast? <;> rfl

theorem WrittenColumn.check_column (w : WrittenColumn) : w.column.check = w.checks.getLast? := by
  have hadd : ∀ (c : Column) w, (c.add w).check = w.constraint.check?.or c.check := by
    rintro c ⟨name, k⟩
    cases k <;> rfl
  rw [column, Column.foldl_add_field hadd, checks, Option.or_none]

theorem WrittenColumn.foreignKey_column (w : WrittenColumn) :
    w.column.foreignKey = w.foreignKeys.getLast? := by
  have hadd : ∀ (c : Column) w,
      (c.add w).foreignKey = w.constraint.references?.or c.foreignKey := by
    rintro c ⟨name, k⟩
    cases k <;> rfl
  rw [column, Column.foldl_add_field hadd, foreignKeys, Option.or_none]

-- ════════════════════════════════════════════════════════════════════════
-- Where a statement holds its parts
-- ════════════════════════════════════════════════════════════════════════

theorem infix_spaced {clause : String} {clauses : List String} (h : clause ∈ clauses) :
    clause.toList <:+: spaced clauses := by
  obtain ⟨front, back, rfl⟩ := List.append_of_mem h
  exact ⟨spaced front ++ [' '], spaced back, by simp⟩

theorem infix_renderClauses {clause : String} {clauses : List String} (h : clause ∈ clauses) :
    clause.toList <:+: (renderClauses clauses).toList := by
  cases clauses with
  | nil => cases h
  | cons first clauses =>
    rw [toList_renderClauses_cons]
    obtain rfl | h := List.mem_cons.1 h
    · exact (List.prefix_append ..).isInfix
    · exact (infix_spaced h).trans (List.suffix_append ..).isInfix

theorem infix_renderList {item : String} {items : List String} (h : item ∈ items) :
    item.toList <:+: (renderList items).toList := by
  cases items with
  | nil => cases h
  | cons first items =>
    rw [toList_renderList_cons]
    obtain rfl | h := List.mem_cons.1 h
    · exact (List.prefix_append ..).isInfix
    · obtain ⟨front, back, rfl⟩ := List.append_of_mem h
      exact ⟨first.toList ++ listed front ++ [',', ' '], listed back, by simp [listed]⟩

/-- The statement of a table holds those of its columns. -/
theorem Table.infix_render (h : c ∈ t.columns) : c.render.toList <:+: t.render.toList := by
  have hbody : c.render.toList <:+: ("(" ++ t.renderBody ++ ")").toList := by
    simp only [renderBody, String.toList_append, List.append_assoc]
    have hlist := infix_renderList (List.mem_map_of_mem h : c.render ∈ t.columns.map Column.render)
    exact (hlist.trans (List.prefix_append ..).isInfix).trans (List.suffix_append ..).isInfix
  exact hbody.trans (infix_renderClauses (by simp))

theorem Column.infix_render {clause : String} (h : clause ∈ c.constraintClauses) :
    clause.toList <:+: c.render.toList :=
  infix_renderClauses (by simp [h])

-- ════════════════════════════════════════════════════════════════════════
-- What is kept
-- ════════════════════════════════════════════════════════════════════════

/-- A column holds the last `CHECK` and the last `REFERENCES` that are written on it, and they stand
    in the statement. It holds all that are written if and only if there are no two of a kind. -/
structure WrittenColumn.KeptIn (statement : String) (w : WrittenColumn) (c : Column) : Prop where
  check : c.check = w.checks.getLast?
  foreignKey : c.foreignKey = w.foreignKeys.getLast?
  checks_iff : w.checks = c.check.toList ↔ w.checks.length ≤ 1
  foreignKeys_iff : w.foreignKeys = c.foreignKey.toList ↔ w.foreignKeys.length ≤ 1
  check_infix : ∀ text ∈ c.check, ("CHECK (" ++ text ++ ")").toList <:+: statement.toList
  foreignKey_infix : ∀ key ∈ c.foreignKey, key.render.toList <:+: statement.toList

theorem eq_toList_getLast?_iff {α : Type} (as : List α) :
    as = as.getLast?.toList ↔ as.length ≤ 1 := by
  constructor
  · intro h
    rw [h]
    cases as.getLast? <;> simp
  · intro h
    match as, h with
    | [], _ => rfl
    | [a], _ => rfl

theorem WrittenColumn.keptIn_column {w : WrittenColumn} (h : w.column ∈ t.columns) :
    w.KeptIn t.render w.column := by
  have hcolumn := Table.infix_render h
  refine ⟨w.check_column, w.foreignKey_column, ?_, ?_, fun text htext => ?_, fun key hkey => ?_⟩
  · rw [w.check_column]
    exact eq_toList_getLast?_iff w.checks
  · rw [w.foreignKey_column]
    exact eq_toList_getLast?_iff w.foreignKeys
  · have hword : "CHECK (" ++ text ++ ")" = "CHECK" ++ " (" ++ text ++ ")" := rfl
    have hclause : "CHECK (" ++ text ++ ")" ∈ w.column.constraintClauses := by
      rw [hword]
      simp [Column.constraintClauses, Column.expressionClause, Option.mem_def.1 htext]
    exact (Column.infix_render hclause).trans hcolumn
  · have hclause : key.render ∈ w.column.constraintClauses := by
      simp [Column.constraintClauses, Option.mem_def.1 hkey]
    exact (Column.infix_render hclause).trans hcolumn

/-- Whatever the constraints are that a text is read as, each column of the table that is found
    holds the last `CHECK` and the last `REFERENCES` written on it, and so does its statement. -/
theorem keptIn_of_parse (h : parse limits sql = .ok t) :
    ∃ ts, tokenize sql.toList = .ok ts ∧
      (∃ written, Statement.Derives limits.maxExprDepth ts written t) ∧
      ∀ written, Statement.Derives limits.maxExprDepth ts written t →
        List.Forall₂ (WrittenColumn.KeptIn t.render) written t.columns := by
  obtain ⟨-, ts, written, htokens, hderives, -⟩ := parse_eq_ok_iff_admits.1 h
  refine ⟨ts, htokens, ⟨written, hderives⟩, fun ws hws => ?_⟩
  -- options do not touch the columns
  have hcolumns : t.columns = ws.map WrittenColumn.column := by
    cases hws
    rw [Statement.columns_foldl_withOption]
  rw [hcolumns, List.forall₂_map_right_iff, List.forall₂_same]
  intro w hw
  exact w.keptIn_column (hcolumns ▸ List.mem_map_of_mem hw)

/-- The theorem at a column with a check and a foreign key. -/
theorem keptIn_of_parse_checked :
    parse {} "CREATE TABLE t(a CHECK(x) REFERENCES u)" =
        .ok { name := "t", columns := [{ name := "a", check := some "x"
                                         foreignKey := some { table := "u" } }] } ∧
      ∃ ts, tokenize "CREATE TABLE t(a CHECK(x) REFERENCES u)".toList = .ok ts ∧
        (∃ written, Statement.Derives 1000 ts written
          { name := "t", columns := [{ name := "a", check := some "x"
                                       foreignKey := some { table := "u" } }] }) ∧
        ∀ written, Statement.Derives 1000 ts written
            { name := "t", columns := [{ name := "a", check := some "x"
                                         foreignKey := some { table := "u" } }] } →
          List.Forall₂ (WrittenColumn.KeptIn "CREATE TABLE t (a CHECK (x) REFERENCES u)") written
            [{ name := "a", check := some "x", foreignKey := some { table := "u" } }] := by
  have hparse : parse {} "CREATE TABLE t(a CHECK(x) REFERENCES u)" =
      .ok { name := "t", columns := [{ name := "a", check := some "x"
                                       foreignKey := some { table := "u" } }] } :=
    parse_eq_ok.2 ⟨by decide, eq_ok_of_toOption (by decide +kernel)⟩
  exact ⟨hparse, keptIn_of_parse hparse⟩

/-- Of two checks on a column the first is not in the table, and not in its statement. -/
theorem check_lost_of_repeated :
    ∃ ts w, tokenize "CREATE TABLE t(a CHECK(x) CHECK(y))".toList = .ok ts ∧
      Statement.Derives 1000 ts [w]
        { name := "t", columns := [{ name := "a", check := some "y" }] } ∧
      w.checks = ["x", "y"] ∧
      parse {} "CREATE TABLE t(a CHECK(x) CHECK(y))" =
        .ok { name := "t", columns := [{ name := "a", check := some "y" }] } ∧
      ({ name := "t", columns := [{ name := "a", check := some "y" }] } : Table).render =
        "CREATE TABLE t (a CHECK (y))" := by
  have htokens : (tokenize "CREATE TABLE t(a CHECK(x) CHECK(y))".toList).toOption = some
      [⟨.keyword .create, [], "CREATE".toList, 0⟩, ⟨.keyword .table, [' '], "TABLE".toList, 7⟩,
       ⟨.identifier, [' '], ['t'], 13⟩, ⟨.leftParen, [], ['('], 14⟩,
       ⟨.identifier, [], ['a'], 15⟩, ⟨.keyword .check, [' '], "CHECK".toList, 17⟩,
       ⟨.leftParen, [], ['('], 22⟩, ⟨.identifier, [], ['x'], 23⟩, ⟨.rightParen, [], [')'], 24⟩,
       ⟨.keyword .check, [' '], "CHECK".toList, 26⟩, ⟨.leftParen, [], ['('], 31⟩,
       ⟨.identifier, [], ['y'], 32⟩, ⟨.rightParen, [], [')'], 33⟩,
       ⟨.rightParen, [], [')'], 34⟩] := by decide +kernel
  have hx : ColumnConstraint.Derives 1000
      [⟨.keyword .check, [' '], "CHECK".toList, 17⟩, ⟨.leftParen, [], ['('], 22⟩,
       ⟨.identifier, [], ['x'], 23⟩, ⟨.rightParen, [], [')'], 24⟩] (.check "x") :=
    .check rfl (@Expression.Derives.intro 1000 _ _ [_] rfl (by simp)
      (by simp [Expression.Balanced]) rfl)
  have hy : ColumnConstraint.Derives 1000
      [⟨.keyword .check, [' '], "CHECK".toList, 26⟩, ⟨.leftParen, [], ['('], 31⟩,
       ⟨.identifier, [], ['y'], 32⟩, ⟨.rightParen, [], [')'], 33⟩] (.check "y") :=
    .check rfl (@Expression.Derives.intro 1000 _ _ [_] rfl (by simp)
      (by simp [Expression.Balanced]) rfl)
  have hconstraints := Column.Constraints.cons .absent hx (.cons .absent hy .nil)
  have hcolumn : Column.Derives 1000 ([⟨.identifier, [], ['a'], 15⟩] ++ _)
      ⟨"a", none, none, _⟩ := .intro (by decide +kernel) .absent hconstraints
  have hname : Statement.TableName [⟨.identifier, [' '], ['t'], 13⟩] none "t" :=
    .plain (by decide +kernel)
  have hbody := Body.Derives.intro hcolumn .nil .absent .absent
  refine ⟨_, ⟨"a", none, none, [⟨none, .check "x"⟩, ⟨none, .check "y"⟩]⟩,
    eq_ok_of_toOption htokens, ?_, ?_,
    parse_eq_ok.2 ⟨by decide, eq_ok_of_toOption (by decide +kernel)⟩, by decide +kernel⟩
  · exact @Statement.Derives.intro 1000 _ _ _ _ [] [] _ _ [] [] _ _ _ _ _ _ _ rfl .absent rfl
      .absent hname rfl hbody rfl .absent (by simp)
  · rfl

end CreateTable
