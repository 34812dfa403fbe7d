import CreateTable.Proofs.Rendering.Parsed
import CreateTable.Proofs.Rendering.Statement

/-!
# From tables to statements and back

The statement of a table is parsed as the table. This holds of tables that are built by hand as well
as of tables that are found in a text.

## Main statements

- `parse_render_of_wellFormed` — the statement of a table that can be written
- `parse_render_of_parse` — the statement of a table that was found in a text
-/

namespace CreateTable

open Grammar Lexical

variable {limits : Limits} {t : Table}

/-- The statement of a table that can be written is parsed as the table, if neither the statement
    nor the table is too large. Names may be any text. -/
theorem parse_render_of_wellFormed (h : t.WellFormed limits.maxExprDepth)
    (hsize : t.render.utf8ByteSize ≤ limits.maxSqlLength)
    (hcolumns : t.columns.length ≤ limits.maxColumns) : parse limits t.render = .ok t := by
  obtain ⟨ts, written, htokens, hderives, hif⟩ := tokenize_render h
  exact parse_eq_ok_iff_admits.2 ⟨hsize, ts, written, htokens, hderives, hcolumns, hif⟩

/-- A table whose names have to be quoted, with a check that holds parentheses. -/
def quotedTable : Table :=
  { schema := some "", name := "a\x22b"
    columns := [{ name := "select", constraintName := some "c", check := some "x > (0)" }] }

theorem wellFormed_quotedTable : quotedTable.WellFormed 1000 := by
  have htokens : (tokenize "x > (0)".toList).toOption = some
      [⟨.identifier, [], ['x'], 0⟩, ⟨.operator, [' '], ['>'], 2⟩, ⟨.leftParen, [' '], ['('], 4⟩,
       ⟨.number, [], ['0'], 5⟩, ⟨.rightParen, [], [')'], 6⟩] := by decide +kernel
  have hcheck : IsExpression 1000 "x > (0)" :=
    ⟨_, eq_ok_of_toOption htokens, by decide +kernel, by simp, by simp [Expression.Balanced]⟩
  refine ⟨by simp [quotedTable], fun c hc => ?_, by simp [quotedTable]⟩
  obtain rfl := List.mem_singleton.1 hc
  exact ⟨by simp, by simp, by simp, by simp, by simp, by simpa using hcheck, by simp⟩

/-- The theorem at a table whose names have to be quoted. -/
theorem parse_render_quotedTable :
    quotedTable.WellFormed 1000 ∧ parse {} quotedTable.render = .ok quotedTable :=
  ⟨wellFormed_quotedTable,
    parse_render_of_wellFormed wellFormed_quotedTable (by decide +kernel) (by decide)⟩

/-- The statement of a table that was found in a text is parsed as the table, under the same limits
    but for the size of the statement. -/
theorem parse_render_of_parse {sql : String} {n : Nat} (h : parse limits sql = .ok t)
    (hsize : t.render.utf8ByteSize ≤ n) :
    parse { limits with maxSqlLength := n } t.render = .ok t := by
  obtain ⟨-, ts, written, htokens, hderives, hcolumns, -⟩ := parse_eq_ok_iff_admits.1 h
  obtain ⟨c, e, hreads, -⟩ := tokenize_eq_ok.1 htokens
  have hwf := wellFormed_of_derives hderives ⟨_, c, hreads⟩
  obtain ⟨us, written', hrendered, hderives', hif⟩ := tokenize_render hwf
  exact parse_eq_ok_iff_admits.2 ⟨hsize, us, written', hrendered, hderives', hcolumns, hif⟩

/-- The theorem at a statement with a default value, which is written in parentheses. -/
theorem parse_render_of_parse_default :
    parse {} "create table t(x default -1)" =
        .ok { name := "t", columns := [{ name := "x", default := some "-1" }] } ∧
      parse { maxSqlLength := 32 } "CREATE TABLE t (x DEFAULT (-1))" =
        .ok { name := "t", columns := [{ name := "x", default := some "-1" }] } := by
  have hparse : parse {} "create table t(x default -1)" =
      .ok { name := "t", columns := [{ name := "x", default := some "-1" }] } :=
    parse_eq_ok.2 ⟨by decide, eq_ok_of_toOption (by decide +kernel)⟩
  exact ⟨hparse, parse_render_of_parse hparse (by decide +kernel)⟩

end CreateTable
