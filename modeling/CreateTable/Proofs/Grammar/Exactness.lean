import CreateTable.Proofs.Grammar.Statement
import CreateTable.Proofs.Reading

/-!
# What is parsed

The texts that are parsed are those whose tokens the grammar derives within the limits, and the
table that is found is the one derived.

## Main statements

- `parse_eq_ok_iff_admits` — the same with the statements that are read as one predicate
- `parse_eq_ok_iff_derives` — what is parsed, and which table is found
- `derives_and_not_parsed` — the kind of statement that is derived and not parsed
-/

namespace CreateTable

open Grammar

variable {limits : Limits} {sql : String} {table : Table}

theorem statementReader_run_eq_ok {text : List Char} :
    (statementReader limits).run text = .ok table ↔
      ∃ ts written, tokenize text = .ok ts ∧ Statement.Admits limits ts written table := by
  rw [Reader.run, Reader.runFrom_eq_ok]
  constructor
  · rintro ⟨ts, c, e, c', hts, he, ha⟩
    have hend := Statement.kind_of_accepts ha
    obtain ⟨written, hadmits⟩ := (Statement.accepts_iff hend).1 ha
    exact ⟨ts, written, tokenize_eq_ok.2 ⟨c, e, hts, c', he, hend⟩, hadmits⟩
  · rintro ⟨ts, written, htokens, hadmits⟩
    obtain ⟨c, e, hts, c', he, hend⟩ := tokenize_eq_ok.1 htokens
    exact ⟨ts, c, e, c', hts, he, (Statement.accepts_iff hend).2 ⟨written, hadmits⟩⟩

theorem parse_eq_ok_iff_admits :
    parse limits sql = .ok table ↔
      sql.utf8ByteSize ≤ limits.maxSqlLength ∧
        ∃ ts written, tokenize sql.toList = .ok ts ∧ Statement.Admits limits ts written table := by
  rw [parse_eq_ok, statementReader_run_eq_ok]

/-- A text is parsed if and only if it is short enough, the grammar derives a table from its tokens
    with no more columns and parentheses than the limits allow, and the bare word `IF` does not name
    the table. The table found is the one derived. -/
theorem parse_eq_ok_iff_derives (limits : Limits) (sql : String) (table : Table) :
    parse limits sql = .ok table ↔
      sql.utf8ByteSize ≤ limits.maxSqlLength ∧ table.columns.length ≤ limits.maxColumns ∧
        ∃ ts written, tokenize sql.toList = .ok ts ∧
          Statement.Derives limits.maxExprDepth ts written table ∧ ¬Statement.NamesTableIf ts := by
  rw [parse_eq_ok_iff_admits]
  constructor
  · rintro ⟨hsize, ts, written, htokens, hderives, hcolumns, hif⟩
    exact ⟨hsize, hcolumns, ts, written, htokens, hderives, hif⟩
  · rintro ⟨hsize, hcolumns, ts, written, htokens, hderives, hif⟩
    exact ⟨hsize, ts, written, htokens, hderives, hcolumns, hif⟩

/-- The grammar alone allows a table with the name `IF`, which is not parsed. -/
theorem derives_and_not_parsed :
    (∃ ts written, tokenize "CREATE TABLE if (a)".toList = .ok ts ∧
      Statement.Derives 1000 ts written { name := "if", columns := [{ name := "a" }] }) ∧
    parse {} "CREATE TABLE if (a)" ≠ .ok { name := "if", columns := [{ name := "a" }] } := by
  have htokens : (tokenize "CREATE TABLE if (a)".toList).toOption = some
      [⟨.keyword .create, [], "CREATE".toList, 0⟩, ⟨.keyword .table, [' '], "TABLE".toList, 7⟩,
       ⟨.keyword .if, [' '], "if".toList, 13⟩, ⟨.leftParen, [' '], ['('], 16⟩,
       ⟨.identifier, [], ['a'], 17⟩, ⟨.rightParen, [], [')'], 18⟩] := by decide +kernel
  refine ⟨⟨_, [⟨"a", none, none, []⟩], eq_ok_of_toOption htokens, ?_⟩, ?_⟩
  · have hname : Statement.TableName [⟨.keyword .if, [' '], "if".toList, 13⟩] none "if" :=
      .plain (by decide +kernel)
    have hcolumn : Column.Derives 1000 ([⟨.identifier, [], ['a'], 17⟩] ++ [])
        ⟨"a", none, none, []⟩ := .intro (by decide +kernel) .absent .nil
    have hbody := Body.Derives.intro hcolumn .nil .absent .absent
    exact @Statement.Derives.intro 1000 _ _ _ _ [] [] _ _ [] [] _ _ _ _ _ _ _ rfl .absent rfl
      .absent hname rfl hbody rfl .absent (by simp)
  · intro h
    have hrefused : (parse {} "CREATE TABLE if (a)").toOption = none := by
      rw [parse_eq_run]
      decide +kernel
    rw [h] at hrefused
    cases hrefused

end CreateTable
