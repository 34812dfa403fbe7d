import CreateTable.Proofs.Rendering.References

/-!
# Table constraints as they are written

The grammar derives a table constraint from the tokens that it is read as.

## Main statements

- `Writes.key` — the words of a key, its columns and a conflict clause
- `Writes.tableConstraint` — a table constraint that can be written
-/

namespace CreateTable

open Grammar Lexical

variable {depth : Nat}

namespace Writes

/-- The words of a key, its columns and a conflict clause. -/
theorem key {words : String} {columns : List IndexedColumn} (k : Keyword) (ks : List Keyword)
    (hwords : words.toList = k.spelling.toList ++ spaced (ks.map Keyword.spelling))
    (hne : columns ≠ []) (r : ConflictResolution) :
    Writes (TableConstraint.renderKey words columns r).toList
      (Then (Then (fun ts => ts.map (·.kind) = (k :: ks).map TokenKind.keyword)
        (IndexedColumns.Derives · columns)) (ConflictClause.Derives · r)) := by
  have hcolumns := (phrase k ks).append (indexedColumns hne).space (.cons (by decide) _)
  refine renderClauses ?_ (conflict r)
  simp only [String.toList_append, List.append_assoc, hwords]
  simpa using hcolumns

/-- What a constraint demands, if it can be written. -/
theorem rule {rule : CreateTable.TableConstraint.Rule} (h : rule.WellFormed depth) :
    Writes rule.render.toList (TableConstraint.Demands depth · rule) := by
  cases rule with
  | primaryKey columns conflict =>
    refine (key .primary [.key] rfl h conflict).mono ?_
    rintro _ ⟨_, conflicts, rfl, ⟨_, us, rfl, hts, hus⟩, hconflicts⟩
    obtain ⟨primary, _, rfl, hprimary, hts⟩ := List.map_eq_cons_iff.1 hts
    obtain ⟨key, _, rfl, hkey, hts⟩ := List.map_eq_cons_iff.1 hts
    obtain rfl := List.map_eq_nil_iff.1 hts
    exact .primaryKey hprimary hkey hus hconflicts
  | unique columns conflict =>
    refine (key .unique [] rfl h conflict).mono ?_
    rintro _ ⟨_, conflicts, rfl, ⟨_, us, rfl, hts, hus⟩, hconflicts⟩
    obtain ⟨unique, _, rfl, hunique, hts⟩ := List.map_eq_cons_iff.1 hts
    obtain rfl := List.map_eq_nil_iff.1 hts
    exact .unique hunique hus hconflicts
  | check text =>
    have hwrites := (keyword .check).append (expression h).space (.cons (by decide) _)
    have htext : (CreateTable.TableConstraint.Rule.check text).render.toList =
        Keyword.check.spelling.toList ++ ' ' :: '(' :: (text.toList ++ [')']) := by
      simp only [TableConstraint.Rule.render, String.toList_append, List.append_assoc]
      rfl
    rw [htext]
    refine hwrites.mono ?_
    rintro _ ⟨_, ts, rfl, ⟨t, rfl, ht⟩, hts⟩
    simpa using TableConstraint.Demands.check ht hts .absent
  | foreignKey columns target =>
    have hnames := (nameList h).append (foreignKey target).space (.cons (by decide) _)
    have hwrites := (phrase .foreign [.key]).append hnames.leftParen.space (.cons (by decide) _)
    have htext : (CreateTable.TableConstraint.Rule.foreignKey columns target).render.toList =
        (Keyword.foreign.spelling.toList ++ spaced ([Keyword.key].map Keyword.spelling)) ++
          ' ' :: '(' :: ((renderList (columns.map Name.render)).toList ++ [')'] ++
            ' ' :: target.render.toList) := by
      simp only [TableConstraint.Rule.render, String.toList_append, List.append_assoc]
      rfl
    rw [htext]
    refine hwrites.mono ?_
    rintro _ ⟨_, _, rfl, hts, _, _, rfl, ⟨opening, rfl, hopening⟩, names, _, rfl, hnames, _, us,
      rfl, ⟨references, rfl, hreferences⟩, hus⟩
    obtain ⟨foreign, _, rfl, hforeign, hts⟩ := List.map_eq_cons_iff.1 hts
    obtain ⟨key, _, rfl, hkey, hts⟩ := List.map_eq_cons_iff.1 hts
    obtain rfl := List.map_eq_nil_iff.1 hts
    exact .foreignKey hforeign hkey hopening hnames hreferences hus

/-- A table constraint that can be written. -/
theorem tableConstraint {c : CreateTable.TableConstraint} (h : c.rule.WellFormed depth) :
    Writes c.render.toList (TableConstraint.Derives depth · c) := by
  obtain ⟨name, rule⟩ := c
  cases name with
  | none => exact (Writes.rule h).mono fun ts hts => .intro .absent hts
  | some name =>
    refine (renderClauses (wordAndName .constraint name) (clause (Writes.rule h))).mono ?_
    rintro _ ⟨names, ts, rfl, hnames, hts⟩
    exact .intro hnames.constraintName hts

end Writes

end CreateTable
