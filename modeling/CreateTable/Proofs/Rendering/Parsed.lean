import CreateTable.Proofs.Grammar.Exactness
import CreateTable.Proofs.Rendering.WellFormed

/-!
# Parsed tables

A table that is found in a text can be written: the texts that it holds are those of tokens in a
row, and what belongs to a constraint is there only with the constraint.

## Main definitions

- `ColumnConstraint.WellFormed` — a constraint on a column that can be written

## Main statements

- `ConsistsOf.of_legible` — the text of tokens in a row consists of them
- `Column.WellFormed.add` — one more constraint leaves a column such that it can be written
- `wellFormed_of_derives` — tables that the grammar derives can be written
-/

namespace CreateTable

open Grammar Lexical

variable {depth : Nat} {ts us : List Token}

theorem Legible.tail {t : Token} (h : Legible (t :: ts)) : Legible ts := by
  have h : Legible ([t] ++ ts) := h
  exact h.append.2

/-- The text of tokens in a row consists of tokens like them. -/
theorem ConsistsOf.of_legible {p : List Token → Prop} (h : Legible ts) (hne : ts ≠ [])
    (hp : ∀ us, List.Forall₂ Token.Alike ts us → p us) : ConsistsOf p (Token.verbatim ts) := by
  obtain ⟨us, htokens, halike, hsame⟩ := h.tokenize hne
  exact ⟨us, htokens, hsame.symm, hp us halike⟩

theorem IsType.of_legible (h : Legible ts) (hne : ts ≠ []) (hts : ∀ t ∈ ts, t.isTypeWord) :
    IsType (Token.verbatim ts) := by
  refine ConsistsOf.of_legible h hne fun us hus => ⟨?_, Token.forall_isTypeWord_of_alike hus hts⟩
  rintro rfl
  exact hne (by simpa using hus)

theorem IsSize.of_legible (h : Legible ts) (hts : Grammar.Column.Size ts) :
    IsSize (Token.verbatim ts) := by
  refine ConsistsOf.of_legible h ?_ fun us hus => hts.of_alike hus
  cases hts with
  | size hnumber => cases hnumber <;> simp
  | scale hsize => simp

theorem IsExpression.of_legible (h : Legible ts) (hne : ts ≠ [])
    (hts : Expression.Balanced (depth - 1) 0 ts) : IsExpression depth (Token.verbatim ts) := by
  refine ConsistsOf.of_legible h hne fun us hus => ⟨?_, hts.of_alike hus⟩
  rintro rfl
  exact hne (by simpa using hus)

theorem Grammar.Expression.Derives.isExpression {text : String}
    (h : Expression.Derives depth ts text) (hts : Legible ts) : IsExpression depth text := by
  obtain ⟨_, hne, hinner, _⟩ := h
  exact .of_legible hts.append.1.tail hne hinner

theorem Grammar.SignedNumber.Derives.balanced (h : SignedNumber.Derives ts) :
    ts ≠ [] ∧ Expression.Balanced (depth - 1) 0 ts := by
  cases h with
  | plain hnumber => simp [Expression.Balanced, hnumber]
  | signed hsign hnumber =>
    simp only [Token.isSign, Bool.and_eq_true, beq_iff_eq] at hsign
    simp [Expression.Balanced, hsign.1, hnumber]

theorem Grammar.ColumnConstraint.IsLiteral.balanced {t : Token} (h : IsLiteral t) :
    Expression.Balanced (depth - 1) 0 [t] := by
  have hkind : t.kind ≠ .leftParen ∧ t.kind ≠ .rightParen ∧ t.kind ≠ .endOfInput := by
    obtain h | h | h := h
    · simp [h]
    · simp [h]
    · refine ⟨fun hkind => ?_, fun hkind => ?_, fun hkind => ?_⟩
      all_goals simp [Token.name?, hkind] at h
  rw [Expression.balanced_cons_other hkind.1 hkind.2.1 hkind.2.2]
  rfl

-- ════════════════════════════════════════════════════════════════════════
-- Columns
-- ════════════════════════════════════════════════════════════════════════

/-- A constraint on a column that can be written. -/
def ColumnConstraint.WellFormed (depth : Nat) : ColumnConstraint → Prop
  | .check text | .default text => IsExpression depth text
  | _ => True

theorem Grammar.ColumnConstraint.Derives.wellFormed {k : CreateTable.ColumnConstraint}
    (h : ColumnConstraint.Derives depth ts k) (hts : Legible ts) : k.WellFormed depth := by
  cases h with
  | check _ hexpression | defaultExpression _ hexpression =>
    exact hexpression.isExpression hts.tail
  | defaultNumber _ hnumber =>
    obtain ⟨hne, hbalanced⟩ := hnumber.balanced
    exact .of_legible hts.tail hne hbalanced
  | defaultLiteral _ hliteral =>
    rw [← ColumnConstraint.verbatim_singleton]
    exact IsExpression.of_legible hts.tail (by simp) hliteral.balanced
  | _ => trivial

/-- One more constraint leaves a column such that it can be written. -/
theorem Column.WellFormed.add {c : Column} {w : WrittenConstraint} (h : c.WellFormed depth)
    (hw : w.constraint.WellFormed depth) : (c.add w).WellFormed depth := by
  obtain ⟨name, k⟩ := w
  obtain ⟨htype, hlength, hkey, hnull, hunique, hcheck, hdefault⟩ := h
  cases k with
  | primaryKey => exact ⟨htype, hlength, by simp [Column.add, constrain], hnull, hunique, hcheck,
      hdefault⟩
  | notNull => exact ⟨htype, hlength, hkey, by simp [Column.add, constrain], hunique, hcheck,
      hdefault⟩
  | unique => exact ⟨htype, hlength, hkey, hnull, by simp [Column.add, constrain], hcheck,
      hdefault⟩
  | check text =>
    refine ⟨htype, hlength, hkey, hnull, hunique, fun text' htext => ?_, hdefault⟩
    obtain rfl := Option.some.inj htext
    exact hw
  | default text =>
    refine ⟨htype, hlength, hkey, hnull, hunique, hcheck, fun text' htext => ?_⟩
    obtain rfl := Option.some.inj htext
    exact hw
  | null | collate | references => exact ⟨htype, hlength, hkey, hnull, hunique, hcheck, hdefault⟩

theorem Column.WellFormed.foldl_add {c : Column} {ws : List WrittenConstraint}
    (h : c.WellFormed depth) (hws : ∀ w ∈ ws, w.constraint.WellFormed depth) :
    (ws.foldl Column.add c).WellFormed depth := by
  induction ws generalizing c with
  | nil => exact h
  | cons w ws ih =>
    rw [List.forall_mem_cons] at hws
    exact ih (h.add hws.1) hws.2

theorem Grammar.Column.Constraints.wellFormed {ws : List WrittenConstraint}
    (h : Constraints depth ts ws) (hts : Legible ts) :
    ∀ w ∈ ws, w.constraint.WellFormed depth := by
  induction h with
  | nil => simp
  | cons hnames hk hws ih =>
    obtain ⟨hfront, hrest⟩ := hts.append
    rw [List.forall_mem_cons]
    exact ⟨hk.wellFormed hfront.append.2, ih hrest⟩

theorem Grammar.Column.TypeName.wellFormed {type length : Option String}
    (h : TypeName ts type length) (hts : Legible ts) (name : String) :
    CreateTable.Column.WellFormed depth { name, type, length } := by
  have hplain : (∀ text ∈ type, IsType text) →
      (∀ text ∈ length, type.isSome ∧ IsSize text) →
      CreateTable.Column.WellFormed depth { name, type, length } := fun htype hlength =>
    ⟨htype, hlength, by simp, by simp, by simp, by simp, by simp⟩
  cases h with
  | absent => exact hplain (by simp) (by simp)
  | words hne hwords => exact hplain (by simpa using IsType.of_legible hts hne hwords) (by simp)
  | sized hne hwords _ hsize _ =>
    refine hplain ?_ ?_
    · simpa using IsType.of_legible hts.append.1.append.1 hne hwords
    · simpa using IsSize.of_legible hts.append.1.append.2.tail hsize

theorem Grammar.Column.Derives.wellFormed {w : WrittenColumn} (h : Column.Derives depth ts w)
    (hts : Legible ts) : w.column.WellFormed depth := by
  obtain ⟨_, htype, hconstraints⟩ := h
  obtain ⟨hfront, hback⟩ := hts.append
  exact (htype.wellFormed hfront.tail _).foldl_add (hconstraints.wellFormed hback)

theorem Grammar.NameList.Derives.ne_nil {names : List String} (h : NameList.Derives ts names) :
    names ≠ [] := by
  cases h <;> simp

theorem Grammar.IndexedColumns.Derives.ne_nil {columns : List IndexedColumn}
    (h : IndexedColumns.Derives ts columns) : columns ≠ [] := by
  obtain ⟨_, h⟩ := h
  cases h <;> simp

theorem Grammar.TableConstraint.Derives.wellFormed {c : CreateTable.TableConstraint}
    (h : TableConstraint.Derives depth ts c) (hts : Legible ts) : c.rule.WellFormed depth := by
  obtain ⟨_, hrule⟩ := h
  cases hrule with
  | primaryKey _ _ hcolumns _ => exact hcolumns.ne_nil
  | unique _ hcolumns _ => exact hcolumns.ne_nil
  | check _ hexpression _ =>
    exact hexpression.isExpression hts.append.2.append.1.tail
  | foreignKey _ _ _ hnames _ _ => exact hnames.ne_nil

-- ════════════════════════════════════════════════════════════════════════
-- Tables
-- ════════════════════════════════════════════════════════════════════════

theorem Grammar.Body.MoreColumns.wellFormed {ws : List WrittenColumn}
    (h : MoreColumns depth ts ws) (hts : Legible ts) : ∀ w ∈ ws, w.column.WellFormed depth := by
  induction h with
  | nil => simp
  | cons _ hw _ ih =>
    obtain ⟨hfront, hrest⟩ := hts.append
    rw [List.forall_mem_cons]
    exact ⟨hw.wellFormed hfront.tail, ih hrest⟩

theorem Grammar.Body.MoreConstraints.wellFormed {cs : List CreateTable.TableConstraint}
    (h : MoreConstraints depth ts cs) (hts : Legible ts) :
    ∀ c ∈ cs, c.rule.WellFormed depth := by
  induction h with
  | nil => simp
  | cons _ hc _ ih =>
    obtain ⟨hfront, hrest⟩ := hts.append
    rw [List.forall_mem_cons]
    exact ⟨hc.wellFormed hfront.append.2, ih hrest⟩

theorem Grammar.Body.Constraints.wellFormed {cs : List CreateTable.TableConstraint}
    (h : Constraints depth ts cs) (hts : Legible ts) : ∀ c ∈ cs, c.rule.WellFormed depth := by
  cases h with
  | absent => simp
  | present _ hc hrest =>
    obtain ⟨hfront, hback⟩ := hts.append
    rw [List.forall_mem_cons]
    exact ⟨hc.wellFormed hfront.tail, hrest.wellFormed hback⟩

theorem Table.WellFormed.foldl_withOption {t : Table} (h : t.WellFormed depth)
    (options : List TableOption) : (options.foldl Table.withOption t).WellFormed depth := by
  induction options generalizing t with
  | nil => exact h
  | cons option options ih =>
    refine ih ?_
    obtain ⟨hne, hcolumns, hconstraints⟩ := h
    cases option <;> exact ⟨hne, hcolumns, hconstraints⟩

/-- Tables that the grammar derives can be written. -/
theorem wellFormed_of_derives {written : List WrittenColumn} {t : Table}
    (h : Statement.Derives depth ts written t) (hts : Legible ts) : t.WellFormed depth := by
  obtain @⟨create, word, opening, closing, temps, ifs, names, body, vs, ends, temporary,
    ifNotExists, schema, name, _, constraints, options, _, _, _, _, _, _, hbody, _, _, _⟩ := h
  have hlegible : Legible body := hts.append.1.append.1.append.2.tail
  obtain ⟨hw, hmore, hconstraints, _⟩ := hbody
  obtain ⟨hfront, -⟩ := hlegible.append
  obtain ⟨hcolumns, hback⟩ := hfront.append
  obtain ⟨hfirst, hrest⟩ := hcolumns.append
  refine Table.WellFormed.foldl_withOption ⟨by simp, ?_, hconstraints.wellFormed hback⟩ options
  rw [List.map_cons, List.forall_mem_cons, List.forall_mem_map]
  exact ⟨hw.wellFormed hfirst, hmore.wellFormed hrest⟩

end CreateTable
