import CreateTable.Proofs.Editing.Twins
import CreateTable.Proofs.Grammar.NamesDue
import CreateTable.Proofs.Lexical.Quotation

/-!
# Names in other quotes

Wherever a name is due, tokens that stand for the same name lead to the same state. So a name may be
written in quotes, in any way that admits it, and is then never a keyword.

## Main definitions

- `Statement.State.ReadsName` — a token that is read as a name

## Main statements

- `Statement.step_of_name` — tokens that stand for the same name lead to twins
- `parse_requoted` — a name may be written in other quotes
-/

namespace CreateTable

open Lexical Grammar Token

-- ════════════════════════════════════════════════════════════════════════
-- What a name leads to
-- ════════════════════════════════════════════════════════════════════════

namespace Grammar

/-- A token that is read as a name: a name is due, and the token stands for one. Behind `TABLE`, `IF`
    is no name. -/
structure Statement.State.ReadsName (s : Statement.State) (t : Token) (role : NameRole)
    (name : String) : Prop where
  due : s.nameDue? = some role
  name : t.name? = some name
  not_if : ∀ table, s = .table table → t.kind ≠ .keyword .if

variable {limits : Limits} {role due : NameRole} {name : String} {t t' : Token}

theorem takeName_of_name? {σ α : Type} (ht : t.name? = some name) (role : NameRole)
    (next : String → σ) : (takeName t role next : Verdict σ α) = .taken (next name) := by
  simp [takeName, ht]

theorem NameList.exists_taken {closing : Expectation} {s : NameList.State}
    (h : s.nameDue? role = some due) (name : String) :
    ∃ n, ∀ t : Token, t.name? = some name → NameList.step role closing s t = .taken n := by
  cases s with
  | name names => exact ⟨_, fun t ht => takeName_of_name? ht _ _⟩
  | next | closed => cases h

theorem IndexedColumns.exists_taken {s : IndexedColumns.State} (h : s.nameDue? = some due)
    (name : String) :
    ∃ n, ∀ t : Token, t.name? = some name → IndexedColumns.step s t = .taken n := by
  cases s with
  | name columns => exact ⟨_, fun t ht => takeName_of_name? ht _ _⟩
  | collation columns column => exact ⟨_, fun t ht => takeName_of_name? ht _ _⟩
  | _ => cases h

theorem References.exists_taken {s : References.State} (h : s.nameDue? = some due)
    (name : String) : ∃ n, ∀ t : Token, t.name? = some name → References.step s t = .taken n := by
  cases s with
  | table => exact ⟨_, fun t ht => takeName_of_name? ht _ _⟩
  | matchType key => exact ⟨_, fun t ht => takeName_of_name? ht _ _⟩
  | columns key names =>
    obtain ⟨n, hn⟩ := @NameList.exists_taken _ _ .closeAfterReferenced _ h name
    exact ⟨.columns key n, fun t ht => by rw [step, hn t ht, Verdict.andThen_taken]⟩
  | _ => cases h

theorem Column.exists_taken {s : Column.State} (h : s.nameDue? = some due) (name : String) :
    ∃ n, Unled State.Twin (Column.step limits) n ∧
      ∀ t : Token, t.name? = some name → Column.step limits s t = .taken n := by
  cases s with
  | constraintName column => exact ⟨_, unled_named _, fun t ht => takeName_of_name? ht _ _⟩
  | constraint column k =>
    cases k with
    | collation =>
      refine ⟨_, unled_closed column (.collate name), fun t ht => ?_⟩
      rw [step, ColumnConstraint.step, takeName_of_name? ht, Verdict.andThen_taken]
    | references key =>
      obtain ⟨n, hn⟩ := References.exists_taken h name
      refine ⟨_, unled_references column n, fun t ht => ?_⟩
      rw [step, ColumnConstraint.step, hn t ht, Verdict.andThen_taken, Verdict.andThen_taken]
    | _ => cases h
  | _ => cases h

theorem TableConstraint.exists_taken {s : TableConstraint.State} (h : s.nameDue? = some due)
    (name : String) :
    ∃ n, Unled State.Twin (TableConstraint.step limits) n ∧
      ∀ t : Token, t.name? = some name → TableConstraint.step limits s t = .taken n := by
  cases s with
  | name => exact ⟨_, unled_named name, fun t ht => takeName_of_name? ht _ _⟩
  | primaryColumns constraint columns =>
    obtain ⟨n, hn⟩ := IndexedColumns.exists_taken h name
    refine ⟨_, unled_primaryColumns constraint n, fun t ht => ?_⟩
    rw [step, hn t ht, Verdict.andThen_taken]
  | uniqueColumns constraint columns =>
    obtain ⟨n, hn⟩ := IndexedColumns.exists_taken h name
    refine ⟨_, unled_uniqueColumns constraint n, fun t ht => ?_⟩
    rw [step, hn t ht, Verdict.andThen_taken]
  | foreignColumns constraint columns =>
    obtain ⟨n, hn⟩ := @NameList.exists_taken _ _ .closeAfterForeignKey _ h name
    refine ⟨_, unled_foreignColumns constraint n, fun t ht => ?_⟩
    rw [step, hn t ht, Verdict.andThen_taken]
  | references constraint columns key =>
    obtain ⟨n, hn⟩ := References.exists_taken h name
    refine ⟨_, unled_references constraint columns n, fun t ht => ?_⟩
    rw [step, hn t ht, Verdict.andThen_taken]
  | _ => cases h

namespace Body

-- where a name is due, a reader is not complete, so `A` is about nothing here
variable {p q : Progress} {A : Items → Items → Prop}

/-- Where a column may begin, its name leads to twins, whichever token was the first one. -/
theorem item_of_name (h : p.Twin q) (ht : t.name? = some name) (ht' : t'.name? = some name)
    (hp : p.constraints.isEmpty) :
    (item limits p t).MatchedBy
      (fun n n' => n.Twin n' ∧ Unled State.Twin (step limits) n') A (item limits q t') := by
  have hkind : ∀ {u : Token}, u.name? = some name → u.kind ≠ .rightParen := by
    intro u hu hkind
    simp [Token.name?, hkind] at hu
  simp only [item, hkind ht, hkind ht', false_and, if_false, start?_of_name? ht,
    start?_of_name? ht', h.constraints, hp, if_true, beginColumn, h.room,
    takeName_of_name? ht, takeName_of_name? ht']
  split
  · exact .refused _ _
  · exact .taken ⟨.column h (.refl _), unled_column q (Column.unled_ofName name)⟩

theorem step_of_name {s : State} (h : s.nameDue? = some due) (ht : t.name? = some name)
    (ht' : t'.name? = some name) :
    (step limits s t).MatchedBy
      (fun n n' => n.Twin n' ∧ Unled State.Twin (step limits) n') A (step limits s t') := by
  cases s with
  | start => exact item_of_name ⟨rfl, rfl, rfl⟩ ht ht' rfl
  | item p =>
    have hp : p.constraints.isEmpty := by
      by_contra hp
      simp [State.nameDue?, hp] at h
    exact item_of_name (.refl p) ht ht' hp
  | column p c =>
    obtain ⟨n, hunled, hn⟩ := @Column.exists_taken limits _ _ h name
    simp only [step, hn t ht, hn t' ht', Verdict.andThen_taken]
    exact .taken ⟨.column (.refl p) (.refl n), unled_column p hunled⟩
  | constraint p k =>
    obtain ⟨n, hunled, hn⟩ := @TableConstraint.exists_taken limits _ _ h name
    simp only [step, hn t ht, hn t' ht', Verdict.andThen_taken]
    exact .taken ⟨.constraint (.refl p) (.refl n), unled_constraint p hunled⟩
  | closed items => cases h

end Body

namespace Statement

/-- Tokens that are read as the same name lead to twins, and what stands before the next token does
    not matter. -/
theorem step_of_name {s : State} {A : Table → Table → Prop} (h : s.ReadsName t role name)
    (h' : s.ReadsName t' role name) :
    (step limits s t).MatchedBy
      (fun n n' => n.Twin n' ∧ Unled State.Twin (step limits) n') A (step limits s t') := by
  obtain ⟨hdue, ht, hif⟩ := h
  obtain ⟨-, ht', hif'⟩ := h'
  cases s with
  | table table =>
    have hother : ∀ {u : Token}, u.kind ≠ .keyword .if → u.isKeyword .if = false := by
      intro u hu
      simpa [Token.isKeyword] using hu
    simp only [step, hother (hif table rfl), hother (hif' table rfl), firstName,
      takeName_of_name? ht, takeName_of_name? ht', Bool.false_eq_true, if_false]
    exact .taken ⟨.refl _, unled_named table name⟩
  | name table =>
    simp only [step, firstName, takeName_of_name? ht, takeName_of_name? ht']
    exact .taken ⟨.refl _, unled_named table name⟩
  | qualified table =>
    simp only [step, takeName_of_name? ht, takeName_of_name? ht']
    exact .taken ⟨.refl _, unled_bodyOpen _⟩
  | body table b =>
    exact (Body.step_of_name (A := fun _ _ => False) hdue ht ht').andThen
      (fun _ _ hs => ⟨.body table hs.1, unled_body table hs.2⟩) fun _ _ => False.elim
  | _ => cases hdue

/-- A token of a statement is taken where it stands. -/
theorem Admits.exists_taken {before after : List Token} {s : State} {written : List WrittenColumn}
    {table : Table} (hadmits : Admits limits (before ++ [t] ++ after) written table)
    (hbefore : Takes (step limits) .start before s) : ∃ n, step limits s t = .taken n := by
  have haccepts := accepts_of_admits (e := .ending) hadmits rfl
  rw [List.append_assoc, hbefore.accepts_append_iff] at haccepts
  obtain ⟨n, hn, -⟩ := haccepts
  exact ⟨n, hn⟩

/-- A token that is read as the same name is read as the same table. -/
theorem Admits.of_name {before after after' : List Token} {s : State}
    {written : List WrittenColumn} {table : Table}
    (hadmits : Admits limits (before ++ [t] ++ after) written table)
    (hbefore : Takes (step limits) .start before s) (h : s.ReadsName t role name)
    (h' : s.ReadsName t' role name) (hafter : Shifted after after') :
    ∃ written', Admits limits (before ++ [t'] ++ after') written' table := by
  obtain ⟨n, hn⟩ := hadmits.exists_taken hbefore
  have hmatch := @step_of_name limits _ _ _ _ _ Eq h h'
  rw [hn] at hmatch
  generalize hv : step limits s t' = v at hmatch
  obtain ⟨htwin, hunled⟩ | _ := hmatch
  exact hadmits.behind_twins (hbefore.snoc hn) (hbefore.snoc hv) htwin hunled hafter

end Statement

end Grammar

-- ════════════════════════════════════════════════════════════════════════
-- Quotes
-- ════════════════════════════════════════════════════════════════════════

namespace Lexical.Quote

variable {quote : Quote} {name : String} {t : Token}

theorem name?_of_kind (h : t.kind = quote.kind name) : t.name? = some name := by
  cases quote <;> simp [Token.name?, h, kind]

/-- What stands in quotes is no keyword, whatever it spells. -/
theorem kind_ne_keyword (quote : Quote) (name : String) (word : Keyword) :
    quote.kind name ≠ .keyword word := by
  cases quote <;> exact nofun

/-- What is written in quotes is read as one token. -/
theorem writes (h : quote.Admits name) :
    Writes (quote.write name)
      (Single fun t => t.kind = quote.kind name ∧ t.text = quote.write name) := by
  have hends : quote.EndsBefore [] := fun _ => by simp
  have hfirst := Lexeme.first_write h hends
  have hbegins := quote.not_begins_write name []
  rw [List.append_nil] at hfirst hbegins
  exact .single hfirst (quote.kind_ne_endOfInput name) hbegins

end Lexical.Quote

/-- A token that is read as a name may be replaced by the name in quotes, in any way to quote that
    admits it. The table stays the same under limits that allow for the longer text, and the new
    token is read as the same name in the same place. It is never a keyword, nor does it begin a
    table constraint. The place is one where such a name is asked for, and wherever a name is asked
    for, one is due. -/
theorem parse_requoted {limits : Limits} {sql : String} {table : Table} {before after : List Token}
    {t : Token} {s : Statement.State} {role : NameRole} {name : String} {quote : Quote}
    {gap gap' : List Char} {length : Nat} (h : parse limits sql = .ok table)
    (htokens : tokenize sql.toList = .ok (before ++ [t] ++ after))
    (htakes : Takes (Statement.step limits) .start before s) (hname : s.ReadsName t role name)
    (hquote : quote.Admits name) (hgap : Trivia.Separator gap) (hgap' : Trivia.Separator gap')
    (hlength : (t.span.replace sql (gap ++ quote.write name ++ gap')).utf8ByteSize ≤ length) :
    parse { limits with maxSqlLength := length }
        (t.span.replace sql (gap ++ quote.write name ++ gap')) = .ok table ∧
      (∃ t' after', tokenize (t.span.replace sql (gap ++ quote.write name ++ gap')).toList =
          .ok (before ++ [t'] ++ after') ∧
        t'.text = quote.write name ∧ s.ReadsName t' role name ∧
        (∀ word, t'.kind ≠ .keyword word) ∧ TableConstraint.start? t' = none) ∧
      (∃ u, (Statement.step limits s u).Asks role) ∧
      ∀ s' u role', (Statement.step limits s' u).Asks role' → s'.nameDue? = some role' := by
  have hspan : t.span = extent [t] := rfl
  rw [hspan] at hlength ⊢
  obtain ⟨us, after', htokens', ⟨t', rfl, hkind, htext⟩, hafter⟩ :=
    tokenize_replace htokens (List.cons_ne_nil t []) (Quote.writes hquote) hgap hgap'
  have hword : ∀ word, t'.kind ≠ .keyword word := by
    rw [hkind]
    exact quote.kind_ne_keyword name
  have hname' : s.ReadsName t' role name :=
    ⟨hname.due, Quote.name?_of_kind hkind, fun _ _ => hword .if⟩
  have hparse := parse_of_admits h htokens htokens'
    (fun _ hadmits => hadmits.of_name htakes hname hname' hafter) hlength
  have hasks : (Statement.step limits s .comma).Asks role := by
    obtain ⟨-, ts, written, hts, hadmits⟩ := parse_eq_ok_iff_admits.1 h
    obtain rfl := Except.ok.inj (htokens.symm.trans hts)
    obtain ⟨n, hn⟩ := hadmits.exists_taken htakes
    exact Statement.asks_comma hname.due hname.name fun e he => nomatch hn.symm.trans he
  exact ⟨hparse,
    ⟨t', after', htokens', htext, hname', hword, Body.start?_of_name? hname'.name⟩,
    ⟨.comma, hasks⟩, fun s' u role' h => h.due (Statement.asksFor limits s' u)⟩

/-- A column whose name spells a keyword, and is the first token of its body. -/
theorem parse_requoted_check :
    ∃ before t after,
      tokenize "CREATE TABLE t('check' INT)".toList = .ok (before ++ [t] ++ after) ∧
      Takes (Statement.step {}) .start before (.body { name := "t" } .start) ∧
      (Statement.State.body { name := "t" } .start).ReadsName t .column "check" ∧
      t.span.replace "CREATE TABLE t('check' INT)"
        ([' '] ++ Quote.bracket.write "check" ++ [' ']) = "CREATE TABLE t( [check]  INT)" ∧
      parse { maxSqlLength := 29 } "CREATE TABLE t( [check]  INT)" =
        .ok { name := "t", columns := [{ name := "check", type := "INT" }] } := by
  have hparse : parse {} "CREATE TABLE t('check' INT)" =
      .ok { name := "t", columns := [{ name := "check", type := "INT" }] } :=
    parse_eq_ok.2 ⟨by decide, eq_ok_of_toOption (by decide +kernel)⟩
  have htokens : tokenize "CREATE TABLE t('check' INT)".toList = .ok
      ([⟨.keyword .create, [], "CREATE".toList, 0⟩, ⟨.keyword .table, [' '], "TABLE".toList, 7⟩,
          ⟨.identifier, [' '], ['t'], 13⟩, ⟨.leftParen, [], ['('], 14⟩] ++
        [⟨.stringLiteral "check", [], "'check'".toList, 15⟩] ++
        [⟨.identifier, [' '], "INT".toList, 23⟩, ⟨.rightParen, [], [')'], 26⟩]) :=
    eq_ok_of_toOption (by decide +kernel)
  have hname : (Statement.State.body { name := "t" } .start).ReadsName
      ⟨.stringLiteral "check", [], "'check'".toList, 15⟩ .column "check" :=
    ⟨rfl, rfl, nofun⟩
  have hquote : Quote.bracket.Admits "check" := fun _ => by decide
  have hgap : Trivia.Separator [' '] := ⟨⟨' ', rfl, rfl⟩, .blank rfl .nil⟩
  have htext : Text.Span.replace ⟨15, 22⟩ "CREATE TABLE t('check' INT)"
      ([' '] ++ Quote.bracket.write "check" ++ [' ']) = "CREATE TABLE t( [check]  INT)" := by
    decide +kernel
  refine ⟨_, _, _, htokens, by decide +kernel, hname, htext, ?_⟩
  rw [← htext]
  exact (parse_requoted hparse htokens (by decide +kernel) hname hquote hgap hgap
    (by decide +kernel)).1

end CreateTable
