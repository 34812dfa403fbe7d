import CreateTable.Proofs.Editing.Splicing
import CreateTable.Proofs.Errors.Fronts

/-!
# Other columns in the same place

Of a column that has been read, only what it declares is kept. So a statement is read as the same
table with another column in the place of one that declares the same.

## Main definitions

- `Statement.AroundColumn` — the tokens before and behind a column

## Main statements

- `Statement.Derives.exists_column` — every column of a statement stands between such tokens
- `Statement.accepts_column_iff` — what is read behind a column depends on what the column declares
- `Statement.Admits.replace_column` — a column may be written in another way
-/

namespace CreateTable.Grammar

variable {limits : Limits} {depth : Nat} {u t t' e : Token}
  {ts us us' tail before after after' : List Token} {w w' : WrittenColumn} {name : String}

-- ════════════════════════════════════════════════════════════════════════
-- Where columns stand
-- ════════════════════════════════════════════════════════════════════════

/-- The first token of a column is its name. -/
theorem Column.Derives.exists_name (h : Column.Derives depth ts w) :
    ∃ t us name, ts = t :: us ∧ t.name? = some name := by
  obtain ⟨hname, -, -⟩ := h
  exact ⟨_, _, _, rfl, hname⟩

/-- Each of some columns stands behind whole columns. -/
theorem Body.MoreColumns.exists_column {columns more : List Token} {count : Nat}
    {w₀ : WrittenColumn} {ws : List WrittenColumn} (h : Body.MoreColumns depth more ws)
    (hcolumns : Body.LeadingColumns depth columns count) (hts : Column.Derives depth ts w₀)
    (hends : Column.EndsColumn t) (hw : w ∈ w₀ :: ws) (tail : List Token) :
    ∃ columns' count' us t' tail', columns ++ ts ++ more ++ t :: tail =
        columns' ++ us ++ t' :: tail' ∧
      Body.LeadingColumns depth columns' count' ∧ Column.Derives depth us w ∧
      Column.EndsColumn t' := by
  induction h generalizing columns count ts w₀ with
  | nil =>
    obtain rfl : w = w₀ := by simpa using hw
    exact ⟨columns, count, ts, t, tail, by simp, hcolumns, hts, hends⟩
  | @cons comma us rest column ws hcomma hcolumn _ ih =>
    obtain rfl | hw := List.mem_cons.1 hw
    · exact ⟨columns, count, ts, comma, us ++ rest ++ t :: tail, by simp, hcolumns, hts,
        .inl hcomma⟩
    · obtain ⟨columns', count', vs, t', tail', heq, h⟩ := ih (hcolumns.snoc hts hcomma) hcolumn hw
      exact ⟨columns', count', vs, t', tail', by simpa using heq, h⟩

/-- What stands behind the columns of a body ends the last of them. -/
theorem Body.exists_endsColumn {comma : List Token} {closing : Token}
    {constraints : List CreateTable.TableConstraint} (h : Body.Constraints depth us constraints)
    (hcomma : OptionalComma comma) (hclosing : closing.kind = .rightParen) (rest : List Token) :
    ∃ t tail, us ++ (comma ++ closing :: rest) = t :: tail ∧ Column.EndsColumn t := by
  cases h with
  | present hfirst => exact ⟨_, _, rfl, .inl hfirst⟩
  | absent =>
    cases hcomma with
    | absent => exact ⟨closing, rest, rfl, .inr hclosing⟩
    | present hfirst => exact ⟨_, _, rfl, .inl hfirst⟩

namespace Statement

/-- The tokens before and behind a column: a header and whole columns, and from a token that ends
    the column on all that follows. -/
inductive AroundColumn (depth : Nat) : List Token → List Token → Prop
  | intro {header columns tail : List Token} {opening t : Token} {count : Nat} :
    Header header → opening.kind = .leftParen → Body.LeadingColumns depth columns count →
    Column.EndsColumn t → AroundColumn depth (header ++ opening :: columns) (t :: tail)

/-- Every column of a statement stands between such tokens. -/
theorem Derives.exists_column {written : List WrittenColumn} {table : Table}
    (h : Derives depth ts written table) (hw : w ∈ written) :
    ∃ before us after, ts = before ++ us ++ after ∧ AroundColumn depth before after ∧
      Column.Derives depth us w := by
  obtain @⟨create, word, opening, closing, temps, ifs, names, body, options, ends, temporary,
    ifNotExists, schema, name, _, constraints, _, hcreate, htemps, hword, hifs, hnames, hopening,
    hbody, hclosing, -, -⟩ := h
  obtain @⟨first, more, us, comma, w₀, ws, _, hfirst, hmore, hus, hcomma⟩ := hbody
  obtain ⟨t, tail, htail, hends⟩ :=
    Body.exists_endsColumn hus hcomma hclosing (options ++ ends)
  obtain ⟨columns, count, vs, t', tail', heq, hcolumns, hvs, hends'⟩ :=
    hmore.exists_column .nil hfirst hends hw tail
  refine ⟨_, vs, t' :: tail', ?_,
    .intro (.intro (.intro hcreate htemps hword) hifs hnames) hopening hcolumns hends', hvs⟩
  rw [← htail, List.nil_append] at heq
  simpa using congrArg (create :: temps ++ word :: ifs ++ names ++ opening :: ·) heq

end Statement

-- ════════════════════════════════════════════════════════════════════════
-- What is kept of columns
-- ════════════════════════════════════════════════════════════════════════

namespace Body

theorem afterColumn_congr (hkind : t.kind = t'.kind) (hends : Column.EndsColumn t)
    (p : Progress) : afterColumn p t = afterColumn p t' := by
  obtain ht | ht := hends
  · simp [afterColumn, ← hkind, ht]
  · simp [afterColumn, finish, takeKind, ← hkind, ht]

/-- A column is taken up to the token that ends it. -/
theorem takes_column (h : Column.Derives limits.maxExprDepth (u :: us) w)
    (hends : Column.EndsColumn t) (hname : u.name? = some name) (p : Progress) :
    ∃ s, Takes (step limits) (.column p (.ofName name)) us s ∧
      step limits s t = afterColumn (p.addColumn w.column) t := by
  obtain ⟨_, _, heq, hname', haccepts⟩ := Column.accepts_of_derives h hends
  obtain ⟨rfl, rfl⟩ := List.cons.inj heq
  obtain rfl := Option.some.inj (hname'.symm.trans hname)
  obtain ⟨s, htakes, hcomplete⟩ := haccepts.takes
  refine ⟨.column p s, htakes.part (fun c => afterColumn (p.addColumn c)) fun _ _ => rfl, ?_⟩
  simp only [step, hcomplete, Verdict.andThen_complete]

end Body

namespace Statement

/-- What is read behind a column depends on what the column declares. -/
theorem accepts_column_iff (h : Column.Derives limits.maxExprDepth (u :: us) w)
    (hends : Column.EndsColumn t) (hname : u.name? = some name) (table result : Table)
    (p : Body.Progress) :
    Accepts (step limits) (.body table (.column p (.ofName name))) (us ++ t :: tail) e result ↔
      ∃ b, Body.afterColumn (p.addColumn w.column) t = .taken b ∧
        Accepts (step limits) (.body table b) tail e result := by
  obtain ⟨s, htakes, hstep⟩ := Body.takes_column h hends hname p
  have hbody : Takes (step limits) (.body table (.column p (.ofName name))) us (.body table s) :=
    htakes.part _ fun _ _ => rfl
  rw [hbody.accepts_append_iff, accepts_cons]
  simp only [step, hstep, Verdict.andThen_eq_taken, Body.afterColumn_ne_complete, false_and,
    exists_false, or_false]
  constructor
  · rintro ⟨_, ⟨b, hb, rfl⟩, haccepts⟩
    exact ⟨b, hb, haccepts⟩
  · rintro ⟨b, hb, haccepts⟩
    exact ⟨_, ⟨b, hb, rfl⟩, haccepts⟩

section

variable {header columns : List Token} {opening : Token} {count : Nat} {table : Table}

/-- The same behind the tokens before two columns that have the same name. -/
theorem accepts_replace_column (hheader : Header header) (hif : ¬NamesTableIf header)
    (hopening : opening.kind = .leftParen)
    (hcolumns : Body.LeadingColumns limits.maxExprDepth columns count)
    (hcount : count < limits.maxColumns) (hw : Column.Derives limits.maxExprDepth (u :: us) w)
    (hw' : Column.Derives limits.maxExprDepth (u :: us') w') (hcolumn : w.column = w'.column)
    (hends : Column.EndsColumn t) (hkind : t.kind = t'.kind)
    (h : Accepts (step limits) .start (header ++ opening :: columns ++ u :: us ++ t :: tail) e
      table) :
    Accepts (step limits) .start (header ++ opening :: columns ++ u :: us' ++ t' :: tail) e
      table := by
  have hends' : Column.EndsColumn t' := hends.imp hkind.symm.trans hkind.symm.trans
  have hsplit : ∀ vs t, header ++ opening :: columns ++ u :: vs ++ t :: tail =
      header ++ opening :: (columns ++ [u]) ++ (vs ++ t :: tail) := by simp
  obtain ⟨_, _, name, heq, hname⟩ := hw.exists_name
  obtain ⟨rfl, -⟩ := List.cons.inj heq
  obtain ⟨start, p, htakes⟩ :=
    takes_of_leadingColumns hheader hif hopening hcolumns hcount hname
  rw [hsplit, htakes.accepts_append_iff] at h ⊢
  rw [accepts_column_iff hw hends hname] at h
  rw [accepts_column_iff hw' hends' hname, ← hcolumn, ← Body.afterColumn_congr hkind hends]
  exact h

/-- A column may be written in another way behind its first token, as long as it declares the same.
    Behind it, other trivia may follow. -/
theorem Admits.replace_column {written : List WrittenColumn}
    (haround : AroundColumn limits.maxExprDepth before after)
    (hw : Column.Derives limits.maxExprDepth (u :: us) w)
    (hw' : Column.Derives limits.maxExprDepth (u :: us') w') (hcolumn : w.column = w'.column)
    (hafter : Token.Shifted after after')
    (h : Admits limits (before ++ u :: us ++ after) written table) :
    ∃ written', Admits limits (before ++ u :: us' ++ after') written' table := by
  obtain ⟨hderives, hlength, hnamesIf⟩ := h
  obtain @⟨header, columns, tail, opening, t, count, hheader, hopening, hcolumns, hends⟩ := haround
  obtain _ | @⟨_, t', _, tail', halike, htail⟩ := hafter
  -- nothing is assumed of the number of columns before this one, so the limit is made large enough
  let roomy : Limits := { limits with maxColumns := max limits.maxColumns (count + 1) }
  have hadmits : Admits roomy (header ++ opening :: columns ++ u :: us ++ t :: tail) written table :=
    ⟨hderives, Nat.le_trans hlength (Nat.le_max_left ..), hnamesIf⟩
  have hif : ¬NamesTableIf header := by
    intro hnames
    refine hnamesIf ?_
    rw [List.append_assoc, List.append_assoc, List.cons_append]
    exact hnames.append (by simp [hopening]) _
  have haccepts : Accepts (step roomy) .start _ .ending table := accepts_of_admits hadmits rfl
  have haccepts' : Accepts (step roomy) .start
      (header ++ opening :: columns ++ u :: us' ++ t' :: tail) .ending table :=
    accepts_replace_column hheader hif hopening hcolumns (Nat.le_max_right ..) hw hw' hcolumn hends
      halike.1 haccepts
  obtain ⟨written', hderives', -, hnamesIf'⟩ := (accepts_iff rfl).1 haccepts'
  have hsame : List.Forall₂ Token.Same (header ++ opening :: columns ++ u :: us' ++ t' :: tail)
      (header ++ opening :: columns ++ u :: us' ++ t' :: tail') :=
    List.rel_append (Token.same_refl _) (.cons (.refl t') htail)
  have hall : Admits limits _ written' table := ⟨hderives', hlength, hnamesIf'⟩
  exact hall.of_same hsame

end

end Statement

end CreateTable.Grammar
