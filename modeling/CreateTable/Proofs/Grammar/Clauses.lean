import CreateTable.Proofs.Grammar.Acceptance
import CreateTable.Proofs.Grammar.Derivation

/-!
# Readers of clauses

The readers of lists of names, numbers, conflict clauses, expressions and columns of keys take what
the rules derive.

## Main definitions

- `NameList.residual`, `SignedNumber.residual`, … — what is due in each state of a reader

## Main statements

- `NameList.isResidual`, `SignedNumber.isResidual`, … — each step takes what is due
- `NameList.accepts_of_derives`, `SignedNumber.accepts_of_derives`, … — what is derived is taken

## Design notes

A clause that may be absent, or may go on, is followed by a token that does not continue it. Which
tokens those are is a hypothesis of the second kind of statement.
-/

namespace CreateTable.Grammar

namespace NameList

variable {role : NameRole} {closing : Expectation}

/-- The names due in a state, behind those that the state holds. -/
def residual : State → List Token → List String → Prop
  | .name read, ts, names => ∃ more, Derives ts more ∧ names = read.reverse ++ more
  | .next read, ts, names =>
    (∃ t, ts = [t] ∧ t.kind = .rightParen ∧ names = read.reverse) ∨
    ∃ t rest more, ts = t :: rest ∧ t.kind = .comma ∧ Derives rest more ∧
      names = read.reverse ++ more
  | .closed read, ts, names => ts = [] ∧ names = read

theorem isResidual : IsResidual (step role closing) residual where
  taken {s s' t ts names} h hr := by
    cases s with
    | name read =>
      obtain ⟨name, hname, rfl⟩ := takeName_eq_taken.1 h
      obtain ⟨close, rfl, hclose, rfl⟩ | ⟨comma, rest, more, rfl, hcomma, hmore, rfl⟩ := hr
      · exact ⟨[name], .last hname hclose, by simp⟩
      · exact ⟨name :: more, .more hname hcomma hmore, by simp⟩
    | next read =>
      simp only [step] at h
      split at h
      · rename_i hcomma
        obtain rfl := Verdict.taken.inj h
        obtain ⟨more, hmore, rfl⟩ := hr
        exact .inr ⟨t, ts, more, rfl, hcomma, hmore, rfl⟩
      · rename_i hclose
        obtain rfl := Verdict.taken.inj h
        obtain ⟨rfl, rfl⟩ := hr
        exact .inl ⟨t, rfl, hclose, rfl⟩
      · simp at h
    | closed read => simp [step] at h
  complete {s t names} h := by
    cases s with
    | name read => simp [step] at h
    | next read =>
      simp only [step] at h
      split at h <;> simp at h
    | closed read =>
      obtain rfl := Verdict.complete.inj h
      exact ⟨rfl, rfl⟩

theorem accepts_of_derives {ts : List Token} {names : List String} (h : Derives ts names)
    (read : List String) (e : Token) :
    Accepts (step role closing) (.name read) ts e (read.reverse ++ names) := by
  induction h generalizing read with
  | last hname hclose => simp [step, takeName, hname, hclose]
  | @more t comma name rest names hname hcomma _ ih =>
    simpa [step, takeName, hname, hcomma] using ih (name :: read)

end NameList

namespace SignedNumber

variable {what : Expectation}

/-- The tokens due in a state, and the number that they end. -/
def residual : State → List Token → List Token → Prop
  | .start, ts, number => Derives ts ∧ number = ts
  | .signed sign, ts, number => ∃ t, ts = [t] ∧ t.kind = .number ∧ number = [sign, t]
  | .closed read, ts, number => ts = [] ∧ number = read

theorem isResidual : IsResidual (step what) residual where
  taken {s s' t ts number} h hr := by
    cases s with
    | start =>
      simp only [step] at h
      split at h
      · rename_i hnumber
        obtain rfl := Verdict.taken.inj h
        obtain ⟨rfl, rfl⟩ := hr
        exact ⟨.plain hnumber, rfl⟩
      · split at h
        · rename_i hsign
          obtain rfl := Verdict.taken.inj h
          obtain ⟨u, rfl, hu, rfl⟩ := hr
          exact ⟨.signed hsign hu, rfl⟩
        · simp at h
    | signed sign =>
      obtain ⟨hnumber, rfl⟩ := takeKind_eq_taken.1 h
      obtain ⟨rfl, rfl⟩ := hr
      exact ⟨t, rfl, hnumber, rfl⟩
    | closed read => simp [step] at h
  complete {s t number} h := by
    cases s with
    | start =>
      simp only [step] at h
      split at h
      · simp at h
      · split at h <;> simp at h
    | signed sign => simp [step] at h
    | closed read =>
      obtain rfl := Verdict.complete.inj h
      exact ⟨rfl, rfl⟩

theorem accepts_of_derives {ts : List Token} (h : Derives ts) (e : Token) :
    Accepts (step what) .start ts e ts := by
  cases h with
  | plain hnumber => simp [step, hnumber]
  | @signed sign number hsign hnumber =>
    have hne : sign.kind ≠ .number := by
      intro hkind
      simp [Token.isSign, hkind] at hsign
    simp [step, takeKind, hne, hsign, hnumber]

end SignedNumber

namespace ConflictClause

/-- The tokens due in a state, and the resolution that they end. -/
def residual : State → List Token → ConflictResolution → Prop
  | .start, ts, r => Derives ts r
  | .conflict, ts, r =>
    ∃ t u, ts = [t, u] ∧ t.kind = .keyword .conflict ∧ resolution? u = some r
  | .resolution, ts, r => ∃ t, ts = [t] ∧ resolution? t = some r
  | .closed read, ts, r => ts = [] ∧ r = read

theorem isResidual : IsResidual step residual where
  taken {s s' t ts r} h hr := by
    cases s with
    | start =>
      simp only [step] at h
      split at h
      · rename_i hon
        obtain rfl := Verdict.taken.inj h
        obtain ⟨conflict, word, rfl, hconflict, hword⟩ := hr
        exact .present (Token.isKeyword_iff.1 hon) hconflict hword
      · simp at h
    | conflict =>
      obtain ⟨hconflict, rfl⟩ := takeKeyword_eq_taken.1 h
      obtain ⟨word, rfl, hword⟩ := hr
      exact ⟨t, word, rfl, hconflict, hword⟩
    | resolution =>
      simp only [step] at h
      split at h
      · rename_i hword
        obtain rfl := Verdict.taken.inj h
        obtain ⟨rfl, rfl⟩ := hr
        exact ⟨t, rfl, hword⟩
      · simp at h
    | closed read => simp [step] at h
  complete {s t r} h := by
    cases s with
    | start =>
      simp only [step] at h
      split at h
      · simp at h
      · obtain rfl := Verdict.complete.inj h
        exact .absent
    | conflict => simp [step] at h
    | resolution =>
      simp only [step] at h
      split at h <;> simp at h
    | closed read =>
      obtain rfl := Verdict.complete.inj h
      exact ⟨rfl, rfl⟩

theorem accepts_of_derives {ts : List Token} {r : ConflictResolution} (h : Derives ts r)
    {e : Token} (he : e.kind ≠ .keyword .on) : Accepts step .start ts e r := by
  cases h with
  | absent => simp [step, he]
  | present hon hconflict hword => simp [step, takeKeyword, takeKind, hon, hconflict, hword]

end ConflictClause

namespace Expression

variable {limits : Limits} {bound nested : Nat} {t : Token} {ts : List Token}

@[simp] theorem balanced_nil : Balanced bound nested [] ↔ nested = 0 := Iff.rfl

theorem balanced_cons_leftParen (h : t.kind = .leftParen) :
    Balanced bound nested (t :: ts) ↔ nested < bound ∧ Balanced bound (nested + 1) ts := by
  simp [Balanced, h]

theorem balanced_cons_rightParen (h : t.kind = .rightParen) :
    Balanced bound nested (t :: ts) ↔ 0 < nested ∧ Balanced bound (nested - 1) ts := by
  simp [Balanced, h]

theorem balanced_cons_other (hl : t.kind ≠ .leftParen) (hr : t.kind ≠ .rightParen)
    (he : t.kind ≠ .endOfInput) :
    Balanced bound nested (t :: ts) ↔ Balanced bound nested ts := by
  rw [Balanced]
  split <;> simp_all

theorem not_balanced_cons_endOfInput (h : t.kind = .endOfInput) :
    ¬Balanced bound nested (t :: ts) := by
  simp [Balanced, h]

/-- The tokens due in a state, and the text of the expression that they end. -/
def residual (limits : Limits) : State → List Token → String → Prop
  | .opening, ts, text => Derives limits.maxExprDepth ts text
  | .inside nested read, ts, text =>
    ∃ inner closing, ts = inner ++ [closing] ∧ closing.kind = .rightParen ∧
      Balanced (limits.maxExprDepth - 1) nested inner ∧ read.reverse ++ inner ≠ [] ∧
      text = Token.verbatim (read.reverse ++ inner)
  | .closed read, ts, text => ts = [] ∧ text = read
  | .empty _, _, _ => False

/-- One more token inside an expression. -/
private theorem residual_inside_cons {nested' : Nat} {read : List Token} {text : String}
    (h : residual limits (.inside nested' (t :: read)) ts text)
    (hb : ∀ inner, Balanced (limits.maxExprDepth - 1) nested' inner →
      Balanced (limits.maxExprDepth - 1) nested (t :: inner)) :
    residual limits (.inside nested read) (t :: ts) text := by
  obtain ⟨inner, closing, rfl, hclosing, hinner, -, rfl⟩ := h
  exact ⟨t :: inner, closing, rfl, hclosing, hb inner hinner, by simp, by simp⟩

theorem isResidual : IsResidual (step limits) (residual limits) where
  taken {s s' t ts text} h hr := by
    cases s with
    | opening =>
      obtain ⟨hopening, rfl⟩ := takeKind_eq_taken.1 h
      obtain ⟨inner, closing, rfl, hclosing, hinner, hne, rfl⟩ := hr
      exact .intro hopening hne hinner hclosing
    | inside nested read =>
      simp only [step] at h
      split at h
      · simp at h
      · rename_i hleft
        split at h
        · rename_i hbound
          obtain rfl := Verdict.taken.inj h
          refine residual_inside_cons hr fun inner hinner => ?_
          exact (balanced_cons_leftParen hleft).2 ⟨by omega, hinner⟩
        · simp at h
      · rename_i hright
        obtain rfl := Verdict.taken.inj h
        -- the parenthesis that closes the expression: the state tells whether it is empty
        unfold close at hr
        split at hr
        · exact hr.elim
        · rename_i hread
          obtain ⟨rfl, rfl⟩ := hr
          exact ⟨[], t, rfl, hright, rfl, by simpa using hread, by simp⟩
      · rename_i hright
        obtain rfl := Verdict.taken.inj h
        refine residual_inside_cons hr fun inner hinner => ?_
        exact (balanced_cons_rightParen hright).2 ⟨by omega, hinner⟩
      · rename_i opened _ _ hend hleft hzero hsucc
        obtain rfl := Verdict.taken.inj h
        refine residual_inside_cons hr fun inner hinner => ?_
        refine (balanced_cons_other hleft (fun hright => ?_) hend).2 hinner
        cases opened with
        | zero => exact hzero hright rfl
        | succ n => exact hsucc n hright rfl
    | closed read => simp [step] at h
    | empty close => simp [step] at h
  complete {s t text} h := by
    cases s with
    | opening => simp [step] at h
    | inside nested read =>
      simp only [step] at h
      split at h
      · simp at h
      · split at h <;> simp at h
      · simp at h
      · simp at h
      · simp at h
    | closed read =>
      obtain rfl := Verdict.complete.inj h
      exact ⟨rfl, rfl⟩
    | empty close => simp [step] at h

section

variable {read : List Token}

theorem step_inside_leftParen (h : t.kind = .leftParen)
    (hbound : nested + 2 ≤ limits.maxExprDepth) :
    step limits (.inside nested read) t = .taken (.inside (nested + 1) (t :: read)) := by
  obtain ⟨kind, lead, text, start⟩ := t
  obtain rfl := h
  exact if_pos hbound

theorem step_inside_rightParen (h : t.kind = .rightParen) :
    step limits (.inside (nested + 1) read) t = .taken (.inside nested (t :: read)) := by
  obtain ⟨kind, lead, text, start⟩ := t
  obtain rfl := h
  rfl

theorem step_inside_outer (h : t.kind = .rightParen) :
    step limits (.inside 0 read) t = .taken (close read t) := by
  obtain ⟨kind, lead, text, start⟩ := t
  obtain rfl := h
  rfl

theorem step_inside_other (hl : t.kind ≠ .leftParen) (hr : t.kind ≠ .rightParen)
    (he : t.kind ≠ .endOfInput) :
    step limits (.inside nested read) t = .taken (.inside nested (t :: read)) := by
  obtain ⟨kind, lead, text, start⟩ := t
  cases kind with
  | leftParen => exact absurd rfl hl
  | rightParen => exact absurd rfl hr
  | endOfInput => exact absurd rfl he
  | _ => rfl

end

/-- The steps through tokens whose parentheses match lead to the closing parenthesis. -/
private theorem accepts_inside {inner : List Token} {closing : Token}
    (hclosing : closing.kind = .rightParen) (read : List Token)
    (hne : read.reverse ++ inner ≠ [])
    (h : Balanced (limits.maxExprDepth - 1) nested inner) (e : Token) :
    Accepts (step limits) (.inside nested read) (inner ++ [closing]) e
      (Token.verbatim (read.reverse ++ inner)) := by
  -- the depth and the tokens read change from token to token, and `Balanced` follows the depth
  induction inner generalizing nested read with
  | nil =>
    obtain rfl := balanced_nil.1 h
    have hread : read ≠ [] := by simpa using hne
    simp [step, hclosing, close, hread]
  | cons t inner ih =>
    have hmore : ∀ nested' : Nat, Balanced (limits.maxExprDepth - 1) nested' inner →
        Accepts (step limits) (.inside nested' (t :: read)) (inner ++ [closing]) e
          (Token.verbatim (read.reverse ++ t :: inner)) := by
      intro nested' hinner
      simpa using ih (t :: read) (by simp) hinner
    by_cases hleft : t.kind = .leftParen
    · obtain ⟨hlt, hinner⟩ := (balanced_cons_leftParen hleft).1 h
      exact .take (step_inside_leftParen hleft (by omega)) (hmore _ hinner)
    by_cases hright : t.kind = .rightParen
    · obtain ⟨hpos, hinner⟩ := (balanced_cons_rightParen hright).1 h
      obtain ⟨n, rfl⟩ := Nat.exists_eq_succ_of_ne_zero (Nat.ne_of_gt hpos)
      exact .take (step_inside_rightParen hright) (hmore _ hinner)
    by_cases hend : t.kind = .endOfInput
    · exact absurd h (not_balanced_cons_endOfInput hend)
    have hinner := (balanced_cons_other hleft hright hend).1 h
    exact .take (step_inside_other hleft hright hend) (hmore _ hinner)

/-- Behind the outer opening parenthesis, the rest of an expression is taken. -/
theorem accepts_inside_of_derives {opening : Token} {text : String}
    (h : Derives limits.maxExprDepth (opening :: ts) text) (e : Token) :
    Accepts (step limits) (.inside 0 []) ts e text := by
  obtain ⟨_, hne, hinner, hclosing⟩ := h
  exact accepts_inside hclosing [] (by simpa using hne) hinner e

theorem accepts_of_derives {text : String} (h : Derives limits.maxExprDepth ts text) (e : Token) :
    Accepts (step limits) .opening ts e text := by
  obtain ⟨hopening, hne, hinner, hclosing⟩ := h
  refine Accepts.take (n := .inside 0 []) (by simp [step, hopening]) ?_
  exact accepts_inside hclosing [] (by simpa using hne) hinner e

end Expression

namespace IndexedColumns

/-- What is due behind a column: the end of the list, or a comma and more columns. -/
def Rest (read : List IndexedColumn) (ts : List Token) (columns : List IndexedColumn) : Prop :=
  (∃ t, ts = [t] ∧ t.kind = .rightParen ∧ columns = read.reverse) ∨
  ∃ t rest more, ts = t :: rest ∧ t.kind = .comma ∧ Items rest more ∧
    columns = read.reverse ++ more

/-- What is due where a direction may stand. -/
def OrderRest (read : List IndexedColumn) (column : IndexedColumn) (ts : List Token)
    (columns : List IndexedColumn) : Prop :=
  Rest (column :: read) ts columns ∨
  ∃ t rest order, ts = t :: rest ∧ t.sortOrder? = some order ∧
    Rest ({ column with order } :: read) rest columns

/-- The columns due in a state, behind those that the state holds. -/
def residual : State → List Token → List IndexedColumn → Prop
  | .opening, ts, columns => Derives ts columns
  | .name read, ts, columns => ∃ more, Items ts more ∧ columns = read.reverse ++ more
  | .named read column, ts, columns =>
    OrderRest read column ts columns ∨
    ∃ word t rest name, ts = word :: t :: rest ∧ word.kind = .keyword .collate ∧
      t.name? = some name ∧ OrderRest read { column with collation := some name } rest columns
  | .collation read column, ts, columns =>
    ∃ t rest name, ts = t :: rest ∧ t.name? = some name ∧
      OrderRest read { column with collation := some name } rest columns
  | .collated read column, ts, columns => OrderRest read column ts columns
  | .next read, ts, columns => Rest read ts columns
  | .closed read, ts, columns => ts = [] ∧ columns = read

section

variable {s : State} {t : Token} {ts rest : List Token} {read columns : List IndexedColumn}
  {column : IndexedColumn}

/-- A list that goes on behind a column is a list with that column. -/
theorem Rest.items (h : Rest (column :: read) rest columns) (hts : Item ts column) :
    ∃ more, Items (ts ++ rest) more ∧ columns = read.reverse ++ more := by
  obtain ⟨close, rfl, hclose, rfl⟩ | ⟨comma, rest, more, rfl, hcomma, hmore, rfl⟩ := h
  · exact ⟨[column], .last hts hclose, by simp⟩
  · exact ⟨column :: more, .more hts hcomma hmore, by simp⟩

theorem OrderRest.items {words : List Token} {name : String} {collation : Option String}
    (h : OrderRest read { name, collation } rest columns) (hname : t.name? = some name)
    (hwords : Collation words collation) :
    ∃ more, Items (t :: words ++ rest) more ∧ columns = read.reverse ++ more := by
  obtain h | ⟨u, rest, order, rfl, horder, h⟩ := h
  · have hitem := Item.intro hname hwords .absent
    rw [List.append_nil] at hitem
    exact h.items hitem
  · obtain ⟨more, hmore, hcolumns⟩ := h.items (.intro hname hwords (.present horder))
    exact ⟨more, by simpa using hmore, hcolumns⟩

theorem residual_afterColumn (h : afterColumn read t = .taken s) (hr : residual s ts columns) :
    Rest read (t :: ts) columns := by
  unfold afterColumn at h
  split at h
  · rename_i hcomma
    obtain rfl := Verdict.taken.inj h
    obtain ⟨more, hmore, rfl⟩ := hr
    exact .inr ⟨t, ts, more, rfl, hcomma, hmore, rfl⟩
  · rename_i hclose
    obtain rfl := Verdict.taken.inj h
    obtain ⟨rfl, rfl⟩ := hr
    exact .inl ⟨t, rfl, hclose, rfl⟩
  · simp at h

theorem residual_afterCollation (h : afterCollation read column t = .taken s)
    (hr : residual s ts columns) : OrderRest read column (t :: ts) columns := by
  unfold afterCollation at h
  split at h
  · rename_i order horder
    obtain rfl := Verdict.taken.inj h
    exact .inr ⟨t, ts, order, rfl, horder, hr⟩
  · exact .inl (residual_afterColumn h hr)

theorem afterColumn_ne_complete : afterColumn read t ≠ .complete columns := by
  unfold afterColumn
  split <;> simp

theorem afterCollation_ne_complete : afterCollation read column t ≠ .complete columns := by
  unfold afterCollation
  split
  · simp
  · exact afterColumn_ne_complete

end

theorem isResidual : IsResidual step residual where
  taken {s s' t ts columns} h hr := by
    cases s with
    | opening =>
      obtain ⟨hopening, rfl⟩ := takeKind_eq_taken.1 h
      obtain ⟨more, hmore, rfl⟩ := hr
      exact .intro hopening hmore
    | name read =>
      obtain ⟨name, hname, rfl⟩ := takeName_eq_taken.1 h
      obtain h | ⟨word, u, rest, collation, rfl, hword, hu, h⟩ := hr
      · exact h.items hname .absent
      · exact h.items hname (.present hword hu)
    | named read column =>
      simp only [step] at h
      split at h
      · rename_i hword
        obtain rfl := Verdict.taken.inj h
        obtain ⟨u, rest, name, rfl, hname, hr⟩ := hr
        exact .inr ⟨t, u, rest, name, rfl, Token.isKeyword_iff.1 hword, hname, hr⟩
      · exact .inl (residual_afterCollation h hr)
    | collation read column =>
      obtain ⟨name, hname, rfl⟩ := takeName_eq_taken.1 h
      exact ⟨t, ts, name, rfl, hname, hr⟩
    | collated read column => exact residual_afterCollation h hr
    | next read => exact residual_afterColumn h hr
    | closed read => simp [step] at h
  complete {s t columns} h := by
    cases s with
    | opening => simp [step] at h
    | name read => simp [step] at h
    | named read column =>
      simp only [step] at h
      split at h
      · simp at h
      · exact absurd h afterCollation_ne_complete
    | collation read column => simp [step] at h
    | collated read column => exact absurd h afterCollation_ne_complete
    | next read => exact absurd h afterColumn_ne_complete
    | closed read =>
      obtain rfl := Verdict.complete.inj h
      exact ⟨rfl, rfl⟩

section

variable {e : Token} {ts rest : List Token} {read columns : List IndexedColumn}
  {column : IndexedColumn}

/-- A direction is taken, and where none stands the column ends. -/
private theorem leads_afterCollation {orders : List Token} {order : SortOrder}
    (h : SortClause.Derives orders order) (hcolumn : column.order = .unspecified)
    (hrest : (rest.headD e).sortOrder? = none)
    (hnext : Accepts step (.next ({ column with order } :: read)) rest e columns) :
    Leads step (afterCollation read column ((orders ++ rest).headD e)) (orders ++ rest) e
      columns := by
  cases h with
  | absent =>
    have hcolumn : { column with order := .unspecified } = column := by rw [← hcolumn]
    rw [hcolumn, accepts_iff_leads] at hnext
    rw [List.nil_append]
    unfold afterCollation
    rw [hrest]
    exact hnext
  | @present t order horder =>
    have hstep : afterCollation read column t = .taken (.next ({ column with order } :: read)) := by
      unfold afterCollation
      rw [horder]
    exact ⟨_, hstep, hnext⟩

theorem kind_ne_collate_of_sortOrder? {t : Token} {order : SortOrder}
    (h : t.sortOrder? = some order) : t.kind ≠ .keyword .collate := by
  intro hkind
  simp [Token.sortOrder?, hkind, SortOrder.ofKeyword?] at h

/-- A column is taken if neither a collation nor a direction follows. -/
private theorem accepts_item {ts : List Token} (h : Item ts column)
    (hcollate : (rest.headD e).kind ≠ .keyword .collate)
    (hrest : (rest.headD e).sortOrder? = none)
    (hnext : Accepts step (.next (column :: read)) rest e columns) :
    Accepts step (.name read) (ts ++ rest) e columns := by
  obtain @⟨t, words, orders, name, collation, order, hname, hwords, horders⟩ := h
  have hlead : Leads step (afterCollation read { name, collation } ((orders ++ rest).headD e))
      (orders ++ rest) e columns := leads_afterCollation horders rfl hrest hnext
  rw [List.cons_append, List.cons_append, List.append_assoc]
  refine Accepts.take (n := .named read { name }) (by simp [step, takeName, hname]) ?_
  cases hwords with
  | absent =>
    have hfirst : ((orders ++ rest).headD e).kind ≠ .keyword .collate := by
      cases horders with
      | absent => exact hcollate
      | present horder => exact kind_ne_collate_of_sortOrder? horder
    rw [List.nil_append, accepts_iff_leads]
    simp only [step, Token.isKeyword_iff, hfirst, if_false]
    exact hlead
  | @present word u collation hword hu =>
    refine Accepts.take (n := .collation read { name }) (by simp [step, hword]) ?_
    refine Accepts.take (n := .collated read { name, collation := some collation })
      (by simp [step, takeName, hu]) ?_
    exact accepts_iff_leads.2 hlead

private theorem accepts_items {ts : List Token} {more : List IndexedColumn} (h : Items ts more)
    (read : List IndexedColumn) (e : Token) :
    Accepts step (.name read) ts e (read.reverse ++ more) := by
  induction h generalizing read with
  | @last ts close column hts hclose =>
    have hnext : Accepts step (.next (column :: read)) [close] e (read.reverse ++ [column]) := by
      simp [step, afterColumn, hclose]
    refine accepts_item hts ?_ ?_ hnext
    · simp [hclose]
    · simp [Token.sortOrder?, hclose]
  | @more ts rest comma column more hts hcomma _ ih =>
    have hnext : Accepts step (.next (column :: read)) (comma :: rest) e
        (read.reverse ++ column :: more) := by
      refine Accepts.take (n := .name (column :: read)) (by simp [step, afterColumn, hcomma]) ?_
      simpa using ih (column :: read)
    refine accepts_item hts ?_ ?_ hnext
    · simp [hcomma]
    · simp [Token.sortOrder?, hcomma]

theorem accepts_of_derives {ts : List Token} (h : Derives ts columns) (e : Token) :
    Accepts step .opening ts e columns := by
  obtain ⟨hopening, hitems⟩ := h
  refine Accepts.take (n := .name []) (by simp [step, takeKind, hopening]) ?_
  exact accepts_items hitems [] e

end

end IndexedColumns

end CreateTable.Grammar
