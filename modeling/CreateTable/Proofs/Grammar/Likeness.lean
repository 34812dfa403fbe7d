import CreateTable.Proofs.Grammar.Statement
import CreateTable.Proofs.Rendering.WellFormed

/-!
# The grammar and the layout of a text

The rules look at the kinds and texts of tokens, and not at where the tokens stand or at what
stands between them. Tokens that are alike one by one are derived by the same rules. What they mean
may differ only in the texts that are held as they were written.

## Main statements

- `Expression.Derives.of_alike`, `Column.Derives.of_alike`, `TableConstraint.Derives.of_alike` — the
  rules that hold such texts
- `Statement.Derives.of_alike` — statements
- `Statement.Admits.of_alike` — statements that are read
-/

namespace CreateTable

namespace Token

variable {t u : Token} {ts us : List Token}

theorem Alike.symm (h : t.Alike u) : u.Alike t := ⟨h.1.symm, h.2.symm⟩

theorem Alike.sortOrder? (h : t.Alike u) : t.sortOrder? = u.sortOrder? := by
  simp only [Token.sortOrder?, h.1]

theorem Alike.isBareWord (h : t.Alike u) (word : String) :
    t.isBareWord word = u.isBareWord word := by
  simp only [Token.isBareWord, h.1, h.2]

theorem Alike.isWord (h : t.Alike u) (word : String) : t.isWord word = u.isWord word := by
  simp only [Token.isWord, h.isBareWord, h.1]

theorem alike_refl (ts : List Token) : List.Forall₂ Alike ts ts :=
  List.forall₂_same.2 fun _ _ => ⟨rfl, rfl⟩

theorem alike_symm (h : List.Forall₂ Alike ts us) : List.Forall₂ Alike us ts :=
  h.flip.imp fun _ _ => Alike.symm

/-- One token is like one token. -/
theorem exists_singleton_of_alike (h : List.Forall₂ Alike [t] us) : ∃ u, us = [u] ∧ t.Alike u := by
  obtain _ | ⟨hhead, hnil⟩ := h
  obtain _ | _ := hnil
  exact ⟨_, rfl, hhead⟩

theorem alike_of_same (h : List.Forall₂ Same ts us) : List.Forall₂ Alike ts us :=
  h.imp fun _ _ hsame => hsame.1

/-- Rows that are shifted are taken apart. -/
theorem Shifted.of_append {ts' us' : List Token} (h : Shifted (ts ++ ts') (us ++ us'))
    (hlength : ts.length = us.length) : Shifted ts us ∧ Shifted ts' us' := by
  cases ts with
  | nil =>
    obtain rfl := List.length_eq_zero_iff.1 hlength.symm
    exact ⟨.nil, h⟩
  | cons t ts =>
    obtain ⟨u, us, rfl⟩ := List.exists_cons_of_length_eq_add_one hlength.symm
    obtain _ | ⟨hhead, hrest⟩ := h
    obtain ⟨vs, vs', heq, hvs, hvs'⟩ := exists_append_of_forall₂ hrest
    obtain ⟨rfl, rfl⟩ := List.append_inj heq (by simpa [hvs.length_eq] using hlength.symm)
    exact ⟨.cons hhead hvs, shifted_of_same hvs'⟩

theorem ne_nil_of_alike (h : List.Forall₂ Alike ts us) (hne : ts ≠ []) : us ≠ [] := by
  rintro rfl
  exact hne (List.forall₂_nil_right_iff.1 h)

end Token

namespace Grammar

open Token

variable {depth : Nat} {ts us : List Token}

-- ════════════════════════════════════════════════════════════════════════
-- Parts of constraints
-- ════════════════════════════════════════════════════════════════════════

theorem NameList.Derives.of_alike {names : List String} (h : NameList.Derives ts names)
    (hlike : List.Forall₂ Alike ts us) : NameList.Derives us names := by
  induction h generalizing us with
  | last hname hclose =>
    obtain _ | ⟨ht, hrest⟩ := hlike
    obtain ⟨close, rfl, hc⟩ := exists_singleton_of_alike hrest
    exact .last (ht.name? ▸ hname) (hc.1 ▸ hclose)
  | more hname hcomma _ ih =>
    obtain _ | ⟨ht, hrest⟩ := hlike
    obtain _ | ⟨hc, hrest⟩ := hrest
    exact .more (ht.name? ▸ hname) (hc.1 ▸ hcomma) (ih hrest)

theorem ConflictClause.resolution?_of_alike {t u : Token} (h : t.Alike u) :
    resolution? t = resolution? u := by
  simp only [resolution?, h.1]

theorem ConflictClause.Derives.of_alike {resolution : ConflictResolution}
    (h : ConflictClause.Derives ts resolution) (hlike : List.Forall₂ Alike ts us) :
    ConflictClause.Derives us resolution := by
  cases h with
  | absent =>
    obtain _ | _ := hlike
    exact .absent
  | present hon hconflict hword =>
    obtain _ | ⟨ho, hrest⟩ := hlike
    obtain _ | ⟨hc, hrest⟩ := hrest
    obtain ⟨word, rfl, hw⟩ := exists_singleton_of_alike hrest
    exact .present (ho.1 ▸ hon) (hc.1 ▸ hconflict) (resolution?_of_alike hw ▸ hword)

theorem SortClause.Derives.of_alike {order : SortOrder} (h : SortClause.Derives ts order)
    (hlike : List.Forall₂ Alike ts us) : SortClause.Derives us order := by
  cases h with
  | absent =>
    obtain _ | _ := hlike
    exact .absent
  | present horder =>
    obtain ⟨u, rfl, hu⟩ := exists_singleton_of_alike hlike
    exact .present (hu.sortOrder? ▸ horder)

/-- The text of an expression may differ, unless nothing but the place does. -/
theorem Expression.Derives.of_alike {text : String} (h : Expression.Derives depth ts text)
    (hlike : List.Forall₂ Alike ts us) :
    ∃ text', Expression.Derives depth us text' ∧ (List.Forall₂ Same ts us → text' = text) := by
  obtain ⟨hopening, hne, hbalanced, hclosing⟩ := h
  obtain ⟨front, close, rfl, hfront, hclose⟩ := exists_append_of_forall₂ hlike
  obtain _ | ⟨ho, hinner⟩ := hfront
  obtain ⟨c, rfl, hc⟩ := exists_singleton_of_alike hclose
  refine ⟨_, .intro (ho.1 ▸ hopening) (ne_nil_of_alike hinner hne) (hbalanced.of_alike hinner)
    (hc.1 ▸ hclosing), fun hsame => ?_⟩
  obtain _ | ⟨-, hrest⟩ := hsame
  obtain ⟨hinner', -⟩ := (shifted_of_same hrest).of_append hinner.length_eq
  exact hinner'.verbatim_eq.symm

namespace IndexedColumns

variable {column : IndexedColumn} {columns : List IndexedColumn}

theorem Collation.of_alike {collation : Option String} (h : Collation ts collation)
    (hlike : List.Forall₂ Alike ts us) : Collation us collation := by
  cases h with
  | absent =>
    obtain _ | _ := hlike
    exact .absent
  | present hword hname =>
    obtain _ | ⟨hw, hrest⟩ := hlike
    obtain ⟨u, rfl, hu⟩ := exists_singleton_of_alike hrest
    exact .present (hw.1 ▸ hword) (hu.name? ▸ hname)

theorem Item.of_alike (h : Item ts column) (hlike : List.Forall₂ Alike ts us) :
    Item us column := by
  obtain ⟨hname, hcollation, horder⟩ := h
  obtain ⟨front, orders, rfl, hfront, horders⟩ := exists_append_of_forall₂ hlike
  obtain _ | ⟨ht, hcollations⟩ := hfront
  exact .intro (ht.name? ▸ hname) (hcollation.of_alike hcollations) (horder.of_alike horders)

theorem Items.of_alike (h : Items ts columns) (hlike : List.Forall₂ Alike ts us) :
    Items us columns := by
  induction h generalizing us with
  | last hitem hclose =>
    obtain ⟨item, close, rfl, hi, hrest⟩ := exists_append_of_forall₂ hlike
    obtain ⟨c, rfl, hc⟩ := exists_singleton_of_alike hrest
    exact .last (hitem.of_alike hi) (hc.1 ▸ hclose)
  | more hitem hcomma _ ih =>
    obtain ⟨item, rest, rfl, hi, hrest⟩ := exists_append_of_forall₂ hlike
    obtain _ | ⟨hc, hrest⟩ := hrest
    exact .more (hitem.of_alike hi) (hc.1 ▸ hcomma) (ih hrest)

theorem Derives.of_alike (h : Derives ts columns) (hlike : List.Forall₂ Alike ts us) :
    Derives us columns := by
  obtain ⟨hopening, hitems⟩ := h
  obtain _ | ⟨ho, hrest⟩ := hlike
  exact .intro (ho.1 ▸ hopening) (hitems.of_alike hrest)

end IndexedColumns

namespace References

variable {key key' : ForeignKey}

theorem Action.of_alike {action : ReferentialAction} (h : Action ts action)
    (hlike : List.Forall₂ Alike ts us) : Action us action := by
  cases h with
  | setNull hset hnull =>
    obtain _ | ⟨hs, hrest⟩ := hlike
    obtain ⟨u, rfl, hu⟩ := exists_singleton_of_alike hrest
    exact .setNull (hs.1 ▸ hset) (hu.1 ▸ hnull)
  | setDefault hset hdefault =>
    obtain _ | ⟨hs, hrest⟩ := hlike
    obtain ⟨u, rfl, hu⟩ := exists_singleton_of_alike hrest
    exact .setDefault (hs.1 ▸ hset) (hu.1 ▸ hdefault)
  | cascade ht =>
    obtain ⟨u, rfl, hu⟩ := exists_singleton_of_alike hlike
    exact .cascade (hu.1 ▸ ht)
  | restrict ht =>
    obtain ⟨u, rfl, hu⟩ := exists_singleton_of_alike hlike
    exact .restrict (hu.1 ▸ ht)
  | noAction hno haction =>
    obtain _ | ⟨hn, hrest⟩ := hlike
    obtain ⟨u, rfl, hu⟩ := exists_singleton_of_alike hrest
    exact .noAction (hn.1 ▸ hno) (hu.1 ▸ haction)

theorem Clause.of_alike (h : Clause key ts key') (hlike : List.Forall₂ Alike ts us) :
    Clause key us key' := by
  cases h with
  | action hon hword haction =>
    obtain _ | ⟨ho, hrest⟩ := hlike
    obtain _ | ⟨hw, hrest⟩ := hrest
    exact .action (ho.1 ▸ hon) (hw.1 ▸ hword) (haction.of_alike hrest)
  | matchType hword hname =>
    obtain _ | ⟨hw, hrest⟩ := hlike
    obtain ⟨u, rfl, hu⟩ := exists_singleton_of_alike hrest
    exact .matchType (hw.1 ▸ hword) (hu.name? ▸ hname)

theorem Mode.of_alike {mode : InitialMode} (h : Mode ts mode) (hlike : List.Forall₂ Alike ts us) :
    Mode us mode := by
  cases h with
  | absent =>
    obtain _ | _ := hlike
    exact .absent
  | deferred hword ht =>
    obtain _ | ⟨hw, hrest⟩ := hlike
    obtain ⟨u, rfl, hu⟩ := exists_singleton_of_alike hrest
    exact .deferred (hw.1 ▸ hword) (hu.1 ▸ ht)
  | immediate hword ht =>
    obtain _ | ⟨hw, hrest⟩ := hlike
    obtain ⟨u, rfl, hu⟩ := exists_singleton_of_alike hrest
    exact .immediate (hw.1 ▸ hword) (hu.1 ▸ ht)

theorem Deferrable.of_alike {deferral : Deferral} (h : Deferrable ts deferral)
    (hlike : List.Forall₂ Alike ts us) : Deferrable us deferral := by
  cases h with
  | plain ht hmode =>
    obtain _ | ⟨hu, hrest⟩ := hlike
    exact .plain (hu.1 ▸ ht) (hmode.of_alike hrest)
  | negated hnot ht hmode =>
    obtain _ | ⟨hn, hrest⟩ := hlike
    obtain _ | ⟨hu, hrest⟩ := hrest
    exact .negated (hn.1 ▸ hnot) (hu.1 ▸ ht) (hmode.of_alike hrest)

theorem Clauses.of_alike (h : Clauses key ts key') (hlike : List.Forall₂ Alike ts us) :
    Clauses key us key' := by
  induction h generalizing us with
  | nil =>
    obtain _ | _ := hlike
    exact .nil
  | clause hclause _ ih =>
    obtain ⟨clause, rest, rfl, hc, hrest⟩ := exists_append_of_forall₂ hlike
    exact .clause (hclause.of_alike hc) (ih hrest)
  | deferrable hdeferrable => exact .deferrable (hdeferrable.of_alike hlike)

theorem Derives.of_alike (h : Derives ts key) (hlike : List.Forall₂ Alike ts us) :
    Derives us key := by
  cases h with
  | plain hname hclauses =>
    obtain _ | ⟨ht, hrest⟩ := hlike
    exact .plain (ht.name? ▸ hname) (hclauses.of_alike hrest)
  | listed hname hopening hnames hclauses =>
    obtain ⟨front, rest, rfl, hfront, hrest⟩ := exists_append_of_forall₂ hlike
    obtain _ | ⟨ht, hfront⟩ := hfront
    obtain _ | ⟨ho, hlist⟩ := hfront
    exact .listed (ht.name? ▸ hname) (ho.1 ▸ hopening) (hnames.of_alike hlist)
      (hclauses.of_alike hrest)

end References

theorem ConstraintName.of_alike {name : Option String} (h : ConstraintName ts name)
    (hlike : List.Forall₂ Alike ts us) : ConstraintName us name := by
  cases h with
  | absent =>
    obtain _ | _ := hlike
    exact .absent
  | present hword hname =>
    obtain _ | ⟨hw, hrest⟩ := hlike
    obtain ⟨u, rfl, hu⟩ := exists_singleton_of_alike hrest
    exact .present (hw.1 ▸ hword) (hu.name? ▸ hname)

-- ════════════════════════════════════════════════════════════════════════
-- Columns
-- ════════════════════════════════════════════════════════════════════════

namespace ColumnConstraint

theorem Autoincrement.of_alike {autoincrement : Bool} (h : Autoincrement ts autoincrement)
    (hlike : List.Forall₂ Alike ts us) : Autoincrement us autoincrement := by
  cases h with
  | absent =>
    obtain _ | _ := hlike
    exact .absent
  | present ht =>
    obtain ⟨u, rfl, hu⟩ := exists_singleton_of_alike hlike
    exact .present (hu.1 ▸ ht)

theorem IsLiteral.of_alike {t u : Token} (h : IsLiteral t) (hlike : t.Alike u) : IsLiteral u := by
  unfold IsLiteral at h ⊢
  rwa [← hlike.1, ← hlike.name?]

/-- The text of a check or a default may differ, unless nothing but the first gap does: a constraint
    begins with a keyword, which no text begins with that is held. -/
theorem Derives.of_alike {constraint : ColumnConstraint} (h : Derives depth ts constraint)
    (hlike : List.Forall₂ Alike ts us) :
    ∃ constraint', Derives depth us constraint' ∧ (Shifted ts us → constraint' = constraint) := by
  cases h with
  | primaryKey hprimary hkey horder hconflict hauto =>
    obtain ⟨front, autos, rfl, hfront, hautos⟩ := exists_append_of_forall₂ hlike
    obtain ⟨words, conflicts, rfl, hwords, hconflicts⟩ := exists_append_of_forall₂ hfront
    obtain _ | ⟨hp, hwords⟩ := hwords
    obtain _ | ⟨hk, horders⟩ := hwords
    exact ⟨_, .primaryKey (hp.1 ▸ hprimary) (hk.1 ▸ hkey) (horder.of_alike horders)
      (hconflict.of_alike hconflicts) (hauto.of_alike hautos), fun _ => rfl⟩
  | notNull hnot hnull hconflict =>
    obtain _ | ⟨hn, hrest⟩ := hlike
    obtain _ | ⟨hu, hrest⟩ := hrest
    exact ⟨_, .notNull (hn.1 ▸ hnot) (hu.1 ▸ hnull) (hconflict.of_alike hrest), fun _ => rfl⟩
  | null hnull hconflict =>
    obtain _ | ⟨hu, hrest⟩ := hlike
    exact ⟨_, .null (hu.1 ▸ hnull) (hconflict.of_alike hrest), fun _ => rfl⟩
  | unique hunique hconflict =>
    obtain _ | ⟨hu, hrest⟩ := hlike
    exact ⟨_, .unique (hu.1 ▸ hunique) (hconflict.of_alike hrest), fun _ => rfl⟩
  | check hcheck hexpression =>
    obtain _ | ⟨hc, hrest⟩ := hlike
    obtain ⟨text', htext', htext⟩ := hexpression.of_alike hrest
    refine ⟨_, .check (hc.1 ▸ hcheck) htext', fun hshifted => ?_⟩
    obtain _ | ⟨-, hsame⟩ := hshifted
    rw [htext hsame]
  | defaultExpression hdefault hexpression =>
    obtain _ | ⟨hd, hrest⟩ := hlike
    obtain ⟨text', htext', htext⟩ := hexpression.of_alike hrest
    refine ⟨_, .defaultExpression (hd.1 ▸ hdefault) htext', fun hshifted => ?_⟩
    obtain _ | ⟨-, hsame⟩ := hshifted
    rw [htext hsame]
  | defaultNumber hdefault hnumber =>
    obtain _ | ⟨hd, hrest⟩ := hlike
    refine ⟨_, .defaultNumber (hd.1 ▸ hdefault) (hnumber.of_alike hrest), fun hshifted => ?_⟩
    obtain _ | ⟨-, hsame⟩ := hshifted
    rw [(shifted_of_same hsame).verbatim_eq]
  | defaultLiteral hdefault hliteral =>
    obtain _ | ⟨hd, hrest⟩ := hlike
    obtain ⟨u, rfl, hu⟩ := exists_singleton_of_alike hrest
    refine ⟨_, .defaultLiteral (hd.1 ▸ hdefault) (hliteral.of_alike hu), fun _ => ?_⟩
    rw [Token.source, Token.source, hu.2]
  | collate hcollate hname =>
    obtain _ | ⟨hc, hrest⟩ := hlike
    obtain ⟨u, rfl, hu⟩ := exists_singleton_of_alike hrest
    exact ⟨_, .collate (hc.1 ▸ hcollate) (hu.name? ▸ hname), fun _ => rfl⟩
  | references hreferences hkey =>
    obtain _ | ⟨hr, hrest⟩ := hlike
    exact ⟨_, .references (hr.1 ▸ hreferences) (hkey.of_alike hrest), fun _ => rfl⟩

end ColumnConstraint

namespace Column

/-- The texts of a type and of its size may differ. -/
theorem TypeName.of_alike {type length : Option String} (h : TypeName ts type length)
    (hlike : List.Forall₂ Alike ts us) : ∃ type' length', TypeName us type' length' := by
  cases h with
  | absent =>
    obtain _ | _ := hlike
    exact ⟨_, _, .absent⟩
  | words hne hwords =>
    exact ⟨_, _, .words (ne_nil_of_alike hlike hne) (forall_isTypeWord_of_alike hlike hwords)⟩
  | sized hne hwords hopening hsize hclosing =>
    obtain ⟨front, close, rfl, hfront, hclose⟩ := exists_append_of_forall₂ hlike
    obtain ⟨words, rest, rfl, hw, hrest⟩ := exists_append_of_forall₂ hfront
    obtain _ | ⟨ho, hs⟩ := hrest
    obtain ⟨c, rfl, hc⟩ := exists_singleton_of_alike hclose
    exact ⟨_, _, .sized (ne_nil_of_alike hw hne) (forall_isTypeWord_of_alike hw hwords)
      (ho.1 ▸ hopening) (hsize.of_alike hs) (hc.1 ▸ hclosing)⟩

theorem Constraints.of_alike {constraints : List WrittenConstraint}
    (h : Constraints depth ts constraints) (hlike : List.Forall₂ Alike ts us) :
    ∃ constraints', Constraints depth us constraints' ∧
      (Shifted ts us → constraints' = constraints) := by
  induction h generalizing us with
  | nil =>
    obtain _ | _ := hlike
    exact ⟨_, .nil, fun _ => rfl⟩
  | cons hname hconstraint _ ih =>
    obtain ⟨front, rest, rfl, hfront, hrest⟩ := exists_append_of_forall₂ hlike
    obtain ⟨names, constraint, rfl, hn, hc⟩ := exists_append_of_forall₂ hfront
    obtain ⟨constraint', hconstraint', heq⟩ := hconstraint.of_alike hc
    obtain ⟨constraints', hconstraints', heqs⟩ := ih hrest
    refine ⟨_, .cons (hname.of_alike hn) hconstraint' hconstraints', fun hshifted => ?_⟩
    obtain ⟨hfront', hrest'⟩ := hshifted.of_append hfront.length_eq
    rw [heq (hfront'.of_append hn.length_eq).2, heqs hrest']

/-- Behind another gap, constraints are the same. -/
theorem Constraints.of_shifted {constraints : List WrittenConstraint}
    (h : Constraints depth ts constraints) (hshifted : Shifted ts us) :
    Constraints depth us constraints := by
  obtain ⟨constraints', hconstraints', heq⟩ := h.of_alike hshifted.alike
  exact heq hshifted ▸ hconstraints'

theorem Derives.of_alike {w : WrittenColumn} (h : Derives depth ts w)
    (hlike : List.Forall₂ Alike ts us) : ∃ w', Derives depth us w' := by
  obtain ⟨hname, htype, hconstraints⟩ := h
  obtain ⟨front, rest, rfl, hfront, hrest⟩ := exists_append_of_forall₂ hlike
  obtain _ | ⟨ht, htypes⟩ := hfront
  obtain ⟨type', length', htype'⟩ := htype.of_alike htypes
  obtain ⟨constraints', hconstraints', -⟩ := hconstraints.of_alike hrest
  exact ⟨_, .intro (ht.name? ▸ hname) htype' hconstraints'⟩

end Column

-- ════════════════════════════════════════════════════════════════════════
-- Table constraints
-- ════════════════════════════════════════════════════════════════════════

namespace TableConstraint

/-- The text of a check may differ. -/
theorem Demands.of_alike {rule : TableConstraint.Rule} (h : Demands depth ts rule)
    (hlike : List.Forall₂ Alike ts us) : ∃ rule', Demands depth us rule' := by
  cases h with
  | primaryKey hprimary hkey hcolumns hconflict =>
    obtain ⟨front, conflicts, rfl, hfront, hconflicts⟩ := exists_append_of_forall₂ hlike
    obtain _ | ⟨hp, hfront⟩ := hfront
    obtain _ | ⟨hk, hlist⟩ := hfront
    exact ⟨_, .primaryKey (hp.1 ▸ hprimary) (hk.1 ▸ hkey) (hcolumns.of_alike hlist)
      (hconflict.of_alike hconflicts)⟩
  | unique hunique hcolumns hconflict =>
    obtain ⟨front, conflicts, rfl, hfront, hconflicts⟩ := exists_append_of_forall₂ hlike
    obtain _ | ⟨hu, hlist⟩ := hfront
    exact ⟨_, .unique (hu.1 ▸ hunique) (hcolumns.of_alike hlist) (hconflict.of_alike hconflicts)⟩
  | check hcheck hexpression hconflict =>
    obtain ⟨front, conflicts, rfl, hfront, hconflicts⟩ := exists_append_of_forall₂ hlike
    obtain _ | ⟨hc, hinner⟩ := hfront
    obtain ⟨text', htext', -⟩ := hexpression.of_alike hinner
    exact ⟨_, .check (hc.1 ▸ hcheck) htext' (hconflict.of_alike hconflicts)⟩
  | foreignKey hforeign hkey hopening hnames hreferences htarget =>
    obtain ⟨front, rest, rfl, hfront, hrest⟩ := exists_append_of_forall₂ hlike
    obtain _ | ⟨hf, hfront⟩ := hfront
    obtain _ | ⟨hk, hfront⟩ := hfront
    obtain _ | ⟨ho, hlist⟩ := hfront
    obtain _ | ⟨hr, hrest⟩ := hrest
    exact ⟨_, .foreignKey (hf.1 ▸ hforeign) (hk.1 ▸ hkey) (ho.1 ▸ hopening)
      (hnames.of_alike hlist) (hr.1 ▸ hreferences) (htarget.of_alike hrest)⟩

theorem Derives.of_alike {constraint : CreateTable.TableConstraint}
    (h : Derives depth ts constraint) (hlike : List.Forall₂ Alike ts us) :
    ∃ constraint', Derives depth us constraint' := by
  obtain ⟨hname, hdemands⟩ := h
  obtain ⟨names, rest, rfl, hn, hrest⟩ := exists_append_of_forall₂ hlike
  obtain ⟨rule', hrule'⟩ := hdemands.of_alike hrest
  exact ⟨_, .intro (hname.of_alike hn) hrule'⟩

end TableConstraint

-- ════════════════════════════════════════════════════════════════════════
-- Bodies
-- ════════════════════════════════════════════════════════════════════════

theorem OptionalComma.of_alike (h : OptionalComma ts) (hlike : List.Forall₂ Alike ts us) :
    OptionalComma us := by
  cases h with
  | absent =>
    obtain _ | _ := hlike
    exact .absent
  | present ht =>
    obtain ⟨u, rfl, hu⟩ := exists_singleton_of_alike hlike
    exact .present (hu.1 ▸ ht)

namespace Body

/-- There are as many columns in every layout. -/
theorem MoreColumns.of_alike {columns : List WrittenColumn} (h : MoreColumns depth ts columns)
    (hlike : List.Forall₂ Alike ts us) :
    ∃ columns', MoreColumns depth us columns' ∧ columns'.length = columns.length := by
  induction h generalizing us with
  | nil =>
    obtain _ | _ := hlike
    exact ⟨_, .nil, rfl⟩
  | cons hcomma hcolumn _ ih =>
    obtain ⟨front, rest, rfl, hfront, hrest⟩ := exists_append_of_forall₂ hlike
    obtain _ | ⟨hc, hinner⟩ := hfront
    obtain ⟨column', hcolumn'⟩ := hcolumn.of_alike hinner
    obtain ⟨columns', hcolumns', hlength⟩ := ih hrest
    exact ⟨_, .cons (hc.1 ▸ hcomma) hcolumn' hcolumns', congrArg (· + 1) hlength⟩

variable {constraints : List CreateTable.TableConstraint}

theorem MoreConstraints.of_alike (h : MoreConstraints depth ts constraints)
    (hlike : List.Forall₂ Alike ts us) : ∃ constraints', MoreConstraints depth us constraints' := by
  induction h generalizing us with
  | nil =>
    obtain _ | _ := hlike
    exact ⟨_, .nil⟩
  | cons hcomma hconstraint _ ih =>
    obtain ⟨front, rest, rfl, hfront, hrest⟩ := exists_append_of_forall₂ hlike
    obtain ⟨comma, inner, rfl, hc, hinner⟩ := exists_append_of_forall₂ hfront
    obtain ⟨constraint', hconstraint'⟩ := hconstraint.of_alike hinner
    obtain ⟨constraints', hconstraints'⟩ := ih hrest
    exact ⟨_, .cons (hcomma.of_alike hc) hconstraint' hconstraints'⟩

theorem Constraints.of_alike (h : Constraints depth ts constraints)
    (hlike : List.Forall₂ Alike ts us) : ∃ constraints', Constraints depth us constraints' := by
  cases h with
  | absent =>
    obtain _ | _ := hlike
    exact ⟨_, .absent⟩
  | present hcomma hconstraint hmore =>
    obtain ⟨front, rest, rfl, hfront, hrest⟩ := exists_append_of_forall₂ hlike
    obtain _ | ⟨hc, hinner⟩ := hfront
    obtain ⟨constraint', hconstraint'⟩ := hconstraint.of_alike hinner
    obtain ⟨constraints', hconstraints'⟩ := hmore.of_alike hrest
    exact ⟨_, .present (hc.1 ▸ hcomma) hconstraint' hconstraints'⟩

theorem Derives.of_alike {columns : List WrittenColumn} (h : Derives depth ts columns constraints)
    (hlike : List.Forall₂ Alike ts us) :
    ∃ columns' constraints', Derives depth us columns' constraints' ∧
      columns'.length = columns.length := by
  obtain ⟨hcolumn, hmore, hconstraints, hcomma⟩ := h
  obtain ⟨items, comma, rfl, hitems, hc⟩ := exists_append_of_forall₂ hlike
  obtain ⟨front, rest, rfl, hfront, hrest⟩ := exists_append_of_forall₂ hitems
  obtain ⟨first, more, rfl, hfirst, hm⟩ := exists_append_of_forall₂ hfront
  obtain ⟨column', hcolumn'⟩ := hcolumn.of_alike hfirst
  obtain ⟨columns', hcolumns', hlength⟩ := hmore.of_alike hm
  obtain ⟨constraints', hconstraints'⟩ := hconstraints.of_alike hrest
  exact ⟨_, _, .intro hcolumn' hcolumns' hconstraints' (hcomma.of_alike hc),
    congrArg (· + 1) hlength⟩

end Body

-- ════════════════════════════════════════════════════════════════════════
-- Statements
-- ════════════════════════════════════════════════════════════════════════

namespace Statement

theorem Temporary.of_alike {temporary : Bool} (h : Temporary ts temporary)
    (hlike : List.Forall₂ Alike ts us) : Temporary us temporary := by
  cases h with
  | absent =>
    obtain _ | _ := hlike
    exact .absent
  | present ht =>
    obtain ⟨u, rfl, hu⟩ := exists_singleton_of_alike hlike
    exact .present (hu.1 ▸ ht)

theorem IfNotExists.of_alike {ifNotExists : Bool} (h : IfNotExists ts ifNotExists)
    (hlike : List.Forall₂ Alike ts us) : IfNotExists us ifNotExists := by
  cases h with
  | absent =>
    obtain _ | _ := hlike
    exact .absent
  | present hword hnot hexist =>
    obtain _ | ⟨hw, hrest⟩ := hlike
    obtain _ | ⟨hn, hrest⟩ := hrest
    obtain ⟨u, rfl, hu⟩ := exists_singleton_of_alike hrest
    exact .present (hw.1 ▸ hword) (hn.1 ▸ hnot) (hu.1 ▸ hexist)

theorem TableName.of_alike {schema : Option String} {name : String} (h : TableName ts schema name)
    (hlike : List.Forall₂ Alike ts us) : TableName us schema name := by
  cases h with
  | plain hname =>
    obtain ⟨u, rfl, hu⟩ := exists_singleton_of_alike hlike
    exact .plain (hu.name? ▸ hname)
  | qualified hschema hdot hname =>
    obtain _ | ⟨hs, hrest⟩ := hlike
    obtain _ | ⟨hd, hrest⟩ := hrest
    obtain ⟨u, rfl, hu⟩ := exists_singleton_of_alike hrest
    exact .qualified (hs.name? ▸ hschema) (hd.1 ▸ hdot) (hu.name? ▸ hname)

theorem OptionWords.of_alike {option : TableOption} (h : OptionWords ts option)
    (hlike : List.Forall₂ Alike ts us) : OptionWords us option := by
  cases h with
  | withoutRowid hwithout hrowid =>
    obtain _ | ⟨hw, hrest⟩ := hlike
    obtain ⟨u, rfl, hu⟩ := exists_singleton_of_alike hrest
    exact .withoutRowid (hw.1 ▸ hwithout) (hu.isWord _ ▸ hrowid)
  | strict ht =>
    obtain ⟨u, rfl, hu⟩ := exists_singleton_of_alike hlike
    exact .strict (hu.isBareWord _ ▸ ht)

theorem OptionList.of_alike {options : List TableOption} (h : OptionList ts options)
    (hlike : List.Forall₂ Alike ts us) : OptionList us options := by
  induction h generalizing us with
  | last hwords => exact .last (hwords.of_alike hlike)
  | more hwords hcomma _ ih =>
    obtain ⟨words, rest, rfl, hw, hrest⟩ := exists_append_of_forall₂ hlike
    obtain _ | ⟨hc, hrest⟩ := hrest
    exact .more (hwords.of_alike hw) (hc.1 ▸ hcomma) (ih hrest)

theorem Options.of_alike {options : List TableOption} (h : Options ts options)
    (hlike : List.Forall₂ Alike ts us) : Options us options := by
  cases h with
  | absent =>
    obtain _ | _ := hlike
    exact .absent
  | present hlist => exact .present (hlist.of_alike hlike)

theorem Semicolons.of_alike (h : Semicolons ts) (hlike : List.Forall₂ Alike ts us) :
    Semicolons us := by
  induction hlike with
  | nil => exact h
  | cons hhead _ ih =>
    simp only [Semicolons, List.forall_mem_cons] at h ⊢
    exact ⟨hhead.1 ▸ h.1, ih h.2⟩

/-- The tokens of a statement in another layout are those of a statement with as many columns. -/
theorem Derives.of_alike {written : List WrittenColumn} {table : Table}
    (h : Derives depth ts written table) (hlike : List.Forall₂ Alike ts us) :
    ∃ written' table', Derives depth us written' table' ∧
      table'.columns.length = table.columns.length := by
  obtain ⟨hcreate, htemporary, hword, hif, hname, hopening, hbody, hclosing, hoptions, hends⟩ := h
  obtain ⟨declared, ends, rfl, hdeclared, he⟩ := exists_append_of_forall₂ hlike
  obtain ⟨front, tail, rfl, hfront, htail⟩ := exists_append_of_forall₂ hdeclared
  obtain ⟨header, inner, rfl, hheader, hinner⟩ := exists_append_of_forall₂ hfront
  obtain ⟨words, names, rfl, hwords, hn⟩ := exists_append_of_forall₂ hheader
  obtain ⟨temps, ifs, rfl, htemps, hifs⟩ := exists_append_of_forall₂ hwords
  obtain _ | ⟨hc, htemps⟩ := htemps
  obtain _ | ⟨hw, hifs⟩ := hifs
  obtain _ | ⟨ho, hinner⟩ := hinner
  obtain _ | ⟨hclose, htail⟩ := htail
  obtain ⟨columns', constraints', hbody', hlength⟩ := hbody.of_alike hinner
  have hends' := Semicolons.of_alike hends he
  refine ⟨_, _, .intro (hc.1 ▸ hcreate) (htemporary.of_alike htemps) (hw.1 ▸ hword)
    (hif.of_alike hifs) (hname.of_alike hn) (ho.1 ▸ hopening) hbody' (hclose.1 ▸ hclosing)
    (hoptions.of_alike htail) hends', ?_⟩
  simp only [columns_foldl_withOption, List.length_map, hlength]

/-- Whether the bare word `IF` names the table is the same in every layout. -/
theorem NamesTableIf.of_alike (h : NamesTableIf ts) (hlike : List.Forall₂ Alike ts us) :
    NamesTableIf us := by
  induction hlike with
  | nil => exact h
  | @cons t u ts us hhead hrest ih =>
    have hkeyword : t.isKeyword .table = u.isKeyword .table := by
      simp only [isKeyword, hhead.1]
    obtain ⟨word, rest, hdrop, hword, hnot⟩ := h
    cases htable : t.isKeyword .table with
    | false =>
      rw [List.dropWhile_cons_of_pos (by simp [htable])] at hdrop
      obtain ⟨word', rest', hdrop', hword', hnot'⟩ := ih ⟨word, rest, hdrop, hword, hnot⟩
      refine ⟨word', rest', ?_, hword', hnot'⟩
      rwa [List.dropWhile_cons_of_pos (by simp [← hkeyword, htable])]
    | true =>
      rw [List.dropWhile_cons_of_neg (by simp [htable]), List.tail_cons] at hdrop
      subst hdrop
      obtain ⟨word', rest', hw, hbehind, rfl⟩ := List.forall₂_cons_left_iff.1 hrest
      refine ⟨word', rest', ?_, hw.1 ▸ hword, ?_⟩
      · rw [List.dropWhile_cons_of_neg (by simp [← hkeyword, htable]), List.tail_cons]
      · cases hbehind with
        | nil => simp
        | cons hn _ => simpa [hn.1] using hnot

/-- A statement that is read is read in every layout. -/
theorem Admits.of_alike {limits : Limits} {written : List WrittenColumn} {table : Table}
    (h : Admits limits ts written table) (hlike : List.Forall₂ Alike ts us) :
    ∃ written' table', Admits limits us written' table' := by
  obtain ⟨hderives, hcolumns, hif⟩ := h
  obtain ⟨written', table', hderives', hlength⟩ := hderives.of_alike hlike
  refine ⟨written', table', hderives', ?_, fun hif' => hif ?_⟩
  · rwa [hlength]
  · exact hif'.of_alike (alike_symm hlike)

end Statement

end Grammar

end CreateTable
