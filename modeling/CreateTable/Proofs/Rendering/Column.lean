import CreateTable.Proofs.Rendering.References

/-!
# Columns as they are written

A column is written with one constraint of each kind that it holds. The grammar derives from what is
read a column that declares the one that was written.

## Main definitions

- `Column.effects` — the constraints that make up a column
- `Column.bare`, `Column.keyed`, … — a column before its constraints, up to its key, …
- `Unnamed` — constraints without names

## Main statements

- `Column.WellFormed.foldl_effects` — the constraints of a column make it up
- `Writes.column` — a column is read as a column that declares it
-/

namespace CreateTable

open Grammar Lexical

variable {depth : Nat} {c : Column}

namespace Column

/-- A constraint that is there or not. -/
def constraintIf (present : Bool) (constraint : ColumnConstraint) : List ColumnConstraint :=
  if present then [constraint] else []

/-- The constraints of a column that have an effect, in the order in which they are written. -/
def effects (c : Column) : List ColumnConstraint :=
  constraintIf c.primaryKey (.primaryKey c.primaryKeyOrder c.primaryKeyConflict c.autoincrement)
    ++ constraintIf c.notNull (.notNull c.notNullConflict)
    ++ constraintIf c.unique (.unique c.uniqueConflict)
    ++ (c.check.map .check).toList
    ++ (c.default.map .default).toList
    ++ (c.collation.map .collate).toList
    ++ (c.foreignKey.map .references).toList

theorem foldl_constraintIf {present : Bool} {constraint : ColumnConstraint} {c₀ c₁ : Column}
    (habsent : present = false → c₀ = c₁)
    (hpresent : present = true → c₀.constrain constraint = c₁) :
    (constraintIf present constraint).foldl constrain c₀ = c₁ := by
  cases present with
  | false => exact habsent rfl
  | true => exact hpresent rfl

/-- A column before its constraints. -/
def bare (c : Column) : Column :=
  { name := c.name, type := c.type, length := c.length, constraintName := c.constraintName }

/-- A column up to its primary key. -/
def keyed (c : Column) : Column :=
  { c.bare with primaryKey := c.primaryKey, autoincrement := c.autoincrement
                primaryKeyOrder := c.primaryKeyOrder, primaryKeyConflict := c.primaryKeyConflict }

/-- A column up to its `NOT NULL`. -/
def required (c : Column) : Column :=
  { c.keyed with notNull := c.notNull, notNullConflict := c.notNullConflict }

/-- A column up to its `UNIQUE`. -/
def distinct (c : Column) : Column :=
  { c.required with unique := c.unique, uniqueConflict := c.uniqueConflict }

theorem WellFormed.foldl_primaryKey (h : c.WellFormed depth) :
    (constraintIf c.primaryKey
      (.primaryKey c.primaryKeyOrder c.primaryKeyConflict c.autoincrement)).foldl constrain c.bare =
      c.keyed := by
  refine foldl_constraintIf (fun hkey => ?_) fun hkey => ?_
  · obtain ⟨hauto, horder, hconflict⟩ := h.primaryKey hkey
    simp [keyed, bare, hkey, hauto, horder, hconflict]
  · simp [keyed, bare, constrain, hkey]

theorem WellFormed.foldl_notNull (h : c.WellFormed depth) :
    (constraintIf c.notNull (.notNull c.notNullConflict)).foldl constrain c.keyed = c.required := by
  refine foldl_constraintIf (fun hnull => ?_) fun hnull => ?_
  · simp [required, keyed, bare, hnull, h.notNull hnull]
  · simp [required, constrain, hnull]

theorem WellFormed.foldl_unique (h : c.WellFormed depth) :
    (constraintIf c.unique (.unique c.uniqueConflict)).foldl constrain c.required = c.distinct := by
  refine foldl_constraintIf (fun hunique => ?_) fun hunique => ?_
  · simp [distinct, required, keyed, bare, hunique, h.unique hunique]
  · simp [distinct, constrain, hunique]

theorem distinct_eq (c : Column) :
    c.distinct =
      { c with check := none, default := none, collation := none, foreignKey := none } := by
  simp only [distinct, required, keyed, bare]

/-- The constraints behind `UNIQUE` set a field each, and no other. -/
theorem foldl_optional (check default collation : Option String)
    (foreignKey : Option ForeignKey) :
    (foreignKey.map .references).toList.foldl constrain
      ((collation.map .collate).toList.foldl constrain
        ((default.map .default).toList.foldl constrain
          ((check.map .check).toList.foldl constrain
            { c with check := none, default := none, collation := none, foreignKey := none }))) =
      { c with check, default, collation, foreignKey } := by
  cases check <;> cases default <;> cases collation <;> cases foreignKey <;> rfl

/-- The constraints of a column that can be written make it up. -/
theorem WellFormed.foldl_effects (h : c.WellFormed depth) :
    c.effects.foldl constrain c.bare = c := by
  simp only [effects, List.foldl_append]
  rw [h.foldl_primaryKey, h.foldl_notNull, h.foldl_unique, distinct_eq, foldl_optional]

end Column

-- ════════════════════════════════════════════════════════════════════════
-- Constraints
-- ════════════════════════════════════════════════════════════════════════

/-- Constraints without names. -/
def Unnamed (depth : Nat) (ts : List Token) (constraints : List ColumnConstraint) : Prop :=
  Grammar.Column.Constraints depth ts (constraints.map (⟨none, ·⟩))

theorem Grammar.Column.Constraints.append {ts us : List Token} {ws ws' : List WrittenConstraint}
    (h : Constraints depth ts ws) (h' : Constraints depth us ws') :
    Constraints depth (ts ++ us) (ws ++ ws') := by
  induction h with
  | nil => exact h'
  | cons hnames hts _ ih =>
    rw [List.append_assoc]
    exact .cons hnames hts ih

theorem Unnamed.nil : Unnamed depth [] [] := Grammar.Column.Constraints.nil

theorem Unnamed.single {ts : List Token} {k : ColumnConstraint}
    (h : ColumnConstraint.Derives depth ts k) : Unnamed depth ts [k] := by
  simpa [Unnamed] using Grammar.Column.Constraints.cons .absent h .nil

namespace Writes

theorem unnamed {clauses clauses' : List String} {ks ks' : List ColumnConstraint}
    (h : Writes (spaced clauses) (Unnamed depth · ks))
    (h' : Writes (spaced clauses') (Unnamed depth · ks')) :
    Writes (spaced (clauses ++ clauses')) (Unnamed depth · (ks ++ ks')) := by
  refine (h.clauses h').mono ?_
  rintro _ ⟨ts, us, rfl, hts, hus⟩
  simpa [Unnamed] using Grammar.Column.Constraints.append hts hus

theorem noConstraint : Writes (spaced []) (Unnamed depth · []) :=
  nil.mono fun _ hts => hts ▸ .nil

theorem primaryKey (c : Column) :
    Writes (spaced c.primaryKeyClause) (Unnamed depth · (Column.constraintIf c.primaryKey
      (.primaryKey c.primaryKeyOrder c.primaryKeyConflict c.autoincrement))) := by
  unfold Column.primaryKeyClause Column.constraintIf
  by_cases hkey : c.primaryKey
  · have hauto : Writes (spaced (if c.autoincrement then ["AUTOINCREMENT"] else []))
        (ColumnConstraint.Autoincrement · c.autoincrement) := by
      cases c.autoincrement with
      | false => exact nil.mono fun ts hts => hts ▸ .absent
      | true =>
        refine (clause (keyword .autoincrement)).mono ?_
        rintro _ ⟨t, rfl, ht⟩
        exact .present ht
    have hwords : Writes (spaced ["PRIMARY KEY"]) _ := keywords [.primary, .key] rfl
    rw [if_pos hkey, if_pos hkey]
    refine (((hwords.clauses (order _)).clauses (conflict _)).clauses hauto).mono ?_
    rintro _ ⟨_, autos, rfl, ⟨_, conflicts, rfl, ⟨_, orders, rfl, hts, horders⟩, hconflicts⟩,
      hautos⟩
    obtain ⟨primary, _, rfl, hprimary, hts⟩ := List.map_eq_cons_iff.1 hts
    obtain ⟨key, _, rfl, hkey, hts⟩ := List.map_eq_cons_iff.1 hts
    obtain rfl := List.map_eq_nil_iff.1 hts
    exact .single (.primaryKey hprimary hkey horders hconflicts hautos)
  · rw [if_neg hkey, if_neg hkey]
    exact noConstraint

/-- A constraint that only a conflict clause may follow. -/
theorem flag {words : String} (ks : List Keyword)
    {constraint : ConflictResolution → ColumnConstraint}
    (hwords : spaced [words] = spaced (ks.map Keyword.spelling))
    (hderives : ∀ {ts conflicts r}, ts.map (·.kind) = ks.map TokenKind.keyword →
      ConflictClause.Derives conflicts r →
      ColumnConstraint.Derives depth (ts ++ conflicts) (constraint r))
    (present : Bool) (r : ConflictResolution) :
    Writes (spaced (Column.flagClause present words r))
      (Unnamed depth · (Column.constraintIf present (constraint r))) := by
  cases present with
  | false => exact noConstraint
  | true =>
    refine ((keywords ks hwords).clauses (conflict r)).mono ?_
    rintro _ ⟨ts, conflicts, rfl, hts, hconflicts⟩
    exact .single (hderives hts hconflicts)

/-- A constraint that holds an expression. -/
theorem expressionClause (k : Keyword) {constraint : String → ColumnConstraint}
    (hderives : ∀ {t ts text}, t.kind = .keyword k → Expression.Derives depth ts text →
      ColumnConstraint.Derives depth (t :: ts) (constraint text))
    {expression? : Option String} (h : ∀ text ∈ expression?, IsExpression depth text) :
    Writes (spaced (Column.expressionClause k.spelling expression?))
      (Unnamed depth · (expression?.map constraint).toList) := by
  cases expression? with
  | none => exact noConstraint
  | some text =>
    have hwrites := (keyword k).append (expression (h text rfl)).space (.cons (by decide) _)
    refine (clause ?_ : Writes (spaced [_]) _)
    simp only [String.toList_append, List.append_assoc]
    refine hwrites.mono ?_
    rintro _ ⟨_, ts, rfl, ⟨t, rfl, ht⟩, hts⟩
    exact .single (hderives ht hts)

/-- The constraints of a column that have an effect. -/
theorem effects (h : c.WellFormed depth) :
    Writes (spaced c.constraintClauses) (Unnamed depth · c.effects) := by
  have hnotNull : Writes (spaced (Column.flagClause c.notNull "NOT NULL" c.notNullConflict))
      (Unnamed depth · (Column.constraintIf c.notNull (.notNull c.notNullConflict))) := by
    refine flag [.not, .null] rfl (fun hts hconflicts => ?_) _ _
    obtain ⟨not, _, rfl, hnot, hts⟩ := List.map_eq_cons_iff.1 hts
    obtain ⟨null, _, rfl, hnull, hts⟩ := List.map_eq_cons_iff.1 hts
    obtain rfl := List.map_eq_nil_iff.1 hts
    exact .notNull hnot hnull hconflicts
  have hunique : Writes (spaced (Column.flagClause c.unique "UNIQUE" c.uniqueConflict))
      (Unnamed depth · (Column.constraintIf c.unique (.unique c.uniqueConflict))) := by
    refine flag [.unique] rfl (fun hts hconflicts => ?_) _ _
    obtain ⟨unique, _, rfl, hunique, hts⟩ := List.map_eq_cons_iff.1 hts
    obtain rfl := List.map_eq_nil_iff.1 hts
    exact .unique hunique hconflicts
  have hcheck : Writes (spaced (Column.expressionClause "CHECK" c.check))
      (Unnamed depth · (c.check.map .check).toList) :=
    expressionClause .check .check h.check
  have hdefault : Writes (spaced (Column.expressionClause "DEFAULT" c.default))
      (Unnamed depth · (c.default.map .default).toList) :=
    expressionClause .default .defaultExpression h.default
  have hcollation : Writes (spaced (namedClause "COLLATE" c.collation))
      (Unnamed depth · (c.collation.map .collate).toList) := by
    generalize c.collation = collation
    refine (named .collate collation).mono fun ts hts => ?_
    cases hts with
    | absent => exact .nil
    | present hword ht => exact .single (.collate hword ht)
  have hforeignKey : Writes (spaced (c.foreignKey.map ForeignKey.render).toList)
      (Unnamed depth · (c.foreignKey.map .references).toList) := by
    cases c.foreignKey with
    | none => exact noConstraint
    | some key =>
      refine (clause (foreignKey key)).mono ?_
      rintro _ ⟨_, ts, rfl, ⟨t, rfl, ht⟩, hts⟩
      exact .single (.references ht hts)
  exact ((((((primaryKey c).unnamed hnotNull).unnamed hunique).unnamed hcheck).unnamed
    hdefault).unnamed hcollation).unnamed hforeignKey

end Writes

-- ════════════════════════════════════════════════════════════════════════
-- Types
-- ════════════════════════════════════════════════════════════════════════

/-- The words of a type. -/
theorem Writes.type {s : String} (h : IsType s) :
    Writes s.toList fun ts => (ts ≠ [] ∧ ∀ t ∈ ts, t.isTypeWord) ∧ Token.verbatim ts = s := by
  refine consistsOf h (fun ts hts => hts.1) fun ts us hts hmoved => ⟨fun hus => ?_, ?_⟩
  · exact hts.1 (by simpa [hus] using hmoved)
  · exact Token.forall_isTypeWord_of_alike hmoved hts.2

theorem Writes.size {s : String} (h : IsSize s) :
    Writes s.toList fun ts => Grammar.Column.Size ts ∧ Token.verbatim ts = s := by
  refine consistsOf h (fun ts hts => ?_) fun ts us hts hmoved => hts.of_alike hmoved
  cases hts with
  | size hnumber => cases hnumber <;> simp
  | scale hsize => simp

/-- The type of a column and its size. -/
theorem Writes.typeClause (h : c.WellFormed depth) :
    Writes (spaced c.typeClause) (Grammar.Column.TypeName · c.type c.length) := by
  have htype := h.type
  have hlength := h.length
  unfold Column.typeClause
  generalize c.type = type at *
  generalize c.length = length at *
  cases type with
  | none =>
    cases length with
    | none => exact nil.mono fun ts hts => hts ▸ .absent
    | some text => cases (hlength text rfl).1
  | some text =>
    refine clause ?_
    cases length with
    | none =>
      simp only [String.append_empty]
      refine (type (htype text rfl)).mono ?_
      rintro ts ⟨⟨hne, hwords⟩, rfl⟩
      exact .words hne hwords
    | some digits =>
      have hclosed := (size (hlength digits rfl).2).append (rightParen nil) (.cons (by decide) _)
      have hwrites := (type (htype text rfl)).append hclosed.leftParen (.cons (by decide) _)
      simp only [String.toList_append, List.append_assoc]
      refine hwrites.mono ?_
      rintro _ ⟨words, _, rfl, ⟨⟨hne, hwords⟩, rfl⟩, _, _, rfl, ⟨opening, rfl, hopening⟩, size, _,
        rfl, ⟨hsize, rfl⟩, _, _, rfl, ⟨closing, rfl, hclosing⟩, rfl⟩
      simpa using Grammar.Column.TypeName.sized hne hwords hopening hsize hclosing

-- ════════════════════════════════════════════════════════════════════════
-- Columns
-- ════════════════════════════════════════════════════════════════════════

theorem Column.foldl_add_unnamed (c : Column) (ks : List ColumnConstraint) :
    (ks.map (WrittenConstraint.mk none)).foldl Column.add c = ks.foldl Column.constrain c := by
  rw [List.foldl_map]
  rfl

/-- A name in front of constraints is the name of the first. -/
theorem Unnamed.name {names ts : List Token} {name : Option String} {ks : List ColumnConstraint}
    (h : Unnamed depth ts ks) (hname : ConstraintName names name) (hne : name.isSome → ks ≠ [])
    (c : Column) :
    ∃ ws, Grammar.Column.Constraints depth (names ++ ts) ws ∧
      ws.foldl Column.add c =
        ks.foldl Column.constrain { c with constraintName := name.or c.constraintName } := by
  cases hname with
  | absent => exact ⟨_, h, by simpa using c.foldl_add_unnamed ks⟩
  | @present _ _ name hword ht =>
    obtain ⟨k, ks, rfl⟩ := List.exists_cons_of_ne_nil (hne rfl)
    obtain _ | ⟨hnone, hk, hks⟩ := h
    obtain _ | _ := hnone
    refine ⟨⟨some name, k⟩ :: ks.map (WrittenConstraint.mk none), ?_, ?_⟩
    · simpa using Grammar.Column.Constraints.cons (.present hword ht) hk hks
    · rw [List.foldl_cons, Column.foldl_add_unnamed]
      rfl

theorem Column.effects_ne_nil (h : c.hasConstraint) : c.effects ≠ [] := by
  intro hnil
  simp only [effects, constraintIf, List.append_eq_nil_iff, ite_eq_right_iff, reduceCtorEq,
    imp_false, Bool.not_eq_true, Option.toList_eq_nil_iff, Option.map_eq_none_iff] at hnil
  simp [hasConstraint, hnil] at h

/-- The constraints that a column is written with: `NULL` stands behind a name that no other
    constraint follows. -/
def Column.constraints (c : Column) : List ColumnConstraint :=
  c.effects ++ if c.constraintName.isSome && !c.hasConstraint then [.null] else []

theorem Column.constraints_ne_nil (h : c.constraintName.isSome) : c.constraints ≠ [] := by
  intro hnil
  obtain ⟨heffects, hnull⟩ := List.append_eq_nil_iff.1 hnil
  cases hc : c.hasConstraint with
  | false => simp [h, hc] at hnull
  | true => exact effects_ne_nil hc heffects

theorem Column.WellFormed.foldl_constraints (h : c.WellFormed depth) :
    c.constraints.foldl constrain c.bare = c := by
  rw [constraints, List.foldl_append, h.foldl_effects]
  split <;> rfl

theorem Writes.constraints (h : c.WellFormed depth) :
    Writes (spaced (c.constraintClauses ++
        if c.constraintName.isSome && !c.hasConstraint then ["NULL"] else []))
      (Unnamed depth · c.constraints) := by
  refine (effects h).unnamed ?_
  split
  · refine (clause (keyword .null)).mono ?_
    rintro _ ⟨t, rfl, ht⟩
    exact .single (.null ht .absent)
  · exact noConstraint

/-- A column is read as a column that declares it. -/
theorem Writes.column (h : c.WellFormed depth) :
    Writes c.render.toList fun ts => ∃ w, Grammar.Column.Derives depth ts w ∧ w.column = c := by
  have hnamed := (named .constraint c.constraintName).clauses (constraints h)
  unfold Column.render
  simp only [List.cons_append, List.append_assoc]
  refine (renderClauses (name c.name) ((typeClause h).clauses hnamed)).mono ?_
  rintro _ ⟨_, _, rfl, ⟨t, rfl, ht⟩, types, _, rfl, htypes, names, ts, rfl, hnames, hts⟩
  obtain ⟨ws, hws, hfold⟩ := hts.name hnames.constraintName Column.constraints_ne_nil
    { name := c.name, type := c.type, length := c.length }
  refine ⟨⟨c.name, c.type, c.length, ws⟩, ?_, ?_⟩
  · simpa using Grammar.Column.Derives.intro ht.1 htypes hws
  · rw [WrittenColumn.column, hfold, Option.or_none]
    exact h.foldl_constraints

end CreateTable
