import CreateTable.Proofs.Rendering.Clauses

/-!
# Foreign keys as they are written

A foreign key is written as its target, the actions, the match type and the deferral, in this order.
The grammar derives the foreign key from what is read.

## Main definitions

- `Acting` — the action for an event, or nothing if there is none

## Main statements

- `References.clauses_of_written` — clauses in the written order make up the foreign key
- `Writes.foreignKey` — a foreign key behind `REFERENCES`
-/

namespace CreateTable

open Grammar Lexical

/-- The words of an action. -/
def ReferentialAction.words : ReferentialAction → List Keyword
  | unspecified => []
  | setNull => [.set, .null]
  | setDefault => [.set, .default]
  | cascade => [.cascade]
  | restrict => [.restrict]
  | noAction => [.no, .action]

theorem References.action_of_kinds {action : ReferentialAction} {ts : List Token}
    (hne : action ≠ .unspecified)
    (hts : ts.map (·.kind) = action.words.map TokenKind.keyword) : References.Action ts action := by
  cases action
  case unspecified => exact absurd rfl hne
  case cascade | restrict =>
    obtain ⟨t, _, rfl, ht, hts⟩ := List.map_eq_cons_iff.1 hts
    obtain rfl := List.map_eq_nil_iff.1 hts
    constructor
    exact ht
  all_goals
    obtain ⟨t, _, rfl, ht, hts⟩ := List.map_eq_cons_iff.1 hts
    obtain ⟨u, _, rfl, hu, hts⟩ := List.map_eq_cons_iff.1 hts
    obtain rfl := List.map_eq_nil_iff.1 hts
    constructor
    · exact ht
    · exact hu

/-- The action for an event, or nothing if there is none. -/
inductive Acting (event : References.Event) : List Token → ReferentialAction → Prop
  | absent : Acting event [] .unspecified
  | present {on word : Token} {ts : List Token} {action : ReferentialAction} :
    on.kind = .keyword .on → word.kind = .keyword event.keyword → References.Action ts action →
    Acting event (on :: word :: ts) action

theorem Writes.acting (event : References.Event) (action : ReferentialAction) :
    Writes (spaced (ForeignKey.actionClause event.keyword.spelling action))
      (Acting event · action) := by
  by_cases hne : action = .unspecified
  · subst hne
    exact nil.mono fun ts hts => hts ▸ .absent
  have hwords : spaced (ForeignKey.actionClause event.keyword.spelling action) =
      spaced ((.on :: event.keyword :: action.words).map Keyword.spelling) := by
    cases event <;> cases action <;> first | rfl | exact absurd rfl hne
  refine (keywords _ hwords).mono fun ts hts => ?_
  obtain ⟨on, _, rfl, hon, hts⟩ := List.map_eq_cons_iff.1 hts
  obtain ⟨word, ts, rfl, hword, hts⟩ := List.map_eq_cons_iff.1 hts
  exact .present hon hword (References.action_of_kinds hne hts)

/-- The words of an initial mode. -/
def InitialMode.words : InitialMode → List Keyword
  | unspecified => []
  | deferred => [.initially, .deferred]
  | immediate => [.initially, .immediate]

/-- The words of a deferral. -/
def Deferral.words : Deferral → List Keyword
  | unspecified => []
  | stated false mode => .deferrable :: mode.words
  | stated true mode => .not :: .deferrable :: mode.words

theorem References.mode_of_kinds {mode : InitialMode} {ts : List Token}
    (hts : ts.map (·.kind) = mode.words.map TokenKind.keyword) : References.Mode ts mode := by
  cases mode
  case unspecified =>
    obtain rfl := List.map_eq_nil_iff.1 hts
    exact .absent
  all_goals
    obtain ⟨word, _, rfl, hword, hts⟩ := List.map_eq_cons_iff.1 hts
    obtain ⟨t, _, rfl, ht, hts⟩ := List.map_eq_cons_iff.1 hts
    obtain rfl := List.map_eq_nil_iff.1 hts
    constructor
    · exact hword
    · exact ht

/-- The tokens of a deferral, or nothing if there is none. -/
def Deferring (ts : List Token) (deferral : Deferral) : Prop :=
  (ts = [] ∧ deferral = .unspecified) ∨ References.Deferrable ts deferral

theorem Writes.deferral (deferral : Deferral) :
    Writes (spaced (optionalClause deferral.render)) (Deferring · deferral) := by
  have hwords : spaced (optionalClause deferral.render) =
      spaced (deferral.words.map Keyword.spelling) := by
    obtain _ | ⟨_ | _, _ | _ | _⟩ := deferral <;> rfl
  refine (keywords _ hwords).mono fun ts hts => ?_
  match deferral, hts with
  | .unspecified, hts => exact .inl ⟨List.map_eq_nil_iff.1 hts, rfl⟩
  | .stated false mode, hts =>
    obtain ⟨t, ts, rfl, ht, hts⟩ := List.map_eq_cons_iff.1 hts
    exact .inr (.plain ht (References.mode_of_kinds hts))
  | .stated true mode, hts =>
    obtain ⟨not, _, rfl, hnot, hts⟩ := List.map_eq_cons_iff.1 hts
    obtain ⟨t, ts, rfl, ht, hts⟩ := List.map_eq_cons_iff.1 hts
    exact .inr (.negated hnot ht (References.mode_of_kinds hts))

/-- Clauses in the written order make up the foreign key. -/
theorem References.clauses_of_written {key : ForeignKey} {deletes updates names ts : List Token}
    (hdeletes : Acting .delete deletes key.onDelete)
    (hupdates : Acting .update updates key.onUpdate)
    (hnames : Named .match names key.matchType) (hts : Deferring ts key.deferral) :
    References.Clauses { table := key.table, columns := key.columns }
      (deletes ++ (updates ++ (names ++ ts))) key := by
  obtain ⟨table, columns, onDelete, onUpdate, matchType, deferral⟩ := key
  dsimp only at *
  have hdeferral : References.Clauses { table, columns, onDelete, onUpdate, matchType } ts
      { table, columns, onDelete, onUpdate, matchType, deferral } := by
    obtain ⟨rfl, rfl⟩ | h := hts
    · exact .nil
    · exact .deferrable h
  have hmatch : References.Clauses { table, columns, onDelete, onUpdate } (names ++ ts)
      { table, columns, onDelete, onUpdate, matchType, deferral } := by
    cases hnames with
    | absent => exact hdeferral
    | present hword ht => exact .clause (.matchType hword ht) hdeferral
  have hupdate : References.Clauses { table, columns, onDelete } (updates ++ (names ++ ts))
      { table, columns, onDelete, onUpdate, matchType, deferral } := by
    cases hupdates with
    | absent => exact hmatch
    | present hon hword haction => exact .clause (.action hon hword haction) hmatch
  cases hdeletes with
  | absent => exact hupdate
  | present hon hword haction => exact .clause (.action hon hword haction) hupdate

/-- A table with the columns referred to. -/
theorem Writes.target (key : ForeignKey) :
    Writes key.renderTarget.toList fun ts =>
      ∀ rest, References.Clauses { table := key.table, columns := key.columns } rest key →
        References.Derives (ts ++ rest) key := by
  unfold ForeignKey.renderTarget
  by_cases hcolumns : key.columns = []
  · simp only [hcolumns, List.isEmpty_nil, if_true, String.append_empty]
    refine (name key.table).mono ?_
    rintro _ ⟨t, rfl, ht⟩ rest hrest
    exact .plain ht.1 hrest
  · have hnames := (name key.table).append (nameList hcolumns).leftParen (.cons (by decide) _)
    simp only [List.isEmpty_iff, hcolumns, if_false, String.toList_append]
    refine hnames.mono ?_
    rintro _ ⟨_, _, rfl, ⟨t, rfl, ht⟩, _, names, rfl, ⟨opening, rfl, hopening⟩, hnames⟩ rest hrest
    exact .listed ht.1 hopening hnames hrest

/-- A foreign key behind `REFERENCES`. -/
theorem Writes.foreignKey (key : ForeignKey) :
    Writes key.render.toList
      (Then (Single (·.kind = .keyword .references)) (References.Derives · key)) := by
  have hclauses := (acting .delete key.onDelete).clauses ((acting .update key.onUpdate).clauses
    ((named .match key.matchType).clauses (deferral key.deferral)))
  have htarget := (keyword .references).append (target key).space (.cons (by decide) _)
  have hword : Keyword.references.spelling.toList ++ ' ' :: key.renderTarget.toList =
      ("REFERENCES " ++ key.renderTarget).toList := by
    rw [String.toList_append]
    rfl
  unfold ForeignKey.render
  simp only [List.cons_append, List.append_assoc]
  refine (renderClauses (hword ▸ htarget) hclauses).mono ?_
  rintro _ ⟨_, _, rfl, ⟨_, ts, rfl, hreferences, hts⟩, deletes, _, rfl, hdeletes, updates, _, rfl,
    hupdates, names, deferrals, rfl, hnames, hdeferrals⟩
  have hclauses := References.clauses_of_written hdeletes hupdates hnames hdeferrals
  exact ⟨_, _, List.append_assoc .., hreferences, hts _ hclauses⟩

end CreateTable
