import CreateTable.Proofs.Rendering.WellFormed
import CreateTable.Proofs.Rendering.Writing

/-!
# Clauses as they are written

The clauses that columns and table constraints share, written, are read as tokens that the grammar
derives them from.

## Main definitions

- `listed` — items of a list, each behind a comma and a space
- `Named` — a keyword and a name, or nothing if there is no name

## Main statements

- `Writes.list` — items with commas between, and a closing parenthesis
- `Writes.expression` — an expression in parentheses
- `Writes.indexedColumns` — the columns of a key in parentheses
-/

namespace CreateTable

open Grammar Lexical

variable {text : List Char} {P Q : List Token → Prop}

namespace Writes

theorem clause {s : String} (h : Writes s.toList P) : Writes (spaced [s]) P := by
  simpa using h.space

theorem clauses {clauses clauses' : List String} (h : Writes (spaced clauses) P)
    (h' : Writes (spaced clauses') Q) : Writes (spaced (clauses ++ clauses')) (Then P Q) := by
  rw [spaced_append]
  exact h.append h' (delimited_spaced _)

/-- A clause and those behind it, with spaces between. -/
theorem renderClauses {s : String} {clauses : List String} (h : Writes s.toList P)
    (h' : Writes (spaced clauses) Q) :
    Writes (CreateTable.renderClauses (s :: clauses)).toList (Then P Q) := by
  rw [toList_renderClauses_cons]
  exact h.append h' (delimited_spaced _)

/-- A clause that is made up of keywords. -/
theorem keywords {clauses : List String} (ks : List Keyword)
    (h : spaced clauses = spaced (ks.map Keyword.spelling)) :
    Writes (spaced clauses) fun ts => ts.map (·.kind) = ks.map TokenKind.keyword :=
  h ▸ words ks

end Writes

-- ════════════════════════════════════════════════════════════════════════
-- Lists
-- ════════════════════════════════════════════════════════════════════════

/-- Items of a list, each behind a comma and a space. -/
def listed (items : List String) : List Char := items.flatMap (',' :: ' ' :: ·.toList)

@[simp] theorem listed_nil : listed [] = [] := rfl

@[simp] theorem listed_cons (item : String) (items : List String) :
    listed (item :: items) = ',' :: ' ' :: item.toList ++ listed items := rfl

theorem delimited_listed (items : List String) : Delimited (listed items) := by
  cases items with
  | nil => exact .nil
  | cons item items => exact .cons (by decide) _

theorem toList_renderList_cons (item : String) (items : List String) :
    (renderList (item :: items)).toList = item.toList ++ listed items := by
  unfold renderList
  induction items generalizing item with
  | nil => simp
  | cons next items ih =>
    rw [String.intercalate_cons_cons, String.toList_append, String.toList_append, ih]
    simp

/-- Items with commas between, and a closing parenthesis. The relation `L` is closed under what
    such a list is made up of. -/
theorem Writes.list {α : Type} {f : α → String} {Item : List Token → α → Prop}
    {L : List Token → List α → Prop}
    (last : ∀ {ts close a}, Item ts a → close.kind = .rightParen → L (ts ++ [close]) [a])
    (more : ∀ {ts comma rest a as}, Item ts a → comma.kind = .comma → L rest as →
      L (ts ++ comma :: rest) (a :: as))
    {items : List α} (hne : items ≠ []) (hitems : ∀ a, Writes (f a).toList (Item · a)) :
    Writes ((renderList (items.map f)).toList ++ [')']) (L · items) := by
  obtain ⟨a, items, rfl⟩ := List.exists_cons_of_ne_nil hne
  rw [List.map_cons, toList_renderList_cons, List.append_assoc]
  clear hne
  induction items generalizing a with
  | nil =>
    refine ((hitems a).append (rightParen nil) (.cons (by decide) _)).mono ?_
    rintro _ ⟨ts, _, rfl, ha, _, _, rfl, ⟨close, rfl, hclose⟩, rfl⟩
    exact last ha hclose
  | cons b items ih =>
    have htail := (ih b).space.comma
    simp only [List.map_cons, listed_cons, List.cons_append, List.append_assoc]
    refine ((hitems a).append htail (.cons (by decide) _)).mono ?_
    rintro _ ⟨ts, _, rfl, ha, _, rest, rfl, ⟨comma, rfl, hcomma⟩, hrest⟩
    exact more ha hcomma hrest

theorem Writes.nameList {names : List String} (hne : names ≠ []) :
    Writes ((renderList (names.map Name.render)).toList ++ [')']) (NameList.Derives · names) := by
  refine Writes.list ?_ ?_ hne Writes.name
  · rintro _ close name ⟨t, rfl, ht⟩ hclose
    exact .last ht.1 hclose
  · rintro _ comma rest name names ⟨t, rfl, ht⟩ hcomma hrest
    exact .more ht.1 hcomma hrest

-- ════════════════════════════════════════════════════════════════════════
-- Choices
-- ════════════════════════════════════════════════════════════════════════

/-- The words of a conflict clause. -/
def ConflictResolution.words : ConflictResolution → List Keyword
  | unspecified => []
  | rollback => [.on, .conflict, .rollback]
  | abort => [.on, .conflict, .abort]
  | fail => [.on, .conflict, .fail]
  | ignore => [.on, .conflict, .ignore]
  | replace => [.on, .conflict, .replace]

theorem Writes.conflict (r : ConflictResolution) :
    Writes (spaced (optionalClause r.render)) (ConflictClause.Derives · r) := by
  refine (keywords r.words (by cases r <;> rfl)).mono fun ts hts => ?_
  cases r
  case unspecified =>
    obtain rfl := List.map_eq_nil_iff.1 hts
    exact .absent
  all_goals
    obtain ⟨on, _, rfl, hon, hts⟩ := List.map_eq_cons_iff.1 hts
    obtain ⟨conflict, _, rfl, hconflict, hts⟩ := List.map_eq_cons_iff.1 hts
    obtain ⟨word, _, rfl, hword, hts⟩ := List.map_eq_cons_iff.1 hts
    obtain rfl := List.map_eq_nil_iff.1 hts
    exact .present hon hconflict (by simp [ConflictClause.resolution?, hword,
      ConflictResolution.ofKeyword?])

/-- The words of a sort clause. -/
def SortOrder.words : SortOrder → List Keyword
  | unspecified => []
  | ascending => [.asc]
  | descending => [.desc]

theorem Writes.order (o : SortOrder) :
    Writes (spaced (optionalClause o.render)) (SortClause.Derives · o) := by
  refine (keywords o.words (by cases o <;> rfl)).mono fun ts hts => ?_
  cases o
  case unspecified =>
    obtain rfl := List.map_eq_nil_iff.1 hts
    exact .absent
  all_goals
    obtain ⟨word, _, rfl, hword, hts⟩ := List.map_eq_cons_iff.1 hts
    obtain rfl := List.map_eq_nil_iff.1 hts
    exact .present (by simp [Token.sortOrder?, hword, SortOrder.ofKeyword?])

/-- A keyword and a name, or nothing if there is no name. -/
inductive Named (k : Keyword) : List Token → Option String → Prop
  | absent : Named k [] none
  | present {word t : Token} {name : String} :
    word.kind = .keyword k → t.name? = some name → Named k [word, t] (some name)

theorem Named.collation {ts : List Token} {name : Option String} (h : Named .collate ts name) :
    IndexedColumns.Collation ts name := by
  cases h with
  | absent => exact .absent
  | present hword ht => exact .present hword ht

theorem Named.constraintName {ts : List Token} {name : Option String}
    (h : Named .constraint ts name) : ConstraintName ts name := by
  cases h with
  | absent => exact .absent
  | present hword ht => exact .present hword ht

/-- A keyword and a name. -/
theorem Writes.wordAndName (k : Keyword) (name : String) :
    Writes (k.spelling ++ " " ++ Name.render name).toList (Named k · (some name)) := by
  have hwrites := (keyword k).append (Writes.name name).space (.cons (by decide) _)
  simp only [String.toList_append, List.append_assoc]
  refine hwrites.mono ?_
  rintro _ ⟨_, _, rfl, ⟨word, rfl, hword⟩, t, rfl, ht⟩
  exact .present hword ht.1

theorem Writes.named (k : Keyword) (name : Option String) :
    Writes (spaced (namedClause k.spelling name)) (Named k · name) := by
  cases name with
  | none => exact nil.mono fun ts hts => hts ▸ .absent
  | some name => exact clause (wordAndName k name)

-- ════════════════════════════════════════════════════════════════════════
-- Expressions and keys
-- ════════════════════════════════════════════════════════════════════════

/-- A text that is written as it is held. -/
theorem Writes.consistsOf {p : List Token → Prop} {s : String} (h : ConsistsOf p s)
    (hne : ∀ ts, p ts → ts ≠ [])
    (hp : ∀ ts us, p ts → List.Forall₂ Token.Alike ts us → p us) :
    Writes s.toList fun ts => p ts ∧ Token.verbatim ts = s := by
  obtain ⟨ts, htokens, hverbatim, hts⟩ := h
  refine (verbatim htokens (hne ts hts) hverbatim).mono ?_
  rintro us ⟨halike, hsame⟩
  exact ⟨hp ts us hts halike, hsame ▸ hverbatim⟩

theorem Writes.expression {depth : Nat} {s : String} (h : IsExpression depth s) :
    Writes ('(' :: (s.toList ++ [')'])) (Expression.Derives depth · s) := by
  have hinner := consistsOf h (fun ts hts => hts.1) fun ts us hts hmoved =>
    ⟨fun hus => hts.1 (by simpa [hus] using hmoved), hts.2.of_alike hmoved⟩
  have hclosed := hinner.append (rightParen nil) (.cons (by decide) _)
  refine hclosed.leftParen.mono ?_
  rintro _ ⟨_, _, rfl, ⟨opening, rfl, hopening⟩, inner, _, rfl, ⟨⟨hne, hbalanced⟩, rfl⟩, _, _, rfl,
    ⟨closing, rfl, hclosing⟩, rfl⟩
  exact .intro hopening hne hbalanced hclosing

theorem Writes.indexedColumn (c : IndexedColumn) :
    Writes c.render.toList (IndexedColumns.Item · c) := by
  have hclauses := (named .collate c.collation).clauses (order c.order)
  refine (renderClauses (name c.name) hclauses).mono ?_
  rintro _ ⟨_, _, rfl, ⟨t, rfl, ht⟩, collations, orders, rfl, hcollations, horders⟩
  simpa using IndexedColumns.Item.intro ht.1 hcollations.collation horders

theorem Writes.indexedColumns {columns : List IndexedColumn} (hne : columns ≠ []) :
    Writes ('(' :: ((renderList (columns.map IndexedColumn.render)).toList ++ [')']))
      (IndexedColumns.Derives · columns) := by
  refine (list (L := IndexedColumns.Items) .last .more hne indexedColumn).leftParen.mono ?_
  rintro _ ⟨_, ts, rfl, ⟨opening, rfl, hopening⟩, hts⟩
  exact .intro hopening hts

end CreateTable
