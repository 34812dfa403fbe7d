import CreateTable.Proofs.Editing.Splicing
import CreateTable.Proofs.Stopping

/-!
# States that accept the same

Some states differ only in tokens that no accepted statement shows: the first token of a body, a
`NOT` that may belong to a foreign key, and what stands before the first word of a type. From one of
two such states the same is accepted as from the other.

## Main definitions

- `Verdict.MatchedBy` — one verdict does not refuse what another takes or is complete with
- `Statement.State.Twin` — statements that differ only in such tokens
- `Unled` — what stands before the next token does not matter in a state

## Main statements

- `Accepts.of_matched` — what is accepted is accepted from a state that matches every step
- `Statement.step_twin` — one step from twins leads to twins
- `References.unled`, `TableConstraint.unled_named` and others — states in which no text is held
  whose next token might stand behind other trivia
- `Statement.Admits.behind_twins` — behind twins the same is read, and may be shifted

## Design notes

Only acceptance is carried over. A refusal may blame the very token in which twins differ.
-/

namespace CreateTable

open Lexical Grammar Token

-- ════════════════════════════════════════════════════════════════════════
-- Verdicts
-- ════════════════════════════════════════════════════════════════════════

/-- A verdict that does what another one does, unless the other one refuses its token. -/
inductive Verdict.MatchedBy {σ α : Type} (S : σ → σ → Prop) (A : α → α → Prop) :
    Verdict σ α → Verdict σ α → Prop
  | taken {s s' : σ} : S s s' → MatchedBy S A (.taken s) (.taken s')
  | complete {a a' : α} : A a a' → MatchedBy S A (.complete a) (.complete a')
  | refused (e : ParseError) (v : Verdict σ α) : MatchedBy S A (.refused e) v

namespace Verdict.MatchedBy

variable {σ τ α β : Type} {S : σ → σ → Prop} {T : τ → τ → Prop} {A : α → α → Prop}
  {B : β → β → Prop}

protected theorem refl (hS : ∀ s, S s s) (hA : ∀ a, A a a) (v : Verdict σ α) :
    v.MatchedBy S A v := by
  cases v with
  | taken s => exact .taken (hS s)
  | complete a => exact .complete (hA a)
  | refused e => exact .refused e _

theorem andThen {v v' : Verdict σ α} {within within' : σ → τ} {after after' : α → Verdict τ β}
    (h : v.MatchedBy S A v') (hin : ∀ s s', S s s' → T (within s) (within' s'))
    (hout : ∀ a a', A a a' → (after a).MatchedBy T B (after' a')) :
    (v.andThen within after).MatchedBy T B (v'.andThen within' after') := by
  cases h with
  | taken hs => exact .taken (hin _ _ hs)
  | complete ha => exact hout _ _ ha
  | refused e => exact .refused e _

end Verdict.MatchedBy

namespace Grammar

open Verdict

section

variable {σ α : Type} {S : σ → σ → Prop} {step : σ → Token → Verdict σ α}

/-- What is accepted is accepted from another state that matches every step. -/
theorem Accepts.of_matched
    (hstep : ∀ s s' t, S s s' → (step s t).MatchedBy S Eq (step s' t)) {s s' : σ} {ts : List Token}
    {e : Token} {a : α} (hs : S s s') (h : Accepts step s ts e a) : Accepts step s' ts e a := by
  induction ts generalizing s s' with
  | nil =>
    have hmatch := hstep s s' e hs
    rw [accepts_nil.1 h] at hmatch
    generalize hv : step s' e = v at hmatch
    obtain _ | ⟨rfl⟩ := hmatch
    exact hv
  | cons t ts ih =>
    obtain ⟨n, hn, h⟩ := h
    have hmatch := hstep s s' t hs
    rw [hn] at hmatch
    generalize hv : step s' t = v at hmatch
    obtain hs' | _ := hmatch
    exact .take hv (ih hs' h)

/-- What stands before the next token does not matter in a state. -/
def Unled (S : σ → σ → Prop) (step : σ → Token → Verdict σ α) (s : σ) : Prop :=
  ∀ t t' : Token, t.Alike t' → (step s t).MatchedBy S Eq (step s t')

end

-- ════════════════════════════════════════════════════════════════════════
-- States that are twins
-- ════════════════════════════════════════════════════════════════════════

/-- Foreign keys that differ only in a `NOT` that has been read. -/
inductive References.State.Twin : State → State → Prop
  | refl (s : State) : Twin s s
  | not (key : ForeignKey) (word word' : Token) : Twin (.not key word) (.not key word')

/-- What is read of such foreign keys. -/
structure References.Result.Twin (r r' : Result) : Prop where
  key : r'.key = r.key
  heldNot : r'.heldNot.isSome = r.heldNot.isSome

/-- Constraints on a column that differ only in a `NOT` that has been read. -/
inductive ColumnConstraint.State.Twin : State → State → Prop
  | refl (s : State) : Twin s s
  | references {key key' : References.State} : key.Twin key' →
    Twin (.references key) (.references key')

/-- What is read of such constraints. -/
structure ColumnConstraint.Result.Twin (r r' : Result) : Prop where
  constraint : r'.constraint = r.constraint
  heldNot : r'.heldNot.isSome = r.heldNot.isSome

/-- Columns that differ only in such a `NOT`, or in what stands before the type. -/
inductive Column.State.Twin : State → State → Prop
  | refl (s : State) : Twin s s
  | type (column : CreateTable.Column) (words : List Token) {t t' : Token} : t.text = t'.text →
    Twin (.type column (words ++ [t])) (.type column (words ++ [t']))
  | constraint (column : CreateTable.Column) {k k' : ColumnConstraint.State} : k.Twin k' →
    Twin (.constraint column k) (.constraint column k')

/-- Table constraints that differ only in a `NOT` that has been read. -/
inductive TableConstraint.State.Twin : State → State → Prop
  | refl (s : State) : Twin s s
  | references (name : OptionalName) (columns : List String) {key key' : References.State} :
    key.Twin key' → Twin (.references name columns key) (.references name columns key')

/-- What is read of such constraints. -/
structure TableConstraint.Result.Twin (r r' : Result) : Prop where
  constraint : r'.constraint = r.constraint
  heldNot : r'.heldNot.isSome = r.heldNot.isSome

/-- Bodies that differ only in their first tokens, as far as they are read. -/
structure Body.Progress.Twin (p q : Progress) : Prop where
  room : q.room = p.room
  columns : q.columns = p.columns
  constraints : q.constraints = p.constraints

/-- Bodies that differ only in such tokens. -/
inductive Body.State.Twin : State → State → Prop
  | start : Twin .start .start
  | item {p q : Progress} : p.Twin q → Twin (.item p) (.item q)
  | column {p q : Progress} {c c' : Column.State} : p.Twin q → c.Twin c' →
    Twin (.column p c) (.column q c')
  | constraint {p q : Progress} {k k' : TableConstraint.State} : p.Twin q → k.Twin k' →
    Twin (.constraint p k) (.constraint q k')
  | closed (items : Items) : Twin (.closed items) (.closed items)

/-- Statements that differ only in such tokens. -/
inductive Statement.State.Twin : State → State → Prop
  | refl (s : State) : Twin s s
  | body (table : Table) {b b' : Body.State} : b.Twin b' → Twin (.body table b) (.body table b')

variable {limits : Limits} {t t' : Token}

-- ════════════════════════════════════════════════════════════════════════
-- Tokens that are alike
-- ════════════════════════════════════════════════════════════════════════

section

variable {σ α : Type} {S : σ → σ → Prop} {A : α → α → Prop}

theorem takeKind_matched (ht : t.Alike t') (kind : TokenKind) (what : Expectation) {next next' : σ}
    (hnext : S next next') :
    (takeKind t kind what next).MatchedBy S A (takeKind t' kind what next') := by
  unfold takeKind
  rw [← ht.1]
  split
  · exact .taken hnext
  · exact .refused _ _

theorem takeName_matched (ht : t.Alike t') (role : NameRole) {next : String → σ}
    (hS : ∀ s, S s s) : (takeName t role next).MatchedBy S A (takeName t' role next) := by
  unfold takeName
  rw [← ht.name?]
  split
  · exact .taken (hS _)
  · exact .refused _ _

end

theorem NameList.unled (role : NameRole) (closing : Expectation) (s : NameList.State) :
    Unled Eq (NameList.step role closing) s := by
  intro t t' ht
  cases s with
  | name names => exact takeName_matched ht role fun _ => rfl
  | next names =>
    unfold NameList.step
    dsimp only
    rw [← ht.1]
    split
    · exact .taken rfl
    · exact .taken rfl
    · exact .refused _ _
  | closed names => exact .complete rfl

theorem ConflictClause.unled (s : ConflictClause.State) : Unled Eq ConflictClause.step s := by
  intro t t' ht
  cases s with
  | start =>
    unfold ConflictClause.step Token.isKeyword
    dsimp only
    rw [← ht.1]
    exact .refl (fun _ => rfl) (fun _ => rfl) _
  | conflict => exact takeKind_matched ht _ _ rfl
  | resolution =>
    unfold ConflictClause.step
    dsimp only
    rw [← ConflictClause.resolution?_of_alike ht]
    split
    · exact .taken rfl
    · exact .refused _ _
  | closed r => exact .complete rfl

namespace IndexedColumns

theorem afterColumn_matched (ht : t.Alike t') (columns : List IndexedColumn) :
    (afterColumn columns t).MatchedBy Eq Eq (afterColumn columns t') := by
  unfold afterColumn
  rw [← ht.1]
  split
  · exact .taken rfl
  · exact .taken rfl
  · exact .refused _ _

theorem afterCollation_matched (ht : t.Alike t') (columns : List IndexedColumn)
    (column : IndexedColumn) :
    (afterCollation columns column t).MatchedBy Eq Eq (afterCollation columns column t') := by
  unfold afterCollation
  rw [← ht.sortOrder?]
  split
  · exact .taken rfl
  · exact afterColumn_matched ht _

theorem unled (s : State) : Unled Eq step s := by
  intro t t' ht
  cases s with
  | opening => exact takeKind_matched ht _ _ rfl
  | name columns => exact takeName_matched ht _ fun _ => rfl
  | named columns column =>
    unfold step Token.isKeyword
    dsimp only
    rw [← ht.1]
    split
    · exact .taken rfl
    · exact afterCollation_matched ht columns column
  | collation columns column => exact takeName_matched ht _ fun _ => rfl
  | collated columns column => exact afterCollation_matched ht columns column
  | next columns => exact afterColumn_matched ht columns
  | closed columns => exact .complete rfl

end IndexedColumns

namespace References

theorem betweenClauses_matched (ht : t.Alike t') (key : ForeignKey) :
    (betweenClauses key t).MatchedBy State.Twin Eq (betweenClauses key t') := by
  unfold betweenClauses
  rw [← ht.1]
  split
  · exact .taken (.refl _)
  · exact .taken (.refl _)
  · exact .taken (.not key t t')
  · exact .taken (.refl _)
  · exact .complete rfl

theorem unled (s : State) : Unled State.Twin step s := by
  intro t t' ht
  cases s with
  | table => exact takeName_matched ht _ .refl
  | named key =>
    have hbetween := betweenClauses_matched ht key
    unfold step
    dsimp only
    rw [← ht.1]
    split
    · exact .taken (.refl _)
    · exact hbetween
  | columns key names =>
    refine (NameList.unled _ _ names t t' ht).andThen ?_ ?_
    · rintro names _ rfl
      exact .refl _
    · rintro columns _ rfl
      exact betweenClauses_matched ht _
  | clauses key => exact betweenClauses_matched ht key
  | no key event => exact takeKind_matched ht _ _ (.refl _)
  | matchType key => exact takeName_matched ht _ .refl
  | closed key => exact .complete rfl
  | event key | action key event | set key event | not key word | deferrable key negated
  | initially key negated =>
    unfold step
    dsimp only
    rw [← ht.1]
    split <;> first
      | exact .taken (.refl _)
      | exact .complete rfl
      | exact .refused _ _

end References

namespace Column

variable {column : CreateTable.Column}

theorem beginConstraint_matched (ht : t.Alike t') {v v' : Verdict State CreateTable.Column}
    (hv : v.MatchedBy State.Twin Eq v') :
    (beginConstraint column t v).MatchedBy State.Twin Eq (beginConstraint column t' v') := by
  unfold beginConstraint
  rw [← ht.1]
  split
  · exact .refused _ _
  · exact .refused _ _
  · split
    · exact .taken (.refl _)
    · exact hv
  · exact hv

theorem betweenConstraints_matched (ht : t.Alike t') (column : CreateTable.Column) :
    (betweenConstraints column t).MatchedBy State.Twin Eq (betweenConstraints column t') := by
  unfold betweenConstraints Token.isKeyword
  rw [← ht.1]
  split
  · exact .taken (.refl _)
  · exact beginConstraint_matched ht (.complete rfl)

theorem afterConstraint_matched (ht : t.Alike t') (column : CreateTable.Column)
    (r : ColumnConstraint.Result) :
    (afterConstraint column r t).MatchedBy State.Twin Eq (afterConstraint column r t') := by
  unfold afterConstraint
  dsimp only
  split
  · exact betweenConstraints_matched ht _
  · exact takeKind_matched ht _ _ (.refl _)

/-- The first word of a type is the only one before which anything may stand. -/
theorem unled_ofName (name : String) : Unled State.Twin (step limits) (.ofName name) := by
  intro t t' ht
  unfold State.ofName step
  dsimp only
  rw [← ht.isTypeWord]
  split
  · exact .taken (.type _ [] ht.2)
  · exact betweenConstraints_matched ht _

theorem unled_named (column : CreateTable.Column) :
    Unled State.Twin (step limits) (.named column) :=
  fun _ _ ht => beginConstraint_matched ht (.refused _ _)

theorem unled_closed (column : CreateTable.Column) (k : CreateTable.ColumnConstraint) :
    Unled State.Twin (step limits) (.constraint column (.closed k)) :=
  fun _ _ ht => afterConstraint_matched ht column { constraint := k }

theorem unled_references (column : CreateTable.Column) (key : References.State) :
    Unled State.Twin (step limits) (.constraint column (.references key)) := by
  intro t t' ht
  have hkey : (ColumnConstraint.step limits (.references key) t).MatchedBy
      ColumnConstraint.State.Twin Eq (ColumnConstraint.step limits (.references key) t') := by
    refine (References.unled key t t' ht).andThen (fun _ _ hs => .references hs) ?_
    rintro r _ rfl
    exact .complete rfl
  refine hkey.andThen (fun _ _ hs => .constraint column hs) ?_
  rintro r _ rfl
  exact afterConstraint_matched ht column r

end Column

namespace TableConstraint

theorem unled_named (name : String) : Unled State.Twin (step limits) (.named name) := by
  intro t t' ht
  unfold step
  dsimp only [afterName]
  rw [← ht.1]
  split
  · split
    · exact .taken (.refl _)
    · exact .refused _ _
  · exact .refused _ _

/-- In a conflict clause behind which a constraint is complete. -/
theorem conflict_matched (ht : t.Alike t') {within : ConflictClause.State → State}
    {result : ConflictResolution → Result} (clause : ConflictClause.State) :
    ((ConflictClause.step clause t).andThen within fun r => .complete (result r)).MatchedBy
      State.Twin Eq
      ((ConflictClause.step clause t').andThen within fun r => .complete (result r)) := by
  refine (ConflictClause.unled clause t t' ht).andThen ?_ ?_
  · rintro clause _ rfl
    exact .refl _
  · rintro r _ rfl
    exact .complete rfl

theorem unled_primaryColumns (name : OptionalName) (columns : IndexedColumns.State) :
    Unled State.Twin (step limits) (.primaryColumns name columns) := by
  intro t t' ht
  refine (IndexedColumns.unled columns t t' ht).andThen ?_ ?_
  · rintro columns _ rfl
    exact .refl _
  · rintro columns _ rfl
    exact conflict_matched ht .start

theorem unled_uniqueColumns (name : OptionalName) (columns : IndexedColumns.State) :
    Unled State.Twin (step limits) (.uniqueColumns name columns) := by
  intro t t' ht
  refine (IndexedColumns.unled columns t t' ht).andThen ?_ ?_
  · rintro columns _ rfl
    exact .refl _
  · rintro columns _ rfl
    exact conflict_matched ht .start

theorem unled_foreignColumns (name : OptionalName) (columns : NameList.State) :
    Unled State.Twin (step limits) (.foreignColumns name columns) := by
  intro t t' ht
  refine (NameList.unled _ _ columns t t' ht).andThen ?_ ?_
  · rintro columns _ rfl
    exact .refl _
  · rintro columns _ rfl
    exact takeKind_matched ht _ _ (.refl _)

theorem unled_references (name : OptionalName) (columns : List String) (key : References.State) :
    Unled State.Twin (step limits) (.references name columns key) := by
  intro t t' ht
  refine (References.unled key t t' ht).andThen (fun _ _ hs => .references name columns hs) ?_
  rintro r _ rfl
  exact .complete rfl

end TableConstraint

namespace Body

variable {p q : Progress}

theorem Progress.Twin.refl (p : Progress) : p.Twin p := ⟨rfl, rfl, rfl⟩

theorem Progress.Twin.items (h : p.Twin q) : q.items = p.items := by
  simp only [Progress.items, h.columns, h.constraints]

theorem Progress.Twin.addColumn (h : p.Twin q) (c : CreateTable.Column) :
    (p.addColumn c).Twin (q.addColumn c) :=
  ⟨congrArg (· - 1) h.room, congrArg (c :: ·) h.columns, h.constraints⟩

theorem Progress.Twin.addConstraint (h : p.Twin q) (c : CreateTable.TableConstraint) :
    (p.addConstraint c).Twin (q.addConstraint c) :=
  ⟨h.room, h.columns, congrArg (c :: ·) h.constraints⟩

theorem requireColumn_matched (h : p.Twin q) {v v' : Verdict State Items}
    (hv : v.MatchedBy State.Twin Eq v') :
    (requireColumn p v).MatchedBy State.Twin Eq (requireColumn q v') := by
  unfold requireColumn
  rw [h.columns]
  split
  · exact .refused _ _
  · exact hv

theorem finish_matched (h : p.Twin q) (ht : t.Alike t') :
    (finish p t).MatchedBy State.Twin Eq (finish q t') := by
  refine requireColumn_matched h (takeKind_matched ht _ _ ?_)
  rw [h.items]
  exact .closed _

theorem beginColumn_matched (h : p.Twin q) (ht : t.Alike t') :
    (beginColumn limits p t).MatchedBy State.Twin Eq (beginColumn limits q t') := by
  unfold beginColumn takeName
  rw [h.room, ← ht.name?]
  split
  · exact .refused _ _
  · split
    · exact .taken (.column h (.refl _))
    · exact .refused _ _

/-- Where the token begins a constraint, and where it does not. -/
private theorem beginConstraint_matched (h : p.Twin q) (ht : t.Alike t')
    {v v' : Verdict State Items} (hv : v.MatchedBy State.Twin Eq v') :
    (match TableConstraint.start? t with
      | some s => .taken (.constraint p s)
      | none => v : Verdict State Items).MatchedBy State.Twin Eq
      (match TableConstraint.start? t' with
        | some s => .taken (.constraint q s)
        | none => v') := by
  rw [show TableConstraint.start? t' = TableConstraint.start? t by
    simp only [TableConstraint.start?, ht.1]]
  split
  · exact .taken (.constraint h (.refl _))
  · exact hv

theorem item_matched (h : p.Twin q) (ht : t.Alike t') :
    (item limits p t).MatchedBy State.Twin Eq (item limits q t') := by
  unfold item
  rw [h.columns, h.constraints, ← ht.1]
  split
  · exact finish_matched h ht
  · refine beginConstraint_matched h ht ?_
    split
    · exact beginColumn_matched h ht
    · exact .refused _ _

theorem afterColumn_matched (h : p.Twin q) (ht : t.Alike t') :
    (afterColumn p t).MatchedBy State.Twin Eq (afterColumn q t') := by
  unfold afterColumn
  rw [← ht.1]
  split
  · exact .taken (.item h)
  · exact finish_matched h ht

theorem afterConstraint_matched (h : p.Twin q) (ht : t.Alike t') :
    (afterConstraint p t).MatchedBy State.Twin Eq (afterConstraint q t') :=
  beginConstraint_matched h ht (afterColumn_matched h ht)

/-- Behind a table constraint, with or without a `NOT` that belongs to nothing. -/
theorem afterResult_matched (h : p.Twin q) (ht : t.Alike t') {r r' : TableConstraint.Result}
    (hr : r.Twin r') :
    (match r.heldNot with
      | none => afterConstraint (p.addConstraint r.constraint) t
      | some word => requireColumn (p.addConstraint r.constraint)
          (word.refuse .commaOrClose)).MatchedBy State.Twin Eq
      (match r'.heldNot with
      | none => afterConstraint (q.addConstraint r'.constraint) t'
      | some word => requireColumn (q.addConstraint r'.constraint)
          (word.refuse .commaOrClose)) := by
  obtain ⟨c, held⟩ := r
  obtain ⟨c', held'⟩ := r'
  obtain ⟨rfl, hheld⟩ := hr
  have hadded := h.addConstraint c'
  cases held with
  | none =>
    cases held' with
    | none => exact afterConstraint_matched hadded ht
    | some word' => cases hheld
  | some word =>
    cases held' with
    | none => cases hheld
    | some word' => exact requireColumn_matched hadded (.refused _ _)

theorem unled_column {c : Column.State} (p : Progress)
    (hc : Unled Column.State.Twin (Column.step limits) c) :
    Unled State.Twin (step limits) (.column p c) := by
  intro t t' ht
  refine (hc t t' ht).andThen (fun _ _ hs => .column (.refl p) hs) ?_
  rintro column _ rfl
  exact afterColumn_matched (.refl _) ht

theorem unled_constraint {k : TableConstraint.State} (p : Progress)
    (hk : Unled TableConstraint.State.Twin (TableConstraint.step limits) k) :
    Unled State.Twin (step limits) (.constraint p k) := by
  intro t t' ht
  refine (hk t t' ht).andThen (fun _ _ hs => .constraint (.refl p) hs) ?_
  rintro r _ rfl
  exact afterResult_matched (.refl p) ht ⟨rfl, rfl⟩

end Body

namespace Statement

theorem unled_named (table : Table) (name : String) :
    Unled State.Twin (step limits) (.named table name) := by
  intro t t' ht
  unfold step afterName Token.isKeyword
  dsimp only
  rw [← ht.1]
  split
  · exact .taken (.refl _)
  · split
    · exact .refused _ _
    · exact takeKind_matched ht _ _ (.refl _)

theorem unled_bodyOpen (table : Table) : Unled State.Twin (step limits) (.bodyOpen table) := by
  intro t t' ht
  unfold step afterName Token.isKeyword
  dsimp only
  rw [← ht.1]
  split
  · exact .refused _ _
  · exact takeKind_matched ht _ _ (.refl _)

theorem unled_body {b : Body.State} (table : Table)
    (hb : Unled Body.State.Twin (Body.step limits) b) :
    Unled State.Twin (step limits) (.body table b) := by
  intro t t' ht
  refine (hb t t' ht).andThen (fun _ _ hs => .body table hs) ?_
  rintro items _ rfl
  unfold beginOption finish Token.isKeyword
  dsimp only
  rw [← ht.isBareWord, ← ht.1]
  split
  · exact .taken (.refl _)
  · split
    · exact .taken (.refl _)
    · split
      · exact .taken (.refl _)
      · exact .complete rfl
      · exact .refused _ _

end Statement

-- ════════════════════════════════════════════════════════════════════════
-- Twins on the same token
-- ════════════════════════════════════════════════════════════════════════

theorem References.Result.Twin.refl (r : References.Result) : r.Twin r := ⟨rfl, rfl⟩

theorem References.step_twin {s s' : References.State} (h : s.Twin s') (t : Token) :
    (References.step s t).MatchedBy State.Twin Result.Twin (References.step s' t) := by
  cases h with
  | refl s => exact .refl .refl .refl _
  | not key word word' =>
    unfold References.step
    dsimp only
    split
    · exact .taken (.refl _)
    · exact .complete ⟨rfl, rfl⟩

theorem ColumnConstraint.step_twin {s s' : ColumnConstraint.State} (h : s.Twin s') (t : Token) :
    (ColumnConstraint.step limits s t).MatchedBy State.Twin Result.Twin
      (ColumnConstraint.step limits s' t) := by
  cases h with
  | refl s => exact .refl .refl (fun _ => ⟨rfl, rfl⟩) _
  | references h =>
    refine (References.step_twin h t).andThen (fun _ _ hs => .references hs) ?_
    rintro r r' ⟨hkey, hheld⟩
    exact .complete ⟨congrArg CreateTable.ColumnConstraint.references hkey, hheld⟩

/-- Behind constraints that differ only in a `NOT`, a column goes on in the same way. -/
theorem Column.afterConstraint_of_twin (column : CreateTable.Column)
    {r r' : ColumnConstraint.Result} (h : r.Twin r') (t : Token) :
    afterConstraint column r' t = afterConstraint column r t := by
  obtain ⟨k, held⟩ := r
  obtain ⟨k', held'⟩ := r'
  obtain ⟨rfl, hheld⟩ := h
  cases held <;> cases held' <;> first | rfl | cases hheld

theorem Column.step_twin {s s' : Column.State} (h : s.Twin s') (t : Token) :
    (Column.step limits s t).MatchedBy State.Twin Eq (Column.step limits s' t) := by
  cases h with
  | refl s => exact .refl .refl (fun _ => rfl) _
  | @type column words u u' htext =>
    have hverbatim : Token.verbatim (words ++ [u']).reverse =
        Token.verbatim (words ++ [u]).reverse := by
      simp [Token.verbatim, htext]
    have hempty : (words ++ [u']).isEmpty = (words ++ [u]).isEmpty := by
      cases words <;> rfl
    unfold Column.step
    dsimp only
    split
    · exact .taken (.type column (t :: words) htext)
    · have hafter : afterType column (words ++ [u']) t = afterType column (words ++ [u]) t := by
        simp only [afterType, hverbatim, hempty]
      rw [hafter]
      exact .refl .refl (fun _ => rfl) _
  | constraint column h =>
    refine (ColumnConstraint.step_twin h t).andThen (fun _ _ hs => .constraint column hs) ?_
    intro r r' hr
    rw [afterConstraint_of_twin column hr]
    exact .refl .refl (fun _ => rfl) _

theorem TableConstraint.step_twin {s s' : TableConstraint.State} (h : s.Twin s') (t : Token) :
    (TableConstraint.step limits s t).MatchedBy State.Twin Result.Twin
      (TableConstraint.step limits s' t) := by
  cases h with
  | refl s => exact .refl .refl (fun _ => ⟨rfl, rfl⟩) _
  | references name columns h =>
    refine (References.step_twin h t).andThen (fun _ _ hs => .references name columns hs) ?_
    rintro ⟨key, held⟩ ⟨key', held'⟩ ⟨rfl, hheld⟩
    exact .complete ⟨rfl, hheld⟩

theorem Body.step_twin {s s' : Body.State} (h : s.Twin s') (t : Token) :
    (Body.step limits s t).MatchedBy State.Twin Eq (Body.step limits s' t) := by
  have ht : t.Alike t := ⟨rfl, rfl⟩
  cases h with
  | start => exact item_matched (.refl _) ht
  | item h => exact item_matched h ht
  | column h hc =>
    refine (Column.step_twin hc t).andThen (fun _ _ hs => .column h hs) ?_
    rintro column _ rfl
    exact afterColumn_matched (h.addColumn column) ht
  | constraint h hk =>
    exact (TableConstraint.step_twin hk t).andThen (fun _ _ hs => .constraint h hs)
      fun _ _ hr => afterResult_matched h ht hr
  | closed items => exact .complete rfl

namespace Statement

/-- One step from twins leads to twins, or completes the same table. -/
theorem step_twin {s s' : State} (h : s.Twin s') (t : Token) :
    (step limits s t).MatchedBy State.Twin Eq (step limits s' t) := by
  cases h with
  | refl s => exact .refl .refl (fun _ => rfl) _
  | body table h =>
    refine (Body.step_twin h t).andThen (fun _ _ hs => .body table hs) ?_
    rintro items _ rfl
    exact .refl .refl (fun _ => rfl) _

/-- Where tokens lead to twins, the same is accepted behind either, and may be shifted if what
    stands before its first token does not matter. -/
theorem Admits.behind_twins {front front' after after' : List Token} {n n' : State}
    {written : List WrittenColumn} {table : Table}
    (h : Admits limits (front ++ after) written table) (hfront : Takes (step limits) .start front n)
    (hfront' : Takes (step limits) .start front' n') (htwin : n.Twin n')
    (hunled : Unled State.Twin (step limits) n') (hafter : Shifted after after') :
    ∃ written', Admits limits (front' ++ after') written' table := by
  have hn := hfront.accepts_append_iff.1 (accepts_of_admits (e := .ending) h rfl)
  have hn' : Accepts (step limits) n' after .ending table :=
    .of_matched (fun _ _ t hs => step_twin hs t) htwin hn
  cases hafter with
  | nil => exact (accepts_iff rfl).1 (hfront'.accepts_append_iff.2 hn')
  | @cons t t' ts ts' ht hts =>
    obtain ⟨m, hm, hrest⟩ := hn'
    have hmatch := hunled t t' ht
    rw [hm] at hmatch
    generalize hv : step limits n' t' = v at hmatch
    obtain hs | _ := hmatch
    have hrest' : Accepts (step limits) _ ts .ending table :=
      .of_matched (fun _ _ t hs => step_twin hs t) hs hrest
    obtain ⟨written', hadmits⟩ :=
      (accepts_iff rfl).1 (hfront'.accepts_append_iff.2 (.take hv hrest'))
    have hsame := List.rel_append (same_refl front') (.cons (.refl t') hts)
    exact hadmits.of_same hsame

end Statement

end Grammar

end CreateTable
