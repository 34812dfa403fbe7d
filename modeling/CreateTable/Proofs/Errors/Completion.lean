import CreateTable.Proofs.Errors.Blame
import CreateTable.Proofs.Rendering.Writing

/-!
# Statements that can be completed

What has been read of a statement can be completed in every state of the reader, unless an
expression that holds nothing has been closed: then every token is refused. The words that complete
it depend on the state alone.

## Main definitions

- `Word` — a text that is read as one token
- `Completes` — words that end what is being read, whatever tokens they are read as
- `State.completion` — the words that end what is being read in a state
- `Stuck` — every token is refused

## Main statements

- `Word.writes_row` — words with spaces before them are read as their tokens
- `Statement.completes` — every statement can be completed
- `Statement.stuck_or_held` — a statement with a token under suspicion is stuck, or a `NOT` is held
-/

namespace CreateTable

open Lexical

-- ════════════════════════════════════════════════════════════════════════
-- Words
-- ════════════════════════════════════════════════════════════════════════

/-- A text that is read as one token of a certain kind, wherever it stands. -/
structure Word where
  text : List Char
  kind : TokenKind
  first : Lexeme.first text = ⟨[], text, .ok kind, []⟩
  present : kind ≠ .endOfInput
  begins : ¬Trivia.Begins text

namespace Word

/-- A keyword. -/
def keyword (k : Keyword) : Word where
  text := k.spelling.toList
  kind := .keyword k
  first := by cases k <;> rfl
  present := by simp
  begins := by cases k <;> simp [Keyword.spelling, Trivia.Begins, isBlank]

/-- A name. -/
def name : Word where
  text := ['x']
  kind := .identifier
  first := rfl
  present := by simp
  begins := by simp [Trivia.Begins, isBlank]

/-- What is due behind `WITHOUT`. -/
def rowid : Word where
  text := "ROWID".toList
  kind := .identifier
  first := by rfl
  present := by simp
  begins := by simp [Trivia.Begins, isBlank]

/-- A number. -/
def number : Word where
  text := ['1']
  kind := .number
  first := rfl
  present := by simp
  begins := by simp [Trivia.Begins, isBlank]

/-- An opening parenthesis. -/
def leftParen : Word where
  text := ['(']
  kind := .leftParen
  first := rfl
  present := by simp
  begins := by simp [Trivia.Begins, isBlank]

/-- A closing parenthesis. -/
def rightParen : Word where
  text := [')']
  kind := .rightParen
  first := rfl
  present := by simp
  begins := by simp [Trivia.Begins, isBlank]

/-- A token that a word is read as. -/
def Fits (w : Word) (t : Token) : Prop := t.kind = w.kind ∧ t.text = w.text

theorem Fits.isKeyword {k word : Keyword} {t : Token} (h : (keyword k).Fits t) :
    t.isKeyword word = (k == word) := by
  have hkind : t.kind = .keyword k := h.1
  rw [Token.isKeyword, hkind]
  by_cases hk : k = word <;> simp [hk]

theorem Fits.name? {t : Token} (h : name.Fits t) : t.name? = some t.source := by
  have hkind : t.kind = .identifier := h.1
  simp [Token.name?, hkind]

theorem Fits.isWord {t : Token} (h : rowid.Fits t) : t.isWord "ROWID" := by
  have hkind : t.kind = .identifier := h.1
  have htext : t.text = "ROWID".toList := h.2
  simp only [Token.isWord, Token.isBareWord, hkind, htext]
  decide +kernel

/-- Words, each behind a space. -/
def row (ws : List Word) : List Char := ws.flatMap (' ' :: ·.text)

theorem delimited_row (ws : List Word) : Delimited (row ws) := by
  cases ws with
  | nil => exact .nil
  | cons w ws => exact .cons (by decide) _

/-- Words with spaces before them are read as their tokens. -/
theorem writes_row (ws : List Word) : Writes (row ws) (List.Forall₂ Fits ws) := by
  induction ws with
  | nil => exact Writes.nil.mono fun ts hts => by simp [hts]
  | cons w ws ih =>
    have hword : Writes w.text (Single w.Fits) := .single w.first w.present w.begins
    refine (hword.space.append ih (delimited_row ws)).mono ?_
    rintro _ ⟨_, us, rfl, ⟨t, rfl, ht⟩, hus⟩
    exact .cons ht hus

end Word

namespace Grammar

open Verdict

-- ════════════════════════════════════════════════════════════════════════
-- Completions
-- ════════════════════════════════════════════════════════════════════════

/-- Whatever tokens the words are read as, they end what is being read, with a `good` result, if a
    token of the kind `next` follows. -/
def Completes {σ α : Type} (step : σ → Token → Verdict σ α) (next : TokenKind) (good : α → Prop)
    (s : σ) (ws : List Word) : Prop :=
  ∀ ts e, List.Forall₂ Word.Fits ws ts → e.kind = next → ∃ a, good a ∧ Accepts step s ts e a

/-- Every token is refused. -/
def Stuck {σ α : Type} (step : σ → Token → Verdict σ α) (s : σ) : Prop :=
  ∀ t, ∃ e, step s t = .refused e

section

variable {σ τ α β : Type} {step : σ → Token → Verdict σ α} {inner : τ → Token → Verdict τ β}
  {next : TokenKind} {good : α → Prop} {goodPart : β → Prop} {s : σ} {p : τ} {within : τ → σ}
  {w : Word} {ws us : List Word}

theorem Completes.nil (h : ∀ e, e.kind = next → ∃ a, good a ∧ step s e = .complete a) :
    Completes step next good s [] := by
  rintro _ e (_ | _) he
  exact h e he

theorem Completes.cons
    (h : ∀ t, w.Fits t → ∃ s', step s t = .taken s' ∧ Completes step next good s' ws) :
    Completes step next good s (w :: ws) := by
  rintro _ e (_ | ⟨ht, hts⟩) he
  obtain ⟨s', hs', hws⟩ := h _ ht
  obtain ⟨a, ha, haccepts⟩ := hws _ e hts he
  exact ⟨a, ha, haccepts.take hs'⟩

/-- A word that is taken for its kind. -/
theorem Completes.take {s' : σ} (hstep : ∀ t, t.kind = w.kind → step s t = .taken s')
    (h : Completes step next good s' ws) : Completes step next good s (w :: ws) :=
  .cons fun t ht => ⟨s', hstep t ht.1, h⟩

/-- A name where one is due. -/
theorem Completes.takeName {role : NameRole} {f : String → σ}
    (hstep : ∀ t, step s t = Grammar.takeName t role f)
    (h : ∀ name, Completes step next good (f name) ws) :
    Completes step next good s (.name :: ws) := by
  refine .cons fun t ht => ⟨f t.source, ?_, h _⟩
  rw [hstep]
  exact takeName_eq_taken.2 ⟨_, ht.name?, rfl⟩

/-- The words that complete a part, and behind them those that complete the reader. -/
theorem Completes.part (h : Completes inner w.kind goodPart p us) (after : β → Token → Verdict σ α)
    (hstep : ∀ p t, step (within p) t = (inner p t).andThen within (after · t))
    (hafter : ∀ b t, goodPart b → w.Fits t →
      ∃ s', after b t = .taken s' ∧ Completes step next good s' ws) :
    Completes step next good (within p) (us ++ w :: ws) := by
  intro ts e hts he
  obtain ⟨front, rest, rfl, hfront, hrest⟩ := exists_append_of_forall₂ hts
  obtain _ | @⟨_, t, _, rest, ht, hrest⟩ := hrest
  obtain ⟨b, hb, hpart⟩ := h front t hfront ht.1
  obtain ⟨s', hs', hws⟩ := hafter b t hb ht
  obtain ⟨a, ha, haccepts⟩ := hws rest e hrest he
  exact ⟨a, ha, Accepts.part inner after hstep hpart ⟨s', hs', haccepts⟩⟩

/-- A part at the end of a reader. -/
theorem Completes.last_part (h : Completes inner next goodPart p ws)
    (after : β → Token → Verdict σ α)
    (hstep : ∀ p t, step (within p) t = (inner p t).andThen within (after · t))
    (hafter : ∀ b e, goodPart b → e.kind = next → ∃ a, good a ∧ after b e = .complete a) :
    Completes step next good (within p) ws := by
  intro ts e hts he
  obtain ⟨b, hb, hpart⟩ := h ts e hts he
  obtain ⟨a, ha, hcomplete⟩ := hafter b e hb he
  exact ⟨a, ha, hpart.last_part after hstep hcomplete⟩

/-- A part whose result is that of the reader. -/
theorem Completes.last (h : Completes inner next goodPart p ws) {f : β → α}
    (hstep : ∀ p t, step (within p) t = (inner p t).andThen within fun b => .complete (f b))
    (hf : ∀ b, goodPart b → good (f b)) : Completes step next good (within p) ws :=
  h.last_part (fun b _ => .complete (f b)) hstep fun b _ hb _ => ⟨f b, hf b hb, rfl⟩

/-- A reader is stuck where its part is. -/
theorem Stuck.part (h : Stuck inner p) (after : β → Token → Verdict σ α)
    (hstep : ∀ p t, step (within p) t = (inner p t).andThen within (after · t)) :
    Stuck step (within p) := by
  intro t
  obtain ⟨e, he⟩ := h t
  exact ⟨e, by rw [hstep, he, andThen_refused]⟩

/-- Nothing is accepted from where a reader is stuck. -/
theorem Stuck.not_accepts {ts : List Token} {e : Token} {a : α} (h : Stuck step s) :
    ¬Accepts step s ts e a := by
  intro haccepts
  obtain ⟨n, hn⟩ := h (ts.headD e)
  rw [accepts_iff_leads, hn] at haccepts
  cases ts with
  | nil => cases haccepts
  | cons t ts =>
    obtain ⟨s', hs', -⟩ := haccepts
    cases hs'

end

-- ════════════════════════════════════════════════════════════════════════
-- Clauses
-- ════════════════════════════════════════════════════════════════════════

/-- Any result will do. -/
def anyResult {α : Type} (_ : α) : Prop := True

namespace NameList

/-- The words that end a list of names. -/
def State.completion : State → List Word
  | .name _ => [.name, .rightParen]
  | .next _ => [.rightParen]
  | .closed _ => []

theorem completes (role : NameRole) (closing : Expectation) (next : TokenKind) (s : State) :
    Completes (step role closing) next anyResult s s.completion := by
  have hclosed : ∀ names, Completes (step role closing) next anyResult (.closed names) [] :=
    fun names => .nil fun e _ => ⟨names, trivial, rfl⟩
  have hnext : ∀ names, Completes (step role closing) next anyResult (.next names)
      [.rightParen] := by
    intro names
    refine .take (fun t ht => ?_) (hclosed names.reverse)
    have hkind : t.kind = .rightParen := ht
    simp [step, hkind]
  cases s with
  | name names => exact .takeName (fun _ => rfl) fun name => hnext (name :: names)
  | next names => exact hnext names
  | closed names => exact hclosed names

end NameList

namespace SignedNumber

/-- The words that end a signed number. -/
def State.completion : State → List Word
  | .start => [.number]
  | .signed _ => [.number]
  | .closed _ => []

theorem completes (what : Expectation) (next : TokenKind) (s : State) :
    Completes (step what) next anyResult s s.completion := by
  have hclosed : ∀ tokens, Completes (step what) next anyResult (.closed tokens) [] :=
    fun tokens => .nil fun e _ => ⟨tokens, trivial, rfl⟩
  cases s with
  | start =>
    refine .cons fun t ht => ⟨.closed [t], ?_, hclosed _⟩
    have hkind : t.kind = .number := ht.1
    simp [step, hkind]
  | signed sign => exact .cons fun t ht => ⟨_, takeKind_eq_taken.2 ⟨ht.1, rfl⟩, hclosed _⟩
  | closed tokens => exact hclosed tokens

end SignedNumber

namespace ConflictClause

/-- The words that end a conflict clause. -/
def State.completion : State → List Word
  | .start => []
  | .conflict => [.keyword .conflict, .keyword .abort]
  | .resolution => [.keyword .abort]
  | .closed _ => []

theorem completes (s : State) : Completes step .rightParen anyResult s s.completion := by
  have hclosed : ∀ r, Completes step .rightParen anyResult (.closed r) [] :=
    fun r => .nil fun e _ => ⟨r, trivial, rfl⟩
  have hresolution : Completes step .rightParen anyResult .resolution [.keyword .abort] := by
    refine .take (fun t ht => ?_) (hclosed .abort)
    have hkind : t.kind = .keyword .abort := ht
    simp only [step, resolution?, hkind]
    rfl
  cases s with
  | start =>
    refine .nil fun e he => ⟨.unspecified, trivial, ?_⟩
    simp [step, Token.isKeyword, he]
  | conflict =>
    exact .take (fun t ht => takeKeyword_eq_taken.2 ⟨ht, rfl⟩) hresolution
  | resolution => exact hresolution
  | closed r => exact hclosed r

end ConflictClause

namespace Expression

/-- The words that end an expression. -/
def State.completion : State → List Word
  | .opening => [.leftParen, .number, .rightParen]
  | .inside nested _ => .number :: List.replicate (nested + 1) .rightParen
  | .closed _ => []
  | .empty _ => []

variable {limits : Limits} {next : TokenKind}

/-- Where something has been read, closing parentheses are enough. -/
theorem completes_replicate (nested : Nat) {read : List Token} (hread : read ≠ []) :
    Completes (step limits) next anyResult (.inside nested read)
      (List.replicate (nested + 1) .rightParen) := by
  induction nested generalizing read with
  | zero =>
    refine .cons fun t ht => ⟨.closed (Token.verbatim read.reverse), ?_, ?_⟩
    · have hkind : t.kind = .rightParen := ht.1
      simp [step, hkind, close, hread]
    · exact .nil fun e _ => ⟨_, trivial, rfl⟩
  | succ nested ih =>
    refine .cons fun t ht => ⟨.inside nested (t :: read), ?_, ih (List.cons_ne_nil _ _)⟩
    have hkind : t.kind = .rightParen := ht.1
    simp [step, hkind]

theorem completes {s : State} (h : s.suspect? = none) :
    Completes (step limits) next anyResult s s.completion := by
  have hinside : ∀ nested read, Completes (step limits) next anyResult (.inside nested read)
      (.number :: List.replicate (nested + 1) .rightParen) := by
    intro nested read
    refine .cons fun t ht => ⟨.inside nested (t :: read), ?_, completes_replicate nested (by simp)⟩
    have hkind : t.kind = .number := ht.1
    simp [step, hkind]
  cases s with
  | opening =>
    exact .take (fun t ht => takeKind_eq_taken.2 ⟨ht, rfl⟩) (hinside 0 [])
  | inside nested read => exact hinside nested read
  | closed text => exact .nil fun e _ => ⟨text, trivial, rfl⟩
  | empty close => cases h

/-- Behind the parentheses of an expression that holds nothing every token is refused. -/
theorem stuck {s : State} {u : Token} (h : s.suspect? = some u) : Stuck (step limits) s := by
  cases s with
  | empty close => exact fun t => ⟨_, rfl⟩
  | _ => cases h

end Expression

namespace IndexedColumns

/-- The words that end the columns of a key. -/
def State.completion : State → List Word
  | .opening => [.leftParen, .name, .rightParen]
  | .name _ => [.name, .rightParen]
  | .collation _ _ => [.name, .rightParen]
  | .named _ _ | .collated _ _ | .next _ => [.rightParen]
  | .closed _ => []

theorem completes (next : TokenKind) (s : State) :
    Completes step next anyResult s s.completion := by
  have hclosed : ∀ columns, Completes step next anyResult (.closed columns) [] :=
    fun columns => .nil fun e _ => ⟨columns, trivial, rfl⟩
  -- where a column may end, the list may
  have hend : ∀ {s : State} (columns : List IndexedColumn),
      (∀ t, t.kind = .rightParen → step s t = .taken (.closed columns)) →
      Completes step next anyResult s [.rightParen] :=
    fun columns h => .take h (hclosed columns)
  have hnamed : ∀ columns column, Completes step next anyResult (.named columns column)
      [.rightParen] := fun columns column => hend (column :: columns).reverse fun t ht => by
    simp [step, Token.isKeyword, afterCollation, Token.sortOrder?, afterColumn, ht]
  have hcollated : ∀ columns column, Completes step next anyResult (.collated columns column)
      [.rightParen] := fun columns column => hend (column :: columns).reverse fun t ht => by
    simp [step, afterCollation, Token.sortOrder?, afterColumn, ht]
  have hname : ∀ columns, Completes step next anyResult (.name columns) [.name, .rightParen] :=
    fun columns => .takeName (fun _ => rfl) fun name => hnamed columns _
  cases s with
  | opening =>
    exact .take (fun t ht => takeKind_eq_taken.2 ⟨ht, rfl⟩) (hname [])
  | name columns => exact hname columns
  | named columns column => exact hnamed columns column
  | collation columns column => exact .takeName (fun _ => rfl) fun name => hcollated columns _
  | collated columns column => exact hcollated columns column
  | next columns => exact hend columns.reverse fun t ht => by simp [step, afterColumn, ht]
  | closed columns => exact hclosed columns

end IndexedColumns

namespace References

/-- The words that end a foreign key. A `NOT` that may belong to it does. -/
def State.completion : State → List Word
  | .table => [.name]
  | .columns _ names => names.completion
  | .event _ => [.keyword .delete, .keyword .cascade]
  | .action _ _ => [.keyword .cascade]
  | .set _ _ => [.keyword .null]
  | .no _ _ => [.keyword .action]
  | .matchType _ => [.name]
  | .not _ _ => [.keyword .deferrable]
  | .initially _ _ => [.keyword .deferred]
  | .named _ | .clauses _ | .deferrable _ _ | .closed _ => []

/-- No `NOT` is handed back. -/
def Result.Whole (r : Result) : Prop := r.heldNot = none

theorem betweenClauses_of_rightParen (key : ForeignKey) {t : Token} (ht : t.kind = .rightParen) :
    betweenClauses key t = .complete { key } := by
  simp [betweenClauses, ht]

theorem completes (s : State) : Completes step .rightParen Result.Whole s s.completion := by
  have hend : ∀ {s : State} (key : ForeignKey),
      (∀ t, t.kind = .rightParen → step s t = .complete { key }) →
      Completes step .rightParen Result.Whole s [] :=
    fun key h => .nil fun e he => ⟨{ key }, rfl, h e he⟩
  have hclauses : ∀ key, Completes step .rightParen Result.Whole (.clauses key) [] :=
    fun key => hend key fun t => betweenClauses_of_rightParen key
  have hnamed : ∀ key, Completes step .rightParen Result.Whole (.named key) [] :=
    fun key => hend key fun t ht => by
      simp [step, ht, betweenClauses_of_rightParen key ht]
  have hdeferrable : ∀ key negated,
      Completes step .rightParen Result.Whole (.deferrable key negated) [] :=
    fun key negated => hend _ fun t ht => by
      simp only [step, ht]
      rfl
  have hclosed : ∀ key, Completes step .rightParen Result.Whole (.closed key) [] :=
    fun key => hend key fun t _ => rfl
  have haction : ∀ key event, Completes step .rightParen Result.Whole (.action key event)
      [.keyword .cascade] := by
    intro key event
    refine .take (fun t ht => ?_) (hclauses (setAction key event .cascade))
    have hkind : t.kind = .keyword .cascade := ht
    simp [step, hkind]
  cases s with
  | table => exact .takeName (fun _ => rfl) fun name => hnamed _
  | named key => exact hnamed key
  | columns key names =>
    refine (NameList.completes _ _ .rightParen names).last_part _ (fun _ _ => rfl) ?_
    exact fun columns e _ he =>
      ⟨{ key := { key with columns } }, rfl, betweenClauses_of_rightParen _ he⟩
  | clauses key => exact hclauses key
  | event key =>
    refine .take (fun t ht => ?_) (haction key .delete)
    have hkind : t.kind = .keyword .delete := ht
    simp [step, hkind]
  | action key event => exact haction key event
  | set key event =>
    refine .take (fun t ht => ?_) (hclauses (setAction key event .setNull))
    have hkind : t.kind = .keyword .null := ht
    simp [step, hkind]
  | no key event => exact .take (fun t ht => takeKeyword_eq_taken.2 ⟨ht, rfl⟩) (hclauses _)
  | matchType key => exact .takeName (fun _ => rfl) fun name => hclauses _
  | not key word =>
    refine .take (fun t ht => ?_) (hdeferrable key true)
    have hkind : t.kind = .keyword .deferrable := ht
    simp [step, hkind]
  | deferrable key negated => exact hdeferrable key negated
  | initially key negated =>
    refine .take (fun t ht => ?_) (hclosed { key with deferral := .stated negated .deferred })
    have hkind : t.kind = .keyword .deferred := ht
    simp [step, hkind]
  | closed key => exact hclosed key

end References

-- ════════════════════════════════════════════════════════════════════════
-- Constraints and columns
-- ════════════════════════════════════════════════════════════════════════

namespace ColumnConstraint

/-- The words that end a column constraint. -/
def State.completion : State → List Word
  | .key => [.keyword .key]
  | .null => [.keyword .null]
  | .keyConflict _ clause | .notNull clause | .nullable clause | .unique clause =>
    clause.completion
  | .check inner | .expression inner => inner.completion
  | .default => [.keyword .null]
  | .number inner => inner.completion
  | .collation => [.name]
  | .references inner => inner.completion
  | .order | .closed _ => []

/-- No `NOT` is handed back. -/
def Result.Whole (r : Result) : Prop := r.heldNot = none

variable {limits : Limits}

theorem completes {s : State} (h : s.suspect? = none) :
    Completes (step limits) .rightParen Result.Whole s s.completion := by
  have hclosed : ∀ constraint,
      Completes (step limits) .rightParen Result.Whole (.closed constraint) [] :=
    fun constraint => .nil fun e _ => ⟨{ constraint }, rfl, rfl⟩
  have hnotNull : ∀ clause : ConflictClause.State,
      Completes (step limits) .rightParen Result.Whole (.notNull clause) clause.completion :=
    fun clause => (ConflictClause.completes clause).last (fun _ _ => rfl) fun _ _ => rfl
  have horder : Completes (step limits) .rightParen Result.Whole .order [] := by
    refine .nil fun e he => ⟨{ constraint := .primaryKey .unspecified .unspecified false }, rfl, ?_⟩
    simp [step, Token.sortOrder?, keyConflict, ConflictClause.step, Token.isKeyword, he]
  cases s with
  | key => exact .take (fun t ht => takeKeyword_eq_taken.2 ⟨ht, rfl⟩) horder
  | order => exact horder
  | keyConflict order clause =>
    refine (ConflictClause.completes clause).last_part _ (fun _ _ => rfl) fun conflict e _ he => ?_
    refine ⟨{ constraint := .primaryKey order conflict false }, rfl, ?_⟩
    simp [Token.isKeyword, he]
  | null =>
    exact .take (fun t ht => takeKeyword_eq_taken.2 ⟨ht, rfl⟩) (hnotNull .start)
  | notNull clause => exact hnotNull clause
  | nullable clause =>
    exact (ConflictClause.completes clause).last (fun _ _ => rfl) fun _ _ => rfl
  | unique clause => exact (ConflictClause.completes clause).last (fun _ _ => rfl) fun _ _ => rfl
  | check inner => exact (Expression.completes h).last (fun _ _ => rfl) fun _ _ => rfl
  | default =>
    refine .cons fun t ht => ⟨.closed (.default t.source), ?_, hclosed _⟩
    have hkind : t.kind = .keyword .null := ht.1
    simp [step, default, hkind, isLiteral]
  | number inner => exact (SignedNumber.completes _ _ inner).last (fun _ _ => rfl) fun _ _ => rfl
  | expression inner => exact (Expression.completes h).last (fun _ _ => rfl) fun _ _ => rfl
  | collation => exact .takeName (fun _ => rfl) fun name => hclosed _
  | references inner => exact (References.completes inner).last (fun _ _ => rfl) fun _ hr => hr
  | closed constraint => exact hclosed constraint

theorem stuck {s : State} {u : Token} (h : s.suspect? = some u) : Stuck (step limits) s := by
  cases s with
  | check inner => exact (Expression.stuck h).part _ fun _ _ => rfl
  | expression inner => exact (Expression.stuck h).part _ fun _ _ => rfl
  | _ => cases h

end ColumnConstraint

namespace Column

/-- The words that end a column. -/
def State.completion : State → List Word
  | .size _ number => number.completion ++ [.rightParen]
  | .scale _ _ number => number.completion ++ [.rightParen]
  | .constraintName _ => [.name, .keyword .null]
  | .named _ => [.keyword .null]
  | .constraint _ inner => inner.completion
  | .type _ _ | .constraints _ => []

variable {limits : Limits}

theorem betweenConstraints_of_rightParen (column : CreateTable.Column) {t : Token}
    (ht : t.kind = .rightParen) : betweenConstraints column t = .complete column := by
  simp [betweenConstraints, beginConstraint, Token.isKeyword, ht]

theorem completes {s : State} (h : s.suspect? = none) :
    Completes (step limits) .rightParen anyResult s s.completion := by
  have hconstraints : ∀ column, Completes (step limits) .rightParen anyResult (.constraints column)
      [] := fun column => .nil fun e he =>
    ⟨column, trivial, betweenConstraints_of_rightParen column he⟩
  have hconstraint : ∀ (column : CreateTable.Column) (inner : ColumnConstraint.State),
      inner.suspect? = none → Completes (step limits) .rightParen anyResult
        (.constraint column inner) inner.completion := by
    intro column inner hinner
    refine (ColumnConstraint.completes hinner).last_part _ (fun _ _ => rfl) fun r e hr he => ?_
    have hheld : r.heldNot = none := hr
    refine ⟨column.constrain r.constraint, trivial, ?_⟩
    simp only [afterConstraint, hheld]
    exact betweenConstraints_of_rightParen _ he
  have hnamed : ∀ column, Completes (step limits) .rightParen anyResult (.named column)
      [.keyword .null] := by
    intro column
    refine .take (fun t ht => ?_) (hconstraint column (.nullable .start) rfl)
    have hkind : t.kind = .keyword .null := ht
    simp [step, beginConstraint, hkind, ColumnConstraint.start?]
  cases s with
  | type column words =>
    have hend : ∀ t : Token, t.kind = .rightParen → ∃ c, step limits (.type column words) t =
        .complete c := by
      intro t ht
      have hword : t.isTypeWord = false := by simp [Token.isTypeWord, Token.name?, ht]
      simp only [step, hword, Bool.false_eq_true, if_false, afterType, ht]
      split <;> exact ⟨_, betweenConstraints_of_rightParen _ ht⟩
    refine .nil fun e he => ?_
    obtain ⟨c, hc⟩ := hend e he
    exact ⟨c, trivial, hc⟩
  | size column number =>
    refine (SignedNumber.completes _ _ number).part _ (fun _ _ => rfl) fun size t _ ht => ?_
    have hkind : t.kind = .rightParen := ht.1
    refine ⟨.constraints { column with length := some (Token.verbatim size) }, ?_, hconstraints _⟩
    simp only [afterSize, hkind]
  | scale column size number =>
    exact (SignedNumber.completes _ _ number).part _ (fun _ _ => rfl) fun scale t _ ht =>
      ⟨_, takeKind_eq_taken.2 ⟨ht.1, rfl⟩, hconstraints _⟩
  | constraints column => exact hconstraints column
  | constraintName column => exact .takeName (fun _ => rfl) fun name => hnamed _
  | named column => exact hnamed column
  | constraint column inner => exact hconstraint column inner h

theorem stuck {s : State} {u : Token} (h : s.suspect? = some u) : Stuck (step limits) s := by
  cases s with
  | constraint column inner => exact (ColumnConstraint.stuck h).part _ fun _ _ => rfl
  | _ => cases h

end Column

namespace TableConstraint

/-- The words for the columns of a key. -/
def keyWords : List Word := [.leftParen, .name, .rightParen]

/-- The words for what a foreign key refers to. -/
def targetWords : List Word := [.keyword .references, .name]

/-- The words that end a table constraint. -/
def State.completion : State → List Word
  | .name => .name :: .keyword .unique :: keyWords
  | .named _ => .keyword .unique :: keyWords
  | .primary _ => .keyword .key :: keyWords
  | .primaryColumns _ columns | .uniqueColumns _ columns => columns.completion
  | .primaryConflict _ _ clause | .uniqueConflict _ _ clause | .checkConflict _ _ clause =>
    clause.completion
  | .check _ inner => inner.completion
  | .foreign _ => .keyword .key :: .leftParen :: .name :: .rightParen :: targetWords
  | .foreignOpen _ => .leftParen :: .name :: .rightParen :: targetWords
  | .foreignColumns _ columns => columns.completion ++ targetWords
  | .references _ _ inner => inner.completion

/-- No `NOT` is handed back. -/
def Result.Whole (r : Result) : Prop := r.heldNot = none

variable {limits : Limits}

/-- Where a conflict clause may stand, a constraint may end. -/
theorem conflict_of_rightParen {within : ConflictClause.State → State}
    (f : ConflictResolution → Result) (hf : ∀ r, (f r).Whole) {e : Token}
    (he : e.kind = .rightParen) : ∃ r : Result, r.Whole ∧
      (ConflictClause.step .start e).andThen within (fun r => .complete (f r)) =
        (.complete r : Verdict State Result) := by
  refine ⟨f .unspecified, hf _, ?_⟩
  simp [ConflictClause.step, Token.isKeyword, he]

theorem completes {s : State} (h : s.suspect? = none) :
    Completes (step limits) .rightParen Result.Whole s s.completion := by
  have hprimary : ∀ name columns, Completes (step limits) .rightParen Result.Whole
      (.primaryColumns name columns) columns.completion :=
    fun name columns => (IndexedColumns.completes _ columns).last_part _ (fun _ _ => rfl)
      fun list e _ he => conflict_of_rightParen
        (fun r => { constraint := { name, rule := .primaryKey list r } }) (fun _ => rfl) he
  have hunique : ∀ name columns, Completes (step limits) .rightParen Result.Whole
      (.uniqueColumns name columns) columns.completion :=
    fun name columns => (IndexedColumns.completes _ columns).last_part _ (fun _ _ => rfl)
      fun list e _ he => conflict_of_rightParen
        (fun r => { constraint := { name, rule := .unique list r } }) (fun _ => rfl) he
  have hnamed : ∀ name, Completes (step limits) .rightParen Result.Whole (.named name)
      (.keyword .unique :: keyWords) := by
    intro name
    refine .take (fun t ht => ?_) (hunique (some name) .opening)
    have hkind : t.kind = .keyword .unique := ht
    simp [step, afterName, hkind, rule?]
  have hreferences : ∀ name columns inner, Completes (step limits) .rightParen Result.Whole
      (.references name columns inner) inner.completion :=
    fun name columns inner => (References.completes inner).last (fun _ _ => rfl) fun _ hr => hr
  have hforeign : ∀ name columns, Completes (step limits) .rightParen Result.Whole
      (.foreignColumns name columns) (columns.completion ++ targetWords) :=
    fun name columns => (NameList.completes _ _ _ columns).part _ (fun _ _ => rfl)
      fun list t _ ht => ⟨_, takeKeyword_eq_taken.2 ⟨ht.1, rfl⟩, hreferences name list .table⟩
  have hopen : ∀ name, Completes (step limits) .rightParen Result.Whole (.foreignOpen name)
      (.leftParen :: .name :: .rightParen :: targetWords) :=
    fun name => .take (fun t ht => takeKind_eq_taken.2 ⟨ht, rfl⟩) (hforeign name (.name []))
  cases s with
  | name => exact .takeName (fun _ => rfl) hnamed
  | named name => exact hnamed name
  | primary name =>
    exact .take (fun t ht => takeKeyword_eq_taken.2 ⟨ht, rfl⟩) (hprimary name .opening)
  | primaryColumns name columns => exact hprimary name columns
  | primaryConflict name columns clause =>
    exact (ConflictClause.completes clause).last (fun _ _ => rfl) fun _ _ => rfl
  | uniqueColumns name columns => exact hunique name columns
  | uniqueConflict name columns clause =>
    exact (ConflictClause.completes clause).last (fun _ _ => rfl) fun _ _ => rfl
  | check name inner =>
    exact (Expression.completes h).last_part _ (fun _ _ => rfl)
      fun text e _ he => conflict_of_rightParen
        (fun _ => { constraint := { name, rule := .check text } }) (fun _ => rfl) he
  | checkConflict name text clause =>
    exact (ConflictClause.completes clause).last (fun _ _ => rfl) fun _ _ => rfl
  | foreign name =>
    exact .take (fun t ht => takeKeyword_eq_taken.2 ⟨ht, rfl⟩) (hopen name)
  | foreignOpen name => exact hopen name
  | foreignColumns name columns => exact hforeign name columns
  | references name columns inner => exact hreferences name columns inner

/-- A constraint with a token under suspicion is stuck, unless the token is a `NOT`. -/
theorem stuck_or_held (limits : Limits) {s : State} {u : Token} (h : s.suspect? = some u) :
    Stuck (step limits) s ∨ ∃ name columns key, s = .references name columns (.not key u) := by
  cases s with
  | check name inner => exact .inl ((Expression.stuck h).part _ fun _ _ => rfl)
  | references name columns inner =>
    cases inner with
    | not key word =>
      obtain rfl := Option.some.inj h
      exact .inr ⟨name, columns, key, rfl⟩
    | _ => cases h
  | _ => cases h

end TableConstraint

-- ════════════════════════════════════════════════════════════════════════
-- Statements
-- ════════════════════════════════════════════════════════════════════════

namespace Body

/-- The words that end a body. -/
def State.completion : State → List Word
  | .start => [.name, .rightParen]
  | .item _ => [.rightParen]
  | .column _ inner => inner.completion ++ [.rightParen]
  | .constraint _ inner => inner.completion ++ [.rightParen]
  | .closed _ => []

variable {limits : Limits} {next : TokenKind}

theorem finish_of_rightParen {p : Progress} {t : Token} (ht : t.kind = .rightParen)
    (hp : p.columns ≠ []) : finish p t = .taken (.closed p.items) := by
  simp [finish, requireColumn, takeKind, ht, hp]

/-- A body can be completed, if there is a column where it may end. -/
theorem completes {s : State} (h : s.suspect? = none) (hlimit : limits.maxColumns ≠ 0)
    (hcolumns : ∀ p, s.progress? = some p → p.columns ≠ []) :
    Completes (step limits) next anyResult s s.completion := by
  have hclosed : ∀ items, Completes (step limits) next anyResult (.closed items) [] :=
    fun items => .nil fun e _ => ⟨items, trivial, rfl⟩
  have hcolumn : ∀ (p : Progress) (inner : Column.State), inner.suspect? = none →
      Completes (step limits) next anyResult (.column p inner)
        (inner.completion ++ [.rightParen]) := by
    intro p inner hinner
    refine (Column.completes hinner).part _ (fun _ _ => rfl) fun column t _ ht => ?_
    have hkind : t.kind = .rightParen := ht.1
    refine ⟨.closed (p.addColumn column).items, ?_, hclosed _⟩
    simp only [afterColumn, hkind]
    exact finish_of_rightParen hkind (List.cons_ne_nil _ _)
  cases s with
  | start =>
    refine .cons fun t ht => ⟨.column (.start limits t) (.ofName t.source), ?_, hcolumn _ _ rfl⟩
    exact item_of_name? ht.name? rfl (Nat.pos_of_ne_zero hlimit)
  | item p =>
    have hp : p.columns ≠ [] := hcolumns p rfl
    refine .take (fun t ht => ?_) (hclosed p.items)
    have hkind : t.kind = .rightParen := ht
    show item limits p t = _
    unfold item
    rw [if_pos ⟨hkind, by simp [hp]⟩]
    exact finish_of_rightParen hkind hp
  | column p inner => exact hcolumn p inner h
  | constraint p inner =>
    refine (TableConstraint.completes h).part _ (fun _ _ => rfl) fun r t hr ht => ?_
    have hheld : r.heldNot = none := hr
    have hkind : t.kind = .rightParen := ht.1
    refine ⟨.closed (p.addConstraint r.constraint).items, ?_, hclosed _⟩
    simp only [hheld, afterConstraint, TableConstraint.start?, hkind, afterColumn]
    exact finish_of_rightParen hkind (hcolumns p rfl)
  | closed items => exact hclosed items

theorem stuck_or_held (limits : Limits) {s : State} {u : Token} (h : s.suspect? = some u) :
    Stuck (step limits) s ∨
      ∃ p name columns key, s = .constraint p (.references name columns (.not key u)) := by
  cases s with
  | column p inner => exact .inl ((Column.stuck h).part _ fun _ _ => rfl)
  | constraint p inner =>
    obtain hstuck | ⟨name, columns, key, rfl⟩ := TableConstraint.stuck_or_held limits h
    · exact .inl (hstuck.part _ fun _ _ => rfl)
    · exact .inr ⟨p, name, columns, key, rfl⟩
  | _ => cases h

end Body

namespace Statement

/-- The words for a body. -/
def bodyWords : List Word := [.leftParen, .name, .rightParen]

/-- The words that end a statement. -/
def State.completion : State → List Word
  | .start => .keyword .create :: .keyword .table :: .name :: bodyWords
  | .created | .temporary => .keyword .table :: .name :: bodyWords
  | .ifWord _ => .keyword .not :: .keyword .exists :: .name :: bodyWords
  | .ifNot _ => .keyword .exists :: .name :: bodyWords
  | .table _ | .name _ | .qualified _ => .name :: bodyWords
  | .named _ _ | .bodyOpen _ => bodyWords
  | .body _ inner => inner.completion
  | .without _ => [.rowid]
  | .option _ => [.keyword .without, .rowid]
  | .optionEnd _ | .terminated _ => []

variable {limits : Limits}

theorem completes_end {s : State} (table : Table)
    (h : ∀ t, t.kind = .endOfInput → step limits s t = .complete table) :
    Completes (step limits) .endOfInput anyResult s [] :=
  .nil fun e he => ⟨table, trivial, h e he⟩

theorem completes_optionEnd (table : Table) :
    Completes (step limits) .endOfInput anyResult (.optionEnd table) [] :=
  completes_end table fun t ht => by simp [step, finish, ht]

theorem completes_without (table : Table) :
    Completes (step limits) .endOfInput anyResult (.without table) [.rowid] := by
  refine .cons fun t ht =>
    ⟨.optionEnd { table with withoutRowid := true }, ?_, completes_optionEnd _⟩
  simp only [step, ht.isWord, if_true]

theorem completes_body (hlimit : limits.maxColumns ≠ 0) (table : Table) {inner : Body.State}
    (h : inner.suspect? = none) (hcolumns : ∀ p, inner.progress? = some p → p.columns ≠ []) :
    Completes (step limits) .endOfInput anyResult (.body table inner) inner.completion := by
  refine (Body.completes h hlimit hcolumns).last_part _ (fun _ _ => rfl) fun items e _ he => ?_
  exact ⟨_, trivial, by simp [beginOption, finish, Token.isKeyword, Token.isBareWord, he]; rfl⟩

/-- Where a body is due, one with a single column will do. -/
theorem completes_bodyWords (hlimit : limits.maxColumns ≠ 0) {s : State} (table : Table)
    (h : ∀ t, t.kind = .leftParen → step limits s t = .taken (.body table .start)) :
    Completes (step limits) .endOfInput anyResult s bodyWords := by
  refine .take h (completes_body hlimit table rfl fun p hp => ?_)
  cases hp

theorem completes_bodyOpen (hlimit : limits.maxColumns ≠ 0) (table : Table) :
    Completes (step limits) .endOfInput anyResult (.bodyOpen table) bodyWords :=
  completes_bodyWords hlimit table fun t ht => by
    simp [step, afterName, Token.isKeyword, takeKind, ht]

theorem completes_named (hlimit : limits.maxColumns ≠ 0) (table : Table) (name : String) :
    Completes (step limits) .endOfInput anyResult (.named table name) bodyWords :=
  completes_bodyWords hlimit { table with name } fun t ht => by
    simp [step, afterName, Token.isKeyword, takeKind, ht]

theorem completes_table (hlimit : limits.maxColumns ≠ 0) (table : Table) :
    Completes (step limits) .endOfInput anyResult (.table table) (.name :: bodyWords) := by
  refine .cons fun t ht => ⟨.named table t.source, ?_, completes_named hlimit table _⟩
  have hkind : t.kind = .identifier := ht.1
  simp only [step, Token.isKeyword, hkind]
  exact takeName_eq_taken.2 ⟨_, ht.name?, rfl⟩

theorem completes_tableWord (hlimit : limits.maxColumns ≠ 0) {s : State} (table : Table)
    (h : ∀ t, t.kind = .keyword .table → step limits s t = .taken (.table table)) :
    Completes (step limits) .endOfInput anyResult s (.keyword .table :: .name :: bodyWords) :=
  .take h (completes_table hlimit table)

theorem completes_created (hlimit : limits.maxColumns ≠ 0) :
    Completes (step limits) .endOfInput anyResult .created
      (.keyword .table :: .name :: bodyWords) :=
  completes_tableWord hlimit {} fun t ht => by simp [step, tableWord, ht]

theorem completes_name (hlimit : limits.maxColumns ≠ 0) (table : Table) :
    Completes (step limits) .endOfInput anyResult (.name table) (.name :: bodyWords) :=
  .takeName (fun _ => rfl) (completes_named hlimit table)

theorem completes_ifNot (hlimit : limits.maxColumns ≠ 0) (table : Table) :
    Completes (step limits) .endOfInput anyResult (.ifNot table)
      (.keyword .exists :: .name :: bodyWords) :=
  .take (fun _ ht => takeKeyword_eq_taken.2 ⟨ht, rfl⟩) (completes_name hlimit _)

/-- A statement can be completed, if no token is under suspicion and no column is missing. -/
theorem completes {s : State} (h : s.suspect? = none) (hlimit : limits.maxColumns ≠ 0)
    (hcolumn : s.HasColumn) :
    Completes (step limits) .endOfInput anyResult s s.completion := by
  cases s with
  | start =>
    exact .take (fun t ht => takeKeyword_eq_taken.2 ⟨ht, rfl⟩) (completes_created hlimit)
  | created => exact completes_created hlimit
  | temporary =>
    exact completes_tableWord hlimit { temporary := true } fun t ht => by simp [step, tableWord, ht]
  | table table => exact completes_table hlimit table
  | ifWord table =>
    exact .take (fun t ht => takeKeyword_eq_taken.2 ⟨ht, rfl⟩) (completes_ifNot hlimit table)
  | ifNot table => exact completes_ifNot hlimit table
  | name table => exact completes_name hlimit table
  | named table name => exact completes_named hlimit table name
  | qualified table => exact .takeName (fun _ => rfl) fun name => completes_bodyOpen hlimit _
  | bodyOpen table => exact completes_bodyOpen hlimit table
  | body table inner => exact completes_body hlimit table h hcolumn
  | without table => exact completes_without table
  | optionEnd table => exact completes_optionEnd table
  | option table =>
    refine .cons fun t ht => ⟨.without table, ?_, completes_without table⟩
    simp [step, beginOption, Word.Fits.isKeyword ht]
  | terminated table => exact completes_end table fun t ht => by simp [step, ht]

/-- A statement with a token under suspicion is stuck, unless the token is a `NOT` behind a foreign
    key of the table. -/
theorem stuck_or_held (limits : Limits) {s : State} {u : Token} (h : s.suspect? = some u) :
    Stuck (step limits) s ∨ ∃ table p name columns key,
      s = .body table (.constraint p (.references name columns (.not key u))) := by
  cases s with
  | body table inner =>
    obtain hstuck | ⟨p, name, columns, key, rfl⟩ := Body.stuck_or_held limits h
    · exact .inl (hstuck.part _ fun _ _ => rfl)
    · exact .inr ⟨table, p, name, columns, key, rfl⟩
  | _ => cases h

/-- A token comes under suspicion where none is. -/
theorem unsuspected_of_taken {s s' : State} {t u : Token} (h : step limits s t = .taken s')
    (hu : s'.suspect? = some u) : s.suspect? = none := by
  cases hs : s.suspect? with
  | none => rfl
  | some word =>
    obtain hstuck | ⟨table, p, name, columns, key, rfl⟩ := stuck_or_held limits hs
    · obtain ⟨e, he⟩ := hstuck t
      cases h.symm.trans he
    · -- behind a `NOT` that is held nothing is taken but `DEFERRABLE`
      by_cases ht : t.kind = .keyword .deferrable
      · simp only [step, Body.step, TableConstraint.step, References.step, ht, andThen_taken] at h
        obtain rfl := Verdict.taken.inj h
        cases hu
      · have hreferences : References.step (.not key word) t =
            .complete { key, heldNot := some word } := by
          unfold References.step
          dsimp only
          split
          · exact absurd ‹_› ht
          · rfl
        simp only [step, Body.step, TableConstraint.step, hreferences, andThen_complete,
          Body.requireColumn] at h
        split at h <;> cases h

end Statement

end Grammar

end CreateTable
