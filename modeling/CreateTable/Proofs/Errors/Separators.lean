import CreateTable.Proofs.Errors.Blame

/-!
# Tokens that separate

A comma, and the words `CONSTRAINT`, `GENERATED` and `AS`, go on with no clause that may end before
them. A clause that is complete before one of them is complete before each of them, and a column
stands between constraints there.

## Main definitions

- `Token.Separates` — a token that no clause goes on with
- `Impartial` — a reader that is complete before all such tokens or before none
- `Column.Between` — a state that stands between constraints before such tokens

## Main statements

- `ColumnConstraint.impartial` — the reader of column constraints
- `Column.between_or_elsewhere` — what becomes of such a token tells where a column stands
- `Column.between_of_complete`, `Column.between_of_taken` — a comma that ends a column and a
  `CONSTRAINT` that names its next constraint stand between constraints
-/

namespace CreateTable

/-- A token that no clause goes on with. -/
def Token.Separates (t : Token) : Prop :=
  t.kind = .comma ∨ t.kind = .keyword .constraint ∨ t.kind = .keyword .generated ∨
    t.kind = .keyword .as

namespace Grammar

variable {σ τ α β : Type} {t u : Token}

/-- A reader that is complete before one token that separates is so before every other one. -/
def Impartial (step : σ → Token → Verdict σ α) : Prop :=
  ∀ s t u a, t.Separates → u.Separates → step s t = .complete a → step s u = .complete a

theorem Impartial.andThen {inner : τ → Token → Verdict τ β} (hinner : Impartial inner)
    (after : β → Token → Verdict σ α) {within : τ → σ} {p : τ} {a : α}
    (hafter : ∀ b, after b t = .complete a → after b u = .complete a)
    (ht : t.Separates) (hu : u.Separates)
    (h : (inner p t).andThen within (after · t) = .complete a) :
    (inner p u).andThen within (after · u) = .complete a := by
  obtain ⟨b, hb, h⟩ := Verdict.andThen_eq_complete.1 h
  rw [hinner p t u b ht hu hb, Verdict.andThen_complete]
  exact hafter b h

/-- A part at the end of a reader. -/
theorem Impartial.last {inner : τ → Token → Verdict τ β} (hinner : Impartial inner)
    {within : τ → σ} {f : β → α} {p : τ} {a : α} (ht : t.Separates) (hu : u.Separates)
    (h : (inner p t).andThen within (fun b => .complete (f b)) = .complete a) :
    (inner p u).andThen within (fun b => .complete (f b)) = .complete a :=
  hinner.andThen (fun b _ => .complete (f b)) (fun _ h => h) ht hu h

-- ════════════════════════════════════════════════════════════════════════
-- Clauses
-- ════════════════════════════════════════════════════════════════════════

theorem SignedNumber.impartial (what : Expectation) : Impartial (step what) := by
  intro s t u a _ _ h
  cases s with
  | start =>
    unfold step at h
    dsimp only at h
    split at h
    · cases h
    · split at h <;> cases h
  | signed sign => exact absurd h (takeKind_ne_complete _ _ _ _ _)
  | closed tokens => exact h

theorem ConflictClause.impartial : Impartial step := by
  intro s t u a _ hu h
  cases s with
  | start =>
    have hon : u.isKeyword .on = false := by
      obtain hu | hu | hu | hu := hu <;> simp [Token.isKeyword, hu]
    simp only [step] at h ⊢
    split at h
    · cases h
    · rw [hon]
      exact h
  | conflict => exact absurd h (takeKeyword_ne_complete _ _ _ _ _)
  | resolution =>
    simp only [step] at h
    split at h <;> cases h
  | closed r => exact h

theorem Expression.impartial (limits : Limits) : Impartial (step limits) := by
  intro s t u a _ _ h
  cases s with
  | opening => exact absurd h (takeKind_ne_complete _ _ _ _ _)
  | inside nested read =>
    unfold step at h
    dsimp only at h
    split at h
    · cases h
    · split at h <;> cases h
    · cases h
    · cases h
    · cases h
  | closed text => exact h
  | empty close => exact absurd h (Token.refuse_ne_complete _ _ _)

theorem NameList.impartial (role : NameRole) (closing : Expectation) :
    Impartial (step role closing) := by
  intro s t u a _ _ h
  cases s with
  | name names => exact absurd h (takeName_ne_complete _ _ _ _)
  | next names =>
    simp only [step] at h
    split at h <;> cases h
  | closed names => exact h

namespace References

theorem betweenClauses_of_separates (key : ForeignKey) (h : t.Separates) :
    betweenClauses key t = .complete { key } := by
  obtain h | h | h | h := h <;> simp only [betweenClauses, h]

theorem impartial : Impartial step := by
  intro s t u a ht hu h
  have hbetween : ∀ key, betweenClauses key t = .complete a →
      betweenClauses key u = .complete a := by
    intro key h
    rw [betweenClauses_of_separates key ht] at h
    rw [betweenClauses_of_separates key hu, h]
  cases s with
  | named key =>
    have hopening : ∀ {v : Token}, v.Separates → step (.named key) v = betweenClauses key v := by
      rintro v (hv | hv | hv | hv) <;> simp only [step, hv]
    rw [hopening ht] at h
    rw [hopening hu]
    exact hbetween key h
  | columns key names =>
    exact (NameList.impartial _ _).andThen
      (fun columns t => betweenClauses { key with columns } t) (fun _ => hbetween _) ht hu h
  | clauses key => exact hbetween key h
  | not key word =>
    have hheld : ∀ {v : Token}, v.Separates →
        step (.not key word) v = .complete { key, heldNot := some word } := by
      rintro v (hv | hv | hv | hv) <;> simp only [step, hv]
    rw [hheld ht] at h
    rw [hheld hu, h]
  | deferrable key negated =>
    have hstated : ∀ {v : Token}, v.Separates →
        step (.deferrable key negated) v =
          .complete { key := { key with deferral := .stated negated .unspecified } } := by
      rintro v (hv | hv | hv | hv) <;> simp only [step, hv]
    rw [hstated ht] at h
    rw [hstated hu, h]
  | table => exact absurd h (takeName_ne_complete _ _ _ _)
  | no key event => exact absurd h (takeKeyword_ne_complete _ _ _ _ _)
  | matchType key => exact absurd h (takeName_ne_complete _ _ _ _)
  | closed key => exact h
  | _ =>
    -- in the other states no token is left for others
    simp only [step] at h
    split at h <;> cases h

end References

-- ════════════════════════════════════════════════════════════════════════
-- Column constraints
-- ════════════════════════════════════════════════════════════════════════

namespace ColumnConstraint

variable {limits : Limits}

theorem keyConflict_impartial {order : SortOrder} {clause : ConflictClause.State} {r : Result}
    (ht : t.Separates) (hu : u.Separates) (h : keyConflict order clause t = .complete r) :
    keyConflict order clause u = .complete r := by
  have hauto : u.isKeyword .autoincrement = false := by
    obtain hu | hu | hu | hu := hu <;> simp [Token.isKeyword, hu]
  obtain ⟨conflict, hconflict, h⟩ := Verdict.andThen_eq_complete.1 h
  unfold keyConflict
  rw [ConflictClause.impartial clause t u conflict ht hu hconflict, Verdict.andThen_complete, hauto]
  split at h
  · cases h
  · exact h

theorem impartial (limits : Limits) : Impartial (step limits) := by
  intro s t u r ht hu h
  cases s with
  | order =>
    have hnone : ∀ {v : Token}, v.Separates →
        step limits .order v = keyConflict .unspecified .start v := by
      rintro v (hv | hv | hv | hv) <;>
        simp only [step, Token.sortOrder?, hv, SortOrder.ofKeyword?]
    rw [hnone ht] at h
    rw [hnone hu]
    exact keyConflict_impartial ht hu h
  | keyConflict order clause => exact keyConflict_impartial ht hu h
  | notNull clause => exact ConflictClause.impartial.last ht hu h
  | nullable clause => exact ConflictClause.impartial.last ht hu h
  | unique clause => exact ConflictClause.impartial.last ht hu h
  | check expression => exact (Expression.impartial limits).last ht hu h
  | number number => exact (SignedNumber.impartial _).last ht hu h
  | expression expression => exact (Expression.impartial limits).last ht hu h
  | references key => exact References.impartial.last ht hu h
  | default => exact absurd h default_ne_complete
  | key => exact absurd h (takeKeyword_ne_complete _ _ _ _ _)
  | null => exact absurd h (takeKeyword_ne_complete _ _ _ _ _)
  | collation => exact absurd h (takeName_ne_complete _ _ _ _)
  | closed constraint => exact h

end ColumnConstraint

-- ════════════════════════════════════════════════════════════════════════
-- Columns
-- ════════════════════════════════════════════════════════════════════════

namespace Column

variable {limits : Limits} {s : State} {c d : CreateTable.Column}

/-- Before a token that separates, the column stands between constraints. -/
def Between (limits : Limits) (s : State) (c : CreateTable.Column) : Prop :=
  ∀ u : Token, u.Separates → step limits s u = betweenConstraints c u

theorem betweenConstraints_of_comma (h : t.kind = .comma) :
    betweenConstraints c t = .complete c := by
  simp [betweenConstraints, beginConstraint, h]

theorem betweenConstraints_of_constraint (h : t.kind = .keyword .constraint) :
    betweenConstraints c t = .taken (.constraintName c) := by
  simp [betweenConstraints, h]

theorem beginConstraint_of_computed {otherwise : Verdict State CreateTable.Column}
    (h : t.kind = .keyword .generated ∨ t.kind = .keyword .as) :
    beginConstraint c t otherwise = .refused (t.error .generatedColumn) := by
  obtain h | h := h <;> simp only [beginConstraint, h]

theorem betweenConstraints_of_computed
    (h : t.kind = .keyword .generated ∨ t.kind = .keyword .as) :
    betweenConstraints c t = .refused (t.error .generatedColumn) := by
  have hne : ¬t.isKeyword .constraint := by
    obtain h | h := h <;> simp [Token.isKeyword, h]
  rw [betweenConstraints, if_neg hne]
  exact beginConstraint_of_computed h

theorem betweenConstraints_eq_taken_name (h : betweenConstraints c t = .taken (.constraintName d)) :
    t.kind = .keyword .constraint ∧ c = d := by
  unfold betweenConstraints at h
  split at h
  · rename_i hword
    injection h with h
    injection h with h
    exact ⟨Token.isKeyword_iff.1 hword, h⟩
  · obtain h | ⟨word, inner, -, -, h⟩ := beginConstraint_eq_taken h
    · cases h
    · cases h

/-- Behind a type, a column stands between constraints. -/
theorem exists_between_type (limits : Limits) (column : CreateTable.Column) (words : List Token) :
    ∃ c, Between limits (.type column words) c := by
  have hstep : ∀ u : Token, u.Separates →
      step limits (.type column words) u = afterType column words u := by
    rintro u (hu | hu | hu | hu) <;>
      simp [step, Token.isTypeWord, Token.name?, Token.isKeyword, hu, Keyword.isReserved]
  cases words with
  | nil => exact ⟨column, fun u hu => hstep u hu⟩
  | cons word words =>
    refine ⟨{ column with type := some (Token.verbatim (word :: words).reverse) }, fun u hu => ?_⟩
    rw [hstep u hu]
    obtain hu | hu | hu | hu := hu <;> simp only [afterType, hu] <;> rfl

/-- Behind a constraint that is complete and hands nothing back, a column stands between
    constraints. -/
theorem between_constraint {column : CreateTable.Column} {constraint : ColumnConstraint.State}
    {r : ColumnConstraint.Result} (ht : t.Separates)
    (h : ColumnConstraint.step limits constraint t = .complete r) (hheld : r.heldNot = none) :
    Between limits (.constraint column constraint) (column.constrain r.constraint) := by
  intro u hu
  simp only [step, ColumnConstraint.impartial limits constraint t u r ht hu h,
    Verdict.andThen_complete, afterConstraint, hheld]

/-- A verdict that shows a column to stand in no place between constraints. -/
inductive Elsewhere : Verdict State CreateTable.Column → Prop
  | taken {s : State} : (∀ c, s ≠ .constraintName c) → Elsewhere (.taken s)
  | refused {e : ParseError} : e.cause.kind ≠ .unsupported → Elsewhere (.refused e)

theorem elsewhere_refuse (t : Token) (what : Expectation) : Elsewhere (t.refuse what) := by
  refine .refused ?_
  rw [Token.kind_unexpected]
  exact nofun

theorem elsewhere_takeKind {kind : TokenKind} {what : Expectation}
    (hs : ∀ c, s ≠ .constraintName c) : Elsewhere (takeKind t kind what s) := by
  unfold takeKind
  split
  · exact .taken hs
  · exact elsewhere_refuse t what

/-- What a clause refuses does not compute a column. -/
theorem elsewhere_of_blames {suspect? : τ → Option Token} {finished : β → Prop} {v : Verdict τ β}
    {e : ParseError} (h : v.Blames suspect? t finished u.Blamed) (hv : v = .refused e) :
    Elsewhere (.refused e) := by
  obtain ⟨w, cause, ⟨-, hcause⟩, rfl⟩ := h.blamed_of_refused hv
  exact .refused hcause.kind_ne_unsupported

/-- A token that separates is met between constraints, behind the name of one, or elsewhere. -/
theorem between_or_elsewhere (limits : Limits) (s : State) (ht : t.Separates) :
    (∃ c, Between limits s c) ∨ (∃ column, s = .named column) ∨ Elsewhere (step limits s t) := by
  cases s with
  | type column words => exact .inl (exists_between_type limits column words)
  | constraints column => exact .inl ⟨column, fun _ _ => rfl⟩
  | named column => exact .inr (.inl ⟨column, rfl⟩)
  | size column number =>
    refine .inr (.inr ?_)
    rw [step]
    cases hv : SignedNumber.step .typeSize number t with
    | taken =>
      rw [Verdict.andThen_taken]
      exact .taken (by simp)
    | refused e =>
      rw [Verdict.andThen_refused]
      exact elsewhere_of_blames (SignedNumber.step_blames _ number t) hv
    | complete size =>
      rw [Verdict.andThen_complete]
      unfold afterSize
      split
      · exact .taken (by simp)
      · exact .taken (by simp)
      · exact elsewhere_refuse t _
  | scale column size number =>
    refine .inr (.inr ?_)
    rw [step]
    cases hv : SignedNumber.step .typeScale number t with
    | taken =>
      rw [Verdict.andThen_taken]
      exact .taken (by simp)
    | refused e =>
      rw [Verdict.andThen_refused]
      exact elsewhere_of_blames (SignedNumber.step_blames _ number t) hv
    | complete scale =>
      rw [Verdict.andThen_complete]
      exact elsewhere_takeKind (by simp)
  | constraintName column =>
    refine .inr (.inr ?_)
    rw [step, takeName]
    split
    · exact .taken (by simp)
    · exact elsewhere_refuse t _
  | constraint column constraint =>
    cases hv : ColumnConstraint.step limits constraint t with
    | taken =>
      refine .inr (.inr ?_)
      rw [step, hv, Verdict.andThen_taken]
      exact .taken (by simp)
    | refused e =>
      refine .inr (.inr ?_)
      rw [step, hv, Verdict.andThen_refused]
      exact elsewhere_of_blames (ColumnConstraint.step_blames limits constraint t) hv
    | complete r =>
      cases hheld : r.heldNot with
      | none => exact .inl ⟨_, between_constraint ht hv hheld⟩
      | some word =>
        refine .inr (.inr ?_)
        rw [step, hv, Verdict.andThen_complete]
        simp only [afterConstraint, hheld]
        exact elsewhere_takeKind (by simp)

/-- A column that is complete before a comma stands between constraints. -/
theorem between_of_complete (ht : t.kind = .comma) (h : step limits s t = .complete c) :
    Between limits s c := by
  obtain ⟨d, hs⟩ | ⟨column, rfl⟩ | helse := between_or_elsewhere limits s (.inl ht)
  · have hcomplete := (hs t (.inl ht)).symm.trans h
    rw [betweenConstraints_of_comma ht] at hcomplete
    obtain rfl := Verdict.complete.inj hcomplete
    exact hs
  · exact absurd (beginConstraint_eq_complete h) (Token.refuse_ne_complete _ _ _)
  · rw [h] at helse
    cases helse

/-- Where `CONSTRAINT` is taken, a column stands between constraints. -/
theorem between_of_taken (ht : t.kind = .keyword .constraint)
    (h : step limits s t = .taken (.constraintName c)) : Between limits s c := by
  obtain ⟨d, hs⟩ | ⟨column, rfl⟩ | helse := between_or_elsewhere limits s (.inr (.inl ht))
  · have htaken := (hs t (.inr (.inl ht))).symm.trans h
    obtain ⟨-, rfl⟩ := betweenConstraints_eq_taken_name htaken
    exact hs
  · obtain h | ⟨word, inner, -, -, h⟩ := beginConstraint_eq_taken h
    · exact absurd h (Token.refuse_ne_taken _ _ _)
    · cases h
  · rw [h] at helse
    obtain hne | _ := helse
    exact absurd rfl (hne c)

end Column

end Grammar

end CreateTable
