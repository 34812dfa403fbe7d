import CreateTable.Grammar.Expression
import CreateTable.Parser.Clauses
import CreateTable.Proofs.Descent.Settling

/-!
# Clauses

The procedures for names, directions, conflict clauses, numbers and expressions do what their
readers do.

## Main statements

- `Follows.name_bind`, `reads_names` — names
- `follows_order` — directions
- `reads_conflictClause` — conflict clauses
- `reads_signedNumber` — numbers
- `reads_expression` — expressions
-/

namespace CreateTable.Parser

open Grammar

variable {τ α β γ : Type} {step : τ → Token → Verdict τ γ} {v : Verdict τ γ} {t : Token} {s : τ}
  {next : β → Token → Verdict τ γ}

-- ════════════════════════════════════════════════════════════════════════
-- Names
-- ════════════════════════════════════════════════════════════════════════

/-- What is done behind a name. -/
theorem Follows.name_bind {role : NameRole} {f : String → Parser β} {within : String → τ}
    (hf : ∀ name, Follows step (step (within name)) (f name) next) :
    Follows step (takeName · role within) (name role >>= f) next := by
  intro t
  rw [name, bind_assoc]
  refine .current ?_
  unfold takeName
  split
  · rename_i name hname
    simp only [hname]
    rw [bind_assoc]
    exact .advance_bind rfl (hf name)
  · rename_i hname
    simp only [hname]
    rw [refuse_bind]
    exact .refuse rfl

/-- One more name. Behind the last one, the list is closed. -/
theorem follows_nameTurn (role : NameRole) (closing : Expectation) (names : List String) :
    Follows (NameList.step role closing) (NameList.step role closing (.name names))
      (nameTurn role names) (Sum.elim (fun names => NameList.step role closing (.name names))
        fun names t => takeKind t .rightParen closing (.closed names)) := by
  refine .name_bind fun name t => .eat_bind (fun hcomma => ?_) fun hcomma => ?_
  · refine ⟨.name (name :: names), ?_, fun t => .pure rfl⟩
    simp [NameList.step, hcomma]
  · refine .pure ?_
    simp only [NameList.step, takeKind]
    split <;> simp_all

theorem reads_names (role : NameRole) (closing : Expectation) :
    Reads (NameList.step role closing) (.name []) do
      let names ← nameList role
      let _ ← expect .rightParen closing
      return names :=
  (Follows.loop (follows_nameTurn role closing) []).bind fun _ => .expect_bind fun _ _ => .pure rfl

/-- What is done behind a list of names. -/
theorem Follows.names_bind {role : NameRole} {closing : Expectation} {f : List String → Parser β}
    {within : NameList.State → τ} {rest : List String → Token → Verdict τ γ}
    (hstep : ∀ s t, step (within s) t =
      (NameList.step role closing s t).andThen within fun names => rest names t)
    (hf : ∀ names, Follows step (rest names) (f names) next) :
    Follows step (step (within (.name [])))
      (nameList role >>= fun names => expect .rightParen closing >>= fun _ => f names) next := by
  have hbind := ((reads_names role closing).part hstep).bind hf
  simpa only [bind_assoc, pure_bind] using hbind

-- ════════════════════════════════════════════════════════════════════════
-- Directions and conflicts
-- ════════════════════════════════════════════════════════════════════════

/-- A direction, where a reader is in the same state behind none as behind any other. -/
theorem follows_order {within : SortOrder → τ} {after : SortOrder → Token → Verdict τ γ}
    (h : ∀ order, step (within order) = after order) :
    Follows step (fun t =>
      match t.sortOrder? with
      | some order => .taken (within order)
      | none => after .unspecified t) order after := by
  intro t
  refine .eat_bind (fun hasc => ?_) fun hasc => .eat_bind (fun hdesc => ?_) fun hdesc => ?_
  · refine ⟨within .ascending, ?_, fun t => .pure (congrFun (h _) t)⟩
    simp [Token.sortOrder?, hasc, SortOrder.ofKeyword?]
  · refine ⟨within .descending, ?_, fun t => .pure (congrFun (h _) t)⟩
    simp [Token.sortOrder?, hdesc, SortOrder.ofKeyword?]
  · have hnone : t.sortOrder? = none := by
      simp only [Token.sortOrder?]
      split
      · simp only [SortOrder.ofKeyword?]
        split <;> simp_all
      · rfl
    exact .pure (by simp only [hnone])

theorem reads_conflictClause : Reads ConflictClause.step .start conflictClause := by
  intro t
  refine .eat_bind (fun hon => ⟨.conflict, ?_, ?_⟩) fun hon => .pure ?_
  · simp [ConflictClause.step, Token.isKeyword, hon]
  · refine .expect_bind fun _ t => .current ?_
    split
    · rename_i resolution hresolution
      refine .advance_bind (s := .closed resolution) ?_ fun t => .pure rfl
      simp [ConflictClause.step, hresolution]
    · rename_i hresolution
      refine .refuse ?_
      simp [ConflictClause.step, hresolution]
  · simp [ConflictClause.step, Token.isKeyword, hon]

-- ════════════════════════════════════════════════════════════════════════
-- Numbers
-- ════════════════════════════════════════════════════════════════════════

theorem reads_signedNumber (what : Expectation) :
    Reads (SignedNumber.step what) .start (signedNumber what) := by
  have hsign : Follows (SignedNumber.step what) (SignedNumber.step what .start) sign fun sign t =>
      takeKind t .number what (.closed (sign ++ [t])) := by
    intro t
    refine .current ?_
    split
    · rename_i ht
      refine .advance_bind (s := .signed t) ?_ fun t => .pure rfl
      have hne : t.kind ≠ .number := by
        intro hnumber
        simp [Token.isSign, hnumber] at ht
      rw [SignedNumber.step, if_neg hne, if_pos ht]
    · rename_i ht
      refine .pure ?_
      simp [SignedNumber.step, takeKind, ht]
  exact hsign.bind fun sign => .expect_bind fun t u => .pure rfl

-- ════════════════════════════════════════════════════════════════════════
-- Expressions
-- ════════════════════════════════════════════════════════════════════════

/-- One more token of an expression. Behind the last one, its closing parenthesis is taken. -/
theorem follows_expressionTurn (limits : Limits) (b : Nat × List Token) :
    Follows (Expression.step limits) (Expression.step limits (.inside b.1 b.2))
      (expressionTurn limits b)
      (Sum.elim (fun b => Expression.step limits (.inside b.1 b.2))
        fun read t => .taken (Expression.close read t)) := by
  obtain ⟨nested, read⟩ := b
  intro t
  refine .current ?_
  split
  · rename_i hend
    exact .failHere (by simp [Expression.step, hend])
  · rename_i hopen
    split
    · refine .advance_bind (s := .inside _ (t :: read)) ?_ fun u => .pure rfl
      simp [Expression.step, *]
    · exact .failHere (by simp [Expression.step, *])
  · rename_i hclose
    exact .pure (by simp [Expression.step, hclose])
  · rename_i nested hclose
    refine .advance_bind (s := .inside _ (t :: read)) ?_ fun u => .pure rfl
    simp [Expression.step, hclose]
  · refine .advance_bind (s := .inside _ (t :: read)) ?_ fun u => .pure rfl
    simp [Expression.step]

theorem reads_expression (limits : Limits) :
    Reads (Expression.step limits) .opening (expression limits) := by
  refine .expect_bind fun _ => ?_
  refine (Follows.loop (follows_expressionTurn limits) (0, [])).bind fun read t => ?_
  refine .advance_bind rfl fun u => ?_
  unfold Expression.close
  split
  · exact .fail rfl
  · exact .pure rfl

end CreateTable.Parser
