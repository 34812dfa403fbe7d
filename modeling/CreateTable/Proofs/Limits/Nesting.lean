import CreateTable.Proofs.Stopping

/-!
# The nesting of expressions

How many parentheses of an expression are open behind some tokens of a statement, said without
reading the statement.

## Main definitions

- `Nesting` — where some tokens leave off, in an expression or in none
- `opened` — how many parentheses of an expression are open behind some tokens
- `Verdict.Follows` — a verdict that goes along with the nesting

## Main statements

- `Verdict.Follows.andThen` — a reader goes along with the nesting if its parts do
- `Takes.follows` — a run does if every step does
-/

namespace CreateTable

-- ════════════════════════════════════════════════════════════════════════
-- The nesting behind tokens
-- ════════════════════════════════════════════════════════════════════════

/-- Where some tokens leave off. -/
inductive Nesting where
  /-- In no expression. -/
  | outside
  /-- Behind `SET`. -/
  | set
  /-- Behind `CHECK`, or behind a `DEFAULT` that is no action: an expression may begin. -/
  | due
  /-- In an expression, with so many parentheses open besides the outer one. -/
  | inside (inner : Nat)
  deriving Repr, DecidableEq

namespace Nesting

/-- The nesting behind one more token. -/
def next (n : Nesting) (t : Token) : Nesting :=
  match n, t.kind with
  | .inside inner, .leftParen => .inside (inner + 1)
  | .inside 0, .rightParen => .outside
  | .inside (inner + 1), .rightParen => .inside inner
  | .inside inner, _ => .inside inner
  | .due, .leftParen => .inside 0
  | .set, .keyword .default => .outside
  | _, .keyword .default => .due
  | _, .keyword .check => .due
  | _, .keyword .set => .set
  | _, _ => .outside

/-- How many parentheses of an expression are open. -/
def opened : Nesting → Nat
  | .inside inner => inner + 1
  | _ => 0

/-- The nesting behind tokens. -/
def behind (ts : List Token) : Nesting := ts.foldl next .outside

end Nesting

/-- How many parentheses of an expression are open behind tokens. -/
def opened (ts : List Token) : Nat := (Nesting.behind ts).opened

namespace TokenKind

/-- Whether a token has to do with where an expression begins. -/
def isCue : TokenKind → Bool
  | .keyword .check | .keyword .default | .keyword .set => true
  | _ => false

end TokenKind

namespace Token

variable {t : Token} {name : String}

theorem isCue_of_name? (h : t.name? = some name) : t.kind.isCue = false := by
  obtain ⟨kind, lead, text, start⟩ := t
  cases kind with
  | keyword word => cases word <;> first | rfl | cases h
  | _ => rfl

theorem isCue_of_sortOrder? {order : SortOrder} (h : t.sortOrder? = some order) :
    t.kind.isCue = false := by
  obtain ⟨kind, lead, text, start⟩ := t
  cases kind with
  | keyword word => cases word <;> first | rfl | cases h
  | _ => rfl

theorem isCue_of_resolution? {r : ConflictResolution}
    (h : Grammar.ConflictClause.resolution? t = some r) : t.kind.isCue = false := by
  obtain ⟨kind, lead, text, start⟩ := t
  cases kind with
  | keyword word => cases word <;> first | rfl | cases h
  | _ => rfl

theorem isCue_of_isBareWord {word : String} (h : t.isBareWord word) : t.kind.isCue = false := by
  simp only [isBareWord, Bool.and_eq_true, beq_iff_eq] at h
  rw [h.1]
  rfl

theorem isCue_of_isWord {word : String} (h : t.isWord word) : t.kind.isCue = false := by
  unfold isWord at h
  split at h
  · rw [‹t.kind = _›]; rfl
  · rw [‹t.kind = _›]; rfl
  · exact isCue_of_isBareWord h

end Token

namespace Nesting

variable {t : Token}

/-- The nesting behind a token depends on its kind alone. -/
theorem next_of_kind {n m : Nesting} {kind : TokenKind} (h : t.kind = kind)
    (hm : n.next ⟨kind, [], [], 0⟩ = m) : n.next t = m := by
  obtain ⟨_, lead, text, start⟩ := t
  obtain rfl := h
  exact hm

theorem next_outside (h : t.kind.isCue = false) : outside.next t = .outside := by
  obtain ⟨kind, lead, text, start⟩ := t
  cases kind with
  | keyword word => cases word <;> first | rfl | cases h
  | _ => rfl

/-- One token behind the end of an expression opens no parenthesis of the next one. -/
theorem opened_next_outside (t : Token) : (outside.next t).opened = 0 := by
  obtain ⟨kind, lead, text, start⟩ := t
  cases kind with
  | keyword word => cases word <;> rfl
  | _ => rfl

/-- Tokens that have nothing to do with expressions leave off outside of them. -/
theorem foldl_next_outside {ts : List Token} (h : ∀ t ∈ ts, t.kind.isCue = false) :
    ts.foldl next .outside = .outside := by
  induction ts with
  | nil => rfl
  | cons t ts ih =>
    obtain ⟨ht, hts⟩ := List.forall_mem_cons.1 h
    rw [List.foldl_cons, next_outside ht, ih hts]

theorem next_due (h : t.kind.isCue = false) (hl : t.kind ≠ .leftParen) :
    due.next t = .outside := by
  obtain ⟨kind, lead, text, start⟩ := t
  cases kind with
  | keyword word => cases word <;> first | rfl | cases h
  | leftParen => exact absurd rfl hl
  | _ => rfl

theorem next_due_leftParen (h : t.kind = .leftParen) : due.next t = .inside 0 :=
  next_of_kind h rfl

theorem next_inside_leftParen (inner : Nat) (h : t.kind = .leftParen) :
    (inside inner).next t = .inside (inner + 1) :=
  next_of_kind h rfl

theorem next_inside_outer (h : t.kind = .rightParen) : (inside 0).next t = .outside :=
  next_of_kind h rfl

theorem next_inside_rightParen (inner : Nat) (h : t.kind = .rightParen) :
    (inside (inner + 1)).next t = .inside inner :=
  next_of_kind h rfl

theorem next_inside_other (inner : Nat) (hl : t.kind ≠ .leftParen) (hr : t.kind ≠ .rightParen) :
    (inside inner).next t = .inside inner := by
  obtain ⟨kind, lead, text, start⟩ := t
  cases kind with
  | leftParen => exact absurd rfl hl
  | rightParen => exact absurd rfl hr
  | _ => cases inner <;> rfl

end Nesting

-- ════════════════════════════════════════════════════════════════════════
-- Verdicts
-- ════════════════════════════════════════════════════════════════════════

/-- A verdict of a reader behind tokens of some nesting: what is taken leads on to the nesting behind
    it and opens no parenthesis beyond the limit, a reader is complete only outside of
    expressions, and where a limit is exceeded, `exceeds` tells how. -/
inductive Verdict.Follows {σ α : Type} (limits : Limits) (nesting : σ → Nesting)
    (exceeds : ParseError → Prop) (n : Nesting) (t : Token) : Verdict σ α → Prop
  | taken {s : σ} : nesting s = n.next t →
    (n.opened ≤ max 1 limits.maxExprDepth → (n.next t).opened ≤ max 1 limits.maxExprDepth) →
    Follows limits nesting exceeds n t (taken s)
  | complete {a : α} : n = .outside → Follows limits nesting exceeds n t (complete a)
  | refused {e : ParseError} : (e.cause.kind = .exhausted → exceeds e) →
    Follows limits nesting exceeds n t (refused e)

namespace Verdict

variable {σ τ α β : Type} {limits : Limits} {nesting : σ → Nesting} {nesting' : τ → Nesting}
  {exceeds exceeds' : ParseError → Prop} {n : Nesting} {t : Token} {s s' : σ} {v : Verdict σ α}

theorem Follows.nesting_of_taken (h : v.Follows limits nesting exceeds n t) (hv : v = .taken s) :
    nesting s = n.next t ∧
      (n.opened ≤ max 1 limits.maxExprDepth → (nesting s).opened ≤ max 1 limits.maxExprDepth) := by
  subst hv
  obtain ⟨hs, hopened⟩ := h
  exact ⟨hs, hs ▸ hopened⟩

theorem Follows.outside_of_complete {a : α} (h : v.Follows limits nesting exceeds n t)
    (hv : v = .complete a) : n = .outside := by
  subst hv
  obtain _ | hn := h
  exact hn

theorem Follows.exceeds_of_refused {e : ParseError} (h : v.Follows limits nesting exceeds n t)
    (hv : v = .refused e) (he : e.cause.kind = .exhausted) : exceeds e := by
  subst hv
  obtain _ | _ | hexceeds := h
  exact hexceeds he

theorem Follows.mono (h : v.Follows limits nesting exceeds n t)
    (he : ∀ e, exceeds e → exceeds' e) : v.Follows limits nesting exceeds' n t := by
  cases h with
  | taken hs hopened => exact .taken hs hopened
  | complete hn => exact .complete hn
  | refused hexceeds => exact .refused fun hkind => he _ (hexceeds hkind)

/-- A reader goes along with the nesting if its part does, and so does what follows the part. -/
theorem Follows.andThen {within : σ → τ} {after : α → Verdict τ β}
    (h : v.Follows limits nesting exceeds n t) (hin : ∀ s, nesting' (within s) = nesting s)
    (hout : ∀ a, (after a).Follows limits nesting' exceeds .outside t) :
    (v.andThen within after).Follows limits nesting' exceeds n t := by
  cases h with
  | taken hs hopened => exact .taken ((hin _).trans hs) hopened
  | complete hn =>
    subst hn
    exact hout _
  | refused he => exact .refused he

/-- A part at the end of a reader. -/
theorem Follows.last {within : σ → τ} {f : α → β} (h : v.Follows limits nesting exceeds n t)
    (hin : ∀ s, nesting' (within s) = nesting s) :
    (v.andThen within fun a => Verdict.complete (f a)).Follows limits nesting' exceeds n t :=
  h.andThen hin fun _ => .complete rfl

/-- A token behind which some nesting is known to be. -/
theorem follows_taken_of_next {m : Nesting} (hnext : n.next t = m) (hs : nesting s = m)
    (hm : m.opened ≤ max 1 limits.maxExprDepth) :
    (taken s : Verdict σ α).Follows limits nesting exceeds n t := by
  subst hnext
  exact .taken hs fun _ => hm

/-- A token outside of expressions. -/
theorem follows_taken_outside (hs : nesting s = Nesting.outside.next t) :
    (taken s : Verdict σ α).Follows limits nesting exceeds .outside t := by
  refine .taken hs fun _ => ?_
  rw [Nesting.opened_next_outside]
  exact Nat.zero_le _

/-- A token outside of expressions that has nothing to do with them. -/
theorem follows_taken {kind : TokenKind} (ht : t.kind = kind) (hkind : kind.isCue = false)
    (hs : nesting s = .outside) :
    (taken s : Verdict σ α).Follows limits nesting exceeds .outside t :=
  follows_taken_outside (hs.trans (Nesting.next_outside (ht ▸ hkind)).symm)

/-- A token that is refused for another reason than a limit. -/
theorem follows_error {u : Token} {cause : Cause} (h : cause.kind ≠ .exhausted) :
    (refused (t.error cause) : Verdict σ α).Follows limits nesting exceeds n u :=
  .refused fun hkind => absurd hkind h

theorem follows_refuse (t u : Token) (what : Expectation) :
    (t.refuse what : Verdict σ α).Follows limits nesting exceeds n u := by
  refine follows_error ?_
  split <;> simp [Cause.kind]

end Verdict

namespace Grammar

open Verdict

variable {σ α : Type} {limits : Limits} {nesting : σ → Nesting} {exceeds : ParseError → Prop}
  {t : Token}

theorem follows_takeKind {kind : TokenKind} {s : σ} (what : Expectation)
    (hkind : kind.isCue = false) (hs : nesting s = .outside) :
    (takeKind t kind what s : Verdict σ α).Follows limits nesting exceeds .outside t := by
  unfold takeKind
  split
  · exact follows_taken ‹_› hkind hs
  · exact follows_refuse _ _ _

theorem follows_takeName {role : NameRole} {next : String → σ}
    (hs : ∀ name, nesting (next name) = .outside) :
    (takeName t role next : Verdict σ α).Follows limits nesting exceeds .outside t := by
  unfold takeName
  split
  · exact follows_taken rfl (Token.isCue_of_name? ‹_›) (hs _)
  · exact follows_refuse _ _ _

/-- The nesting in a reader of something that holds no expression. -/
def plain (_ : σ) : Nesting := .outside

/-- If every step goes along with the nesting, then so does a whole run. -/
theorem Takes.follows {step : σ → Token → Verdict σ α} {exceeds : σ → Token → ParseError → Prop}
    {s s' : σ} {ts : List Token} (h : Takes step s ts s')
    (hstep : ∀ s t, (step s t).Follows limits nesting (exceeds s t) (nesting s) t) :
    nesting s' = ts.foldl Nesting.next (nesting s) ∧
      ((nesting s).opened ≤ max 1 limits.maxExprDepth →
        (nesting s').opened ≤ max 1 limits.maxExprDepth) := by
  induction ts generalizing s with
  | nil =>
    obtain rfl := h
    exact ⟨rfl, id⟩
  | cons t ts ih =>
    obtain ⟨n, hn, h⟩ := h
    obtain ⟨hnext, hbound⟩ := (hstep s t).nesting_of_taken hn
    obtain ⟨hrest, hlater⟩ := ih h
    rw [List.foldl_cons, ← hnext]
    exact ⟨hrest, hlater ∘ hbound⟩

end Grammar

end CreateTable
