import CreateTable.Proofs.Reading

/-!
# Where a run stops

A run that ends with an error has taken the tokens before it. What holds in every state that is
reached is proved by one step after another.

## Main definitions

- `Takes` — the tokens that lead a reader from one state to another

## Main statements

- `Takes.part` — a reader takes what its part takes
- `Takes.invariant` — what every step keeps holds in every state that is reached
- `Takes.accepts` — a reader that is complete behind some tokens accepts them
- `Reader.runFrom_of_takes` — a run fails where a token is refused
- `Reader.runFrom_of_takes_fault` — a run fails where there is no token
- `Reader.takes_of_runFrom_error` — what a run has taken that ends with an error
-/

namespace CreateTable

namespace Grammar

variable {σ α : Type}

/-- Taking the tokens one after another leads from one state to another. -/
def Takes (step : σ → Token → Verdict σ α) : σ → List Token → σ → Prop
  | s, [], s' => s = s'
  | s, t :: ts, s' => ∃ n, step s t = .taken n ∧ Takes step n ts s'

variable {step : σ → Token → Verdict σ α} {s s' s'' : σ} {t e : Token} {ts us : List Token} {a : α}

/-- What is taken can be computed. -/
instance Takes.decidable [DecidableEq σ] (step : σ → Token → Verdict σ α) :
    ∀ (s : σ) (ts : List Token) (s' : σ), Decidable (Takes step s ts s')
  | s, [], s' => inferInstanceAs (Decidable (s = s'))
  | s, t :: ts, s' =>
    match h : step s t with
    | .taken n =>
      have := decidable step n ts s'
      decidable_of_iff (Takes step n ts s') (by simp [Takes, h])
    | .complete _ => isFalse (by simp [Takes, h])
    | .refused _ => isFalse (by simp [Takes, h])

theorem takes_append :
    Takes step s (ts ++ us) s'' ↔ ∃ n, Takes step s ts n ∧ Takes step n us s'' := by
  induction ts generalizing s with
  | nil =>
    constructor
    · intro h
      exact ⟨s, rfl, h⟩
    · rintro ⟨_, rfl, h⟩
      exact h
  | cons t ts ih =>
    constructor
    · rintro ⟨n, hn, h⟩
      obtain ⟨m, hts, hus⟩ := ih.1 h
      exact ⟨m, ⟨n, hn, hts⟩, hus⟩
    · rintro ⟨m, ⟨n, hn, hts⟩, hus⟩
      exact ⟨n, hn, ih.2 ⟨m, hts, hus⟩⟩

/-- One more token. -/
theorem Takes.snoc (h : Takes step s ts s') (ht : step s' t = .taken s'') :
    Takes step s (ts ++ [t]) s'' :=
  takes_append.2 ⟨s', h, s'', ht, rfl⟩

/-- Where a run leads to another state, there is a last token. -/
theorem Takes.exists_last (h : Takes step s ts s') (hne : s ≠ s') :
    ∃ front t n, ts = front ++ [t] ∧ Takes step s front n ∧ step n t = .taken s' := by
  obtain rfl | ⟨front, t, rfl⟩ := ts.eq_nil_or_concat
  · exact absurd h hne
  · rw [List.concat_eq_append] at h ⊢
    obtain ⟨n, hfront, _, ht, rfl⟩ := takes_append.1 h
    exact ⟨front, t, n, rfl, hfront, ht⟩

/-- A reader takes what its part takes. -/
theorem Takes.part {τ β : Type} {inner : τ → Token → Verdict τ β} {within : τ → σ}
    (after : β → Token → Verdict σ α)
    (hstep : ∀ p t, step (within p) t = (inner p t).andThen within (after · t)) {p p' : τ}
    (h : Takes inner p ts p') : Takes step (within p) ts (within p') := by
  induction ts generalizing p with
  | nil => exact congrArg within h
  | cons t ts ih =>
    obtain ⟨n, hn, h⟩ := h
    refine ⟨within n, ?_, ih h⟩
    rw [hstep, hn, Verdict.andThen_taken]

/-- What holds before the first token and is kept by every step holds behind all tokens. -/
theorem Takes.invariant (holds : List Token → σ → Prop) (h : Takes step s ts s')
    (hstart : holds [] s)
    (hstep : ∀ us n t n', holds us n → step n t = .taken n' → holds (us ++ [t]) n') :
    holds ts s' := by
  -- the tokens that have been taken grow at their end
  have hall : ∀ us n ts, holds us n → Takes step n ts s' → holds (us ++ ts) s' := by
    intro us n ts
    induction ts generalizing us n with
    | nil =>
      rintro hus rfl
      rwa [List.append_nil]
    | cons t ts ih =>
      rintro hus ⟨n', hn', hts⟩
      have := ih (us ++ [t]) n' (hstep us n t n' hus hn') hts
      rwa [List.append_assoc] at this
  exact hall [] s ts hstart h

/-- A reader that is complete behind some tokens accepts them. -/
theorem Takes.accepts (h : Takes step s ts s') (he : step s' e = .complete a) :
    Accepts step s ts e a := by
  induction ts generalizing s with
  | nil =>
    obtain rfl := h
    exact he
  | cons t ts ih =>
    obtain ⟨n, hn, h⟩ := h
    exact .take hn (ih h)

/-- Behind tokens that have been taken, a reader accepts what it does from the state that is
    reached. -/
theorem Takes.accepts_append_iff (h : Takes step s ts s') :
    Accepts step s (ts ++ us) e a ↔ Accepts step s' us e a := by
  induction ts generalizing s with
  | nil =>
    obtain rfl := h
    rfl
  | cons t ts ih =>
    obtain ⟨n, hn, h⟩ := h
    rw [List.cons_append, accepts_cons, hn]
    constructor
    · rintro ⟨_, hs, haccepts⟩
      obtain rfl := Verdict.taken.inj hs
      exact (ih h).1 haccepts
    · exact fun haccepts => ⟨n, rfl, (ih h).2 haccepts⟩

/-- What is accepted is taken, and then the reader is complete. -/
theorem Accepts.takes (h : Accepts step s ts e a) :
    ∃ s', Takes step s ts s' ∧ step s' e = .complete a := by
  induction ts generalizing s with
  | nil => exact ⟨s, rfl, h⟩
  | cons t ts ih =>
    obtain ⟨n, hn, h⟩ := h
    obtain ⟨s', hs', he⟩ := ih h
    exact ⟨s', ⟨n, hn, hs'⟩, he⟩

end Grammar

namespace Reader

open Grammar Lexical

variable {σ α : Type} {r : Reader σ α} {s : σ} {c : Cursor} {e : ParseError}

/-- A run goes on in the same way from states with the same verdict on the next token. -/
theorem runFrom_congr {s' : σ} {c' : Cursor} {t : Token} (ht : c.next = (.ok t, c'))
    (h : r.step s t = r.step s' t) : r.runFrom s c = r.runFrom s' c := by
  cases hs : r.step s t with
  | taken n => rw [runFrom_of_taken ht hs, runFrom_of_taken ht (h ▸ hs)]
  | complete a => rw [runFrom_of_complete ht hs, runFrom_of_complete ht (h ▸ hs)]
  | refused e => rw [runFrom_of_refused ht hs, runFrom_of_refused ht (h ▸ hs)]

/-- A run goes on where the tokens lead that are taken. -/
theorem runFrom_of_takes_reads {ts : List Token} {c' : Cursor} {s' : σ}
    (h : Cursor.Reads c ts c') (htakes : Takes r.step s ts s') :
    r.runFrom s c = r.runFrom s' c' := by
  induction h generalizing s with
  | nil =>
    obtain rfl := htakes
    rfl
  | cons hnext _ _ ih =>
    obtain ⟨n, hn, htakes⟩ := htakes
    rw [runFrom_of_taken hnext hn, ih htakes]

/-- A run fails where a token is refused behind those taken. -/
theorem runFrom_of_takes {ts : List Token} {c' c'' : Cursor} {s' : σ} {t : Token}
    (h : Cursor.Reads c ts c') (htakes : Takes r.step s ts s') (ht : c'.next = (.ok t, c''))
    (hrefused : r.step s' t = .refused e) : r.runFrom s c = .error e := by
  rw [runFrom_of_takes_reads h htakes, runFrom_of_refused ht hrefused]

/-- A run fails where there is no token behind those taken. -/
theorem runFrom_of_takes_fault {ts : List Token} {c' c'' : Cursor} {s' : σ}
    (h : Cursor.Reads c ts c') (htakes : Takes r.step s ts s') (hfault : c'.next = (.error e, c'')) :
    r.runFrom s c = .error e := by
  rw [runFrom_of_takes_reads h htakes, runFrom_of_next_error hfault]

/-- A run that ends with an error has taken some tokens, and what stands behind them is no token or
    is refused. -/
theorem takes_of_runFrom_error (h : r.runFrom s c = .error e) :
    ∃ ts c' s', Cursor.Reads c ts c' ∧ Takes r.step s ts s' ∧
      ((∃ c'', c'.next = (.error e, c'')) ∨
        ∃ t c'', c'.next = (.ok t, c'') ∧ r.step s' t = .refused e) := by
  -- every token that is taken leaves a shorter rest
  induction hn : c.rest.length using Nat.strongRecOn generalizing c s with
  | _ n ih =>
    match hnext : c.next with
    | (.error e', c') =>
      rw [runFrom_of_next_error hnext] at h
      obtain rfl := Except.error.inj h
      exact ⟨[], c, s, .nil, rfl, .inl ⟨c', hnext⟩⟩
    | (.ok t, c') =>
      match hstep : r.step s t with
      | .refused e' =>
        rw [runFrom_of_refused hnext hstep] at h
        obtain rfl := Except.error.inj h
        exact ⟨[], c, s, .nil, rfl, .inr ⟨t, c', hnext, hstep⟩⟩
      | .complete a =>
        rw [runFrom_of_complete hnext hstep] at h
        cases h
      | .taken s' =>
        rw [runFrom_of_taken hnext hstep] at h
        have hend := r.step_sparesEnd s t s' hstep
        have hlt := Cursor.length_rest_next_lt hnext hend
        obtain ⟨ts, c₁, s₁, hts, htakes, hstop⟩ := ih _ (hn ▸ hlt) h rfl
        exact ⟨t :: ts, c₁, s₁, .cons hnext hend hts, ⟨s', hstep, htakes⟩, hstop⟩

end Reader

end CreateTable
