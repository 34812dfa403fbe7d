import CreateTable.Grammar.Statement

/-!
# Acceptance

Which tokens a reader takes, and what it makes of them, apart from the text they come from.

## Main definitions

- `Accepts` — the tokens that a reader takes from a state on before it is complete
- `IsResidual` — a relation that holds what is still due in each state of a reader
- `Stops`, `Ends` — the same two for readers that may hand back a `NOT`

## Main statements

- `IsResidual.of_accepts` — what a reader takes is what is due, by one step after another
- `Accepts.part` — a reader with a part takes what the part takes
-/

namespace CreateTable

variable {σ τ α β : Type}

namespace Verdict

theorem andThen_eq_taken {v : Verdict σ α} {within : σ → τ} {after : α → Verdict τ β} {s : τ} :
    v.andThen within after = taken s ↔
      (∃ p, v = taken p ∧ within p = s) ∨ ∃ a, v = complete a ∧ after a = taken s := by
  cases v <;> simp

theorem andThen_eq_complete {v : Verdict σ α} {within : σ → τ} {after : α → Verdict τ β} {b : β} :
    v.andThen within after = complete b ↔ ∃ a, v = complete a ∧ after a = complete b := by
  cases v <;> simp

end Verdict

namespace Token

@[simp] theorem refuse_ne_taken (t : Token) (what : Expectation) (s : σ) :
    (t.refuse what : Verdict σ α) ≠ .taken s := nofun

@[simp] theorem refuse_ne_complete (t : Token) (what : Expectation) (a : α) :
    (t.refuse what : Verdict σ α) ≠ .complete a := nofun

@[simp] theorem isKeyword_iff {t : Token} {word : Keyword} :
    t.isKeyword word = true ↔ t.kind = .keyword word := by
  simp [isKeyword]

/-- The end of the empty text, for what is so wherever the input ends. -/
def ending : Token := { kind := .endOfInput, lead := [], text := [], start := 0 }

/-- A comma at the start of a text, for what is so wherever the comma stands. -/
def comma : Token := { kind := .comma, lead := [], text := [','], start := 0 }

/-- Whether a token goes on with what stands before it, where a clause of a constraint may end. -/
def continuesClause (t : Token) : Bool :=
  match t.kind with
  | .leftParen | .keyword .on | .keyword .match | .keyword .deferrable | .keyword .initially
  | .keyword .autoincrement | .keyword .asc | .keyword .desc => true
  | _ => false

end Token

namespace Grammar

@[simp] theorem takeKind_eq_taken {t : Token} {kind : TokenKind} {what : Expectation}
    {next s : σ} : (takeKind t kind what next : Verdict σ α) = .taken s ↔
      t.kind = kind ∧ next = s := by
  unfold takeKind
  split <;> simp [*]

@[simp] theorem takeKind_ne_complete (t : Token) (kind : TokenKind) (what : Expectation)
    (next : σ) (a : α) : takeKind t kind what next ≠ .complete a := by
  unfold takeKind
  split <;> simp

@[simp] theorem takeKeyword_eq_taken {t : Token} {word : Keyword} {what : Expectation}
    {next s : σ} : (takeKeyword t word what next : Verdict σ α) = .taken s ↔
      t.kind = .keyword word ∧ next = s :=
  takeKind_eq_taken

@[simp] theorem takeKeyword_ne_complete (t : Token) (word : Keyword) (what : Expectation)
    (next : σ) (a : α) : takeKeyword t word what next ≠ .complete a :=
  takeKind_ne_complete _ _ _ _ _

@[simp] theorem takeName_eq_taken {t : Token} {role : NameRole} {next : String → σ} {s : σ} :
    (takeName t role next : Verdict σ α) = .taken s ↔
      ∃ name, t.name? = some name ∧ next name = s := by
  unfold takeName
  split <;> simp [*]

@[simp] theorem takeName_ne_complete (t : Token) (role : NameRole) (next : String → σ) (a : α) :
    takeName t role next ≠ .complete a := by
  unfold takeName
  split <;> simp

-- ════════════════════════════════════════════════════════════════════════
-- What a reader takes
-- ════════════════════════════════════════════════════════════════════════

/-- In the state `s` a reader takes the tokens one after another, and is then complete before the
    token `e` with the result `a`. -/
def Accepts (step : σ → Token → Verdict σ α) (s : σ) : List Token → Token → α → Prop
  | [], e, a => step s e = .complete a
  | t :: ts, e, a => ∃ s', step s t = .taken s' ∧ Accepts step s' ts e a

/-- The same behind a verdict on the first of the tokens, or on `e` if there are none. -/
def Leads (step : σ → Token → Verdict σ α) (v : Verdict σ α) : List Token → Token → α → Prop
  | [], _, a => v = .complete a
  | _ :: ts, e, a => ∃ s, v = .taken s ∧ Accepts step s ts e a

section

variable {step : σ → Token → Verdict σ α} {inner : τ → Token → Verdict τ β} {s s' : σ}
  {t e : Token} {ts rest : List Token} {a : α}

@[simp] theorem accepts_nil : Accepts step s [] e a ↔ step s e = .complete a := Iff.rfl

@[simp] theorem accepts_cons :
    Accepts step s (t :: ts) e a ↔ ∃ s', step s t = .taken s' ∧ Accepts step s' ts e a := Iff.rfl

theorem accepts_iff_leads : Accepts step s ts e a ↔ Leads step (step s (ts.headD e)) ts e a := by
  cases ts <;> rfl

theorem Accepts.take {n : σ} (h : step s t = .taken n) (hs : Accepts step n ts e a) :
    Accepts step s (t :: ts) e a :=
  ⟨n, h, hs⟩

/-- A reader in a part takes what the part takes, and goes on from where the part is complete. -/
theorem Accepts.part (inner : τ → Token → Verdict τ β) {p : τ} {b : β} {within : τ → σ}
    (after : β → Token → Verdict σ α)
    (hstep : ∀ p t, step (within p) t = (inner p t).andThen within (after · t))
    (h : Accepts inner p ts (rest.headD e) b)
    (hrest : Leads step (after b (rest.headD e)) rest e a) :
    Accepts step (within p) (ts ++ rest) e a := by
  induction ts generalizing p with
  | nil =>
    rw [List.nil_append, accepts_iff_leads, hstep, accepts_nil.1 h]
    exact hrest
  | cons t ts ih =>
    obtain ⟨p', hp, h⟩ := h
    refine Accepts.take ?_ (ih h)
    rw [hstep, hp, Verdict.andThen_taken]

/-- A part at the end of a reader: the reader is complete where the part is. -/
theorem Accepts.last_part {p : τ} {b : β} {within : τ → σ} (after : β → Token → Verdict σ α)
    (hstep : ∀ p t, step (within p) t = (inner p t).andThen within (after · t))
    (h : Accepts inner p ts e b) (hafter : after b e = .complete a) :
    Accepts step (within p) ts e a := by
  have hpart : Accepts step (within p) (ts ++ []) e a :=
    Accepts.part inner after hstep h hafter
  rwa [List.append_nil] at hpart

-- ════════════════════════════════════════════════════════════════════════
-- What is still due
-- ════════════════════════════════════════════════════════════════════════

/-- `residual s ts a` holds if `ts` is due in the state `s` to end with the result `a`: taking a
    token puts it before what is due then, and nothing is due where the reader is complete. -/
structure IsResidual (step : σ → Token → Verdict σ α) (residual : σ → List Token → α → Prop) :
    Prop where
  taken : ∀ {s s' t ts a}, step s t = .taken s' → residual s' ts a → residual s (t :: ts) a
  complete : ∀ {s t a}, step s t = .complete a → residual s [] a

/-- What a reader takes was due. -/
theorem IsResidual.of_accepts {residual : σ → List Token → α → Prop}
    (h : IsResidual step residual) (ha : Accepts step s ts e a) : residual s ts a := by
  induction ts generalizing s with
  | nil => exact h.complete ha
  | cons t ts ih =>
    obtain ⟨s', hs, ha⟩ := ha
    exact h.taken hs (ih ha)

/-- Tokens that are due in a part, and what is due behind the part. -/
def Sequel (part : List Token → β → Prop) (next : β → List Token → α → Prop) (ts : List Token)
    (a : α) : Prop :=
  ∃ us rest b, ts = us ++ rest ∧ part us b ∧ next b rest a

/-- One token of a part and what is due behind the part: either the part takes it, or the part is
    complete before it and the token is due there. -/
theorem Sequel.of_andThen {part : τ → List Token → β → Prop} {next : β → List Token → α → Prop}
    {p : τ} {within : τ → σ} {after : β → Verdict σ α} (hpart : IsResidual inner part)
    (h : (inner p t).andThen within after = .taken s')
    (hin : ∀ p', within p' = s' → Sequel (part p') next ts a)
    (hout : ∀ b, after b = .taken s' → next b (t :: ts) a) :
    Sequel (part p) next (t :: ts) a := by
  obtain ⟨p', hp, hs⟩ | ⟨b, hb, hs⟩ := Verdict.andThen_eq_taken.1 h
  · obtain ⟨us, rest, b, rfl, hus, hrest⟩ := hin p' hs
    exact ⟨t :: us, rest, b, rfl, hpart.taken hp hus, hrest⟩
  · exact ⟨[], t :: ts, b, rfl, hpart.complete hb, hout b hs⟩

/-- Tokens that are due in a part at the end of a reader, which makes `f b` of what the part is. -/
def Last (part : List Token → β → Prop) (f : β → α) (ts : List Token) (a : α) : Prop :=
  ∃ b, part ts b ∧ a = f b

theorem Last.of_taken {part : τ → List Token → β → Prop} {f : β → α} {p : τ} {within : τ → σ}
    (hpart : IsResidual inner part)
    (h : (inner p t).andThen within (fun b => .complete (f b)) = .taken s')
    (hin : ∀ p', within p' = s' → Last (part p') f ts a) : Last (part p) f (t :: ts) a := by
  obtain ⟨p', hp, hs⟩ | ⟨b, -, hs⟩ := Verdict.andThen_eq_taken.1 h
  · obtain ⟨b, hb, rfl⟩ := hin p' hs
    exact ⟨b, hpart.taken hp hb, rfl⟩
  · cases hs

theorem Last.of_complete {part : τ → List Token → β → Prop} {f : β → α} {p : τ} {within : τ → σ}
    (hpart : IsResidual inner part)
    (h : (inner p t).andThen within (fun b => .complete (f b)) = .complete a) :
    Last (part p) f [] a := by
  obtain ⟨b, hb, hs⟩ := Verdict.andThen_eq_complete.1 h
  exact ⟨b, hpart.complete hb, (Verdict.complete.inj hs).symm⟩

-- ════════════════════════════════════════════════════════════════════════
-- Readers that look two tokens ahead
-- ════════════════════════════════════════════════════════════════════════

/-- The reader takes the tokens and is complete before `e`, or `e` is a `NOT` that it takes as well
    and hands back, unless `DEFERRABLE` follows. -/
def Stops (step : σ → Token → Verdict σ α) (s : σ) (ts : List Token) (e : Token)
    (result : Option Token → α) : Prop :=
  Accepts step s ts e (result none) ∨
  e.kind = .keyword .not ∧
    ∀ e', e'.kind ≠ .keyword .deferrable → Accepts step s (ts ++ [e]) e' (result (some e))

/-- A part at the end of a reader hands back what the part does. -/
theorem Stops.last_part {p : τ} {within : τ → σ} (after : β → Token → Verdict σ α)
    {held : Option Token → β} {result : Option Token → α}
    (hstep : ∀ p t, step (within p) t = (inner p t).andThen within (after · t))
    (h : Stops inner p ts e held) (hafter : ∀ o t, after (held o) t = .complete (result o)) :
    Stops step (within p) ts e result := by
  obtain h | ⟨he, h⟩ := h
  · exact .inl (h.last_part after hstep (hafter none e))
  · exact .inr ⟨he, fun e' he' => (h e' he').last_part after hstep (hafter (some e) e')⟩

/-- The tokens `ts` are due and nothing else, or they and a `NOT`, which is handed back. -/
def Ends (due : List Token → β → Prop) (ts : List Token) (b : β) (held : Option Token) : Prop :=
  held = none ∧ due ts b ∨
  ∃ us word, held = some word ∧ word.kind = .keyword .not ∧ ts = us ++ [word] ∧ due us b

/-- Tokens before what is due, whatever they make of it. -/
theorem Ends.append {due : List Token → β → Prop} {due' : List Token → α → Prop} {b : β}
    {held : Option Token} (front : List Token) (h : Ends due ts b held)
    (hdue : ∀ us, due us b → due' (front ++ us) a) : Ends due' (front ++ ts) a held := by
  obtain ⟨hheld, h⟩ | ⟨us, word, hheld, hword, rfl, h⟩ := h
  · exact .inl ⟨hheld, hdue _ h⟩
  · exact .inr ⟨front ++ us, word, hheld, hword, (List.append_assoc ..).symm, hdue _ h⟩

theorem Ends.cons {due due' : List Token → β → Prop} {b : β} {held : Option Token}
    (h : Ends due ts b held) (hdue : ∀ us, due us b → due' (t :: us) b) :
    Ends due' (t :: ts) b held :=
  h.append [t] hdue

theorem Ends.mono {due due' : List Token → β → Prop} {b : β} {held : Option Token}
    (h : Ends due ts b held) (hdue : ∀ us, due us b → due' us b) : Ends due' ts b held :=
  h.append [] hdue

end

end Grammar

end CreateTable
