import CreateTable.Lexical.Cursor

/-!
# Readers

A reader takes tokens one at a time. Offered a token, it takes it, or is complete before it, or
refuses it. Larger readers are put together from smaller ones.

## Main definitions

- `Verdict` — what becomes of a token offered to a reader
- `Verdict.andThen` — the verdict of a reader on the verdict of one of its parts
- `Reader` — a reader as a whole
- `Reader.run` — reads a text from a place on
- `tokenize` — the tokens of a text

## Design notes

Tokens are read from the text only as a reader asks for them. Of two things wrong with a text the
one that comes first is reported, be it a text that is no token or a token that is refused.

No reader takes the end of a text, which is why running one ends.

A statement is parsed by procedures that move a window along its tokens. The reader of statements
tells token by token what they do.
-/

namespace CreateTable

/-- What becomes of a token offered to a reader with states `σ` and results `α`. -/
inductive Verdict (σ α : Type) where
  /-- The token is taken, and more is to come. -/
  | taken (next : σ)
  /-- All was read before the token, which is left for others. -/
  | complete (result : α)
  /-- The token cannot stand where it does. -/
  | refused (error : ParseError)
  deriving Repr, DecidableEq

namespace Verdict

variable {σ τ α β : Type}

/-- The verdict of a reader on the verdict of one of its parts: while the part reads on, the reader
    is in the state `within`, and what the part leaves is for `after`. -/
def andThen (v : Verdict σ α) (within : σ → τ) (after : α → Verdict τ β) : Verdict τ β :=
  match v with
  | taken s => taken (within s)
  | complete a => after a
  | refused e => refused e

@[simp] theorem andThen_taken (s : σ) (within : σ → τ) (after : α → Verdict τ β) :
    (taken s).andThen within after = taken (within s) := rfl

@[simp] theorem andThen_complete (a : α) (within : σ → τ) (after : α → Verdict τ β) :
    (complete a).andThen within after = after a := rfl

@[simp] theorem andThen_refused (e : ParseError) (within : σ → τ) (after : α → Verdict τ β) :
    (refused e).andThen within after = refused e := rfl

/-- A verdict that does not take the end of the text. -/
def SparesEnd (v : Verdict σ α) (t : Token) : Prop :=
  ∀ s, v = taken s → t.kind ≠ .endOfInput

@[simp] theorem sparesEnd_taken {s : σ} {t : Token} :
    (taken s : Verdict σ α).SparesEnd t ↔ t.kind ≠ .endOfInput :=
  ⟨fun h => h s rfl, fun h _ _ => h⟩

@[simp] theorem sparesEnd_complete (a : α) (t : Token) :
    (complete a : Verdict σ α).SparesEnd t := fun _ h => nomatch h

@[simp] theorem sparesEnd_refused (e : ParseError) (t : Token) :
    (refused e : Verdict σ α).SparesEnd t := fun _ h => nomatch h

theorem SparesEnd.andThen {v : Verdict σ α} {t : Token} {within : σ → τ}
    {after : α → Verdict τ β} (hv : v.SparesEnd t) (ha : ∀ a, (after a).SparesEnd t) :
    (v.andThen within after).SparesEnd t := by
  cases v with
  | taken s => exact sparesEnd_taken.2 (hv s rfl)
  | complete a => exact ha a
  | refused e => simp

end Verdict

/-- Something else is due where a token stands. -/
def Token.refuse {σ α : Type} (t : Token) (what : Expectation) : Verdict σ α :=
  .refused (t.unexpected what)

@[simp] theorem Token.sparesEnd_refuse {σ α : Type} (t u : Token) (what : Expectation) :
    (t.refuse what : Verdict σ α).SparesEnd u :=
  Verdict.sparesEnd_refused _ _

/-- A reader with states `σ` and results `α`. -/
structure Reader (σ α : Type) where
  /-- The state before the first token. -/
  start : σ
  /-- The verdict on a token. -/
  step : σ → Token → Verdict σ α
  /-- The end of a text is never taken. -/
  step_sparesEnd : ∀ s t, (step s t).SparesEnd t

namespace Reader

variable {σ α : Type}

/-- Reads from a place on, starting in the state `s`. -/
def runFrom (r : Reader σ α) (s : σ) (c : Lexical.Cursor) : Except ParseError α :=
  match _ : c.next with
  | (.error e, _) => .error e
  | (.ok t, c') =>
    match _ : r.step s t with
    | .refused e => .error e
    | .complete a => .ok a
    | .taken s' => r.runFrom s' c'
termination_by c.rest.length
decreasing_by exact Lexical.Cursor.length_rest_next_lt ‹_› (r.step_sparesEnd s t s' ‹_›)

theorem runFrom_of_next_error {r : Reader σ α} {s : σ} {c c' : Lexical.Cursor} {e : ParseError}
    (h : c.next = (.error e, c')) : r.runFrom s c = .error e := by
  rw [runFrom]
  split <;> simp_all

theorem runFrom_of_refused {r : Reader σ α} {s : σ} {c c' : Lexical.Cursor} {t : Token}
    {e : ParseError} (h : c.next = (.ok t, c')) (hs : r.step s t = .refused e) :
    r.runFrom s c = .error e := by
  rw [runFrom]
  split
  · simp_all
  · split <;> simp_all

theorem runFrom_of_complete {r : Reader σ α} {s : σ} {c c' : Lexical.Cursor} {t : Token} {a : α}
    (h : c.next = (.ok t, c')) (hs : r.step s t = .complete a) : r.runFrom s c = .ok a := by
  rw [runFrom]
  split
  · simp_all
  · split <;> simp_all

theorem runFrom_of_taken {r : Reader σ α} {s s' : σ} {c c' : Lexical.Cursor} {t : Token}
    (h : c.next = (.ok t, c')) (hs : r.step s t = .taken s') :
    r.runFrom s c = r.runFrom s' c' := by
  rw [runFrom]
  split
  · simp_all
  · split <;> simp_all

/-- Reads a text. -/
def run (r : Reader σ α) (text : List Char) : Except ParseError α :=
  r.runFrom r.start (.ofText text)

end Reader

/-- Takes every token, latest first, up to the end of the text. -/
def Token.collector : Reader (List Token) (List Token) where
  start := []
  step taken t := if t.kind = .endOfInput then .complete taken.reverse else .taken (t :: taken)
  step_sparesEnd taken t := by
    split
    · exact Verdict.sparesEnd_complete _ _
    · exact Verdict.sparesEnd_taken.2 ‹_›

/-- The tokens of a text without its end, or the first fault. -/
def tokenize (text : List Char) : Except ParseError (List Token) :=
  Token.collector.run text

end CreateTable
