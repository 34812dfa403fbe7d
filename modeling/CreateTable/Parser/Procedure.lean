import CreateTable.Parser.Window

/-!
# Procedures

A procedure reads on from where a run is. It moves the window on or looks ahead, and gives a result
or fails. A loop goes round until one of its turns gives a result, as long as every turn leaves less
than the one before. As far as its type tells, a procedure may have no outcome.

## Main definitions

- `Parser` — a procedure
- `Parser.loop` — turns until one gives a result
- `Parser.eat`, `Parser.expect` — take a token of one kind, if it stands there

## Main statements

- `Parser.bind_eq_some` — what comes of one procedure behind another
- `Parser.bind_assoc` — procedures are a monad

## Design notes

A procedure that has failed is not asked again, so where it stands then matters to no other.
-/

namespace CreateTable

open Lexical (Window)

/-- Where a run is. -/
structure Point where
  window : Window
  /-- The windows before, latest first. No procedure looks at them. They tell where a run has
      been. -/
  passed : List Window
  deriving Repr, DecidableEq

/-- A procedure. There is no outcome if it may never end. -/
def Parser (α : Type) : Type := Point → Option (Except ParseError α × Point)

namespace Parser

variable {α β : Type}

instance : Monad Parser where
  pure a := fun p => some (.ok a, p)
  bind x f := fun p =>
    match x p with
    | none => none
    | some (.error e, q) => some (.error e, q)
    | some (.ok a, q) => f a q

/-- Fails. -/
def fail (e : ParseError) : Parser α := fun p => some (.error e, p)

/-- The current token. -/
def current : Parser Token := fun p => some (.ok p.window.current, p)

/-- Leaves the window behind for another. -/
def move (f : Window → Except ParseError Token × Window) : Parser Token := fun p =>
  let (result, w) := f p.window
  some (result, ⟨w, p.window :: p.passed⟩)

/-- Moves past the current token, and gives it. -/
def advance : Parser Token := move Window.advance

/-- Looks at the token behind the current one. -/
def peekSecond : Parser Token := move Window.peekSecond

/-- Goes round until a turn gives a result. There is no outcome if a turn goes on and leaves no
    less, as the next turns might do the same for ever. -/
def loop (turn : β → Parser (β ⊕ α)) (b : β) : Parser α := rounds b
where
  /-- The rounds from a point on. -/
  rounds (b : β) (p : Point) : Option (Except ParseError α × Point) :=
    match turn b p with
    | none => none
    | some (.error e, q) => some (.error e, q)
    | some (.ok (.inl b), q) => if q.window.size < p.window.size then rounds b q else none
    | some (.ok (.inr a), q) => some (.ok a, q)
  termination_by p.window.size

/-- Fails at the current token. -/
def failHere (cause : Cause) : Parser α := do
  fail ((← current).error cause)

/-- Fails where something else is due. -/
def refuse (what : Expectation) : Parser α := do
  fail ((← current).unexpected what)

/-- Takes a token of one kind, if it stands there. -/
def eat (kind : TokenKind) : Parser Bool := do
  if (← current).kind = kind then
    let _ ← advance
    return true
  else
    return false

/-- Takes a keyword, if it stands there. -/
def eatKeyword (word : Keyword) : Parser Bool := eat (.keyword word)

/-- Takes a token of one kind. -/
def expect (kind : TokenKind) (what : Expectation) : Parser Token := do
  if (← current).kind = kind then advance else refuse what

/-- Takes a keyword. -/
def expectKeyword (word : Keyword) (what : Expectation) : Parser Token :=
  expect (.keyword word) what

-- ════════════════════════════════════════════════════════════════════════
-- One behind another
-- ════════════════════════════════════════════════════════════════════════

variable {γ : Type} {x : Parser α} {f : α → Parser β} {p q : Point}

theorem id_map (x : Parser α) : id <$> x = x := by
  funext p
  rcases hx : x p with _ | ⟨_ | a, q⟩ <;> simp only [Functor.map, hx]
  rfl

theorem bind_assoc (x : Parser α) (f : α → Parser β) (g : β → Parser γ) :
    x >>= f >>= g = x >>= fun a => f a >>= g := by
  funext p
  rcases hx : x p with _ | ⟨_ | a, q⟩ <;> simp only [Bind.bind, hx]

instance : LawfulMonad Parser := .mk' Parser id_map (fun _ _ => rfl) bind_assoc

theorem current_bind (f : Token → Parser β) (p : Point) :
    (current >>= f) p = f p.window.current p := rfl

theorem fail_bind (e : ParseError) (f : α → Parser β) : fail e >>= f = fail e := rfl

theorem refuse_bind (what : Expectation) (f : α → Parser β) : refuse what >>= f = refuse what := rfl

theorem eat_bind (kind : TokenKind) (f : Bool → Parser β) :
    eat kind >>= f = current >>= fun t =>
      if t.kind = kind then advance >>= fun _ => f true else f false := by
  rw [eat, bind_assoc]
  congr
  funext t
  split <;> simp

/-- What comes of one procedure behind another. -/
theorem bind_eq_some {result : Except ParseError β} {q : Point}
    (h : (x >>= f) p = some (result, q)) :
    (∃ e, result = .error e ∧ x p = some (.error e, q)) ∨
      ∃ a q', x p = some (.ok a, q') ∧ f a q' = some (result, q) := by
  rcases hx : x p with _ | ⟨e | a, q'⟩
  · simp [Bind.bind, hx] at h
  · obtain ⟨rfl, rfl⟩ : .error e = result ∧ q' = q := by simpa [Bind.bind, hx] using h
    exact .inl ⟨e, rfl, rfl⟩
  · exact .inr ⟨a, q', rfl, by simpa [Bind.bind, hx] using h⟩

/-- What comes of a loop, by its first turn. -/
theorem loop_eq (turn : β → Parser (β ⊕ α)) (b : β) (p : Point) :
    loop turn b p =
      match turn b p with
      | none => none
      | some (.error e, q) => some (.error e, q)
      | some (.ok (.inl b), q) => if q.window.size < p.window.size then loop turn b q else none
      | some (.ok (.inr a), q) => some (.ok a, q) := loop.rounds.eq_1 turn b p

/-- What comes of a move. -/
theorem move_eq_some {f : Window → Except ParseError Token × Window}
    {result : Except ParseError Token} {q : Point} (h : move f p = some (result, q)) :
    f p.window = (result, q.window) := by
  rcases hw : f p.window with ⟨r, w⟩
  rw [move, hw] at h
  simp only [Option.some.injEq, Prod.mk.injEq] at h
  rw [h.1, ← h.2]

end Parser

end CreateTable
