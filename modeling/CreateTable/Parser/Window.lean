import CreateTable.Lexical.Cursor

/-!
# Windows

A window on the tokens of a text holds one token, which is current, and the token behind it if that
has been looked at. All else is still to be read from the text. Moving a window and looking ahead
share the token that is held: neither loses it, and neither reads it again.

## Main definitions

- `Window` — what is held of the tokens of a text, and the place behind it
- `Window.ofText?` — the window on the first token of a text
- `Window.advance` — moves on by one token
- `Window.peekSecond` — looks at the token behind the current one
- `Window.size` — a bound on the tokens that are left

## Main statements

- `Window.size_advance_lt` — moving past a token leaves less
- `Window.size_peekSecond_le` — looking ahead does not leave more
-/

namespace CreateTable.Lexical

/-- What is held of the tokens of a text. -/
structure Window where
  current : Token
  /-- The token behind the current one, if it has been looked at. -/
  lookahead : Option Token
  /-- The place behind what is held. -/
  cursor : Cursor
  /-- How many calls have been made for a token. -/
  calls : Nat
  deriving Repr, DecidableEq

namespace Window

/-- The window on the first token of a text. -/
def ofText? (text : List Char) : Except ParseError Window :=
  match (Cursor.ofText text).next with
  | (.ok t, c) => .ok ⟨t, none, c, 1⟩
  | (.error e, _) => .error e

/-- The token behind the current one is no longer held: it has been looked at, or there is a call
    for it. -/
def pull (w : Window) : Except ParseError Token × Window :=
  match w.lookahead with
  | some t => (.ok t, { w with lookahead := none })
  | none =>
    let (result, cursor) := w.cursor.next
    (result, { w with lookahead := none, cursor, calls := w.calls + 1 })

/-- Moves on to the token behind the current one, and gives the one that was current. -/
def advance (w : Window) : Except ParseError Token × Window :=
  match w.pull with
  | (.ok t, w') => (.ok w.current, { w' with current := t })
  | (.error e, w') => (.error e, w')

/-- Looks at the token behind the current one. -/
def peekSecond (w : Window) : Except ParseError Token × Window :=
  match w.pull with
  | (.ok t, w') => (.ok t, { w' with lookahead := some t })
  | (.error e, w') => (.error e, w')

-- ════════════════════════════════════════════════════════════════════════
-- What is left
-- ════════════════════════════════════════════════════════════════════════

/-- What a token counts for that is held. The end of a text is nothing to move past. -/
def weight (t : Token) : Nat := if t.kind = .endOfInput then 0 else 1

/-- A bound on the tokens that are left. -/
def size (w : Window) : Nat :=
  weight w.current + (w.lookahead.map weight).getD 0 + 2 * w.cursor.rest.length

/-- A token that is read counts for less than the text that it is read from. -/
theorem weight_add_le {c c' : Cursor} {t : Token} (h : c.next = (.ok t, c')) :
    weight t + 2 * c'.rest.length ≤ 2 * c.rest.length := by
  by_cases hend : t.kind = .endOfInput
  · have hrest : c'.rest = (Lexeme.read c.rest).rest := (congrArg (·.2.rest) h).symm
    have hall := congrArg List.length (Lexeme.all_read c.rest)
    simp only [Lexeme.all, List.length_append] at hall
    rw [weight, if_pos hend, hrest]
    omega
  · have hlt := Cursor.length_rest_next_lt h hend
    rw [weight, if_neg hend]
    omega

variable {w w' : Window} {t : Token}

/-- What a move past the current token leaves is a held token less. -/
theorem size_advance (h : w.advance = (.ok t, w')) :
    t = w.current ∧ w'.size + weight t ≤ w.size := by
  obtain ⟨current, lookahead, cursor, calls⟩ := w
  cases lookahead with
  | some u =>
    obtain ⟨rfl, rfl⟩ : t = current ∧ w' = ⟨u, none, cursor, calls⟩ := by
      simpa [advance, pull, eq_comm] using h
    refine ⟨rfl, ?_⟩
    simp only [size, Option.map_some, Option.map_none, Option.getD_some, Option.getD_none]
    omega
  | none =>
    rcases hnext : cursor.next with ⟨_ | u, cursor'⟩
    · simp [advance, pull, hnext] at h
    · obtain ⟨rfl, rfl⟩ : t = current ∧ w' = ⟨u, none, cursor', calls + 1⟩ := by
        simpa [advance, pull, hnext, eq_comm] using h
      have hle := weight_add_le hnext
      refine ⟨rfl, ?_⟩
      simp only [size, Option.map_none, Option.getD_none]
      omega

/-- Moving past a token leaves less. -/
theorem size_advance_lt (h : w.advance = (.ok t, w')) (hend : w.current.kind ≠ .endOfInput) :
    w'.size < w.size := by
  obtain ⟨rfl, hle⟩ := size_advance h
  rw [weight, if_neg hend] at hle
  omega

/-- Looking ahead does not leave more. -/
theorem size_peekSecond_le (h : w.peekSecond = (.ok t, w')) : w'.size ≤ w.size := by
  obtain ⟨current, lookahead, cursor, calls⟩ := w
  cases lookahead with
  | some u =>
    obtain ⟨rfl, rfl⟩ : t = u ∧ w' = ⟨current, some u, cursor, calls⟩ := by
      simpa [peekSecond, pull, eq_comm] using h
    exact Nat.le_refl _
  | none =>
    rcases hnext : cursor.next with ⟨_ | u, cursor'⟩
    · simp [peekSecond, pull, hnext] at h
    · obtain ⟨rfl, rfl⟩ : t = u ∧ w' = ⟨current, some u, cursor', calls + 1⟩ := by
        simpa [peekSecond, pull, hnext, eq_comm] using h
      have hle := weight_add_le hnext
      simp only [size, Option.map_some, Option.map_none, Option.getD_some, Option.getD_none]
      omega

/-- Looking ahead keeps the current token. -/
theorem current_peekSecond (h : w.peekSecond = (.ok t, w')) : w'.current = w.current := by
  obtain ⟨current, lookahead, cursor, calls⟩ := w
  cases lookahead with
  | some u =>
    obtain ⟨-, rfl⟩ : t = u ∧ w' = ⟨current, some u, cursor, calls⟩ := by
      simpa [peekSecond, pull, eq_comm] using h
    rfl
  | none =>
    rcases hnext : cursor.next with ⟨_ | u, cursor'⟩
    · simp [peekSecond, pull, hnext] at h
    · obtain ⟨-, rfl⟩ : t = u ∧ w' = ⟨current, some u, cursor', calls + 1⟩ := by
        simpa [peekSecond, pull, hnext, eq_comm] using h
      rfl

end Window

end CreateTable.Lexical
