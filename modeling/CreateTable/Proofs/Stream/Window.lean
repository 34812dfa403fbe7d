import CreateTable.Parser.Window
import CreateTable.Proofs.Lexical.Bytes
import Mathlib.Data.Stream.Init

/-!
# What is to come in a window

A window holds one or two tokens, and behind them come the results of the calls that are still to be
made. Moving a window and looking ahead share the token that is held: neither loses it, and neither
reads it again.

## Main definitions

- `Cursor.results` — the results of all calls from a place on
- `Window.results` — all that is to come: what is held, and the results behind it
- `Window.Drops` — some tokens are dropped between two windows, and nothing else

## Main statements

- `Window.exists_pull` — what comes behind the current token, held or not
- `Window.sound` — what becomes of a window that is moved or looked through
- `Window.Drops.advance`, `Window.Drops.peekSecond` — one move more
-/

namespace CreateTable.Lexical

-- ════════════════════════════════════════════════════════════════════════
-- Results
-- ════════════════════════════════════════════════════════════════════════

namespace Cursor

/-- The results of all calls from a place on. There is no last one: the end of a text is read again
    and again. -/
def results (c : Cursor) : Stream' (Except ParseError Token) := fun n => (c.behind n).next.1

/-- The first result, and those behind it. -/
theorem results_eq_cons (c : Cursor) : c.results = Stream'.cons c.next.1 c.next.2.results := by
  funext i
  cases i <;> rfl

end Cursor

-- ════════════════════════════════════════════════════════════════════════
-- Windows
-- ════════════════════════════════════════════════════════════════════════

namespace Window

/-- All that is to come: what is held, and the results behind it. -/
def results (w : Window) : Stream' (Except ParseError Token) :=
  Stream'.cons (.ok w.current) (w.lookahead.toList.map Except.ok ++ₛ w.cursor.results)

/-- What comes behind the current token is no longer held, and is followed by the results from the
    place that is reached. There is a call for it if it was not held. -/
theorem exists_pull (w : Window) :
    ∃ result cursor,
      w.pull = (result, ⟨w.current, none, cursor, w.calls + if w.lookahead = none then 1 else 0⟩) ∧
      w.results = Stream'.cons (.ok w.current) (Stream'.cons result cursor.results) := by
  obtain ⟨current, lookahead, cursor, calls⟩ := w
  cases lookahead with
  | some t => exact ⟨.ok t, cursor, rfl, rfl⟩
  | none =>
    exact ⟨cursor.next.1, cursor.next.2, rfl, congrArg (Stream'.cons _) cursor.results_eq_cons⟩

/-- What becomes of a window that is moved or looked through. -/
structure Sound (w : Window) : Prop where
  /-- Moving on drops the first of what is to come, and nothing else. -/
  advance : ∀ t w', w.advance = (.ok t, w') → t = w.current ∧ w'.results = w.results.tail
  /-- Looking ahead gives the second of what is to come, and drops nothing. -/
  peekSecond : ∀ t w', w.peekSecond = (.ok t, w') →
    w.results.get 1 = .ok t ∧ w'.lookahead = some t ∧ w'.results = w.results
  /-- Where neither can be done, the second of what is to come is a fault. It is dropped, and
      nothing else. -/
  fault : ∀ e w', w.advance = (.error e, w') ∨ w.peekSecond = (.error e, w') →
    w.results.get 1 = .error e ∧
      w'.results = Stream'.cons (.ok w.current) (w.results.drop 2)
  /-- There is a call for a token that is not held, and for no other. -/
  calls : w.advance.2.calls = w.calls + (if w.lookahead = none then 1 else 0) ∧
    w.peekSecond.2.calls = w.advance.2.calls

theorem sound (w : Window) : w.Sound := by
  obtain ⟨result, cursor, hpull, hresults⟩ := w.exists_pull
  generalize hcalls : w.calls + (if w.lookahead = none then 1 else 0) = calls at hpull
  have hsecond : w.results.get 1 = result := congrArg (Stream'.get · 1) hresults
  have hbehind : cursor.results = w.results.drop 2 := (congrArg (Stream'.drop 2) hresults).symm
  cases result with
  | error e =>
    have hadvance : w.advance = (.error e, ⟨w.current, none, cursor, calls⟩) := by
      rw [advance, hpull]
    have hpeek : w.peekSecond = (.error e, ⟨w.current, none, cursor, calls⟩) := by
      rw [peekSecond, hpull]
    refine ⟨?_, ?_, ?_, ?_⟩
    · intro t w' h
      cases hadvance.symm.trans h
    · intro t w' h
      cases hpeek.symm.trans h
    · rintro e' w' (h | h)
      · cases hadvance.symm.trans h
        exact ⟨hsecond, congrArg (Stream'.cons _) hbehind⟩
      · cases hpeek.symm.trans h
        exact ⟨hsecond, congrArg (Stream'.cons _) hbehind⟩
    · rw [hadvance, hpeek]
      exact ⟨hcalls.symm, rfl⟩
  | ok u =>
    have hadvance : w.advance = (.ok w.current, ⟨u, none, cursor, calls⟩) := by
      rw [advance, hpull]
    have hpeek : w.peekSecond = (.ok u, ⟨w.current, some u, cursor, calls⟩) := by
      rw [peekSecond, hpull]
    refine ⟨?_, ?_, ?_, ?_⟩
    · intro t w' h
      cases hadvance.symm.trans h
      exact ⟨rfl, (congrArg Stream'.tail hresults).symm⟩
    · intro t w' h
      cases hpeek.symm.trans h
      exact ⟨hsecond, rfl, hresults.symm⟩
    · rintro e' w' (h | h)
      · cases hadvance.symm.trans h
      · cases hpeek.symm.trans h
    · rw [hadvance, hpeek]
      exact ⟨hcalls.symm, rfl⟩

theorem lookahead_advance {w w' : Window} {t : Token} (h : w.advance = (.ok t, w')) :
    w'.lookahead = none := by
  obtain ⟨_ | u, cursor, hpull, -⟩ := w.exists_pull
  · rw [advance, hpull] at h
    cases h
  · rw [advance, hpull] at h
    cases h
    rfl

-- ════════════════════════════════════════════════════════════════════════
-- From window to window
-- ════════════════════════════════════════════════════════════════════════

/-- From one window to another some tokens are dropped, and nothing else. There is one call for each
    token that is dropped or held then, and was not held before. -/
structure Drops (w : Window) (ts : List Token) (w' : Window) : Prop where
  results : w.results = ts.map Except.ok ++ₛ w'.results
  calls : w'.calls + w.lookahead.toList.length = w.calls + ts.length + w'.lookahead.toList.length

theorem Drops.refl (w : Window) : w.Drops [] w := ⟨rfl, by simp⟩

variable {w w' w'' : Window} {ts : List Token} {t : Token}

theorem Drops.advance (h : w.Drops ts w') (hw : w'.advance = (.ok t, w'')) :
    w.Drops (ts ++ [t]) w'' := by
  obtain ⟨rfl, hresults⟩ := w'.sound.advance _ _ hw
  refine ⟨?_, ?_⟩
  · rw [h.results, List.map_append, Stream'.append_append_stream, hresults]
    exact congrArg _ (Stream'.eta _).symm
  · have hcalls := h.calls
    have hmove := w'.sound.calls.1
    rw [hw] at hmove
    rw [hmove, lookahead_advance hw, List.length_append]
    cases hlook : w'.lookahead <;> simp [hlook] at hcalls ⊢ <;> omega

theorem Drops.peekSecond (h : w.Drops ts w') (hw : w'.peekSecond = (.ok t, w'')) :
    w.Drops ts w'' := by
  obtain ⟨-, hlook, hresults⟩ := w'.sound.peekSecond _ _ hw
  refine ⟨hresults ▸ h.results, ?_⟩
  have hcalls := h.calls
  have hmove := w'.sound.calls.2.trans w'.sound.calls.1
  rw [hw] at hmove
  rw [hmove, hlook]
  cases hlook' : w'.lookahead <;> simp [hlook'] at hcalls ⊢ <;> omega

end Window

end CreateTable.Lexical
