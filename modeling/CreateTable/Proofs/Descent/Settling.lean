import CreateTable.Parser.Ending
import CreateTable.Grammar.Name

/-!
# Settling

A procedure does what a reader does, token by token. Where the reader is given a verdict on the
current token, the procedure does what the reader does next: it fails if the reader fails, and else
leaves the reader with another verdict on the token that is current then.

## Main definitions

- `Settles` — what comes of a verdict on the current token of a window
- `Window.ahead` — the window of a reader, which has taken the current token if another is held
- `Meets` — a procedure does what a reader does
- `Follows` — a procedure does so where no token is held besides the current one

## Main statements

- `Settles.runFrom` — what a reader settles on a window is what it gives
- `Follows.bind`, `Follows.loop` — a procedure that is put together from others
- `Follows.part` — a procedure that does what a part of a reader does
-/

namespace CreateTable

open Lexical Grammar

/-- The window of a reader. If a token is held besides the current one, the reader has taken the
    current one. -/
def Lexical.Window.ahead (w : Window) : Window :=
  match w.lookahead with
  | some t => { w with current := t, lookahead := none }
  | none => w

theorem Lexical.Window.ahead_eq_self {w : Window} (h : w.lookahead = none) : w.ahead = w := by
  rw [ahead, h]

theorem Lexical.Window.lookahead_ahead (w : Window) : w.ahead.lookahead = none := by
  obtain ⟨current, _ | t, cursor, calls⟩ := w <;> rfl

theorem Lexical.Window.current_ahead {w : Window} {t : Token} (h : w.lookahead = some t) :
    w.ahead.current = t := by
  rw [ahead, h]

/-- Moving past a token while another is held. -/
theorem Lexical.Window.advance_of_held {w : Window} {t : Token} (h : w.lookahead = some t) :
    w.advance = (.ok w.current, w.ahead) := by
  simp only [advance, pull, ahead, h]

/-- Moving past the only token that is held. -/
theorem Lexical.Window.next_of_advance {w w' : Window} {t : Token} (hlook : w.lookahead = none)
    (h : w.advance = (.ok t, w')) :
    t = w.current ∧ w.cursor.next = (.ok w'.current, w'.cursor) ∧ w'.lookahead = none := by
  obtain ⟨current, lookahead, cursor, calls⟩ := w
  obtain rfl : lookahead = none := hlook
  simp only [advance, pull] at h
  generalize cursor.next = next at h
  obtain ⟨e | u, c⟩ := next
  · cases h
  · cases h
    exact ⟨rfl, rfl, rfl⟩

/-- There is no token behind the only one that is held. -/
theorem Lexical.Window.next_of_advance_error {w w' : Window} {e : ParseError}
    (hlook : w.lookahead = none) (h : w.advance = (.error e, w')) :
    w.cursor.next = (.error e, w'.cursor) := by
  obtain ⟨current, lookahead, cursor, calls⟩ := w
  obtain rfl : lookahead = none := hlook
  simp only [advance, pull] at h
  generalize cursor.next = next at h
  obtain ⟨e' | u, c⟩ := next
  · cases h
    rfl
  · cases h

/-- Looking ahead finds what moving on finds. -/
theorem Lexical.Window.advance_of_peekSecond {w w' : Window} {t : Token}
    (hlook : w.lookahead = none) (h : w.peekSecond = (.ok t, w')) :
    w.advance = (.ok w.current, w'.ahead) ∧ w'.current = w.current ∧ w'.lookahead = some t := by
  obtain ⟨current, lookahead, cursor, calls⟩ := w
  obtain rfl : lookahead = none := hlook
  simp only [peekSecond, advance, pull] at h ⊢
  generalize cursor.next = next at h ⊢
  obtain ⟨e | u, c⟩ := next
  · cases h
  · cases h
    exact ⟨rfl, rfl, rfl⟩

theorem Lexical.Window.advance_of_peekSecond_error {w w' : Window} {e : ParseError}
    (h : w.peekSecond = (.error e, w')) : w.advance = (.error e, w') := by
  simp only [peekSecond, advance] at h ⊢
  generalize w.pull = pulled at h ⊢
  obtain ⟨e' | u, c⟩ := pulled
  · exact h
  · cases h

variable {σ τ α β γ : Type}

-- ════════════════════════════════════════════════════════════════════════
-- Verdicts on a window
-- ════════════════════════════════════════════════════════════════════════

/-- What comes of a verdict on the current token of a window: the result, and the window that is
    left, or an error. -/
inductive Settles (step : σ → Token → Verdict σ α) :
    Verdict σ α → Window → Except ParseError (α × Window) → Prop
  | complete {a : α} {w : Window} : Settles step (.complete a) w (.ok (a, w))
  | refused {e : ParseError} {w : Window} : Settles step (.refused e) w (.error e)
  | fault {s : σ} {e : ParseError} {w w' : Window} : w.advance = (.error e, w') →
    Settles step (.taken s) w (.error e)
  | taken {s : σ} {t : Token} {w w' : Window} {out : Except ParseError (α × Window)} :
    w.advance = (.ok t, w') → Settles step (step s w'.current) w' out →
    Settles step (.taken s) w out

/-- A verdict settles in one way. -/
theorem Settles.unique {step : σ → Token → Verdict σ α} {v : Verdict σ α} {w : Window}
    {out out' : Except ParseError (α × Window)} (h : Settles step v w out)
    (h' : Settles step v w out') : out = out' := by
  induction h with
  | complete =>
    cases h'
    rfl
  | refused =>
    cases h'
    rfl
  | fault hadvance =>
    cases h' with
    | fault hadvance' =>
      cases hadvance.symm.trans hadvance'
      rfl
    | taken hadvance' _ => cases hadvance.symm.trans hadvance'
  | taken hadvance _ ih =>
    cases h' with
    | fault hadvance' => cases hadvance.symm.trans hadvance'
    | taken hadvance' hout =>
      cases hadvance.symm.trans hadvance'
      exact ih hout

/-- What a reader settles on the window of a text is what it gives. -/
theorem Settles.runFrom {r : Reader σ α} {s : σ} {c : Cursor} {w : Window}
    {out : Except ParseError (α × Window)} (hc : c.next = (.ok w.current, w.cursor))
    (hlook : w.lookahead = none) (h : Settles r.step (r.step s w.current) w out) :
    r.runFrom s c = out.map Prod.fst := by
  generalize hv : r.step s w.current = v at h
  induction h generalizing s c with
  | complete => rw [Reader.runFrom_of_complete hc hv, Except.map]
  | refused => rw [Reader.runFrom_of_refused hc hv, Except.map]
  | fault hadvance =>
    have hnext := Window.next_of_advance_error hlook hadvance
    rw [Reader.runFrom_of_taken hc hv, Reader.runFrom_of_next_error hnext, Except.map]
  | taken hadvance _ ih =>
    obtain ⟨-, hnext, hlook'⟩ := Window.next_of_advance hlook hadvance
    rw [Reader.runFrom_of_taken hc hv]
    exact ih hnext hlook' rfl

section

variable {inner : σ → Token → Verdict σ α} {outer : τ → Token → Verdict τ β} {within : σ → τ}
  {after : α → Token → Verdict τ β} {v : Verdict σ α} {w w' : Window}

/-- Where a part of a reader fails, the reader does. -/
theorem Settles.part_error {e : ParseError}
    (hstep : ∀ s t, outer (within s) t = (inner s t).andThen within fun a => after a t)
    (h : Settles inner v w (.error e)) :
    Settles outer (v.andThen within fun a => after a w.current) w (.error e) := by
  generalize hout : Except.error e = out at h
  induction h with
  | complete => cases hout
  | refused =>
    cases hout
    exact .refused
  | fault hadvance =>
    cases hout
    rw [Verdict.andThen_taken]
    exact .fault hadvance
  | taken hadvance _ ih =>
    rw [Verdict.andThen_taken]
    refine .taken hadvance ?_
    rw [hstep]
    exact ih hout

/-- Where a part of a reader is complete, the reader goes on. -/
theorem Settles.part_ok {a : α} {out : Except ParseError (β × Window)}
    (hstep : ∀ s t, outer (within s) t = (inner s t).andThen within fun a => after a t)
    (h : Settles inner v w (.ok (a, w'))) (hout : Settles outer (after a w'.current) w' out) :
    Settles outer (v.andThen within fun a => after a w.current) w out := by
  generalize hok : Except.ok (a, w') = result at h
  induction h with
  | complete =>
    cases hok
    exact hout
  | refused => cases hok
  | fault => cases hok
  | taken hadvance _ ih =>
    rw [Verdict.andThen_taken]
    refine .taken hadvance ?_
    rw [hstep]
    exact ih hok

end

-- ════════════════════════════════════════════════════════════════════════
-- Procedures
-- ════════════════════════════════════════════════════════════════════════

namespace Parser

/-- With a verdict on the current token, a procedure does what a reader does. It fails if the reader
    fails, and a result of it leaves the reader with one of some verdicts. -/
structure Meets (step : τ → Token → Verdict τ γ) (v : Verdict τ γ) (p : Point) (x : Parser α)
    (After : α → Window → Verdict τ γ → Prop) : Prop where
  error : ∀ e q, x p = some (.error e, q) → Settles step v p.window.ahead (.error e)
  ok : ∀ a q, x p = some (.ok a, q) → ∃ v', After a q.window v' ∧
    ∀ out, Settles step v' q.window.ahead out → Settles step v p.window.ahead out

variable {step : τ → Token → Verdict τ γ} {v : Verdict τ γ} {p : Point} {x : Parser α}
  {f : α → Parser β} {After : α → Window → Verdict τ γ → Prop}
  {Then : β → Window → Verdict τ γ → Prop}

theorem Meets.pure {a : α} (h : After a p.window v) : Meets step v p (pure a) After where
  error e q hpure := by
    have heq : some (Except.ok a, p) = some (.error e, q) := hpure
    simp at heq
  ok b q hpure := by
    have heq : some (Except.ok a, p) = some (.ok b, q) := hpure
    obtain ⟨rfl, rfl⟩ : a = b ∧ p = q := by simpa using heq
    exact ⟨v, h, fun _ => id⟩

theorem Meets.fail {e : ParseError} (h : v = .refused e) :
    Meets step v p (fail e : Parser α) After where
  error e' q hfail := by
    have heq : (some (.error e, p) : Option (Except ParseError α × Point)) = some (.error e', q) :=
      hfail
    obtain ⟨rfl, -⟩ : e = e' ∧ p = q := by simpa using heq
    rw [h]
    exact .refused
  ok a q hfail := by
    have heq : some (Except.error e, p) = some (.ok a, q) := hfail
    simp at heq

/-- One procedure behind another. -/
theorem Meets.bind (hx : Meets step v p x After)
    (hf : ∀ a q v', After a q.window v' → Meets step v' q (f a) Then) :
    Meets step v p (x >>= f) Then where
  error := by
    intro e q h
    obtain ⟨e', he, hxp⟩ | ⟨a, q', hxp, hfq⟩ := bind_eq_some h
    · obtain rfl := Except.error.inj he
      exact hx.error e q hxp
    · obtain ⟨v', ha, hout⟩ := hx.ok a q' hxp
      exact hout _ ((hf a q' v' ha).error e q hfq)
  ok := by
    intro b q h
    obtain ⟨e', he, -⟩ | ⟨a, q', hxp, hfq⟩ := bind_eq_some h
    · cases he
    · obtain ⟨v', ha, hout⟩ := hx.ok a q' hxp
      obtain ⟨v'', hb, hout'⟩ := (hf a q' v' ha).ok b q hfq
      exact ⟨v'', hb, fun out h => hout out (hout' out h)⟩

theorem Meets.mono {After' : α → Window → Verdict τ γ → Prop} (h : Meets step v p x After)
    (hAfter : ∀ a w v', After a w v' → After' a w v') : Meets step v p x After' where
  error := h.error
  ok := by
    intro a q hxp
    obtain ⟨v', ha, hout⟩ := h.ok a q hxp
    exact ⟨v', hAfter a _ v' ha, hout⟩

/-- What is done with the current token. -/
theorem Meets.current {f : Token → Parser β} (h : Meets step v p (f p.window.current) Then) :
    Meets step v p (current >>= f) Then := ⟨h.error, h.ok⟩

theorem Meets.of_none (h : x p = none) : Meets step v p x After where
  error e q hx := by cases h.symm.trans hx
  ok a q hx := by cases h.symm.trans hx

/-- What comes of a procedure may be what comes of another one, from a place that it has led to. -/
theorem Meets.of_eq {y : Parser α} {q : Point} {v' : Verdict τ γ} (h : x p = y q)
    (hout : ∀ out, Settles step v' q.window.ahead out → Settles step v p.window.ahead out)
    (hy : Meets step v' q y After) : Meets step v p x After where
  error e q' hx := hout _ (hy.error e q' (h.symm.trans hx))
  ok := by
    intro a q' hx
    obtain ⟨v'', ha, hout'⟩ := hy.ok a q' (h.symm.trans hx)
    exact ⟨v'', ha, fun out hsettles => hout out (hout' out hsettles)⟩

/-- A loop does what a reader does if each of its turns does so. -/
theorem Meets.loop {turn : β → Parser (β ⊕ α)} {Inv : β → Window → Verdict τ γ → Prop}
    (h : ∀ b p v, Inv b p.window v → Meets step v p (turn b) (Sum.elim Inv After)) (b : β)
    (hb : Inv b p.window v) :
    Meets step v p (loop turn b) After := by
  -- every turn that goes on leaves less
  induction hn : p.window.size using Nat.strongRecOn generalizing b v p with
  | _ n ih =>
    have hturn := h b p v hb
    have hloop := loop_eq turn b p
    rcases hx : turn b p with _ | ⟨e | b' | a, q⟩ <;> rw [hx] at hloop
    · exact .of_none hloop
    · refine ⟨fun e' q' hout => ?_, fun a q' hout => ?_⟩ <;> cases hloop.symm.trans hout
      exact hturn.error _ _ hx
    · obtain ⟨v', hb', hout⟩ := hturn.ok _ _ hx
      dsimp only at hloop
      split at hloop
      · rename_i hless
        exact .of_eq hloop hout (ih _ (hn ▸ hless) b' hb' rfl)
      · exact .of_none hloop
    · refine ⟨fun e q' hout => ?_, fun a' q' hout => ?_⟩ <;> cases hloop.symm.trans hout
      exact hturn.ok _ _ hx

/-- Moving past a token that the reader takes. -/
theorem Meets.advance_bind {s : τ} {f : Token → Parser β} (hlook : p.window.lookahead = none)
    (hf : ∀ q, q.window.lookahead = none →
      Meets step (step s q.window.current) q (f p.window.current) Then) :
    Meets step (.taken s) p (advance >>= f) Then := by
  have hmeets : Meets step (.taken s) p advance fun t w v =>
      t = p.window.current ∧ w.lookahead = none ∧ v = step s w.current := by
    refine ⟨fun e q h => ?_, fun t q h => ?_⟩
    · rw [Window.ahead_eq_self hlook]
      exact .fault (move_eq_some h)
    · have hadvance := move_eq_some h
      obtain ⟨ht, -, hlook'⟩ := Window.next_of_advance hlook hadvance
      refine ⟨step s q.window.current, ⟨ht, hlook', rfl⟩, fun out hout => ?_⟩
      rw [Window.ahead_eq_self hlook]
      rw [Window.ahead_eq_self hlook'] at hout
      exact .taken hadvance hout
  refine hmeets.bind ?_
  rintro t q v ⟨rfl, hlook', rfl⟩
  exact hf q hlook'

/-- Moving past a token that the reader has taken. -/
theorem Meets.advance_bind_of_held {t : Token} {f : Token → Parser β}
    (hlook : p.window.lookahead = some t)
    (hf : ∀ q, q.window = p.window.ahead → Meets step v q (f p.window.current) Then) :
    Meets step v p (advance >>= f) Then := by
  have hadvance := Window.advance_of_held hlook
  have hmeets : Meets step v p advance fun t w v' =>
      t = p.window.current ∧ w = p.window.ahead ∧ v' = v := by
    refine ⟨fun e q h => ?_, fun t q h => ?_⟩
    · rw [move_eq_some h] at hadvance
      simp at hadvance
    · rw [move_eq_some h, Prod.mk.injEq, Except.ok.injEq] at hadvance
      obtain ⟨ht, hw⟩ := hadvance
      refine ⟨v, ⟨ht, hw, rfl⟩, fun out hout => ?_⟩
      rwa [hw, Window.ahead_eq_self (Window.lookahead_ahead _)] at hout
  refine hmeets.bind ?_
  rintro t q v' ⟨rfl, hq, rfl⟩
  exact hf q hq

/-- Looking past a token that the reader takes. -/
theorem Meets.peekSecond_bind {s : τ} {f : Token → Parser β} (hlook : p.window.lookahead = none)
    (hf : ∀ q t, q.window.current = p.window.current → q.window.lookahead = some t →
      Meets step (step s t) q (f t) Then) :
    Meets step (.taken s) p (peekSecond >>= f) Then := by
  have hmeets : Meets step (.taken s) p peekSecond fun t w v =>
      w.current = p.window.current ∧ w.lookahead = some t ∧ v = step s t := by
    refine ⟨fun e q h => ?_, fun t q h => ?_⟩
    · rw [Window.ahead_eq_self hlook]
      exact .fault (Window.advance_of_peekSecond_error (move_eq_some h))
    · obtain ⟨hadvance, hcurrent, hlook'⟩ :=
        Window.advance_of_peekSecond hlook (move_eq_some h)
      refine ⟨step s t, ⟨hcurrent, hlook', rfl⟩, fun out hout => ?_⟩
      rw [Window.ahead_eq_self hlook]
      refine .taken hadvance ?_
      rwa [Window.current_ahead hlook']
  refine hmeets.bind ?_
  rintro t q v ⟨hcurrent, hlook', rfl⟩
  exact hf q t hcurrent hlook'

/-- What is done if a token stands there, and what if not. -/
theorem Meets.eat_bind {kind : TokenKind} {f : Bool → Parser β} (hlook : p.window.lookahead = none)
    (ht : p.window.current.kind = kind → ∃ s, v = .taken s ∧ ∀ q, q.window.lookahead = none →
      Meets step (step s q.window.current) q (f true) Then)
    (hf : p.window.current.kind ≠ kind → Meets step v p (f false) Then) :
    Meets step v p (eat kind >>= f) Then := by
  rw [Parser.eat_bind]
  refine .current ?_
  split
  · obtain ⟨s, rfl, hs⟩ := ht ‹_›
    exact .advance_bind hlook hs
  · exact hf ‹_›

-- ════════════════════════════════════════════════════════════════════════
-- Where no token is held
-- ════════════════════════════════════════════════════════════════════════

/-- A verdict on the current token, where no other token is held. -/
def Free (v : Token → Verdict τ γ) (w : Window) (v' : Verdict τ γ) : Prop :=
  w.lookahead = none ∧ v' = v w.current

/-- With a verdict on the token `t` that is current, and the only one held, a procedure does what a
    reader does, and leaves it with a verdict on the token that is current then. -/
def FollowsAt (step : τ → Token → Verdict τ γ) (t : Token) (v : Verdict τ γ) (x : Parser α)
    (after : α → Token → Verdict τ γ) : Prop :=
  ∀ p, p.window.lookahead = none → p.window.current = t →
    Meets step v p x fun a => Free (after a)

/-- A procedure does what a reader does, whichever token is current. -/
def Follows (step : τ → Token → Verdict τ γ) (v : Token → Verdict τ γ) (x : Parser α)
    (after : α → Token → Verdict τ γ) : Prop :=
  ∀ t, FollowsAt step t (v t) x after

variable {t : Token} {s : τ} {after : α → Token → Verdict τ γ} {next : β → Token → Verdict τ γ}
  {kind : TokenKind} {what : Expectation}

theorem Follows.meets {v : Token → Verdict τ γ} {v' : Verdict τ γ} (h : Follows step v x after)
    (hp : Free v p.window v') : Meets step v' p x fun a => Free (after a) := by
  obtain ⟨hlook, rfl⟩ := hp
  exact h _ p hlook rfl

theorem FollowsAt.pure {a : α} (h : v = after a t) : FollowsAt step t v (pure a) after := by
  rintro p hlook rfl
  exact .pure ⟨hlook, h⟩

theorem FollowsAt.fail {e : ParseError} (h : v = .refused e) :
    FollowsAt step t v (fail e : Parser α) after := fun _ _ _ => .fail h

theorem FollowsAt.failHere {cause : Cause} (h : v = .refused (t.error cause)) :
    FollowsAt step t v (failHere cause : Parser α) after := by
  rintro p - rfl
  exact .current (.fail h)

theorem FollowsAt.refuse (h : v = t.refuse what) :
    FollowsAt step t v (refuse what : Parser α) after := by
  rintro p - rfl
  exact .current (.fail h)

theorem FollowsAt.current {f : Token → Parser β} (h : FollowsAt step t v (f t) next) :
    FollowsAt step t v (current >>= f) next := by
  rintro p hlook rfl
  exact .current (h p hlook rfl)

/-- One procedure behind another. -/
theorem FollowsAt.bind (hx : FollowsAt step t v x after)
    (hf : ∀ a, Follows step (after a) (f a) next) : FollowsAt step t v (x >>= f) next :=
  fun p hlook ht => (hx p hlook ht).bind fun a _ _ hq => (hf a).meets hq

theorem Follows.bind {v : Token → Verdict τ γ} (hx : Follows step v x after)
    (hf : ∀ a, Follows step (after a) (f a) next) : Follows step v (x >>= f) next :=
  fun t => (hx t).bind hf

/-- Moving past a token that the reader takes. -/
theorem FollowsAt.advance_bind {f : Token → Parser β} (h : v = .taken s)
    (hf : Follows step (step s) (f t) next) : FollowsAt step t v (advance >>= f) next := by
  rintro p hlook rfl
  rw [h]
  exact .advance_bind hlook fun q hq => hf.meets ⟨hq, rfl⟩

/-- What is done if a token stands there, and what if not. -/
theorem FollowsAt.eat_bind {f : Bool → Parser β}
    (ht : t.kind = kind → ∃ s, v = .taken s ∧ Follows step (step s) (f true) next)
    (hf : t.kind ≠ kind → FollowsAt step t v (f false) next) :
    FollowsAt step t v (eat kind >>= f) next := by
  rintro p hlook rfl
  refine .eat_bind hlook (fun hkind => ?_) fun hkind => hf hkind p hlook rfl
  obtain ⟨s, hv, hs⟩ := ht hkind
  exact ⟨s, hv, fun q hq => hs.meets ⟨hq, rfl⟩⟩

/-- What is done behind a token that has to stand there. -/
theorem Follows.expect_bind {s : Token → τ} {f : Token → Parser β}
    (hf : ∀ t, Follows step (step (s t)) (f t) next) :
    Follows step (fun t => takeKind t kind what (s t)) (expect kind what >>= f) next := by
  intro t
  rw [expect, bind_assoc]
  refine .current ?_
  split
  · rename_i ht
    exact .advance_bind (if_pos ht) (hf t)
  · rename_i ht
    rw [refuse_bind]
    exact .refuse (if_neg ht)

/-- A loop does what a reader does if each of its turns does so. -/
theorem Follows.loop {turn : β → Parser (β ⊕ α)} {inv : β → Token → Verdict τ γ}
    (h : ∀ b, Follows step (inv b) (turn b) (Sum.elim inv after)) (b : β) :
    Follows step (inv b) (loop turn b) after := by
  have hturn : ∀ b p v, Free (inv b) p.window v → Meets step v p (turn b)
      (Sum.elim (fun b => Free (inv b)) fun a => Free (after a)) := fun b p v hv =>
    ((h b).meets hv).mono fun r w v' hv' => by cases r <;> exact hv'
  rintro t p hlook rfl
  exact .loop hturn b ⟨hlook, rfl⟩

-- ════════════════════════════════════════════════════════════════════════
-- Parts of a reader
-- ════════════════════════════════════════════════════════════════════════

section

variable {inner : σ → Token → Verdict σ α} {outer : τ → Token → Verdict τ γ} {within : σ → τ}
  {rest : α → Token → Verdict τ γ}

/-- A procedure that does what a part of a reader does, and then leaves the rest to the reader. -/
theorem Meets.part {x : Parser β} {u : Verdict σ α} {Q : β → Window → α → Prop}
    (hstep : ∀ s t, outer (within s) t = (inner s t).andThen within fun a => rest a t)
    (hlook : p.window.lookahead = none)
    (hv : v = u.andThen within fun a => rest a p.window.current)
    (h : Meets inner u p x fun b w u => ∃ a, u = .complete a ∧ Q b w a) :
    Meets outer v p x fun b w v => ∃ a, v = rest a w.ahead.current ∧ Q b w a := by
  rw [hv, ← congrArg Window.current (Window.ahead_eq_self hlook)]
  refine ⟨fun e q hx => (h.error e q hx).part_error hstep, fun b q hx => ?_⟩
  obtain ⟨_, ⟨a, rfl, ha⟩, hout⟩ := h.ok b q hx
  exact ⟨_, ⟨a, rfl, ha⟩, fun out => (hout _ .complete).part_ok hstep⟩

/-- A procedure reads what a reader reads in a state and after. -/
def Reads (step : σ → Token → Verdict σ α) (s : σ) (x : Parser α) : Prop :=
  Follows step (step s) x fun a _ => .complete a

theorem Reads.part {x : Parser α} {s : σ}
    (hstep : ∀ s t, outer (within s) t = (inner s t).andThen within fun a => rest a t)
    (h : Reads inner s x) : Follows outer (outer (within s)) x rest := by
  rintro t p hlook rfl
  have hinner : Meets inner (inner s p.window.current) p x
      fun b w u => ∃ a, u = .complete a ∧ w.lookahead = none ∧ b = a :=
    (h _ p hlook rfl).mono fun a _ _ ⟨hw, hu⟩ => ⟨a, hu, hw, rfl⟩
  refine (Meets.part hstep hlook (hstep _ _) hinner).mono ?_
  rintro b w _ ⟨_, rfl, hw, rfl⟩
  rw [Window.ahead_eq_self hw]
  exact ⟨hw, rfl⟩

end

/-- What comes of a procedure is what comes of the reader. -/
theorem Reads.run_eq_runFrom {r : Reader σ α} {s : σ} {x : Parser α} {c : Cursor}
    (h : Reads r.step s x) (htotal : Total x)
    (hc : c.next = (.ok p.window.current, p.window.cursor)) (hlook : p.window.lookahead = none) :
    (x.run htotal p).1 = r.runFrom s c := by
  have hmeets := h _ p hlook rfl
  have hrun := some_run htotal p
  generalize x.run htotal p = out at hrun ⊢
  obtain ⟨e | a, q⟩ := out
  · have hsettles := hmeets.error e q hrun.symm
    rw [Window.ahead_eq_self hlook] at hsettles
    exact (hsettles.runFrom hc hlook).symm
  · obtain ⟨_, ⟨hlook', rfl⟩, hout⟩ := hmeets.ok a q hrun.symm
    have hsettles := hout _ .complete
    rw [Window.ahead_eq_self hlook] at hsettles
    exact (hsettles.runFrom hc hlook).symm

end Parser

end CreateTable
