import CreateTable.Parser.Procedure

/-!
# Ending

A procedure ends if its parts do, and a loop if every turn that goes on moves past a token: the end
of a text is never moved past, so there are not for ever tokens to move past.

## Main definitions

- `Point.Leads` — the tokens that a run moves past between two points
- `Parser.Ends` — a procedure ends, with a result that is as it should be
- `Parser.Spends` — a procedure ends, and moves past a token if its result is of some sort
- `Parser.run` — what comes of a procedure that ends

## Main statements

- `Parser.Ends.bind`, `Parser.Spends.bind` — one procedure behind another
- `Parser.Ends.loop` — a loop ends if every turn that goes on moves past a token
- `Parser.loop_eq_bind` — a loop is its first turn, and the loop behind it
-/

namespace CreateTable

open Lexical (Window)

-- ════════════════════════════════════════════════════════════════════════
-- From point to point
-- ════════════════════════════════════════════════════════════════════════

namespace Point

/-- The tokens that a run moves past between two points. The end of a text is neither moved past nor
    looked behind. -/
inductive Leads : Point → List Token → Point → Prop
  | nil {p : Point} : Leads p [] p
  | advance {p q : Point} {ts : List Token} {t : Token} {w : Window} : Leads p ts q →
    q.window.current.kind ≠ .endOfInput → q.window.advance = (.ok t, w) →
    Leads p (ts ++ [t]) ⟨w, q.window :: q.passed⟩
  | peekSecond {p q : Point} {ts : List Token} {t : Token} {w : Window} : Leads p ts q →
    q.window.current.kind ≠ .endOfInput → q.window.peekSecond = (.ok t, w) →
    Leads p ts ⟨w, q.window :: q.passed⟩

/-- There is no token where one is called for. -/
inductive Faults (p : Point) (e : ParseError) : Point → Prop
  | advance {w : Window} : p.window.current.kind ≠ .endOfInput →
    p.window.advance = (.error e, w) → Faults p e ⟨w, p.window :: p.passed⟩
  | peekSecond {w : Window} : p.window.current.kind ≠ .endOfInput →
    p.window.peekSecond = (.error e, w) → Faults p e ⟨w, p.window :: p.passed⟩

variable {p q q' : Point} {ts us : List Token}

theorem Leads.trans (h : Leads p ts q) (h' : Leads q us q') : Leads p (ts ++ us) q' := by
  induction h' with
  | nil => rwa [List.append_nil]
  | advance _ hend hw ih =>
    rw [← List.append_assoc]
    exact .advance ih hend hw
  | peekSecond _ hend hw ih => exact .peekSecond ih hend hw

/-- What is left gets less by every token that is moved past. -/
theorem Leads.size_add_length_le (h : Leads p ts q) :
    q.window.size + ts.length ≤ p.window.size := by
  induction h with
  | nil => exact Nat.le_refl _
  | advance _ hend hw ih =>
    have hlt := Window.size_advance_lt hw hend
    rw [List.length_append, List.length_singleton]
    dsimp only
    omega
  | peekSecond _ _ hw ih =>
    have hle := Window.size_peekSecond_le hw
    dsimp only
    omega

end Point

-- ════════════════════════════════════════════════════════════════════════
-- Ends
-- ════════════════════════════════════════════════════════════════════════

namespace Parser

open Point

variable {α β : Type}

/-- What comes of a procedure: a result, behind the tokens that it has moved past, or an error,
    where it refuses a token or finds none. -/
inductive Outcome (p : Point) (Q : α → List Token → Point → Prop) :
    Except ParseError α → Point → Prop
  | ok {a : α} {ts : List Token} {q : Point} : p.Leads ts q → Q a ts q → Outcome p Q (.ok a) q
  | refused {e : ParseError} {ts : List Token} {q : Point} : p.Leads ts q →
    Outcome p Q (.error e) q
  | fault {e : ParseError} {ts : List Token} {q q' : Point} : p.Leads ts q → q.Faults e q' →
    Outcome p Q (.error e) q'

/-- A procedure ends. Its result, the tokens that it has moved past and where it stands then are as
    they should be. -/
def Ends (x : Parser α) (p : Point) (Q : α → List Token → Point → Prop) : Prop :=
  ∃ result q, x p = some (result, q) ∧ Outcome p Q result q

/-- A procedure ends, and moves past a token if its result is of some sort. -/
def Spends (x : Parser α) (P : α → Prop) : Prop :=
  ∀ p, Ends x p fun a ts _ => P a → ts ≠ []

/-- A procedure ends. -/
abbrev Total (x : Parser α) : Prop := Spends x fun _ => False

variable {x : Parser α} {f : α → Parser β} {p q : Point} {P P' : α → Prop} {R : β → Prop}
  {Q Q' : α → List Token → Point → Prop} {S : β → List Token → Point → Prop}

theorem Ends.mono (h : Ends x p Q) (hQ : ∀ a ts q, Q a ts q → Q' a ts q) : Ends x p Q' := by
  obtain ⟨result, q, hx, houtcome⟩ := h
  refine ⟨result, q, hx, ?_⟩
  cases houtcome with
  | ok hleads ha => exact .ok hleads (hQ _ _ _ ha)
  | refused hleads => exact .refused hleads
  | fault hleads hfault => exact .fault hleads hfault

theorem Ends.pure {a : α} (h : Q a [] p) : Ends (pure a) p Q :=
  ⟨.ok a, p, rfl, .ok .nil h⟩

theorem Ends.fail {e : ParseError} : Ends (fail e : Parser α) p Q :=
  ⟨.error e, p, rfl, .refused .nil⟩

/-- One procedure behind another. -/
theorem Ends.bind (hx : Ends x p Q)
    (hf : ∀ a ts q, p.Leads ts q → Q a ts q → Ends (f a) q fun b us => S b (ts ++ us)) :
    Ends (x >>= f) p S := by
  obtain ⟨result, q, hx, houtcome⟩ := hx
  cases houtcome with
  | @ok a ts _ hleads ha =>
    obtain ⟨result, q', hf, houtcome⟩ := hf a ts q hleads ha
    refine ⟨result, q', by simpa [Bind.bind, hx] using hf, ?_⟩
    cases houtcome with
    | ok hleads' hb => exact .ok (hleads.trans hleads') hb
    | refused hleads' => exact .refused (hleads.trans hleads')
    | fault hleads' hfault => exact .fault (hleads.trans hleads') hfault
  | @refused e _ _ hleads => exact ⟨.error e, q, by simp [Bind.bind, hx], .refused hleads⟩
  | @fault e _ _ _ hleads hfault =>
    exact ⟨.error e, q, by simp [Bind.bind, hx], .fault hleads hfault⟩

/-- What is done with the current token. -/
theorem Ends.current {f : Token → Parser β} (h : Ends (f p.window.current) p S) :
    Ends (current >>= f) p S := h

/-- Moving past a token that is not the end of the text. -/
theorem Ends.advance (h : p.window.current.kind ≠ .endOfInput) :
    Ends advance p fun _ ts _ => ts ≠ [] := by
  rcases hw : p.window.advance with ⟨e | t, w⟩
  · refine ⟨.error e, ⟨w, p.window :: p.passed⟩, ?_, .fault .nil (.advance h hw)⟩
    rw [Parser.advance, move, hw]
  · obtain ⟨rfl, -⟩ := Window.size_advance hw
    refine ⟨.ok p.window.current, ⟨w, p.window :: p.passed⟩, ?_,
      .ok (.advance .nil h hw) (List.append_ne_nil_of_right_ne_nil _ (List.cons_ne_nil _ _))⟩
    rw [Parser.advance, move, hw]

/-- Looking ahead keeps the current token. -/
theorem Ends.peekSecond (h : p.window.current.kind ≠ .endOfInput) :
    Ends peekSecond p fun _ _ q => q.window.current = p.window.current := by
  rcases hw : p.window.peekSecond with ⟨e | t, w⟩
  · refine ⟨.error e, ⟨w, p.window :: p.passed⟩, ?_, .fault .nil (.peekSecond h hw)⟩
    rw [Parser.peekSecond, move, hw]
  · refine ⟨.ok t, ⟨w, p.window :: p.passed⟩, ?_,
      .ok (.peekSecond .nil h hw) (Window.current_peekSecond hw)⟩
    rw [Parser.peekSecond, move, hw]

/-- A loop ends if every turn that goes on moves past a token. -/
theorem Ends.loop {turn : β → Parser (β ⊕ α)} {Q : α → Point → Prop}
    (h : ∀ b p, Ends (turn b) p fun r ts q =>
      (∀ b, r = .inl b → ts ≠ []) ∧ ∀ a, r = .inr a → Q a q) (b : β) (p : Point) :
    Ends (loop turn b) p fun a _ q => Q a q := by
  -- every token that is moved past leaves less
  induction hn : p.window.size using Nat.strongRecOn generalizing b p with
  | _ n ih =>
    obtain ⟨result, q, hturn, houtcome⟩ := h b p
    have hloop := loop_eq turn b p
    rw [hturn] at hloop
    cases houtcome with
    | @refused e _ _ hleads => exact ⟨.error e, q, hloop, .refused hleads⟩
    | @fault e _ _ _ hleads hfault => exact ⟨.error e, q, hloop, .fault hleads hfault⟩
    | @ok r ts _ hleads hr =>
      cases r with
      | inr a => exact ⟨.ok a, q, hloop, .ok hleads (hr.2 a rfl)⟩
      | inl b' =>
        have hsize := hleads.size_add_length_le
        have hpos := List.length_pos_iff.2 (hr.1 b' rfl)
        have hless : q.window.size < p.window.size := by omega
        obtain ⟨result, q', hrest, houtcome⟩ := ih _ (hn ▸ hless) b' q rfl
        refine ⟨result, q', hloop.trans ((if_pos hless).trans hrest), ?_⟩
        cases houtcome with
        | ok hleads' ha => exact .ok (hleads.trans hleads') ha
        | refused hleads' => exact .refused (hleads.trans hleads')
        | fault hleads' hfault => exact .fault (hleads.trans hleads') hfault

-- ════════════════════════════════════════════════════════════════════════
-- Spending
-- ════════════════════════════════════════════════════════════════════════

theorem Spends.mono (h : Spends x P) (hP : ∀ a, P' a → P a) : Spends x P' :=
  fun p => (h p).mono fun a _ _ hspends ha => hspends (hP a ha)

theorem Spends.total (h : Spends x P) : Total x := h.mono fun _ => False.elim

theorem Spends.pure {a : α} (h : ¬P a) : Spends (pure a) P :=
  fun _ => .pure fun ha => absurd ha h

theorem Spends.fail {e : ParseError} : Spends (fail e : Parser α) P := fun _ => .fail

/-- One procedure behind another that spends if its result is of some sort. -/
theorem Ends.bind_spends (hx : Ends x p fun a ts _ => P a → ts ≠ []) (hf : ∀ a, Total (f a))
    (hf' : ∀ a, ¬P a → Spends (f a) R) : Ends (x >>= f) p fun b us _ => R b → us ≠ [] := by
  refine hx.bind fun a ts q _ hts => ?_
  by_cases ha : P a
  · exact (hf a q).mono fun _ us _ _ _ => List.append_ne_nil_of_left_ne_nil (hts ha) us
  · exact (hf' a ha q).mono fun _ us _ hus hb => List.append_ne_nil_of_right_ne_nil ts (hus hb)

theorem Spends.bind (hx : Spends x P) (hf : ∀ a, Total (f a))
    (hf' : ∀ a, ¬P a → Spends (f a) R) : Spends (x >>= f) R :=
  fun p => (hx p).bind_spends hf hf'

/-- Behind a procedure that spends, another need only end. -/
theorem Spends.bind_total (hx : Spends x fun _ => True) (hf : ∀ a, Total (f a)) :
    Spends (x >>= f) R :=
  hx.bind hf fun _ hnot => absurd trivial hnot

theorem Total.bind (hx : Total x) (hf : ∀ a, Spends (f a) R) : Spends (x >>= f) R :=
  Spends.bind hx (fun a => (hf a).total) fun a _ => hf a

/-- Where a procedure stands depends on what was done last. -/
theorem Total.bind_ends {T : β → Point → Prop} (hx : Total x)
    (hf : ∀ a q, Ends (f a) q fun b _ q' => T b q') (p : Point) :
    Ends (x >>= f) p fun b _ q' => T b q' :=
  (hx p).bind fun a _ q _ _ => hf a q

theorem Spends.failHere {cause : Cause} : Spends (failHere cause : Parser α) P := fun _ => .fail

theorem Spends.refuse {what : Expectation} : Spends (refuse what : Parser α) P := fun _ => .fail

theorem Spends.current : Total Parser.current := fun _ => ⟨_, _, rfl, .ok .nil False.elim⟩

/-- Something is done with a token that is not the end of the text, and that is moved past. -/
theorem Ends.advance_bind {f : Token → Parser β} (h : p.window.current.kind ≠ .endOfInput)
    (hf : ∀ t, Total (f t)) : Ends (Parser.advance >>= f) p fun b us _ => R b → us ≠ [] :=
  ((Ends.advance h).mono fun _ _ _ hts (_ : True) => hts).bind_spends hf
    fun _ hnot => absurd trivial hnot

theorem Spends.eat {kind : TokenKind} (h : kind ≠ .endOfInput) : Spends (eat kind) (· = true) := by
  intro p
  refine .current ?_
  split
  · rename_i hkind
    exact .advance_bind (hkind ▸ h) fun _ => .pure id
  · exact .pure nofun

theorem Spends.eatKeyword {word : Keyword} : Spends (eatKeyword word) (· = true) := .eat nofun

theorem Spends.expect {kind : TokenKind} {what : Expectation} (h : kind ≠ .endOfInput) :
    Spends (expect kind what) fun _ => True := by
  intro p
  refine .current ?_
  split
  · rename_i hkind
    exact (Ends.advance (hkind ▸ h)).mono fun _ _ _ hts _ => hts
  · exact Spends.refuse p

theorem Spends.expectKeyword {word : Keyword} {what : Expectation} :
    Spends (expectKeyword word what) fun _ => True := .expect nofun

/-- What is done behind a token that has to stand there. -/
theorem Spends.expect_bind {kind : TokenKind} {what : Expectation} {f : Token → Parser β}
    (h : kind ≠ .endOfInput) (hf : ∀ t, Total (f t)) : Spends (Parser.expect kind what >>= f) R :=
  (Spends.expect h).bind_total hf

theorem Spends.expectKeyword_bind {word : Keyword} {what : Expectation} {f : Token → Parser β}
    (hf : ∀ t, Total (f t)) : Spends (Parser.expectKeyword word what >>= f) R :=
  .expect_bind nofun hf

/-- What is done if a token stands there, and what if not. -/
theorem Spends.eat_bind {kind : TokenKind} {f : Bool → Parser β} (h : kind ≠ .endOfInput)
    (hf : Total (f true)) (hf' : Spends (f false) R) : Spends (Parser.eat kind >>= f) R := by
  refine (Spends.eat h).bind (fun b => ?_) fun b hb => ?_
  · cases b with
    | true => exact hf
    | false => exact hf'.total
  · rw [Bool.not_eq_true] at hb
    subst hb
    exact hf'

theorem Spends.eatKeyword_bind {word : Keyword} {f : Bool → Parser β} (hf : Total (f true))
    (hf' : Spends (f false) R) : Spends (Parser.eatKeyword word >>= f) R := .eat_bind nofun hf hf'

/-- A loop ends if every turn that goes on moves past a token. -/
theorem Total.loop {turn : β → Parser (β ⊕ α)} (h : ∀ b, Spends (turn b) (·.isLeft)) (b : β) :
    Total (loop turn b) := by
  refine fun p => (Ends.loop (Q := fun _ _ => True) (fun b p => ?_) b p).mono fun _ _ _ _ => nofun
  refine (h b p).mono fun r ts _ hts => ⟨?_, fun _ _ => trivial⟩
  rintro b rfl
  exact hts rfl

/-- A turn that goes on leaves less if it moves past a token. -/
theorem Spends.size_lt {turn : β → Parser (β ⊕ α)} {b b' : β}
    (h : Spends (turn b) (·.isLeft)) (hturn : turn b p = some (.ok (.inl b'), q)) :
    q.window.size < p.window.size := by
  obtain ⟨result, q', hx, houtcome⟩ := h p
  rw [hturn] at hx
  cases hx
  cases houtcome with
  | ok hleads hts =>
    have hsize := hleads.size_add_length_le
    have hpos := List.length_pos_iff.2 (hts rfl)
    omega

/-- A loop of such turns is its first turn, and the loop behind it if that goes on. -/
theorem loop_eq_bind {turn : β → Parser (β ⊕ α)} (h : ∀ b, Spends (turn b) (·.isLeft)) (b : β) :
    loop turn b = turn b >>= Sum.elim (loop turn) Pure.pure := by
  funext p
  rw [loop_eq]
  rcases hturn : turn b p with _ | ⟨e | b' | a, q⟩ <;> simp only [Bind.bind, hturn]
  · exact if_pos ((h b).size_lt hturn)
  · rfl

-- ════════════════════════════════════════════════════════════════════════
-- Running
-- ════════════════════════════════════════════════════════════════════════

theorem Total.isSome (h : Total x) (p : Point) : (x p).isSome := by
  obtain ⟨result, q, hx, -⟩ := h p
  rw [hx, Option.isSome_some]

/-- What comes of a procedure that ends, and where it stands then. -/
def run (x : Parser α) (h : Total x) (p : Point) : Except ParseError α × Point :=
  (x p).get (h.isSome p)

theorem some_run (h : Total x) (p : Point) : some (x.run h p) = x p := Option.some_get _

end Parser

end CreateTable
