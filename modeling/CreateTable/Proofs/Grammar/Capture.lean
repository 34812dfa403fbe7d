import CreateTable.Proofs.Parallel.Pieces
import Mathlib.Data.List.Induction
import Mathlib.Data.List.Infix

/-!
# Captured text

An expression in parentheses is held as it was written. Where it ends is decided by tokens alone: a
parenthesis in a string, in a quoted name or in a comment is no token.

## Main definitions

- `Expression.reader` — the reader of an expression in parentheses
- `Expression.StaysOpen` — tokens behind an opening parenthesis that do not close it
- `Expression.NestsWithin` — tokens along which no more than so many parentheses are open

## Main statements

- `Expression.takes_inside` — tokens that do not close an expression are taken
- `Expression.takes_matched` — an expression is taken up to its closing parenthesis
- `expression_eq_ok`, `expression_eq_error` — what the procedure gives where the reader ends
- `runFrom_of_empty`, `runFrom_of_open` — where there is no expression, or no end of it
- `captured_of_match` — what is held of an expression, or why none is
-/

namespace CreateTable

open Lexical Text Grammar

namespace Grammar.Expression

variable {limits : Limits} {opening closing t : Token} {ts us inner read : List Token}

/-- The reader of an expression in parentheses. -/
def reader (limits : Limits) : Reader State String where
  start := .opening
  step := step limits
  step_sparesEnd := step_sparesEnd limits

/-- Tokens behind an opening parenthesis that do not close it. -/
def StaysOpen (ts : List Token) : Prop := ∀ front, front <+: ts → 0 < depth front

/-- Tokens behind an opening parenthesis along which no more than `bound` parentheses are open at
    once, its own one among them. -/
def NestsWithin (bound : Nat) (ts : List Token) : Prop :=
  ∀ front, front <+: ts → depth front ≤ bound

instance (ts : List Token) : Decidable (StaysOpen ts) :=
  decidable_of_iff (∀ front ∈ ts.inits, 0 < depth front) (by simp [StaysOpen, List.mem_inits])

instance (bound : Nat) (ts : List Token) : Decidable (NestsWithin bound ts) :=
  decidable_of_iff (∀ front ∈ ts.inits, depth front ≤ bound) (by simp [NestsWithin, List.mem_inits])

theorem depth_concat (ts : List Token) (t : Token) :
    depth (ts ++ [t]) = depth ts + (if t.kind = .leftParen then 1 else 0) -
      (if t.kind = .rightParen then 1 else 0) := by
  simp only [depth, List.countP_append, List.countP_singleton, decide_eq_true_eq]
  split <;> split <;> omega

theorem StaysOpen.front (h : StaysOpen (ts ++ us)) : StaysOpen ts :=
  fun _ hfront => h _ (hfront.trans (List.prefix_append ts us))

theorem NestsWithin.front {bound : Nat} (h : NestsWithin bound (ts ++ us)) : NestsWithin bound ts :=
  fun _ hfront => h _ (hfront.trans (List.prefix_append ts us))

/-- A token that does not close an expression is taken, and the count is kept. -/
theorem step_inside {nested : Nat} (hend : t.kind ≠ .endOfInput) (hdepth : depth ts = nested + 1)
    (hopen : 0 < depth (ts ++ [t])) (hnests : depth (ts ++ [t]) ≤ limits.maxExprDepth) :
    ∃ nested' : Nat, depth (ts ++ [t]) = nested' + 1 ∧
      step limits (.inside nested read) t = .taken (.inside nested' (t :: read)) := by
  rw [depth_concat, hdepth] at hopen hnests ⊢
  by_cases hleft : t.kind = .leftParen
  · have hright : t.kind ≠ .rightParen := by rw [hleft]; decide
    rw [if_pos hleft, if_neg hright] at hnests ⊢
    exact ⟨nested + 1, by omega, step_inside_leftParen hleft (by omega)⟩
  by_cases hright : t.kind = .rightParen
  · rw [if_neg hleft, if_pos hright] at hopen ⊢
    obtain ⟨n, rfl⟩ : ∃ n, nested = n + 1 := Nat.exists_eq_succ_of_ne_zero (by omega)
    exact ⟨n, by omega, step_inside_rightParen hright⟩
  · rw [if_neg hleft, if_neg hright]
    exact ⟨nested, by omega, step_inside_other hleft hright hend⟩

/-- Tokens that do not close an expression are taken. -/
theorem takes_inside (hopen : StaysOpen ts) (hnests : NestsWithin limits.maxExprDepth ts)
    (hend : ∀ t ∈ ts, t.kind ≠ .endOfInput) :
    ∃ nested : Nat, depth ts = nested + 1 ∧
      Takes (step limits) (.inside 0 []) ts (.inside nested ts.reverse) := by
  -- each token stands behind those that have been taken, so the row grows at its end
  induction ts using List.reverseRecOn with
  | nil => exact ⟨0, rfl, rfl⟩
  | append_singleton ts t ih =>
    have hbefore : ∀ u ∈ ts, u.kind ≠ .endOfInput :=
      fun u hu => hend u (List.mem_append_left _ hu)
    obtain ⟨nested, hdepth, htakes⟩ := ih hopen.front hnests.front hbefore
    obtain ⟨nested', hdepth', hstep⟩ := step_inside (hend t (by simp)) hdepth
      (hopen _ List.prefix_rfl) (hnests _ List.prefix_rfl)
    rw [List.reverse_append]
    exact ⟨nested', hdepth', htakes.snoc hstep⟩

theorem takes_opening (hopening : opening.kind = .leftParen) {s : State}
    (h : Takes (step limits) (.inside 0 []) ts s) :
    Takes (step limits) .opening (opening :: ts) s :=
  ⟨.inside 0 [], by simp [step, takeKind, hopening], h⟩

/-- An expression is taken up to its closing parenthesis. -/
theorem takes_matched (hopening : opening.kind = .leftParen) (hopen : StaysOpen inner)
    (hnests : NestsWithin limits.maxExprDepth inner) (hend : ∀ t ∈ inner, t.kind ≠ .endOfInput)
    (hclosing : closing.kind = .rightParen) (hmatch : depth (inner ++ [closing]) = 0) :
    Takes (step limits) .opening (opening :: (inner ++ [closing]))
      (close inner.reverse closing) := by
  obtain ⟨nested, hdepth, htakes⟩ := takes_inside hopen hnests hend
  have hleft : closing.kind ≠ .leftParen := by rw [hclosing]; decide
  rw [depth_concat, hdepth, if_neg hleft, if_pos hclosing] at hmatch
  obtain rfl : nested = 0 := by omega
  exact takes_opening hopening (htakes.snoc (step_inside_outer hclosing))

/-- Where an expression has tokens, the text of them is held. -/
theorem accepts_matched {first current : Token} (hopening : opening.kind = .leftParen)
    (hopen : StaysOpen (first :: inner)) (hnests : NestsWithin limits.maxExprDepth (first :: inner))
    (hend : ∀ t ∈ first :: inner, t.kind ≠ .endOfInput) (hclosing : closing.kind = .rightParen)
    (hmatch : depth (first :: inner ++ [closing]) = 0) :
    Accepts (step limits) .opening (opening :: (first :: inner ++ [closing])) current
      (Token.verbatim (first :: inner)) := by
  refine (takes_matched hopening hopen hnests hend hclosing hmatch).accepts ?_
  simp [close, step]

end Grammar.Expression

open Expression

section

variable {limits : Limits} {c c₁ c₂ c₃ : Cursor} {opening closing e : Token} {ts : List Token}
  {p : Point} {calls : Nat}

/-- Parentheses with nothing between them are no expression, which is said of the closing one. -/
theorem runFrom_of_empty (hopening : c.next = (.ok opening, c₁)) (hleft : opening.kind = .leftParen)
    (hclosing : c₁.next = (.ok closing, c₂)) (hright : closing.kind = .rightParen)
    (hcurrent : c₂.next = (.ok e, c₃)) :
    (reader limits).runFrom .opening c =
      .error ⟨.expected .expression, closing.start, some closing.source⟩ := by
  have hall : Cursor.Reads c [opening, closing] c₂ :=
    .cons hopening (by rw [hleft]; decide) (.cons hclosing (by rw [hright]; decide) .nil)
  have htakes : Takes (step limits) .opening [opening, closing] (close [] closing) :=
    takes_opening hleft ⟨_, step_inside_outer hright, rfl⟩
  have htext : closing.text ≠ [] := hall.laidOut.text_ne_nil closing (by simp)
  refine Reader.runFrom_of_takes hall htakes hcurrent ?_
  simp [reader, close, step, Token.refuse, Token.unexpected, Token.error, Token.isEnd, hright,
    htext]

/-- An expression that is still open at the end of a text is unbalanced there. -/
theorem runFrom_of_open {sql : String} (hc : Cursor.Within sql c)
    (hopening : c.next = (.ok opening, c₁)) (hleft : opening.kind = .leftParen)
    (hreads : Cursor.Reads c₁ ts c₂) (hover : c₂.AtEnd e) (hopen : StaysOpen ts)
    (hnests : NestsWithin limits.maxExprDepth ts) :
    (reader limits).runFrom .opening c = .error ⟨.unbalanced, sql.utf8ByteSize, none⟩ := by
  obtain ⟨c₃, hnext, hend⟩ := hover
  obtain ⟨htext, hstart⟩ := (hreads.within (hc.next hopening).2).start_of_end hnext hend
  obtain ⟨nested, -, htakes⟩ := takes_inside hopen hnests hreads.kind_ne_endOfInput
  have hall : Cursor.Reads c (opening :: ts) c₂ := .cons hopening (by rw [hleft]; decide) hreads
  refine Reader.runFrom_of_takes hall (takes_opening hleft htakes) hnext ?_
  simp [reader, step, hend, Token.error, htext, hstart]

/-- What the reader of expressions accepts, the procedure gives, and it stands behind it then. -/
theorem expression_eq_ok {text : String} (hopening : c.next = (.ok opening, c₁))
    (hp : p.window = ⟨opening, none, c₁, calls⟩) (hreads : Cursor.Reads c ts c₂)
    (he : c₂.next = (.ok e, c₃)) (haccepts : Accepts (step limits) .opening ts e text) :
    ∃ q, Parser.expression limits p = some (.ok text, q) ∧
      q.window = ⟨e, none, c₃, calls + ts.length⟩ := by
  obtain ⟨window, passed⟩ := p
  obtain rfl : window = _ := hp
  exact (Parser.reads_expression limits).eq_some_of_accepts
    (Parser.expression_spends limits).total hreads he haccepts hopening rfl

/-- Where the reader of expressions fails, so does the procedure. -/
theorem expression_eq_error {error : ParseError} (hopening : c.next = (.ok opening, c₁))
    (hp : p.window = ⟨opening, none, c₁, calls⟩)
    (h : (reader limits).runFrom .opening c = .error error) :
    ∃ q, Parser.expression limits p = some (.error error, q) := by
  obtain ⟨window, passed⟩ := p
  obtain rfl : window = _ := hp
  have htotal := (Parser.expression_spends limits).total
  have hrun := (Parser.reads_expression limits).run_eq_runFrom (r := reader limits)
    (p := ⟨⟨opening, none, c₁, calls⟩, passed⟩) htotal hopening rfl
  refine ⟨_, (Parser.some_run htotal _).symm.trans (congrArg some (Prod.ext ?_ rfl))⟩
  exact hrun.trans h

end

/-- From an opening parenthesis on, the text up to the parenthesis that matches it is held, and the
    token behind that one is then current. -/
theorem captured_of_match (limits : Limits) {sql : String} {c c₁ : Cursor} {opening : Token}
    (hc : Cursor.Within sql c) (hopening : c.next = (.ok opening, c₁))
    (hleft : opening.kind = .leftParen) :
    (∀ inner closing current c₂ c₃, Cursor.Reads c₁ (inner ++ [closing]) c₂ →
      c₂.next = (.ok current, c₃) → StaysOpen inner → NestsWithin limits.maxExprDepth inner →
      closing.kind = .rightParen → depth (inner ++ [closing]) = 0 →
        (∀ first ∈ inner.head?, ∀ last ∈ inner.getLast?, ∃ text,
          (Span.mk first.start last.stop).slice? sql = some text ∧
            Accepts (step limits) .opening (opening :: (inner ++ [closing])) current text ∧
            (reader limits).runFrom .opening c = .ok text ∧
            ∀ p calls, p.window = ⟨opening, none, c₁, calls⟩ →
              ∃ q, Parser.expression limits p = some (.ok text, q) ∧
                q.window = ⟨current, none, c₃, calls + (inner.length + 2)⟩) ∧
        (inner = [] →
          (reader limits).runFrom .opening c =
              .error ⟨.expected .expression, closing.start, some closing.source⟩ ∧
            ∀ p calls, p.window = ⟨opening, none, c₁, calls⟩ →
              ∃ q, Parser.expression limits p =
                some (.error ⟨.expected .expression, closing.start, some closing.source⟩, q))) ∧
    ∀ ts c₂ e, Cursor.Reads c₁ ts c₂ → c₂.AtEnd e → StaysOpen ts →
      NestsWithin limits.maxExprDepth ts →
        (reader limits).runFrom .opening c = .error ⟨.unbalanced, sql.utf8ByteSize, none⟩ ∧
          ∀ p calls, p.window = ⟨opening, none, c₁, calls⟩ →
            ∃ q, Parser.expression limits p =
              some (.error ⟨.unbalanced, sql.utf8ByteSize, none⟩, q) := by
  constructor
  · intro inner closing current c₂ c₃ hreads hcurrent hopen hnests hclosing hmatch
    constructor
    · intro first hfirst last hlast
      obtain ⟨rest, rfl⟩ := List.head?_eq_some_iff.1 hfirst
      obtain rfl : rest.getLastD first = last := by
        rw [List.getLast?_cons, Option.mem_some_iff] at hlast
        rwa [List.getLastD_eq_getLast?]
      have hend : ∀ t ∈ first :: rest, t.kind ≠ .endOfInput :=
        fun t ht => hreads.kind_ne_endOfInput t (List.mem_append_left _ ht)
      have hall : Cursor.Reads c (opening :: (first :: rest ++ [closing])) c₂ :=
        .cons hopening (by rw [hleft]; decide) hreads
      have hrow : first :: rest <:+: opening :: (first :: rest ++ [closing]) :=
        ⟨[opening], [closing], rfl⟩
      obtain ⟨-, -, hslice⟩ := hall.slice?_row hc hrow
      have haccepts : Accepts (step limits) .opening (opening :: (first :: rest ++ [closing]))
          current (Token.verbatim (first :: rest)) :=
        accepts_matched hleft hopen hnests hend hclosing hmatch
      refine ⟨_, hslice, haccepts, Reader.runFrom_of_reads hall hcurrent haccepts, ?_⟩
      intro p calls hp
      have hrun := expression_eq_ok hopening hp hall hcurrent haccepts
      rwa [List.length_cons, List.length_append, List.length_singleton] at hrun
    · rintro rfl
      obtain _ | ⟨hnext, -, hnil⟩ := hreads
      obtain _ | _ := hnil
      have hrun : (reader limits).runFrom .opening c =
          .error ⟨.expected .expression, closing.start, some closing.source⟩ :=
        runFrom_of_empty hopening hleft hnext hclosing hcurrent
      exact ⟨hrun, fun p calls hp => expression_eq_error hopening hp hrun⟩
  · intro ts c₂ e hreads hover hopen hnests
    have hrun := runFrom_of_open hc hopening hleft hreads hover hopen hnests
    exact ⟨hrun, fun p calls hp => expression_eq_error hopening hp hrun⟩

/-- Parentheses in a comment, a string and a quoted name, and a pair that counts. -/
theorem captured_of_match_quoted :
    (reader { maxExprDepth := 2 }).runFrom .opening (.ofText "(a /*)*/ ')(' [)](b) ) c".toList) =
      .ok "a /*)*/ ')(' [)](b)" := by
  have htokens : (tokenize "(a /*)*/ ')(' [)](b) ) c".toList).toOption = some
      (⟨.leftParen, [], ['('], 0⟩ ::
        ([⟨.identifier, [], ['a'], 1⟩, ⟨.stringLiteral ")(", " /*)*/ ".toList, "')('".toList, 9⟩,
          ⟨.quotedIdentifier ")", [' '], "[)]".toList, 14⟩, ⟨.leftParen, [], ['('], 17⟩,
          ⟨.identifier, [], ['b'], 18⟩, ⟨.rightParen, [], [')'], 19⟩] ++
            [⟨.rightParen, [' '], [')'], 21⟩] ++ [⟨.identifier, [' '], ['c'], 23⟩])) := by
    decide +kernel
  have hslice : (Span.mk 1 20).slice? "(a /*)*/ ')(' [)](b) ) c" =
      some "a /*)*/ ')(' [)](b)" := by decide +kernel
  obtain ⟨c, e, hreads, -⟩ := tokenize_eq_ok.1 (eq_ok_of_toOption htokens)
  obtain _ | ⟨hopening, -, hreads⟩ := hreads
  obtain ⟨d, hinner, hcurrent⟩ := hreads.split
  obtain _ | ⟨hcurrent, -, -⟩ := hcurrent
  obtain ⟨hheld, -⟩ := (captured_of_match { maxExprDepth := 2 } (Cursor.within_ofText _) hopening
    rfl).1 _ _ _ _ _ hinner hcurrent (by decide +kernel) (by decide +kernel) rfl
    (by decide +kernel)
  obtain ⟨text, htext, -, hrun, -⟩ := hheld _ rfl _ rfl
  obtain rfl : text = _ := Option.some.inj (htext.symm.trans hslice)
  exact hrun

end CreateTable
