import CreateTable.Parse
import CreateTable.Proofs.Descent.Statement
import CreateTable.Proofs.Grammar.Acceptance

/-!
# Reading texts

Running a reader on a text, taken apart into the tokens of the text and what the reader makes of
them.

## Main definitions

- `Cursor.Reads` — the tokens from one place in a text to another

## Main statements

- `Reader.runFrom_eq_ok` — a run ends well if the tokens of the text are accepted
- `tokenize_eq_ok` — the tokens of a text are those up to its end
- `parse_eq_run` — parsing gives what the reader of statements gives
- `parse_eq_ok` — a text is parsed if it is short enough and a run on it ends well
-/

namespace CreateTable

namespace Lexical.Cursor

/-- From one place to another stand the tokens, one behind the other. -/
inductive Reads : Cursor → List Token → Cursor → Prop
  | nil {c : Cursor} : Reads c [] c
  | cons {c c' c'' : Cursor} {t : Token} {ts : List Token} :
    c.next = (.ok t, c') → t.kind ≠ .endOfInput → Reads c' ts c'' → Reads c (t :: ts) c''

/-- The text at a place is over. -/
def AtEnd (c : Cursor) (e : Token) : Prop := ∃ c', c.next = (.ok e, c') ∧ e.kind = .endOfInput

theorem Reads.append {c c' c'' : Cursor} {ts us : List Token} (h : Reads c ts c')
    (h' : Reads c' us c'') : Reads c (ts ++ us) c'' := by
  induction h with
  | nil => exact h'
  | cons hnext hend _ ih => exact .cons hnext hend (ih h')

theorem Reads.kind_ne_endOfInput {c c' : Cursor} {ts : List Token} (h : Reads c ts c') :
    ∀ t ∈ ts, t.kind ≠ .endOfInput := by
  induction h with
  | nil => simp
  | cons _ hne _ ih => simpa [hne] using ih

end Lexical.Cursor

open Lexical (Cursor Window)

namespace Reader

open Grammar

variable {σ α : Type} {r : Reader σ α} {s : σ} {c : Cursor} {a : α}

/-- A run that ends well has taken the tokens from where it began to where it is complete. -/
theorem reads_of_runFrom (h : r.runFrom s c = .ok a) :
    ∃ ts c' e c'', Cursor.Reads c ts c' ∧ c'.next = (.ok e, c'') ∧ Accepts r.step s ts e a := by
  -- every token that is taken leaves a shorter rest
  induction hn : c.rest.length using Nat.strongRecOn generalizing c s with
  | _ n ih =>
    match hnext : c.next with
    | (.error e, c') =>
      rw [runFrom_of_next_error hnext] at h
      cases h
    | (.ok t, c') =>
      match hstep : r.step s t with
      | .refused e =>
        rw [runFrom_of_refused hnext hstep] at h
        cases h
      | .complete b =>
        rw [runFrom_of_complete hnext hstep] at h
        obtain rfl := Except.ok.inj h
        exact ⟨[], c, t, c', .nil, hnext, hstep⟩
      | .taken s' =>
        rw [runFrom_of_taken hnext hstep] at h
        have hend := r.step_sparesEnd s t s' hstep
        have hlt := Cursor.length_rest_next_lt hnext hend
        obtain ⟨ts, c₁, e, c₂, hts, he, ha⟩ := ih _ (hn ▸ hlt) h rfl
        exact ⟨t :: ts, c₁, e, c₂, .cons hnext hend hts, he, s', hstep, ha⟩

/-- Tokens that are accepted are what a run takes. -/
theorem runFrom_of_reads {c' c'' : Cursor} {ts : List Token} {e : Token}
    (h : Cursor.Reads c ts c') (he : c'.next = (.ok e, c'')) (ha : Accepts r.step s ts e a) :
    r.runFrom s c = .ok a := by
  induction h generalizing s with
  | nil => exact runFrom_of_complete he ha
  | cons hnext _ _ ih =>
    obtain ⟨s', hstep, ha⟩ := ha
    rw [runFrom_of_taken hnext hstep]
    exact ih he ha

theorem runFrom_eq_ok :
    r.runFrom s c = .ok a ↔
      ∃ ts c' e c'', Cursor.Reads c ts c' ∧ c'.next = (.ok e, c'') ∧ Accepts r.step s ts e a := by
  refine ⟨reads_of_runFrom, ?_⟩
  rintro ⟨ts, c', e, c'', hts, he, ha⟩
  exact runFrom_of_reads hts he ha

end Reader

-- ════════════════════════════════════════════════════════════════════════
-- What a procedure reads
-- ════════════════════════════════════════════════════════════════════════

section

open Grammar

variable {σ α : Type} {s : σ} {a : α} {c c' c'' : Cursor} {ts : List Token} {e : Token}

theorem Lexical.Cursor.Reads.exists_next (h : Cursor.Reads c ts c') (he : c'.next = (.ok e, c'')) :
    ∃ t d, c.next = (.ok t, d) := by
  cases h with
  | nil => exact ⟨e, c'', he⟩
  | cons hnext => exact ⟨_, _, hnext⟩

/-- What a reader accepts is settled on the window of the text, which is then behind it. -/
theorem Settles.of_reads {step : σ → Token → Verdict σ α} {w : Window}
    (hreads : Cursor.Reads c ts c') (he : c'.next = (.ok e, c'')) (ha : Accepts step s ts e a)
    (hc : c.next = (.ok w.current, w.cursor)) (hlook : w.lookahead = none) :
    Settles step (step s w.current) w (.ok (a, ⟨e, none, c'', w.calls + ts.length⟩)) := by
  induction hreads generalizing s w with
  | nil =>
    obtain ⟨rfl, rfl⟩ : w.current = e ∧ w.cursor = c'' := by simpa [hc] using he
    rw [accepts_nil.1 ha, ← hlook]
    exact .complete
  | cons hnext _ hrest ih =>
    obtain ⟨rfl, rfl⟩ : w.current = _ ∧ w.cursor = _ := by simpa [hc] using hnext
    obtain ⟨s', hstep, ha⟩ := ha
    obtain ⟨t, d, hd⟩ := hrest.exists_next he
    have hadvance : w.advance = (.ok w.current, ⟨t, none, d, w.calls + 1⟩) := by
      simp only [Window.advance, Window.pull, hlook, hd]
    rw [hstep, List.length_cons, ← Nat.add_assoc, Nat.add_right_comm]
    exact .taken hadvance (ih he ha hd rfl)

/-- What a reader accepts is what a procedure reads that reads the same. -/
theorem Parser.Reads.eq_some_of_accepts {step : σ → Token → Verdict σ α} {x : Parser α} {p : Point}
    (h : Parser.Reads step s x) (htotal : Parser.Total x) (hreads : Cursor.Reads c ts c')
    (he : c'.next = (.ok e, c'')) (ha : Accepts step s ts e a)
    (hc : c.next = (.ok p.window.current, p.window.cursor)) (hlook : p.window.lookahead = none) :
    ∃ q, x p = some (.ok a, q) ∧ q.window = ⟨e, none, c'', p.window.calls + ts.length⟩ := by
  have hmeets := h _ p hlook rfl
  have hsettles := Settles.of_reads hreads he ha hc hlook
  obtain ⟨_ | b, q, hx, -⟩ := htotal p
  · have herror := hmeets.error _ q hx
    rw [Window.ahead_eq_self hlook] at herror
    cases herror.unique hsettles
  · obtain ⟨_, ⟨hlook', rfl⟩, hout⟩ := hmeets.ok b q hx
    have hok := hout _ .complete
    rw [Window.ahead_eq_self hlook, Window.ahead_eq_self hlook'] at hok
    obtain ⟨rfl, hwindow⟩ := Prod.mk.inj (Except.ok.inj (hok.unique hsettles))
    exact ⟨q, hx, hwindow⟩

end

-- ════════════════════════════════════════════════════════════════════════
-- The tokens of a text
-- ════════════════════════════════════════════════════════════════════════

open Grammar

theorem Token.accepts_collector (taken : List Token) {ts us : List Token} {e : Token} :
    Accepts Token.collector.step taken ts e us ↔
      (∀ t ∈ ts, t.kind ≠ .endOfInput) ∧ e.kind = .endOfInput ∧ us = taken.reverse ++ ts := by
  induction ts generalizing taken with
  | nil =>
    rw [accepts_nil]
    simp only [Token.collector]
    split
    · simp [*, eq_comm]
    · simp [*]
  | cons t ts ih =>
    rw [accepts_cons]
    simp only [Token.collector]
    split
    · simp [*]
    · have := ih (t :: taken)
      simp only [Token.collector] at this
      simp [*]

theorem eq_ok_of_toOption {ε α : Type} {x : Except ε α} {a : α}
    (h : x.toOption = some a) : x = .ok a := by
  cases x with
  | ok b => exact congrArg Except.ok (Option.some.inj h)
  | error e => cases h

/-- The error of a result that is none. -/
def error? {ε α : Type} : Except ε α → Option ε
  | .error e => some e
  | .ok _ => none

theorem eq_error_of_error? {ε α : Type} {x : Except ε α} {e : ε}
    (h : error? x = some e) : x = .error e := by
  cases x with
  | ok a => cases h
  | error e' => exact congrArg Except.error (Option.some.inj h)

/-- The tokens of a text are those from its beginning to its end. -/
theorem tokenize_eq_ok {text : List Char} {ts : List Token} :
    tokenize text = .ok ts ↔ ∃ c e, Cursor.Reads (.ofText text) ts c ∧ c.AtEnd e := by
  rw [tokenize, Reader.run, Reader.runFrom_eq_ok]
  constructor
  · rintro ⟨us, c, e, c', hus, he, ha⟩
    obtain ⟨-, hend, rfl⟩ := (Token.accepts_collector []).1 ha
    exact ⟨c, e, hus, c', he, hend⟩
  · rintro ⟨c, e, hts, c', he, hend⟩
    refine ⟨ts, c, e, c', hts, he, ?_⟩
    exact (Token.accepts_collector []).2 ⟨hts.kind_ne_endOfInput, hend, rfl⟩

-- ════════════════════════════════════════════════════════════════════════
-- Statements
-- ════════════════════════════════════════════════════════════════════════

section

variable {limits : Limits} {sql : String}

/-- The procedures give what the reader gives. -/
theorem parse_eq_run (limits : Limits) (sql : String) :
    parse limits sql =
      match tooLong? limits sql with
      | some e => .error e
      | none => (statementReader limits).run sql.toList := by
  cases hlong : tooLong? limits sql with
  | some e => simp only [parse, hlong]
  | none =>
    simp only [parse, hlong, Window.ofText?, Reader.run]
    rcases hnext : (Cursor.ofText sql.toList).next with ⟨e | t, c⟩
    · exact (Reader.runFrom_of_next_error hnext).symm
    · exact Parser.reads_createTable.run_eq_runFrom (r := statementReader limits)
        (Parser.createTable_total limits) hnext rfl

/-- A text that is short enough is read. -/
theorem parse_of_length_le (h : sql.utf8ByteSize ≤ limits.maxSqlLength) :
    parse limits sql = (statementReader limits).run sql.toList := by
  simp only [parse_eq_run, tooLong?, if_pos h]

/-- A text that is too long is not read, whatever stands in it. -/
theorem parse_of_lt_length (h : limits.maxSqlLength < sql.utf8ByteSize) :
    parse limits sql = .error
      { cause := .statementTooLong sql.utf8ByteSize limits.maxSqlLength
        offset := Text.byteLength (Text.splitAtByte limits.maxSqlLength sql.toList).1
        token := none } := by
  simp only [parse_eq_run, tooLong?, if_neg (Nat.not_le.2 h)]

/-- A text is parsed if it is short enough and a run on it ends well. -/
theorem parse_eq_ok {table : Table} :
    parse limits sql = .ok table ↔
      sql.utf8ByteSize ≤ limits.maxSqlLength ∧
        (statementReader limits).run sql.toList = .ok table := by
  by_cases h : sql.utf8ByteSize ≤ limits.maxSqlLength
  · simp [h, parse_of_length_le]
  · simp [h, parse_of_lt_length (Nat.not_le.1 h)]

end

end CreateTable
