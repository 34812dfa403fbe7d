import CreateTable.Proofs.Errors.Location
import CreateTable.Proofs.Stream.Procedures

/-!
# The budget of a statement

A statement is read through a window that looks ahead only from a token that is not the end of the
text. Every token is read once, in order, and no more is read than what is moved past and one token
behind it, so there is at most one call more than tokens.

## Main definitions

- `Window.OnText` — what is to come in a window is a rest of what a text gives
- `RunsOnce` — what comes of a run on a text from a point
- `ReadOnce` — how the tokens of a text are read

## Main statements

- `Reads.offset_add_length_le` — a row of tokens has no more tokens than bytes
- `Point.Leads.calls_le` — a run makes at most one call more than there are tokens
- `complete_of_run` — a run that ends well has moved past all tokens of the text
- `readOnce_of_text` — the tokens of every text are read once
-/

namespace CreateTable

open Lexical Grammar CreateTable.Parser

-- ════════════════════════════════════════════════════════════════════════
-- The tokens of a text
-- ════════════════════════════════════════════════════════════════════════

namespace Lexical.Cursor

/-- Every text has tokens up to its end or its first fault. -/
theorem exists_reads_stopped (text : List Char) :
    ∃ ts c, Reads (.ofText text) ts c ∧ c.Stopped := by
  cases htokens : tokenize text with
  | ok ts =>
    obtain ⟨c, e, hreads, hend⟩ := tokenize_eq_ok.1 htokens
    exact ⟨ts, c, hreads, hend.stopped⟩
  | error e =>
    obtain ⟨ts, c, c', hreads, hfault⟩ := reads_of_tokenize_error htokens
    exact ⟨ts, c, hreads, stopped_of_error hfault⟩

/-- A row of tokens has no more tokens than bytes. -/
theorem Reads.offset_add_length_le {c c' : Cursor} {ts : List Token} (h : Reads c ts c') :
    c.offset + ts.length ≤ c'.offset := by
  induction h with
  | nil => exact le_rfl
  | cons hnext hne _ ih =>
    obtain ⟨hstart, hstop⟩ := start_of_next hnext
    have hlt := Token.start_lt_stop (text_ne_nil_of_next hnext hne)
    rw [List.length_cons]
    omega

/-- Tokens that are the first results at a place stand there. -/
theorem reads_of_results {c : Cursor} {ts : List Token} {rest : Stream' (Except ParseError Token)}
    (h : c.results = ts.map Except.ok ++ₛ rest) (hts : ∀ t ∈ ts, t.kind ≠ .endOfInput) :
    ∃ d, Reads c ts d ∧ d.results = rest := by
  induction ts generalizing c with
  | nil => exact ⟨c, .nil, h⟩
  | cons t ts ih =>
    rw [results_eq_cons, List.map_cons, Stream'.cons_append_stream] at h
    obtain ⟨hnext, hrest⟩ := Stream'.cons_injective2 h
    obtain ⟨d, hreads, hd⟩ := ih hrest fun u hu => hts u (List.mem_cons_of_mem t hu)
    exact ⟨d, .cons (Prod.ext hnext rfl) (hts t List.mem_cons_self) hreads, hd⟩

end Lexical.Cursor

-- ════════════════════════════════════════════════════════════════════════
-- Points of a run
-- ════════════════════════════════════════════════════════════════════════

/-- What is to come in a window is a rest of what a text gives. There has been one call for each
    token before it, and for each that is held. -/
def Lexical.Window.OnText (text : List Char) (w : Window) : Prop :=
  ∃ us : List Token, (Cursor.ofText text).results = us.map Except.ok ++ₛ w.results ∧
    w.calls = us.length + 1 + w.lookahead.toList.length

/-- The window on the first token of a text holds nothing else. -/
theorem Lexical.Window.of_ofText? {text : List Char} {w : Window} (h : ofText? text = .ok w) :
    w.results = (Cursor.ofText text).results ∧ w.calls = 1 ∧ w.lookahead = none := by
  unfold ofText? at h
  split at h
  · rename_i t c hnext
    obtain rfl := Except.ok.inj h
    refine ⟨?_, rfl, rfl⟩
    rw [Cursor.results_eq_cons, hnext]
    rfl
  · cases h

namespace Point

variable {text : List Char} {w : Window} {q : Point} {ts us : List Token} {c : Cursor}

/-- Behind some tokens of a text, what is to come is what stands behind them. -/
theorem Leads.onText (h : Leads ⟨w, []⟩ us q) (hw : Window.ofText? text = .ok w) :
    (Cursor.ofText text).results = us.map Except.ok ++ₛ q.window.results ∧
      q.window.calls = us.length + 1 + q.window.lookahead.toList.length := by
  obtain ⟨hresults, hcalls, hlook⟩ := Window.of_ofText? hw
  have hdrops := h.drops
  refine ⟨hresults ▸ hdrops.results, ?_⟩
  have hmade := hdrops.calls
  simp only [hlook, hcalls, Option.toList_none, List.length_nil] at hmade
  omega

/-- The current token of a run stands behind the tokens that have been moved past. -/
theorem Leads.reads (h : Leads ⟨w, []⟩ us q) (hw : Window.ofText? text = .ok w) :
    ∃ d, Cursor.Reads (.ofText text) us d ∧ d.next = (.ok q.window.current, d.next.2) := by
  obtain ⟨d, hreads, hd⟩ := Cursor.reads_of_results (h.onText hw).1 h.kind_ne
  refine ⟨d, hreads, Prod.ext ?_ rfl⟩
  exact congrArg (Stream'.get · 0) hd

/-- The tokens that have been moved past are the first ones of the text. If the current token is
    not the end, it is one of them. -/
theorem Leads.length_le (h : Leads ⟨w, []⟩ us q) (hw : Window.ofText? text = .ok w)
    (hts : Cursor.Reads (.ofText text) ts c) (hc : c.Stopped) :
    us.length ≤ ts.length ∧
      (q.window.current.kind ≠ .endOfInput → us.length + 1 ≤ ts.length) := by
  obtain ⟨d, hreads, hnext⟩ := h.reads hw
  refine ⟨?_, fun hend => ?_⟩
  · obtain ⟨vs, rfl, -⟩ := hts.append_eq hc hreads
    simp
  · obtain ⟨vs, rfl, -⟩ := hts.append_eq hc (hreads.append (.cons hnext hend .nil))
    simp

/-- There is at most one call more than tokens. -/
theorem Leads.calls_le (h : Leads ⟨w, []⟩ us q) (hw : Window.ofText? text = .ok w)
    (hts : Cursor.Reads (.ofText text) ts c) (hc : c.Stopped) :
    q.window.calls ≤ ts.length + 1 := by
  obtain ⟨hle, hlt⟩ := h.length_le hw hts hc
  rw [(h.onText hw).2]
  cases hlook : q.window.lookahead with
  | none =>
    rw [Option.toList_none, List.length_nil]
    omega
  | some t =>
    have hend := h.kind_current_ne (Window.of_ofText? hw).2.2 (by simp [hlook])
    have := hlt hend
    rw [Option.toList_some, List.length_singleton]
    omega

/-- A call that finds no token is within the budget too. -/
theorem Leads.calls_le_of_faults (h : Leads ⟨w, []⟩ us q) (hw : Window.ofText? text = .ok w)
    (hts : Cursor.Reads (.ofText text) ts c) (hc : c.Stopped) {e : ParseError} {q' : Point}
    (hfaults : q.Faults e q') : q'.window.calls ≤ ts.length + 1 := by
  obtain ⟨hend, hcalls⟩ : q.window.current.kind ≠ .endOfInput ∧
      q'.window.calls = q.window.advance.2.calls := by
    cases hfaults with
    | advance hend hmove => exact ⟨hend, by rw [hmove]⟩
    | peekSecond hend hmove => exact ⟨hend, by rw [← q.window.sound.calls.2, hmove]⟩
  have hlt := (h.length_le hw hts hc).2 hend
  rw [hcalls, q.window.sound.calls.1, (h.onText hw).2]
  cases q.window.lookahead <;> simp <;> omega

end Point

-- ════════════════════════════════════════════════════════════════════════
-- Reading once
-- ════════════════════════════════════════════════════════════════════════

/-- What comes of a run on a text from a point, `ts` being the tokens of the text up to its end or
    its first fault. -/
structure RunsOnce (limits : Limits) (sql : String) (ts : List Token) (p : Point)
    (result : Except ParseError Table) (q : Point) : Prop where
  /-- At every point that has been passed, what is to come is a rest of what the text gives. -/
  passed : ∀ w ∈ q.passed, w.OnText sql.toList
  /-- So it is at the end, unless the last call has found no token. -/
  last : (∃ us, p.Leads us q ∧ q.window.OnText sql.toList) ∨
    ∃ us q' e, p.Leads us q' ∧ Point.Faults q' e q ∧ result = .error e
  /-- There is at most one call more than tokens. -/
  calls_le : q.window.calls ≤ ts.length + 1
  /-- The result is that of the text if it is not too long. -/
  parse_eq : sql.utf8ByteSize ≤ limits.maxSqlLength → parse limits sql = result
  /-- A run that ends well has read all tokens and the end of the text, and holds nothing else. -/
  complete : ∀ table, result = .ok table → tokenize sql.toList = .ok ts ∧
    q.window.calls = ts.length + 1 ∧ q.window.current.kind = .endOfInput ∧
      q.window.lookahead = none

/-- How the tokens of a text are read, `ts` being those up to its end or its first fault. -/
structure ReadOnce (limits : Limits) (sql : String) (ts : List Token) : Prop where
  tokens : ∃ c, Cursor.Reads (.ofText sql.toList) ts c ∧ c.Stopped
  length_le : ts.length ≤ sql.utf8ByteSize
  /-- If the first call finds no token, there is no other call. -/
  unread : ∀ e, Window.ofText? sql.toList = .error e →
    sql.utf8ByteSize ≤ limits.maxSqlLength → parse limits sql = .error e
  /-- Else a run on the text ends. -/
  run : ∀ w, Window.ofText? sql.toList = .ok w →
    ∃ result q, createTable limits ⟨w, []⟩ = some (result, q) ∧
      RunsOnce limits sql ts ⟨w, []⟩ result q

variable {limits : Limits} {sql : String} {ts : List Token} {c : Cursor} {w : Window}
  {result : Except ParseError Table} {q : Point}

theorem parse_of_ofText?_error {e : ParseError} (h : Window.ofText? sql.toList = .error e)
    (hlength : sql.utf8ByteSize ≤ limits.maxSqlLength) : parse limits sql = .error e := by
  simp only [parse, tooLong?, if_pos hlength, h]

/-- The result of a run on a text is that of the text. -/
theorem parse_of_run (hw : Window.ofText? sql.toList = .ok w)
    (h : createTable limits ⟨w, []⟩ = some (result, q))
    (hlength : sql.utf8ByteSize ≤ limits.maxSqlLength) : parse limits sql = result := by
  have hrun := (some_run (createTable_total limits) ⟨w, []⟩).trans h
  simp only [parse, tooLong?, if_pos hlength, hw, Option.some.inj hrun]

/-- Where a run ends well, no token is looked at behind the last one. -/
theorem lookahead_of_run {table : Table} (hw : Window.ofText? sql.toList = .ok w)
    (h : createTable limits ⟨w, []⟩ = some (.ok table, q)) : q.window.lookahead = none := by
  have hreads : Reads (Statement.step limits) .start (createTable limits) := reads_createTable
  have hmeets := hreads w.current ⟨w, []⟩ (Window.of_ofText? hw).2.2 rfl
  obtain ⟨v, ⟨hlook, -⟩, -⟩ := hmeets.ok table q h
  exact hlook

/-- A run that ends well has moved past all tokens of the text. -/
theorem complete_of_run {us : List Token} {table : Table}
    (hw : Window.ofText? sql.toList = .ok w)
    (hts : Cursor.Reads (.ofText sql.toList) ts c) (hc : c.Stopped)
    (hrun : createTable limits ⟨w, []⟩ = some (.ok table, q)) (hleads : Point.Leads ⟨w, []⟩ us q)
    (hend : q.window.current.kind = .endOfInput) :
    tokenize sql.toList = .ok ts ∧ q.window.calls = ts.length + 1 ∧ q.window.lookahead = none := by
  obtain ⟨d, hreads, hnext⟩ := hleads.reads hw
  have hatEnd : d.AtEnd q.window.current := ⟨d.next.2, hnext, hend⟩
  obtain ⟨rfl, -⟩ := hts.eq_of_stopped hc hreads hatEnd.stopped
  have hlook := lookahead_of_run hw hrun
  refine ⟨tokenize_eq_ok.2 ⟨d, _, hreads, hatEnd⟩, ?_, hlook⟩
  rw [(hleads.onText hw).2, hlook]
  rfl

theorem runsOnce_of_outcome (hw : Window.ofText? sql.toList = .ok w)
    (hts : Cursor.Reads (.ofText sql.toList) ts c) (hc : c.Stopped)
    (hrun : createTable limits ⟨w, []⟩ = some (result, q))
    (houtcome : Outcome ⟨w, []⟩ (fun _ _ q => q.window.current.isEnd) result q) :
    RunsOnce limits sql ts ⟨w, []⟩ result q := by
  have hparse := parse_of_run hw hrun
  -- every point that is passed is one that has been reached
  have hpassed : ∀ {us q'}, Point.Leads ⟨w, []⟩ us q' → ∀ v ∈ q'.passed,
      v.OnText sql.toList := by
    intro us q' hleads v hv
    obtain hnil | ⟨us', q'', -, hleads', rfl⟩ := hleads.of_mem_passed hv
    · cases hnil
    · exact ⟨us', hleads'.onText hw⟩
  cases houtcome with
  | @ok table us _ hleads hend =>
    have hkind : q.window.current.kind = .endOfInput := beq_iff_eq.1 hend
    refine ⟨hpassed hleads, .inl ⟨us, hleads, us, hleads.onText hw⟩,
      hleads.calls_le hw hts hc, hparse, fun table' htable => ?_⟩
    obtain ⟨htokens, hcalls, hlook⟩ := complete_of_run hw hts hc hrun hleads hkind
    exact ⟨htokens, hcalls, hkind, hlook⟩
  | @refused e us _ hleads =>
    exact ⟨hpassed hleads, .inl ⟨us, hleads, us, hleads.onText hw⟩,
      hleads.calls_le hw hts hc, hparse, nofun⟩
  | @fault e us q' _ hleads hfaults =>
    refine ⟨fun v hv => ?_, .inr ⟨us, q', e, hleads, hfaults, rfl⟩,
      hleads.calls_le_of_faults hw hts hc hfaults, hparse, nofun⟩
    have hmem : v ∈ q'.window :: q'.passed := by cases hfaults <;> exact hv
    obtain rfl | hmem := List.mem_cons.1 hmem
    · exact ⟨us, hleads.onText hw⟩
    · exact hpassed hleads v hmem

/-- The tokens of every text are read once, through a window that loses none and reads none
    again. -/
theorem readOnce_of_text (limits : Limits) (sql : String) :
    (∀ w : Window, w.Sound) ∧
    (∀ {α : Type} (x : Parser α), IsProcedure limits x → ∀ p, ∃ result q,
      x p = some (result, q) ∧ p.ReadsOn result q) ∧
    (∀ {α β : Type} (turn : β → Parser (β ⊕ α)), IsLoop limits turn → ∀ b p,
      loop turn b = turn b >>= Sum.elim (loop turn) pure ∧
      (∀ b' q, turn b p = some (.ok (.inl b'), q) → ∃ ts, ts ≠ [] ∧ p.window.Drops ts q.window) ∧
      ∃ result q, loop turn b p = some (result, q) ∧ p.ReadsOn result q) ∧
    ∃ ts, ReadOnce limits sql ts := by
  obtain ⟨ts, c, hts, hc⟩ := Cursor.exists_reads_stopped sql.toList
  refine ⟨Window.sound, fun x hx p => hx.readsOn p, fun turn hturn b p =>
    ⟨hturn.loop_eq b, fun b' q h => hturn.drops h, hturn.ends b p⟩, ts, ⟨c, hts, hc⟩, ?_, ?_, ?_⟩
  · have hle := hts.offset_add_length_le
    have hsize := (hts.within (Cursor.within_ofText sql)).offset_add
    simp only [Cursor.ofText] at hle
    omega
  · exact fun e => parse_of_ofText?_error
  · intro w hw
    obtain ⟨result, q, hrun, houtcome⟩ := createTable_ends limits ⟨w, []⟩
    exact ⟨result, q, hrun, runsOnce_of_outcome hw hts hc hrun houtcome⟩

end CreateTable
