import CreateTable.Proofs.Errors.Blame
import CreateTable.Proofs.Lexical.Lossless
import CreateTable.Proofs.Limits.Enforcement

/-!
# Where errors are placed

An error stands at a token of the text, at a text that is no token, or at the end, and names what
stands there. Tokens are read as they are asked for, so the first thing wrong with a text is
reported.

## Main definitions

- `ParseError.Marks` — an error at a character of a text that names what the text goes on with

## Main statements

- `error_or_refused_of_parse` — what a parse error is about
- `first_of_parse` — a parse error stands no later than the first fault of the tokens
- `located_of_parse` — a parse error marks its place
-/

namespace CreateTable

open Lexical Grammar Text

-- ════════════════════════════════════════════════════════════════════════
-- Faults of the text
-- ════════════════════════════════════════════════════════════════════════

namespace Lexical

/-- Text that is no token is not empty. -/
theorem Lexeme.text_ne_nil_of_error {text : List Char} {fault : LexicalFault}
    (h : (read text).outcome = .error fault) : (read text).text ≠ [] := by
  rcases hsplit : (Trivia.split text).2 with _ | ⟨c, rest⟩
  · simp [read, hsplit, first] at h
  · have hne := first_text_ne_nil c rest
    rwa [← hsplit] at hne

namespace Cursor

variable {sql : String} {c c' d d' : Cursor} {t u : Token} {ts us : List Token} {e : ParseError}

/-- A fault stands behind trivia and the text before it, and names a text that is not empty. -/
theorem error_of_next (h : c.next = (.error e, c')) :
    (∃ fault, e.cause = .lexical fault) ∧
      ∃ lead text rest, c.rest = lead ++ (text ++ rest) ∧ text ≠ [] ∧
        e.offset = c.offset + byteLength lead ∧ e.token = some (String.ofList text) := by
  obtain ⟨fault, houtcome, rfl, -⟩ := fault_of_next h
  exact ⟨⟨fault, rfl⟩, _, _, _, Lexeme.eq_append_of_read c.rest,
    Lexeme.text_ne_nil_of_error houtcome, rfl, rfl⟩

/-- No token stands at a place: the text is over there, or is no token. -/
def Stopped (c : Cursor) : Prop := ∀ t c', c.next = (.ok t, c') → t.kind = .endOfInput

theorem AtEnd.stopped (h : c.AtEnd t) : c.Stopped := by
  obtain ⟨c', hnext, hend⟩ := h
  intro u d hu
  obtain rfl := Except.ok.inj (congrArg Prod.fst (hnext.symm.trans hu))
  exact hend

theorem stopped_of_error (h : c.next = (.error e, c')) : c.Stopped :=
  fun _ _ ht => nomatch congrArg Prod.fst (h.symm.trans ht)

/-- Every row of tokens is a part of one that cannot go on. -/
theorem Reads.append_eq (h : Reads c ts d) (hd : d.Stopped) (h' : Reads c us d') :
    ∃ vs, ts = us ++ vs ∧ Reads d' vs d := by
  induction h' generalizing ts with
  | nil => exact ⟨ts, rfl, h⟩
  | cons hnext hne hrest ih =>
    cases h with
    | nil => exact absurd (hd _ _ hnext) hne
    | cons hnext' hne' hrest' =>
      obtain ⟨hhead, rfl⟩ := Prod.mk.inj (hnext.symm.trans hnext')
      obtain rfl := Except.ok.inj hhead
      obtain ⟨vs, rfl, hvs⟩ := ih hrest'
      exact ⟨vs, rfl, hvs⟩

/-- The same row of tokens ends at one place. -/
theorem Reads.eq_of_reads (h : Reads c ts d) (h' : Reads c ts d') : d = d' := by
  induction h with
  | nil =>
    obtain _ | _ := h'
    rfl
  | cons hnext _ _ ih =>
    obtain _ | ⟨hnext', -, hrest'⟩ := h'
    obtain rfl := congrArg Prod.snd (hnext.symm.trans hnext')
    exact ih hrest'

/-- Only one row of tokens cannot go on. -/
theorem Reads.eq_of_stopped (h : Reads c ts d) (hd : d.Stopped) (h' : Reads c us d')
    (hd' : d'.Stopped) : ts = us ∧ d = d' := by
  obtain ⟨vs, rfl, hvs⟩ := h.append_eq hd h'
  cases hvs with
  | nil => exact ⟨List.append_nil _, rfl⟩
  | cons hnext hne => exact absurd (hd' _ _ hnext) hne

/-- A token that stands behind some of the tokens is one of them, or stands where they end. -/
theorem Reads.mem_of_next {f : Cursor} (h : Reads c ts d) (hd : d.Stopped) (h' : Reads c us d')
    (ht : d'.next = (.ok t, f)) (hne : t.kind ≠ .endOfInput) : ∃ vs, ts = us ++ t :: vs := by
  obtain ⟨vs, rfl, -⟩ := h.append_eq hd (h'.append (.cons ht hne .nil))
  exact ⟨vs, by simp⟩

/-- Every token of a row ends before the row does. -/
theorem Reads.stop_le (h : Reads c ts d) : ∀ t ∈ ts, t.stop ≤ d.offset := by
  induction h with
  | nil => simp
  | cons hnext _ hrest ih =>
    rw [List.forall_mem_cons]
    refine ⟨?_, ih⟩
    rw [← (start_of_next hnext).2]
    exact hrest.offset_le

theorem Reads.within (h : Reads c ts c') (hc : Within sql c) : Within sql c' := by
  induction h with
  | nil => exact hc
  | cons hnext _ _ ih => exact ih (hc.next hnext).2

end Cursor

end Lexical

-- ════════════════════════════════════════════════════════════════════════
-- What an error is about
-- ════════════════════════════════════════════════════════════════════════

section

variable {limits : Limits} {sql : String} {e : ParseError} {before ts : List Token} {t u : Token}

/-- A token that has been read stands behind those before it. -/
theorem StandsBehind.front {rest : List Token} (h : StandsBehind sql (before ++ u :: rest) t) :
    StandsBehind sql before u := by
  obtain ⟨c, c', hreads, -⟩ := h
  obtain ⟨d, hbefore, hrest⟩ := hreads.split
  obtain _ | ⟨hnext, -, -⟩ := hrest
  exact ⟨d, _, hbefore, hnext⟩

/-- Tokens that have been read stand behind others. -/
theorem StandsBehind.of_mem (h : StandsBehind sql before t) (hu : u ∈ before ++ [t]) :
    ∃ front, StandsBehind sql front u := by
  obtain hu | hu := List.mem_append.1 hu
  · obtain ⟨front, rest, rfl⟩ := List.append_of_mem hu
    exact ⟨front, h.front⟩
  · obtain rfl := List.mem_singleton.1 hu
    exact ⟨before, h⟩

/-- Only one token stands behind a row of tokens. -/
theorem StandsBehind.eq (h : StandsBehind sql before t) (h' : StandsBehind sql before u) :
    t = u := by
  obtain ⟨c, c', hreads, hnext⟩ := h
  obtain ⟨d, d', hreads', hnext'⟩ := h'
  obtain rfl := hreads.eq_of_reads hreads'
  exact Except.ok.inj (congrArg Prod.fst (hnext.symm.trans hnext'))

/-- What a token stands behind, and what the text goes on with. -/
theorem StandsBehind.text (h : StandsBehind sql before t) :
    ∃ front after, sql.toList = front ++ (t.text ++ after) ∧ t.start = byteLength front ∧
      (t.kind = .endOfInput → t.text ++ after = []) ∧ (t.kind ≠ .endOfInput → t.text ≠ []) := by
  obtain ⟨c, c', hreads, hnext⟩ := h
  obtain ⟨⟨front, hsql, hstart⟩, -⟩ := (hreads.within (Cursor.within_ofText sql)).next hnext
  exact ⟨front, c'.rest, hsql, hstart, Cursor.append_eq_nil_of_next hnext,
    Cursor.text_ne_nil_of_next hnext⟩

/-- A statement that is short enough fails where its text is no token, or where a token is
    refused. -/
theorem error_or_refused_of_parse (hlength : sql.utf8ByteSize ≤ limits.maxSqlLength)
    (h : parse limits sql = .error e) :
    (∃ before c c', Cursor.Reads (.ofText sql.toList) before c ∧ c.next = (.error e, c')) ∨
      ∃ before t s, StandsBehind sql before t ∧ Takes (Statement.step limits) .start before s ∧
        Statement.step limits s t = .refused e := by
  rw [parse_of_length_le hlength] at h
  obtain ⟨before, c, s, hreads, htakes, ⟨c', hnext⟩ | ⟨t, c', hnext, hrefused⟩⟩ :=
    Reader.takes_of_runFrom_error h
  · exact .inl ⟨before, c, c', hreads, hnext⟩
  · exact .inr ⟨before, t, s, ⟨c, c', hreads, hnext⟩, htakes, hrefused⟩

/-- A token that is refused is the one offered or has been taken before. -/
theorem blamed_of_refused {s : Statement.State}
    (htakes : Takes (Statement.step limits) .start before s)
    (h : Statement.step limits s t = .refused e) :
    ∃ u cause, u ∈ before ++ [t] ∧ cause.Fits u ∧ e = u.error cause := by
  obtain ⟨u, cause, hblamed, rfl⟩ := (Statement.step_blames limits s t).blamed_of_refused h
  obtain ⟨hmem, hfits⟩ := Statement.mem_of_blamed htakes hblamed
  exact ⟨u, cause, hmem, hfits, rfl⟩

-- ════════════════════════════════════════════════════════════════════════
-- The first fault
-- ════════════════════════════════════════════════════════════════════════

/-- The tokens before the first fault of a text. -/
theorem reads_of_tokenize_error {text : List Char} (h : tokenize text = .error e) :
    ∃ ts c c', Cursor.Reads (.ofText text) ts c ∧ c.next = (.error e, c') := by
  obtain ⟨ts, c, taken, hreads, -, ⟨c', hnext⟩ | ⟨t, c', -, hrefused⟩⟩ :=
    Reader.takes_of_runFrom_error h
  · exact ⟨ts, c, c', hreads, hnext⟩
  · -- every token is collected
    simp only [Token.collector] at hrefused
    split at hrefused <;> cases hrefused

/-- What is parsed has tokens. -/
theorem tokenize_of_parse {table : Table} (h : parse limits sql = .ok table) :
    ∃ ts, tokenize sql.toList = .ok ts := by
  obtain ⟨-, hrun⟩ := parse_eq_ok.1 h
  obtain ⟨ts, -, htokens, -⟩ := statementReader_run_eq_ok.1 hrun
  exact ⟨ts, htokens⟩

/-- A text that has a fault is not parsed, and the error is the fault or stands before it. -/
theorem error_of_tokenize_error (hlength : sql.utf8ByteSize ≤ limits.maxSqlLength)
    (h : tokenize sql.toList = .error e) :
    ∃ e', parse limits sql = .error e' ∧ (e' = e ∨ e'.offset < e.offset) := by
  cases hparse : parse limits sql with
  | ok table =>
    obtain ⟨ts, htokens⟩ := tokenize_of_parse hparse
    cases h.symm.trans htokens
  | error e' =>
    refine ⟨e', rfl, ?_⟩
    obtain ⟨ts, c, c', hts, hfault⟩ := reads_of_tokenize_error h
    have hstopped := Cursor.stopped_of_error hfault
    obtain ⟨before, d, d', hbefore, hnext⟩ | ⟨before, t, s, ht, htakes, hrefused⟩ :=
      error_or_refused_of_parse hlength hparse
    · obtain ⟨-, rfl⟩ := hts.eq_of_stopped hstopped hbefore (Cursor.stopped_of_error hnext)
      exact .inl (Except.error.inj (congrArg Prod.fst (hnext.symm.trans hfault)))
    · refine .inr ?_
      obtain ⟨u, cause, hu, -, rfl⟩ := blamed_of_refused htakes hrefused
      obtain ⟨d, d', hbefore, hnext⟩ := ht
      have hne : t.kind ≠ .endOfInput := by
        intro hend
        have hover : d.AtEnd t := ⟨d', hnext, hend⟩
        obtain ⟨-, rfl⟩ := hts.eq_of_stopped hstopped hbefore hover.stopped
        cases congrArg Prod.fst (hfault.symm.trans hnext)
      obtain ⟨vs, rfl⟩ := hts.mem_of_next hstopped hbefore hnext hne
      have hmem : u ∈ before ++ t :: vs := by
        rw [List.append_cons]
        exact List.mem_append_left _ hu
      -- the token has at least one byte, and the fault stands behind it
      have hlt := Token.start_lt_stop (hts.laidOut.text_ne_nil u hmem)
      have hle := hts.stop_le u hmem
      obtain ⟨-, lead, text, rest, -, -, hoffset, -⟩ := Cursor.error_of_next hfault
      show u.start < e.offset
      omega

/-- In a text without a fault a token is refused, or the end of the text. -/
theorem refused_of_tokenize (hlength : sql.utf8ByteSize ≤ limits.maxSqlLength)
    (htokens : tokenize sql.toList = .ok ts) (h : parse limits sql = .error e) :
    ∃ before t s, StandsBehind sql before t ∧ Takes (Statement.step limits) .start before s ∧
      Statement.step limits s t = .refused e := by
  obtain ⟨before, c, c', hbefore, hnext⟩ | hrefused := error_or_refused_of_parse hlength h
  · obtain ⟨d, last, hts, hend⟩ := tokenize_eq_ok.1 htokens
    obtain ⟨-, rfl⟩ :=
      hts.eq_of_stopped hend.stopped hbefore (Cursor.stopped_of_error hnext)
    obtain ⟨d', hlast, -⟩ := hend
    cases congrArg Prod.fst (hlast.symm.trans hnext)
  · exact hrefused

/-- A token that stands in a text without a fault is one of its tokens, or the end of the text. -/
theorem StandsBehind.mem_of_tokenize (h : StandsBehind sql before t)
    (htokens : tokenize sql.toList = .ok ts) (hne : t.kind ≠ .endOfInput) :
    ∃ vs, ts = before ++ t :: vs := by
  obtain ⟨c, c', hbefore, hnext⟩ := h
  obtain ⟨d, last, hts, hend⟩ := tokenize_eq_ok.1 htokens
  exact hts.mem_of_next hend.stopped hbefore hnext hne

/-- Each token of a text stands behind those before it. -/
theorem standsBehind_of_tokenize {rest : List Token}
    (h : tokenize sql.toList = .ok (before ++ t :: rest)) : StandsBehind sql before t := by
  obtain ⟨c, last, hts, -⟩ := tokenize_eq_ok.1 h
  obtain ⟨d, hbefore, hrest⟩ := hts.split
  obtain _ | ⟨hnext, -, -⟩ := hrest
  exact ⟨d, _, hbefore, hnext⟩

/-- The end of a text stands where the text ends, and nothing else does. -/
theorem StandsBehind.start_eq_iff (h : StandsBehind sql before t) :
    t.start = sql.utf8ByteSize ↔ t.kind = .endOfInput := by
  obtain ⟨front, after, hsql, hstart, hend, hne⟩ := h.text
  rw [hstart, ← byteLength_toList, hsql, byteLength_append]
  constructor
  · intro hsize
    by_contra hkind
    have hpos := byteLength_pos (hne hkind)
    rw [byteLength_append] at hsize
    omega
  · intro hkind
    rw [hend hkind, byteLength_nil, Nat.add_zero]

/-- The first thing wrong with a text is reported. If some of it is no token, the text is not
    parsed, and the error is the first such fault or stands before it. If all of it is tokens, the
    error is of another sort, and stands at a token or at the end of the text. -/
theorem first_fault_of_parse (hlength : sql.utf8ByteSize ≤ limits.maxSqlLength) :
    (∀ e, tokenize sql.toList = .error e →
      ∃ e', parse limits sql = .error e' ∧ (e' = e ∨ e'.offset < e.offset)) ∧
    (∀ table, parse limits sql = .ok table → ∃ ts, tokenize sql.toList = .ok ts) ∧
    ∀ ts e, tokenize sql.toList = .ok ts → parse limits sql = .error e →
      (∀ fault, e.cause ≠ .lexical fault) ∧
        ((∃ t ∈ ts, e.offset = t.start) ∨ e.offset = sql.utf8ByteSize) := by
  refine ⟨fun e => error_of_tokenize_error hlength, fun table => tokenize_of_parse, ?_⟩
  intro ts e htokens h
  obtain ⟨before, t, s, ht, htakes, hrefused⟩ := refused_of_tokenize hlength htokens h
  obtain ⟨u, cause, hu, hfits, rfl⟩ := blamed_of_refused htakes hrefused
  obtain ⟨front, hfront⟩ := ht.of_mem hu
  refine ⟨hfits.grammatical, ?_⟩
  by_cases hend : u.kind = .endOfInput
  · exact .inr (hfront.start_eq_iff.2 hend)
  · obtain ⟨vs, rfl⟩ := hfront.mem_of_tokenize htokens hend
    exact .inl ⟨u, by simp, rfl⟩

/-- A string is left open, and a word before it is refused. -/
theorem first_fault_of_parse_view :
    ∃ e e', tokenize "CREATE VIEW 'x".toList = .error e ∧ e.offset = 12 ∧
      parse {} "CREATE VIEW 'x" = .error e' ∧ (e' = e ∨ e'.offset < e.offset) := by
  have hfault : error? (tokenize "CREATE VIEW 'x".toList) =
      some { cause := .lexical (.unterminated .single), offset := 12, token := some "'x" } := by
    decide +kernel
  have htokens := eq_error_of_error? hfault
  obtain ⟨horder, -, -⟩ := @first_fault_of_parse {} "CREATE VIEW 'x" (by decide +kernel)
  obtain ⟨e', hparse, hfirst⟩ := horder _ htokens
  exact ⟨_, e', htokens, rfl, hparse, hfirst⟩

-- ════════════════════════════════════════════════════════════════════════
-- The place of an error
-- ════════════════════════════════════════════════════════════════════════

/-- An error at a character of a text, or at its end, that names what the text goes on with. -/
structure ParseError.Marks (sql : String) (e : ParseError) : Prop where
  /-- The error is placed in the text. -/
  inside : e.offset ≤ sql.utf8ByteSize
  /-- No character is cut. -/
  boundary : IsBoundary sql.toList e.offset
  /-- What is named is not empty, and the text goes on with it. -/
  text : ∀ s, e.token = some s → s ≠ "" ∧
    ∃ front after, sql.toList = front ++ (s.toList ++ after) ∧ byteLength front = e.offset
  /-- If all of the text is tokens, just one of them begins at the place, and it is named. -/
  token : ∀ s ts, e.token = some s → tokenize sql.toList = .ok ts →
    (∃! t, t ∈ ts ∧ t.start = e.offset) ∧ ∀ t ∈ ts, t.start = e.offset → t.source = s
  /-- Nothing is named at the end of the text only, unless a limit is exceeded. -/
  ending : e.cause.kind ≠ .exhausted → (e.token = none ↔ e.offset = sql.utf8ByteSize)
  /-- What the grammar leaves out is named. -/
  present : e.cause.kind = .unsupported → ∃ s, e.token = some s

/-- Two tokens of a text that begin at one place are the same. -/
theorem StandsBehind.existsUnique (h : StandsBehind sql before t)
    (htokens : tokenize sql.toList = .ok ts) (hne : t.kind ≠ .endOfInput) :
    t ∈ ts ∧ ∀ u ∈ ts, u.start = t.start → u = t := by
  obtain ⟨vs, rfl⟩ := h.mem_of_tokenize htokens hne
  refine ⟨by simp, fun u hu hstart => ?_⟩
  obtain ⟨c, last, hts, c', hlast, -⟩ := tokenize_eq_ok.1 htokens
  obtain ⟨front, hfront⟩ := StandsBehind.of_mem ⟨c, c', hts, hlast⟩ (List.mem_append_left _ hu)
  exact (hfront.eq_of_start_eq h hstart).2

/-- An error at a token marks its place. -/
theorem StandsBehind.marks {cause : Cause} (h : StandsBehind sql before t) (hcause : cause.Fits t) :
    (t.error cause).Marks sql := by
  obtain ⟨front, after, hsql, hstart, hend, hne⟩ := h.text
  have hboundary : IsBoundary sql.toList t.start := ⟨front, _, hsql, hstart.symm⟩
  have htext : t.text = [] ↔ t.kind = .endOfInput := by
    constructor
    · intro hnil
      by_contra hkind
      exact hne hkind hnil
    · intro hkind
      exact (List.append_eq_nil_iff.1 (hend hkind)).1
  have htoken : ∀ s, (t.error cause).token = some s → t.text ≠ [] ∧ s = t.source := by
    intro s hs
    simp only [Token.error] at hs
    split at hs
    · cases hs
    · rename_i hnil
      exact ⟨fun h => hnil (List.isEmpty_iff.2 h), (Option.some.inj hs).symm⟩
  have hnone : (t.error cause).token = none ↔ t.kind = .endOfInput := by
    rw [← htext, ← List.isEmpty_iff]
    simp only [Token.error]
    split <;> simp [*]
  exact
    { inside := by
        rw [← byteLength_toList]
        exact hboundary.le_byteLength
      boundary := hboundary
      text := fun s hs => by
        obtain ⟨hnil, rfl⟩ := htoken s hs
        refine ⟨fun hempty => hnil ?_, front, after, ?_, hstart.symm⟩
        · have hlist := congrArg String.toList hempty
          rwa [Token.source, String.toList_ofList] at hlist
        · rw [Token.source, String.toList_ofList]
          exact hsql
      token := fun s ts hs htokens => by
        obtain ⟨hnil, rfl⟩ := htoken s hs
        obtain ⟨hmem, hunique⟩ := h.existsUnique htokens (fun hkind => hnil (htext.2 hkind))
        refine ⟨⟨t, ⟨hmem, rfl⟩, fun u hu => hunique u hu.1 hu.2⟩, fun u hu hoffset => ?_⟩
        rw [hunique u hu hoffset]
      ending := fun _ => hnone.trans h.start_eq_iff.symm
      present := fun hkind => Option.ne_none_iff_exists'.1 fun hs =>
        hcause.present hkind (hnone.1 hs) }

/-- An error at a text that is no token marks its place. -/
theorem Lexical.Cursor.Reads.marks {c c' : Cursor}
    (h : Cursor.Reads (.ofText sql.toList) before c) (hnext : c.next = (.error e, c')) :
    e.Marks sql := by
  obtain ⟨⟨fault, hcause⟩, lead, text, rest, hrest, hne, hoffset, htoken⟩ :=
    Cursor.error_of_next hnext
  have hwithin := (h.within (Cursor.within_ofText sql)).append hrest
  rw [← hoffset] at hwithin
  have hsize : e.offset + byteLength (text ++ rest) = sql.utf8ByteSize := hwithin.offset_add
  rw [byteLength_append] at hsize
  have hpos := byteLength_pos hne
  exact
    { inside := by
        omega
      boundary := hwithin.isBoundary
      text := fun s hs => by
        obtain rfl := Option.some.inj (htoken.symm.trans hs)
        obtain ⟨front, hsql, hfront⟩ := hwithin
        refine ⟨fun hempty => hne ?_, front, rest, ?_, hfront.symm⟩
        · have hlist := congrArg String.toList hempty
          rwa [String.toList_ofList] at hlist
        · rw [String.toList_ofList]
          exact hsql
      token := fun s ts _ htokens => by
        -- a text with a fault has no tokens
        obtain ⟨d, last, hts, hend⟩ := tokenize_eq_ok.1 htokens
        obtain ⟨-, rfl⟩ := hts.eq_of_stopped hend.stopped h (Cursor.stopped_of_error hnext)
        obtain ⟨d', hlast, -⟩ := hend
        cases congrArg Prod.fst (hlast.symm.trans hnext)
      ending := fun _ => by
        rw [htoken]
        constructor
        · nofun
        · intro hoffset
          omega
      present := fun _ => ⟨_, htoken⟩ }

/-- Every error of a parse marks its place. -/
theorem marks_of_parse (h : parse limits sql = .error e) : e.Marks sql := by
  by_cases hlength : sql.utf8ByteSize ≤ limits.maxSqlLength
  · obtain ⟨before, c, c', hbefore, hnext⟩ | ⟨before, t, s, ht, htakes, hrefused⟩ :=
      error_or_refused_of_parse hlength h
    · exact hbefore.marks hnext
    · obtain ⟨u, cause, hu, hfits, rfl⟩ := blamed_of_refused htakes hrefused
      obtain ⟨front, hfront⟩ := ht.of_mem hu
      exact hfront.marks hfits
  · -- a text that is too long is cut at a character, and nothing is named
    rw [parse_of_lt_length (Nat.not_le.1 hlength)] at h
    obtain rfl := Except.error.inj h
    obtain ⟨⟨hboundary, -⟩, -⟩ := isGreatest_splitAtByte sql.toList limits.maxSqlLength
    exact
      { inside := by
          rw [← byteLength_toList]
          exact hboundary.le_byteLength
        boundary := hboundary
        text := nofun
        token := nofun
        ending := fun hkind => absurd rfl hkind
        present := nofun }

/-- An expression that holds nothing, behind a name with a character of two bytes. -/
theorem marks_of_parse_empty :
    ∃ e, parse {} "CREATE TABLE é(a CHECK())" = .error e ∧ e.offset = 24 ∧ e.token = some ")" ∧
      e.Marks "CREATE TABLE é(a CHECK())" := by
  have hrefused : error? (parse {} "CREATE TABLE é(a CHECK())") =
      some { cause := .expected .expression, offset := 24, token := some ")" } := by
    rw [parse_eq_run]
    decide +kernel
  have h := eq_error_of_error? hrefused
  exact ⟨_, h, rfl, rfl, marks_of_parse h⟩

end

end CreateTable
