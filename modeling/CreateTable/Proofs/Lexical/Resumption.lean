import CreateTable.Proofs.Lexical.Bytes
import Mathlib.Data.Nat.Find

/-!
# Reading on behind faults

A reader that goes on behind faults makes progress until the text is over, and then stays there. A
fault names all of the text up to where reading goes on, so nothing is lost and nothing is read
twice: trivia, tokens and faulty texts make up the text.

## Main definitions

- `Span.Tiles` — spans that lie one behind the other
- `Cursor.skip` — the place behind the trivia at a place
- `Cursor.Resumes` — what is read at one place, and where reading goes on
- `Cursor.pieces` — the trivia that are passed over and the texts behind them
- `Cursor.Scanned` — what is read of a text, call by call

## Main statements

- `Cursor.Within.resumes` — one call
- `Cursor.tiles_pieces` — what is read lies without gap or overlap
- `scanned_of_text` — all calls
-/

namespace CreateTable

open Lexical Text

-- ════════════════════════════════════════════════════════════════════════
-- Spans in a row
-- ════════════════════════════════════════════════════════════════════════

namespace Text.Span

/-- From one offset to another, spans lie one behind the other. -/
def Tiles : Nat → List Span → Nat → Prop
  | start, [], stop => start = stop
  | start, s :: spans, stop => s.start = start ∧ s.start ≤ s.stop ∧ Tiles s.stop spans stop

variable {start middle stop : Nat} {spans more : List Span}

theorem Tiles.le (h : Tiles start spans stop) : start ≤ stop := by
  induction spans generalizing start with
  | nil => exact le_of_eq h
  | cons s spans ih =>
    obtain ⟨rfl, hle, hrest⟩ := h
    exact hle.trans (ih hrest)

theorem Tiles.append (h : Tiles start spans middle) (h' : Tiles middle more stop) :
    Tiles start (spans ++ more) stop := by
  induction spans generalizing start with
  | nil =>
    obtain rfl := h
    exact h'
  | cons s spans ih =>
    obtain ⟨hstart, hle, hrest⟩ := h
    exact ⟨hstart, hle, ih hrest⟩

/-- Every byte between the two offsets is in one of the spans, and no other byte is. -/
theorem Tiles.countP_holds (h : Tiles start spans stop) (byte : Nat) :
    spans.countP (·.holds byte) = if start ≤ byte ∧ byte < stop then 1 else 0 := by
  induction spans generalizing start with
  | nil =>
    obtain rfl := h
    rw [List.countP_nil, if_neg (by omega)]
  | cons s spans ih =>
    obtain ⟨rfl, hle, hrest⟩ := h
    have hlater := hrest.le
    rw [List.countP_cons, ih hrest]
    simp only [holds_iff]
    -- the byte is before the span, in it, or behind it
    split <;> split <;> split <;> omega

end Text.Span

namespace Lexical.Cursor

variable {sql : String} {c c' : Cursor} {t : Token} {e : ParseError}

-- ════════════════════════════════════════════════════════════════════════
-- One call
-- ════════════════════════════════════════════════════════════════════════

/-- The place behind the trivia at a place. -/
def skip (c : Cursor) : Cursor :=
  ⟨c.offset + byteLength (Trivia.split c.rest).1, (Trivia.split c.rest).2⟩

/-- A fault at a place, behind which reading goes on at another. -/
structure Misread (sql : String) (c c' : Cursor) (e : ParseError) : Prop where
  kind : e.cause.kind = .malformed
  /-- The text at fault reaches to where reading goes on. -/
  text : ∃ text, e.token = some text ∧ (Span.mk e.offset c'.offset).slice? sql = some text
  /-- It begins behind the trivia. -/
  place : e.cause ≠ .lexical .unterminatedBlob → e.offset = c.skip.offset
  /-- In a blob that is left open, it begins at the quote and behind the letter. -/
  blob : e.cause = .lexical .unterminatedBlob → e.offset = c.skip.offset + 1 ∧
    (∃ letter, (letter = 'x' ∨ letter = 'X') ∧
      (Span.mk c.skip.offset e.offset).slice? sql = some (String.ofList [letter])) ∧
    ∃ text, e.token = some text ∧ text.toList.head? = some Quote.single.opening

/-- What is read at one place of a text, and where reading goes on. -/
structure Resumes (sql : String) (c : Cursor) : Prop where
  /-- Blanks and comments are passed over, of which only the last one of the text may be open. -/
  skipped : ∃ trivia, (Span.mk c.offset c.skip.offset).slice? sql = some trivia ∧
    Trivia.Gap c.skip.rest.isEmpty trivia.toList
  /-- No blanks or comments are left. -/
  exhausted : ¬Trivia.Begins c.skip.rest
  /-- A token is the text from there to where reading goes on. -/
  token : ∀ t c', c.next = (.ok t, c') →
    t.span = ⟨c.skip.offset, c'.offset⟩ ∧ t.span.slice? sql = some t.source
  fault : ∀ e c', c.next = (.error e, c') → Misread sql c c' e
  /-- Only the end of the text is no progress. -/
  progress : (∀ t c', c.next = (.ok t, c') → t.kind ≠ .endOfInput) → c.offset < c.next.2.offset

theorem rest_eq_skip (c : Cursor) : c.rest = (Trivia.split c.rest).1 ++ c.skip.rest :=
  (Trivia.split_append c.rest).symm

theorem Within.skip (h : Within sql c) : Within sql c.skip := h.append c.rest_eq_skip

theorem not_begins_skip (c : Cursor) : ¬Trivia.Begins c.skip.rest := by
  by_cases hnil : c.skip.rest = []
  · rw [hnil]
    exact Trivia.not_begins_nil
  · have hsplit : Trivia.split c.rest = ((Trivia.split c.rest).1, c.skip.rest) := rfl
    exact (Trivia.closed_of_split hsplit hnil).2

/-- What is read at a place is the lexeme behind the trivia there. -/
theorem read_eq_first (c : Cursor) :
    Lexeme.read c.rest = { Lexeme.first c.skip.rest with
      lead := (Trivia.split c.rest).1 ++ (Lexeme.first c.skip.rest).lead } := rfl

/-- Reading goes on behind the lexeme. -/
theorem next_offset (c : Cursor) :
    c.next.2.offset = c.skip.offset + byteLength (Lexeme.first c.skip.rest).lead +
      byteLength (Lexeme.first c.skip.rest).text := by
  show c.offset + byteLength ((Trivia.split c.rest).1 ++ (Lexeme.first c.skip.rest).lead) +
    byteLength (Lexeme.first c.skip.rest).text = _
  rw [byteLength_append, ← Nat.add_assoc]
  rfl

/-- Behind the trivia the text is over. -/
theorem next_of_skip_nil (h : c.skip.rest = []) :
    c.next = (.ok ⟨.endOfInput, (Trivia.split c.rest).1, [], c.skip.offset⟩,
      ⟨c.skip.offset, []⟩) := by
  have hread := c.read_eq_first
  rw [h] at hread
  simp only [next, hread, Lexeme.first, List.append_nil]
  rfl

/-- Behind the trivia something is read. -/
theorem skip_offset_lt (h : c.skip.rest ≠ []) : c.skip.offset < c.next.2.offset := by
  obtain ⟨d, rest, hrest⟩ := List.exists_cons_of_ne_nil h
  have hpos := byteLength_pos (Lexeme.first_text_ne_nil d rest)
  rw [next_offset, hrest]
  omega

theorem kind_ne_endOfInput_of_skip (h : c.skip.rest ≠ []) (hnext : c.next = (.ok t, c')) :
    t.kind ≠ .endOfInput := by
  intro hkind
  have hsplit := Lexeme.split_of_read (read_of_next hnext)
  rw [append_eq_nil_of_next hnext hkind] at hsplit
  exact h (congrArg Prod.snd hsplit)

theorem offset_le_skip (c : Cursor) : c.offset ≤ c.skip.offset := Nat.le_add_right _ _

theorem skip_offset_le (c : Cursor) : c.skip.offset ≤ c.next.2.offset := by
  rw [next_offset]
  omega

/-- A fault is the lexeme behind the trivia, from its own text on. -/
theorem error_eq_of_next (hnext : c.next = (.error e, c')) :
    ∃ fault, (Lexeme.first c.skip.rest).outcome = .error fault ∧
      e = ⟨.lexical fault, c.skip.offset + byteLength (Lexeme.first c.skip.rest).lead,
        some (String.ofList (Lexeme.first c.skip.rest).text)⟩ := by
  obtain ⟨fault, houtcome, rfl, -⟩ := fault_of_next hnext
  refine ⟨fault, houtcome, ?_⟩
  rw [c.read_eq_first, byteLength_append, ← Nat.add_assoc]
  rfl

theorem Within.misread (h : Within sql c) (hnext : c.next = (.error e, c')) :
    Misread sql c c' e := by
  obtain ⟨fault, houtcome, rfl⟩ := error_eq_of_next hnext
  have hstop := c.next_offset
  rw [hnext] at hstop
  generalize hl : Lexeme.first c.skip.rest = l at *
  have hall : c.skip.rest = l.lead ++ (l.text ++ l.rest) := by
    rw [← List.append_assoc, ← Lexeme.all, ← hl, Lexeme.all_first]
  have htext : (Span.mk (c.skip.offset + byteLength l.lead) c'.offset).slice? sql =
      some (String.ofList l.text) := (h.skip.append hall).slice? rfl rfl hstop
  obtain ⟨d, rest, hrest⟩ : ∃ d rest, c.skip.rest = d :: rest := by
    refine List.exists_cons_of_ne_nil fun hnil => ?_
    rw [next_of_skip_nil hnil] at hnext
    cases hnext
  have hfirst : Lexeme.First d rest l := by
    rw [← hl, hrest]
    exact Lexeme.first_cons d rest
  -- only the letter of a blob that is left open stands between the trivia and the text at fault
  obtain ⟨hlead, hfault⟩ | ⟨⟨hletter, hquote⟩, rfl⟩ := hfirst.lead_or_blob
  · refine ⟨rfl, ⟨_, rfl, htext⟩, fun _ => ?_, fun hcause => ?_⟩
    · rw [hlead]
      rfl
    · obtain rfl := Cause.lexical.inj hcause
      exact absurd houtcome hfault
  · obtain rfl := Except.error.inj houtcome
    have hsize : byteLength [d] = 1 := by obtain rfl | rfl := hletter <;> decide
    refine ⟨rfl, ⟨_, rfl, htext⟩, fun hcause => absurd rfl hcause, fun _ => ⟨?_, ?_, ?_⟩⟩
    · rw [hsize]
    · exact ⟨d, hletter, h.skip.slice? (hall.trans (List.append_assoc ..).symm) rfl rfl⟩
    · exact ⟨_, rfl, by simpa using hquote⟩

/-- At every place of a text, reading goes on behind what is read there. -/
theorem Within.resumes (h : Within sql c) : Resumes sql c where
  skipped := by
    refine ⟨_, h.slice? c.rest_eq_skip rfl rfl, ?_⟩
    rw [String.toList_ofList]
    exact Trivia.gap_of_split rfl
  exhausted := c.not_begins_skip
  token t c' hnext := by
    obtain ⟨hstart, hstop⟩ := start_of_next hnext
    have hlead : t.lead = (Trivia.split c.rest).1 := by
      rw [Lexeme.split_of_read (read_of_next hnext)]
    refine ⟨?_, (h.next hnext).1.slice? rfl rfl rfl⟩
    rw [Token.span, hstart, hstop, hlead]
    rfl
  fault e c' hnext := h.misread hnext
  progress hend := by
    refine c.offset_le_skip.trans_lt (skip_offset_lt fun hnil => ?_)
    exact hend _ _ (next_of_skip_nil hnil) rfl

-- ════════════════════════════════════════════════════════════════════════
-- All calls
-- ════════════════════════════════════════════════════════════════════════

variable {n : Nat}

/-- The trivia that `n` calls pass over, and behind each of them the text that is read. -/
def pieces (c : Cursor) (n : Nat) : List Span :=
  (List.range n).flatMap fun i =>
    [⟨(c.behind i).offset, (c.behind i).skip.offset⟩,
      ⟨(c.behind i).skip.offset, (c.behind (i + 1)).offset⟩]

/-- What is read lies without gap or overlap. -/
theorem tiles_pieces (c : Cursor) (n : Nat) :
    Span.Tiles c.offset (c.pieces n) (c.behind n).offset := by
  induction n with
  | zero => rfl
  | succ n ih =>
    rw [pieces, List.range_succ, List.flatMap_append, List.flatMap_singleton]
    refine ih.append ⟨rfl, offset_le_skip _, rfl, ?_, rfl⟩
    rw [behind_succ]
    exact skip_offset_le _

/-- Each call goes on where the one before it stopped. -/
theorem scan_eq_map (n : Nat) (c : Cursor) :
    c.scan n = (List.range n).map fun i => (c.behind i).next.1 := by
  have hgo : ∀ taken c, scan.go taken c n =
      taken.reverse ++ (List.range n).map fun i => (c.behind i).next.1 := by
    induction n with
    | zero =>
      intro taken c
      simp [scan.go]
    | succ n ih =>
      intro taken c
      rw [scan.go, ih, List.range_succ_eq_map, List.map_cons, List.map_map, List.reverse_cons,
        List.append_assoc]
      rfl
  exact hgo [] c

/-- As long as the text is not over, each call leads at least one byte on. -/
theorem offset_add_le_behind (h : ∀ i < n, (c.behind i).skip.rest ≠ []) :
    c.offset + n ≤ (c.behind n).offset := by
  induction n with
  | zero => exact le_rfl
  | succ n ih =>
    have hbehind := ih fun i hi => h i (hi.trans n.lt_succ_self)
    have hlt := skip_offset_lt (h n n.lt_succ_self)
    have hle := offset_le_skip (c.behind n)
    rw [behind_succ]
    omega

/-- No more calls than bytes are made before the text is over. -/
theorem Within.exists_over (h : Within sql c) :
    ∃ k, c.offset + k ≤ sql.utf8ByteSize ∧ (∀ i < k, (c.behind i).skip.rest ≠ []) ∧
      (c.behind k).skip.rest = [] := by
  have hover : ∃ k, (c.behind k).skip.rest = [] := by
    by_contra hnone
    have hle := offset_add_le_behind (n := sql.utf8ByteSize + 1) (c := c)
      fun i _ hi => hnone ⟨i, hi⟩
    have hend := (h.behind (sql.utf8ByteSize + 1)).offset_add
    omega
  refine ⟨Nat.find hover, ?_, fun i hi => Nat.find_min hover hi, Nat.find_spec hover⟩
  have hle := offset_add_le_behind (c := c) fun i hi => Nat.find_min hover hi
  have hend := (h.behind (Nat.find hover)).offset_add
  omega

/-- Where only trivia are left, the end of the text is read. -/
theorem Within.next_over (h : Within sql c) (hover : c.skip.rest = []) :
    c.next = (.ok ⟨.endOfInput, (Trivia.split c.rest).1, [], sql.utf8ByteSize⟩,
      ⟨sql.utf8ByteSize, []⟩) := by
  have hoffset : c.skip.offset = sql.utf8ByteSize := by
    rw [← h.skip.offset_add, hover]
    rfl
  rw [next_of_skip_nil hover, hoffset]

/-- Where the text is over, it stays so. -/
theorem Within.behind_over (h : Within sql c) (hover : c.skip.rest = []) (n : Nat) :
    c.behind (n + 1) = ⟨sql.utf8ByteSize, []⟩ := by
  induction n with
  | zero => exact congrArg Prod.snd (h.next_over hover)
  | succ n ih =>
    rw [behind_succ, ih]
    rfl

/-- What is read of a text, call by call, if the text is over behind `k` of them. -/
structure Scanned (sql : String) (k : Nat) : Prop where
  /-- The results are those at the places where the calls before them stopped. -/
  results : ∀ n, (ofText sql.toList).scan n =
    (List.range n).map fun i => ((ofText sql.toList).behind i).next.1
  resumes : ∀ i, Resumes sql ((ofText sql.toList).behind i)
  /-- The first `k` calls give tokens and faults. -/
  before : ∀ i < k, ∀ t c', ((ofText sql.toList).behind i).next = (.ok t, c') →
    t.kind ≠ .endOfInput
  /-- All others give the end of the text, before which only the first passes over trivia. -/
  ending : ∀ i, k ≤ i → ∃ lead, ((ofText sql.toList).behind i).next =
    (.ok ⟨.endOfInput, lead, [], sql.utf8ByteSize⟩, ⟨sql.utf8ByteSize, []⟩) ∧ (k < i → lead = [])
  /-- What the calls read lies one behind the other. -/
  tiles : ∀ n, Span.Tiles 0 ((ofText sql.toList).pieces n) ((ofText sql.toList).behind n).offset
  /-- No byte before the place that is reached is read twice or not at all. -/
  bytes : ∀ n byte, ((ofText sql.toList).pieces n).countP (·.holds byte) =
    if byte < ((ofText sql.toList).behind n).offset then 1 else 0
  /-- One more call than `k` reaches the end of the text. -/
  covers : ∀ n, k < n → ((ofText sql.toList).behind n).offset = sql.utf8ByteSize

end Lexical.Cursor

open Lexical.Cursor

/-- Reading goes on behind faults, makes progress with every call until the text is over, and misses
    nothing of it. -/
theorem scanned_of_text (sql : String) : ∃ k ≤ sql.utf8ByteSize, Scanned sql k := by
  have hwithin := within_ofText sql
  obtain ⟨k, hk, hbefore, hover⟩ := hwithin.exists_over
  have hend : ∀ i, k < i → (ofText sql.toList).behind i = ⟨sql.utf8ByteSize, []⟩ := by
    intro i hi
    obtain ⟨n, rfl⟩ := Nat.exists_eq_add_of_lt hi
    have hbehind := (hwithin.behind k).behind_over hover n
    rwa [behind, behind, ← Function.iterate_add_apply, Nat.add_comm, ← Nat.add_assoc] at hbehind
  have htiles := tiles_pieces (ofText sql.toList)
  refine ⟨k, by simpa [ofText] using hk, ?_⟩
  exact
    { results := fun n => scan_eq_map n _
      resumes := fun i => (hwithin.behind i).resumes
      before := fun i hi t c' hnext => kind_ne_endOfInput_of_skip (hbefore i hi) hnext
      ending := by
        intro i hi
        obtain rfl | hlt := hi.eq_or_lt
        · exact ⟨_, (hwithin.behind k).next_over hover, fun hlt => absurd hlt (lt_irrefl k)⟩
        · rw [hend i hlt]
          exact ⟨[], rfl, fun _ => rfl⟩
      tiles := htiles
      bytes := fun n byte => ((htiles n).countP_holds byte).trans
        (if_congr (and_iff_right (Nat.zero_le byte)) rfl rfl)
      covers := fun n hn => by rw [hend n hn] }

/-- An exponent without digits, and behind a comment a blob that is left open: its letter is no part
    of the text at fault, and belongs to the piece. -/
example : ((ofText "1e+/**/x'0".toList).scan 3).map Except.toOption =
      [none, none, some ⟨.endOfInput, [], [], 10⟩] ∧
    (ofText "1e+/**/x'0".toList).pieces 3 =
      [⟨0, 0⟩, ⟨0, 3⟩, ⟨3, 7⟩, ⟨7, 10⟩, ⟨10, 10⟩, ⟨10, 10⟩] := by decide +kernel

end CreateTable
