import CreateTable.Proofs.Lexical.Layout

/-!
# Reading tokens loses nothing

The tokens of a text and the gaps around them make up the text: every byte of it is in one of them
and in no other.

## Main definitions

- `Token.gaps` — the spans before, between and behind tokens
- `Token.Tile` — tokens that make up a text together with the gaps around them

## Main statements

- `tile_of_tokenize` — the tokens of a text make it up
-/

namespace CreateTable

open Lexical Text

/-- Whether a byte is in a span. -/
def Text.Span.holds (s : Span) (byte : Nat) : Bool := decide (s.start ≤ byte ∧ byte < s.stop)

theorem Text.Span.holds_iff {s : Span} {byte : Nat} :
    s.holds byte = true ↔ s.start ≤ byte ∧ byte < s.stop := decide_eq_true_iff

namespace Token

/-- The spans from an offset to the first token, between neighbouring tokens, and from the last
    token to the end of the text. -/
def gaps (size : Nat) : Nat → List Token → List Span
  | n, [] => [⟨n, size⟩]
  | n, t :: ts => ⟨n, t.start⟩ :: gaps size t.stop ts

/-- Tokens that make up a text together with the gaps around them. -/
structure Tile (sql : String) (ts : List Token) : Prop where
  /-- No token is empty. -/
  nonempty : ∀ t ∈ ts, t.start < t.stop
  /-- No token begins or ends inside a character. -/
  boundaries : ∀ t ∈ ts, IsBoundary sql.toList t.start ∧ IsBoundary sql.toList t.stop
  /-- No token goes beyond the text. -/
  inside : ∀ t ∈ ts, t.stop ≤ sql.utf8ByteSize
  /-- The text of a token is what stands in its span. -/
  slices : ∀ t ∈ ts, t.span.slice? sql = some t.source
  /-- The tokens stand in their order and apart from each other. -/
  ordered : ts.Pairwise fun t u => t.stop ≤ u.start
  /-- In the gaps are blanks and comments, of which only the last one of the text may be open. -/
  trivia : ∀ before gap after, gaps sql.utf8ByteSize 0 ts = before ++ gap :: after →
    ∃ text, gap.slice? sql = some text ∧ Trivia.Gap after.isEmpty text.toList
  /-- Every byte is in one token or gap, and in no other. -/
  bytes : ∀ byte < sql.utf8ByteSize,
    (ts.map Token.span ++ gaps sql.utf8ByteSize 0 ts).countP (·.holds byte) = 1

variable {t : Token} {ts : List Token} {n size : Nat}

theorem LaidOut.text_ne_nil (h : LaidOut n ts) : ∀ t ∈ ts, t.text ≠ [] := by
  induction ts generalizing n with
  | nil => simp
  | cons t ts ih => exact List.forall_mem_cons.2 ⟨h.2.1, ih h.2.2⟩

theorem LaidOut.le_start (h : LaidOut n ts) : ∀ t ∈ ts, n ≤ t.start := by
  induction ts generalizing n with
  | nil => simp
  | cons t ts ih =>
    obtain ⟨hstart, htext, hrest⟩ := h
    have hlt := start_lt_stop htext
    rw [List.forall_mem_cons]
    refine ⟨by omega, fun u hu => ?_⟩
    have := ih hrest u hu
    omega

theorem LaidOut.pairwise (h : LaidOut n ts) : ts.Pairwise fun t u => t.stop ≤ u.start := by
  induction ts generalizing n with
  | nil => exact .nil
  | cons t ts ih => exact .cons h.2.2.le_start (ih h.2.2)

/-- From an offset on, every byte of a text is in one token or gap, and none before it is. -/
theorem LaidOut.countP_holds (h : LaidOut n ts) (hn : n ≤ size) (hsize : ∀ t ∈ ts, t.stop ≤ size)
    (byte : Nat) :
    (ts.map span ++ gaps size n ts).countP (·.holds byte) =
      if n ≤ byte ∧ byte < size then 1 else 0 := by
  induction ts generalizing n with
  | nil =>
    rw [List.map_nil, List.nil_append, gaps, List.countP_singleton]
    simp only [Span.holds_iff]
  | cons t ts ih =>
    obtain ⟨hstart, htext, hrest⟩ := h
    obtain ⟨hstop, hsize⟩ := List.forall_mem_cons.1 hsize
    have hlt := start_lt_stop htext
    have hlater := ih hrest hstop hsize
    rw [List.countP_append] at hlater
    rw [List.map_cons, gaps, List.countP_append, List.countP_cons, List.countP_cons]
    simp only [Span.holds_iff, span]
    -- the byte is before the token, in it, or behind it
    split at hlater <;> split <;> split <;> split <;> omega

end Token

namespace Lexical.Cursor

variable {sql : String} {c c' : Cursor} {t e : Token} {ts : List Token}

/-- A place in a text: a part of the text ends there, and the rest is still to be read. -/
def Within (sql : String) (c : Cursor) : Prop :=
  ∃ before, sql.toList = before ++ c.rest ∧ c.offset = byteLength before

theorem within_ofText (sql : String) : Within sql (.ofText sql.toList) := ⟨[], rfl, rfl⟩

/-- What stands behind a place is the slice there. -/
theorem Within.slice? {inside rest : List Char} {span : Span} (h : Within sql c)
    (hrest : c.rest = inside ++ rest) (hstart : span.start = c.offset)
    (hstop : span.stop = c.offset + byteLength inside) :
    span.slice? sql = some (String.ofList inside) := by
  obtain ⟨before, hsql, hoffset⟩ := h
  rw [hrest] at hsql
  rw [hoffset] at hstart hstop
  exact Span.slice?_of_append hsql hstart hstop

/-- The place behind some text that is still to be read. -/
theorem Within.append {inside rest : List Char} (h : Within sql c)
    (hrest : c.rest = inside ++ rest) : Within sql ⟨c.offset + byteLength inside, rest⟩ := by
  obtain ⟨before, hsql, hoffset⟩ := h
  refine ⟨before ++ inside, ?_, ?_⟩
  · rw [hsql, hrest, List.append_assoc]
  · rw [byteLength_append, hoffset]

theorem Within.isBoundary (h : Within sql c) : IsBoundary sql.toList c.offset := by
  obtain ⟨before, hsql, hoffset⟩ := h
  rw [hsql, hoffset]
  exact isBoundary_append _ _

/-- The place where a text ends. -/
theorem Within.offset_add (h : Within sql c) :
    c.offset + byteLength c.rest = sql.utf8ByteSize := by
  obtain ⟨before, hsql, hoffset⟩ := h
  rw [← byteLength_toList, hsql, byteLength_append, hoffset]

/-- The places before and behind a token. -/
theorem Within.next (h : Within sql c) (hnext : c.next = (.ok t, c')) :
    Within sql ⟨t.start, t.text ++ c'.rest⟩ ∧ Within sql c' := by
  obtain ⟨hstart, hstop⟩ := start_of_next hnext
  have hbefore := h.append (rest_of_next hnext)
  rw [← hstart] at hbefore
  have hbehind : Within sql ⟨t.stop, c'.rest⟩ := hbefore.append rfl
  rw [← hstop] at hbehind
  exact ⟨hbefore, hbehind⟩

/-- The end of a text stands where the text ends. -/
theorem Within.start_of_end (h : Within sql c) (hnext : c.next = (.ok t, c'))
    (ht : t.kind = .endOfInput) : t.text = [] ∧ t.start = sql.utf8ByteSize := by
  have hnil := append_eq_nil_of_next hnext ht
  refine ⟨(List.append_eq_nil_iff.1 hnil).1, ?_⟩
  have hsize := (h.next hnext).1.offset_add
  rwa [hnil] at hsize

/-- Each token that is read stands in its own span, which ends at characters. -/
theorem Reads.spans (h : Reads c ts c') (hc : Within sql c) :
    ∀ t ∈ ts, (IsBoundary sql.toList t.start ∧ IsBoundary sql.toList t.stop) ∧
      t.span.slice? sql = some t.source := by
  induction h with
  | nil => simp
  | @cons c c' _ t ts hnext _ _ ih =>
    obtain ⟨hbefore, hbehind⟩ := hc.next hnext
    rw [List.forall_mem_cons]
    refine ⟨⟨⟨hbefore.isBoundary, ?_⟩, ?_⟩, ih hbehind⟩
    · rw [← (start_of_next hnext).2]
      exact hbehind.isBoundary
    · exact hbefore.slice? rfl rfl rfl

/-- What stands in the gaps around the tokens that are read. -/
theorem Reads.gaps (h : Reads c ts c') (he : c'.AtEnd e) (hc : Within sql c) :
    ∀ before gap after,
      Token.gaps sql.utf8ByteSize c.offset ts = before ++ gap :: after →
        ∃ text, gap.slice? sql = some text ∧ Trivia.Gap after.isEmpty text.toList := by
  intro before gap after hgaps
  induction h generalizing before with
  | @nil c =>
    obtain ⟨rfl, hgap⟩ := List.append_eq_singleton_iff.1 hgaps.symm |>.resolve_right (by simp)
    obtain ⟨rfl, rfl⟩ := List.cons.inj hgap
    refine ⟨_, hc.slice? (List.append_nil _).symm rfl hc.offset_add.symm, ?_⟩
    rw [String.toList_ofList]
    exact he.gap
  | @cons c c' _ t ts hnext hne hrest ih =>
    obtain ⟨hstart, hstop⟩ := start_of_next hnext
    rw [Token.gaps, ← hstop] at hgaps
    cases before with
    | nil =>
      obtain ⟨rfl, rfl⟩ := List.cons.inj hgaps
      refine ⟨_, hc.slice? (rest_of_next hnext) rfl hstart, ?_⟩
      have hafter : (Token.gaps sql.utf8ByteSize c'.offset ts).isEmpty = false := by
        cases ts <;> rfl
      rw [hafter, String.toList_ofList]
      exact (Reads.cons hnext hne hrest).gap t (List.mem_cons_self ..)
    | cons _ before =>
      exact ih he (hc.next hnext).2 before (List.cons.inj hgaps).2

end Lexical.Cursor

/-- Tokens lie one behind the other at characters of the text, and every other byte of the text is
    a blank or part of a comment. -/
theorem tile_of_tokenize {sql : String} {ts : List Token} (h : tokenize sql.toList = .ok ts) :
    Token.Tile sql ts := by
  obtain ⟨c, e, hts, he⟩ := tokenize_eq_ok.1 h
  have hlaid : Token.LaidOut 0 ts := hts.laidOut
  have hspans := hts.spans (Cursor.within_ofText sql)
  have hinside : ∀ t ∈ ts, t.stop ≤ sql.utf8ByteSize := by
    intro t ht
    rw [← byteLength_toList]
    exact (hspans t ht).1.2.le_byteLength
  exact
    { nonempty := fun t ht => Token.start_lt_stop (hlaid.text_ne_nil t ht)
      boundaries := fun t ht => (hspans t ht).1
      inside := hinside
      slices := fun t ht => (hspans t ht).2
      ordered := hlaid.pairwise
      trivia := hts.gaps he (Cursor.within_ofText sql)
      bytes := fun byte hbyte => by
        rw [hlaid.countP_holds (Nat.zero_le _) hinside, if_pos ⟨Nat.zero_le _, hbyte⟩] }

/-- A text with a comment between its tokens and one that is left open behind them. -/
theorem tile_of_tokenize_openComment :
    ∃ ts, tokenize "a-- b\n\"é\"->1 /* c".toList = .ok ts ∧
      Token.Tile "a-- b\n\"é\"->1 /* c" ts := by
  have htokens : (tokenize "a-- b\n\"é\"->1 /* c".toList).toOption = some
      [⟨.identifier, [], ['a'], 0⟩, ⟨.quotedIdentifier "é", "-- b\n".toList, "\"é\"".toList, 6⟩,
       ⟨.operator, [], ['-', '>'], 10⟩, ⟨.number, [], ['1'], 12⟩] := by decide +kernel
  exact ⟨_, eq_ok_of_toOption htokens, tile_of_tokenize (eq_ok_of_toOption htokens)⟩

end CreateTable
