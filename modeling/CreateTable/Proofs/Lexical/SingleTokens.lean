import CreateTable.Proofs.Lexical.Layout

/-!
# Texts that are one token

Which texts are a token by themselves, and which of several such texts is read where they begin
alike.

## Main definitions

- `IsToken` — a text is one token of a kind, from its first byte to its last

## Main statements

- `isToken_iff` — such a text is one lexeme behind no trivia
- `isToken_of_next` — the text of every token that is read is one token
- `not_isToken_of_length_lt` — what is read is the longest token that begins there
-/

namespace CreateTable

open Lexical

/-- A text is one token of a kind, from its first byte to its last. -/
def IsToken (kind : TokenKind) (text : List Char) : Prop :=
  ∃ t, tokenize text = .ok [t] ∧ t.kind = kind ∧ t.span = ⟨0, Text.byteLength text⟩

variable {kind : TokenKind} {text : List Char} {c c' : Cursor} {t : Token}

/-- A text that is one token is one lexeme, with no trivia before it. -/
theorem isToken_iff :
    IsToken kind text ↔
      kind ≠ .endOfInput ∧ ¬Trivia.Begins text ∧ Lexeme.first text = ⟨[], text, .ok kind, []⟩ := by
  constructor
  · rintro ⟨t, ht, rfl, hspan⟩
    obtain ⟨d, e, hreads, -⟩ := tokenize_eq_ok.1 ht
    obtain _ | ⟨hnext, hkind, hnil⟩ := hreads
    cases hnil
    obtain ⟨hstart, -⟩ := Cursor.start_of_next hnext
    have htext : text = t.lead ++ (t.text ++ d.rest) := Cursor.rest_of_next hnext
    -- the token takes all bytes of the text, so none are left for what stands around it
    have hstart' : t.start = 0 := congrArg Text.Span.start hspan
    have hstop : t.stop = Text.byteLength text := congrArg Text.Span.stop hspan
    have hbytes := congrArg Text.byteLength htext
    rw [Text.byteLength_append, Text.byteLength_append] at hbytes
    rw [Token.stop, hstart'] at hstop
    have hlead : t.lead = [] := Text.eq_nil_of_byteLength (by omega)
    have hrest : d.rest = [] := Text.eq_nil_of_byteLength (by omega)
    obtain ⟨-, hbegins, -, hfirst⟩ := Lexeme.read_eq_ok (Cursor.read_of_next hnext) hkind
    rw [hlead, hrest, List.nil_append, List.append_nil] at htext
    rw [hrest, List.append_nil, ← htext] at hbegins hfirst
    exact ⟨hkind, hbegins, hfirst⟩
  · rintro ⟨hkind, hbegins, hfirst⟩
    have hread : Lexeme.read (Cursor.ofText text).rest = ⟨[], text, .ok kind, []⟩ :=
      Lexeme.read_of_first .nil hbegins hfirst
    obtain ⟨t, d, hnext, rfl, hlead, htext, hrest⟩ := Cursor.next_of_read hread
    obtain ⟨hstart, -⟩ := Cursor.start_of_next hnext
    obtain ⟨e, hend⟩ := Cursor.atEnd_of_rest hrest
    refine ⟨t, tokenize_eq_ok.2 ⟨d, e, .cons hnext hkind .nil, hend⟩, rfl, ?_⟩
    have hstart' : t.start = 0 := by simpa [hlead, Cursor.ofText] using hstart
    rw [Token.span, Token.stop, hstart', htext, Nat.zero_add]

/-- A text that is one token begins as tokens of its kind do, and is read as they are. -/
theorem IsToken.readAs (h : IsToken kind text) :
    ∃ d rest, text = d :: rest ∧ Lexeme.ReadAs d rest ⟨[], d :: rest, .ok kind, []⟩ kind := by
  obtain ⟨hkind, -, hfirst⟩ := isToken_iff.1 h
  cases text with
  | nil =>
    injection hfirst with _ _ houtcome _
    exact absurd (Except.ok.inj houtcome).symm hkind
  | cons d rest =>
    have hlexeme := Lexeme.first_cons d rest
    rw [hfirst] at hlexeme
    exact ⟨d, rest, rfl, hlexeme.readAs rfl⟩

/-- The text of a token is that token where it stands alone, or before less of what followed it. -/
theorem first_of_next (h : c.next = (.ok t, c')) (hkind : t.kind ≠ .endOfInput)
    {rest : List Char} (hrest : MayReplace c'.rest rest) :
    Lexeme.first (t.text ++ rest) = ⟨[], t.text, .ok t.kind, rest⟩ := by
  obtain ⟨-, -, hne, hfirst⟩ := Lexeme.read_eq_ok (Cursor.read_of_next h) hkind
  exact Lexeme.first_replace hfirst hne hrest

/-- The text of every token that is read is one token of the same kind. -/
theorem isToken_of_next (h : c.next = (.ok t, c')) (hkind : t.kind ≠ .endOfInput) :
    IsToken t.kind t.text := by
  have hnil : MayReplace c'.rest [] := by simp [MayReplace]
  obtain ⟨-, hbegins, hne, -⟩ := Lexeme.read_eq_ok (Cursor.read_of_next h) hkind
  have hbegins' := Trivia.not_begins_replace hbegins hne hnil
  have hfirst := first_of_next h hkind hnil
  rw [List.append_nil] at hbegins' hfirst
  exact isToken_iff.2 ⟨hkind, hbegins', hfirst⟩

theorem Lexical.Cursor.Reads.isToken {ts : List Token} (h : c.Reads ts c') :
    ∀ t ∈ ts, IsToken t.kind t.text := by
  induction h with
  | nil => simp
  | cons hnext hne _ ih =>
    rw [List.forall_mem_cons]
    exact ⟨isToken_of_next hnext hne, ih⟩

/-- What is read is the longest token that begins there. -/
theorem not_isToken_of_length_lt (h : c.next = (.ok t, c'))
    (htext : text <+: c.rest.drop t.lead.length) (hlength : t.text.length < text.length) :
    ¬IsToken kind text := by
  intro htoken
  rw [Cursor.rest_of_next h, List.drop_left] at htext
  by_cases hkind : t.kind = .endOfInput
  · -- at the end of the input nothing is left that could be longer
    rw [Cursor.append_eq_nil_of_next h hkind, List.prefix_nil] at htext
    rw [htext] at hlength
    cases hlength
  obtain ⟨more, rfl⟩ : t.text <+: text :=
    List.prefix_of_prefix_length_le (List.prefix_append _ _) htext hlength.le
  have hmore : more ≠ [] := by
    rintro rfl
    simp at hlength
  obtain ⟨tail, htail⟩ := (List.prefix_append_right_inj _).1 htext
  have hreplace : MayReplace c'.rest more := by
    rw [← htail]
    simpa using MayReplace.append hmore tail []
  -- the token ends before what is more, and the longer one behind it
  have hfirst := first_of_next h hkind hreplace
  rw [(isToken_iff.1 htoken).2.2] at hfirst
  injection hfirst with _ _ _ hnil
  exact hmore hnil.symm

end CreateTable
