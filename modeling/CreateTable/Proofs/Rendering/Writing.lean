import CreateTable.Proofs.Lexical.Relocation
import CreateTable.Proofs.Rendering.Names

/-!
# What a text is read as

A piece of a statement is read as certain tokens behind any closed trivia and before any delimiter.
Pieces are put together in the order in which they stand.

## Main definitions

- `Writes` — a text is read as tokens with some property
- `Then` — tokens with one property, and behind them tokens with another

## Main statements

- `Writes.append` — two pieces, the second of which begins with a delimiter
- `Writes.name` — a name is read as a token that stands for it
- `Writes.words` — keywords with spaces before them are read as keywords
- `Writes.verbatim` — a text that is held as it was written is read as its own tokens

## Design notes

Separators stand at the beginning of pieces. A token reaches as far as it can, so what may stand
behind a piece has to be known, and what may stand before it has not.
-/

namespace CreateTable

open Lexical

variable {text more : List Char} {P Q : List Token → Prop}

/-- A text that begins with a delimiter, or is empty. -/
def Delimited (text : List Char) : Prop := ∀ c ∈ text.head?, isDelimiter c

theorem Delimited.nil : Delimited [] := by simp [Delimited]

theorem Delimited.cons {c : Char} (h : isDelimiter c) (text : List Char) :
    Delimited (c :: text) := by
  simpa [Delimited] using h

theorem Delimited.append (h : Delimited text) (h' : Delimited more) : Delimited (text ++ more) := by
  cases text with
  | nil => exact h'
  | cons c text => exact h

theorem Delimited.mayReplace (h : Delimited text) (rest : List Char) : MayReplace rest text :=
  fun c hc => .inr (h c hc)

/-- Behind closed trivia and before a delimiter, the text is read as tokens with the property.
    Closed trivia may be left behind them. -/
structure Writes (text : List Char) (P : List Token → Prop) : Prop where
  reads : ∀ {c : Cursor} {lead rest : List Char}, c.rest = lead ++ (text ++ rest) →
    Trivia.Closed lead → Delimited rest → ∃ ts c' lead', c.Reads ts c' ∧ c'.rest = lead' ++ rest ∧
      Trivia.Closed lead' ∧ P ts

/-- Tokens with one property, and behind them tokens with another. -/
def Then (P Q : List Token → Prop) (ts : List Token) : Prop :=
  ∃ us vs, ts = us ++ vs ∧ P us ∧ Q vs

/-- One token with a property. -/
def Single (p : Token → Prop) (ts : List Token) : Prop := ∃ t, ts = [t] ∧ p t

namespace Writes

theorem mono (h : Writes text P) (hPQ : ∀ ts, P ts → Q ts) : Writes text Q := by
  refine ⟨fun {c lead rest} hc hlead hrest => ?_⟩
  obtain ⟨ts, c', lead', hts, hc', hlead', hP⟩ := h.reads hc hlead hrest
  exact ⟨ts, c', lead', hts, hc', hlead', hPQ ts hP⟩

theorem nil : Writes [] (· = []) := by
  refine ⟨fun {c lead rest} hc hlead _ => ?_⟩
  exact ⟨[], c, lead, .nil, hc, hlead, rfl⟩

theorem append (h : Writes text P) (h' : Writes more Q) (hmore : Delimited more) :
    Writes (text ++ more) (Then P Q) := by
  refine ⟨fun {c lead rest} hc hlead hrest => ?_⟩
  rw [List.append_assoc] at hc
  obtain ⟨ts, c', lead', hts, hc', hlead', hP⟩ := h.reads hc hlead (hmore.append hrest)
  obtain ⟨us, c'', lead'', hus, hc'', hlead'', hQ⟩ := h'.reads hc' hlead' hrest
  exact ⟨ts ++ us, c'', lead'', hts.append hus, hc'', hlead'', ts, us, rfl, hP, hQ⟩

/-- Closed trivia before a piece change nothing. -/
theorem behind {gap : List Char} (h : Writes text P) (hgap : Trivia.Closed gap) :
    Writes (gap ++ text) P := by
  refine ⟨fun {c lead rest} hc hlead hrest => ?_⟩
  have hc : c.rest = (lead ++ gap) ++ (text ++ rest) := by simpa using hc
  exact h.reads hc (hlead.append hgap) hrest

/-- A space before a piece changes nothing. -/
theorem space (h : Writes text P) : Writes (' ' :: text) P := h.behind .space

/-- A token that stands alone in a text, wherever the text stands. -/
theorem single {kind : TokenKind} (h : Lexeme.first text = ⟨[], text, .ok kind, []⟩)
    (hkind : kind ≠ .endOfInput) (hbegins : ¬Trivia.Begins text) :
    Writes text (Single fun t => t.kind = kind ∧ t.text = text) := by
  refine ⟨fun {c lead rest} hc hlead hrest => ?_⟩
  have hread := Lexeme.read_of_first .nil hbegins h
  -- read alone it ends with its text, so anything may follow it that cannot prolong a lexeme
  have hreplace := Lexeme.read_replace hread hkind hlead (hrest.mayReplace [])
  rw [← hc] at hreplace
  obtain ⟨t, c', hnext, rfl, -, htext, hc'⟩ := Cursor.next_of_read hreplace
  exact ⟨[t], c', [], .cons hnext hkind .nil, hc', .nil, t, rfl, rfl, htext⟩

/-- A parenthesis or a comma before a piece. -/
theorem cons {d : Char} {kind : TokenKind} (hd : d = '(' ∨ d = ')' ∨ d = ',')
    (hp : punctuation? d = some kind) (hkind : kind ≠ .endOfInput) (h : Writes text P) :
    Writes (d :: text) (Then (Single (·.kind = kind)) P) := by
  refine ⟨fun {c lead rest} hc hlead hrest => ?_⟩
  have hfirst : ∀ tail, Lexeme.first (d :: tail) = ⟨[], [d], .ok kind, tail⟩ := by
    intro tail
    obtain rfl | rfl | rfl := hd
    all_goals
      obtain rfl := Option.some.inj hp
      rfl
  have hbegins : ∀ tail, ¬Trivia.Begins (d :: tail) := by
    intro tail
    obtain rfl | rfl | rfl := hd
    all_goals simp [Trivia.Begins, isBlank]
  have hread := Lexeme.read_of_first hlead (hbegins (text ++ rest)) (hfirst (text ++ rest))
  rw [← List.cons_append, ← hc] at hread
  obtain ⟨t, c', hnext, rfl, -, -, hc'⟩ := Cursor.next_of_read hread
  have hc' : c'.rest = [] ++ (text ++ rest) := hc'
  obtain ⟨ts, c'', lead'', hts, hc'', hlead'', hP⟩ := h.reads hc' .nil hrest
  exact ⟨t :: ts, c'', lead'', .cons hnext hkind hts, hc'', hlead'', [t], ts, rfl, ⟨t, rfl, rfl⟩,
    hP⟩

theorem leftParen (h : Writes text P) :
    Writes ('(' :: text) (Then (Single (·.kind = .leftParen)) P) :=
  h.cons (by decide) rfl (by simp)

theorem comma (h : Writes text P) : Writes (',' :: text) (Then (Single (·.kind = .comma)) P) :=
  h.cons (by decide) rfl (by simp)

theorem rightParen (h : Writes text P) :
    Writes (')' :: text) (Then (Single (·.kind = .rightParen)) P) :=
  h.cons (by decide) rfl (by simp)

/-- The text of tokens in a row is read as these tokens. -/
theorem legible {ts : List Token} (h : Legible ts) (hne : ts ≠ []) :
    Writes (Token.verbatim ts).toList (Token.Shifted ts) := by
  refine ⟨fun {c lead rest} hc hlead hrest => ?_⟩
  obtain ⟨d, d', hts⟩ := h
  obtain ⟨us, c', hus, hc', hshifted, -⟩ := hts.shift hne hlead hc (hrest.mayReplace _)
  exact ⟨us, c', [], hus, hc', .nil, hshifted⟩

/-- A text that is written as it was read is read as its own tokens. -/
theorem verbatim {s : String} {ts : List Token} (h : tokenize s.toList = .ok ts) (hne : ts ≠ [])
    (hs : Token.verbatim ts = s) : Writes s.toList (Token.Moved ts) := by
  obtain ⟨c, e, hts, -⟩ := tokenize_eq_ok.1 h
  rw [← hs]
  exact (legible ⟨_, _, hts⟩ hne).mono fun _ => Token.Shifted.moved

end Writes

-- ════════════════════════════════════════════════════════════════════════
-- Words
-- ════════════════════════════════════════════════════════════════════════

/-- Clauses, each behind a space. -/
def spaced (clauses : List String) : List Char := clauses.flatMap (' ' :: ·.toList)

@[simp] theorem spaced_nil : spaced [] = [] := rfl

@[simp] theorem spaced_cons (clause : String) (clauses : List String) :
    spaced (clause :: clauses) = ' ' :: clause.toList ++ spaced clauses := rfl

@[simp] theorem spaced_append (clauses clauses' : List String) :
    spaced (clauses ++ clauses') = spaced clauses ++ spaced clauses' :=
  List.flatMap_append

theorem delimited_spaced (clauses : List String) : Delimited (spaced clauses) := by
  cases clauses with
  | nil => exact .nil
  | cons clause clauses => exact .cons (by decide) _

theorem toList_renderClauses_cons (clause : String) (clauses : List String) :
    (renderClauses (clause :: clauses)).toList = clause.toList ++ spaced clauses := by
  unfold renderClauses
  induction clauses generalizing clause with
  | nil => simp
  | cons next clauses ih =>
    rw [String.intercalate_cons_cons, String.toList_append, String.toList_append, ih]
    simp

namespace Writes

theorem keyword (k : Keyword) :
    Writes k.spelling.toList (Single (·.kind = .keyword k)) := by
  have hfirst : Lexeme.first k.spelling.toList = ⟨[], k.spelling.toList, .ok (.keyword k), []⟩ := by
    cases k <;> rfl
  have hbegins : ¬Trivia.Begins k.spelling.toList := by
    cases k <;> simp [Keyword.spelling, Trivia.Begins, isBlank]
  refine (single hfirst (by simp) hbegins).mono ?_
  rintro ts ⟨t, rfl, hkind, -⟩
  exact ⟨t, rfl, hkind⟩

/-- Keywords, each behind a space. -/
theorem words (ks : List Keyword) :
    Writes (spaced (ks.map Keyword.spelling)) fun ts =>
      ts.map (·.kind) = ks.map TokenKind.keyword := by
  induction ks with
  | nil => exact nil.mono fun ts hts => by simp [hts]
  | cons k ks ih =>
    refine ((keyword k).space.append ih (delimited_spaced _)).mono ?_
    rintro _ ⟨_, us, rfl, ⟨t, rfl, ht⟩, hus⟩
    simp [ht, hus]

/-- Keywords with spaces between. -/
theorem phrase (k : Keyword) (ks : List Keyword) :
    Writes (k.spelling.toList ++ spaced (ks.map Keyword.spelling)) fun ts =>
      ts.map (·.kind) = (k :: ks).map TokenKind.keyword := by
  refine ((keyword k).append (words ks) (delimited_spaced _)).mono ?_
  rintro _ ⟨_, us, rfl, ⟨t, rfl, ht⟩, hus⟩
  simp [ht, hus]

-- ════════════════════════════════════════════════════════════════════════
-- Names
-- ════════════════════════════════════════════════════════════════════════

/-- A name is read where it stands, also before a point. -/
theorem reads_name (name : String) {c : Cursor} {lead rest : List Char}
    (hc : c.rest = lead ++ ((Name.render name).toList ++ rest)) (hlead : Trivia.Closed lead)
    (hrest : Name.Ends rest) :
    ∃ t c', c.next = (.ok t, c') ∧ t.kind ≠ .endOfInput ∧ t.Names name ∧ c'.rest = rest := by
  have hread := Lexeme.read_of_first hlead (Name.not_begins_render name rest)
    (Name.first_render name hrest)
  rw [← hc] at hread
  obtain ⟨t, c', hnext, hkind, -, htext, hc'⟩ := Cursor.next_of_read hread
  exact ⟨t, c', hnext, hkind ▸ Name.kind_ne_endOfInput name, Name.names_of_kind hkind htext, hc'⟩

theorem name (name : String) : Writes (Name.render name).toList (Single (·.Names name)) := by
  refine ⟨fun {c lead rest} hc hlead hrest => ?_⟩
  obtain ⟨t, c', hnext, hkind, hnames, hc'⟩ :=
    reads_name name hc hlead fun d hd => .inl (hrest d hd)
  exact ⟨[t], c', [], .cons hnext hkind .nil, hc', .nil, t, rfl, hnames⟩

/-- Two names with a point between. -/
theorem qualified (schema name : String) :
    Writes ((Name.render schema).toList ++ '.' :: (Name.render name).toList) fun ts =>
      ∃ t dot u, ts = [t, dot, u] ∧ t.Names schema ∧ dot.kind = .dot ∧ u.Names name := by
  refine ⟨fun {c lead rest} hc hlead hrest => ?_⟩
  rw [List.append_assoc] at hc
  obtain ⟨t, c₁, ht, htkind, htnames, hc₁⟩ :=
    reads_name schema hc hlead fun d hd => .inr (by simpa [eq_comm] using hd)
  have hread := Lexeme.read_of_first .nil (by simp [Trivia.Begins, isBlank])
    (Name.first_point name rest)
  rw [List.nil_append, ← List.cons_append, ← hc₁] at hread
  obtain ⟨dot, c₂, hdot, hdotkind, -, -, hc₂⟩ := Cursor.next_of_read hread
  have hc₂ : c₂.rest = [] ++ ((Name.render name).toList ++ rest) := hc₂
  obtain ⟨u, c₃, hu, hukind, hunames, hc₃⟩ :=
    reads_name name hc₂ .nil fun d hd => .inl (hrest d hd)
  have hreads := Cursor.Reads.cons ht htkind
    (.cons hdot (by simp [hdotkind]) (.cons hu hukind .nil))
  exact ⟨[t, dot, u], c₃, [], hreads, hc₃, .nil, t, dot, u, rfl, htnames, hdotkind, hunames⟩

end Writes

end CreateTable
