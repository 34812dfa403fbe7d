import CreateTable.Grammar.Name
import CreateTable.Proofs.Lexical.Trivia
import CreateTable.Schema.Render

/-!
# Names as they are written

Any text can be a name. Written as a bare word or in quotes, it is read as one token that stands for
it and is no keyword.

## Main definitions

- `Token.Names` — a token stands for a name and is no keyword

## Main statements

- `Name.first_render` — a written name is one lexeme
- `Name.names_of_kind` — the token of that lexeme stands for the name
-/

namespace CreateTable

open Lexical

/-- A token stands for a name and is no keyword. -/
def Token.Names (t : Token) (name : String) : Prop :=
  t.name? = some name ∧ ∀ k, t.kind ≠ .keyword k

namespace Name

/-- Behind a name stands a delimiter or a point, or nothing. -/
def Ends (rest : List Char) : Prop := ∀ c ∈ rest.head?, isDelimiter c ∨ c = '.'

/-- The kind of the token that a written name is read as. -/
def kind (name : String) : TokenKind := if isBare name then .identifier else .quotedIdentifier name

variable {rest : List Char} {name : String}

theorem Ends.isWordPart (h : Ends rest) : ∀ c ∈ rest.head?, isWordPart c = false := by
  intro c hc
  obtain h | rfl := h c hc
  · exact isWordPart_of_isDelimiter h
  · decide

theorem Ends.ne_quote (h : Ends rest) (quote : Quote) : rest.head? ≠ some quote.opening := by
  intro hc
  obtain h | h := h _ hc
  · revert h
    cases quote <;> decide
  · cases quote <;> cases h

/-- Text with each double quote written twice. -/
def doubled (text : List Char) : List Char :=
  text.flatMap fun c => if c = '\x22' then ['\x22', '\x22'] else [c]

theorem doubled_eq_written (text : List Char) :
    doubled text = Enclosed.written '\x22' true text := by
  unfold doubled Enclosed.written
  rw [if_pos rfl]
  congr 1
  funext c
  split
  · rename_i hc
    rw [hc]
  · rfl

/-- A quoted text is read up to its closing quote, which no quote follows. -/
private theorem first_quote (hrest : Ends rest) :
    Lexeme.first (quote name.toList ++ rest) =
      ⟨[], quote name.toList, .ok (.quotedIdentifier name), rest⟩ := by
  have hread : Enclosed.read? '\x22' true (doubled name.toList ++ '\x22' :: rest) =
      some ⟨doubled name.toList, name.toList, rest⟩ :=
    Enclosed.read?_eq_some.2
      ⟨rfl, doubled_eq_written name.toList, nofun, fun _ => hrest.ne_quote .double⟩
  have hquote : quote name.toList ++ rest =
      '\x22' :: (doubled name.toList ++ '\x22' :: rest) := by
    simp [quote, doubled]
  rw [hquote, Lexeme.first_of_quote (rfl : Quote.ofOpening? '\x22' = some .double)]
  unfold Lexeme.quoted
  rw [show Quote.double.closing = '\x22' from rfl, show Quote.double.doubles = true from rfl, hread]
  simp [quote, doubled, Quote.opening]

/-- The characters of a bare name make up a word, and it spells no keyword. -/
theorem cons_of_isBare (h : isBare name) :
    ∃ c tail, name.toList = c :: tail ∧ isWordStart c ∧ (∀ d ∈ c :: tail, isWordPart d) ∧
      Keyword.ofWord? (c :: tail) = none := by
  unfold isBare at h
  split at h
  · cases h
  · rename_i c tail hname
    simp only [Bool.and_eq_true, List.all_eq_true, Option.isNone_iff_eq_none] at h
    obtain ⟨⟨hc, hall⟩, hkeyword⟩ := h
    refine ⟨c, tail, hname, ?_, fun d hd => ?_, hkeyword⟩
    · obtain hc | hc := Bool.or_eq_true_iff.1 hc
      · simp [isWordStart, hc]
      · simp [isWordStart, beq_iff_eq.1 hc]
    · obtain hd | hd := Bool.or_eq_true_iff.1 (hall d hd)
      · obtain hd | hd := Bool.or_eq_true_iff.1 hd
        · simp [isWordPart, isWordStart, hd]
        · simp [isWordPart, hd]
      · simp [isWordPart, isWordStart, beq_iff_eq.1 hd]

/-- A bare name is a word that spells no keyword. -/
private theorem first_bare (h : isBare name) (hrest : Ends rest) :
    Lexeme.first (name.toList ++ rest) = ⟨[], name.toList, .ok .identifier, rest⟩ := by
  obtain ⟨c, tail, hname, hstart, hparts, hkeyword⟩ := cons_of_isBare h
  rw [hname, List.cons_append,
    Lexeme.first_of_letters hstart hparts hrest.isWordPart (hrest.ne_quote .single),
    Lexeme.wordKind, hkeyword]

/-- A written name is one lexeme. -/
theorem first_render (name : String) (hrest : Ends rest) :
    Lexeme.first ((render name).toList ++ rest) =
      ⟨[], (render name).toList, .ok (kind name), rest⟩ := by
  unfold render kind
  split
  · exact first_bare ‹_› hrest
  · rw [String.toList_ofList]
    exact first_quote hrest

/-- The token of a written name stands for the name. -/
theorem names_of_kind {t : Token} (hkind : t.kind = kind name)
    (htext : t.text = (render name).toList) : t.Names name := by
  unfold kind at hkind
  unfold render at htext
  split at hkind
  · rename_i hbare
    rw [if_pos hbare] at htext
    refine ⟨?_, by simp [hkind]⟩
    simp [Token.name?, hkind, Token.source, htext]
  · exact ⟨by simp [Token.name?, hkind], by simp [hkind]⟩

/-- A written name begins with a letter, an underscore or a quote. -/
theorem render_eq_cons (name : String) :
    ∃ c tail, (render name).toList = c :: tail ∧ (isWordStart c ∨ c = '\x22') := by
  unfold render
  split
  · obtain ⟨c, tail, hname, hstart, -⟩ := cons_of_isBare ‹_›
    exact ⟨c, tail, hname, .inl hstart⟩
  · rw [String.toList_ofList]
    exact ⟨_, _, rfl, .inr rfl⟩

theorem not_begins_render (name : String) (rest : List Char) :
    ¬Trivia.Begins ((render name).toList ++ rest) := by
  obtain ⟨c, tail, hname, hc⟩ := render_eq_cons name
  rw [hname, List.cons_append]
  obtain hstart | rfl := hc
  · exact Trivia.not_begins_of_isWordPart (isWordPart_of_isWordStart hstart) _
  · exact Trivia.not_begins_cons (by decide) (by decide) (by decide) _

/-- A point before a written name is no number. -/
theorem first_point (name : String) (rest : List Char) :
    Lexeme.first ('.' :: ((render name).toList ++ rest)) =
      ⟨[], ['.'], .ok .dot, (render name).toList ++ rest⟩ := by
  obtain ⟨c, tail, hname, hc⟩ := render_eq_cons name
  have hdigit : c.isDigit = false := by
    obtain hc | rfl := hc
    · exact isDigit_of_isWordStart hc
    · decide
  have hnumber : ¬Number.Starts '.' ((render name).toList ++ rest) := by
    rintro (h | ⟨-, hhead⟩)
    · exact absurd h (by decide)
    · rw [hname] at hhead
      rw [List.cons_append, List.head?_cons, Option.any_some, hdigit] at hhead
      cases hhead
  exact Lexeme.first_of_punctuation rfl (fun h => absurd h.1 (by decide)) hnumber (by decide) rfl

theorem kind_ne_endOfInput (name : String) : kind name ≠ .endOfInput := by
  unfold kind
  split <;> simp

end Name

end CreateTable
