import CreateTable.Proofs.Lexical.Layout

/-!
# Quotation

Writing a text in quotes and reading it undo each other: what is written is read back whatever stands
behind it, and whatever is read was written so.

## Main definitions

- `Quote.write` — a text in quotes
- `Quote.Admits`, `Quote.EndsBefore` — which texts a way to quote is for, and before what
- `TokenKind.quoted?` — the text that a quoted token means

## Main statements

- `Lexeme.first_write` — what is written in quotes is one lexeme
- `Lexeme.First.written` — a lexeme that means a text is what is written for it
- `quote_unquote` — reading undoes writing, and writing undoes reading
-/

namespace CreateTable

open Lexical

/-- The text that a quoted token means. -/
def TokenKind.quoted? : TokenKind → Option String
  | .quotedIdentifier value | .stringLiteral value => some value
  | _ => none

namespace Lexical

variable {quote : Quote} {value : String} {rest : List Char}

namespace Quote

/-- A text in quotes. The closing mark is doubled in it, save in brackets. -/
def write (quote : Quote) (value : String) : List Char :=
  quote.opening :: (Enclosed.written quote.closing quote.doubles value.toList ++ [quote.closing])

/-- What a text in quotes is. -/
def kind (quote : Quote) (value : String) : TokenKind :=
  match quote with
  | single => .stringLiteral value
  | _ => .quotedIdentifier value

/-- Brackets are for texts without a closing one, other quotes for any text. -/
def Admits (quote : Quote) (value : String) : Prop :=
  quote.doubles = false → quote.closing ∉ value.toList

/-- No second closing mark follows where it would count as doubled. -/
def EndsBefore (quote : Quote) (rest : List Char) : Prop :=
  quote.doubles → rest.head? ≠ some quote.closing

theorem quoted?_kind (quote : Quote) (value : String) :
    (quote.kind value).quoted? = some value := by
  cases quote <;> rfl

theorem kind_ne_endOfInput (quote : Quote) (value : String) :
    quote.kind value ≠ .endOfInput := by
  intro h
  have hquoted := quoted?_kind quote value
  rw [h] at hquoted
  cases hquoted

theorem opening_inj {other : Quote} (h : quote.opening = other.opening) : quote = other := by
  revert h
  cases quote <;> cases other <;> decide

theorem not_begins_write (quote : Quote) (value : String) (rest : List Char) :
    ¬Trivia.Begins (quote.write value ++ rest) := by
  refine Trivia.not_begins_cons (c := quote.opening) ?_ ?_ ?_ _
  all_goals cases quote <;> decide

end Quote

namespace Lexeme

variable {c : Char} {kind : TokenKind}

/-- What is written in quotes is one lexeme. -/
theorem first_write (hvalue : quote.Admits value) (hrest : quote.EndsBefore rest) :
    first (quote.write value ++ rest) = ⟨[], quote.write value, .ok (quote.kind value), rest⟩ := by
  have hread : Enclosed.read? quote.closing quote.doubles
      (Enclosed.written quote.closing quote.doubles value.toList ++ quote.closing :: rest) =
        some ⟨Enclosed.written quote.closing quote.doubles value.toList, value.toList, rest⟩ :=
    Enclosed.read?_eq_some.2 ⟨rfl, rfl, hvalue, hrest⟩
  rw [Quote.write, List.cons_append, List.append_assoc, List.singleton_append,
    first_of_quote (Quote.ofOpening?_eq_some.2 rfl), quoted, hread]
  simp only [String.ofList_toList]
  cases quote <;> rfl

/-- Quoted text that is read was written so. -/
theorem quoted_written (h : (quoted quote rest).outcome = .ok kind) :
    ∃ value, kind = quote.kind value ∧ quote.Admits value ∧
      (quoted quote rest).text = quote.write value := by
  unfold quoted at h ⊢
  split at h
  · cases h
  · rename_i e he
    obtain ⟨-, hinner, hvalue, -⟩ := Enclosed.read?_eq_some.1 he
    refine ⟨String.ofList e.value, ?_, ?_, ?_⟩
    · rw [← Except.ok.inj h]
      cases quote <;> rfl
    · simpa only [Quote.Admits, String.toList_ofList] using hvalue
    · simp only [Quote.write, String.toList_ofList, hinner]

/-- A lexeme that means a text is what is written for it. -/
theorem First.written {l : Lexeme} (h : First c rest l) (hkind : l.outcome = .ok kind)
    (hquoted : kind.quoted? = some value) :
    ∃ quote : Quote, kind = quote.kind value ∧ quote.Admits value ∧ l.text = quote.write value := by
  obtain ⟨quote, -, rfl⟩ : ∃ quote : Quote, c = quote.opening ∧ l = Lexeme.quoted quote rest := by
    have hread := h.readAs hkind
    cases kind with
    | quotedIdentifier _ | stringLiteral _ => exact hread
    | _ => cases hquoted
  obtain ⟨written, rfl, hadmits, htext⟩ := quoted_written hkind
  obtain rfl : written = value := Option.some.inj ((quote.quoted?_kind written).symm.trans hquoted)
  exact ⟨quote, rfl, hadmits, htext⟩

end Lexeme

namespace Cursor

/-- A token that means a text is what is written for it. -/
theorem written_of_next {c c' : Cursor} {t : Token} (h : c.next = (.ok t, c'))
    (hquoted : t.kind.quoted? = some value) :
    ∃ quote : Quote, t.kind = quote.kind value ∧ quote.Admits value ∧
      t.text = quote.write value := by
  have hend : t.kind ≠ .endOfInput := by
    intro hkind
    rw [hkind] at hquoted
    cases hquoted
  obtain ⟨-, -, hne, hfirst⟩ := Lexeme.read_eq_ok (read_of_next h) hend
  obtain ⟨d, text, htext⟩ := List.exists_cons_of_ne_nil hne
  rw [htext, List.cons_append] at hfirst
  have hlexeme := Lexeme.first_cons d (text ++ c'.rest)
  rw [hfirst, ← htext] at hlexeme
  exact hlexeme.written rfl hquoted

end Cursor

end Lexical

/-- At any place of any text, reading undoes quotation and quotation undoes reading. -/
theorem quote_unquote (c : Cursor) :
    (∀ (quote : Quote) (value : String) (rest : List Char), quote.Admits value →
      quote.EndsBefore rest → c.rest = quote.write value ++ rest →
        ∃ t, c.next = (.ok t, ⟨t.stop, rest⟩) ∧ t.kind = quote.kind value ∧ t.lead = [] ∧
          t.text = quote.write value ∧
          t.span = ⟨c.offset, c.offset + Text.byteLength (quote.write value)⟩) ∧
    ∀ (t : Token) (c' : Cursor) (value : String), c.next = (.ok t, c') →
      t.kind.quoted? = some value →
        (∃ quote : Quote, t.text.head? = some quote.opening) ∧
        ∀ quote : Quote, t.text.head? = some quote.opening →
          t.text = quote.write value ∧ quote.Admits value ∧ t.kind = quote.kind value := by
  constructor
  · intro quote value rest hvalue hrest hc
    have hread : Lexeme.read c.rest =
        ⟨[], quote.write value, .ok (quote.kind value), rest⟩ := by
      rw [hc]
      exact Lexeme.read_of_first .nil (quote.not_begins_write value rest)
        (Lexeme.first_write hvalue hrest)
    obtain ⟨t, c', hnext, hkind, hlead, htext, hrest'⟩ := Cursor.next_of_read hread
    obtain ⟨hstart, hstop⟩ := Cursor.start_of_next hnext
    have hstart' : t.start = c.offset := by simpa [hlead] using hstart
    obtain rfl : c' = ⟨t.stop, rest⟩ := by rw [← hstop, ← hrest']
    refine ⟨t, hnext, hkind, hlead, htext, ?_⟩
    rw [Token.span, Token.stop, hstart', htext]
  · intro t c' value hnext hquoted
    obtain ⟨quote, hkind, hadmits, htext⟩ := Cursor.written_of_next hnext hquoted
    have hhead : t.text.head? = some quote.opening := by rw [htext]; rfl
    refine ⟨⟨quote, hhead⟩, fun other hother => ?_⟩
    rw [hhead] at hother
    obtain rfl := Quote.opening_inj (Option.some.inj hother)
    exact ⟨htext, hadmits, hkind⟩

/-- A name in back quotes that ends with one, and a string with a quote in it behind a blank. -/
theorem quote_unquote_marks :
    (∃ t, (⟨5, "`é```x".toList⟩ : Cursor).next = (.ok t, ⟨t.stop, ['x']⟩) ∧
      t.kind = .quotedIdentifier "é`" ∧ t.lead = [] ∧ t.text = "`é```".toList ∧
      t.span = ⟨5, 5 + Text.byteLength "`é```".toList⟩) ∧
    "'it''s'".toList = Quote.single.write "it's" ∧ Quote.single.Admits "it's" ∧
      TokenKind.stringLiteral "it's" = Quote.single.kind "it's" := by
  have hwrite : Quote.back.write "é`" = "`é```".toList := by decide +kernel
  constructor
  · rw [← hwrite]
    exact (quote_unquote ⟨5, "`é```x".toList⟩).1 .back "é`" ['x'] nofun (fun _ => by decide)
      (by decide +kernel)
  · have hnext : (⟨0, " 'it''s' ".toList⟩ : Cursor).next =
        (.ok ⟨.stringLiteral "it's", [' '], "'it''s'".toList, 1⟩, ⟨8, [' ']⟩) :=
      Prod.ext (eq_ok_of_toOption (by decide +kernel)) (by decide +kernel)
    exact ((quote_unquote _).2 _ _ "it's" hnext (by decide)).2 .single (by decide)

end CreateTable
