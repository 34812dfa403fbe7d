import CreateTable.Lexical.Number
import CreateTable.Lexical.Trivia

/-!
# Reading lexemes

The lexeme at the front of any text.

## Main definitions

- `Lexeme.first` — the lexeme of a text without trivia at its front
- `Lexeme.read` — the lexeme of any text
- `operators` — the operators, longer ones first
-/

namespace CreateTable.Lexical

/-- The operators, each one before those that it starts with. -/
def operators : List (List Char) :=
  [['-', '>', '>'],
   ['|', '|'], ['<', '='], ['<', '>'], ['<', '<'], ['>', '='], ['>', '>'], ['=', '='], ['!', '='],
   ['-', '>'],
   ['+'], ['-'], ['*'], ['/'], ['%'], ['&'], ['|'], ['~'], ['<'], ['>'], ['='], ['?'], [':'],
   ['@'], ['$'], ['#'], ['^']]

/-- The single characters that are tokens other than operators. -/
def punctuation? : Char → Option TokenKind
  | '(' => some .leftParen
  | ')' => some .rightParen
  | ',' => some .comma
  | ';' => some .semicolon
  | '.' => some .dot
  | _ => none

namespace Lexeme

/-- Quoted text behind its opening mark. -/
def quoted (quote : Quote) (rest : List Char) : Lexeme :=
  match Enclosed.read? quote.closing quote.doubles rest with
  | none => ⟨[], quote.opening :: rest, .error (.unterminated quote), []⟩
  | some e =>
    let value := String.ofList e.value
    ⟨[], quote.opening :: (e.inner ++ [quote.closing]),
      .ok (match quote with
        | .single => .stringLiteral value
        | _ => .quotedIdentifier value),
      e.rest⟩

/-- A blob behind its letter and its opening quote. Where the closing quote is missing, the text at
    fault starts at the opening one. -/
def blob (letter : Char) (rest : List Char) : Lexeme :=
  match Enclosed.read? Quote.single.closing false rest with
  | none => ⟨[letter], Quote.single.opening :: rest, .error .unterminatedBlob, []⟩
  | some e =>
    ⟨[], letter :: Quote.single.opening :: (e.inner ++ [Quote.single.closing]),
      if e.inner.all isHexDigit ∧ e.inner.length % 2 = 0 then .ok .blob
      else .error .malformedBlob,
      e.rest⟩

/-- A bare word. -/
def word (text : List Char) : Lexeme :=
  let letters := text.takeWhile isWordPart
  ⟨[], letters,
    .ok (match Keyword.ofWord? letters with
      | some k => .keyword k
      | none => .identifier),
    text.dropWhile isWordPart⟩

/-- An operator, or a character that fits nothing. -/
def operator (c : Char) (rest : List Char) : Lexeme :=
  match operators.find? (·.isPrefixOf (c :: rest)) with
  | some op => ⟨[], op, .ok .operator, (c :: rest).drop op.length⟩
  | none => ⟨[], [c], .error (if c = '!' then .loneExclamation else .unrecognized), rest⟩

/-- The lexeme of a text without trivia at its front. Where two kinds begin alike, what follows the
    first character decides: `x` and a quote open a blob, a point and a digit open a number. -/
def first : List Char → Lexeme
  | [] => ⟨[], [], .ok .endOfInput, []⟩
  | c :: rest =>
    match Quote.ofOpening? c with
    | some quote => quoted quote rest
    | none =>
      if (c = 'x' ∨ c = 'X') ∧ rest.head? = some Quote.single.opening then blob c rest.tail
      else if c.isDigit ∨ (c = '.' ∧ rest.head?.any Char.isDigit) then Number.read (c :: rest)
      else if isWordStart c then word (c :: rest)
      else
        match punctuation? c with
        | some kind => ⟨[], [c], .ok kind, rest⟩
        | none => operator c rest

/-- The lexeme at the front of a text. -/
def read (text : List Char) : Lexeme :=
  let (blanks, rest) := Trivia.split text
  let l := first rest
  { l with lead := blanks ++ l.lead }

-- ════════════════════════════════════════════════════════════════════════
-- Nothing is lost
-- ════════════════════════════════════════════════════════════════════════

theorem all_quoted (quote : Quote) (rest : List Char) :
    (quoted quote rest).all = quote.opening :: rest := by
  unfold quoted
  split
  · simp [all]
  · rename_i e h
    simp [all, Enclosed.eq_of_read? h]

theorem all_blob (letter : Char) (rest : List Char) :
    (blob letter rest).all = letter :: Quote.single.opening :: rest := by
  unfold blob
  split
  · simp [all]
  · rename_i e h
    simp [all, Enclosed.eq_of_read? h]

theorem all_word (text : List Char) : (word text).all = text := by
  simp [word, all, List.takeWhile_append_dropWhile]

theorem all_operator (c : Char) (rest : List Char) : (operator c rest).all = c :: rest := by
  unfold operator
  split
  · rename_i op h
    have hop : op.isPrefixOf (c :: rest) = true := by simpa using List.find?_some h
    obtain ⟨tail, ht⟩ := List.isPrefixOf_iff_prefix.1 hop
    simp [all, ← ht]
  · simp [all]

theorem all_first (text : List Char) : (first text).all = text := by
  unfold first
  split
  · rfl
  · rename_i c rest
    split
    · rename_i quote h
      have hq : quote.opening = c := by simpa using List.find?_some h
      rw [all_quoted, hq]
    · split
      · rename_i h
        obtain ⟨r, hr⟩ : ∃ r, rest = Quote.single.opening :: r := List.head?_eq_some_iff.1 h.2
        rw [all_blob, hr]
        rfl
      · split
        · exact Number.all_read _
        · split
          · exact all_word _
          · split
            · rfl
            · exact all_operator c rest

/-- The parts of a lexeme make up the text it was read from. -/
theorem all_read (text : List Char) : (read text).all = text := by
  have h := all_first (Trivia.split text).2
  have ht := Trivia.split_append text
  simp only [all, List.append_assoc] at h
  simp only [read, all, List.append_assoc, h, ht]

-- ════════════════════════════════════════════════════════════════════════
-- Something is read
-- ════════════════════════════════════════════════════════════════════════

theorem operator_text_ne_nil (c : Char) (rest : List Char) : (operator c rest).text ≠ [] := by
  unfold operator
  split
  · rename_i op h
    have hmem := List.mem_of_find?_eq_some h
    intro hnil
    subst hnil
    exact absurd hmem (by decide)
  · simp

/-- Only the end of a text has no text. -/
theorem first_text_ne_nil (c : Char) (rest : List Char) : (first (c :: rest)).text ≠ [] := by
  unfold first
  dsimp only
  split
  · unfold quoted
    split <;> simp
  · split
    · unfold blob
      split <;> simp
    · split
      · rename_i h
        exact Number.read_text_ne_nil (by simpa [Number.Starts] using h)
      · split
        · rename_i h
          simp [word, isWordPart, h]
        · split
          · simp
          · exact operator_text_ne_nil c rest

/-- Whatever is read but the end takes at least one character. -/
theorem length_rest_read_lt {text : List Char} (h : (read text).outcome ≠ .ok .endOfInput) :
    (read text).rest.length < text.length := by
  have hall := congrArg List.length (all_read text)
  simp only [all, List.length_append] at hall
  have hne : (read text).text ≠ [] := by
    cases hs : (Trivia.split text).2 with
    | nil => exact absurd (by simp [read, hs, first]) h
    | cons c rest => simpa [read, hs] using first_text_ne_nil c rest
  have := List.length_pos_iff.2 hne
  omega

end Lexeme

end CreateTable.Lexical
