import CreateTable.Lexical.CharClass
import CreateTable.Lexical.Lexeme

/-!
# Numbers

A number is decimal, with an optional fraction and exponent, or `0x` and hexadecimal digits. A word
must not follow at once: `12abc` is one faulty text.

## Main definitions

- `Number.read` — the number at the front of a text that starts with a digit, or with a point and
  a digit
-/

namespace CreateTable.Lexical.Number

/-- A number of which all is read, unless it runs into a word. -/
def finish (text rest : List Char) : Lexeme :=
  match rest.takeWhile isWordPart with
  | [] => ⟨[], text, .ok .number, rest⟩
  | tail => ⟨[], text ++ tail, .error .unrecognized, rest.dropWhile isWordPart⟩

/-- A point and the digits behind it, if there is a point. -/
def fraction : List Char → List Char × List Char
  | '.' :: rest => ('.' :: rest.takeWhile Char.isDigit, rest.dropWhile Char.isDigit)
  | rest => ([], rest)

/-- The letter of an exponent and a sign behind it, if there is the letter. -/
def exponentMark : List Char → List Char × List Char
  | [] => ([], [])
  | e :: rest =>
    if e = 'e' ∨ e = 'E' then
      match rest with
      | [] => ([e], [])
      | sign :: rest' =>
        if sign = '+' ∨ sign = '-' then ([e, sign], rest') else ([e], sign :: rest')
    else ([], e :: rest)

/-- A decimal number. -/
def decimal (text : List Char) : Lexeme :=
  let whole := text.takeWhile Char.isDigit
  let (part, rest) := fraction (text.dropWhile Char.isDigit)
  let (mark, rest) := exponentMark rest
  if mark.isEmpty then finish (whole ++ part) rest
  else
    match rest.takeWhile Char.isDigit with
    | [] => ⟨[], whole ++ part ++ mark, .error .missingExponent, rest⟩
    | digits => finish (whole ++ part ++ mark ++ digits) (rest.dropWhile Char.isDigit)

/-- A hexadecimal number behind its mark `0x` or `0X`. -/
def hexadecimal (mark rest : List Char) : Lexeme :=
  match rest.takeWhile isHexDigit with
  | [] => ⟨[], mark, .error .missingHexDigits, rest⟩
  | digits => finish (mark ++ digits) (rest.dropWhile isHexDigit)

/-- The number at the front of a text. -/
def read : List Char → Lexeme
  | '0' :: 'x' :: rest => hexadecimal ['0', 'x'] rest
  | '0' :: 'X' :: rest => hexadecimal ['0', 'X'] rest
  | text => decimal text

-- ════════════════════════════════════════════════════════════════════════
-- Nothing is lost
-- ════════════════════════════════════════════════════════════════════════

theorem all_finish (text rest : List Char) : (finish text rest).all = text ++ rest := by
  unfold finish
  split <;> simp [Lexeme.all, List.takeWhile_append_dropWhile]

theorem fraction_append (text : List Char) : (fraction text).1 ++ (fraction text).2 = text := by
  unfold fraction
  split <;> simp [List.takeWhile_append_dropWhile]

theorem exponentMark_append (text : List Char) :
    (exponentMark text).1 ++ (exponentMark text).2 = text := by
  unfold exponentMark
  repeat' split
  all_goals simp

theorem all_decimal (text : List Char) : (decimal text).all = text := by
  have hf := fraction_append (text.dropWhile Char.isDigit)
  have he := exponentMark_append (fraction (text.dropWhile Char.isDigit)).2
  have ht := List.takeWhile_append_dropWhile (p := Char.isDigit) (l := text)
  unfold decimal
  dsimp only
  split
  · rename_i h
    rw [List.isEmpty_iff] at h
    rw [h, List.nil_append] at he
    rw [all_finish, he, List.append_assoc, hf, ht]
  · split
    · simp only [Lexeme.all, List.nil_append, List.append_assoc, he, hf, ht]
    · have hd := List.takeWhile_append_dropWhile (p := Char.isDigit)
        (l := (exponentMark (fraction (text.dropWhile Char.isDigit)).2).2)
      rw [all_finish]
      simp only [List.append_assoc, hd, he, hf, ht]

theorem all_hexadecimal (mark rest : List Char) :
    (hexadecimal mark rest).all = mark ++ rest := by
  unfold hexadecimal
  split
  · rfl
  · rw [all_finish, List.append_assoc, List.takeWhile_append_dropWhile]

/-- The parts of a number make up what was read. -/
theorem all_read (text : List Char) : (read text).all = text := by
  unfold read
  split
  · exact all_hexadecimal _ _
  · exact all_hexadecimal _ _
  · exact all_decimal text

-- ════════════════════════════════════════════════════════════════════════
-- Something is read
-- ════════════════════════════════════════════════════════════════════════

/-- The first character of a number: a digit, or a point before a digit. -/
def Starts (c : Char) (rest : List Char) : Prop :=
  c.isDigit = true ∨ (c = '.' ∧ rest.head?.any Char.isDigit)

theorem finish_text_ne_nil {text : List Char} (rest : List Char) (h : text ≠ []) :
    (finish text rest).text ≠ [] := by
  unfold finish
  split <;> simp [h]

theorem decimal_text_ne_nil {c : Char} {rest : List Char} (h : Starts c rest) :
    (decimal (c :: rest)).text ≠ [] := by
  have hw : (c :: rest).takeWhile Char.isDigit
      ++ (fraction ((c :: rest).dropWhile Char.isDigit)).1 ≠ [] := by
    rcases h with h | ⟨rfl, _⟩
    · simp [h]
    · have hp : Char.isDigit '.' = false := by decide
      simp [fraction, hp]
  unfold decimal
  dsimp only
  split
  · exact finish_text_ne_nil _ hw
  · split
    · exact List.append_ne_nil_of_left_ne_nil hw _
    · exact finish_text_ne_nil _
        (List.append_ne_nil_of_left_ne_nil (List.append_ne_nil_of_left_ne_nil hw _) _)

theorem hexadecimal_text_ne_nil {mark : List Char} (rest : List Char) (h : mark ≠ []) :
    (hexadecimal mark rest).text ≠ [] := by
  unfold hexadecimal
  split
  · exact h
  · exact finish_text_ne_nil _ (List.append_ne_nil_of_left_ne_nil h _)

/-- A number has at least one character. -/
theorem read_text_ne_nil {c : Char} {rest : List Char} (h : Starts c rest) :
    (read (c :: rest)).text ≠ [] := by
  unfold read
  split
  · exact hexadecimal_text_ne_nil _ (by simp)
  · exact hexadecimal_text_ne_nil _ (by simp)
  · exact decimal_text_ne_nil h

end CreateTable.Lexical.Number
