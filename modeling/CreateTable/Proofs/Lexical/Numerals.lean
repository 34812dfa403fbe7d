import CreateTable.Proofs.Lexical.Trivia

/-!
# The grammar of numbers

Which texts are numbers, said without the scan that reads them. A hexadecimal number is told from a
decimal one by the mark behind its zero, which no decimal number has.

## Main definitions

- `Number.Mantissa`, `Number.Exponent`, `Number.Literal` — how numbers are written

## Main statements

- `Number.literal_of_read` — what is read as a number is written as one
- `Number.Literal.read_eq` — what is written as a number is read as one
- `Number.Literal.starts` — numbers begin unlike all else
-/

namespace CreateTable.Lexical

variable {c : Char} {text rest tail number mantissa exponent : List Char} {kind : TokenKind}

namespace Number

/-- One digit or more. -/
def Digits (text : List Char) : Prop := text ≠ [] ∧ ∀ c ∈ text, c.isDigit

/-- `digits ['.' {digit}] | '.' digits`. -/
inductive Mantissa : List Char → Prop
  | whole {digits : List Char} : Digits digits → Mantissa digits
  | point {digits part : List Char} :
    Digits digits → (∀ c ∈ part, c.isDigit) → Mantissa (digits ++ '.' :: part)
  | leading {digits : List Char} : Digits digits → Mantissa ('.' :: digits)

/-- `[('e' | 'E') ['+' | '-'] digits]`. -/
inductive Exponent : List Char → Prop
  | absent : Exponent []
  | unsigned {e : Char} {digits : List Char} :
    e = 'e' ∨ e = 'E' → Digits digits → Exponent (e :: digits)
  | signed {e sign : Char} {digits : List Char} :
    e = 'e' ∨ e = 'E' → sign = '+' ∨ sign = '-' → Digits digits → Exponent (e :: sign :: digits)

/-- `'0' ('x' | 'X') hexDigit {hexDigit} | mantissa exponent`. -/
inductive Literal : List Char → Prop
  | hex {x : Char} {digits : List Char} :
    x = 'x' ∨ x = 'X' → digits ≠ [] → (∀ c ∈ digits, isHexDigit c) → Literal ('0' :: x :: digits)
  | dec {mantissa exponent : List Char} :
    Mantissa mantissa → Exponent exponent → Literal (mantissa ++ exponent)

/-- A first part of digits, if it is not empty. -/
theorem digits_takeWhile (h : text.takeWhile Char.isDigit ≠ []) :
    Digits (text.takeWhile Char.isDigit) :=
  ⟨h, fun _ hc => List.mem_takeWhile_imp hc⟩

theorem Digits.head (h : Digits text) : ∃ c rest, text = c :: rest ∧ c.isDigit := by
  obtain ⟨c, rest, rfl⟩ := List.exists_cons_of_ne_nil h.1
  exact ⟨c, rest, rfl, h.2 c List.mem_cons_self⟩

-- what is read is written so

theorem fraction_shape (text : List Char) :
    (fraction text).1 = [] ∨ ∃ digits, (fraction text).1 = '.' :: digits ∧
      ∀ c ∈ digits, c.isDigit := by
  unfold fraction
  split
  · exact .inr ⟨_, rfl, fun _ hc => List.mem_takeWhile_imp hc⟩
  · exact .inl rfl

theorem exponent_of_exponentMark (hne : (exponentMark text).1 ≠ []) (hrest : Digits rest) :
    Exponent ((exponentMark text).1 ++ rest) := by
  unfold exponentMark at hne ⊢
  split
  · simp at hne
  · dsimp only at hne
    split at hne
    · rename_i he
      rw [if_pos he]
      split
      · exact .unsigned he hrest
      · split
        · exact .signed he ‹_› hrest
        · exact .unsigned he hrest
    · simp at hne

/-- The digits and the fraction at the front of a number. -/
theorem mantissa_of_starts (h : Starts c rest) :
    Mantissa ((c :: rest).takeWhile Char.isDigit ++
      (fraction ((c :: rest).dropWhile Char.isDigit)).1) := by
  obtain hc | ⟨rfl, hhead⟩ := h
  · have hdigits : Digits ((c :: rest).takeWhile Char.isDigit) :=
      digits_takeWhile (by simp [hc])
    obtain hnone | ⟨digits, hpart, hall⟩ := fraction_shape ((c :: rest).dropWhile Char.isDigit)
    · rw [hnone, List.append_nil]
      exact .whole hdigits
    · rw [hpart]
      exact .point hdigits hall
  · have hpoint : Char.isDigit '.' = false := by decide
    obtain ⟨d, hd, hdigit⟩ := (Option.any_eq_true ..).1 hhead
    obtain ⟨tail, rfl⟩ := List.head?_eq_some_iff.1 hd
    have hdigits : Digits ((d :: tail).takeWhile Char.isDigit) :=
      digits_takeWhile (by simp [hdigit])
    rw [List.takeWhile_cons_of_neg (by simp [hpoint]), List.dropWhile_cons_of_neg (by simp [hpoint])]
    exact .leading hdigits

/-- What is read as a decimal number is written as one. -/
theorem literal_of_decimal (h : Starts c rest)
    (hread : decimal (c :: rest) = ⟨[], number, .ok kind, tail⟩) : Literal number := by
  have hmantissa := mantissa_of_starts h
  unfold decimal at hread
  dsimp only at hread
  split at hread
  · obtain ⟨rfl, -⟩ := finish_eq_ok hread
    simpa using Literal.dec hmantissa .absent
  · rename_i hmark
    split at hread
    · injection hread with _ _ houtcome _
      cases houtcome
    · rename_i hdigits
      obtain ⟨rfl, -⟩ := finish_eq_ok hread
      rw [List.append_assoc]
      exact .dec hmantissa
        (exponent_of_exponentMark (by simpa using hmark) (digits_takeWhile hdigits))

theorem literal_of_hexadecimal {x : Char} (hx : x = 'x' ∨ x = 'X')
    (hread : hexadecimal ['0', x] rest = ⟨[], number, .ok kind, tail⟩) : Literal number := by
  unfold hexadecimal at hread
  split at hread
  · injection hread with _ _ houtcome _
    cases houtcome
  · rename_i hdigits
    obtain ⟨rfl, -⟩ := finish_eq_ok hread
    exact .hex hx hdigits fun _ hc => List.mem_takeWhile_imp hc

/-- What is read as a number is written as one. -/
theorem literal_of_read (h : Starts c rest)
    (hread : read (c :: rest) = ⟨[], number, .ok kind, tail⟩) : Literal number := by
  unfold read at hread
  split at hread
  · exact literal_of_hexadecimal (.inl rfl) hread
  · exact literal_of_hexadecimal (.inr rfl) hread
  · exact literal_of_decimal h hread

-- what is written so is read

/-- The digits and the fraction of a number end where its mantissa does. -/
theorem Mantissa.split (h : Mantissa mantissa)
    (htail : ∀ c ∈ tail.head?, c.isDigit = false ∧ c ≠ '.') :
    (mantissa ++ tail).takeWhile Char.isDigit ++
        (fraction ((mantissa ++ tail).dropWhile Char.isDigit)).1 = mantissa ∧
      (fraction ((mantissa ++ tail).dropWhile Char.isDigit)).2 = tail := by
  have hdigit : ∀ c ∈ tail.head?, c.isDigit = false := fun c hc => (htail c hc).1
  have hpoint : ∀ rest : List Char, ∀ c ∈ ('.' :: rest).head?, c.isDigit = false := by
    intro rest c hc
    obtain rfl := Option.some.inj hc
    decide
  cases h with
  | whole hdigits =>
    have hnone : fraction tail = ([], tail) := by
      unfold fraction
      split
      · exact absurd rfl (htail '.' rfl).2
      · rfl
    rw [takeWhile_append_stop hdigits.2 hdigit, dropWhile_append_stop hdigits.2 hdigit, hnone]
    simp
  | point hdigits hpart =>
    rw [List.append_assoc, List.cons_append, takeWhile_append_stop hdigits.2 (hpoint _),
      dropWhile_append_stop hdigits.2 (hpoint _), fraction, takeWhile_append_stop hpart hdigit,
      dropWhile_append_stop hpart hdigit]
    simp
  | @leading digits hdigits =>
    have hempty : ∀ c ∈ ([] : List Char), c.isDigit := by simp
    have htake := takeWhile_append_stop hempty (hpoint (digits ++ tail))
    have hdrop := dropWhile_append_stop hempty (hpoint (digits ++ tail))
    rw [List.nil_append] at htake hdrop
    rw [List.cons_append, htake, hdrop, fraction, takeWhile_append_stop hdigits.2 hdigit,
      dropWhile_append_stop hdigits.2 hdigit]
    simp

/-- The mark of an exponent ends before its digits. -/
theorem Exponent.split (h : Exponent exponent) :
    exponent = [] ∨ ∃ e mark digits, exponent = e :: (mark ++ digits) ∧ (e = 'e' ∨ e = 'E') ∧
      Digits digits ∧ exponentMark exponent = (e :: mark, digits) := by
  cases h with
  | absent => exact .inl rfl
  | @unsigned e digits he hdigits =>
    refine .inr ⟨e, [], digits, rfl, he, hdigits, exponentMark_unsigned he ?_⟩
    obtain ⟨d, rest, rfl, hdigit⟩ := hdigits.head
    intro c hc
    obtain rfl := Option.some.inj hc
    rintro (rfl | rfl) <;> revert hdigit <;> decide
  | @signed e sign digits he hsign hdigits =>
    refine .inr ⟨e, [sign], digits, rfl, he, hdigits, ?_⟩
    simp [exponentMark, he, hsign]

/-- What is written as a decimal number is read as one. -/
theorem decimal_eq (hmantissa : Mantissa mantissa) (hexponent : Exponent exponent) :
    decimal (mantissa ++ exponent) = ⟨[], mantissa ++ exponent, .ok .number, []⟩ := by
  have hnil : AtBoundary [] := by simp [AtBoundary]
  obtain rfl | ⟨e, mark, digits, rfl, he, hdigits, hmark⟩ := hexponent.split
  · have htail : ∀ c ∈ ([] : List Char).head?, c.isDigit = false ∧ c ≠ '.' := by simp
    obtain ⟨hfront, hrest⟩ := hmantissa.split htail
    rw [List.append_nil] at hfront hrest ⊢
    unfold decimal
    simp only [hfront, hrest, exponentMark]
    exact finish_of_atBoundary hnil
  · have htail : ∀ c ∈ (e :: (mark ++ digits)).head?, c.isDigit = false ∧ c ≠ '.' := by
      intro c hc
      obtain rfl := Option.some.inj hc
      obtain rfl | rfl := he <;> decide
    obtain ⟨hfront, hrest⟩ := hmantissa.split htail
    have htake := List.takeWhile_eq_self_iff.2 hdigits.2
    have hdrop := List.dropWhile_eq_nil_iff.2 hdigits.2
    unfold decimal
    simp only [hfront, hrest, hmark, htake, hdrop]
    rw [if_neg (by simp)]
    split
    · exact absurd ‹_› hdigits.1
    · rw [finish_of_atBoundary hnil]
      simp

theorem Digits.not_mem {x : Char} (hx : x = 'x' ∨ x = 'X') (h : ∀ c ∈ text, c.isDigit) :
    x ∉ text := by
  intro hmem
  have hdigit := h x hmem
  obtain rfl | rfl := hx <;> revert hdigit <;> decide

/-- No mark of a hexadecimal number stands in a decimal one. -/
theorem not_mem_decimal {x : Char} (hx : x = 'x' ∨ x = 'X') (hmantissa : Mantissa mantissa)
    (hexponent : Exponent exponent) : x ∉ mantissa ++ exponent := by
  have hmarks : ∀ c ∈ ['.', 'e', 'E', '+', '-'], x ≠ c := by
    obtain rfl | rfl := hx <;> simp
  have hpoint := hmarks '.' (by simp)
  have hexp : ∀ e, e = 'e' ∨ e = 'E' → x ≠ e := by
    rintro e (rfl | rfl) <;> exact hmarks _ (by simp)
  have hsign : ∀ sign, sign = '+' ∨ sign = '-' → x ≠ sign := by
    rintro sign (rfl | rfl) <;> exact hmarks _ (by simp)
  rw [List.mem_append, not_or]
  constructor
  · cases hmantissa with
    | whole hdigits => exact Digits.not_mem hx hdigits.2
    | point hdigits hpart => simp [Digits.not_mem hx hdigits.2, Digits.not_mem hx hpart, hpoint]
    | leading hdigits => simp [Digits.not_mem hx hdigits.2, hpoint]
  · cases hexponent with
    | absent => simp
    | unsigned he hdigits => simp [Digits.not_mem hx hdigits.2, hexp _ he]
    | signed he hs hdigits => simp [Digits.not_mem hx hdigits.2, hexp _ he, hsign _ hs]

/-- What is written as a number is read as one. -/
theorem Literal.read_eq (h : Literal text) : read text = ⟨[], text, .ok .number, []⟩ := by
  cases h with
  | @hex x digits hx hne hall =>
    have htake := List.takeWhile_eq_self_iff.2 hall
    have hdrop := List.dropWhile_eq_nil_iff.2 hall
    have hread : read ('0' :: x :: digits) = hexadecimal ['0', x] digits := by
      obtain rfl | rfl := hx <;> rfl
    rw [hread, hexadecimal, htake, hdrop]
    split
    · exact absurd ‹_› hne
    · exact finish_of_atBoundary (by simp [AtBoundary])
  | @dec mantissa exponent hmantissa hexponent =>
    rw [← decimal_eq hmantissa hexponent]
    unfold read
    split
    · rename_i rest heq
      exact absurd (heq ▸ by simp) (not_mem_decimal (.inl rfl) hmantissa hexponent)
    · rename_i rest heq
      exact absurd (heq ▸ by simp) (not_mem_decimal (.inr rfl) hmantissa hexponent)
    · rfl

theorem Literal.starts (h : Literal text) : ∃ c rest, text = c :: rest ∧ Starts c rest := by
  cases h with
  | hex => exact ⟨_, _, rfl, .inl (by decide)⟩
  | dec hmantissa =>
    cases hmantissa with
    | whole hdigits =>
      obtain ⟨d, rest, rfl, hdigit⟩ := hdigits.head
      exact ⟨d, _, rfl, .inl hdigit⟩
    | point hdigits =>
      obtain ⟨d, rest, rfl, hdigit⟩ := hdigits.head
      exact ⟨d, _, rfl, .inl hdigit⟩
    | leading hdigits =>
      obtain ⟨d, rest, rfl, hdigit⟩ := hdigits.head
      exact ⟨'.', _, rfl, .inr ⟨rfl, by simpa using hdigit⟩⟩

-- numbers begin unlike all else

theorem Starts.ofOpening? (h : Starts c rest) : Quote.ofOpening? c = none := by
  cases hquote : Quote.ofOpening? c with
  | none => rfl
  | some quote =>
    obtain rfl := Quote.ofOpening?_eq_some.1 hquote
    obtain hdigit | ⟨hpoint, -⟩ := h
    · revert hdigit
      cases quote <;> decide
    · cases quote <;> cases hpoint

theorem Starts.not_opensBlob (h : Starts c rest) : ¬Lexeme.OpensBlob c rest := by
  rintro ⟨rfl | rfl, -⟩
  all_goals
    obtain hdigit | ⟨hpoint, -⟩ := h
    · exact absurd hdigit (by decide)
    · cases hpoint

theorem Starts.not_begins (h : Starts c rest) : ¬Trivia.Begins (c :: rest) := by
  obtain hdigit | ⟨rfl, -⟩ := h
  · exact Trivia.not_begins_of_isWordPart (by simp [isWordPart, hdigit]) rest
  · exact Trivia.not_begins_cons (by decide) (by decide) (by decide) rest

end Number

end CreateTable.Lexical
