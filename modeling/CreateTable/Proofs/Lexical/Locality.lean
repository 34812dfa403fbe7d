import CreateTable.Lexical.Reading
import CreateTable.Proofs.Lexical.Enclosed
import Mathlib.Data.List.TakeWhile

/-!
# Lexemes in other places

A lexeme depends on what follows it through one character only. What stands behind it may go on
differently from the second character on, or begin with a delimiter, and the lexeme is the same.

## Main definitions

- `isDelimiter` — characters that end every lexeme before them
- `MayReplace` — texts that may stand in the place of what follows a lexeme
- `Lexeme.First` — what a lexeme can be, by its first characters

## Main statements

- `Lexeme.first_cons` — every lexeme is one of these
- `Lexeme.first_replace` — a lexeme is read as before if what follows it is replaced
-/

namespace CreateTable.Lexical

/-- A blank, a parenthesis or a comma. -/
def isDelimiter (c : Char) : Bool := isBlank c || c = '(' || c = ')' || c = ','

/-- `rest'` begins as `rest` does, or with a delimiter, or is over. -/
def MayReplace (rest rest' : List Char) : Prop :=
  ∀ c ∈ rest'.head?, rest.head? = some c ∨ isDelimiter c

variable {c : Char} {text rest rest' : List Char} {p : Char → Bool}

theorem isDelimiter_iff :
    isDelimiter c ↔ c ∈ [' ', '\t', '\n', '\x0c', '\r', '(', ')', ','] := by
  simp [isDelimiter, isBlank, or_assoc]

theorem isDelimiter_of_isBlank (h : isBlank c) : isDelimiter c := by
  simp [isDelimiter, h]

/-- What is said of each delimiter is said of a character that is one. -/
theorem apply_isDelimiter (h : isDelimiter c)
    (hp : [' ', '\t', '\n', '\x0c', '\r', '(', ')', ','].all p) : p c :=
  List.all_eq_true.1 hp c (isDelimiter_iff.1 h)

/-- A property of characters that no delimiter has is kept away from what follows. -/
theorem MayReplace.head (h : MayReplace rest rest') (hp : ∀ c ∈ rest.head?, p c = false)
    (hd : ∀ c, isDelimiter c → p c = false) : ∀ c ∈ rest'.head?, p c = false := by
  intro c hc
  obtain hsame | hdelimiter := h c hc
  · exact hp c hsame
  · exact hd c hdelimiter

theorem MayReplace.cons (c : Char) (rest rest' : List Char) :
    MayReplace (c :: rest) (c :: rest') := by
  intro d hd
  exact .inl hd

theorem MayReplace.append (hne : text ≠ []) (rest rest' : List Char) :
    MayReplace (text ++ rest) (text ++ rest') := by
  obtain ⟨c, text, rfl⟩ := List.exists_cons_of_ne_nil hne
  exact .cons c _ _

theorem MayReplace.append_left (h : MayReplace rest rest') (text : List Char) :
    MayReplace (text ++ rest) (text ++ rest') := by
  cases text with
  | nil => exact h
  | cons c text => exact .cons c _ _

-- ════════════════════════════════════════════════════════════════════════
-- Characters in a row
-- ════════════════════════════════════════════════════════════════════════

theorem takeWhile_append_stop (ht : ∀ c ∈ text, p c) (hr : ∀ c ∈ rest.head?, p c = false) :
    (text ++ rest).takeWhile p = text := by
  rw [List.takeWhile_append_of_pos ht]
  cases rest with
  | nil => simp
  | cons c rest => simp [hr c rfl]

theorem dropWhile_append_stop (ht : ∀ c ∈ text, p c) (hr : ∀ c ∈ rest.head?, p c = false) :
    (text ++ rest).dropWhile p = rest := by
  rw [List.dropWhile_append_of_pos ht]
  cases rest with
  | nil => rfl
  | cons c rest => simp [hr c rfl]

theorem head?_dropWhile (p : Char → Bool) (text : List Char) :
    ∀ c ∈ (text.dropWhile p).head?, p c = false := by
  induction text with
  | nil => simp
  | cons c text ih =>
    rw [List.dropWhile_cons]
    split
    · exact ih
    · simpa using ‹¬p c = true›

/-- The longest initial part of one class does not depend on what follows it. -/
theorem takeWhile_replace (h : MayReplace (text.dropWhile p) rest')
    (hd : ∀ c, isDelimiter c → p c = false) :
    (text.takeWhile p ++ rest').takeWhile p = text.takeWhile p ∧
      (text.takeWhile p ++ rest').dropWhile p = rest' := by
  have ht : ∀ c ∈ text.takeWhile p, p c := fun c hc => List.mem_takeWhile_imp hc
  have hr := h.head (head?_dropWhile p text) hd
  exact ⟨takeWhile_append_stop ht hr, dropWhile_append_stop ht hr⟩

theorem takeWhile_eq_nil_iff_head? :
    rest.takeWhile p = [] ↔ ∀ c ∈ rest.head?, p c = false := by
  cases rest with
  | nil => simp
  | cons c rest => cases hc : p c <;> simp [hc]

-- ════════════════════════════════════════════════════════════════════════
-- Classes of characters
-- ════════════════════════════════════════════════════════════════════════

theorem isWordPart_of_isDelimiter (h : isDelimiter c) : isWordPart c = false := by
  simpa using apply_isDelimiter (p := fun c => !isWordPart c) h (by decide)

theorem isDigit_of_isDelimiter (h : isDelimiter c) : c.isDigit = false := by
  simpa using apply_isDelimiter (p := fun c => !c.isDigit) h (by decide)

theorem isDigit_of_not_isWordPart (h : isWordPart c = false) : c.isDigit = false := by
  simp only [isWordPart, Bool.or_eq_false_iff] at h
  exact h.1.2

theorem isWordPart_of_isWordStart (h : isWordStart c) : isWordPart c := by
  simp [isWordPart, h]

theorem isWordStart_iff : isWordStart c ↔
    (((65 ≤ c.toNat ∧ c.toNat ≤ 90) ∨ 97 ≤ c.toNat ∧ c.toNat ≤ 122) ∨ c = '_') ∨
      128 ≤ c.toNat := by
  have hstart : isWordStart c = (((decide (c.val ≥ 'A'.val ∧ c.val ≤ 'Z'.val) ||
      (decide (c.val ≥ 'a'.val) && decide (c.val ≤ 'z'.val))) || decide (c = '_')) ||
      decide ('\x80' ≤ c)) := rfl
  simp only [hstart, Bool.or_eq_true, Bool.and_eq_true, decide_eq_true_eq, Char.le_def, ge_iff_le,
    UInt32.le_iff_toNat_le]
  exact Iff.rfl

theorem isWordPart_of_isHexDigit (h : isHexDigit c) : isWordPart c := by
  simp only [isHexDigit, Bool.or_eq_true, Bool.and_eq_true, decide_eq_true_eq,
    Char.isDigit_iff_toNat, Char.le_def, UInt32.le_iff_toNat_le] at h
  change ((48 ≤ c.toNat ∧ c.toNat ≤ 57) ∨ 97 ≤ c.toNat ∧ c.toNat ≤ 102) ∨
    65 ≤ c.toNat ∧ c.toNat ≤ 70 at h
  simp only [isWordPart, Bool.or_eq_true, isWordStart_iff, Char.isDigit_iff_toNat,
    Char.reduceToNat]
  omega

theorem isHexDigit_of_not_isWordPart (h : isWordPart c = false) : isHexDigit c = false := by
  cases hhex : isHexDigit c with
  | false => rfl
  | true => rw [isWordPart_of_isHexDigit hhex] at h; cases h

theorem isDigit_of_isWordStart (h : isWordStart c) : c.isDigit = false := by
  rw [← Bool.not_eq_true, Char.isDigit_iff_toNat]
  simp only [Char.reduceToNat]
  obtain (h | rfl) | h := isWordStart_iff.1 h
  · omega
  · decide
  · omega

namespace Enclosed

variable {close : Char} {doubles : Bool}

/-- Enclosed text does not depend on what follows its closing mark, unless that is the mark once
    more. -/
theorem read?_replace {e : Enclosed} (h : read? close doubles text = some e)
    (hrest : MayReplace e.rest rest') (hclose : isDelimiter close = false) :
    read? close doubles (e.inner ++ close :: rest') = some { e with rest := rest' } := by
  obtain ⟨-, hinner, hvalue, hhead⟩ := read?_eq_some.1 h
  refine read?_eq_some.2 ⟨rfl, hinner, hvalue, fun hdoubles hclose' => ?_⟩
  obtain hsame | hdelimiter := hrest close hclose'
  · exact hhead hdoubles hsame
  · rw [hclose] at hdelimiter
    cases hdelimiter

end Enclosed

namespace Number

variable {kind : TokenKind} {number : List Char}

/-- No word stands at the front of a text. -/
def AtBoundary (rest : List Char) : Prop := ∀ c ∈ rest.head?, isWordPart c = false

theorem AtBoundary.replace (h : AtBoundary rest) (hrest : MayReplace rest rest') :
    AtBoundary rest' :=
  hrest.head h fun _ => isWordPart_of_isDelimiter

theorem AtBoundary.digit (h : AtBoundary rest) : ∀ c ∈ rest.head?, c.isDigit = false :=
  fun c hc => isDigit_of_not_isWordPart (h c hc)

theorem AtBoundary.hexDigit (h : AtBoundary rest) : ∀ c ∈ rest.head?, isHexDigit c = false :=
  fun c hc => isHexDigit_of_not_isWordPart (h c hc)

theorem finish_of_atBoundary (h : AtBoundary rest) :
    finish text rest = ⟨[], text, .ok .number, rest⟩ := by
  unfold finish
  rw [takeWhile_eq_nil_iff_head?.2 h]

theorem finish_eq_ok (h : finish text rest = ⟨[], number, .ok kind, rest'⟩) :
    text = number ∧ rest = rest' ∧ kind = .number ∧ AtBoundary rest := by
  unfold finish at h
  split at h
  · rename_i hnil
    injection h with _ htext houtcome hrest
    exact ⟨htext, hrest, (Except.ok.inj houtcome).symm, takeWhile_eq_nil_iff_head?.1 hnil⟩
  · injection h with _ _ houtcome _
    cases houtcome

/-- A hexadecimal number does not depend on what follows it. -/
private theorem hexadecimal_replace {mark : List Char}
    (h : hexadecimal mark text = ⟨[], number, .ok kind, rest⟩) (hrest : MayReplace rest rest') :
    AtBoundary rest ∧ ∃ digits, number = mark ++ digits ∧
      hexadecimal mark (digits ++ rest') = ⟨[], number, .ok kind, rest'⟩ := by
  unfold hexadecimal at h
  split at h
  · injection h with _ _ houtcome _
    cases houtcome
  · rename_i hne
    obtain ⟨rfl, rfl, rfl, hboundary⟩ := finish_eq_ok h
    obtain ⟨htake, hdrop⟩ := takeWhile_replace hrest fun c hc =>
      isHexDigit_of_not_isWordPart (isWordPart_of_isDelimiter hc)
    refine ⟨hboundary, text.takeWhile isHexDigit, rfl, ?_⟩
    unfold hexadecimal
    rw [htake, hdrop]
    split
    · exact absurd ‹_› hne
    · exact finish_of_atBoundary (hboundary.replace hrest)

private theorem fraction_replace {part : List Char} (h : fraction text = (part, rest))
    (hrest : MayReplace rest rest') : fraction (part ++ rest') = (part, rest') := by
  unfold fraction at h
  split at h
  · obtain ⟨rfl, rfl⟩ := Prod.mk.inj h
    obtain ⟨htake, hdrop⟩ := takeWhile_replace hrest fun c => isDigit_of_isDelimiter
    rw [List.cons_append, fraction, htake, hdrop]
  · rename_i hpoint
    obtain ⟨rfl, rfl⟩ := Prod.mk.inj h
    rw [List.nil_append]
    unfold fraction
    split
    · rename_i rest'
      obtain hsame | hdelimiter := hrest '.' rfl
      · obtain ⟨tail, rfl⟩ := List.head?_eq_some_iff.1 hsame
        exact (hpoint tail rfl).elim
      · exact absurd hdelimiter (by decide)
    · rfl

theorem exponentMark_absent (h : ∀ c ∈ rest.head?, ¬(c = 'e' ∨ c = 'E')) :
    exponentMark rest = ([], rest) := by
  unfold exponentMark
  split
  · rfl
  · rename_i c rest
    rw [if_neg (h c rfl)]

theorem exponentMark_unsigned (hc : c = 'e' ∨ c = 'E')
    (h : ∀ d ∈ rest.head?, ¬(d = '+' ∨ d = '-')) : exponentMark (c :: rest) = ([c], rest) := by
  rw [exponentMark.eq_def]
  simp only [if_pos hc]
  split
  · rfl
  · rename_i d rest
    rw [if_neg (h d rfl)]

private theorem exponentMark_replace {mark : List Char} (h : exponentMark text = (mark, rest))
    (hrest : MayReplace rest rest') : exponentMark (mark ++ rest') = (mark, rest') := by
  -- a character that is missed behind the mark is not found in a delimiter either
  have hkeep : ∀ {q : Char → Prop}, (∀ c ∈ rest.head?, ¬q c) → (∀ c, isDelimiter c → ¬q c) →
      ∀ c ∈ rest'.head?, ¬q c := by
    intro q hq hd c hc
    obtain hsame | hdelimiter := hrest c hc
    · exact hq c hsame
    · exact hd c hdelimiter
  have hletter : ∀ c, isDelimiter c → ¬(c = 'e' ∨ c = 'E') := by
    intro c hc
    simpa using apply_isDelimiter (p := fun c => !decide (c = 'e' ∨ c = 'E')) hc (by decide)
  have hsign : ∀ c, isDelimiter c → ¬(c = '+' ∨ c = '-') := by
    intro c hc
    simpa using apply_isDelimiter (p := fun c => !decide (c = '+' ∨ c = '-')) hc (by decide)
  unfold exponentMark at h
  split at h
  · obtain ⟨rfl, rfl⟩ := Prod.mk.inj h
    exact exponentMark_absent (hkeep (by simp) hletter)
  · split at h
    · rename_i he
      split at h
      · obtain ⟨rfl, rfl⟩ := Prod.mk.inj h
        exact exponentMark_unsigned he (hkeep (by simp) hsign)
      · split at h
        · rename_i hmark
          obtain ⟨rfl, rfl⟩ := Prod.mk.inj h
          simp [exponentMark, he, hmark]
        · rename_i hmark
          obtain ⟨rfl, rfl⟩ := Prod.mk.inj h
          exact exponentMark_unsigned he (hkeep (by simpa using hmark) hsign)
    · rename_i he
      obtain ⟨rfl, rfl⟩ := Prod.mk.inj h
      exact exponentMark_absent (hkeep (by simpa using he) hletter)

/-- A decimal number does not depend on what follows it. -/
private theorem decimal_replace (h : decimal text = ⟨[], number, .ok kind, rest⟩)
    (hrest : MayReplace rest rest') :
    AtBoundary rest ∧ decimal (number ++ rest') = ⟨[], number, .ok kind, rest'⟩ := by
  rcases hf : fraction (text.dropWhile Char.isDigit) with ⟨part, rest₁⟩
  rcases hm : exponentMark rest₁ with ⟨mark, rest₂⟩
  have hf' := fraction_append (text.dropWhile Char.isDigit)
  have hm' := exponentMark_append rest₁
  rw [hf] at hf'
  rw [hm] at hm'
  simp only at hf' hm'
  -- whole and fractional digits end where they did, whatever stands behind them
  have hwhole : ∀ {tail}, MayReplace rest₁ tail →
      ((text.takeWhile Char.isDigit ++ (part ++ tail)).takeWhile Char.isDigit =
        text.takeWhile Char.isDigit) ∧
      fraction ((text.takeWhile Char.isDigit ++ (part ++ tail)).dropWhile Char.isDigit) =
        (part, tail) := by
    intro tail htail
    obtain ⟨htake, hdrop⟩ := takeWhile_replace (p := Char.isDigit)
      (hf' ▸ htail.append_left part) fun c => isDigit_of_isDelimiter
    rw [hdrop]
    exact ⟨htake, fraction_replace hf htail⟩
  unfold decimal at h
  simp only [hf, hm] at h
  split at h
  -- without a mark the number ends behind its fraction
  · rename_i hempty
    obtain rfl : mark = [] := by simpa using hempty
    obtain rfl : rest₂ = rest₁ := hm'
    obtain ⟨rfl, rfl, rfl, hboundary⟩ := finish_eq_ok h
    obtain ⟨htake, hfraction⟩ := hwhole hrest
    have hmark := exponentMark_replace hm hrest
    refine ⟨hboundary, ?_⟩
    unfold decimal
    rw [List.append_assoc, htake, hfraction]
    simp only [List.nil_append] at hmark
    simp only [hmark]
    exact finish_of_atBoundary (hboundary.replace hrest)
  · rename_i hmark
    split at h
    · injection h with _ _ houtcome _
      cases houtcome
    · rename_i hdigits
      obtain ⟨rfl, rfl, rfl, hboundary⟩ := finish_eq_ok h
      -- behind a mark there are digits, and they end where the number does
      obtain ⟨htake₂, hdrop₂⟩ := takeWhile_replace hrest fun c => isDigit_of_isDelimiter
      have htail : MayReplace rest₂ (rest₂.takeWhile Char.isDigit ++ rest') := by
        have := hrest.append_left (rest₂.takeWhile Char.isDigit)
        rwa [List.takeWhile_append_dropWhile] at this
      obtain ⟨htake, hfraction⟩ := hwhole (hm' ▸ htail.append_left mark)
      refine ⟨hboundary, ?_⟩
      unfold decimal
      simp only [List.append_assoc, htake, hfraction, exponentMark_replace hm htail, htake₂, hdrop₂]
      rw [if_neg hmark]
      exact finish_of_atBoundary (hboundary.replace hrest)

/-- A number does not depend on what follows it. -/
theorem read_replace (h : read (text ++ rest) = ⟨[], text, .ok kind, rest⟩) (hne : text ≠ [])
    (hrest : MayReplace rest rest') :
    AtBoundary rest ∧ read (text ++ rest') = ⟨[], text, .ok kind, rest'⟩ := by
  unfold read at h
  split at h
  · obtain ⟨hboundary, digits, rfl, hread⟩ := hexadecimal_replace h hrest
    exact ⟨hboundary, hread⟩
  · obtain ⟨hboundary, digits, rfl, hread⟩ := hexadecimal_replace h hrest
    exact ⟨hboundary, hread⟩
  · rename_i hlower hupper
    obtain ⟨hboundary, hread⟩ := decimal_replace h hrest
    refine ⟨hboundary, ?_⟩
    -- the mark of a hexadecimal number would have to be part of what follows
    have hmark : ∀ x tail, isWordPart x → text ++ rest' = '0' :: x :: tail →
        ∃ tail', text ++ rest = '0' :: x :: tail' := by
      intro x tail hx heq
      match text, hne with
      | [c], _ =>
        obtain ⟨rfl, rfl⟩ := List.cons.inj heq
        rw [hboundary.replace hrest x rfl] at hx
        cases hx
      | c :: d :: text, _ =>
        obtain ⟨hc, htail⟩ := List.cons.inj heq
        obtain ⟨hd, -⟩ := List.cons.inj htail
        exact ⟨text ++ rest, hc ▸ hd ▸ rfl⟩
    unfold read
    split
    · rename_i tail heq
      obtain ⟨tail', heq'⟩ := hmark 'x' tail (by decide) heq
      exact (hlower tail' heq').elim
    · rename_i tail heq
      obtain ⟨tail', heq'⟩ := hmark 'X' tail (by decide) heq
      exact (hupper tail' heq').elim
    · exact hread

end Number

theorem Quote.ofOpening?_eq_some {quote : Quote} :
    Quote.ofOpening? c = some quote ↔ c = quote.opening := by
  constructor
  · intro h
    have hopening : quote.opening = c := by simpa using List.find?_some h
    exact hopening.symm
  · rintro rfl
    cases quote <;> rfl

theorem Quote.ofOpening?_of_isWordStart (h : isWordStart c) : Quote.ofOpening? c = none := by
  unfold Quote.ofOpening?
  rw [List.find?_eq_none]
  intro quote _ hopening
  obtain rfl : quote.opening = c := by simpa using hopening
  revert h
  cases quote <;> decide

namespace Lexeme

variable {kind : TokenKind} {op : List Char}

/-- `op` is the longest operator that a text begins with. -/
def Longest (op text : List Char) : Prop :=
  op ∈ operators ∧ op <+: text ∧ ∀ o ∈ operators, o <+: text → o.length ≤ op.length

theorem longest_of_find? (h : operators.find? (·.isPrefixOf text) = some op) :
    Longest op text := by
  have hsorted : operators.Pairwise fun a b => b.length ≤ a.length := by decide
  obtain ⟨hop, before, behind, heq, hbefore⟩ := List.find?_eq_some_iff_append.1 h
  refine ⟨List.mem_of_find?_eq_some h, List.isPrefixOf_iff_prefix.1 hop, fun o ho hpo => ?_⟩
  rw [heq] at ho hsorted
  obtain ho | ho := List.mem_append.1 ho
  · have := hbefore o ho
    simp [List.isPrefixOf_iff_prefix.2 hpo] at this
  · obtain rfl | ho := List.mem_cons.1 ho
    · exact le_rfl
    · exact (List.pairwise_cons.1 (List.pairwise_append.1 hsorted).2.1).1 o ho

theorem find?_of_longest (h : Longest op text) :
    operators.find? (·.isPrefixOf text) = some op := by
  obtain ⟨hmem, hprefix, hlongest⟩ := h
  obtain ⟨o, ho⟩ : ∃ o, operators.find? (·.isPrefixOf text) = some o := by
    rw [← Option.isSome_iff_exists, List.find?_isSome]
    exact ⟨op, hmem, List.isPrefixOf_iff_prefix.2 hprefix⟩
  obtain ⟨hmem', hprefix', hlongest'⟩ := longest_of_find? ho
  have hlength : op.length = o.length :=
    le_antisymm (hlongest' op hmem hprefix) (hlongest o hmem' hprefix')
  rw [ho, (List.prefix_of_prefix_length_le hprefix hprefix' hlength.le).eq_of_length hlength]

/-- From the second character on, an operator cut short is an operator. -/
theorem take_mem_operators {o : List Char} (ho : o ∈ operators) {n : Nat} (hn : 2 ≤ n) :
    o.take n ∈ operators := by
  have hlength : ∀ o ∈ operators, o.length ≤ 3 := by decide
  have htwo : ∀ o ∈ operators, o.take 2 ∈ operators := by decide
  obtain rfl | hn : n = 2 ∨ 3 ≤ n := by omega
  · exact htwo o ho
  · rw [List.take_of_length_le ((hlength o ho).trans hn)]
    exact ho

/-- The longest operator does not depend on what follows it. -/
theorem Longest.replace (h : Longest op (op ++ rest)) (hrest : MayReplace rest rest') :
    Longest op (op ++ rest') := by
  obtain ⟨hmem, -, hlongest⟩ := h
  refine ⟨hmem, List.prefix_append _ _, fun o ho hpo => ?_⟩
  refine Nat.le_of_not_lt fun hlt => ?_
  -- a longer operator would begin with this one and the first character behind it
  obtain ⟨more, rfl⟩ : op <+: o :=
    List.prefix_of_prefix_length_le (List.prefix_append _ _) hpo hlt.le
  obtain ⟨c, more, rfl⟩ : ∃ c more', more = c :: more' := by
    refine List.exists_cons_of_ne_nil fun hnil => ?_
    simp [hnil] at hlt
  have hc : c ∈ rest'.head? := by
    obtain ⟨tail, htail⟩ := (List.prefix_append_right_inj op).1 hpo
    rw [← htail]
    rfl
  obtain hsame | hdelimiter := hrest c hc
  · obtain ⟨tail, rfl⟩ := List.head?_eq_some_iff.1 hsame
    have hne : op ≠ [] := by
      rintro rfl
      exact absurd hmem (by decide)
    have hpos := List.length_pos_iff.2 hne
    have htake := take_mem_operators ho (n := op.length + 1) (by omega)
    have heq : (op ++ c :: more).take (op.length + 1) = op ++ [c] := by
      rw [List.take_append, List.take_of_length_le (by omega)]
      simp
    have hle := hlongest _ (heq ▸ htake) ⟨tail, by simp⟩
    rw [List.length_append, List.length_singleton] at hle
    omega
  · have hnone : (operators.all fun o => o.all fun c => !isDelimiter c) = true := by decide
    simp only [List.all_eq_true, Bool.not_eq_true'] at hnone
    rw [hnone _ ho c (by simp)] at hdelimiter
    cases hdelimiter

theorem operator_replace {tail tail' : List Char}
    (h : operator c tail = ⟨[], text, .ok kind, rest⟩) (htail : c :: tail = text ++ rest)
    (hrest : MayReplace rest rest') (htail' : c :: tail' = text ++ rest') :
    operator c tail' = ⟨[], text, .ok kind, rest'⟩ := by
  unfold operator at h
  split at h
  · rename_i op hop
    injection h with _ htext houtcome _
    subst htext
    have hlongest := longest_of_find? hop
    rw [htail] at hlongest
    unfold operator
    rw [htail', find?_of_longest (hlongest.replace hrest), ← houtcome]
    simp
  · injection h with _ _ houtcome _
    cases houtcome

section

variable {tail : List Char}

/-- What a word is: the keyword that it spells, or a name. -/
def wordKind (letters : List Char) : TokenKind :=
  match Keyword.ofWord? letters with
  | some k => .keyword k
  | none => .identifier

theorem word_eq (text : List Char) :
    word text = ⟨[], text.takeWhile isWordPart, .ok (wordKind (text.takeWhile isWordPart)),
      text.dropWhile isWordPart⟩ := rfl

/-- A letter that opens a blob, before a quote. -/
def OpensBlob (c : Char) (tail : List Char) : Prop :=
  (c = 'x' ∨ c = 'X') ∧ tail.head? = some Quote.single.opening

theorem first_of_quote {quote : Quote} (h : Quote.ofOpening? c = some quote) :
    first (c :: tail) = quoted quote tail := by
  simp only [first, h]

theorem first_of_blob (hq : Quote.ofOpening? c = none) (h : OpensBlob c tail) :
    first (c :: tail) = blob c tail.tail := by
  simp only [first, hq]
  exact if_pos h

theorem first_of_number (hq : Quote.ofOpening? c = none) (hb : ¬OpensBlob c tail)
    (h : Number.Starts c tail) : first (c :: tail) = Number.read (c :: tail) := by
  simp only [first, hq]
  exact (if_neg hb).trans (if_pos h)

theorem first_of_word (hq : Quote.ofOpening? c = none) (hb : ¬OpensBlob c tail)
    (hn : ¬Number.Starts c tail) (h : isWordStart c) : first (c :: tail) = word (c :: tail) := by
  simp only [first, hq]
  exact (if_neg hb).trans ((if_neg hn).trans (if_pos h))

/-- A letter and what continues a word behind it, up to where the word ends, are one word. Behind a
    single `x` no quote stands, or it would be a blob. -/
theorem first_of_letters (hstart : isWordStart c) (hparts : ∀ d ∈ c :: tail, isWordPart d)
    (hrest : ∀ d ∈ rest.head?, isWordPart d = false)
    (hquote : rest.head? ≠ some Quote.single.opening) :
    first (c :: (tail ++ rest)) = ⟨[], c :: tail, .ok (wordKind (c :: tail)), rest⟩ := by
  -- lexemes of other sorts are tried before words: none of them begins like this
  have hblob : ¬OpensBlob c (tail ++ rest) := by
    rintro ⟨-, hhead⟩
    cases tail with
    | nil => exact hquote hhead
    | cons d tail =>
      obtain rfl : d = Quote.single.opening := Option.some.inj hhead
      exact absurd (hparts Quote.single.opening (by simp)) (by decide)
  have hnumber : ¬Number.Starts c (tail ++ rest) := by
    rintro (hdigit | ⟨rfl, -⟩)
    · rw [isDigit_of_isWordStart hstart] at hdigit
      cases hdigit
    · exact absurd hstart (by decide)
  rw [first_of_word (Quote.ofOpening?_of_isWordStart hstart) hblob hnumber hstart, word_eq,
    ← List.cons_append, takeWhile_append_stop hparts hrest, dropWhile_append_stop hparts hrest]

theorem first_of_punctuation (hq : Quote.ofOpening? c = none) (hb : ¬OpensBlob c tail)
    (hn : ¬Number.Starts c tail) (hw : isWordStart c = false) {kind : TokenKind}
    (h : punctuation? c = some kind) : first (c :: tail) = ⟨[], [c], .ok kind, tail⟩ := by
  simp only [first, hq]
  refine (if_neg hb).trans ((if_neg hn).trans ?_)
  simp [hw, h]

theorem first_of_operator (hq : Quote.ofOpening? c = none) (hb : ¬OpensBlob c tail)
    (hn : ¬Number.Starts c tail) (hw : isWordStart c = false) (h : punctuation? c = none) :
    first (c :: tail) = operator c tail := by
  simp only [first, hq]
  refine (if_neg hb).trans ((if_neg hn).trans ?_)
  simp [hw, h]

/-- What the lexeme of a text without trivia can be, and the first characters that make it so. -/
inductive First (c : Char) (rest : List Char) : Lexeme → Prop
  | quoted {quote : Quote} : c = quote.opening → First c rest (quoted quote rest)
  | blob : OpensBlob c rest → First c rest (blob c rest.tail)
  | number : Number.Starts c rest → First c rest (Number.read (c :: rest))
  | word : isWordStart c → ¬OpensBlob c rest → First c rest (word (c :: rest))
  | punctuation {kind : TokenKind} : punctuation? c = some kind → ¬Number.Starts c rest →
    First c rest ⟨[], [c], .ok kind, rest⟩
  | operator : isWordStart c = false → punctuation? c = none → First c rest (operator c rest)

/-- The lexeme of a text that is not over. -/
theorem first_cons (c : Char) (rest : List Char) : First c rest (first (c :: rest)) := by
  cases hq : Quote.ofOpening? c with
  | some quote =>
    rw [first_of_quote hq]
    exact .quoted (Quote.ofOpening?_eq_some.1 hq)
  | none =>
    by_cases hb : OpensBlob c rest
    · rw [first_of_blob hq hb]
      exact .blob hb
    by_cases hn : Number.Starts c rest
    · rw [first_of_number hq hb hn]
      exact .number hn
    by_cases hw : isWordStart c
    · rw [first_of_word hq hb hn hw]
      exact .word hw hb
    rw [Bool.not_eq_true] at hw
    cases hp : punctuation? c with
    | some kind =>
      rw [first_of_punctuation hq hb hn hw hp]
      exact .punctuation hp hn
    | none =>
      rw [first_of_operator hq hb hn hw hp]
      exact .operator hw hp

end

section

variable {kind : TokenKind} {after : List Char}

theorem not_opensBlob_replace (h : ¬OpensBlob c (text ++ rest)) (hrest : MayReplace rest rest') :
    ¬OpensBlob c (text ++ rest') := by
  rintro ⟨hc, hhead⟩
  have hfalse := (hrest.append_left text).head (p := (· == Quote.single.opening))
    (fun d hd => by
      rw [beq_eq_false_iff_ne]
      rintro rfl
      exact h ⟨hc, hd⟩)
    (fun d hd => by
      simpa using apply_isDelimiter (p := fun d => !(d == Quote.single.opening)) hd (by decide))
  simpa using hfalse _ hhead

theorem not_starts_replace (h : ¬Number.Starts c (text ++ rest)) (hrest : MayReplace rest rest') :
    ¬Number.Starts c (text ++ rest') := by
  rintro (hc | ⟨rfl, hhead⟩)
  · exact h (.inl hc)
  · obtain ⟨d, hd, hdigit⟩ := (Option.any_eq_true ..).1 hhead
    have hfalse := (hrest.append_left text).head (p := Char.isDigit)
      (fun d hd => by
        cases hdigit : d.isDigit with
        | false => rfl
        | true => exact (h (.inr ⟨rfl, by rw [hd]; exact hdigit⟩)).elim)
      (fun d => isDigit_of_isDelimiter)
    rw [hfalse d hd] at hdigit
    cases hdigit

theorem quoted_replace {quote : Quote} (h : quoted quote after = ⟨[], text, .ok kind, rest⟩)
    (hrest : MayReplace rest rest') :
    ∃ inner, text = quote.opening :: inner ∧
      quoted quote (inner ++ rest') = ⟨[], text, .ok kind, rest'⟩ := by
  have hclosing : isDelimiter quote.closing = false := by cases quote <;> decide
  unfold quoted at h
  split at h
  · injection h with _ _ houtcome _
    cases houtcome
  · rename_i e he
    injection h with _ htext houtcome hrest'
    subst htext hrest'
    refine ⟨e.inner ++ [quote.closing], rfl, ?_⟩
    unfold quoted
    rw [List.append_assoc, List.singleton_append, Enclosed.read?_replace he hrest hclosing]
    simp only [houtcome]

theorem blob_replace {letter : Char} (h : blob letter after = ⟨[], text, .ok kind, rest⟩)
    (hrest : MayReplace rest rest') :
    ∃ inner, text = letter :: Quote.single.opening :: inner ∧
      blob letter (inner ++ rest') = ⟨[], text, .ok kind, rest'⟩ := by
  unfold blob at h
  split at h
  · injection h with hlead _ _ _
    cases hlead
  · rename_i e he
    injection h with _ htext houtcome hrest'
    subst htext hrest'
    refine ⟨e.inner ++ [Quote.single.closing], rfl, ?_⟩
    unfold blob
    rw [List.append_assoc, List.singleton_append,
      Enclosed.read?_replace he hrest (by decide : isDelimiter Quote.single.closing = false)]
    simp only [houtcome]

theorem word_replace (h : word after = ⟨[], text, .ok kind, rest⟩) (hrest : MayReplace rest rest') :
    word (text ++ rest') = ⟨[], text, .ok kind, rest'⟩ := by
  unfold word at h
  injection h with _ htext houtcome hrest'
  subst htext hrest'
  obtain ⟨htake, hdrop⟩ := takeWhile_replace hrest fun c => isWordPart_of_isDelimiter
  unfold word
  simp only [htake, hdrop, houtcome]

/-- A lexeme does not depend on what follows it. -/
theorem first_replace (h : first (text ++ rest) = ⟨[], text, .ok kind, rest⟩) (hne : text ≠ [])
    (hrest : MayReplace rest rest') : first (text ++ rest') = ⟨[], text, .ok kind, rest'⟩ := by
  obtain ⟨c, text, rfl⟩ := List.exists_cons_of_ne_nil hne
  simp only [List.cons_append] at h ⊢
  cases hq : Quote.ofOpening? c with
  | some quote =>
    rw [first_of_quote hq] at h ⊢
    obtain ⟨inner, htext, hquoted⟩ := quoted_replace h hrest
    obtain ⟨-, rfl⟩ := List.cons.inj htext
    exact hquoted
  | none =>
    by_cases hb : OpensBlob c (text ++ rest)
    · rw [first_of_blob hq hb] at h
      obtain ⟨inner, htext, hblob⟩ := blob_replace h hrest
      obtain ⟨-, rfl⟩ := List.cons.inj htext
      rw [first_of_blob hq ⟨hb.1, rfl⟩]
      exact hblob
    have hb' := not_opensBlob_replace hb hrest
    by_cases hn : Number.Starts c (text ++ rest)
    · rw [first_of_number hq hb hn] at h
      rw [← List.cons_append] at h
      obtain ⟨hboundary, hread⟩ := Number.read_replace h hne hrest
      -- a point alone is no number, so the digit behind it is part of the lexeme
      have hn' : Number.Starts c (text ++ rest') := by
        obtain hc | ⟨hc, hhead⟩ := hn
        · exact .inl hc
        · refine .inr ⟨hc, ?_⟩
          cases text with
          | cons d text => exact hhead
          | nil =>
            obtain ⟨d, hd, hdigit⟩ := (Option.any_eq_true ..).1 hhead
            rw [hboundary.digit d hd] at hdigit
            cases hdigit
      rw [first_of_number hq hb' hn']
      exact hread
    have hn' := not_starts_replace hn hrest
    by_cases hw : isWordStart c
    · rw [first_of_word hq hb hn hw] at h
      rw [first_of_word hq hb' hn' hw]
      exact word_replace h hrest
    rw [Bool.not_eq_true] at hw
    cases hp : punctuation? c with
    | some kind' =>
      rw [first_of_punctuation hq hb hn hw hp] at h
      injection h with _ htext houtcome _
      obtain ⟨-, rfl⟩ := List.cons.inj htext
      rw [first_of_punctuation hq hb' hn' hw hp, houtcome]
      rfl
    | none =>
      rw [first_of_operator hq hb hn hw hp] at h
      rw [first_of_operator hq hb' hn' hw hp]
      exact operator_replace h rfl hrest rfl

end

end Lexeme

end CreateTable.Lexical
