import CreateTable.Proofs.Lexical.Bytes
import CreateTable.Proofs.Lexical.Numerals
import CreateTable.Proofs.Lexical.SingleTokens

/-!
# The grammar of literals and words

Which texts are blobs, words and keywords, said without the scan that reads them. With the grammar
of numbers, these are the texts that are one token, and a scan takes the longest of them.

## Main definitions

- `BlobLiteral` — how blobs are written
- `BareWord` — how bare names and keywords are written
- `Keyword.maxLength` — the length of the longest keyword

## Main statements

- `isToken_number`, `isToken_blob`, `isToken_word`, `isToken_keyword` — these texts, and no others,
  are one token of each kind
- `literals_and_longest_match` — all of them, and the longest match
-/

namespace CreateTable

namespace Lexical

variable {c : Char} {text rest tail : List Char} {kind : TokenKind}

-- ════════════════════════════════════════════════════════════════════════
-- Blobs
-- ════════════════════════════════════════════════════════════════════════

/-- `('x' | 'X') ''' {hexDigit hexDigit} '''`. -/
inductive BlobLiteral : List Char → Prop
  | mk {x : Char} {digits : List Char} : x = 'x' ∨ x = 'X' → (∀ c ∈ digits, isHexDigit c) →
    digits.length % 2 = 0 → BlobLiteral (x :: '\x27' :: (digits ++ ['\x27']))

namespace Lexeme

theorem blobLiteral_of_blob (hc : c = 'x' ∨ c = 'X')
    (h : blob c rest = ⟨[], text, .ok kind, tail⟩) : BlobLiteral text := by
  unfold blob at h
  split at h
  · injection h with _ _ houtcome _
    cases houtcome
  · injection h with _ htext houtcome _
    subst htext
    split at houtcome
    · rename_i hdigits
      exact .mk hc (List.all_eq_true.1 hdigits.1) hdigits.2
    · cases houtcome

theorem first_blobLiteral (h : BlobLiteral text) : first text = ⟨[], text, .ok .blob, []⟩ := by
  obtain ⟨hx, hdigits, hlength⟩ := h
  rename_i x digits
  have hopening : Quote.ofOpening? x = none := by obtain rfl | rfl := hx <;> rfl
  have hread : Enclosed.read? Quote.single.closing false (digits ++ ['\x27']) =
      some ⟨digits, digits, []⟩ := by
    refine Enclosed.read?_eq_some.2 ⟨rfl, rfl, fun _ hmem => ?_, nofun⟩
    exact absurd (hdigits _ hmem) (by decide)
  rw [first_of_blob hopening ⟨hx, rfl⟩, List.tail_cons, blob, hread]
  simp only [if_pos (And.intro (List.all_eq_true.2 hdigits) hlength)]
  rfl

end Lexeme

-- ════════════════════════════════════════════════════════════════════════
-- Words
-- ════════════════════════════════════════════════════════════════════════

/-- A letter, an underscore or what is not ASCII, and behind it such characters, digits and dollar
    signs. -/
def BareWord (text : List Char) : Prop :=
  ∃ c rest, text = c :: rest ∧ isWordStart c ∧ ∀ d ∈ rest, isWordPart d

/-- A word is one lexeme. -/
theorem BareWord.first_eq (h : BareWord text) :
    Lexeme.first text = ⟨[], text, .ok (Lexeme.wordKind text), []⟩ := by
  obtain ⟨c, rest, rfl, hstart, hrest⟩ := h
  have hparts : ∀ d ∈ c :: rest, isWordPart d :=
    List.forall_mem_cons.2 ⟨isWordPart_of_isWordStart hstart, hrest⟩
  have hend : ∀ d ∈ ([] : List Char).head?, isWordPart d = false := by simp
  simpa using Lexeme.first_of_letters hstart hparts hend (by simp)

theorem BareWord.not_begins (h : BareWord text) : ¬Trivia.Begins text := by
  obtain ⟨c, rest, rfl, hstart, -⟩ := h
  exact Trivia.not_begins_of_isWordPart (isWordPart_of_isWordStart hstart) rest

theorem coarse_isWordStart : Coarse isWordStart := by
  refine coarse_of_high true (by decide) fun c hc => ?_
  exact isWordStart_iff.2 (.inr hc)

/-- A text is a word in every spelling or in none. -/
theorem word_respell {h : Char → List Char} (hh : Respelling h) :
    BareWord (respell h text) ↔ BareWord text := by
  constructor
  · rintro ⟨d, rest, htext, hstart, hrest⟩
    cases text with
    | nil => cases htext
    | cons c text =>
      obtain ⟨e, es, hc⟩ := List.exists_cons_of_ne_nil (hh.ne_nil c)
      rw [respell_cons, hc, List.cons_append] at htext
      obtain ⟨rfl, rfl⟩ := List.cons.inj htext
      have hmem : e ∈ h c := by simp [hc]
      refine ⟨c, text, rfl, hh.apply_eq coarse_isWordStart hmem ▸ hstart, fun d hd => ?_⟩
      obtain ⟨f, fs, hd'⟩ := List.exists_cons_of_ne_nil (hh.ne_nil d)
      have hmem : f ∈ h d := by simp [hd']
      rw [← hh.apply_eq coarse_isWordPart hmem]
      exact hrest f (List.mem_append_right _ (List.mem_flatMap.2 ⟨d, hd, hmem⟩))
  · rintro ⟨c, rest, rfl, hstart, hrest⟩
    obtain ⟨e, es, hc⟩ := List.exists_cons_of_ne_nil (hh.ne_nil c)
    have hclass : ∀ {b d}, isWordPart b → d ∈ h b → isWordPart d :=
      fun hb hd => (hh.apply_eq coarse_isWordPart hd).trans hb
    refine ⟨e, es ++ respell h rest, by rw [respell_cons, hc, List.cons_append], ?_, fun d hd => ?_⟩
    · exact (hh.apply_eq coarse_isWordStart (by simp [hc])).trans hstart
    · obtain hd | hd := List.mem_append.1 hd
      · exact hclass (isWordPart_of_isWordStart hstart) (hc ▸ List.mem_cons_of_mem e hd)
      · obtain ⟨b, hb, hd⟩ := List.mem_flatMap.1 hd
        exact hclass (hrest b hb) hd

end Lexical

namespace Keyword

variable {k : Keyword} {text : List Char}

/-- The length of the longest keyword. -/
def maxLength : Nat := 13

theorem ofWord?_eq_some : ofWord? text = some k ↔ Text.upper text = k.spelling.toList := by
  constructor
  · intro h
    have hspelling : k.spelling = String.ofList (text.map Char.toUpper) := by
      simpa using List.find?_some h
    rw [hspelling, String.toList_ofList, Text.upper]
  · intro h
    have hfind : all.find? (·.spelling == k.spelling) = some k := by
      cases k <;> rfl
    rw [ofWord?, ← hfind]
    change all.find? (·.spelling == String.ofList (Text.upper text)) = _
    rw [h, String.ofList_toList]

/-- A text that spells a keyword is no longer than the longest one. -/
theorem byteLength_le_maxLength (h : Text.upper text = k.spelling.toList) :
    Text.byteLength text ≤ maxLength := by
  rw [← Lexical.byteLength_upper, h]
  cases k <;> decide

/-- A text that spells a keyword is a word. -/
theorem word_of_upper (h : Text.upper text = k.spelling.toList) : Lexical.BareWord text := by
  have hletters : k.spelling.toList ≠ [] ∧ k.spelling.toList.all Lexical.isWordStart := by
    cases k <;> decide
  rw [← h, List.all_eq_true] at hletters
  have hall : ∀ c ∈ text, Lexical.isWordStart c := fun c hc =>
    (Lexical.coarse_isWordStart.1 c).symm.trans (hletters.2 _ (List.mem_map_of_mem hc))
  cases text with
  | nil => exact absurd rfl hletters.1
  | cons c rest =>
    rw [List.forall_mem_cons] at hall
    exact ⟨c, rest, rfl, hall.1, fun d hd => Lexical.isWordPart_of_isWordStart (hall.2 d hd)⟩

end Keyword

-- ════════════════════════════════════════════════════════════════════════
-- Texts that are one token
-- ════════════════════════════════════════════════════════════════════════

open Lexical

variable {text : List Char} {kind : TokenKind} {k : Keyword}

theorem isToken_number : IsToken .number text ↔ Number.Literal text := by
  constructor
  · intro h
    obtain ⟨c, rest, rfl, hstarts, hread⟩ := h.readAs
    exact Number.literal_of_read hstarts hread.symm
  · intro h
    obtain ⟨c, rest, rfl, hstarts⟩ := h.starts
    refine isToken_iff.2 ⟨by simp, hstarts.not_begins, ?_⟩
    rw [Lexeme.first_of_number hstarts.ofOpening? hstarts.not_opensBlob hstarts, h.read_eq]

theorem isToken_blob : IsToken .blob text ↔ BlobLiteral text := by
  constructor
  · intro h
    obtain ⟨c, rest, rfl, hopens, hread⟩ := h.readAs
    exact Lexeme.blobLiteral_of_blob hopens.1 hread.symm
  · intro h
    refine isToken_iff.2 ⟨by simp, ?_, Lexeme.first_blobLiteral h⟩
    obtain ⟨hx, -⟩ := h
    obtain rfl | rfl := hx <;> exact Trivia.not_begins_of_isWordPart rfl _

/-- A word is one token, of the kind that the word has. -/
theorem Lexical.BareWord.isToken (h : BareWord text) : IsToken (Lexeme.wordKind text) text := by
  refine isToken_iff.2 ⟨?_, h.not_begins, h.first_eq⟩
  unfold Lexeme.wordKind
  split <;> simp

/-- What is read as a word is one, of the kind that the word has. -/
theorem word_of_readAs {c : Char} {rest : List Char} (hstart : isWordStart c)
    (hread : ⟨[], c :: rest, .ok kind, []⟩ = Lexeme.word (c :: rest)) :
    BareWord (c :: rest) ∧ kind = Lexeme.wordKind (c :: rest) := by
  rw [Lexeme.word_eq] at hread
  injection hread with _ htext houtcome _
  rw [← htext] at houtcome
  refine ⟨⟨c, rest, rfl, hstart, fun d hd => ?_⟩, Except.ok.inj houtcome⟩
  have hmem : d ∈ (c :: rest).takeWhile isWordPart := htext ▸ List.mem_cons_of_mem c hd
  exact List.mem_takeWhile_imp hmem

theorem isToken_keyword : IsToken (.keyword k) text ↔ Text.upper text = k.spelling.toList := by
  rw [← Keyword.ofWord?_eq_some]
  constructor
  · intro h
    obtain ⟨c, rest, rfl, hstart, hread⟩ := h.readAs
    obtain ⟨-, hkind⟩ := word_of_readAs hstart hread
    unfold Lexeme.wordKind at hkind
    split at hkind
    · rename_i hword
      rw [hword, TokenKind.keyword.inj hkind]
    · cases hkind
  · intro h
    have hword := Keyword.word_of_upper (Keyword.ofWord?_eq_some.1 h)
    have hkind : Lexeme.wordKind text = .keyword k := by rw [Lexeme.wordKind, h]
    exact hkind ▸ hword.isToken

theorem isToken_word :
    (IsToken .identifier text ∨ ∃ k, IsToken (.keyword k) text) ↔ BareWord text := by
  constructor
  · rintro (h | ⟨k, h⟩)
    all_goals
      obtain ⟨c, rest, rfl, hstart, hread⟩ := h.readAs
      exact (word_of_readAs hstart hread).1
  · intro h
    have htoken := h.isToken
    unfold Lexeme.wordKind at htoken
    split at htoken
    · exact .inr ⟨_, htoken⟩
    · exact .inl htoken

/-- Texts are one token just where the grammar of literals and words says so; and of the texts that
    begin at one place, the one that is read is the longest that is a token. -/
theorem literals_and_longest_match (w : String) :
    (IsToken .number w.toList ↔ Number.Literal w.toList) ∧
    (IsToken .blob w.toList ↔ BlobLiteral w.toList) ∧
    ((IsToken .identifier w.toList ∨ ∃ k, IsToken (.keyword k) w.toList) ↔ BareWord (bytes w)) ∧
    (∀ k, IsToken (.keyword k) w.toList ↔ Text.upperCase w = k.spelling) ∧
    (∀ k, IsToken (.keyword k) w.toList → w.utf8ByteSize ≤ Keyword.maxLength) ∧
    ∀ (c c' : Cursor) (t : Token), c.next = (.ok t, c') →
      (t.kind ≠ .endOfInput → IsToken t.kind t.text) ∧
      (w.toList <+: c.rest.drop t.lead.length → t.text.length < w.toList.length →
        ∀ kind, ¬IsToken kind w.toList) := by
  refine ⟨isToken_number, isToken_blob, ?_, fun k => ?_, fun k hk => ?_, fun c c' t hnext => ?_⟩
  · rw [bytes_eq_respell, word_respell respelling_characterBytes]
    exact isToken_word
  · rw [isToken_keyword, ← String.toList_inj, Text.toList_upperCase]
  · rw [← Text.byteLength_toList]
    exact Keyword.byteLength_le_maxLength (isToken_keyword.1 hk)
  · exact ⟨isToken_of_next hnext,
      fun hprefix hlength _ => not_isToken_of_length_lt hnext hprefix hlength⟩

/-- A number with a sign in it, and one behind it that is not part of it. -/
theorem literals_and_longest_match_sign :
    IsToken .number ".5E-1".toList ∧ ∀ kind, ¬IsToken kind ".5E-1+".toList := by
  have hdigits : ∀ d : Char, d.isDigit → Number.Digits [d] := fun d hd => ⟨by simp, by simpa⟩
  have hnext : (⟨3, " .5E-1+x".toList⟩ : Cursor).next =
      (.ok ⟨.number, [' '], ".5E-1".toList, 4⟩, ⟨9, "+x".toList⟩) :=
    Prod.ext (eq_ok_of_toOption (by decide +kernel)) (by decide +kernel)
  constructor
  · refine (literals_and_longest_match ".5E-1").1.2 ?_
    exact .dec (.leading (hdigits '5' rfl)) (.signed (.inr rfl) (.inr rfl) (hdigits '1' rfl))
  · obtain ⟨-, -, -, -, -, hlongest⟩ := literals_and_longest_match ".5E-1+"
    exact (hlongest _ _ _ hnext).2 ⟨['x'], by decide +kernel⟩ (by decide)

end CreateTable
