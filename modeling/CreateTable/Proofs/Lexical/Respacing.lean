import CreateTable.Proofs.Lexical.SingleTokens

/-!
# Other spaces between tokens

Tokens keep their kinds and texts if what stands between them is replaced, as long as the
replacement begins with a blank.

## Main definitions

- `Trivia.Separator` — blanks and closed comments, the first of them a blank
- `Token.respaced` — the texts of tokens with other separators between them

## Main statements

- `Cursor.Reads.respaced` — behind the first token, all others are read again
- `tokenize_respaced` — the tokens of a text are those of the same text with other spaces
-/

namespace CreateTable

open Lexical

variable {gap rest : List Char} {gaps : List (List Char)}

/-- Blanks and comments that are closed, where a blank comes first. -/
structure Lexical.Trivia.Separator (gap : List Char) : Prop where
  begins : ∃ c ∈ gap.head?, isBlank c
  gap : Trivia.Gap false gap

theorem Lexical.Trivia.Separator.exists_cons (h : Trivia.Separator gap) :
    ∃ c tail, gap = c :: tail ∧ isDelimiter c := by
  obtain ⟨c, hc, hblank⟩ := h.begins
  obtain ⟨tail, rfl⟩ := List.head?_eq_some_iff.1 hc
  exact ⟨c, tail, rfl, isDelimiter_of_isBlank hblank⟩

/-- What begins with a separator may follow any token. -/
theorem Lexical.Trivia.Separator.mayReplace (h : Trivia.Separator gap) (rest rest' : List Char) :
    MayReplace rest (gap ++ rest') := by
  obtain ⟨c, tail, rfl, hdelimiter⟩ := h.exists_cons
  intro d hd
  obtain rfl : c = d := Option.some.inj hd
  exact .inr hdelimiter

namespace Token

/-- The texts of tokens, with a gap before each. -/
def behindGaps (gaps : List (List Char)) (ts : List Token) : List Char :=
  (List.zipWith (fun gap t => gap ++ t.text) gaps ts).flatten

/-- The texts of tokens, with a gap before each but the first. -/
def respaced (gaps : List (List Char)) : List Token → List Char
  | [] => []
  | t :: ts => t.text ++ behindGaps gaps ts

theorem behindGaps_cons (t : Token) (ts : List Token) :
    behindGaps (gap :: gaps) (t :: ts) = gap ++ (t.text ++ behindGaps gaps ts) := by
  simp [behindGaps]

/-- Where each gap is a separator, a text of gaps and tokens may follow any token. -/
theorem mayReplace_behindGaps (hgaps : ∀ gap ∈ gaps, Trivia.Separator gap) (rest : List Char)
    (ts : List Token) : MayReplace rest (behindGaps gaps ts) := by
  cases gaps with
  | nil => simp [behindGaps, MayReplace]
  | cons gap gaps =>
    cases ts with
    | nil => simp [behindGaps, MayReplace]
    | cons t ts =>
      rw [behindGaps_cons]
      exact (hgaps gap List.mem_cons_self).mayReplace _ _

end Token

open Token

/-- Tokens in a row are read again where each stands behind a separator. -/
theorem Lexical.Cursor.Reads.respaced {c c' d : Cursor} {ts : List Token} (h : c.Reads ts c')
    (hlength : gaps.length = ts.length) (hgaps : ∀ gap ∈ gaps, Trivia.Separator gap)
    (hd : d.rest = behindGaps gaps ts) :
    ∃ us d', d.Reads us d' ∧ d'.rest = [] ∧ List.Forall₂ Alike ts us := by
  induction h generalizing gaps d with
  | nil =>
    refine ⟨[], d, .nil, ?_, .nil⟩
    simpa [behindGaps] using hd
  | @cons c c₁ c' t ts hnext hne _ ih =>
    obtain ⟨gap, gaps, rfl⟩ := List.exists_cons_of_length_eq_add_one hlength
    rw [behindGaps_cons] at hd
    rw [List.forall_mem_cons] at hgaps
    obtain ⟨u, d₁, hu, halike, -, hd₁⟩ := Cursor.next_replace hnext hne hgaps.1.gap.closed hd
      (mayReplace_behindGaps hgaps.2 _ ts)
    obtain ⟨us, d', hus, hd', hall⟩ := ih (by simpa using hlength) hgaps.2 hd₁
    exact ⟨u :: us, d', .cons hu (halike.1 ▸ hne) hus, hd', .cons halike hall⟩

/-- The tokens of a text are those of the text with any separators between them, and each of them
    is the one token of its own text. -/
theorem tokenize_respaced {text : List Char} {ts : List Token} (h : tokenize text = .ok ts)
    (hlength : gaps.length = ts.length - 1) (hgaps : ∀ gap ∈ gaps, Trivia.Separator gap) :
    (∃ us, tokenize (respaced gaps ts) = .ok us ∧ List.Forall₂ Alike ts us) ∧
      ∀ t ∈ ts, IsToken t.kind t.text := by
  obtain ⟨c, -, hts, -⟩ := tokenize_eq_ok.1 h
  constructor
  · cases hts with
    | nil =>
      obtain ⟨e, he⟩ := Cursor.atEnd_of_rest (c := .ofText []) rfl
      exact ⟨[], tokenize_eq_ok.2 ⟨_, e, .nil, he⟩, .nil⟩
    | @cons _ c₁ _ t ts hnext hne hts =>
      -- the first token has no gap before it, and all others have one
      obtain ⟨u, d, hu, halike, -, hd⟩ := Cursor.next_replace (d := .ofText (respaced gaps (t :: ts)))
        hnext hne .nil rfl (mayReplace_behindGaps hgaps _ ts)
      obtain ⟨us, d', hus, hd', hall⟩ := hts.respaced (by simpa using hlength) hgaps hd
      obtain ⟨e, he⟩ := Cursor.atEnd_of_rest hd'
      exact ⟨u :: us, tokenize_eq_ok.2 ⟨d', e, .cons hu (halike.1 ▸ hne) hus, he⟩,
        .cons halike hall⟩
  · exact hts.isToken

/-- Tokens that stand close together, with blanks and both sorts of comments between them. -/
theorem tokenize_respaced_close :
    ∃ ts, tokenize "t.x->>.5".toList = .ok ts ∧ ts.length = 5 ∧
      (∃ us, tokenize (respaced [[' '], ['\t', '-', '-', '\x27', '\n'],
          ['\n', '/', '*', '-', '-', '*', '/'], ['\r', '\x0c']] ts) = .ok us ∧
        List.Forall₂ Alike ts us) ∧
      ∀ t ∈ ts, IsToken t.kind t.text := by
  have htokens : tokenize "t.x->>.5".toList = .ok
      [⟨.identifier, [], ['t'], 0⟩, ⟨.dot, [], ['.'], 1⟩, ⟨.identifier, [], ['x'], 2⟩,
        ⟨.operator, [], ['-', '>', '>'], 3⟩, ⟨.number, [], ['.', '5'], 6⟩] :=
    eq_ok_of_toOption (by decide +kernel)
  refine ⟨_, htokens, rfl, tokenize_respaced htokens rfl ?_⟩
  simp only [List.forall_mem_cons, List.not_mem_nil, false_imp_iff, implies_true, and_true]
  refine ⟨⟨⟨_, rfl, rfl⟩, .blank rfl .nil⟩, ⟨⟨_, rfl, rfl⟩, .blank rfl ?_⟩,
    ⟨⟨_, rfl, rfl⟩, .blank rfl ?_⟩, ⟨_, rfl, rfl⟩, .blank rfl (.blank rfl .nil)⟩
  · exact (.line (by decide) .nil : Trivia.Gap false ('-' :: '-' :: ['\x27'] ++ '\n' :: []))
  · exact (.block (by decide) .nil : Trivia.Gap false ('/' :: '*' :: ['-', '-'] ++ ['*', '/'] ++ []))

end CreateTable
