import CreateTable.Proofs.Lexical.Trivia
import CreateTable.Proofs.Reading
import Mathlib.Data.List.Forall2

/-!
# Tokens in other places

Tokens that stand in a row in one text are read again, with the same kinds and texts, where their
own text stands in another one.

## Main definitions

- `Number.Numeric` — what a number, or the fault of one, is like
- `Lexeme.ReadAs` — how a lexeme has been read, by the kind of token that it is
- `Token.Shifted` — tokens that are the same but for their place and what stands before the first
- `Token.Moved` — the same, said by the text of the row
- `Legible` — tokens that stand in a row in some text

## Main statements

- `Lexeme.First.lead_or_blob` — what stands between trivia and the text of a lexeme
- `Lexeme.First.readAs` — tokens of each kind are read in one way only
- `Lexeme.read_replace` — a lexeme with other trivia before it and another text behind it
- `Cursor.Reads.shift` — tokens in a row are read again from their own text
- `Legible.tokenize` — they are the tokens of their own text alone
-/

namespace CreateTable

namespace Lexical

variable {lead text text' rest rest' : List Char}

namespace Number

/-- What is read as a number is one, or it has one of the faults of numbers. -/
structure Numeric (l : Lexeme) : Prop where
  lead : l.lead = []
  outcome : l.outcome ∈ [.ok .number, .error .unrecognized, .error .missingExponent,
    .error .missingHexDigits]

theorem finish_numeric (number rest : List Char) : Numeric (finish number rest) := by
  unfold finish
  split <;> exact ⟨rfl, by simp⟩

theorem hexadecimal_numeric (mark rest : List Char) : Numeric (hexadecimal mark rest) := by
  unfold hexadecimal
  split
  · exact ⟨rfl, by simp⟩
  · exact finish_numeric _ _

theorem decimal_numeric (text : List Char) : Numeric (decimal text) := by
  unfold decimal
  dsimp only
  split
  · exact finish_numeric _ _
  · split
    · exact ⟨rfl, by simp⟩
    · exact finish_numeric _ _

theorem read_numeric (text : List Char) : Numeric (read text) := by
  unfold read
  split
  · exact hexadecimal_numeric _ _
  · exact hexadecimal_numeric _ _
  · exact decimal_numeric text

end Number

namespace Lexeme

variable {kind : TokenKind} {outcome : Except LexicalFault TokenKind}

/-- Only the letter of a blob that is left open is passed over without being trivia. -/
theorem First.lead_or_blob {c : Char} {l : Lexeme} (h : First c rest l) :
    (l.lead = [] ∧ l.outcome ≠ .error .unterminatedBlob) ∨
      OpensBlob c rest ∧ l = ⟨[c], rest, .error .unterminatedBlob, []⟩ := by
  cases h with
  | quoted _ =>
    left
    unfold Lexeme.quoted
    split <;> simp
  | blob hopens =>
    obtain ⟨tail, rfl⟩ := List.head?_eq_some_iff.1 hopens.2
    rw [List.tail_cons]
    unfold Lexeme.blob
    split
    · exact .inr ⟨hopens, rfl⟩
    · left
      dsimp only
      split <;> simp
  | number _ =>
    have hnumber := Number.read_numeric (c :: rest)
    exact .inl ⟨hnumber.lead, fun houtcome => by simpa [houtcome] using hnumber.outcome⟩
  | word _ _ => exact .inl ⟨rfl, nofun⟩
  | punctuation _ _ => exact .inl ⟨rfl, nofun⟩
  | operator _ _ =>
    left
    unfold Lexeme.operator
    split
    · simp
    · dsimp only
      split <;> simp

/-- How a lexeme that is a token has been read, by the kind of the token. -/
def ReadAs (c : Char) (rest : List Char) (l : Lexeme) : TokenKind → Prop
  | .keyword _ | .identifier => isWordStart c ∧ l = word (c :: rest)
  | .quotedIdentifier _ | .stringLiteral _ =>
    ∃ quote : Quote, c = quote.opening ∧ l = quoted quote rest
  | .number => Number.Starts c rest ∧ l = Number.read (c :: rest)
  | .blob => OpensBlob c rest ∧ l = Lexeme.blob c rest.tail
  | .operator => l = Lexeme.operator c rest
  | .endOfInput => False
  | kind => punctuation? c = some kind

theorem First.readAs {c : Char} {l : Lexeme} (h : First c rest l) (hkind : l.outcome = .ok kind) :
    ReadAs c rest l kind := by
  cases h with
  | @quoted quote hc =>
    unfold Lexeme.quoted at hkind
    split at hkind
    · cases hkind
    · obtain rfl := Except.ok.inj hkind
      cases quote <;> exact ⟨_, hc, rfl⟩
  | blob hopens =>
    unfold Lexeme.blob at hkind
    split at hkind
    · cases hkind
    · dsimp only at hkind
      split at hkind
      · obtain rfl := Except.ok.inj hkind
        exact ⟨hopens, rfl⟩
      · cases hkind
  | number hstarts =>
    have houtcome := (Number.read_numeric (c :: rest)).outcome
    rw [hkind] at houtcome
    obtain rfl : kind = .number := by simpa using houtcome
    exact ⟨hstarts, rfl⟩
  | word hstart _ =>
    obtain rfl := Except.ok.inj hkind
    cases Keyword.ofWord? ((c :: rest).takeWhile isWordPart) <;> exact ⟨hstart, rfl⟩
  | punctuation hpunctuation _ =>
    obtain rfl := Except.ok.inj hkind
    have hmark := hpunctuation
    unfold punctuation? at hmark
    split at hmark <;> simp only [Option.some.injEq, reduceCtorEq] at hmark
    all_goals
      subst hmark
      exact hpunctuation
  | operator _ _ =>
    unfold Lexeme.operator at hkind
    split at hkind
    · obtain rfl := Except.ok.inj hkind
      exact rfl
    · cases hkind

/-- A text is what is passed over, what is read, and the rest. -/
theorem eq_append_of_read (text : List Char) :
    text = (read text).lead ++ ((read text).text ++ (read text).rest) := by
  rw [← List.append_assoc]
  exact (all_read text).symm

/-- Nothing is passed over before a token but trivia. -/
theorem lead_first (h : (first text).outcome = .ok kind) : (first text).lead = [] := by
  cases text with
  | nil => rfl
  | cons c rest =>
    obtain ⟨hlead, -⟩ | ⟨-, hblob⟩ := (first_cons c rest).lead_or_blob
    · exact hlead
    · rw [hblob] at h
      cases h

/-- A token behind trivia is the token alone. -/
theorem read_of_first (hlead : Trivia.Closed lead) (hb : ¬Trivia.Begins text)
    (h : first text = ⟨[], text', outcome, rest⟩) :
    read (lead ++ text) = ⟨lead, text', outcome, rest⟩ := by
  simp only [read, Trivia.split_of_closed hlead hb, h, List.append_nil]

/-- Behind closed trivia the same is read. -/
theorem read_append_of_closed (hlead : Trivia.Closed lead) (text : List Char) :
    read (lead ++ text) = { read text with lead := lead ++ (read text).lead } := by
  simp only [read, Trivia.split_append_of_closed hlead, List.append_assoc]

/-- The trivia before a token are what is cut off the text. -/
theorem split_of_read (h : read text' = ⟨lead, text, .ok kind, rest⟩) :
    Trivia.split text' = (lead, text ++ rest) := by
  rcases hsplit : Trivia.split text' with ⟨blanks, body⟩
  simp only [read, hsplit] at h
  injection h with hlead htext houtcome hrest
  rw [lead_first houtcome, List.append_nil] at hlead
  have hall := all_first body
  simp only [all, lead_first houtcome, List.nil_append, htext, hrest] at hall
  rw [hlead, hall]

/-- A lexeme that is a token, taken apart. -/
theorem read_eq_ok (h : read text' = ⟨lead, text, .ok kind, rest⟩) (hkind : kind ≠ .endOfInput) :
    Trivia.Closed lead ∧ ¬Trivia.Begins (text ++ rest) ∧ text ≠ [] ∧
      first (text ++ rest) = ⟨[], text, .ok kind, rest⟩ := by
  have hsplit := split_of_read h
  simp only [read, hsplit] at h
  injection h with hlead htext houtcome hrest
  have hne : text ++ rest ≠ [] := by
    intro hnil
    rw [hnil] at houtcome
    exact hkind (Except.ok.inj houtcome).symm
  have htext_ne : text ≠ [] := by
    obtain ⟨c, body, hbody⟩ := List.exists_cons_of_ne_nil hne
    rw [hbody] at htext
    exact htext ▸ first_text_ne_nil c body
  obtain ⟨hclosed, hbegins⟩ := Trivia.closed_of_split hsplit hne
  refine ⟨hclosed, hbegins, htext_ne, ?_⟩
  have hfirst := lead_first houtcome
  generalize first (text ++ rest) = l at *
  cases l
  subst hfirst htext houtcome hrest
  rfl

/-- A token is read again behind other trivia and before another text. -/
theorem read_replace {lead' : List Char} (h : read text' = ⟨lead, text, .ok kind, rest⟩)
    (hkind : kind ≠ .endOfInput) (hlead' : Trivia.Closed lead') (hrest : MayReplace rest rest') :
    read (lead' ++ (text ++ rest')) = ⟨lead', text, .ok kind, rest'⟩ := by
  obtain ⟨-, hbegins, hne, hfirst⟩ := read_eq_ok h hkind
  exact read_of_first hlead' (Trivia.not_begins_replace hbegins hne hrest)
    (first_replace hfirst hne hrest)

end Lexeme

namespace Cursor

variable {c c' : Cursor} {t : Token}

theorem read_of_next (h : c.next = (.ok t, c')) :
    Lexeme.read c.rest = ⟨t.lead, t.text, .ok t.kind, c'.rest⟩ := by
  simp only [next] at h
  rcases hl : Lexeme.read c.rest with ⟨lead, text, outcome, rest⟩
  rw [hl] at h
  obtain ⟨hresult, rfl⟩ := Prod.mk.inj h
  cases outcome with
  | ok kind =>
    obtain rfl := Except.ok.inj hresult
    rfl
  | error fault => cases hresult

/-- A token at a place, with what stands before it. -/
theorem rest_of_next (h : c.next = (.ok t, c')) : c.rest = t.lead ++ (t.text ++ c'.rest) := by
  have hall := Lexeme.all_read c.rest
  rw [read_of_next h] at hall
  rw [← hall, Lexeme.all, List.append_assoc]

/-- A fault at a place is the lexeme there. -/
theorem fault_of_next {e : ParseError} (h : c.next = (.error e, c')) :
    ∃ fault, (Lexeme.read c.rest).outcome = .error fault ∧
      e = ⟨.lexical fault, c.offset + Text.byteLength (Lexeme.read c.rest).lead,
        some (String.ofList (Lexeme.read c.rest).text)⟩ ∧
      c' = ⟨e.offset + Text.byteLength (Lexeme.read c.rest).text, (Lexeme.read c.rest).rest⟩ := by
  simp only [next] at h
  obtain ⟨hresult, rfl⟩ := Prod.mk.inj h
  split at hresult
  · cases hresult
  · rename_i fault houtcome
    obtain rfl := Except.error.inj hresult
    exact ⟨fault, houtcome, rfl, rfl⟩

theorem next_of_read {kind : TokenKind} (h : Lexeme.read c.rest = ⟨lead, text, .ok kind, rest⟩) :
    ∃ t c', c.next = (.ok t, c') ∧ t.kind = kind ∧ t.lead = lead ∧ t.text = text ∧
      c'.rest = rest := by
  have hnext : c.next =
      (.ok { kind, lead, text, start := c.offset + Text.byteLength lead },
        ⟨c.offset + Text.byteLength lead + Text.byteLength text, rest⟩) := by
    simp only [next, h]
  exact ⟨_, _, hnext, rfl, rfl, rfl, rfl⟩

end Cursor

end Lexical

open Lexical

/-- What goes with two lists, one behind the other, is taken apart where the first list ends. -/
theorem exists_append_of_forall₂ {α β : Type} {R : α → β → Prop} {xs xs' : List α} {ys : List β}
    (h : List.Forall₂ R (xs ++ xs') ys) :
    ∃ zs zs', ys = zs ++ zs' ∧ List.Forall₂ R xs zs ∧ List.Forall₂ R xs' zs' := by
  induction xs generalizing ys with
  | nil => exact ⟨[], ys, rfl, .nil, h⟩
  | cons x xs ih =>
    obtain _ | ⟨hhead, hrest⟩ := h
    obtain ⟨zs, zs', rfl, hzs, hzs'⟩ := ih hrest
    exact ⟨_ :: zs, zs', rfl, .cons hhead hzs, hzs'⟩

namespace Token

/-- The text of tokens in a row, with what stands before each. -/
def row (ts : List Token) : List Char := ts.flatMap fun t => t.lead ++ t.text

@[simp] theorem row_nil : row [] = [] := rfl

@[simp] theorem row_cons (t : Token) (ts : List Token) :
    row (t :: ts) = t.lead ++ t.text ++ row ts := rfl

theorem toList_verbatim_cons (t : Token) (ts : List Token) :
    (verbatim (t :: ts)).toList = t.text ++ row ts := by
  simp [verbatim, row]

/-- The same kind and text, at another place and behind other trivia. -/
def Alike (t u : Token) : Prop := t.kind = u.kind ∧ t.text = u.text

/-- The same kind and text behind the same trivia, at another place. -/
def Same (t u : Token) : Prop := t.Alike u ∧ t.lead = u.lead

theorem Same.refl (t : Token) : t.Same t := ⟨⟨rfl, rfl⟩, rfl⟩

theorem same_refl (ts : List Token) : List.Forall₂ Same ts ts :=
  List.forall₂_same.2 fun t _ => .refl t

theorem row_eq_of_same {ts us : List Token} (h : List.Forall₂ Same ts us) : row ts = row us := by
  induction h with
  | nil => rfl
  | cons hhead _ ih => simp only [row_cons, hhead.2, hhead.1.2, ih]

/-- Tokens of which only the first may stand behind other trivia. -/
inductive Shifted : List Token → List Token → Prop
  | nil : Shifted [] []
  | cons {t u : Token} {ts us : List Token} :
    t.Alike u → List.Forall₂ Same ts us → Shifted (t :: ts) (u :: us)

theorem shifted_of_same {ts us : List Token} (h : List.Forall₂ Same ts us) : Shifted ts us := by
  cases h with
  | nil => exact .nil
  | cons hhead hrest => exact .cons hhead.1 hrest

theorem Shifted.alike {ts us : List Token} (h : Shifted ts us) : List.Forall₂ Alike ts us := by
  cases h with
  | nil => exact .nil
  | cons hhead hrest => exact .cons hhead (hrest.imp fun _ _ h => h.1)

theorem Shifted.verbatim_eq {ts us : List Token} (h : Shifted ts us) :
    verbatim ts = verbatim us := by
  cases h with
  | nil => rfl
  | cons hhead hrest =>
    rw [← String.toList_inj, toList_verbatim_cons, toList_verbatim_cons, hhead.2,
      row_eq_of_same hrest]

/-- Tokens in a row that have been moved: what stands before the first may have changed. -/
def Moved (ts us : List Token) : Prop :=
  List.Forall₂ Alike ts us ∧ verbatim ts = verbatim us

theorem Shifted.moved {ts us : List Token} (h : Shifted ts us) : Moved ts us :=
  ⟨h.alike, h.verbatim_eq⟩

end Token

open Token

/-- Tokens that stand in a row in some text. -/
def Legible (ts : List Token) : Prop := ∃ c c', Cursor.Reads c ts c'

namespace Lexical.Cursor

variable {c c' d : Cursor} {t : Token} {ts us : List Token} {rest lead : List Char}

theorem Reads.rest_eq (h : Reads c ts c') : c.rest = row ts ++ c'.rest := by
  induction h with
  | nil => rfl
  | cons hnext _ _ ih =>
    rw [rest_of_next hnext, ih, row_cons]
    simp only [List.append_assoc]

/-- Tokens in a row are taken apart where any of them ends. -/
theorem Reads.split (h : Reads c (ts ++ us) c') : ∃ d, Reads c ts d ∧ Reads d us c' := by
  induction ts generalizing c with
  | nil => exact ⟨c, .nil, h⟩
  | cons t ts ih =>
    obtain _ | ⟨hnext, hne, h⟩ := h
    obtain ⟨d, hts, hus⟩ := ih h
    exact ⟨d, .cons hnext hne hts, hus⟩

/-- A token is read again behind other trivia and before another text. -/
theorem next_replace (h : c.next = (.ok t, c')) (hkind : t.kind ≠ .endOfInput)
    (hlead : Trivia.Closed lead) (hd : d.rest = lead ++ (t.text ++ rest))
    (hrest : MayReplace c'.rest rest) :
    ∃ u d', d.next = (.ok u, d') ∧ t.Alike u ∧ u.lead = lead ∧ d'.rest = rest := by
  have hread := Lexeme.read_replace (read_of_next h) hkind hlead hrest
  rw [← hd] at hread
  obtain ⟨u, d', hu, hukind, hulead, hutext, hd'⟩ := next_of_read hread
  exact ⟨u, d', hu, ⟨hukind.symm, hutext.symm⟩, hulead, hd'⟩

/-- Tokens are read again where they stand before another text. -/
theorem Reads.replace (h : Reads c ts c') (hd : d.rest = row ts ++ rest)
    (hrest : MayReplace c'.rest rest) :
    ∃ us d', Reads d us d' ∧ d'.rest = rest ∧ List.Forall₂ Same ts us := by
  induction h generalizing d with
  | nil => exact ⟨[], d, .nil, hd, .nil⟩
  | @cons c c₁ c' t ts hnext hne h ih =>
    obtain ⟨hclosed, -⟩ := Lexeme.read_eq_ok (read_of_next hnext) hne
    rw [row_cons, List.append_assoc, List.append_assoc] at hd
    obtain ⟨u, d₁, hu, halike, hlead, hd₁⟩ := next_replace hnext hne hclosed hd
      (h.rest_eq ▸ hrest.append_left (row ts))
    obtain ⟨us, d', hus, hd', hsame⟩ := ih hd₁ hrest
    exact ⟨u :: us, d', .cons hu (halike.1 ▸ hne) hus, hd', .cons ⟨halike, hlead.symm⟩ hsame⟩

/-- Tokens are read again where their own text stands, behind other trivia and before another
    text. -/
theorem Reads.shift (h : Reads c ts c') (hne : ts ≠ []) (hlead : Trivia.Closed lead)
    (hd : d.rest = lead ++ ((verbatim ts).toList ++ rest)) (hrest : MayReplace c'.rest rest) :
    ∃ us d', Reads d us d' ∧ d'.rest = rest ∧ Shifted ts us ∧ ∀ u ∈ us.head?, u.lead = lead := by
  obtain _ | ⟨hnext, hend, h⟩ := h
  · exact absurd rfl hne
  · rw [toList_verbatim_cons, List.append_assoc] at hd
    obtain ⟨u, d₁, hu, halike, hlead', hd₁⟩ := next_replace hnext hend hlead hd
      (h.rest_eq ▸ hrest.append_left (row _))
    obtain ⟨us, d', hus, hd', hsame⟩ := h.replace hd₁ hrest
    exact ⟨u :: us, d', .cons hu (halike.1 ▸ hend) hus, hd', .cons halike hsame, by simpa using hlead'⟩

/-- Behind closed trivia the same token is read. -/
theorem next_behindTrivia (h : c.next = (.ok t, c')) (hlead : Trivia.Closed lead)
    (hd : d.rest = lead ++ c.rest) :
    ∃ u d', d.next = (.ok u, d') ∧ t.Alike u ∧ d'.rest = c'.rest := by
  have hread := Lexeme.read_append_of_closed hlead c.rest
  rw [← hd, read_of_next h] at hread
  obtain ⟨u, d', hu, hkind, -, htext, hd'⟩ := next_of_read hread
  exact ⟨u, d', hu, ⟨hkind.symm, htext.symm⟩, hd'⟩

/-- Behind closed trivia the same tokens are read, and the trivia stay if there are none. -/
theorem Reads.behindTrivia (h : Reads c ts c') (hlead : Trivia.Closed lead)
    (hd : d.rest = lead ++ c.rest) :
    ∃ us d' lead', Reads d us d' ∧ d'.rest = lead' ++ c'.rest ∧ Trivia.Closed lead' ∧
      Shifted ts us := by
  obtain _ | ⟨hnext, hne, h⟩ := h
  · exact ⟨[], d, lead, .nil, hd, hlead, .nil⟩
  · obtain ⟨u, d₁, hu, halike, hd₁⟩ := next_behindTrivia hnext hlead hd
    obtain ⟨us, d', hus, hd', hsame⟩ :=
      h.replace (hd₁.trans h.rest_eq) fun x hx => .inl hx
    exact ⟨u :: us, d', [], .cons hu (halike.1 ▸ hne) hus, hd', .nil, .cons halike hsame⟩

/-- Behind closed trivia a text ends where it does without them. -/
theorem AtEnd.behindTrivia {e : Token} (h : c.AtEnd e) (hlead : Trivia.Closed lead)
    (hd : d.rest = lead ++ c.rest) : ∃ e', d.AtEnd e' := by
  obtain ⟨c', hnext, hend⟩ := h
  obtain ⟨e', d', he', halike, -⟩ := next_behindTrivia hnext hlead hd
  exact ⟨e', d', he', halike.1 ▸ hend⟩

theorem atEnd_of_rest (h : c.rest = []) : ∃ e, c.AtEnd e := by
  have hread : Lexeme.read c.rest = ⟨[], [], .ok .endOfInput, []⟩ := by rw [h]; rfl
  obtain ⟨e, c', he, hkind, -⟩ := next_of_read hread
  exact ⟨e, c', he, hkind⟩

end Lexical.Cursor

theorem Legible.append {ts us : List Token} (h : Legible (ts ++ us)) : Legible ts ∧ Legible us := by
  obtain ⟨c, c', h⟩ := h
  obtain ⟨d, hts, hus⟩ := h.split
  exact ⟨⟨c, d, hts⟩, ⟨d, c', hus⟩⟩

/-- Tokens in a row, apart from what stands around them, are the tokens of a text. -/
theorem Legible.tokenize {ts : List Token} (h : Legible ts) (hne : ts ≠ []) :
    ∃ us, CreateTable.tokenize (verbatim ts).toList = .ok us ∧ Moved ts us := by
  obtain ⟨c, c', h⟩ := h
  have htext : (Cursor.ofText (verbatim ts).toList).rest = [] ++ ((verbatim ts).toList ++ []) := by
    simp [Cursor.ofText]
  obtain ⟨us, d, hus, hd, hshifted, -⟩ := h.shift hne .nil htext (by simp [MayReplace])
  obtain ⟨e, he⟩ := Cursor.atEnd_of_rest hd
  exact ⟨us, tokenize_eq_ok.2 ⟨d, e, hus, he⟩, hshifted.moved⟩

end CreateTable
