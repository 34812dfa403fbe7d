import CreateTable.Proofs.Lexical.Gap
import CreateTable.Proofs.Lexical.Relocation
import CreateTable.Proofs.Text.Boundary

/-!
# The layout of tokens

Where the tokens of a text stand: each begins behind its own gap, takes at least one byte, and the
next gap begins where it stops.

## Main definitions

- `Token.LaidOut` — tokens in a row from an offset on

## Main statements

- `Cursor.Reads.laidOut` — tokens that are read are laid out from where reading begins
- `Cursor.AtEnd.gap` — behind the last token there is a gap and nothing else
- `Cursor.Reads.eq_of_start_eq` — only one row of tokens stands before an offset
-/

namespace CreateTable

open Lexical

namespace Token

/-- Tokens in a row from an offset on. -/
def LaidOut : Nat → List Token → Prop
  | _, [] => True
  | n, t :: ts => t.start = n + Text.byteLength t.lead ∧ t.text ≠ [] ∧ LaidOut t.stop ts

theorem start_lt_stop {t : Token} (h : t.text ≠ []) : t.start < t.stop := by
  have := Text.byteLength_pos h
  unfold stop
  omega

end Token

namespace Lexical

variable {text rest : List Char}

-- ════════════════════════════════════════════════════════════════════════
-- The end of a text
-- ════════════════════════════════════════════════════════════════════════

namespace Lexeme

theorem First.kind_ne_endOfInput {c : Char} {l : Lexeme} {kind : TokenKind} (h : First c rest l)
    (hkind : l.outcome = .ok kind) : kind ≠ .endOfInput := by
  rintro rfl
  exact h.readAs hkind

/-- The end of the text stands only where nothing else does. -/
theorem eq_nil_of_endOfInput (h : (first text).outcome = .ok .endOfInput) : text = [] := by
  cases text with
  | nil => rfl
  | cons c rest => exact absurd rfl ((first_cons c rest).kind_ne_endOfInput h)

end Lexeme

-- ════════════════════════════════════════════════════════════════════════
-- Rows of tokens
-- ════════════════════════════════════════════════════════════════════════

namespace Cursor

variable {c c' d d' : Cursor} {t u : Token} {ts us : List Token}

theorem start_of_next (h : c.next = (.ok t, c')) :
    t.start = c.offset + Text.byteLength t.lead ∧ c'.offset = t.stop := by
  simp only [next] at h
  obtain ⟨hresult, rfl⟩ := Prod.mk.inj h
  split at hresult
  · obtain rfl := Except.ok.inj hresult
    exact ⟨rfl, rfl⟩
  · cases hresult

theorem text_ne_nil_of_next (h : c.next = (.ok t, c')) (ht : t.kind ≠ .endOfInput) :
    t.text ≠ [] :=
  (Lexeme.read_eq_ok (read_of_next h) ht).2.2.1

theorem Reads.laidOut (h : Reads c ts c') : Token.LaidOut c.offset ts := by
  induction h with
  | nil => trivial
  | cons hnext hne _ ih =>
    obtain ⟨hstart, hstop⟩ := start_of_next hnext
    exact ⟨hstart, text_ne_nil_of_next hnext hne, hstop ▸ ih⟩

/-- What stands before a token is a gap behind which the text goes on. -/
theorem Reads.gap (h : Reads c ts c') : ∀ t ∈ ts, Trivia.Gap false t.lead := by
  induction h with
  | nil => simp
  | @cons _ c' _ t _ hnext hne _ ih =>
    rw [List.forall_mem_cons]
    refine ⟨?_, ih⟩
    have hgap := Trivia.gap_of_split (Lexeme.split_of_read (read_of_next hnext))
    obtain ⟨x, xs, htext⟩ := List.exists_cons_of_ne_nil (text_ne_nil_of_next hnext hne)
    rwa [htext] at hgap

/-- Where the end of a text is read, nothing is left of it but what was passed over. -/
theorem append_eq_nil_of_next (h : c.next = (.ok t, c')) (ht : t.kind = .endOfInput) :
    t.text ++ c'.rest = [] := by
  have hread := read_of_next h
  have hsplit := Lexeme.split_of_read hread
  rw [ht] at hread
  refine Lexeme.eq_nil_of_endOfInput ?_
  have houtcome := congrArg Lexeme.outcome hread
  simpa only [Lexeme.read, hsplit] using houtcome

/-- Behind the last token there is a gap, and nothing else. -/
theorem AtEnd.gap {e : Token} (h : c.AtEnd e) : Trivia.Gap true c.rest := by
  obtain ⟨c', hnext, hend⟩ := h
  have hsplit := Lexeme.split_of_read (read_of_next hnext)
  rw [append_eq_nil_of_next hnext hend] at hsplit
  have hgap := Trivia.gap_of_split hsplit
  have happend := Trivia.split_append c.rest
  rw [hsplit, List.append_nil] at happend
  exact happend ▸ hgap

/-- A row of tokens ends behind where it begins. -/
theorem Reads.offset_le (h : Reads c ts c') : c.offset ≤ c'.offset := by
  induction h with
  | nil => exact le_rfl
  | cons hnext _ _ ih =>
    obtain ⟨hstart, hstop⟩ := start_of_next hnext
    unfold Token.stop at hstop
    omega

/-- The first of some tokens begins before what stands behind them. -/
theorem Reads.start_lt {f : Cursor} (h : Reads c (t :: ts) d) (hu : d.next = (.ok u, f)) :
    t.start < u.start := by
  obtain _ | ⟨hnext, hne, hrest⟩ := h
  have hlt := Token.start_lt_stop (text_ne_nil_of_next hnext hne)
  have hle := hrest.offset_le
  have hstop := (start_of_next hnext).2
  have hbegin := (start_of_next hu).1
  omega

/-- Only one row of tokens stands before an offset. -/
theorem Reads.eq_of_start_eq (h : Reads c ts d) (h' : Reads c us d') {f f' : Cursor}
    (ht : d.next = (.ok t, f)) (hu : d'.next = (.ok u, f')) (hstart : t.start = u.start) :
    ts = us ∧ t = u := by
  -- where one row goes on and the other does not, the token there would begin before itself
  induction h generalizing us with
  | nil =>
    cases h' with
    | nil => exact ⟨rfl, Except.ok.inj (congrArg Prod.fst (ht.symm.trans hu))⟩
    | cons hnext hne hrest =>
      obtain rfl := Except.ok.inj (congrArg Prod.fst (ht.symm.trans hnext))
      have hlt := (Reads.cons hnext hne hrest).start_lt hu
      omega
  | cons hnext hne hrest ih =>
    cases h' with
    | nil =>
      obtain rfl := Except.ok.inj (congrArg Prod.fst (hu.symm.trans hnext))
      have hlt := (Reads.cons hnext hne hrest).start_lt ht
      omega
    | cons hnext' hne' hrest' =>
      obtain ⟨hhead, rfl⟩ := Prod.mk.inj (hnext.symm.trans hnext')
      obtain rfl := Except.ok.inj hhead
      obtain ⟨rfl, rfl⟩ := ih hrest' ht
      exact ⟨rfl, rfl⟩

end Cursor

end Lexical

end CreateTable
