import CreateTable.Proofs.Lexical.Lossless
import CreateTable.Proofs.Lexical.Respacing
import CreateTable.Proofs.Parallel.Spacing
import CreateTable.Proofs.Rendering.Writing

/-!
# Other texts in place of tokens

A part of a statement is replaced by another text that is set off by blanks. The tokens before it
and behind it are read as before, so whether the statement is still read is a matter of tokens.

## Main definitions

- `Span.replace` — a text with other characters in place of a span
- `Token.extent` — the span from the first of some neighbouring tokens through the last
- `exchanged` — a text with two neighbouring parts the other way round
- `inserted` — a text with one more part

## Main statements

- `tokenize_replace`, `tokenize_insert` — the tokens around a part that is new are the same
- `Statement.Admits.of_same` — tokens at other places are read as the same table
- `parse_replace` — tokens that are read as the same table may stand in place of others
- `parse_exchanged` — the same for two neighbouring parts that are exchanged
- `parse_inserted` — tokens that are read as the same table together with others may be inserted

## Design notes

What stands before the first of the replaced tokens stays, and so does what stands behind the last.
-/

namespace CreateTable

open Lexical Grammar

-- ════════════════════════════════════════════════════════════════════════
-- Spans
-- ════════════════════════════════════════════════════════════════════════

/-- A text with other characters in place of a span. -/
def Text.Span.replace (s : Span) (sql : String) (new : List Char) : String :=
  String.ofList ((splitAtByte s.start sql.toList).1 ++ new ++ (splitAtByte s.stop sql.toList).2)

/-- The bytes from the first of some neighbouring tokens through the last. -/
def Token.extent : List Token → Text.Span
  | [] => ⟨0, 0⟩
  | t :: ts => ⟨t.start, (ts.getLastD t).stop⟩

open Token

namespace Lexical.Cursor

variable {sql : String} {c c' : Cursor} {t : Token} {ts : List Token}

theorem Within.splitAtByte_eq {before : List Char} (hsql : sql.toList = before ++ c.rest)
    (h : Within sql c) : Text.splitAtByte c.offset sql.toList = (before, c.rest) := by
  obtain ⟨before', hsql', hoffset⟩ := h
  obtain rfl := List.append_cancel_right (hsql.symm.trans hsql')
  rw [hsql, hoffset, Text.splitAtByte_of_append]

/-- Behind tokens in a row, reading goes on where the last of them stops. -/
theorem Reads.offset_eq (h : Reads c ts c') (ht : c.offset = t.stop) :
    c'.offset = (ts.getLastD t).stop := by
  induction h generalizing t with
  | nil => exact ht
  | cons hnext _ _ ih =>
    rw [List.getLastD_cons]
    exact ih (start_of_next hnext).2

/-- A text with more characters behind tokens that stand at its beginning. -/
theorem Reads.insert_behind (h : Reads (.ofText sql.toList) ts c') (hne : ts ≠ [])
    (new : List Char) :
    ((Text.Span.mk (extent ts).stop (extent ts).stop).replace sql new).toList =
      row ts ++ (new ++ c'.rest) := by
  obtain ⟨t, ts, rfl⟩ := List.exists_cons_of_ne_nil hne
  have hsplit := (h.within (within_ofText sql)).splitAtByte_eq h.rest_eq
  cases h with
  | cons hnext _ hts =>
    rw [hts.offset_eq (start_of_next hnext).2] at hsplit
    simp only [Text.Span.replace, extent, hsplit, String.toList_ofList, List.append_assoc]

/-- A text with other characters in place of tokens that stand in it. -/
theorem Reads.replace_extent {before : List Char} (h : Reads c (t :: ts) c') (hc : Within sql c)
    (hsql : sql.toList = before ++ c.rest) (new : List Char) :
    ((extent (t :: ts)).replace sql new).toList = before ++ (t.lead ++ (new ++ c'.rest)) := by
  have hbehind := h.within hc
  obtain ⟨behind, hsql', -⟩ := id hbehind
  cases h with
  | @cons _ c₁ _ _ _ hnext _ hts =>
    have hlead : sql.toList = (before ++ t.lead) ++ (t.text ++ c₁.rest) := by
      rw [hsql, rest_of_next hnext, List.append_assoc]
    have hstart := (hc.next hnext).1.splitAtByte_eq hlead
    have hstop := hbehind.splitAtByte_eq hsql'
    rw [hts.offset_eq (start_of_next hnext).2] at hstop
    simp only [Text.Span.replace, extent, hstart, hstop, String.toList_ofList, List.append_assoc]

end Lexical.Cursor

-- ════════════════════════════════════════════════════════════════════════
-- Texts
-- ════════════════════════════════════════════════════════════════════════

/-- A text in which two neighbouring parts, each of tokens, have been exchanged. -/
def exchanged (sql : String) (ts us : List Token) (gap gap' gap'' : List Char) : String :=
  (extent (ts ++ us)).replace sql
    (gap ++ ((verbatim us).toList ++ (gap' ++ (verbatim ts).toList)) ++ gap'')

/-- A text in which a part of tokens has been inserted behind others. -/
def inserted (sql : String) (before us : List Token) (gap gap' : List Char) : String :=
  (Text.Span.mk (extent before).stop (extent before).stop).replace sql
    (gap ++ (verbatim us).toList ++ gap')

/-- A text that begins with a separator begins with a delimiter. -/
theorem Lexical.Trivia.Separator.delimited {gap : List Char} (h : Trivia.Separator gap)
    (rest : List Char) : Delimited (gap ++ rest) := by
  obtain ⟨c, tail, rfl, hdelimiter⟩ := h.exists_cons
  exact .cons hdelimiter _

variable {limits : Limits} {sql : String} {table : Table} {before mid after : List Token}
  {new gap gap' : List Char} {P : List Token → Prop}

/-- Tokens that are read again at their own place are the same. -/
theorem Lexical.Cursor.Reads.eq_of_same {c c' d d' : Cursor} {ts us : List Token}
    (h : Reads c ts c') (h' : Reads d us d') (hoffset : d.offset = c.offset)
    (hsame : List.Forall₂ Same ts us) : us = ts := by
  induction hsame generalizing c d with
  | nil => rfl
  | @cons t u ts us ht _ ih =>
    obtain _ | ⟨hnext, -, h⟩ := h
    obtain _ | ⟨hnext', -, h'⟩ := h'
    obtain ⟨hstart, hstop⟩ := start_of_next hnext
    obtain ⟨hstart', hstop'⟩ := start_of_next hnext'
    obtain ⟨⟨hkind, htext⟩, hlead⟩ := ht
    obtain rfl : u = t := by
      cases t
      cases u
      simp_all
    rw [ih h h' (hstop'.trans hstop.symm)]

/-- Where other text is put between tokens, set off by blanks, those before it are the same. Only
    what stands before the first of those behind it may be different. -/
theorem Lexical.Cursor.Reads.splice {c₁ c₂ c₃ d : Cursor} {e : Token} {lead : List Char}
    (hbefore : Reads (.ofText sql.toList) before c₁) (hafter : Reads c₂ after c₃)
    (hend : AtEnd c₃ e) (hnew : Writes new P) (hgap : Trivia.Separator gap)
    (hgap' : Trivia.Separator gap') (hlead : Trivia.Closed lead)
    (hmay : MayReplace c₁.rest (lead ++ (gap ++ new ++ gap' ++ c₂.rest)))
    (hoffset : d.offset = 0)
    (hd : d.rest = row before ++ (lead ++ (gap ++ new ++ gap' ++ c₂.rest))) :
    ∃ us after' d' e', Reads d (before ++ us ++ after') d' ∧ AtEnd d' e' ∧ P us ∧
      Shifted after after' := by
  obtain ⟨before', d₁, hbefore', hd₁, hsame⟩ := hbefore.replace hd hmay
  obtain rfl := hbefore.eq_of_same hbefore' hoffset hsame
  have hd₁ : d₁.rest = (lead ++ gap) ++ (new ++ (gap' ++ c₂.rest)) := by simpa using hd₁
  obtain ⟨us, d₂, left, hus, hd₂, hleft, hP⟩ :=
    hnew.reads hd₁ (hlead.append hgap.gap.closed) (hgap'.delimited _)
  rw [← List.append_assoc] at hd₂
  obtain ⟨after', d₃, left', hafter', hd₃, hleft', hshifted⟩ :=
    hafter.behindTrivia (hleft.append hgap'.gap.closed) hd₂
  obtain ⟨e', he'⟩ := hend.behindTrivia hleft' hd₃
  exact ⟨us, after', d₃, e', (hbefore'.append hus).append hafter', he', hP, hshifted⟩

/-- Around a part of a text that is replaced, the tokens are the same. -/
theorem tokenize_replace (h : tokenize sql.toList = .ok (before ++ mid ++ after)) (hne : mid ≠ [])
    (hnew : Writes new P) (hgap : Trivia.Separator gap) (hgap' : Trivia.Separator gap') :
    ∃ us after',
      tokenize ((extent mid).replace sql (gap ++ new ++ gap')).toList =
        .ok (before ++ us ++ after') ∧ P us ∧ Shifted after after' := by
  obtain ⟨c₃, e, hall, hend⟩ := tokenize_eq_ok.1 h
  obtain ⟨c₂, hfront, hafter⟩ := hall.split
  obtain ⟨c₁, hbefore, hmid⟩ := hfront.split
  obtain ⟨t, ts, rfl⟩ := List.exists_cons_of_ne_nil hne
  have htext := hmid.replace_extent (hbefore.within (Cursor.within_ofText sql)) hbefore.rest_eq
    (gap ++ new ++ gap')
  generalize (extent (t :: ts)).replace sql (gap ++ new ++ gap') = sql' at htext ⊢
  have hlead : Trivia.Closed t.lead := (hmid.gap t List.mem_cons_self).closed
  -- what is new begins with the old trivia or with a blank, so it may stand behind what is old
  have hmay : MayReplace c₁.rest (t.lead ++ (gap ++ new ++ gap' ++ c₂.rest)) := by
    rw [hmid.rest_eq, row_cons]
    simp only [List.append_assoc]
    exact (hgap.mayReplace _ _).append_left t.lead
  obtain ⟨us, after', d, e', hreads, he', hP, hshifted⟩ :=
    hbefore.splice (d := .ofText sql'.toList) hafter hend hnew hgap hgap' hlead hmay rfl htext
  exact ⟨us, after', tokenize_eq_ok.2 ⟨d, e', hreads, he'⟩, hP, hshifted⟩

/-- Around a part that is inserted, the tokens are the same. -/
theorem tokenize_insert (h : tokenize sql.toList = .ok (before ++ after)) (hne : before ≠ [])
    (hnew : Writes new P) (hgap : Trivia.Separator gap) (hgap' : Trivia.Separator gap') :
    ∃ us after',
      tokenize ((Text.Span.mk (extent before).stop (extent before).stop).replace sql
        (gap ++ new ++ gap')).toList = .ok (before ++ us ++ after') ∧ P us ∧
      Shifted after after' := by
  obtain ⟨c₂, e, hall, hend⟩ := tokenize_eq_ok.1 h
  obtain ⟨c₁, hbefore, hafter⟩ := hall.split
  have htext := hbefore.insert_behind hne (gap ++ new ++ gap')
  generalize Text.Span.replace _ sql (gap ++ new ++ gap') = sql' at htext ⊢
  have hmay : MayReplace c₁.rest ([] ++ (gap ++ new ++ gap' ++ c₁.rest)) := by
    simp only [List.nil_append, List.append_assoc]
    exact hgap.mayReplace _ _
  obtain ⟨us, after', d, e', hreads, he', hP, hshifted⟩ :=
    hbefore.splice (d := .ofText sql'.toList) hafter hend hnew hgap hgap' .nil hmay rfl htext
  exact ⟨us, after', tokenize_eq_ok.2 ⟨d, e', hreads, he'⟩, hP, hshifted⟩

-- ════════════════════════════════════════════════════════════════════════
-- Statements
-- ════════════════════════════════════════════════════════════════════════

/-- Tokens at other places are read as the same table. -/
theorem Grammar.Statement.Admits.of_same {ts us : List Token} {written : List WrittenColumn}
    (h : Admits limits ts written table) (hsame : List.Forall₂ Same ts us) :
    ∃ written', Admits limits us written' table := by
  obtain ⟨table', haccepts, htable⟩ := accepts_parallel rfl
    (counterparts_of_alike (alike_of_same hsame))
    (.refl .ending) (accepts_of_admits (e := .ending) h rfl)
  obtain ⟨written', hadmits⟩ := (accepts_iff rfl).1 haccepts
  have htexts : table.Corresponds id (fun a b => b = id a) table' := by
    refine htable.mono fun a b hexcerpt => ?_
    obtain ⟨row, row', -, -, -, hrow, rfl, rfl⟩ := hexcerpt.exists_row hsame
    exact (shifted_of_same hrow).verbatim_eq.symm
  rw [htexts.eq_mapText, Table.mapText_id] at hadmits
  exact ⟨written', hadmits⟩

/-- A text whose tokens are read as the table of another one is read as this table. -/
theorem parse_of_admits {sql' : String} {ts us : List Token} {length : Nat}
    (h : parse limits sql = .ok table) (hts : tokenize sql.toList = .ok ts)
    (hus : tokenize sql'.toList = .ok us)
    (hread : ∀ written, Statement.Admits limits ts written table →
      ∃ written', Statement.Admits limits us written' table)
    (hlength : sql'.utf8ByteSize ≤ length) :
    parse { limits with maxSqlLength := length } sql' = .ok table := by
  obtain ⟨-, ts', written, hts', hadmits⟩ := parse_eq_ok_iff_admits.1 h
  obtain rfl := Except.ok.inj (hts.symm.trans hts')
  obtain ⟨written', hadmits'⟩ := hread written hadmits
  exact parse_eq_ok_iff_admits.2 ⟨hlength, us, written', hus, hadmits'⟩

/-- Where some tokens are read as the same table in place of others, a text of them may stand in
    place of the text of the others. -/
theorem parse_replace (h : parse limits sql = .ok table)
    (htokens : tokenize sql.toList = .ok (before ++ mid ++ after)) (hne : mid ≠ [])
    (hnew : Writes new P) (hgap : Trivia.Separator gap) (hgap' : Trivia.Separator gap')
    (hread : ∀ us after' written, P us → Shifted after after' →
      Statement.Admits limits (before ++ mid ++ after) written table →
      ∃ written', Statement.Admits limits (before ++ us ++ after') written' table)
    {length : Nat}
    (hlength : ((extent mid).replace sql (gap ++ new ++ gap')).utf8ByteSize ≤ length) :
    parse { limits with maxSqlLength := length }
      ((extent mid).replace sql (gap ++ new ++ gap')) = .ok table := by
  obtain ⟨us, after', htokens', hP, hshifted⟩ := tokenize_replace htokens hne hnew hgap hgap'
  exact parse_of_admits h htokens htokens' (hread us after' · hP hshifted) hlength

/-- Where more tokens are read as the same table, a text of them may be inserted. -/
theorem parse_inserted {us : List Token} (h : parse limits sql = .ok table)
    (htokens : tokenize sql.toList = .ok (before ++ after)) (hbefore : before ≠ [])
    (hlegible : Legible us) (hus : us ≠ []) (hgap : Trivia.Separator gap)
    (hgap' : Trivia.Separator gap')
    (hread : ∀ us' after' written, Shifted us us' → Shifted after after' →
      Statement.Admits limits (before ++ after) written table →
      ∃ written', Statement.Admits limits (before ++ us' ++ after') written' table)
    {length : Nat} (hlength : (inserted sql before us gap gap').utf8ByteSize ≤ length) :
    parse { limits with maxSqlLength := length } (inserted sql before us gap gap') = .ok table := by
  obtain ⟨us', after', htokens', hus', hshifted⟩ :=
    tokenize_insert htokens hbefore (Writes.legible hlegible hus) hgap hgap'
  exact parse_of_admits h htokens htokens' (hread us' after' · hus' hshifted) hlength

/-- Where two neighbouring rows of tokens are read as the same table the other way round, their
    texts may be exchanged. -/
theorem parse_exchanged {ts us : List Token} {gap'' : List Char} (h : parse limits sql = .ok table)
    (htokens : tokenize sql.toList = .ok (before ++ ts ++ us ++ after)) (hts : ts ≠ [])
    (hus : us ≠ []) (hgap : Trivia.Separator gap) (hgap' : Trivia.Separator gap')
    (hgap'' : Trivia.Separator gap'')
    (hread : ∀ us' ts' after' written, Shifted us us' → Shifted ts ts' → Shifted after after' →
      Statement.Admits limits (before ++ ts ++ us ++ after) written table →
      ∃ written', Statement.Admits limits (before ++ us' ++ ts' ++ after') written' table)
    {length : Nat} (hlength : (exchanged sql ts us gap gap' gap'').utf8ByteSize ≤ length) :
    parse { limits with maxSqlLength := length } (exchanged sql ts us gap gap' gap'') =
      .ok table := by
  obtain ⟨c, e, hall, -⟩ := tokenize_eq_ok.1 htokens
  have hlegible : Legible ((before ++ ts) ++ (us ++ after)) := ⟨_, _, by simpa using hall⟩
  obtain ⟨hfront, hback⟩ := hlegible.append
  have hwrites := (Writes.legible hback.append.1 hus).append
    ((Writes.legible hfront.append.2 hts).behind hgap'.gap.closed) (hgap'.delimited _)
  rw [List.append_assoc before] at htokens
  refine parse_replace h htokens (by simp [hts]) hwrites hgap hgap'' ?_ hlength
  rintro _ after' written ⟨us', ts', rfl, hus', hts'⟩ hafter' hadmits
  rw [← List.append_assoc] at hadmits ⊢
  exact hread us' ts' after' written hus' hts' hafter' hadmits

end CreateTable
