import CreateTable.Proofs.Grammar.Likeness
import CreateTable.Proofs.Parallel.Pieces

/-!
# What stands between tokens

Two texts with the same tokens are read alike, whatever stands between the tokens of either. The
tables differ at most in the blanks and comments inside the texts that are held as they were
written, and errors stand at the same tokens.

## Main definitions

- `SameTokens` — two texts have the same tokens
- `ParseError.SamePlace` — two errors stand at the same token, or both at the end

## Main statements

- `parse_of_alike` — texts with the same tokens are read alike
-/

namespace CreateTable

open Lexical Grammar

/-- Texts with the same tokens, at other places and with other blanks and comments around them. -/
def SameTokens (a b : String) : Prop :=
  ∃ ts us, tokenize a.toList = .ok ts ∧ tokenize b.toList = .ok us ∧
    List.Forall₂ Token.Alike ts us

/-- Errors at tokens with the same index, or at the ends of both texts. -/
def ParseError.SamePlace (sql sql' : String) (ts us : List Token) (e e' : ParseError) : Prop :=
  (∃ (i : Nat) (t u : Token), ts[i]? = some t ∧ us[i]? = some u ∧
      e.offset = t.start ∧ e'.offset = u.start) ∨
    (e.offset = sql.utf8ByteSize ∧ e'.offset = sql'.utf8ByteSize)

variable {limits : Limits} {sql sql' : String} {ts us before : List Token} {t u : Token}

namespace Token

theorem Alike.counterpart (h : t.Alike u) : t.Counterpart id u where
  kind := by
    rw [← h.1]
    cases t.kind <;> rfl
  source := congrArg String.ofList h.2.symm
  isSign := h.isSign.symm
  isBareWord word := (h.isBareWord word).symm
  isWord word := (h.isWord word).symm

theorem forall₂_alike_iff :
    List.Forall₂ Alike ts us ↔
      ts.map (fun t => (t.kind, t.text)) = us.map fun t => (t.kind, t.text) := by
  rw [← List.forall₂_eq_eq_eq, List.forall₂_map_left_iff, List.forall₂_map_right_iff]
  simp only [Prod.mk.injEq]
  rfl

theorem alike_trans {vs : List Token} (h : List.Forall₂ Alike ts us)
    (h' : List.Forall₂ Alike us vs) : List.Forall₂ Alike ts vs :=
  forall₂_alike_iff.2 ((forall₂_alike_iff.1 h).trans (forall₂_alike_iff.1 h'))

theorem counterparts_of_alike (h : List.Forall₂ Alike ts us) :
    List.Forall₂ (Counterpart id) ts us :=
  h.imp fun _ _ => Alike.counterpart

end Token

/-- The ends of two texts are alike. -/
theorem Lexical.Cursor.AtEnd.alike {c d : Cursor} (ht : c.AtEnd t) (hu : d.AtEnd u) :
    t.Alike u := by
  obtain ⟨_, hnext, hkind⟩ := ht
  obtain ⟨_, hnext', hkind'⟩ := hu
  obtain ⟨htext, -⟩ := List.append_eq_nil_iff.1 (Cursor.append_eq_nil_of_next hnext hkind)
  obtain ⟨htext', -⟩ := List.append_eq_nil_iff.1 (Cursor.append_eq_nil_of_next hnext' hkind')
  exact ⟨hkind.trans hkind'.symm, htext.trans htext'.symm⟩

/-- The texts of the same tokens of two rows have the same tokens. -/
theorem sameTokens_of_excerpt (hts : Legible ts) (hus : Legible us)
    (h : List.Forall₂ Token.Alike ts us) {a b : String}
    (hexcerpt : Past.Excerpt (.ofTokens ts us) a b) : SameTokens a b := by
  obtain ⟨row, row', hrow, hrow', hne, halike, rfl, rfl⟩ := hexcerpt.exists_row h
  have hlegible : ∀ {xs ys : List Token}, ys <:+: xs → Legible xs → Legible ys := by
    rintro _ ys ⟨front, back, rfl⟩ hxs
    exact hxs.append.1.append.2
  have hne' : row' ≠ [] := by
    rintro rfl
    exact hne (List.forall₂_nil_right_iff.1 halike)
  obtain ⟨xs, hxs, hmoved, -⟩ := (hlegible hrow hts).tokenize hne
  obtain ⟨ys, hys, hmoved', -⟩ := (hlegible hrow' hus).tokenize hne'
  have hback := Token.alike_trans (Token.alike_symm hmoved) halike
  exact ⟨xs, ys, hxs, hys, Token.alike_trans hback hmoved'⟩

-- ════════════════════════════════════════════════════════════════════════
-- Two runs
-- ════════════════════════════════════════════════════════════════════════

/-- What is parsed from a text is parsed from one with the same tokens, up to the texts that are
    held as they were written. -/
theorem exists_parse_of_alike (hts : tokenize sql.toList = .ok ts)
    (hus : tokenize sql'.toList = .ok us) (h : List.Forall₂ Token.Alike ts us)
    (hlength : sql'.utf8ByteSize ≤ limits.maxSqlLength) {table : Table}
    (hparse : parse limits sql = .ok table) :
    ∃ table', parse limits sql' = .ok table' ∧ table.Corresponds id SameTokens table' := by
  obtain ⟨-, hrun⟩ := parse_eq_ok.1 hparse
  obtain ⟨vs, c, e, c', hvs, he, haccepts⟩ := Reader.runFrom_eq_ok.1 hrun
  have hend : c.AtEnd e := ⟨c', he, Statement.kind_of_accepts haccepts⟩
  obtain rfl : vs = ts :=
    Except.ok.inj ((tokenize_eq_ok.2 ⟨c, e, hvs, hend⟩).symm.trans hts)
  obtain ⟨d, e', hreads, hend'⟩ := tokenize_eq_ok.1 hus
  obtain ⟨table', haccepts', htable⟩ :=
    Statement.accepts_parallel rfl (Token.counterparts_of_alike h) (hend.alike hend').counterpart
      haccepts
  obtain ⟨d', he', -⟩ := hend'
  refine ⟨table', parse_eq_ok.2 ⟨hlength, ?_⟩, htable.mono fun a b hexcerpt => ?_⟩
  · exact Reader.runFrom_eq_ok.2 ⟨us, d, e', d', hreads, he', haccepts'⟩
  · exact sameTokens_of_excerpt ⟨_, _, hvs⟩ ⟨_, _, hreads⟩ h hexcerpt

/-- Where a token stands in one text, its like stands in another text with the same tokens. -/
theorem StandsBehind.exists_alike (hts : tokenize sql.toList = .ok ts)
    (hus : tokenize sql'.toList = .ok us) (h : List.Forall₂ Token.Alike ts us)
    (ht : StandsBehind sql before t) :
    ∃ before' u, StandsBehind sql' before' u ∧ List.Forall₂ Token.Alike before before' ∧
      t.Alike u ∧
      ((before ++ [t] <+: ts ∧ before' ++ [u] <+: us) ∨
        (before = ts ∧ before' = us ∧ t.kind = .endOfInput)) := by
  by_cases hkind : t.kind = .endOfInput
  · obtain ⟨c, c', hreads, hnext⟩ := ht
    have hend : c.AtEnd t := ⟨c', hnext, hkind⟩
    obtain rfl : before = ts :=
      Except.ok.inj ((tokenize_eq_ok.2 ⟨c, t, hreads, hend⟩).symm.trans hts)
    obtain ⟨d, u, hreads', hend'⟩ := tokenize_eq_ok.1 hus
    have halike := hend.alike hend'
    obtain ⟨d', hnext', -⟩ := hend'
    exact ⟨us, u, ⟨d, d', hreads', hnext'⟩, h, halike, .inr ⟨rfl, rfl, hkind⟩⟩
  · obtain ⟨vs, rfl⟩ := ht.mem_of_tokenize hts hkind
    obtain ⟨before', back, rfl, hbefore, hback⟩ := exists_append_of_forall₂ h
    obtain _ | ⟨halike, hrest⟩ := hback
    exact ⟨before', _, standsBehind_of_tokenize hus, hbefore, halike,
      .inl ⟨⟨_, List.append_assoc ..⟩, ⟨_, List.append_assoc ..⟩⟩⟩

/-- Tokens that are blamed on either side of a run stand at the same place. -/
theorem StandsBehind.samePlace {before' : List Token} {x y : Token} {cause : Cause}
    (ht : StandsBehind sql before t) (hu : StandsBehind sql' before' u)
    (hlength : before.length = before'.length) (hkind : t.kind = u.kind)
    (hplace : (before ++ [t] <+: ts ∧ before' ++ [u] <+: us) ∨
      (before = ts ∧ before' = us ∧ t.kind = .endOfInput))
    (hmem : (x, y) ∈ (t, u) :: Past.ofTokens before before') :
    ParseError.SamePlace sql sql' ts us (x.error cause) (y.error cause) := by
  obtain ⟨⟨back, rfl⟩, ⟨back', rfl⟩⟩ | ⟨rfl, rfl, hend⟩ := hplace
  · -- the tokens that are offered have an index as well
    rw [← Past.ofTokens_concat hlength] at hmem
    obtain ⟨i, hx, hy⟩ := Past.exists_index_of_mem hmem
    refine .inl ⟨i, x, y, ?_, ?_, rfl, rfl⟩
    · rw [List.getElem?_append_left (List.getElem?_eq_some_iff.1 hx).1, hx]
    · rw [List.getElem?_append_left (List.getElem?_eq_some_iff.1 hy).1, hy]
  · obtain hoffered | hmem := List.mem_cons.1 hmem
    · obtain ⟨rfl, rfl⟩ := Prod.mk.inj hoffered
      exact .inr ⟨ht.start_eq_iff.2 hend, hu.start_eq_iff.2 (hkind ▸ hend)⟩
    · obtain ⟨i, hx, hy⟩ := Past.exists_index_of_mem hmem
      exact .inl ⟨i, x, y, hx, hy, rfl, rfl⟩

/-- What is refused in a text is refused in one with the same tokens. -/
theorem exists_error_of_alike (hts : tokenize sql.toList = .ok ts)
    (hus : tokenize sql'.toList = .ok us) (h : List.Forall₂ Token.Alike ts us)
    (hlength : sql.utf8ByteSize ≤ limits.maxSqlLength)
    (hlength' : sql'.utf8ByteSize ≤ limits.maxSqlLength) {e : ParseError}
    (hparse : parse limits sql = .error e) :
    ∃ e', parse limits sql' = .error e' ∧ e' = { e with offset := e'.offset } ∧
      ParseError.SamePlace sql sql' ts us e e' := by
  obtain ⟨before, t, s, ht, htakes, hrefused⟩ := refused_of_tokenize hlength hts hparse
  obtain ⟨before', u, hu, hbefore, halike, hplace⟩ := ht.exists_alike hts hus h
  obtain ⟨s', e', htakes', hrefused', @⟨x, y, cause, hmem⟩⟩ :=
    Statement.refused_parallel rfl (Token.counterparts_of_alike hbefore) halike.counterpart htakes
      hrefused
  have hlast := hbefore.length_eq
  have hxy : x.Alike y := by
    rw [← Past.ofTokens_concat hlast] at hmem
    exact Past.related_of_mem (List.rel_append hbefore (.cons halike .nil)) hmem
  have hsame : ParseError.SamePlace sql sql' ts us (x.error cause) (y.error cause) :=
    ht.samePlace hu hlast halike.1 hplace hmem
  obtain ⟨d, d', hreads', hnext'⟩ := hu
  refine ⟨y.error cause, ?_, ?_, hsame⟩
  · rw [parse_of_length_le hlength']
    exact Reader.runFrom_of_takes hreads' htakes' hnext' hrefused'
  · simp only [Token.error, Token.source, hxy.2]

/-- Blanks and comments between tokens do not matter. Of two texts with the same tokens, either both
    are parsed, and the tables are equal but for texts that are held as they were written, which
    have the same tokens; or neither is, and the errors are equal but for their offsets, which are
    those of tokens with the same index or of the ends of the texts. -/
theorem parse_of_alike (hts : tokenize sql.toList = .ok ts) (hus : tokenize sql'.toList = .ok us)
    (h : List.Forall₂ Token.Alike ts us) (hlength : sql.utf8ByteSize ≤ limits.maxSqlLength)
    (hlength' : sql'.utf8ByteSize ≤ limits.maxSqlLength) :
    (∃ table table', parse limits sql = .ok table ∧ parse limits sql' = .ok table' ∧
        table.Corresponds id SameTokens table') ∨
      ∃ e e', parse limits sql = .error e ∧ parse limits sql' = .error e' ∧
        e' = { e with offset := e'.offset } ∧ ParseError.SamePlace sql sql' ts us e e' := by
  cases hparse : parse limits sql with
  | ok table =>
    obtain ⟨table', hparse', htable⟩ := exists_parse_of_alike hts hus h hlength' hparse
    exact .inl ⟨table, table', rfl, hparse', htable⟩
  | error e =>
    obtain ⟨e', hparse', he⟩ := exists_error_of_alike hts hus h hlength hlength' hparse
    exact .inr ⟨e, e', rfl, hparse', he⟩

/-- A comment between the tokens of a check, and blanks around its parentheses. -/
theorem parse_of_alike_comment :
    ∃ table table', parse {} "CREATE TABLE t(a CHECK(b>0))" = .ok table ∧
      parse {} "CREATE TABLE t ( a CHECK ( b/**/> 0 ))" = .ok table' ∧ table ≠ table' ∧
      table.Corresponds id SameTokens table' := by
  have hts : (tokenize "CREATE TABLE t(a CHECK(b>0))".toList).toOption =
      some ((tokenize "CREATE TABLE t(a CHECK(b>0))".toList).toOption.getD []) := by
    decide +kernel
  have hus : (tokenize "CREATE TABLE t ( a CHECK ( b/**/> 0 ))".toList).toOption =
      some ((tokenize "CREATE TABLE t ( a CHECK ( b/**/> 0 ))".toList).toOption.getD []) := by
    decide +kernel
  have halike := Token.forall₂_alike_iff.2 (show
    ((tokenize "CREATE TABLE t(a CHECK(b>0))".toList).toOption.getD []).map
        (fun t => (t.kind, t.text)) =
      ((tokenize "CREATE TABLE t ( a CHECK ( b/**/> 0 ))".toList).toOption.getD []).map
        fun t => (t.kind, t.text) by decide +kernel)
  have hparse : (parse {} "CREATE TABLE t(a CHECK(b>0))").toOption =
      some { name := "t", columns := [{ name := "a", check := "b>0" }] } := by
    rw [parse_eq_run]
    decide +kernel
  have hparse' : (parse {} "CREATE TABLE t ( a CHECK ( b/**/> 0 ))").toOption =
      some { name := "t", columns := [{ name := "a", check := "b/**/> 0" }] } := by
    rw [parse_eq_run]
    decide +kernel
  have hok := eq_ok_of_toOption hparse
  have hok' := eq_ok_of_toOption hparse'
  refine ⟨_, _, hok, hok', by decide, ?_⟩
  obtain ⟨table, table', h, h', hcorresponds⟩ | ⟨e, e', h, -⟩ :=
    @parse_of_alike {} _ _ _ _ (eq_ok_of_toOption hts) (eq_ok_of_toOption hus) halike
      (by decide +kernel) (by decide +kernel)
  · obtain rfl := Except.ok.inj (hok.symm.trans h)
    obtain rfl := Except.ok.inj (hok'.symm.trans h')
    exact hcorresponds
  · cases hok.symm.trans h

end CreateTable
