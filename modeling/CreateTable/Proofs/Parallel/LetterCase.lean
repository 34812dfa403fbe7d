import CreateTable.Proofs.Lexical.Respelling
import CreateTable.Proofs.Parallel.Pieces

/-!
# Statements in upper case

Letter case means nothing to the grammar, and every text that is held keeps its own. A statement in
upper case is read as the statement is, with every text in the table, or in the error, in upper
case.

## Main definitions

- `Token.upper`, `ParseError.upper` — tokens and errors in upper case

## Main statements

- `tokenize_upper` — the tokens of a text in upper case
- `parse_upperCase` — the table of a statement in upper case
-/

namespace CreateTable

open Lexical Grammar Text

variable {limits : Limits} {sql : String}

-- ════════════════════════════════════════════════════════════════════════
-- Tokens
-- ════════════════════════════════════════════════════════════════════════

namespace Token

/-- A token in upper case, at the same place. -/
def upper (t : Token) : Token where
  kind := t.kind.mapText upperCase
  lead := Text.upper t.lead
  text := Text.upper t.text
  start := t.start

theorem span_upper (t : Token) : t.upper.span = t.span := by
  simp [span, stop, upper]

theorem source_upper (t : Token) : t.upper.source = upperCase t.source := by
  simp [source, upper]

theorem kind_beq_upper (t : Token) {kind : TokenKind} (h : kind.hasText = false) :
    (t.upper.kind == kind) = (t.kind == kind) := by
  rw [Bool.eq_iff_iff, beq_iff_eq, beq_iff_eq]
  exact (t.kind.similar_mapText upperCase).eq_iff kind h

theorem isSign_upper (t : Token) : t.upper.isSign = t.isSign := by
  have htext : ∀ k, Caseless k → (Text.upper t.text == [k]) = (t.text == [k]) := by
    intro k hk
    rw [Bool.eq_iff_iff, beq_iff_eq, beq_iff_eq, ← hk.toUpper]
    simp [Text.upper, List.map_eq_cons_iff, hk.toUpper, toUpper_eq_iff hk]
  rw [isSign, isSign, t.kind_beq_upper rfl]
  change (_ && (Text.upper t.text == _ || Text.upper t.text == _)) = _
  rw [htext '+' (by decide), htext '-' (by decide)]

theorem isBareWord_upper (t : Token) (word : String) :
    t.upper.isBareWord word = t.isBareWord word := by
  rw [isBareWord, isBareWord, t.kind_beq_upper rfl]
  change (_ && String.ofList (Text.upper (Text.upper t.text)) == word) = _
  rw [upper_upper]
  rfl

theorem isWord_upper (t : Token) (word : String) : t.upper.isWord word = t.isWord word := by
  have hbare := t.isBareWord_upper word
  have hname : ∀ name : String, (upperCase name).toList.map Char.toUpper =
      name.toList.map Char.toUpper := by
    intro name
    rw [toList_upperCase]
    exact upper_upper _
  have hkind : t.upper.kind = t.kind.mapText upperCase := rfl
  unfold isWord
  rw [hkind]
  cases t.kind with
  | quotedIdentifier name => simp only [TokenKind.mapText, hname]
  | stringLiteral value => simp only [TokenKind.mapText, hname]
  | _ => exact hbare

/-- A token in upper case may take the place of the token. -/
theorem counterpart_upper (t : Token) : t.Counterpart upperCase t.upper :=
  ⟨rfl, t.source_upper, t.isSign_upper, t.isBareWord_upper, t.isWord_upper⟩

theorem row_upper (ts : List Token) : row (ts.map upper) = Text.upper (row ts) := by
  induction ts with
  | nil => rfl
  | cons t ts ih =>
    rw [List.map_cons, row_cons, row_cons, ih, upper_append, upper_append]
    rfl

theorem verbatim_upper (ts : List Token) : verbatim (ts.map upper) = upperCase (verbatim ts) := by
  cases ts with
  | nil => rfl
  | cons t ts =>
    apply String.toList_injective
    rw [List.map_cons, toList_verbatim_cons, row_upper, toList_upperCase, toList_verbatim_cons,
      upper_append]
    rfl

end Token

/-- An error in upper case: for the same cause and at the same place. -/
def ParseError.upper (e : ParseError) : ParseError := { e with token := e.token.map upperCase }

theorem Token.error_upper (t : Token) (cause : Cause) :
    t.upper.error cause = (t.error cause).upper := by
  have hempty : t.upper.text.isEmpty = t.text.isEmpty := List.isEmpty_map
  simp only [Token.error, ParseError.upper, hempty, source_upper]
  split <;> rfl

-- ════════════════════════════════════════════════════════════════════════
-- Reading
-- ════════════════════════════════════════════════════════════════════════

namespace Lexical

/-- Upper case is another spelling. -/
theorem respelling_toUpper : Respelling fun c => [c.toUpper] where
  ascii c _ := ⟨c.toUpper, rfl, toUpper_toUpper c⟩
  other c hc := by simpa [toUpper_of_high hc] using hc

theorem respell_toUpper (text : List Char) : respell (fun c => [c.toUpper]) text = upper text :=
  List.flatMap_pure_eq_map ..

theorem respellString_toUpper : respellString (fun c => [c.toUpper]) = upperCase :=
  funext fun s => congrArg String.ofList (respell_toUpper s.toList)

/-- The lexeme of a text in upper case is the lexeme of the text, in upper case. -/
theorem Lexeme.read_upper (text : List Char) :
    read (upper text) = (read text).respell fun c => [c.toUpper] := by
  rw [← respell_toUpper, read_respell respelling_toUpper]

end Lexical

namespace Lexical.Cursor

variable {c c' : Cursor} {t : Token} {ts : List Token} {e : ParseError}

/-- The same place in the text in upper case. -/
def upper (c : Cursor) : Cursor := ⟨c.offset, Text.upper c.rest⟩

theorem next_upper (c : Cursor) :
    c.upper.next = ((c.next.1.map Token.upper).mapError ParseError.upper, c.next.2.upper) := by
  unfold next
  simp only [upper, Lexeme.read_upper]
  rcases Lexeme.read c.rest with ⟨lead, text, outcome, rest⟩
  cases outcome <;>
    simp [Lexeme.respell, respell_toUpper, respellString_toUpper, Except.map, Except.mapError,
      Token.upper, ParseError.upper]

theorem next_upper_of_ok (h : c.next = (.ok t, c')) : c.upper.next = (.ok t.upper, c'.upper) := by
  rw [next_upper, h]
  rfl

theorem next_upper_of_error (h : c.next = (.error e, c')) :
    c.upper.next = (.error e.upper, c'.upper) := by
  rw [next_upper, h]
  rfl

theorem Reads.upper (h : Reads c ts c') : Reads c.upper (ts.map Token.upper) c'.upper := by
  induction h with
  | nil => exact .nil
  | @cons c c' _ t _ hnext hne _ ih =>
    refine .cons (next_upper_of_ok hnext) (fun hend => hne ?_) ih
    exact ((t.kind.similar_mapText upperCase).eq_iff .endOfInput rfl).1 hend

theorem AtEnd.upper (h : c.AtEnd t) : c.upper.AtEnd t.upper := by
  obtain ⟨c', hnext, hend⟩ := h
  refine ⟨c'.upper, next_upper_of_ok hnext, ?_⟩
  exact ((t.kind.similar_mapText upperCase).eq_iff .endOfInput rfl).2 hend

end Lexical.Cursor

/-- A text has a fault where one stands behind its tokens. -/
theorem tokenize_of_reads {text : List Char} {ts : List Token} {c c' : Cursor} {e : ParseError}
    (h : Cursor.Reads (.ofText text) ts c) (hfault : c.next = (.error e, c')) :
    tokenize text = .error e := by
  have hstopped := Cursor.stopped_of_error hfault
  cases htokens : tokenize text with
  | ok us =>
    obtain ⟨d, last, hus, hend⟩ := tokenize_eq_ok.1 htokens
    obtain ⟨-, rfl⟩ := h.eq_of_stopped hstopped hus hend.stopped
    obtain ⟨d', hlast, -⟩ := hend
    cases congrArg Prod.fst (hlast.symm.trans hfault)
  | error e' =>
    obtain ⟨us, d, d', hus, hfault'⟩ := reads_of_tokenize_error htokens
    obtain ⟨-, rfl⟩ := h.eq_of_stopped hstopped hus (Cursor.stopped_of_error hfault')
    exact congrArg Except.error
      (Except.error.inj (congrArg Prod.fst (hfault'.symm.trans hfault)))

/-- The tokens of a text in upper case are those of the text, in upper case, and so is its fault. -/
theorem tokenize_upper (text : List Char) :
    tokenize (upper text) = ((tokenize text).map (·.map Token.upper)).mapError ParseError.upper := by
  cases htokens : tokenize text with
  | ok ts =>
    obtain ⟨c, e, hts, hend⟩ := tokenize_eq_ok.1 htokens
    exact tokenize_eq_ok.2 ⟨c.upper, e.upper, hts.upper, hend.upper⟩
  | error e =>
    obtain ⟨ts, c, c', hts, hfault⟩ := reads_of_tokenize_error htokens
    exact tokenize_of_reads hts.upper (Cursor.next_upper_of_error hfault)

-- ════════════════════════════════════════════════════════════════════════
-- Parsing
-- ════════════════════════════════════════════════════════════════════════

theorem utf8ByteSize_upperCase (s : String) : (upperCase s).utf8ByteSize = s.utf8ByteSize := by
  rw [← byteLength_toList, toList_upperCase, byteLength_upper, byteLength_toList]

theorem splitAtByte_upper (room : Nat) (text : List Char) :
    splitAtByte room (upper text) = (splitAtByte room text).map upper upper := by
  induction text generalizing room with
  | nil => rfl
  | cons c text ih =>
    rw [upper_cons, splitAtByte_cons, splitAtByte_cons, utf8Size_toUpper, ih]
    split <;> rfl

/-- The tokens in upper case may take the places of the tokens. -/
theorem counterparts_upper (ts : List Token) :
    List.Forall₂ (Token.Counterpart upperCase) ts (ts.map Token.upper) :=
  List.forall₂_map_right_iff.2 (List.forall₂_same.2 fun t _ => t.counterpart_upper)

theorem forall₂_upper (ts : List Token) :
    List.Forall₂ (fun t u => u = t.upper) ts (ts.map Token.upper) :=
  List.forall₂_map_right_iff.2 (List.forall₂_same.2 fun _ _ => rfl)

/-- The texts of the same tokens, and of these in upper case. -/
theorem eq_upperCase_of_excerpt {ts : List Token} {a b : String}
    (h : Past.Excerpt (.ofTokens ts (ts.map Token.upper)) a b) : b = upperCase a := by
  obtain ⟨row, row', -, -, -, hrow, rfl, rfl⟩ := h.exists_row (forall₂_upper ts)
  rw [eq_map_of_forall₂ hrow, Token.verbatim_upper]

theorem run_upper_of_ok {text : List Char} {table : Table}
    (h : (statementReader limits).run text = .ok table) :
    (statementReader limits).run (upper text) = .ok (table.mapText upperCase) := by
  obtain ⟨ts, c, e, c', hts, he, haccepts⟩ := Reader.runFrom_eq_ok.1 h
  obtain ⟨table', haccepts', htable⟩ :=
    Statement.accepts_parallel rfl (counterparts_upper ts) e.counterpart_upper haccepts
  obtain rfl := (htable.mono fun _ _ => eq_upperCase_of_excerpt).eq_mapText
  exact Reader.runFrom_eq_ok.2
    ⟨_, c.upper, e.upper, c'.upper, hts.upper, Cursor.next_upper_of_ok he, haccepts'⟩

theorem run_upper_of_error {text : List Char} {e : ParseError}
    (h : (statementReader limits).run text = .error e) :
    (statementReader limits).run (upper text) = .error e.upper := by
  obtain ⟨ts, c, s, hts, htakes, ⟨c', hfault⟩ | ⟨t, c', hnext, hrefused⟩⟩ :=
    Reader.takes_of_runFrom_error h
  · have hstart : Statement.State.Parallel upperCase [] .start .start := .start
    obtain ⟨s', htakes', -⟩ :=
      Statement.takes_parallel rfl (counterparts_upper ts) hstart htakes
    exact Reader.runFrom_of_takes_fault hts.upper htakes' (Cursor.next_upper_of_error hfault)
  · obtain ⟨s', e', htakes', hrefused', @⟨x, y, cause, hmem⟩⟩ :=
      Statement.refused_parallel rfl (counterparts_upper ts) t.counterpart_upper htakes hrefused
    have hy : y = x.upper := by
      obtain hoffered | hmem := List.mem_cons.1 hmem
      · obtain ⟨rfl, rfl⟩ := Prod.mk.inj hoffered
        rfl
      · exact Past.related_of_mem (R := fun t u => u = t.upper) (forall₂_upper ts) hmem
    rw [← x.error_upper, ← hy]
    exact Reader.runFrom_of_takes hts.upper htakes' (Cursor.next_upper_of_ok hnext) hrefused'

/-- A statement in upper case is read as the statement is, in upper case. -/
theorem parse_upperCase_eq (limits : Limits) (sql : String) :
    parse limits (upperCase sql) =
      ((parse limits sql).map (.mapText upperCase)).mapError ParseError.upper := by
  by_cases hlength : sql.utf8ByteSize ≤ limits.maxSqlLength
  · have hlength' : (upperCase sql).utf8ByteSize ≤ limits.maxSqlLength := by
      rwa [utf8ByteSize_upperCase]
    rw [parse_of_length_le hlength', parse_of_length_le hlength, toList_upperCase]
    cases hrun : (statementReader limits).run sql.toList with
    | ok table => exact run_upper_of_ok hrun
    | error e => exact run_upper_of_error hrun
  · have hlength' : limits.maxSqlLength < sql.utf8ByteSize := Nat.not_le.1 hlength
    have hlength'' : limits.maxSqlLength < (upperCase sql).utf8ByteSize := by
      rwa [utf8ByteSize_upperCase]
    rw [parse_of_lt_length hlength'', parse_of_lt_length hlength', utf8ByteSize_upperCase,
      toList_upperCase, splitAtByte_upper, Prod.map_fst, byteLength_upper]
    rfl

/-- Letter case means nothing, and is kept. The tokens of a text in upper case are those of the
    text, at the same places and of the same kinds, and the table of a statement in upper case is
    that of the statement; all texts in them, and in errors, are in upper case. Statements that
    differ only in letter case therefore declare tables that differ only in letter case. -/
theorem parse_upperCase (limits : Limits) :
    (∀ text, tokenize (upper text) =
      ((tokenize text).map (·.map Token.upper)).mapError ParseError.upper) ∧
    (∀ t : Token, t.upper.span = t.span ∧ t.upper.source = upperCase t.source ∧
      t.upper.kind = t.kind.mapText upperCase) ∧
    (∀ sql, parse limits (upperCase sql) =
      ((parse limits sql).map (.mapText upperCase)).mapError ParseError.upper) ∧
    ∀ sql sql' table, upperCase sql = upperCase sql' → parse limits sql = .ok table →
      ∃ table', parse limits sql' = .ok table' ∧
        table'.mapText upperCase = table.mapText upperCase := by
  refine ⟨tokenize_upper, fun t => ⟨t.span_upper, t.source_upper, rfl⟩,
    parse_upperCase_eq limits, fun sql sql' table hcase hparse => ?_⟩
  have hupper := parse_upperCase_eq limits sql
  rw [hcase, parse_upperCase_eq limits sql', hparse] at hupper
  cases hparse' : parse limits sql' with
  | ok table' =>
    rw [hparse'] at hupper
    exact ⟨table', rfl, Except.ok.inj hupper⟩
  | error e =>
    rw [hparse'] at hupper
    cases hupper

/-- A quoted name, a type and a blob in either case. -/
theorem parse_upperCase_blob :
    ∃ table table', parse {} "create Table \"a\"(b Int default x'0f')" = .ok table ∧
      parse {} "CREATE TABLE \"A\"(B INT DEFAULT X'0F')" = .ok table' ∧ table' ≠ table ∧
      table'.mapText upperCase = table.mapText upperCase := by
  have hparse : (parse {} "create Table \"a\"(b Int default x'0f')").toOption =
      some { name := "a", columns := [{ name := "b", type := "Int", default := "x'0f'" }] } := by
    rw [parse_eq_run]
    decide +kernel
  have hparse' : (parse {} "CREATE TABLE \"A\"(B INT DEFAULT X'0F')").toOption =
      some { name := "A", columns := [{ name := "B", type := "INT", default := "X'0F'" }] } := by
    rw [parse_eq_run]
    decide +kernel
  have hok := eq_ok_of_toOption hparse
  have hok' := eq_ok_of_toOption hparse'
  obtain ⟨table', htable', hcase⟩ :=
    (parse_upperCase {}).2.2.2 _ "CREATE TABLE \"A\"(B INT DEFAULT X'0F')" _ (by decide +kernel) hok
  obtain rfl := Except.ok.inj (hok'.symm.trans htable')
  exact ⟨_, _, hok, hok', by decide, hcase⟩

end CreateTable
