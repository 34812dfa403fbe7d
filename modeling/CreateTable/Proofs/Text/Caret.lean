import CreateTable.Proofs.Lexical.Layout
import CreateTable.Proofs.Text.Lines

/-!
# The caret of an excerpt

The number of a line stands in four characters. It takes more from line 10000 on, while the caret
stays where it is for smaller numbers, so from there on it is left of its place.

## Main statements

- `caret_under_offset_iff` — the caret is under its place on lines before line 10000, and on no other
- `caret_left_of_offset` — a parse error on line 10000, and the caret of it
-/

namespace CreateTable

open Text

/-- A number is written in digits. -/
theorem notMem_toString {c : Char} (n : Nat) (hc : c.isDigit = false) :
    c ∉ (toString n).toList := by
  intro hmem
  have hdigit : c.isDigit := Nat.isDigit_of_mem_toDigits (b := 10) (n := n) (by decide) (by decide)
    (by simpa using hmem)
  rw [hc] at hdigit
  cases hdigit

/-- An excerpt is two lines. The second has a caret at its end and nowhere else. It stands in the
    column in which the first line shows what follows the offset, less the characters that the
    number of the line has over four, so it is under its place if and only if the line comes before
    line 10000. -/
theorem caret_under_offset_iff (sql : String) (d : Diagnostic) :
    ∃ o before after shown indent column,
      IsGreatest {n | (String.Pos.Raw.mk n).IsValid sql ∧ n ≤ min d.offset sql.utf8ByteSize} o ∧
      sql.toList = before ++ after ∧ byteLength before = o ∧
      (d.excerpt sql).toList = shown ++ '\n' :: (indent ++ ['^']) ∧
      '\n' ∉ shown ∧ '\n' ∉ indent ∧ '^' ∉ indent ∧
      column ≤ shown.length ∧ shown.drop column = after.takeWhile (· ≠ '\n') ∧
      column = indent.length + ((toString (before.count '\n' + 1)).length - 4) ∧
      (indent.length = column ↔ before.count '\n' + 1 < 10000) := by
  obtain ⟨earlier, left, right, rest, hcut, hplace, hfeedless, -⟩ :=
    Place.exists_parts sql.toList d.offset
  have hsql : sql.toList = (earlier ++ left) ++ (right ++ rest) := by
    rw [← splitAtByte_append d.offset sql.toList, hcut]
  have hright : (right ++ rest).takeWhile (· ≠ '\n') = right := by
    have hafter := congrArg Place.after hplace
    rwa [Place.ofOffset, hcut] at hafter
  obtain ⟨number, hnumber⟩ : ∃ n, n = toString ((earlier ++ left).count '\n' + 1) := ⟨_, rfl⟩
  have hdigits : number.length ≤ 4 ↔ (earlier ++ left).count '\n' + 1 < 10000 :=
    hnumber ▸ Nat.length_repr_le_iff (by decide)
  let label := List.replicate (4 - number.length) ' ' ++ number.toList ++ " | ".toList
  have hlabel : label.length = 7 + (number.length - 4) := by
    simp only [label, List.length_append, List.length_replicate, String.length_toList]
    have hbar : " | ".length = 3 := rfl
    omega
  have hfeed : '\n' ∉ label ++ (left ++ right) := by
    have hdigit : '\n' ∉ number.toList := hnumber ▸ notMem_toString _ rfl
    simpa [label, hdigit] using hfeedless
  refine ⟨_, earlier ++ left, right ++ rest, label ++ (left ++ right),
    "     | ".toList ++ List.replicate left.length ' ', (label ++ left).length,
    isGreatest_cut sql d.offset, hsql, by rw [hcut], ?_, hfeed, ?_, ?_, ?_, ?_, ?_, ?_⟩
  · rw [Diagnostic.excerpt, Place.toList_excerpt, hplace]
    simp [label, hnumber]
  · simp
  · simp
  · simp only [List.length_append]
    omega
  · rw [← List.append_assoc, List.drop_left, hright]
  · rw [← hnumber]
    simp only [List.length_append, List.length_replicate, hlabel, String.length_toList]
    have hbar : "     | ".length = 7 := rfl
    omega
  · rw [← hdigits]
    simp only [List.length_append, List.length_replicate, hlabel, String.length_toList]
    have hbar : "     | ".length = 7 := rfl
    omega

-- ════════════════════════════════════════════════════════════════════════
-- Line 10000
-- ════════════════════════════════════════════════════════════════════════

/-- So many line feeds, and behind them a letter. -/
def letterBehindFeeds (count : Nat) : String :=
  String.ofList (List.replicate count '\n' ++ ['x'])

theorem byteLength_feeds (count : Nat) : byteLength (List.replicate count '\n') = count := by
  induction count with
  | zero => rfl
  | succ count ih =>
    rw [List.replicate_succ, byteLength_cons, ih, Nat.add_comm]
    rfl

theorem Lexical.Trivia.closed_feeds (count : Nat) : Trivia.Closed (List.replicate count '\n') := by
  induction count with
  | zero => exact .nil
  | succ count ih => exact Trivia.passes_blank rfl ih

/-- A letter behind line feeds is at the start of the line behind them. -/
theorem ofOffset_letterBehindFeeds (count : Nat) :
    Place.ofOffset (letterBehindFeeds count).toList count = ⟨count + 1, [], ['x']⟩ := by
  have hcut : splitAtByte count (List.replicate count '\n' ++ ['x']) =
      (List.replicate count '\n', ['x']) := by
    have := splitAtByte_of_append (List.replicate count '\n') ['x']
    rwa [byteLength_feeds] at this
  have hfeeds : (List.replicate count '\n').takeWhile (· ≠ '\n') = [] := by
    cases count <;> rfl
  rw [letterBehindFeeds, String.toList_ofList, Place.ofOffset, hcut]
  simp only [List.count_replicate_self, List.reverse_replicate, hfeeds]
  rfl

/-- A letter behind line feeds is no statement. -/
theorem parse_letterBehindFeeds {limits : Limits} {count : Nat}
    (h : count < limits.maxSqlLength) :
    ∃ e, parse limits (letterBehindFeeds count) = .error e ∧ e.offset = count := by
  have hsize : (letterBehindFeeds count).utf8ByteSize = count + 1 := by
    rw [← byteLength_toList, letterBehindFeeds, String.toList_ofList, byteLength_append,
      byteLength_feeds]
    rfl
  let start := Lexical.Cursor.ofText (letterBehindFeeds count).toList
  have hread : Lexical.Lexeme.read start.rest =
      ⟨List.replicate count '\n', ['x'], .ok .identifier, []⟩ := by
    simp only [start, Lexical.Cursor.ofText, letterBehindFeeds, String.toList_ofList]
    exact Lexical.Lexeme.read_of_first (Lexical.Trivia.closed_feeds count)
      (Lexical.Trivia.not_begins_cons (by decide) (by decide) (by decide) []) rfl
  obtain ⟨t, c', hnext, hkind, hlead, -, -⟩ := Lexical.Cursor.next_of_read hread
  have hstart := (Lexical.Cursor.start_of_next hnext).1
  rw [hlead, byteLength_feeds] at hstart
  have hrefused : (Grammar.statementReader limits).step .start t =
      .refused (t.unexpected .createTable) := by
    simp [Grammar.statementReader, Grammar.Statement.step, Grammar.takeKeyword, Grammar.takeKind,
      hkind, Token.refuse]
  refine ⟨t.unexpected .createTable, ?_, hstart.trans (Nat.zero_add count)⟩
  rw [parse_of_length_le (by omega)]
  exact Reader.runFrom_of_refused hnext hrefused

/-- The letter in the excerpt stands behind eight characters, the caret under it behind seven. -/
theorem caret_left_of_offset :
    ∃ e, parse {} (letterBehindFeeds 9999) = .error e ∧ e.offset = 9999 ∧
      e.diagnostic.excerpt (letterBehindFeeds 9999) = "10000 | x\n     | ^" := by
  obtain ⟨e, hparse, hoffset⟩ := @parse_letterBehindFeeds {} 9999 (by decide)
  refine ⟨e, hparse, hoffset, ?_⟩
  rw [Diagnostic.excerpt, ParseError.diagnostic, hoffset, ofOffset_letterBehindFeeds]
  decide

end CreateTable
