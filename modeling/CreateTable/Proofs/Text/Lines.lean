import CreateTable.Diagnostic
import CreateTable.Proofs.Text.Utf8
import Mathlib.Algebra.BigOperators.Group.List.Basic
import Mathlib.Algebra.GroupWithZero.Nat

/-!
# The lines of a text

Line feeds cut a text into lines. Every offset lies in one of them, or at its end, and in no other,
and an excerpt shows that line with its number.

## Main definitions

- `lines` — the lines of a text, without their line feeds
- `lineStart` — the offset at which a line begins
- `OnLine` — an offset lies in a line or at its end

## Main statements

- `OnLine.unique` — no offset lies on two lines
- `Place.line_ofOffset` — a place is found on the line of the text that has its number
- `excerpt_shows_line` — an excerpt shows the line of its offset
-/

namespace CreateTable

namespace Text

variable {text line : List Char} {ls : List (List Char)} {i j o : Nat}

/-- The lines of a text, without the line feeds between them. -/
def lines (text : List Char) : List (List Char) := text.splitOn '\n'

/-- The offset at which a line begins, counted from zero: before it stand the earlier lines, each
    with its line feed. -/
def lineStart (ls : List (List Char)) (i : Nat) : Nat :=
  ((ls.take i).map (byteLength · + 1)).sum

/-- The offset lies in the line of the given number, counted from zero, or at its end. -/
def OnLine (ls : List (List Char)) (o i : Nat) : Prop :=
  ∃ line, ls[i]? = some line ∧ lineStart ls i ≤ o ∧ o ≤ lineStart ls i + byteLength line

-- ════════════════════════════════════════════════════════════════════════
-- No offset lies on two lines
-- ════════════════════════════════════════════════════════════════════════

theorem lineStart_succ (h : ls[i]? = some line) :
    lineStart ls (i + 1) = lineStart ls i + byteLength line + 1 := by
  simp [lineStart, List.take_add_one, h, Nat.add_assoc]

theorem lineStart_mono (h : i ≤ j) : lineStart ls i ≤ lineStart ls j := by
  induction h with
  | refl => rfl
  | @step j _ ih =>
    refine Nat.le_trans ih ?_
    cases hj : ls[j]? with
    | none => simp [lineStart, List.take_add_one, hj]
    | some line =>
      rw [lineStart_succ hj]
      omega

/-- A later line begins behind the end of an earlier one. -/
theorem OnLine.lt_lineStart (h : OnLine ls o i) (hij : i < j) : o < lineStart ls j := by
  obtain ⟨line, hline, -, ho⟩ := h
  have hmono : lineStart ls (i + 1) ≤ lineStart ls j := lineStart_mono hij
  rw [lineStart_succ hline] at hmono
  omega

theorem OnLine.unique (h : OnLine ls o i) (h' : OnLine ls o j) : i = j := by
  obtain ⟨_, -, hi, -⟩ := id h
  obtain ⟨_, -, hj, -⟩ := id h'
  rcases Nat.lt_trichotomy i j with hij | hij | hij
  · exact absurd (h.lt_lineStart hij) (Nat.not_lt.2 hj)
  · exact hij
  · exact absurd (h'.lt_lineStart hij) (Nat.not_lt.2 hi)

-- ════════════════════════════════════════════════════════════════════════
-- The line of a place
-- ════════════════════════════════════════════════════════════════════════

theorem lines_append_feed (front rest : List Char) :
    lines (front ++ '\n' :: rest) = lines front ++ lines rest :=
  List.splitOn_append_cons_self ..

theorem lines_of_feedless (h : '\n' ∉ text) : lines text = [text] :=
  List.splitOn_eq_singleton h

theorem lines_cons (c : Char) (text : List Char) :
    lines (c :: text) =
      if c = '\n' then [] :: lines text else (lines text).modifyHead (c :: ·) := by
  simp [lines, List.splitOn_cons_eq_if_modifyHead]

/-- A text has one line more than it has line feeds. -/
theorem length_lines (text : List Char) : (lines text).length = text.count '\n' + 1 := by
  induction text with
  | nil => rfl
  | cons c text ih =>
    rw [lines_cons]
    split
    · simp [*]
    · simp [*]

/-- The lines of a text, each with a line feed, take one byte more than the text. -/
theorem sum_lines (text : List Char) :
    ((lines text).map (byteLength · + 1)).sum = byteLength text + 1 := by
  induction text with
  | nil => rfl
  | cons c text ih =>
    rw [lines_cons]
    split
    · rename_i hc
      have hsize : Char.utf8Size '\n' = 1 := rfl
      simp only [hc, List.map_cons, List.sum_cons, ih, byteLength_cons, byteLength_nil, hsize]
      omega
    · obtain ⟨l, ls, hls⟩ : ∃ l ls, lines text = l :: ls :=
        List.exists_cons_of_ne_nil (List.splitOn_ne_nil _ _)
      rw [hls] at ih ⊢
      simp only [List.map_cons, List.sum_cons] at ih
      simp only [List.modifyHead_cons, List.map_cons, List.sum_cons, byteLength_cons]
      omega

/-- The line of a place is the line of the text that has its number, and the place is in it. -/
theorem Place.line_ofOffset (text : List Char) (offset : Nat) :
    let p := Place.ofOffset text offset
    ∃ i, p.line = i + 1 ∧ (lines text)[i]? = some (p.before ++ p.after) ∧
      lineStart (lines text) i + byteLength p.before = byteLength (splitAtByte offset text).1 := by
  obtain ⟨earlier, left, right, rest, hcut, hplace, hfeedless, hopens, hcloses⟩ :=
    exists_parts text offset
  have htext : text = earlier ++ (left ++ right ++ rest) := by
    rw [← splitAtByte_append offset text, hcut]
    simp
  obtain ⟨more, hline⟩ : ∃ more, lines (left ++ right ++ rest) = (left ++ right) :: more := by
    obtain rfl | ⟨tail, rfl⟩ := hcloses
    · exact ⟨[], by rw [List.append_nil, lines_of_feedless hfeedless]⟩
    · exact ⟨lines tail, by rw [lines_append_feed, lines_of_feedless hfeedless]; rfl⟩
  have hleft : left.count '\n' = 0 :=
    List.count_eq_zero.2 fun hmem => hfeedless (List.mem_append_left _ hmem)
  have hcount : (earlier ++ left).count '\n' = earlier.count '\n' := by
    rw [List.count_append, hleft, Nat.add_zero]
  rw [hcut, hplace, hcount, byteLength_append]
  refine ⟨earlier.count '\n', rfl, ?_⟩
  obtain rfl | ⟨front, rfl⟩ := hopens
  · rw [htext, List.nil_append, hline]
    exact ⟨rfl, by simp [lineStart]⟩
  · have hlines : lines text = lines front ++ (left ++ right) :: more := by
      rw [htext, List.append_assoc, List.singleton_append, lines_append_feed, hline]
    have hlength : (front ++ ['\n']).count '\n' = (lines front).length := by
      rw [length_lines, List.count_append]
      rfl
    rw [hlines, hlength]
    refine ⟨by simp, ?_⟩
    rw [lineStart, List.take_left, sum_lines, byteLength_append]
    rfl

theorem Place.toList_excerpt (p : Place) :
    p.excerpt.toList =
      List.replicate (4 - (toString p.line).length) ' ' ++ (toString p.line).toList ++
        " | ".toList ++ (p.before ++ p.after) ++ '\n' :: "     | ".toList ++
        List.replicate p.before.length ' ' ++ ['^'] := by
  rw [← String.length_toList]
  simp only [excerpt, alignRight, String.toList_append, String.toList_ofList]
  simp

/-- A text is cut at its last boundary up to an offset, also where the offset is past its end. -/
theorem isGreatest_cut (sql : String) (offset : Nat) :
    IsGreatest {n | (String.Pos.Raw.mk n).IsValid sql ∧ n ≤ min offset sql.utf8ByteSize}
      (byteLength (splitAtByte offset sql.toList).1) := by
  have hsize : ∀ n, (String.Pos.Raw.mk n).IsValid sql → n ≤ sql.utf8ByteSize := by
    intro n hn
    rw [← byteLength_toList]
    exact (isBoundary_iff_isValid.2 hn).le_byteLength
  have hgreatest := isGreatest_splitAtByte sql.toList offset
  simp only [isBoundary_iff_isValid] at hgreatest
  obtain ⟨⟨hvalid, hle⟩, hupper⟩ := hgreatest
  refine ⟨⟨hvalid, le_min hle (hsize _ hvalid)⟩, ?_⟩
  rintro n ⟨hn, hmin⟩
  exact hupper ⟨hn, le_trans hmin (min_le_left _ _)⟩

end Text

open Text

/-- An excerpt shows the one line that its offset lies on, behind the number of that line. Under it
    stands a caret, behind as many spaces as the line has characters before the offset. -/
theorem excerpt_shows_line (sql : String) (d : Diagnostic) :
    ∃ o i before after,
      IsGreatest {n | (String.Pos.Raw.mk n).IsValid sql ∧ n ≤ min d.offset sql.utf8ByteSize} o ∧
      (∀ j, OnLine (lines sql.toList) o j ↔ j = i) ∧
      (lines sql.toList)[i]? = some (before ++ after) ∧
      lineStart (lines sql.toList) i + byteLength before = o ∧
      (d.excerpt sql).toList =
        List.replicate (4 - (toString (i + 1)).length) ' ' ++ (toString (i + 1)).toList ++
          " | ".toList ++ (before ++ after) ++ '\n' :: "     | ".toList ++
          List.replicate before.length ' ' ++ ['^'] := by
  obtain ⟨i, hnumber, hline, hstart⟩ := Place.line_ofOffset sql.toList d.offset
  have hon : OnLine (lines sql.toList) (byteLength (splitAtByte d.offset sql.toList).1) i := by
    refine ⟨_, hline, ?_, ?_⟩
    · omega
    · rw [byteLength_append]
      omega
  refine ⟨_, i, _, _, isGreatest_cut sql d.offset, fun j => ?_, hline, hstart, ?_⟩
  · exact ⟨fun hj => hj.unique hon, fun hj => hj ▸ hon⟩
  · rw [Diagnostic.excerpt, Place.toList_excerpt, hnumber]

end CreateTable
