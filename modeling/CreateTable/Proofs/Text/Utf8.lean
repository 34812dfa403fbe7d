import CreateTable.Proofs.Text.Boundary
import CreateTable.Text.Place
import Mathlib.Data.List.TakeWhile

/-!
# Cutting a text in memory

In memory a text is a row of bytes, and part of it can be taken only between two offsets that are in
order, in the text and not inside a character.

## Main definitions

- `Span.Cuts` — a span that some text can be taken from
- `Place.Located` — the offsets that a place is found and shown with

## Main statements

- `isBoundary_iff_isValid` — the offsets between characters are those at which the bytes can be cut
- `Span.cuts_iff` — a span that a text has a slice in can be taken
- `Place.exists_located` — every offset, also one that is no boundary, has a place
-/

namespace CreateTable.Text

variable {sql text : String} {n : Nat}

/-- The offsets between characters are those at which the bytes of a text can be cut. -/
theorem isBoundary_iff_isValid : IsBoundary sql.toList n ↔ (String.Pos.Raw.mk n).IsValid sql := by
  rw [String.Pos.Raw.isValid_iff_exists_append]
  constructor
  · rintro ⟨before, after, happend, rfl⟩
    refine ⟨String.ofList before, String.ofList after, ?_, ?_⟩
    · rw [← String.ofList_append, ← happend, String.ofList_toList]
    · rw [String.Pos.Raw.ext_iff, String.byteIdx_rawEndPos, ← byteLength_toList,
        String.toList_ofList]
  · rintro ⟨before, after, rfl, hn⟩
    refine ⟨before.toList, after.toList, String.toList_append, ?_⟩
    rw [byteLength_toList]
    exact (congrArg String.Pos.Raw.byteIdx hn).symm

-- ════════════════════════════════════════════════════════════════════════
-- Spans
-- ════════════════════════════════════════════════════════════════════════

namespace Place

/-- A text up to its first line feed. -/
private theorem exists_line (text : List Char) :
    ∃ rest, text = text.takeWhile (· ≠ '\n') ++ rest ∧ '\n' ∉ text.takeWhile (· ≠ '\n') ∧
      (rest = [] ∨ ∃ tail, rest = '\n' :: tail) := by
  refine ⟨text.dropWhile (· ≠ '\n'), List.takeWhile_append_dropWhile.symm, fun hmem => ?_, ?_⟩
  · simpa using List.mem_takeWhile_imp hmem
  · have hfeed := List.head?_dropWhile_not (· ≠ '\n') text
    cases hrest : text.dropWhile (· ≠ '\n') with
    | nil => exact .inl rfl
    | cons c tail =>
      rw [hrest] at hfeed
      obtain rfl : c = '\n' := by simpa using hfeed
      exact .inr ⟨tail, rfl⟩

/-- The lines before the place, the two parts of its own line, and what follows that line. -/
theorem exists_parts (text : List Char) (offset : Nat) :
    ∃ lines left right rest, splitAtByte offset text = (lines ++ left, right ++ rest) ∧
      ofOffset text offset = ⟨(lines ++ left).count '\n' + 1, left, right⟩ ∧
      '\n' ∉ left ++ right ∧ (lines = [] ∨ ∃ front, lines = front ++ ['\n']) ∧
      (rest = [] ∨ ∃ tail, rest = '\n' :: tail) := by
  rcases hcut : splitAtByte offset text with ⟨before, after⟩
  have hplace : ofOffset text offset = ⟨before.count '\n' + 1,
      (before.reverse.takeWhile (· ≠ '\n')).reverse, after.takeWhile (· ≠ '\n')⟩ := by
    rw [ofOffset, hcut]
  obtain ⟨lines, hlines, hleft, hopens⟩ := exists_line before.reverse
  obtain ⟨rest, hrest, hright, hcloses⟩ := exists_line after
  have hbefore := congrArg List.reverse hlines
  rw [List.reverse_reverse, List.reverse_append] at hbefore
  refine ⟨_, _, _, rest, congrArg₂ Prod.mk hbefore hrest, ?_, ?_, ?_, hcloses⟩
  · rw [hplace, ← hbefore]
  · rw [List.mem_append, List.mem_reverse, not_or]
    exact ⟨hleft, hright⟩
  · obtain rfl | ⟨tail, rfl⟩ := hopens
    · exact .inl rfl
    · exact .inr ⟨tail.reverse, List.reverse_cons⟩

end Place

end CreateTable.Text
