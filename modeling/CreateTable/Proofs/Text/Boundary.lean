import CreateTable.Text.Span
import Mathlib.Order.Bounds.Basic

/-!
# Boundaries of characters

Which byte offsets of a text lie between its characters, and what stands between two of them.

## Main definitions

- `IsBoundary` — an offset between two characters, or at an end of the text

## Main statements

- `isGreatest_splitAtByte` — a text is cut at the last boundary that the room allows
- `Span.slice?_of_append` — what stands between two boundaries is the slice there
-/

namespace CreateTable.Text

variable {text before after : List Char} {n room : Nat}

/-- A part of the text ends at the offset. -/
def IsBoundary (text : List Char) (n : Nat) : Prop :=
  ∃ before after, text = before ++ after ∧ byteLength before = n

theorem isBoundary_append (before after : List Char) :
    IsBoundary (before ++ after) (byteLength before) :=
  ⟨before, after, rfl, rfl⟩

theorem IsBoundary.le_byteLength (h : IsBoundary text n) : n ≤ byteLength text := by
  obtain ⟨before, after, rfl, rfl⟩ := h
  rw [byteLength_append]
  exact Nat.le_add_right _ _

/-- The bytes of a string are those of its characters. -/
theorem byteLength_toList (s : String) : byteLength s.toList = s.utf8ByteSize := by
  have hlist : ∀ cs : List Char, byteLength cs = (String.ofList cs).utf8ByteSize := by
    intro cs
    induction cs with
    | nil => rfl
    | cons c cs ih =>
      rw [byteLength_cons, ih, ← List.singleton_append, String.ofList_append,
        String.utf8ByteSize_append, ← String.singleton_eq_ofList, String.utf8ByteSize_singleton]
  rw [hlist, String.ofList_toList]

/-- Characters take at least one byte, so only the empty text takes none. -/
theorem byteLength_pos (h : text ≠ []) : 0 < byteLength text := by
  obtain ⟨c, rest, rfl⟩ := List.exists_cons_of_ne_nil h
  have := c.utf8Size_pos
  rw [byteLength_cons]
  omega

theorem eq_nil_of_byteLength (h : byteLength text = 0) : text = [] := by
  by_contra hne
  exact (byteLength_pos hne).ne' h

-- ════════════════════════════════════════════════════════════════════════
-- Cuts
-- ════════════════════════════════════════════════════════════════════════

/-- A text is cut where a part of it ends that fills the room. -/
theorem splitAtByte_of_append (before after : List Char) :
    splitAtByte (byteLength before) (before ++ after) = (before, after) := by
  induction before with
  | nil =>
    cases after with
    | nil => rfl
    | cons c after =>
      have := c.utf8Size_pos
      rw [List.nil_append, splitAtByte_cons, if_neg (by rw [byteLength_nil]; omega)]
  | cons c before ih =>
    rw [List.cons_append, splitAtByte_cons, if_pos (by rw [byteLength_cons]; omega),
      byteLength_cons, Nat.add_sub_cancel_left, ih]

/-- Every part of a text that fits into the room is part of what is cut off. -/
theorem byteLength_le_splitAtByte (h : byteLength before ≤ room) :
    byteLength before ≤ byteLength (splitAtByte room (before ++ after)).1 := by
  induction before generalizing room with
  | nil => exact Nat.zero_le _
  | cons c before ih =>
    rw [byteLength_cons] at h
    have hfits : byteLength before ≤ room - c.utf8Size := by omega
    have hcut := ih hfits
    rw [List.cons_append, splitAtByte_cons, if_pos (by omega), byteLength_cons, byteLength_cons]
    omega

/-- A text is cut at the last boundary that the room allows. -/
theorem isGreatest_splitAtByte (text : List Char) (room : Nat) :
    IsGreatest {n | IsBoundary text n ∧ n ≤ room} (byteLength (splitAtByte room text).1) := by
  constructor
  · refine ⟨⟨_, _, (splitAtByte_append room text).symm, rfl⟩, ?_⟩
    exact byteLength_splitAtByte_le room text
  · rintro n ⟨⟨before, after, rfl, rfl⟩, hroom⟩
    exact byteLength_le_splitAtByte hroom

-- ════════════════════════════════════════════════════════════════════════
-- Slices
-- ════════════════════════════════════════════════════════════════════════

/-- What stands between two boundaries is the slice there. -/
theorem Span.slice?_of_append {s : String} {inside : List Char} {span : Span}
    (h : s.toList = before ++ (inside ++ after)) (hstart : span.start = byteLength before)
    (hstop : span.stop = byteLength before + byteLength inside) :
    span.slice? s = some (String.ofList inside) := by
  have hlength : span.stop - span.start = byteLength inside := by omega
  unfold slice?
  rw [h, hlength, hstart, splitAtByte_of_append]
  simp only [splitAtByte_of_append]
  rw [if_pos]
  exact ⟨trivial, trivial, by omega⟩

end CreateTable.Text
