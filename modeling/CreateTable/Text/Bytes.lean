/-!
# Lengths and cuts in UTF-8 bytes

Offsets into a statement count the bytes of its UTF-8 form, while the text itself is a list of
characters. This file relates the two.

## Main definitions

- `byteLength` — how many bytes a text takes
- `splitAtByte` — the longest initial part of at most a given number of bytes, and what follows

## Design notes

Both functions run in one pass with constant stack, so texts of a million characters are fine; the
equations below are the ones to reason with.
-/

namespace CreateTable.Text

/-- The number of bytes of a text in UTF-8. -/
def byteLength (text : List Char) : Nat :=
  text.foldl (fun n c => n + c.utf8Size) 0

private theorem foldl_utf8Size (text : List Char) (n : Nat) :
    text.foldl (fun n c => n + c.utf8Size) n = n + byteLength text := by
  induction text generalizing n with
  | nil => rfl
  | cons c rest ih =>
    simp only [byteLength, List.foldl_cons] at ih ⊢
    rw [ih, ih (0 + c.utf8Size)]
    omega

@[simp] theorem byteLength_nil : byteLength [] = 0 := rfl

@[simp] theorem byteLength_cons (c : Char) (rest : List Char) :
    byteLength (c :: rest) = c.utf8Size + byteLength rest := by
  simp only [byteLength, List.foldl_cons]
  rw [foldl_utf8Size rest (0 + c.utf8Size), byteLength]
  omega

@[simp] theorem byteLength_append (a b : List Char) :
    byteLength (a ++ b) = byteLength a + byteLength b := by
  induction a with
  | nil => simp
  | cons c rest ih => simp [ih]; omega

/-- Moves characters from `rest` to the reversed `taken` while their bytes fit into `room`. -/
private def takeBytes (taken : List Char) (room : Nat) : List Char → List Char × List Char
  | [] => (taken.reverse, [])
  | c :: rest =>
    if c.utf8Size ≤ room then takeBytes (c :: taken) (room - c.utf8Size) rest
    else (taken.reverse, c :: rest)

/-- Cuts a text behind the longest initial part of at most `room` bytes, so that no character is
    split. -/
def splitAtByte (room : Nat) (text : List Char) : List Char × List Char :=
  takeBytes [] room text

private theorem takeBytes_eq (text taken : List Char) (room : Nat) :
    takeBytes taken room text =
      (taken.reverse ++ (takeBytes [] room text).1, (takeBytes [] room text).2) := by
  induction text generalizing taken room with
  | nil => simp [takeBytes]
  | cons c rest ih =>
    simp only [takeBytes]
    split
    · rw [ih (c :: taken), ih [c]]
      simp
    · simp

@[simp] theorem splitAtByte_nil (room : Nat) : splitAtByte room [] = ([], []) := rfl

theorem splitAtByte_cons (room : Nat) (c : Char) (rest : List Char) :
    splitAtByte room (c :: rest) =
      if c.utf8Size ≤ room then
        (c :: (splitAtByte (room - c.utf8Size) rest).1, (splitAtByte (room - c.utf8Size) rest).2)
      else ([], c :: rest) := by
  simp only [splitAtByte, takeBytes]
  split
  · rw [takeBytes_eq]
    simp
  · simp

/-- A cut loses nothing. -/
theorem splitAtByte_append (room : Nat) (text : List Char) :
    (splitAtByte room text).1 ++ (splitAtByte room text).2 = text := by
  induction text generalizing room with
  | nil => rfl
  | cons c rest ih =>
    rw [splitAtByte_cons]
    split
    · simp [ih]
    · simp

/-- The first part of a cut fits into the room given for it. -/
theorem byteLength_splitAtByte_le (room : Nat) (text : List Char) :
    byteLength (splitAtByte room text).1 ≤ room := by
  induction text generalizing room with
  | nil => simp
  | cons c rest ih =>
    rw [splitAtByte_cons]
    split
    · have := ih (room - c.utf8Size)
      simp only [byteLength_cons]
      omega
    · simp

end CreateTable.Text
