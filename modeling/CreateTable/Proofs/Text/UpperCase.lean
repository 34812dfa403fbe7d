import CreateTable.Text.Bytes

/-!
# Upper case

Texts in which every ASCII letter is upper-case. Only these letters have two cases, and nothing
that a text is read by tells the cases apart.

## Main definitions

- `Text.upper`, `Text.upperCase` — texts in upper case
- `Caseless` — characters that stand for themselves in either case

## Main statements

- `apply_toUpper` — what holds of the letters holds of all characters
- `toUpper_eq_iff` — a caseless character is the upper case of nothing else
-/

namespace CreateTable

namespace Text

/-- A text in upper case. -/
def upper (text : List Char) : List Char := text.map Char.toUpper

/-- A string in upper case. -/
def upperCase (s : String) : String := String.ofList (upper s.toList)

@[simp] theorem upper_nil : upper [] = [] := rfl

@[simp] theorem upper_cons (c : Char) (text : List Char) :
    upper (c :: text) = c.toUpper :: upper text := rfl

@[simp] theorem upper_append (a b : List Char) : upper (a ++ b) = upper a ++ upper b :=
  List.map_append

@[simp] theorem toList_upperCase (s : String) : (upperCase s).toList = upper s.toList :=
  String.toList_ofList

@[simp] theorem upperCase_ofList (text : List Char) :
    upperCase (String.ofList text) = String.ofList (upper text) := by
  rw [upperCase, String.toList_ofList]

end Text

namespace Lexical

open Text

/-- The letters that have another case. -/
def lowerLetters : List Char := "abcdefghijklmnopqrstuvwxyz".toList

/-- Whether something holds of every letter that has another case. -/
def OfLetters (P : Char → Prop) : Prop := ∀ c ∈ lowerLetters, P c

-- the letters are gone through one by one, and not all characters
instance (P : Char → Prop) [DecidablePred P] : Decidable (OfLetters P) := List.decidableBAll ..

theorem toUpper_eq_self_or_mem (c : Char) : c.toUpper = c ∨ c ∈ lowerLetters := by
  unfold Char.toUpper
  split
  · rename_i h
    refine .inr ?_
    obtain ⟨hlow, hhigh⟩ := h
    rw [UInt32.le_iff_toNat_le] at hlow hhigh
    change 97 ≤ c.toNat at hlow
    change c.toNat ≤ 122 at hhigh
    have hall : ∀ n : Fin 26, Char.ofNat (97 + n) ∈ lowerLetters := by decide
    have hmem := hall ⟨c.toNat - 97, by omega⟩
    rwa [Nat.add_sub_cancel' hlow, Char.ofNat_toNat] at hmem
  · exact .inl rfl

theorem toUpper_of_high {c : Char} (hc : 128 ≤ c.toNat) : c.toUpper = c := by
  refine (toUpper_eq_self_or_mem c).resolve_right fun hmem => ?_
  have hlow : OfLetters fun d => d.toNat < 128 := by decide
  have := hlow c hmem
  omega

/-- What has the same value at every letter in either case has it at every character. -/
theorem apply_toUpper {α : Type} (p : Char → α) (h : OfLetters fun c => p c.toUpper = p c)
    (c : Char) : p c.toUpper = p c := by
  obtain hc | hc := toUpper_eq_self_or_mem c
  · rw [hc]
  · exact h c hc

@[simp] theorem toUpper_toUpper (c : Char) : c.toUpper.toUpper = c.toUpper :=
  apply_toUpper Char.toUpper (by decide) c

@[simp] theorem utf8Size_toUpper (c : Char) : c.toUpper.utf8Size = c.utf8Size :=
  apply_toUpper Char.utf8Size (by decide) c

/-- A character that is no letter: no other character has it as its upper case. -/
def Caseless (c : Char) : Prop := OfLetters fun d => d ≠ c ∧ d.toUpper ≠ c

instance (c : Char) : Decidable (Caseless c) :=
  inferInstanceAs (Decidable (OfLetters fun d => d ≠ c ∧ d.toUpper ≠ c))

theorem toUpper_eq_iff {c k : Char} (hk : Caseless k) : c.toUpper = k ↔ c = k := by
  obtain hc | hc := toUpper_eq_self_or_mem c
  · rw [hc]
  · simp [hk c hc]

/-- A caseless character is its own upper case. -/
theorem Caseless.toUpper {k : Char} (hk : Caseless k) : k.toUpper = k := (toUpper_eq_iff hk).2 rfl

@[simp] theorem upper_upper (text : List Char) : upper (upper text) = upper text := by
  simp [upper, Function.comp_def]

/-- Upper case takes as many bytes. -/
@[simp] theorem byteLength_upper (text : List Char) : byteLength (upper text) = byteLength text := by
  induction text with
  | nil => rfl
  | cons c text ih => simp [ih]

end Lexical

end CreateTable
