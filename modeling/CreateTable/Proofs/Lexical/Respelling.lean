import CreateTable.Proofs.Lexical.Trivia
import CreateTable.Proofs.Parallel.Verdicts
import CreateTable.Proofs.Text.UpperCase
import Mathlib.Data.List.Find

/-!
# Other spellings of a text

The scanner looks at single characters. It tells neither the cases of a letter nor the characters
outside ASCII apart, so it reads alike what is spelled in another way: with letters in another
case, or with other characters outside ASCII, one or more for each one.

## Main definitions

- `Respelling` — characters for each character that the scanner cannot tell from it
- `respell` — a text spelled in another way
- `Lexeme.respell` — a lexeme spelled in another way

## Main statements

- `Respelling.apply_eq` — a class of characters is that of every character in the place of one
- `Trivia.split_respell` — the same trivia are cut off
- `Lexeme.read_respell` — the same lexeme is read
-/

namespace CreateTable.Lexical

open Text

-- ════════════════════════════════════════════════════════════════════════
-- Classes and marks
-- ════════════════════════════════════════════════════════════════════════

/-- Characters that may stand in the place of each character: for one of ASCII, the same letter in
    either case or the character itself, and for one outside ASCII, others outside ASCII. -/
structure Respelling (h : Char → List Char) : Prop where
  ascii : ∀ c, c.toNat < 128 → ∃ d, h c = [d] ∧ d.toUpper = c.toUpper
  other : ∀ c, 128 ≤ c.toNat → h c ≠ [] ∧ ∀ d ∈ h c, 128 ≤ d.toNat

/-- A class of characters that tells neither the cases of a letter nor the characters outside ASCII
    apart. -/
def Coarse (p : Char → Bool) : Prop :=
  (∀ c, p c.toUpper = p c) ∧ ∀ c d : Char, 128 ≤ c.toNat → 128 ≤ d.toNat → p c = p d

/-- A character of ASCII that is no letter. -/
def Mark (k : Char) : Prop := Caseless k ∧ k.toNat < 128

instance (k : Char) : Decidable (Mark k) := inferInstanceAs (Decidable (_ ∧ _))

/-- A text spelled in another way. -/
def respell (h : Char → List Char) (text : List Char) : List Char := text.flatMap h

/-- A string spelled in another way. -/
def respellString (h : Char → List Char) (s : String) : String :=
  String.ofList (respell h s.toList)

theorem coarse_of_high {p : Char → Bool} (v : Bool) (hp : OfLetters fun c => p c.toUpper = p c)
    (hhigh : ∀ c : Char, 128 ≤ c.toNat → p c = v) : Coarse p :=
  ⟨apply_toUpper p hp, fun c d hc hd => (hhigh c hc).trans (hhigh d hd).symm⟩

theorem ne_of_high {c k : Char} (hc : 128 ≤ c.toNat) (hk : k.toNat < 128) : c ≠ k := by
  rintro rfl
  omega

theorem coarse_isBlank : Coarse isBlank := by
  refine coarse_of_high false (by decide) fun c hc => ?_
  simp [isBlank, ne_of_high hc]

theorem isDigit_of_high {c : Char} (hc : 128 ≤ c.toNat) : c.isDigit = false := by
  rw [Bool.eq_false_iff, ne_eq, Char.isDigit_iff_toNat]
  simp only [Char.reduceToNat]
  omega

theorem coarse_isDigit : Coarse Char.isDigit :=
  coarse_of_high false (by decide) fun _ => isDigit_of_high

theorem isHexDigit_of_high {c : Char} (hc : 128 ≤ c.toNat) : isHexDigit c = false := by
  simp only [isHexDigit, Bool.or_eq_false_iff, Bool.and_eq_false_iff, decide_eq_false_iff_not,
    Char.le_def, UInt32.le_iff_toNat_le]
  refine ⟨⟨isDigit_of_high hc, .inr ?_⟩, .inr ?_⟩
  · change ¬c.toNat ≤ 102
    omega
  · change ¬c.toNat ≤ 70
    omega

theorem coarse_isHexDigit : Coarse isHexDigit :=
  coarse_of_high false (by decide) fun _ => isHexDigit_of_high

theorem coarse_isWordPart : Coarse isWordPart := by
  refine coarse_of_high true (by decide) fun c hc => ?_
  simp [isWordPart, isWordStart_iff.2 (.inr hc)]

/-- One of two characters of ASCII. -/
theorem coarse_either {a b : Char} (ha : a.toNat < 128) (hb : b.toNat < 128)
    (hcases : OfLetters fun c => decide (c.toUpper = a ∨ c.toUpper = b) = decide (c = a ∨ c = b)) :
    Coarse fun c => decide (c = a ∨ c = b) := by
  refine coarse_of_high false hcases fun c hc => ?_
  simp [ne_of_high hc ha, ne_of_high hc hb]

-- ════════════════════════════════════════════════════════════════════════
-- Texts
-- ════════════════════════════════════════════════════════════════════════

variable {h : Char → List Char} {p : Char → Bool} {c d k : Char} {text rest : List Char}

@[simp] theorem respell_nil : respell h [] = [] := rfl

@[simp] theorem respell_cons (c : Char) (text : List Char) :
    respell h (c :: text) = h c ++ respell h text := rfl

@[simp] theorem respell_append (a b : List Char) :
    respell h (a ++ b) = respell h a ++ respell h b := List.flatMap_append

namespace Respelling

variable (hh : Respelling h)

include hh

theorem ne_nil (c : Char) : h c ≠ [] := by
  by_cases hc : c.toNat < 128
  · obtain ⟨d, hd, -⟩ := hh.ascii c hc
    simp [hd]
  · exact (hh.other c (Nat.not_lt.1 hc)).1

/-- A class is that of every character in the place of one. -/
theorem apply_eq (hp : Coarse p) (hd : d ∈ h c) : p d = p c := by
  by_cases hc : c.toNat < 128
  · obtain ⟨e, he, hupper⟩ := hh.ascii c hc
    obtain rfl := List.mem_singleton.1 (he ▸ hd)
    rw [← hp.1 d, hupper, hp.1]
  · have hc := Nat.not_lt.1 hc
    exact hp.2 d c ((hh.other c hc).2 d hd) hc

private theorem either_iff (a b : Char) (ha : a.toNat < 128) (hb : b.toNat < 128)
    (hcases : OfLetters fun c => decide (c.toUpper = a ∨ c.toUpper = b) = decide (c = a ∨ c = b))
    (hd : d ∈ h c) : (d = a ∨ d = b) ↔ (c = a ∨ c = b) :=
  decide_eq_decide.1 (hh.apply_eq (coarse_either ha hb hcases) hd)

/-- The letter of an exponent, in either case. -/
theorem exponent_iff (hd : d ∈ h c) : (d = 'e' ∨ d = 'E') ↔ (c = 'e' ∨ c = 'E') :=
  hh.either_iff 'e' 'E' (by decide) (by decide) (by decide) hd

/-- A sign. -/
theorem sign_iff (hd : d ∈ h c) : (d = '+' ∨ d = '-') ↔ (c = '+' ∨ c = '-') :=
  hh.either_iff '+' '-' (by decide) (by decide) (by decide) hd

/-- The letter of a hexadecimal number or a blob, in either case. -/
theorem hexMark_iff (hd : d ∈ h c) : (d = 'x' ∨ d = 'X') ↔ (c = 'x' ∨ c = 'X') :=
  hh.either_iff 'x' 'X' (by decide) (by decide) (by decide) hd

/-- A mark stands for itself. -/
theorem mark (hk : Mark k) : h k = [k] := by
  obtain ⟨d, hd, hupper⟩ := hh.ascii k hk.2
  rw [hk.1.toUpper] at hupper
  rw [hd, (toUpper_eq_iff hk.1).1 hupper]

/-- A mark stands for nothing else. -/
theorem eq_of_mem (hk : Mark k) (hmem : k ∈ h c) : c = k := by
  by_cases hc : c.toNat < 128
  · obtain ⟨d, hd, hupper⟩ := hh.ascii c hc
    obtain rfl := List.mem_singleton.1 (hd ▸ hmem)
    rw [hk.1.toUpper] at hupper
    exact (toUpper_eq_iff hk.1).1 hupper.symm
  · have hhigh := (hh.other c (Nat.not_lt.1 hc)).2 k hmem
    have hlow := hk.2
    omega

/-- A text begins with a mark where it does in another spelling. -/
theorem eq_cons_iff (hk : Mark k) :
    respell h text = k :: rest ↔ ∃ tail, text = k :: tail ∧ respell h tail = rest := by
  cases text with
  | nil => simp
  | cons c text =>
    rw [respell_cons]
    constructor
    · intro heq
      obtain ⟨d, ds, hd⟩ := List.exists_cons_of_ne_nil (hh.ne_nil c)
      rw [hd, List.cons_append] at heq
      obtain ⟨rfl, htail⟩ := List.cons.inj heq
      obtain rfl := hh.eq_of_mem hk (hd ▸ List.mem_cons_self ..)
      obtain ⟨-, rfl⟩ := List.cons.inj (hd.symm.trans (hh.mark hk))
      exact ⟨text, rfl, htail⟩
    · rintro ⟨tail, htext, rfl⟩
      obtain ⟨rfl, rfl⟩ := List.cons.inj htext
      rw [hh.mark hk]
      rfl

/-- Marks stand for themselves. -/
theorem marks {op : List Char} (hop : ∀ k ∈ op, Mark k) : respell h op = op := by
  induction op with
  | nil => rfl
  | cons k op ih =>
    rw [List.forall_mem_cons] at hop
    rw [respell_cons, hh.mark hop.1, ih hop.2]
    rfl

/-- A text begins with marks where it does in another spelling. -/
theorem eq_append_iff {op : List Char} (hop : ∀ k ∈ op, Mark k) :
    respell h text = op ++ rest ↔ ∃ tail, text = op ++ tail ∧ respell h tail = rest := by
  induction op generalizing text with
  | nil => simp
  | cons k op ih =>
    rw [List.forall_mem_cons] at hop
    rw [List.cons_append, hh.eq_cons_iff hop.1]
    constructor
    · rintro ⟨tail, rfl, htail⟩
      obtain ⟨tail', rfl, hrest⟩ := (ih hop.2).1 htail
      exact ⟨tail', rfl, hrest⟩
    · rintro ⟨tail, rfl, hrest⟩
      exact ⟨op ++ tail, rfl, (ih hop.2).2 ⟨tail, rfl, hrest⟩⟩

theorem map_toUpper (hascii : ∀ c ∈ text, c.toNat < 128) :
    (respell h text).map Char.toUpper = text.map Char.toUpper := by
  induction text with
  | nil => rfl
  | cons c text ih =>
    rw [List.forall_mem_cons] at hascii
    obtain ⟨d, hd, hupper⟩ := hh.ascii c hascii.1
    rw [respell_cons, hd, List.map_append, ih hascii.2]
    simp [hupper]

theorem length_eq (hascii : ∀ c ∈ text, c.toNat < 128) :
    (respell h text).length = text.length := by
  have hmap := congrArg List.length (hh.map_toUpper hascii)
  rwa [List.length_map, List.length_map] at hmap

/-- Pairs of hexadecimal digits. -/
theorem isHexBlob_respell (text : List Char) :
    ((respell h text).all isHexDigit ∧ (respell h text).length % 2 = 0) ↔
      (text.all isHexDigit ∧ text.length % 2 = 0) := by
  have hall : (respell h text).all isHexDigit ↔ text.all isHexDigit := by
    rw [List.all_eq_true, List.all_eq_true]
    constructor
    · intro hdigits c hc
      obtain ⟨d, hd⟩ := List.exists_mem_of_ne_nil _ (hh.ne_nil c)
      rw [← hh.apply_eq coarse_isHexDigit hd]
      exact hdigits d (List.mem_flatMap.2 ⟨c, hc, hd⟩)
    · intro hdigits d hd
      obtain ⟨c, hc, hd⟩ := List.mem_flatMap.1 hd
      rw [hh.apply_eq coarse_isHexDigit hd]
      exact hdigits c hc
  rw [hall]
  refine and_congr_right fun hdigits => ?_
  rw [hh.length_eq]
  intro c hc
  by_contra hhigh
  have hdigit := List.all_eq_true.1 hdigits c hc
  rw [isHexDigit_of_high (Nat.not_lt.1 hhigh)] at hdigit
  cases hdigit

theorem head?_eq_some (hk : Mark k) : (respell h text).head? = some k ↔ text.head? = some k := by
  rw [List.head?_eq_some_iff, List.head?_eq_some_iff]
  constructor
  · rintro ⟨rest, hrest⟩
    obtain ⟨tail, htail, -⟩ := (hh.eq_cons_iff hk).1 hrest
    exact ⟨tail, htail⟩
  · rintro ⟨tail, htail⟩
    exact ⟨_, (hh.eq_cons_iff hk).2 ⟨tail, htail, rfl⟩⟩

theorem head?_any (hp : Coarse p) (text : List Char) :
    (respell h text).head?.any p = text.head?.any p := by
  cases text with
  | nil => rfl
  | cons c text =>
    obtain ⟨d, ds, hd⟩ := List.exists_cons_of_ne_nil (hh.ne_nil c)
    rw [respell_cons, hd]
    exact hh.apply_eq hp (hd ▸ List.mem_cons_self ..)

/-- The longest initial part of one class, and what follows it. -/
theorem takeWhile_dropWhile (hp : Coarse p) (text : List Char) :
    (respell h text).takeWhile p = respell h (text.takeWhile p) ∧
      (respell h text).dropWhile p = respell h (text.dropWhile p) := by
  induction text with
  | nil => exact ⟨rfl, rfl⟩
  | cons c text ih =>
    have hclass : ∀ d ∈ h c, p d = p c := fun d hd => hh.apply_eq hp hd
    rw [respell_cons, List.takeWhile_cons, List.dropWhile_cons]
    split
    · rename_i hc
      have hall : ∀ d ∈ h c, p d := fun d hd => (hclass d hd).trans hc
      rw [List.takeWhile_append_of_pos hall, List.dropWhile_append_of_pos hall, ih.1, ih.2]
      exact ⟨rfl, rfl⟩
    · rename_i hc
      obtain ⟨d, ds, hd⟩ := List.exists_cons_of_ne_nil (hh.ne_nil c)
      have hfirst : ¬p d := by rwa [hclass d (hd ▸ List.mem_cons_self ..)]
      rw [respell_cons, hd, List.cons_append, List.takeWhile_cons_of_neg hfirst,
        List.dropWhile_cons_of_neg hfirst]
      exact ⟨rfl, rfl⟩

end Respelling

-- ════════════════════════════════════════════════════════════════════════
-- Trivia
-- ════════════════════════════════════════════════════════════════════════

namespace Trivia

theorem begins_respell (hh : Respelling h) (text : List Char) :
    Begins (respell h text) ↔ Begins text := by
  have hblank : (∃ c ∈ (respell h text).head?, isBlank c) ↔ ∃ c ∈ text.head?, isBlank c := by
    have hany := hh.head?_any coarse_isBlank text
    rw [Bool.eq_iff_iff, Option.any_eq_true, Option.any_eq_true] at hany
    exact hany
  have hpair : ∀ {a b : Char}, Mark a → Mark b →
      ((∃ tail, respell h text = a :: b :: tail) ↔ ∃ tail, text = a :: b :: tail) := by
    intro a b ha hb
    constructor
    · rintro ⟨tail, heq⟩
      obtain ⟨tail₁, rfl, htail⟩ := (hh.eq_cons_iff ha).1 heq
      obtain ⟨tail₂, rfl, -⟩ := (hh.eq_cons_iff hb).1 htail
      exact ⟨tail₂, rfl⟩
    · rintro ⟨tail, rfl⟩
      rw [respell_cons, respell_cons, hh.mark ha, hh.mark hb]
      exact ⟨_, rfl⟩
  unfold Begins
  rw [hblank, hpair (by decide) (by decide), hpair (by decide) (by decide)]

/-- Characters that leave the mode as it is are passed over. -/
private theorem scan_run {mode : Mode} {ds : List Char}
    (hds : ∀ d ∈ ds, ∀ taken rest, scan taken mode (d :: rest) = scan (d :: taken) mode rest)
    (taken rest : List Char) : scan taken mode (ds ++ rest) = scan (ds.reverse ++ taken) mode rest := by
  induction ds generalizing taken with
  | nil => rfl
  | cons d ds ih =>
    rw [List.forall_mem_cons] at hds
    rw [List.cons_append, hds.1, ih hds.2]
    simp

private theorem scan_blank (hd : isBlank d) (taken rest : List Char) :
    scan taken .between (d :: rest) = scan (d :: taken) .between rest := by
  have hline : ∀ tail, d = '-' → rest = '-' :: tail → False := by
    rintro tail rfl -
    exact absurd hd (by decide)
  have hblock : ∀ tail, d = '/' → rest = '*' :: tail → False := by
    rintro tail rfl -
    exact absurd hd (by decide)
  rw [scan.eq_3 _ _ _ hline hblock, if_pos hd]

private theorem scan_line (hd : d ≠ '\n') (taken rest : List Char) :
    scan taken .line (d :: rest) = scan (d :: taken) .line rest :=
  scan.eq_5 _ _ _ hd

private theorem scan_block (hd : d ≠ '*') (taken rest : List Char) :
    scan taken .block (d :: rest) = scan (d :: taken) .block rest :=
  scan.eq_7 _ _ _ fun _ hstar => absurd hstar hd

/-- The trivia that have been taken, latest first, in another spelling. -/
private theorem reverse_respell_cons (c : Char) (taken : List Char) :
    (respell h (c :: taken).reverse).reverse =
      (h c).reverse ++ (respell h taken.reverse).reverse := by
  simp

private theorem scan_respell (hh : Respelling h) (taken : List Char) (mode : Mode)
    (text : List Char) :
    scan (respell h taken.reverse).reverse mode (respell h text) =
      (scan taken mode text).map (respell h) (respell h) := by
  have hdash : h '-' = ['-'] := hh.mark (by decide)
  have hslash : h '/' = ['/'] := hh.mark (by decide)
  have hstar : h '*' = ['*'] := hh.mark (by decide)
  have hfeed : h '\n' = ['\n'] := hh.mark (by decide)
  fun_induction scan taken mode text with
  | case1 taken rest ih =>
    rw [reverse_respell_cons, reverse_respell_cons, hdash] at ih
    rw [respell_cons, respell_cons, hdash]
    exact ih
  | case2 taken rest ih =>
    rw [reverse_respell_cons, reverse_respell_cons, hslash, hstar] at ih
    rw [respell_cons, respell_cons, hslash, hstar]
    exact ih
  | case3 taken c rest _ _ hblank ih =>
    have hrun : ∀ d ∈ h c, isBlank d := fun d hd => (hh.apply_eq coarse_isBlank hd).trans hblank
    rw [reverse_respell_cons] at ih
    rw [respell_cons, scan_run fun d hd => scan_blank (hrun d hd)]
    exact ih
  | case4 taken c rest hline hblock hblank =>
    have hbegins : ¬Begins (c :: rest) := by
      rintro (⟨d, hd, hd'⟩ | ⟨tail, htail⟩ | ⟨tail, htail⟩)
      · obtain rfl := Option.some.inj hd
        exact hblank hd'
      · obtain ⟨rfl, rfl⟩ := List.cons.inj htail
        exact hline tail rfl rfl
      · obtain ⟨rfl, rfl⟩ := List.cons.inj htail
        exact hblock tail rfl rfl
    rw [scan_of_not_begins ((begins_respell hh _).not.2 hbegins), List.reverse_reverse]
    rfl
  | case5 taken rest ih =>
    rw [reverse_respell_cons, hfeed] at ih
    rw [respell_cons, hfeed]
    exact ih
  | case6 taken c rest hne ih =>
    have hrun : ∀ d ∈ h c, d ≠ '\n' := by
      rintro d hd rfl
      exact hne (hh.eq_of_mem (by decide) hd)
    rw [reverse_respell_cons] at ih
    rw [respell_cons, scan_run fun d hd => scan_line (hrun d hd)]
    exact ih
  | case7 taken rest ih =>
    rw [reverse_respell_cons, reverse_respell_cons, hslash, hstar] at ih
    rw [respell_cons, respell_cons, hslash, hstar]
    exact ih
  | case8 taken c rest hclose ih =>
    rw [reverse_respell_cons] at ih
    rw [respell_cons]
    obtain rfl | hne := eq_or_ne c '*'
    · -- a star that does not close the comment
      have hopen : ∀ tail, '*' = '*' → respell h rest = '/' :: tail → False := by
        intro tail _ heq
        obtain ⟨tail', rfl, -⟩ := (hh.eq_cons_iff (by decide)).1 heq
        exact hclose tail' rfl rfl
      rw [hstar] at ih ⊢
      rw [List.singleton_append, scan.eq_7 _ _ _ hopen]
      exact ih
    · have hrun : ∀ d ∈ h c, d ≠ '*' := by
        rintro d hd rfl
        exact hne (hh.eq_of_mem (by decide) hd)
      rw [scan_run fun d hd => scan_block (hrun d hd)]
      exact ih
  | case9 taken mode => cases mode <;> simp [scan]

/-- The trivia before a text are those before it in another spelling. -/
theorem split_respell (hh : Respelling h) (text : List Char) :
    split (respell h text) = (split text).map (respell h) (respell h) :=
  scan_respell hh [] .between text

end Trivia

-- ════════════════════════════════════════════════════════════════════════
-- Quoted text
-- ════════════════════════════════════════════════════════════════════════

namespace Enclosed

/-- What stands before a closing mark, spelled in another way. -/
def respell (h : Char → List Char) (e : Enclosed) : Enclosed :=
  ⟨Lexical.respell h e.inner, Lexical.respell h e.value, Lexical.respell h e.rest⟩

variable {close : Char} {doubles : Bool}

private theorem scan_run {ds : List Char} (hds : ∀ d ∈ ds, d ≠ close)
    (inner value rest : List Char) :
    scan close doubles inner value (ds ++ rest) =
      scan close doubles (ds.reverse ++ inner) (ds.reverse ++ value) rest := by
  induction ds generalizing inner value with
  | nil => rfl
  | cons d ds ih =>
    rw [List.forall_mem_cons] at hds
    rw [List.cons_append, scan_cons hds.1, ih hds.2]
    simp

private theorem scan_respell (hh : Respelling h) (hclose : Mark close) (doubles : Bool)
    (inner value text : List Char) :
    scan close doubles (Lexical.respell h inner.reverse).reverse
        (Lexical.respell h value.reverse).reverse (Lexical.respell h text) =
      (scan close doubles inner value text).map (respell h) := by
  have hmark := hh.mark hclose
  fun_induction scan close doubles inner value text with
  | case1 => rfl
  | case2 inner value rest hdoubles ih =>
    obtain rfl : doubles = true := hdoubles
    rw [respell_cons, respell_cons, hmark, List.singleton_append, List.singleton_append, scan_twice]
    simpa [hmark] using ih
  | case3 inner value d rest _ hd =>
    rw [respell_cons, hmark, List.singleton_append, scan_close]
    · simp [respell]
    · rw [ne_eq, hh.head?_eq_some hclose]
      exact fun _ => by simpa using hd
  | case4 inner value rest hnone =>
    rw [respell_cons, hmark, List.singleton_append, scan_close]
    · simp [respell]
    · rw [ne_eq, hh.head?_eq_some hclose]
      intro hdoubles hhead
      obtain ⟨tail, rfl⟩ := List.head?_eq_some_iff.1 hhead
      exact hnone _ _ hdoubles rfl
  | case5 inner value c rest hc ih =>
    have hrun : ∀ d ∈ h c, d ≠ close := by
      rintro d hd rfl
      exact hc (hh.eq_of_mem hclose hd)
    rw [respell_cons, scan_run hrun]
    simpa using ih

theorem read?_respell (hh : Respelling h) (hclose : Mark close) (doubles : Bool)
    (text : List Char) :
    read? close doubles (Lexical.respell h text) = (read? close doubles text).map (respell h) :=
  scan_respell hh hclose doubles [] [] text

end Enclosed

-- ════════════════════════════════════════════════════════════════════════
-- Numbers
-- ════════════════════════════════════════════════════════════════════════

/-- A lexeme spelled in another way. -/
def Lexeme.respell (h : Char → List Char) (l : Lexeme) : Lexeme where
  lead := Lexical.respell h l.lead
  text := Lexical.respell h l.text
  outcome := l.outcome.map (.mapText (respellString h))
  rest := Lexical.respell h l.rest

namespace Number

/-- The mark of a hexadecimal number is one in either case. -/
theorem read_of_hexMark {m : Char} (hm : m = 'x' ∨ m = 'X') (rest : List Char) :
    read ('0' :: m :: rest) = hexadecimal ['0', m] rest := by
  obtain rfl | rfl := hm <;> rfl

theorem read_of_not_hexMark (hmark : ∀ m tail, text = '0' :: m :: tail → ¬(m = 'x' ∨ m = 'X')) :
    read text = decimal text :=
  read.eq_3 _ (fun tail heq => hmark _ tail heq (.inl rfl)) fun tail heq =>
    hmark _ tail heq (.inr rfl)

variable (hh : Respelling h)

include hh

theorem finish_respell (number rest : List Char) :
    finish (respell h number) (respell h rest) = (finish number rest).respell h := by
  obtain ⟨htake, hdrop⟩ := hh.takeWhile_dropWhile coarse_isWordPart rest
  unfold finish
  rw [htake, hdrop]
  generalize rest.takeWhile isWordPart = tail
  cases tail with
  | nil => rfl
  | cons c tail =>
    obtain ⟨d, ds, hd⟩ := List.exists_cons_of_ne_nil (hh.ne_nil c)
    simp [Lexeme.respell, Except.map, hd]

theorem fraction_respell (text : List Char) :
    fraction (respell h text) = (fraction text).map (respell h) (respell h) := by
  unfold fraction
  split
  · rename_i rest heq
    obtain ⟨tail, rfl, rfl⟩ := (hh.eq_cons_iff (by decide)).1 heq
    obtain ⟨htake, hdrop⟩ := hh.takeWhile_dropWhile coarse_isDigit tail
    simp [htake, hdrop, hh.mark (by decide : Mark '.')]
  · rename_i hpoint
    split
    · rw [respell_cons, hh.mark (by decide)] at hpoint
      exact absurd rfl (hpoint _)
    · rfl

theorem exponentMark_respell (text : List Char) :
    exponentMark (respell h text) = (exponentMark text).map (respell h) (respell h) := by
  cases text with
  | nil => rfl
  | cons e rest =>
    by_cases he : e = 'e' ∨ e = 'E'
    · have hascii : e.toNat < 128 := by obtain rfl | rfl := he <;> decide
      obtain ⟨d, hd, -⟩ := hh.ascii e hascii
      have hd' : d = 'e' ∨ d = 'E' := (hh.exponent_iff (hd ▸ List.mem_singleton_self d)).2 he
      rw [respell_cons, hd, List.singleton_append, exponentMark.eq_def, exponentMark.eq_def]
      simp only [if_pos hd', if_pos he]
      cases rest with
      | nil => simp [hd]
      | cons sign rest =>
        by_cases hsign : sign = '+' ∨ sign = '-'
        · have hmark : Mark sign := by obtain rfl | rfl := hsign <;> decide
          rw [respell_cons, hh.mark hmark, List.singleton_append]
          simp [hsign, hd, hh.mark hmark]
        · obtain ⟨s, ss, hs⟩ := List.exists_cons_of_ne_nil (hh.ne_nil sign)
          have hs' := (hh.sign_iff (hs ▸ List.mem_cons_self ..)).not.2 hsign
          rw [respell_cons, hs, List.cons_append]
          simp [hsign, hs', hd, hs]
    · obtain ⟨d, ds, hd⟩ := List.exists_cons_of_ne_nil (hh.ne_nil e)
      have hd' := (hh.exponent_iff (hd ▸ List.mem_cons_self ..)).not.2 he
      rw [respell_cons, hd, List.cons_append, exponentMark.eq_def, exponentMark.eq_def]
      simp [he, hd', hd]

theorem decimal_respell (text : List Char) :
    decimal (respell h text) = (decimal text).respell h := by
  obtain ⟨htake, hdrop⟩ := hh.takeWhile_dropWhile coarse_isDigit text
  unfold decimal
  rw [htake, hdrop, fraction_respell hh]
  generalize text.takeWhile Char.isDigit = whole
  obtain ⟨part, rest⟩ := fraction (text.dropWhile Char.isDigit)
  simp only [Prod.map_apply, exponentMark_respell hh]
  obtain ⟨mark, rest⟩ := exponentMark rest
  obtain ⟨htake, hdrop⟩ := hh.takeWhile_dropWhile coarse_isDigit rest
  simp only [Prod.map_apply, htake, hdrop]
  cases mark with
  | nil =>
    rw [← respell_append]
    exact finish_respell hh _ _
  | cons c mark =>
    have hne : (respell h (c :: mark)).isEmpty = false := by simp [hh.ne_nil c]
    rw [hne]
    simp only [List.isEmpty_cons, Bool.false_eq_true, if_false]
    generalize rest.takeWhile Char.isDigit = digits
    cases digits with
    | nil => simp [Lexeme.respell, Except.map]
    | cons d digits =>
      obtain ⟨e, es, he⟩ := List.exists_cons_of_ne_nil (hh.ne_nil d)
      have hfinish := finish_respell hh (whole ++ part ++ c :: mark ++ d :: digits)
        (rest.dropWhile Char.isDigit)
      simpa [he] using hfinish

theorem hexadecimal_respell (mark rest : List Char) :
    hexadecimal (respell h mark) (respell h rest) = (hexadecimal mark rest).respell h := by
  obtain ⟨htake, hdrop⟩ := hh.takeWhile_dropWhile coarse_isHexDigit rest
  unfold hexadecimal
  rw [htake, hdrop]
  generalize rest.takeWhile isHexDigit = digits
  cases digits with
  | nil => rfl
  | cons d digits =>
    obtain ⟨e, es, he⟩ := List.exists_cons_of_ne_nil (hh.ne_nil d)
    have hfinish := finish_respell hh (mark ++ d :: digits) (rest.dropWhile isHexDigit)
    simpa [he] using hfinish

theorem read_respell (text : List Char) : read (respell h text) = (read text).respell h := by
  have hzero : h '0' = ['0'] := hh.mark (by decide)
  by_cases hhex : ∃ m rest, text = '0' :: m :: rest ∧ (m = 'x' ∨ m = 'X')
  · obtain ⟨m, rest, rfl, hm⟩ := hhex
    have hascii : m.toNat < 128 := by obtain rfl | rfl := hm <;> decide
    obtain ⟨d, hd, -⟩ := hh.ascii m hascii
    have hd' : d = 'x' ∨ d = 'X' := (hh.hexMark_iff (hd ▸ List.mem_singleton_self d)).2 hm
    have hmark := hexadecimal_respell hh ['0', m] rest
    rw [respell_cons, respell_cons, hzero, hd, respell_nil] at hmark
    rw [respell_cons, respell_cons, hzero, hd, read_of_hexMark hm]
    exact (read_of_hexMark hd' _).trans hmark
  · push Not at hhex
    have hnone : ∀ d tail, respell h text = '0' :: d :: tail → ¬(d = 'x' ∨ d = 'X') := by
      intro d tail heq hd
      obtain ⟨rest, rfl, hrest⟩ := (hh.eq_cons_iff (by decide)).1 heq
      cases rest with
      | nil => cases hrest
      | cons m rest =>
        obtain ⟨e, es, he⟩ := List.exists_cons_of_ne_nil (hh.ne_nil m)
        rw [respell_cons, he] at hrest
        obtain ⟨rfl, -⟩ := List.cons.inj hrest
        have hm := (hh.hexMark_iff (he ▸ List.mem_cons_self ..)).1 hd
        obtain ⟨hlower, hupper⟩ := hhex m rest rfl
        exact hm.elim hlower hupper
    have hnone' : ∀ m tail, text = '0' :: m :: tail → ¬(m = 'x' ∨ m = 'X') := by
      rintro m tail heq hm
      obtain ⟨hlower, hupper⟩ := hhex m tail heq
      exact hm.elim hlower hupper
    rw [read_of_not_hexMark hnone, read_of_not_hexMark hnone', decimal_respell hh]

end Number

-- ════════════════════════════════════════════════════════════════════════
-- Lexemes
-- ════════════════════════════════════════════════════════════════════════

namespace Lexeme

variable (hh : Respelling h)

include hh

theorem quoted_respell (quote : Quote) (rest : List Char) :
    quoted quote (Lexical.respell h rest) = (quoted quote rest).respell h := by
  have hopening : h quote.opening = [quote.opening] := hh.mark (by cases quote <;> decide)
  have hclosing : Mark quote.closing := by cases quote <;> decide
  unfold quoted
  rw [Enclosed.read?_respell hh hclosing]
  cases Enclosed.read? quote.closing quote.doubles rest with
  | none => simp [respell, Except.map, hopening]
  | some e =>
    cases quote <;>
      simp [respell, Enclosed.respell, Except.map, TokenKind.mapText, respellString, hopening,
        hh.mark hclosing]

theorem blob_respell {letter d : Char} (hletter : h letter = [d]) (rest : List Char) :
    blob d (Lexical.respell h rest) = (blob letter rest).respell h := by
  have hopening : h Quote.single.opening = [Quote.single.opening] := hh.mark (by decide)
  have hclosing : Mark Quote.single.closing := by decide
  unfold blob
  rw [Enclosed.read?_respell hh hclosing]
  cases Enclosed.read? Quote.single.closing false rest with
  | none => simp [respell, Except.map, hopening, hletter]
  | some e =>
    simp only [Option.map_some, Enclosed.respell, hh.isHexBlob_respell]
    split <;>
      simp [respell, Except.map, TokenKind.mapText, hopening, hletter, hh.mark hclosing]

theorem ofWord?_respell (letters : List Char) :
    Keyword.ofWord? (Lexical.respell h letters) = Keyword.ofWord? letters := by
  have hspelling : ∀ k : Keyword, k.spelling.toList.all fun c => decide (c.toNat < 128) := by
    intro k
    cases k <;> decide
  unfold Keyword.ofWord?
  by_cases hascii : ∀ c ∈ letters, c.toNat < 128
  · simp only [hh.map_toUpper hascii]
  · -- a character outside ASCII is in no keyword, and neither are those in its place
    push Not at hascii
    obtain ⟨c, hc, hhigh⟩ := hascii
    have hnone : ∀ {word : List Char} {d : Char}, d ∈ word → 128 ≤ d.toNat →
        (Keyword.all.find? fun k => k.spelling == String.ofList (word.map Char.toUpper)) = none := by
      intro word d hd hhigh
      rw [List.find?_eq_none]
      intro k _ heq
      have hlist := congrArg String.toList (eq_of_beq heq)
      have hmem : d ∈ k.spelling.toList := by
        rw [hlist, String.toList_ofList, ← toUpper_of_high hhigh]
        exact List.mem_map_of_mem hd
      have hlow := of_decide_eq_true (List.all_eq_true.1 (hspelling k) d hmem)
      omega
    obtain ⟨hne, hall⟩ := hh.other c hhigh
    obtain ⟨d, hd⟩ := List.exists_mem_of_ne_nil _ hne
    have hmem : d ∈ Lexical.respell h letters := List.mem_flatMap.2 ⟨c, hc, hd⟩
    dsimp only
    rw [hnone hc hhigh, hnone hmem (hall d hd)]

theorem word_respell (text : List Char) :
    word (Lexical.respell h text) = (word text).respell h := by
  obtain ⟨htake, hdrop⟩ := hh.takeWhile_dropWhile coarse_isWordPart text
  unfold word
  dsimp only
  rw [htake, hdrop, ofWord?_respell hh]
  cases Keyword.ofWord? (text.takeWhile isWordPart) <;> rfl

theorem isPrefixOf_respell {op : List Char} (hop : ∀ k ∈ op, Mark k) (text : List Char) :
    op.isPrefixOf (Lexical.respell h text) = op.isPrefixOf text := by
  rw [Bool.eq_iff_iff, List.isPrefixOf_iff_prefix, List.isPrefixOf_iff_prefix]
  constructor
  · rintro ⟨tail, htail⟩
    obtain ⟨rest, rfl, -⟩ := (hh.eq_append_iff hop).1 htail.symm
    exact List.prefix_append _ _
  · rintro ⟨tail, rfl⟩
    rw [respell_append, hh.marks hop]
    exact List.prefix_append _ _

theorem operator_respell (hc : Mark c) (rest : List Char) :
    operator c (Lexical.respell h rest) = (operator c rest).respell h := by
  have hall : ∀ op ∈ operators, op.all fun k => decide (Mark k) := by decide
  have hmarks : ∀ op ∈ operators, ∀ k ∈ op, Mark k := fun op hop k hk =>
    of_decide_eq_true (List.all_eq_true.1 (hall op hop) k hk)
  have htext : c :: Lexical.respell h rest = Lexical.respell h (c :: rest) := by
    rw [respell_cons, hh.mark hc]
    rfl
  have hfind : operators.find? (·.isPrefixOf (Lexical.respell h (c :: rest))) =
      operators.find? (·.isPrefixOf (c :: rest)) :=
    List.find?_congr fun op hop => isPrefixOf_respell hh (hmarks op hop) (c :: rest)
  unfold operator
  rw [htext, hfind]
  split
  · rename_i op hfound
    have hop := hh.marks (hmarks op (List.mem_of_find?_eq_some hfound))
    have hstarts : op.isPrefixOf (c :: rest) = true := by simpa using List.find?_some hfound
    obtain ⟨tail, htail⟩ := List.isPrefixOf_iff_prefix.1 hstarts
    rw [← htail, respell_append, hop, List.drop_left, List.drop_left]
    simp [respell, Except.map, TokenKind.mapText, hop]
  · simp [respell, Except.map, hh.mark hc]

/-- A character with which only a blob or a word begins. -/
private def BeginsWord (c : Char) : Prop :=
  Quote.ofOpening? c = none ∧ c.isDigit = false ∧ c ≠ '.' ∧ isWordStart c = true

private instance (c : Char) : Decidable (BeginsWord c) := inferInstanceAs (Decidable (_ ∧ _))

omit hh in
/-- A letter, or a character outside ASCII, begins a blob or a word. -/
private theorem beginsWord_of_not_mark (hc : ¬Mark c) : BeginsWord c := by
  by_cases hhigh : 128 ≤ c.toNat
  · refine ⟨?_, isDigit_of_high hhigh, ne_of_high hhigh (by decide),
      isWordStart_iff.2 (.inr hhigh)⟩
    refine List.find?_eq_none.2 fun q _ heq => ne_of_high (k := q.opening) hhigh ?_ ?_
    · cases q <;> decide
    · exact (eq_of_beq heq).symm
  · have hletter : ¬Caseless c := fun hcaseless => hc ⟨hcaseless, Nat.not_le.1 hhigh⟩
    have hall : OfLetters fun d => BeginsWord d ∧ BeginsWord d.toUpper := by decide
    simp only [Caseless, OfLetters, not_forall, not_and_or, not_not] at hletter
    obtain ⟨d, hd, rfl | rfl⟩ := hletter
    · exact (hall d hd).1
    · exact (hall d hd).2

omit hh in
private theorem first_of_not_mark (hc : ¬Mark c) (rest : List Char) :
    first (c :: rest) =
      if (c = 'x' ∨ c = 'X') ∧ rest.head? = some Quote.single.opening then blob c rest.tail
      else word (c :: rest) := by
  obtain ⟨hquote, hdigit, hpoint, hword⟩ := beginsWord_of_not_mark hc
  unfold first
  simp [hquote, hdigit, hpoint, hword]

omit hh in
/-- A mark begins no blob, and what it begins is decided by single characters. -/
private theorem first_of_mark (hc : Mark c) (rest : List Char) :
    first (c :: rest) =
      match Quote.ofOpening? c with
      | some quote => quoted quote rest
      | none =>
        if c.isDigit ∨ (c = '.' ∧ rest.head?.any Char.isDigit) then Number.read (c :: rest)
        else if isWordStart c then word (c :: rest)
        else
          match punctuation? c with
          | some kind => ⟨[], [c], .ok kind, rest⟩
          | none => operator c rest := by
  have hblob : ¬((c = 'x' ∨ c = 'X') ∧ rest.head? = some Quote.single.opening) := by
    rintro ⟨rfl | rfl, -⟩ <;> exact absurd hc (by decide)
  unfold first
  dsimp only
  cases Quote.ofOpening? c with
  | some quote => rfl
  | none => exact if_neg hblob

theorem first_respell (text : List Char) :
    first (Lexical.respell h text) = (first text).respell h := by
  cases text with
  | nil => rfl
  | cons c rest =>
    by_cases hc : Mark c
    · have htext : Lexical.respell h (c :: rest) = c :: Lexical.respell h rest := by
        rw [respell_cons, hh.mark hc]
        rfl
      rw [htext, first_of_mark hc, first_of_mark hc, hh.head?_any coarse_isDigit]
      split
      · exact quoted_respell hh _ _
      · split
        · rw [← htext, Number.read_respell hh]
        · split
          · rw [← htext, word_respell hh]
          · split
            · rename_i kind hkind
              have hplain : kind.mapText (respellString h) = kind := by
                unfold punctuation? at hkind
                split at hkind <;> cases hkind <;> rfl
              simp [respell, Except.map, hh.mark hc, hplain]
            · exact operator_respell hh hc rest
    · obtain ⟨d, ds, hd⟩ := List.exists_cons_of_ne_nil (hh.ne_nil c)
      have hmem : d ∈ h c := hd ▸ List.mem_cons_self ..
      have hd' : ¬Mark d := fun hmark => hc (hh.eq_of_mem hmark hmem ▸ hmark)
      rw [first_of_not_mark hc]
      split
      · rename_i hblob
        obtain ⟨hx, hquote⟩ := hblob
        have hascii : c.toNat < 128 := by obtain rfl | rfl := hx <;> decide
        obtain ⟨e, he, -⟩ := hh.ascii c hascii
        obtain ⟨rfl, rfl⟩ := List.cons.inj (hd.symm.trans he)
        obtain ⟨tail, rfl⟩ := List.head?_eq_some_iff.1 hquote
        have hopening : h Quote.single.opening = [Quote.single.opening] := hh.mark (by decide)
        rw [respell_cons, respell_cons, hd, hopening, List.singleton_append, List.singleton_append,
          first_of_not_mark hd', if_pos ⟨(hh.hexMark_iff hmem).2 hx, rfl⟩]
        exact blob_respell hh hd tail
      · rename_i hblob
        have hblob' : ¬((d = 'x' ∨ d = 'X') ∧
            (ds ++ Lexical.respell h rest).head? = some Quote.single.opening) := by
          rintro ⟨hx, hquote⟩
          have hx' := (hh.hexMark_iff hmem).1 hx
          have hascii : c.toNat < 128 := by obtain rfl | rfl := hx' <;> decide
          obtain ⟨e, he, -⟩ := hh.ascii c hascii
          obtain ⟨rfl, rfl⟩ := List.cons.inj (hd.symm.trans he)
          exact hblob ⟨hx', (hh.head?_eq_some (by decide)).1 hquote⟩
        have hword := word_respell hh (c :: rest)
        rw [respell_cons, hd] at hword ⊢
        rw [List.cons_append] at hword ⊢
        rw [first_of_not_mark hd', if_neg hblob', hword]

/-- The lexeme of a text in another spelling is the lexeme of the text, in that spelling. -/
theorem read_respell (text : List Char) :
    read (Lexical.respell h text) = (read text).respell h := by
  unfold read
  rw [Trivia.split_respell hh]
  simp only [Prod.map_fst, Prod.map_snd, first_respell hh]
  simp [respell]

end Lexeme

end CreateTable.Lexical
