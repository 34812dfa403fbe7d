import CreateTable.Proofs.Lexical.Locality

/-!
# Trivia in other places

Blanks and closed comments are cut off a text whatever stands behind them.

## Main definitions

- `Trivia.Closed` — trivia that end by themselves
- `Trivia.Begins` — trivia stand at the front of a text

## Main statements

- `Trivia.split_of_closed` — closed trivia are cut off
- `Trivia.closed_of_split` — what is cut off before a token is closed
-/

namespace CreateTable.Lexical

variable {lead text rest rest' : List Char} {c : Char}

namespace Trivia

/-- Trivia that lead from a mode to where a token may stand, whatever follows them. -/
def Passes (mode : Mode) (lead : List Char) : Prop :=
  ∀ taken text, scan taken mode (lead ++ text) = scan (lead.reverse ++ taken) .between text

/-- Trivia that end by themselves: blanks, and comments that are closed. -/
def Closed (lead : List Char) : Prop := Passes .between lead

/-- Trivia stand at the front of a text. -/
def Begins (text : List Char) : Prop :=
  (∃ c ∈ text.head?, isBlank c) ∨ (∃ tail, text = '-' :: '-' :: tail) ∨
    ∃ tail, text = '/' :: '*' :: tail

theorem begins_cons_cons {d : Char} :
    Begins (c :: d :: text) ↔ isBlank c ∨ (c = '-' ∧ d = '-') ∨ (c = '/' ∧ d = '*') := by
  simp [Begins]

theorem begins_singleton : Begins [c] ↔ isBlank c := by
  simp [Begins]

theorem not_begins_nil : ¬Begins [] := by
  simp [Begins]

/-- Only blanks, a dash and a slash begin trivia. -/
theorem not_begins_cons (hblank : isBlank c = false) (hdash : c ≠ '-') (hslash : c ≠ '/')
    (text : List Char) : ¬Begins (c :: text) := by
  simp [Begins, hblank, hdash, hslash]

/-- Trivia begin with no letter or digit. -/
theorem not_begins_of_isWordPart (h : isWordPart c) (text : List Char) : ¬Begins (c :: text) := by
  refine not_begins_cons ?_ ?_ ?_ text
  · rw [Bool.eq_false_iff]
    intro hblank
    rw [isWordPart_of_isDelimiter (isDelimiter_of_isBlank hblank)] at h
    cases h
  all_goals
    rintro rfl
    exact absurd h (by decide)

theorem Closed.nil : Closed [] := fun _ _ => rfl

theorem Closed.append {more : List Char} (h : Closed lead) (h' : Closed more) :
    Closed (lead ++ more) := by
  intro taken text
  rw [List.append_assoc, h, h', List.reverse_append, List.append_assoc]

theorem Closed.space : Closed [' '] := by
  intro taken text
  rfl

theorem scan_of_not_begins (h : ¬Begins text) (taken : List Char) :
    scan taken .between text = (taken.reverse, text) := by
  cases text with
  | nil => rfl
  | cons c text =>
    have hline : ∀ tail, c = '-' → text = '-' :: tail → False := by
      rintro tail rfl rfl
      exact h (.inr (.inl ⟨tail, rfl⟩))
    have hblock : ∀ tail, c = '/' → text = '*' :: tail → False := by
      rintro tail rfl rfl
      exact h (.inr (.inr ⟨tail, rfl⟩))
    have hblank : ¬isBlank c := fun hc => h (.inl ⟨c, rfl, hc⟩)
    rw [scan.eq_3 _ _ _ hline hblock, if_neg hblank]

theorem passes_blank (hc : isBlank c) (h : Passes .between lead) :
    Passes .between (c :: lead) := by
  intro taken text
  have hline : ∀ tail, c = '-' → lead ++ text = '-' :: tail → False := by
    rintro tail rfl -
    exact absurd hc (by decide)
  have hblock : ∀ tail, c = '/' → lead ++ text = '*' :: tail → False := by
    rintro tail rfl -
    exact absurd hc (by decide)
  rw [List.cons_append, scan.eq_3 _ _ _ hline hblock, if_pos hc, h]
  simp

theorem passes_line_cons (hc : c ≠ '\n') (h : Passes .line lead) :
    Passes .line (c :: lead) := by
  intro taken text
  rw [List.cons_append, scan.eq_5 _ _ _ hc, h]
  simp

theorem passes_block_cons (hc : c = '*' → lead.head? ≠ some '/') (h : Passes .block lead) :
    Passes .block (c :: lead) := by
  intro taken text
  have hopen : ∀ tail, c = '*' → lead ++ text = '/' :: tail → False := by
    intro tail hstar htail
    -- what closes the block is in `lead`, so `lead` is not empty and the slash is part of it
    cases lead with
    | nil => exact absurd (h [] ['a']) (by decide)
    | cons d lead =>
      obtain ⟨rfl, -⟩ := List.cons.inj htail
      exact hc hstar rfl
  rw [List.cons_append, scan.eq_7 _ _ _ hopen, h]
  simp

/-- What is cut off before a text that is not over ends by itself. -/
private theorem passes_of_scan (taken : List Char) (mode : Mode) (text : List Char) :
    ∃ lead, (scan taken mode text).1 = taken.reverse ++ lead ∧
      text = lead ++ (scan taken mode text).2 ∧ ¬Begins (scan taken mode text).2 ∧
      ((scan taken mode text).2 ≠ [] → Passes mode lead) := by
  -- along the scan: a part that has been cut off ends by itself if what follows it does
  fun_induction scan taken mode text with
  | case1 taken rest ih =>
    obtain ⟨lead, hlead, hrest, hbegins, hpass⟩ := ih
    refine ⟨'-' :: '-' :: lead, by simpa using hlead, by simpa using hrest, hbegins, fun hne => ?_⟩
    intro taken text
    rw [List.cons_append, List.cons_append, scan.eq_1, hpass hne]
    simp
  | case2 taken rest ih =>
    obtain ⟨lead, hlead, hrest, hbegins, hpass⟩ := ih
    refine ⟨'/' :: '*' :: lead, by simpa using hlead, by simpa using hrest, hbegins, fun hne => ?_⟩
    intro taken text
    rw [List.cons_append, List.cons_append, scan.eq_2, hpass hne]
    simp
  | case3 taken c rest _ _ hc ih =>
    obtain ⟨lead, hlead, hrest, hbegins, hpass⟩ := ih
    exact ⟨c :: lead, by simpa using hlead, by simpa using hrest, hbegins,
      fun hne => passes_blank hc (hpass hne)⟩
  | case4 taken c rest hline hblock hc =>
    refine ⟨[], by simp, rfl, ?_, fun _ _ _ => rfl⟩
    rintro (⟨d, hd, hblank⟩ | ⟨tail, htail⟩ | ⟨tail, htail⟩)
    · obtain rfl := Option.some.inj hd
      exact hc hblank
    · obtain ⟨rfl, rfl⟩ := List.cons.inj htail
      exact hline tail rfl rfl
    · obtain ⟨rfl, rfl⟩ := List.cons.inj htail
      exact hblock tail rfl rfl
  | case5 taken rest ih =>
    obtain ⟨lead, hlead, hrest, hbegins, hpass⟩ := ih
    refine ⟨'\n' :: lead, by simpa using hlead, by simpa using hrest, hbegins, fun hne => ?_⟩
    intro taken text
    rw [List.cons_append, scan.eq_4, hpass hne]
    simp
  | case6 taken c rest hc ih =>
    obtain ⟨lead, hlead, hrest, hbegins, hpass⟩ := ih
    exact ⟨c :: lead, by simpa using hlead, by simpa using hrest, hbegins,
      fun hne => passes_line_cons hc (hpass hne)⟩
  | case7 taken rest ih =>
    obtain ⟨lead, hlead, hrest, hbegins, hpass⟩ := ih
    refine ⟨'*' :: '/' :: lead, by simpa using hlead, by simpa using hrest, hbegins, fun hne => ?_⟩
    intro taken text
    rw [List.cons_append, List.cons_append, scan.eq_6, hpass hne]
    simp
  | case8 taken c rest hc ih =>
    obtain ⟨lead, hlead, hrest, hbegins, hpass⟩ := ih
    refine ⟨c :: lead, by simpa using hlead, by simpa using hrest, hbegins, fun hne => ?_⟩
    refine passes_block_cons (fun hstar hhead => ?_) (hpass hne)
    obtain ⟨tail, rfl⟩ := List.head?_eq_some_iff.1 hhead
    exact hc _ hstar hrest
  | case9 taken mode => exact ⟨[], by simp, rfl, not_begins_nil, by simp⟩

/-- What is cut off before a text that is not over ends by itself, and no more trivia follow. -/
theorem closed_of_split (h : split text = (lead, rest)) (hne : rest ≠ []) :
    Closed lead ∧ ¬Begins rest := by
  obtain ⟨lead', hlead, -, hbegins, hpass⟩ := passes_of_scan [] .between text
  change (split text).1 = _ at hlead
  rw [h] at hlead
  change ¬Begins (split text).2 at hbegins
  change (split text).2 ≠ [] → Passes .between lead' at hpass
  rw [h] at hbegins hpass
  obtain rfl : lead = lead' := by simpa using hlead
  exact ⟨hpass hne, hbegins⟩

theorem not_begins_replace (h : ¬Begins (text ++ rest)) (hne : text ≠ [])
    (hrest : MayReplace rest rest') : ¬Begins (text ++ rest') := by
  match text, hne with
  | c :: d :: text, _ =>
    simp only [List.cons_append, begins_cons_cons] at h ⊢
    exact h
  | [c], _ =>
    have hblank : ¬isBlank c := fun hc => h (.inl ⟨c, rfl, hc⟩)
    cases rest' with
    | nil => simpa [begins_singleton] using hblank
    | cons d rest' =>
      rw [List.singleton_append, begins_cons_cons]
      obtain hsame | hdelimiter := hrest d rfl
      · obtain ⟨tail, rfl⟩ := List.head?_eq_some_iff.1 hsame
        rwa [List.singleton_append, begins_cons_cons] at h
      · have hmark := apply_isDelimiter (p := fun d => !decide (d = '-' ∨ d = '*')) hdelimiter
          (by decide)
        have ⟨hline, hblock⟩ : d ≠ '-' ∧ d ≠ '*' := by simpa using hmark
        simp [hblank, hline, hblock]

/-- Closed trivia before a text that begins with none are cut off it. -/
theorem split_of_closed (h : Closed lead) (ht : ¬Begins text) :
    split (lead ++ text) = (lead, text) := by
  rw [split, h, scan_of_not_begins ht]
  simp

/-- What has been taken stays before what is taken next. -/
private theorem scan_append_taken (taken : List Char) (mode : Mode) (text more : List Char) :
    scan (taken ++ more) mode text =
      (more.reverse ++ (scan taken mode text).1, (scan taken mode text).2) := by
  fun_induction scan taken mode text <;> simp_all [scan]

/-- Closed trivia are cut off together with those behind them. -/
theorem split_append_of_closed (h : Closed lead) (text : List Char) :
    split (lead ++ text) = (lead ++ (split text).1, (split text).2) := by
  have htaken := scan_append_taken [] .between text lead.reverse
  rw [List.nil_append, List.reverse_reverse] at htaken
  rw [split, h, List.append_nil, htaken, split]

end Trivia

end CreateTable.Lexical
