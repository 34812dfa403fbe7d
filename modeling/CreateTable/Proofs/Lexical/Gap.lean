import CreateTable.Proofs.Lexical.Trivia

/-!
# Gaps

What may stand between two tokens, and behind the last one, said without the scan that passes over
it.

## Main definitions

- `Trivia.Gap` — blanks and comments, of which only the last one of a text may be left open

## Main statements

- `Trivia.gap_of_split` — what is cut off the front of a text is a gap
- `Trivia.Gap.closed` — a gap that is not the last one is cut off the front of any text
-/

namespace CreateTable.Lexical.Trivia

/-- The mark that closes a comment. -/
abbrev blockClose : List Char := ['*', '/']

/-- `{blank | '--' … newline | '/*' … '*/'}`, where a comment ends at the first newline or the first
    `*/`. At the end of a text (`last`), a comment that nothing ends may follow. -/
inductive Gap (last : Bool) : List Char → Prop
  | nil : Gap last []
  | blank {c : Char} {rest : List Char} : isBlank c → Gap last rest → Gap last (c :: rest)
  | line {body rest : List Char} :
    '\n' ∉ body → Gap last rest → Gap last ('-' :: '-' :: body ++ '\n' :: rest)
  | block {body rest : List Char} :
    ¬blockClose <:+: body → Gap last rest → Gap last ('/' :: '*' :: body ++ blockClose ++ rest)
  | openLine {body : List Char} : last → '\n' ∉ body → Gap last ('-' :: '-' :: body)
  | openBlock {body : List Char} : last → ¬blockClose <:+: body → Gap last ('/' :: '*' :: body)

variable {last : Bool} {c : Char} {text body rest lead : List Char}

/-- The rest of a gap behind the characters of a mode. -/
def GapFrom (last : Bool) : Mode → List Char → Prop
  | .between, text => Gap last text
  | .line, text =>
    (∃ body rest, text = body ++ '\n' :: rest ∧ '\n' ∉ body ∧ Gap last rest) ∨
    last ∧ '\n' ∉ text
  | .block, text =>
    (∃ body rest, text = body ++ blockClose ++ rest ∧ ¬blockClose <:+: body ∧ Gap last rest) ∨
    last ∧ ¬blockClose <:+: text

theorem GapFrom.openLine (h : GapFrom last .line text) : Gap last ('-' :: '-' :: text) := by
  obtain ⟨body, rest, rfl, hbody, hrest⟩ | ⟨hlast, htext⟩ := h
  · exact .line hbody hrest
  · exact .openLine hlast htext

theorem GapFrom.openBlock (h : GapFrom last .block text) : Gap last ('/' :: '*' :: text) := by
  obtain ⟨body, rest, rfl, hbody, hrest⟩ | ⟨hlast, htext⟩ := h
  · exact .block hbody hrest
  · exact .openBlock hlast htext

theorem GapFrom.line_cons (hc : c ≠ '\n') (h : GapFrom last .line text) :
    GapFrom last .line (c :: text) := by
  obtain ⟨body, rest, rfl, hbody, hrest⟩ | ⟨hlast, htext⟩ := h
  · exact .inl ⟨c :: body, rest, rfl, by simp [hbody, hc.symm], hrest⟩
  · exact .inr ⟨hlast, by simp [htext, hc.symm]⟩

/-- A character before a text adds a closing mark only where it is the star of one. -/
theorem not_infix_cons (hc : c = '*' → body.head? ≠ some '/') (h : ¬blockClose <:+: body) :
    ¬blockClose <:+: c :: body := by
  rw [List.infix_cons_iff, List.cons_prefix_cons]
  rintro (⟨rfl, htail⟩ | htail)
  · refine hc rfl ?_
    obtain ⟨tail, rfl⟩ := htail
    rfl
  · exact h htail

theorem GapFrom.block_cons (hc : c = '*' → text.head? ≠ some '/') (h : GapFrom last .block text) :
    GapFrom last .block (c :: text) := by
  obtain ⟨body, rest, rfl, hbody, hrest⟩ | ⟨hlast, htext⟩ := h
  · refine .inl ⟨c :: body, rest, rfl, not_infix_cons (fun hstar => ?_) hbody, hrest⟩
    cases body with
    | nil => simp
    | cons d body => exact hc hstar
  · exact .inr ⟨hlast, not_infix_cons hc htext⟩

/-- Along a scan, what has been passed over goes on as a gap, which is the last one if nothing
    is left of the text. -/
private theorem gapFrom_of_scan (taken : List Char) (mode : Mode) (text : List Char) :
    ∃ lead, (scan taken mode text).1 = taken.reverse ++ lead ∧
      text = lead ++ (scan taken mode text).2 ∧
      GapFrom (scan taken mode text).2.isEmpty mode lead := by
  fun_induction scan taken mode text with
  | case1 taken rest ih =>
    obtain ⟨lead, hlead, hrest, hgap⟩ := ih
    exact ⟨'-' :: '-' :: lead, by simpa using hlead, by simpa using hrest, hgap.openLine⟩
  | case2 taken rest ih =>
    obtain ⟨lead, hlead, hrest, hgap⟩ := ih
    exact ⟨'/' :: '*' :: lead, by simpa using hlead, by simpa using hrest, hgap.openBlock⟩
  | case3 taken c rest _ _ hc ih =>
    obtain ⟨lead, hlead, hrest, hgap⟩ := ih
    exact ⟨c :: lead, by simpa using hlead, by simpa using hrest, .blank hc hgap⟩
  | case4 taken c rest => exact ⟨[], by simp, rfl, .nil⟩
  | case5 taken rest ih =>
    obtain ⟨lead, hlead, hrest, hgap⟩ := ih
    exact ⟨'\n' :: lead, by simpa using hlead, by simpa using hrest,
      .inl ⟨[], lead, rfl, by simp, hgap⟩⟩
  | case6 taken c rest hc ih =>
    obtain ⟨lead, hlead, hrest, hgap⟩ := ih
    exact ⟨c :: lead, by simpa using hlead, by simpa using hrest, hgap.line_cons hc⟩
  | case7 taken rest ih =>
    obtain ⟨lead, hlead, hrest, hgap⟩ := ih
    exact ⟨'*' :: '/' :: lead, by simpa using hlead, by simpa using hrest,
      .inl ⟨[], lead, rfl, by simp, hgap⟩⟩
  | case8 taken c rest hc ih =>
    obtain ⟨lead, hlead, hrest, hgap⟩ := ih
    refine ⟨c :: lead, by simpa using hlead, by simpa using hrest, ?_⟩
    refine hgap.block_cons fun hstar hhead => ?_
    obtain ⟨tail, rfl⟩ := List.head?_eq_some_iff.1 hhead
    exact hc _ hstar hrest
  | case9 taken mode =>
    refine ⟨[], by simp, rfl, ?_⟩
    cases mode with
    | between => exact .nil
    | line => exact .inr ⟨rfl, by simp⟩
    | block => exact .inr ⟨rfl, by simp⟩

/-- What is cut off the front of a text is a gap, which is the last one if nothing is left. -/
theorem gap_of_split (h : split text = (lead, rest)) : Gap rest.isEmpty lead := by
  obtain ⟨lead', hlead, -, hgap⟩ := gapFrom_of_scan [] .between text
  change (split text).1 = _ at hlead
  change Gap (split text).2.isEmpty lead' at hgap
  rw [h] at hlead hgap
  obtain rfl : lead = lead' := by simpa using hlead
  exact hgap

-- ════════════════════════════════════════════════════════════════════════
-- Gaps before other texts
-- ════════════════════════════════════════════════════════════════════════

/-- A comment up to its newline leads to where a token may stand. -/
theorem passes_line (hbody : '\n' ∉ body) (h : Passes .between rest) :
    Passes .line (body ++ '\n' :: rest) := by
  induction body with
  | nil =>
    intro taken text
    rw [List.nil_append, List.cons_append, scan.eq_4, h]
    simp
  | cons c body ih =>
    rw [List.mem_cons, not_or] at hbody
    exact passes_line_cons (Ne.symm hbody.1) (ih hbody.2)

/-- A comment up to the first mark that closes it leads to where a token may stand. -/
theorem passes_block (hbody : ¬blockClose <:+: body) (h : Passes .between rest) :
    Passes .block (body ++ blockClose ++ rest) := by
  induction body with
  | nil =>
    intro taken text
    change scan taken .block ('*' :: '/' :: (rest ++ text)) = _
    rw [scan.eq_6, h]
    simp
  | cons c body ih =>
    have hbody' : ¬blockClose <:+: body := fun hinfix => hbody (List.infix_cons hinfix)
    refine passes_block_cons (fun hstar hhead => ?_) (ih hbody')
    -- a slash behind the star would close the comment earlier
    cases body with
    | nil => cases hhead
    | cons d body =>
      obtain rfl : d = '/' := Option.some.inj hhead
      exact hbody (hstar ▸ List.IsPrefix.isInfix ⟨body, rfl⟩)

/-- A gap that is not the last one is cut off the front of any text. -/
theorem Gap.closed (h : Gap false text) : Closed text := by
  induction h with
  | nil => exact .nil
  | blank hc _ ih => exact passes_blank hc ih
  | @line body rest hbody _ ih =>
    intro taken text
    change scan taken .between ('-' :: '-' :: ((body ++ '\n' :: rest) ++ text)) = _
    rw [scan.eq_1, passes_line hbody ih]
    simp
  | @block body rest hbody _ ih =>
    intro taken text
    change scan taken .between ('/' :: '*' :: ((body ++ blockClose ++ rest) ++ text)) = _
    rw [scan.eq_2, passes_block hbody ih]
    simp
  | openLine hlast => cases hlast
  | openBlock hlast => cases hlast

end CreateTable.Lexical.Trivia
