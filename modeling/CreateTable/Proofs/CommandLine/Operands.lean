import CreateTable.Proofs.CommandLine.Items

/-!
# Operands

One file may be named. A `-` names none, so any number of them may stand before the file, and none
behind it.

## Main definitions

- `Arguments.Accepts` — the arguments ask for a run

## Main statements

- `Arguments.accepts_written_iff` — which operands are accepted, and what they name
- `Arguments.accepts_stdin_before_file` — the order of operands matters
-/

namespace CreateTable.CommandLine

/-- The last operand that names a file is the path. -/
theorem path_foldl_add (items : List Item) (o : Options) :
    (items.foldl Options.add o).path = ((operands items).filter (· ≠ "-")).getLast?.or o.path := by
  induction items generalizing o with
  | nil => simp [operands]
  | cons item items ih =>
    rw [List.foldl_cons, ih, operands_cons]
    cases item with
    | json => rfl
    | limit flag value valid => simp [Options.add, Item.operand?]
    | operand argument plain =>
      by_cases hstdin : argument = "-"
      · simp [Options.add, Item.operand?, hstdin]
      · simp [Options.add, Item.operand?, hstdin, List.getLast?_cons]

/-- Where all operands but the last are `-`, it is the last one that may name a file. -/
theorem getLast?_filter_of_dropLast {operands : List String} (argument : String)
    (h : ∀ a ∈ operands.dropLast, a = "-") :
    (operands.filter (· ≠ "-")).getLast? = some argument ↔
      operands.getLast? = some argument ∧ argument ≠ "-" := by
  obtain rfl | ⟨front, last, rfl⟩ := operands.eq_nil_or_concat
  · simp
  · rw [List.concat_eq_append] at h ⊢
    rw [List.dropLast_concat] at h
    have hfront : front.filter (· ≠ "-") = [] := List.filter_eq_nil_iff.2 (by simpa using h)
    rw [List.filter_append, hfront, List.nil_append, List.getLast?_concat, Option.some_inj]
    by_cases hstdin : last = "-"
    · simpa [hstdin] using fun heq => heq.symm
    · simpa [hstdin] using fun heq => heq ▸ hstdin

namespace Arguments

/-- The arguments ask for a run. -/
def Accepts (arguments : List String) : Prop := ∃ o, parse arguments = .ok (.run o)

/-- Where options are as they should be, arguments are accepted if and only if every operand but the
    last is `-`. What is read is then the last one, and otherwise a second file is the error. If
    there is no `-`, no more than one operand is accepted. -/
theorem accepts_written_iff (items : List Item) :
    (Accepts (written items) ↔ ∀ a ∈ (operands items).dropLast, a = "-") ∧
      (∀ o argument, parse (written items) = .ok (.run o) →
        (o.path = some argument ↔ (operands items).getLast? = some argument ∧ argument ≠ "-")) ∧
      (¬Accepts (written items) → parse (written items) = .error .secondFile) ∧
      ("-" ∉ operands items → (Accepts (written items) ↔ (operands items).length ≤ 1)) := by
  have haccepts : Accepts (written items) ↔ ∀ a ∈ (operands items).dropLast, a = "-" := by
    rw [Accepts, parse_written]
    split
    · simpa
    · rename_i hnone
      simpa using hnone
  refine ⟨haccepts, ?_, ?_, ?_⟩
  · intro o argument ho
    have hlast := haccepts.1 ⟨o, ho⟩
    obtain rfl := eq_foldl_add_of_parse ho
    rw [path_foldl_add, Option.or_none]
    exact getLast?_filter_of_dropLast argument hlast
  · intro hrefused
    rw [parse_written, if_pos (by simpa [haccepts] using hrefused)]
  · intro hfiles
    have hfront : (∀ a ∈ (operands items).dropLast, a = "-") ↔ (operands items).dropLast = [] := by
      -- an operand before the last one would have to be `-`
      refine ⟨fun h => List.eq_nil_iff_forall_not_mem.2 fun a ha => ?_, fun h => by simp [h]⟩
      exact hfiles (h a ha ▸ List.dropLast_subset _ ha)
    rw [haccepts, hfront, ← List.length_eq_zero_iff, List.length_dropLast]
    omega

/-- A `-` and a file are accepted in one order, and refused in the other. -/
theorem accepts_stdin_before_file :
    ∃ items, written items = ["-", "schema.sql"] ∧ operands items = ["-", "schema.sql"] ∧
      parse (written items) = .ok (.run { path := some "schema.sql" }) ∧
      parse (written items.reverse) = .error .secondFile :=
  ⟨[.operand "-" (by decide), .operand "schema.sql" (by decide)], rfl, rfl, rfl, rfl⟩

end Arguments

end CreateTable.CommandLine
