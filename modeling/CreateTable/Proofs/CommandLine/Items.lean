import CreateTable.CommandLine.Arguments
import Mathlib.Data.List.Basic

/-!
# Items of an argument list

Arguments in which every option is known and has a number where it needs one are a row of items: the
option for JSON, a limit with its number, or an operand. They are read one item after another, and
what is wrong with them can only be an operand behind a named file.

## Main definitions

- `Item` — one argument, or a flag with its value
- `written` — the arguments of a row of items
- `operands` — the operands among them
- `Options.add` — options with what one more item says

## Main statements

- `Arguments.parseFrom_arguments` — how one item is read
- `Arguments.parse_written` — how a row of items is read
- `Arguments.exists_items_of_parseFrom` — what is accepted is a row of items
-/

namespace CreateTable.CommandLine

-- ════════════════════════════════════════════════════════════════════════
-- Items
-- ════════════════════════════════════════════════════════════════════════

/-- A file, or `-`: all that begins with a minus and goes on is an option. -/
def IsOperand (argument : String) : Prop :=
  argument.toList.head? = some '-' → argument = "-"

instance (argument : String) : Decidable (IsOperand argument) :=
  inferInstanceAs (Decidable (_ → _))

namespace LimitFlag

variable {flag flag' : LimitFlag}

@[simp] theorem ofArgument?_spelling (flag : LimitFlag) :
    ofArgument? flag.spelling = some flag := by
  cases flag <;> rfl

theorem eq_spelling_of_ofArgument? {argument : String}
    (h : ofArgument? argument = some flag) : argument = flag.spelling := by
  have hbeq := List.find?_some h
  exact (beq_iff_eq.1 hbeq).symm

@[simp] theorem path_set (flag : LimitFlag) (n : Nat) (o : Options) :
    (flag.set n o).path = o.path := by
  cases flag <;> rfl

theorem not_isOperand_spelling (flag : LimitFlag) : ¬IsOperand flag.spelling := by
  cases flag <;> decide

theorem spelling_ne_json (flag : LimitFlag) : flag.spelling ≠ "--json" := by
  cases flag <;> decide

theorem spelling_inj (h : flag.spelling = flag'.spelling) : flag = flag' := by
  cases flag <;> cases flag' <;> first | rfl | exact absurd h (by decide)

end LimitFlag

/-- One argument, or a flag with its value. -/
inductive Item where
  | json
  | limit (flag : LimitFlag) (value : String) (valid : (number? value).isSome)
  | operand (argument : String) (plain : IsOperand argument)
  deriving DecidableEq

namespace Item

/-- How an item is written. -/
def arguments : Item → List String
  | json => ["--json"]
  | limit flag value _ => [flag.spelling, value]
  | operand argument _ => [argument]

/-- The operand that an item is. -/
def operand? : Item → Option String
  | operand argument _ => some argument
  | _ => none

end Item

/-- The arguments of a row of items. -/
def written (items : List Item) : List String := items.flatMap Item.arguments

/-- The operands in a row of items. -/
def operands (items : List Item) : List String := items.filterMap Item.operand?

/-- Options with what one more item says. -/
def Options.add (o : Options) : Item → Options
  | .json => { o with mode := .json }
  | .limit flag value valid => flag.set ((number? value).get valid) o
  | .operand argument _ => if argument = "-" then o else { o with path := some argument }

@[simp] theorem written_nil : written [] = [] := rfl

theorem written_cons (item : Item) (items : List Item) :
    written (item :: items) = item.arguments ++ written items := List.flatMap_cons

theorem operands_cons (item : Item) (items : List Item) :
    operands (item :: items) = item.operand?.toList ++ operands items := by
  cases item <;> rfl

theorem written_append (xs ys : List Item) : written (xs ++ ys) = written xs ++ written ys :=
  List.flatMap_append

/-- The first arguments of a row tell which item it begins with. -/
theorem arguments_append_inj {x y : Item} {xs ys : List String}
    (h : x.arguments ++ xs = y.arguments ++ ys) : x = y ∧ xs = ys := by
  have hjson : ¬IsOperand "--json" := by decide
  cases x with
  | json =>
    cases y with
    | json => exact ⟨rfl, (List.cons.inj h).2⟩
    | limit flag value valid => exact absurd (List.cons.inj h).1.symm flag.spelling_ne_json
    | operand argument plain => exact absurd ((List.cons.inj h).1 ▸ plain) hjson
  | limit flag value valid =>
    cases y with
    | json => exact absurd (List.cons.inj h).1 flag.spelling_ne_json
    | limit flag' value' valid' =>
      obtain ⟨hflag, htail⟩ := List.cons.inj h
      obtain rfl := LimitFlag.spelling_inj hflag
      obtain ⟨rfl, rfl⟩ := List.cons.inj htail
      exact ⟨rfl, rfl⟩
    | operand argument plain =>
      exact absurd ((List.cons.inj h).1 ▸ plain) flag.not_isOperand_spelling
  | operand argument plain =>
    cases y with
    | json => exact absurd ((List.cons.inj h).1 ▸ plain) hjson
    | limit flag value valid =>
      exact absurd ((List.cons.inj h).1 ▸ plain) flag.not_isOperand_spelling
    | operand argument' plain' =>
      obtain ⟨rfl, rfl⟩ := List.cons.inj h
      exact ⟨rfl, rfl⟩

/-- A row of items can be told from its arguments. -/
theorem written_injective : Function.Injective written := by
  intro xs ys h
  induction xs generalizing ys with
  | nil =>
    cases ys with
    | nil => rfl
    | cons y ys => cases y <;> cases h
  | cons x xs ih =>
    cases ys with
    | nil => cases x <;> cases h
    | cons y ys =>
      rw [written_cons, written_cons] at h
      obtain ⟨rfl, hrest⟩ := arguments_append_inj h
      rw [ih hrest]

-- ════════════════════════════════════════════════════════════════════════
-- Reading items
-- ════════════════════════════════════════════════════════════════════════

namespace Arguments

variable {o : Options} {argument : String} {rest : List String}

/-- An operand is none of the words that the program knows. -/
theorem parseFrom_operand (h : IsOperand argument) :
    parseFrom o (argument :: rest) =
      if o.path.isSome then .error .secondFile
      else if argument = "-" then parseFrom o rest
      else parseFrom { o with path := some argument } rest := by
  have hunknown : ∀ word : String, word.toList.head? = some '-' → word ≠ "-" → argument ≠ word := by
    rintro word hhead hword rfl
    exact hword (h hhead)
  have hflag : LimitFlag.ofArgument? argument = none := by
    refine Option.eq_none_iff_forall_ne_some.2 fun flag hflag => ?_
    refine hunknown _ ?_ ?_ (LimitFlag.eq_spelling_of_ofArgument? hflag) <;> cases flag <;> decide
  have hhelp : ¬(argument = "-h" ∨ argument = "--help") :=
    not_or.2 ⟨hunknown _ (by decide) (by decide), hunknown _ (by decide) (by decide)⟩
  have hjson : argument ≠ "--json" := hunknown _ (by decide) (by decide)
  have hplain : ¬(argument.toList.head? = some '-' ∧ argument ≠ "-") :=
    fun hbad => hbad.2 (h hbad.1)
  rw [parseFrom, if_neg hhelp, if_neg hjson]
  · exact if_neg hplain
  · exact hflag

/-- An item is read if it is no operand behind a named file. -/
theorem parseFrom_arguments (o : Options) (item : Item) (rest : List String) :
    parseFrom o (item.arguments ++ rest) =
      if item.operand?.isSome ∧ o.path.isSome then .error .secondFile
      else parseFrom (o.add item) rest := by
  cases item with
  | json => rfl
  | limit flag value valid =>
    obtain ⟨n, hn⟩ := Option.isSome_iff_exists.1 valid
    simp only [Item.arguments, Item.operand?, Options.add, hn, Option.get_some, List.cons_append,
      List.nil_append, Option.isSome_none, Bool.false_eq_true, false_and, if_false]
    rw [parseFrom.eq_3 o _ flag value rest (LimitFlag.ofArgument?_spelling flag), hn]
    cases flag <;> rfl
  | operand argument plain =>
    simp only [Item.arguments, Item.operand?, Options.add, List.cons_append, List.nil_append,
      Option.isSome_some, true_and, parseFrom_operand plain]
    split
    · rfl
    · split <;> rfl

/-- A row of items is read if of all operands only the last may name a file, and none stands behind
    a file that has been named before. -/
theorem parseFrom_written (o : Options) (items : List Item) :
    parseFrom o (written items) =
      if (o.path.isSome ∧ operands items ≠ []) ∨ ∃ a ∈ (operands items).dropLast, a ≠ "-" then
        .error .secondFile
      else .ok (.run (items.foldl Options.add o)) := by
  induction items generalizing o with
  | nil => simp [operands, parseFrom]
  | cons item items ih =>
    rw [written_cons, parseFrom_arguments, ih, List.foldl_cons, operands_cons]
    cases item with
    | json => rfl
    | limit flag value valid => cases flag <;> rfl
    | operand argument plain =>
      -- an operand behind this one is too many if this one names a file
      cases hpath : o.path <;> cases operands items <;> by_cases hstdin : argument = "-" <;>
        simp [Item.operand?, Options.add, hpath, hstdin]

/-- A row of items is a run with what all of them say, or names a second file. -/
theorem parse_written (items : List Item) :
    parse (written items) =
      if ∃ a ∈ (operands items).dropLast, a ≠ "-" then .error .secondFile
      else .ok (.run (items.foldl Options.add {})) := by
  simp [parse, parseFrom_written]

/-- What a row of items asks for is what all of them say. -/
theorem eq_foldl_add_of_parse {items : List Item} (h : parse (written items) = .ok (.run o)) :
    o = items.foldl Options.add {} := by
  rw [parse_written] at h
  split at h
  · cases h
  · exact (Request.run.inj (Except.ok.inj h)).symm

/-- What is accepted is a row of items. -/
theorem exists_items_of_parseFrom {arguments : List String} {o' : Options}
    (h : parseFrom o arguments = .ok (.run o')) : ∃ items, written items = arguments := by
  fun_induction parseFrom o arguments with
  | case1 => exact ⟨[], rfl⟩
  | case2 => cases h
  | case3 o rest _ ih =>
    obtain ⟨items, rfl⟩ := ih h
    exact ⟨.json :: items, rfl⟩
  | case4 => cases h
  | case5 o argument _ _ flag value rest hflag n hn ih =>
    obtain ⟨items, rfl⟩ := ih h
    obtain rfl := LimitFlag.eq_spelling_of_ofArgument? hflag
    exact ⟨.limit flag value (Option.isSome_of_eq_some hn) :: items, rfl⟩
  | case6 => cases h
  | case7 => cases h
  | case8 => cases h
  | case9 o rest _ _ _ _ _ ih =>
    obtain ⟨items, rfl⟩ := ih h
    exact ⟨.operand "-" (fun _ => rfl) :: items, rfl⟩
  | case10 o argument _ _ rest _ hplain _ _ ih =>
    obtain ⟨items, rfl⟩ := ih h
    exact ⟨.operand argument (fun hhead => not_not.1 fun hne => hplain ⟨hhead, hne⟩) :: items, rfl⟩

end Arguments

end CreateTable.CommandLine
