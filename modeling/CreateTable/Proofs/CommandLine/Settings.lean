import CreateTable.Proofs.CommandLine.Items
import Mathlib.Data.List.Induction

/-!
# Settings

What accepted arguments set. Items of different kinds set different things, and of those of one kind
the last one counts, so the order of items matters only among those of one kind.

## Main definitions

- `LimitFlag.get` — the limit that a flag sets
- `LimitFlag.Gives` — the number behind the last occurrence of a flag, or the usual limit
- `Item.kind` — what an item sets
- `Rearranged` — items in an order in which those of one kind stand as before

## Main statements

- `Item.mem_arguments_iff` — an option is written where its item is, and nowhere else
- `Rearranged.foldl_add_eq` — rearranged items say the same
- `Arguments.settings_of_parse` — what accepted arguments set, and in which orders they may stand
-/

namespace CreateTable.CommandLine

variable {items others : List Item} {arguments : List String} {o : Options}

-- ════════════════════════════════════════════════════════════════════════
-- Where options are written
-- ════════════════════════════════════════════════════════════════════════

/-- A number does not begin with a minus. -/
theorem number?_eq_none {value : String} (h : value.toList.head? = some '-') :
    number? value = none := by
  obtain ⟨digits, hvalue⟩ : ∃ digits, value.toList = '-' :: digits := by
    simpa [List.head?_eq_some_iff] using h
  simp [number?, hvalue]

/-- No option is a number. -/
theorem ne_of_valid {word value : String} (h : ¬IsOperand word) (valid : (number? value).isSome) :
    word ≠ value := by
  rintro rfl
  rw [number?_eq_none (Classical.not_imp.1 h).1] at valid
  cases valid

namespace Item

/-- The option that an item begins with. -/
def option? : Item → Option String
  | json => some "--json"
  | limit flag _ _ => some flag.spelling
  | operand _ _ => none

/-- An option is written where its item is, and nowhere else: it is neither a value nor an
    operand. -/
theorem mem_arguments_iff {word : String} (h : ¬IsOperand word) (item : Item) :
    word ∈ item.arguments ↔ item.option? = some word := by
  cases item with
  | json => simp [arguments, option?, eq_comm]
  | limit flag value valid => simp [arguments, option?, ne_of_valid h valid, eq_comm]
  | operand argument plain =>
    have hargument : word ≠ argument := by
      rintro rfl
      exact h plain
    simp [arguments, option?, hargument]

theorem option?_eq_json_iff {item : Item} : item.option? = some "--json" ↔ item = .json := by
  cases item with
  | json => simp [option?]
  | limit flag value valid => simp [option?, flag.spelling_ne_json]
  | operand argument plain => simp [option?]

end Item

theorem mem_written_iff {word : String} (h : ¬IsOperand word) :
    word ∈ written items ↔ ∃ item ∈ items, item.option? = some word := by
  simp [written, List.mem_flatMap, Item.mem_arguments_iff h]

-- ════════════════════════════════════════════════════════════════════════
-- What is set
-- ════════════════════════════════════════════════════════════════════════

namespace LimitFlag

/-- The limit that a flag sets. -/
def get (flag : LimitFlag) (limits : Limits) : Nat :=
  match flag with
  | maxColumns => limits.maxColumns
  | maxSqlLength => limits.maxSqlLength

variable {flag flag' : LimitFlag} {n : Nat}

@[simp] theorem get_set_self (flag : LimitFlag) (n : Nat) (o : Options) :
    flag.get (flag.set n o).limits = n := by
  cases flag <;> rfl

theorem get_set_of_ne (h : flag ≠ flag') (n : Nat) (o : Options) :
    flag.get (flag'.set n o).limits = flag.get o.limits := by
  cases flag <;> cases flag' <;> first | rfl | exact absurd rfl h

@[simp] theorem mode_set (flag : LimitFlag) (n : Nat) (o : Options) :
    (flag.set n o).mode = o.mode := by
  cases flag <;> rfl

@[simp] theorem maxExprDepth_set (flag : LimitFlag) (n : Nat) (o : Options) :
    (flag.set n o).limits.maxExprDepth = o.limits.maxExprDepth := by
  cases flag <;> rfl

/-- The number written directly behind the last occurrence of a flag, or the usual limit if the flag
    does not occur. -/
inductive Gives (flag : LimitFlag) (arguments : List String) : Nat → Prop
  | last {before after : List String} {value : String} {n : Nat} :
    arguments = before ++ flag.spelling :: value :: after → flag.spelling ∉ value :: after →
    number? value = some n → Gives flag arguments n
  | usual : flag.spelling ∉ arguments → Gives flag arguments (flag.get {})

/-- More arguments change nothing if the flag is not among them. -/
theorem Gives.append {more : List String} (h : flag.Gives arguments n)
    (hmore : flag.spelling ∉ more) : flag.Gives (arguments ++ more) n := by
  cases h with
  | @last before after value _ hsplit hafter hvalue =>
    have hsplit' : arguments ++ more = before ++ flag.spelling :: value :: (after ++ more) := by
      rw [hsplit, List.append_assoc, List.cons_append, List.cons_append]
    refine .last hsplit' ?_ hvalue
    rw [← List.cons_append, List.mem_append, not_or]
    exact ⟨hafter, hmore⟩
  | usual h => exact .usual (by simp [h, hmore])

end LimitFlag

/-- The form of output is JSON if one of the items says so. -/
theorem mode_foldl_add (items : List Item) (o : Options) :
    (items.foldl Options.add o).mode = .json ↔ o.mode = .json ∨ Item.json ∈ items := by
  induction items generalizing o with
  | nil => simp
  | cons item items ih =>
    rw [List.foldl_cons, ih]
    cases item with
    | json => simp [Options.add]
    | limit flag value valid => simp [Options.add]
    | operand argument plain =>
      by_cases hstdin : argument = "-" <;> simp [Options.add, hstdin]

/-- No item sets the depth of expressions. -/
theorem maxExprDepth_foldl_add (items : List Item) (o : Options) :
    (items.foldl Options.add o).limits.maxExprDepth = o.limits.maxExprDepth := by
  induction items generalizing o with
  | nil => rfl
  | cons item items ih =>
    rw [List.foldl_cons, ih]
    cases item with
    | json => rfl
    | limit flag value valid => simp [Options.add]
    | operand argument plain =>
      by_cases hstdin : argument = "-" <;> simp [Options.add, hstdin]

/-- An item sets a limit if it begins with the flag of the limit. -/
theorem get_add_of_ne {flag : LimitFlag} {item : Item} (h : item.option? ≠ some flag.spelling)
    (o : Options) : flag.get (o.add item).limits = flag.get o.limits := by
  cases item with
  | json => rfl
  | limit flag' value valid =>
    refine LimitFlag.get_set_of_ne ?_ _ o
    rintro rfl
    exact h rfl
  | operand argument plain =>
    by_cases hstdin : argument = "-" <;> simp [Options.add, hstdin]

/-- A limit is the one that is given last. -/
theorem gives_foldl_add (flag : LimitFlag) (items : List Item) :
    flag.Gives (written items) (flag.get (items.foldl Options.add {}).limits) := by
  have hflag := flag.not_isOperand_spelling
  induction items using List.reverseRecOn with
  | nil => exact .usual (by simp)
  | append_singleton items item ih =>
    rw [List.foldl_append, List.foldl_cons, List.foldl_nil, written_append, written_cons,
      written_nil, List.append_nil]
    by_cases hitem : item.option? = some flag.spelling
    · cases item with
      | json => exact absurd (Option.some.inj hitem).symm flag.spelling_ne_json
      | limit flag' value valid =>
        obtain rfl := LimitFlag.spelling_inj (Option.some.inj hitem)
        have hafter : flag'.spelling ∉ [value] := by simpa using ne_of_valid hflag valid
        refine .last rfl hafter ?_
        rw [Options.add, LimitFlag.get_set_self, Option.some_get]
      | operand => cases hitem
    · rw [get_add_of_ne hitem]
      exact ih.append (mt (Item.mem_arguments_iff hflag item).1 hitem)

-- ════════════════════════════════════════════════════════════════════════
-- The order of items
-- ════════════════════════════════════════════════════════════════════════

/-- What can be set. -/
inductive ItemKind where
  | mode
  | limit (flag : LimitFlag)
  | path
  deriving DecidableEq

/-- What an item sets. -/
def Item.kind : Item → ItemKind
  | json => .mode
  | limit flag _ _ => .limit flag
  | operand _ _ => .path

/-- The same items in an order in which those of one kind stand as before. -/
def Rearranged (items others : List Item) : Prop :=
  ∀ kind, others.filter (·.kind = kind) = items.filter (·.kind = kind)

/-- Items of different kinds set different things, and may be exchanged. -/
theorem Options.add_comm {a b : Item} (h : a.kind ≠ b.kind) (o : Options) :
    (o.add a).add b = (o.add b).add a := by
  -- the two limits are of different kinds too, so the flags are told apart
  rcases a with _ | ⟨_ | _, _, _⟩ | _ <;> rcases b with _ | ⟨_ | _, _, _⟩ | _ <;>
    first | rfl | exact absurd rfl h | simp only [Options.add]; split <;> rfl

/-- An item may as well stand behind items of other kinds. -/
theorem foldl_add_comm {item : Item} {front : List Item} (h : ∀ i ∈ front, i.kind ≠ item.kind)
    (o : Options) :
    front.foldl Options.add (o.add item) = (front.foldl Options.add o).add item := by
  induction front generalizing o with
  | nil => rfl
  | cons first front ih =>
    rw [List.foldl_cons, List.foldl_cons, ← Options.add_comm (h first List.mem_cons_self)]
    exact ih (fun i hi => h i (List.mem_cons_of_mem first hi)) _

namespace Rearranged

theorem eq_nil (h : Rearranged [] others) : others = [] := by
  refine List.eq_nil_iff_forall_not_mem.2 fun item hitem => ?_
  have hfilter : item ∈ others.filter (·.kind = item.kind) := List.mem_filter.2 ⟨hitem, by simp⟩
  rw [h item.kind] at hfilter
  cases hfilter

/-- The first item stands among the others, behind items of other kinds. -/
theorem exists_split {item : Item} (h : Rearranged (item :: items) others) :
    ∃ front back, others = front ++ item :: back ∧ (∀ i ∈ front, i.kind ≠ item.kind) ∧
      Rearranged items (front ++ back) := by
  have hitem := h item.kind
  rw [List.filter_cons_of_pos (by simp), List.filter_eq_cons_iff] at hitem
  obtain ⟨front, back, rfl, hfront, -, hback⟩ := hitem
  refine ⟨front, back, rfl, by simpa using hfront, fun kind => ?_⟩
  have hkind := h kind
  by_cases hself : item.kind = kind
  · subst hself
    rw [List.filter_append, List.filter_eq_nil_iff.2 hfront, List.nil_append, hback]
  · simpa [hself] using hkind

/-- Rearranged items say the same. -/
theorem foldl_add_eq (h : Rearranged items others) (o : Options) :
    others.foldl Options.add o = items.foldl Options.add o := by
  induction items generalizing others o with
  | nil => rw [h.eq_nil]
  | cons item items ih =>
    obtain ⟨front, back, rfl, hfront, hrest⟩ := h.exists_split
    rw [List.foldl_append, List.foldl_cons, ← foldl_add_comm hfront, ← List.foldl_append, ih hrest,
      List.foldl_cons]

theorem operands_eq (h : Rearranged items others) : operands others = operands items := by
  have hkind : ∀ items : List Item, operands items = operands (items.filter (·.kind = .path)) := by
    intro items
    induction items with
    | nil => rfl
    | cons item items ih =>
      rw [operands_cons, ih, List.filter_cons]
      cases item <;> rfl
  rw [hkind others, hkind items, h .path]

end Rearranged

-- ════════════════════════════════════════════════════════════════════════
-- Accepted arguments
-- ════════════════════════════════════════════════════════════════════════

namespace Arguments

/-- Accepted arguments ask for JSON if that option is among them, and each limit is the number
    directly behind the last occurrence of its flag or the usual one. They are a row of items, and
    ask for the same if the items are rearranged. -/
theorem settings_of_parse (h : parse arguments = .ok (.run o)) :
    (o.mode = .json ↔ "--json" ∈ arguments) ∧
      (∀ flag : LimitFlag, flag.Gives arguments (flag.get o.limits)) ∧
      o.limits.maxExprDepth = ({} : Limits).maxExprDepth ∧
      (∃! items, written items = arguments) ∧
      ∀ items others, written items = arguments → Rearranged items others →
        parse (written others) = .ok (.run o) := by
  obtain ⟨items, rfl⟩ := exists_items_of_parseFrom h
  obtain rfl := eq_foldl_add_of_parse h
  refine ⟨?_, fun flag => gives_foldl_add flag items, maxExprDepth_foldl_add items {}, ?_, ?_⟩
  · rw [mode_foldl_add, mem_written_iff (by decide)]
    simp [Item.option?_eq_json_iff]
  · exact ⟨items, rfl, fun _ hitems => written_injective hitems⟩
  · intro items' others hitems hothers
    obtain rfl := written_injective hitems
    rw [parse_written, hothers.operands_eq, hothers.foldl_add_eq, ← parse_written]
    exact h

/-- A limit that is given twice, on either side of a file, and the same items in another order. -/
theorem settings_of_parse_twice :
    parse ["--max-columns", "5", "schema.sql", "--json", "--max-columns", "+7"] =
        .ok (.run ⟨some "schema.sql", .json, { maxColumns := 7 }⟩) ∧
      parse ["--json", "--max-columns", "5", "--max-columns", "+7", "schema.sql"] =
        .ok (.run ⟨some "schema.sql", .json, { maxColumns := 7 }⟩) := by
  let five : Item := .limit .maxColumns "5" (by decide)
  let seven : Item := .limit .maxColumns "+7" (by decide)
  let file : Item := .operand "schema.sql" (by decide)
  have hparse : parse ["--max-columns", "5", "schema.sql", "--json", "--max-columns", "+7"] =
      .ok (.run ⟨some "schema.sql", .json, { maxColumns := 7 }⟩) := rfl
  obtain ⟨-, -, -, -, hsame⟩ := settings_of_parse hparse
  refine ⟨hparse, hsame [five, file, .json, seven] [.json, five, seven, file] rfl ?_⟩
  rintro (_ | _ | _) <;> rfl

end Arguments

end CreateTable.CommandLine
