import CreateTable.CommandLine.Program
import CreateTable.Proofs.Json.Delimiting
import Mathlib.Data.List.Nodup

/-!
# Tables can be told from their JSON

Every field of a table has a place of its own in the JSON of it, and what stands there tells what is
in the field. A missing text is told from any text that is there, and so are the kinds of
constraints from each other.

## Main definitions

- `Enumerated.Labelled` — a small type all of whose values have labels of their own

## Main statements

- `Table.toJson_injective` — tables with the same JSON are the same
- `output_show_json_inj` — and so are tables for which the same is printed
-/

namespace CreateTable

open Json

-- ════════════════════════════════════════════════════════════════════════
-- Fields
-- ════════════════════════════════════════════════════════════════════════

/-- A small type all of whose values are listed, with labels that differ. -/
class Enumerated.Labelled (α : Type) [Enumerated α] : Prop where
  mem_values : ∀ a : α, a ∈ (values : List α)
  nodup_labels : ((values : List α).map label).Nodup

theorem Enumerated.label_injective {α : Type} [Enumerated α] [Labelled α] :
    Function.Injective (label : α → String) :=
  fun a b => List.inj_on_of_nodup_map Labelled.nodup_labels (Labelled.mem_values a)
    (Labelled.mem_values b)

instance : Enumerated.Labelled ConflictResolution where
  mem_values a := by cases a <;> decide
  nodup_labels := by decide

instance : Enumerated.Labelled SortOrder where
  mem_values a := by cases a <;> decide
  nodup_labels := by decide

instance : Enumerated.Labelled ReferentialAction where
  mem_values a := by cases a <;> decide
  nodup_labels := by decide

instance : Enumerated.Labelled Deferral where
  mem_values a := by
    rcases a with _ | ⟨negated, initially⟩
    · decide
    · cases negated <;> cases initially <;> decide
  nodup_labels := by decide

namespace Json.Value

theorem ofLabel_injective {α : Type} [Enumerated α] [Enumerated.Labelled α] :
    Function.Injective (ofLabel : α → Value) :=
  fun _ _ h => Enumerated.label_injective (Value.string.inj h)

/-- A text that is missing is told from every text. -/
theorem ofOption_injective : Function.Injective ofOption := by
  intro s t h
  cases s with
  | none =>
    cases t with
    | none => rfl
    | some t => cases h
  | some s =>
    cases t with
    | none => cases h
    | some t => exact congrArg some (Value.string.inj h)

theorem ofStrings_injective : Function.Injective ofStrings :=
  fun _ _ h => List.map_injective_iff.2 (fun _ _ => Value.string.inj) (Value.list.inj h)

/-- Two objects of one member, of the same name. -/
theorem single_inj {name : String} {v w : Value}
    (h : Value.object [(name, v)] = .object [(name, w)]) : v = w := by
  simpa using h

end Json.Value

-- ════════════════════════════════════════════════════════════════════════
-- The parts of a table
-- ════════════════════════════════════════════════════════════════════════

theorem IndexedColumn.toJson_injective : Function.Injective toJson := by
  rintro ⟨⟩ ⟨⟩ h
  simp only [toJson, Value.object.injEq, List.cons.injEq, Prod.mk.injEq, Value.string.injEq,
    Value.ofOption_injective.eq_iff, Value.ofLabel_injective.eq_iff, true_and, and_true] at h
  obtain ⟨rfl, rfl, rfl⟩ := h
  rfl

theorem ForeignKey.toJson_injective : Function.Injective toJson := by
  rintro ⟨⟩ ⟨⟩ h
  simp only [toJson, Value.object.injEq, List.cons.injEq, Prod.mk.injEq, Value.string.injEq,
    Value.ofOption_injective.eq_iff, Value.ofLabel_injective.eq_iff,
    Value.ofStrings_injective.eq_iff, true_and, and_true] at h
  obtain ⟨rfl, rfl, rfl, rfl, rfl, rfl⟩ := h
  rfl

/-- A missing foreign key is told from every foreign key. -/
theorem ForeignKey.option_toJson_injective :
    Function.Injective fun key : Option ForeignKey =>
      match key with
      | some k => k.toJson
      | none => Value.null := by
  intro k l h
  cases k with
  | none =>
    cases l with
    | none => rfl
    | some l => cases h
  | some k =>
    cases l with
    | none => cases h
    | some l => exact congrArg some (ForeignKey.toJson_injective h)

theorem Column.toJson_injective : Function.Injective toJson := by
  rintro ⟨⟩ ⟨⟩ h
  simp only [toJson, Value.object.injEq, List.cons.injEq, Prod.mk.injEq, Value.string.injEq,
    Value.bool.injEq, Value.ofOption_injective.eq_iff, Value.ofLabel_injective.eq_iff, true_and,
    and_true] at h
  obtain ⟨rfl, rfl, rfl, rfl, rfl, rfl, rfl, rfl, rfl, rfl, rfl, rfl, rfl, rfl, rfl, hkey⟩ := h
  obtain rfl := ForeignKey.option_toJson_injective hkey
  rfl

namespace TableConstraint

theorem Rule.key_inj {columns columns' : List IndexedColumn}
    {conflict conflict' : ConflictResolution}
    (h : Rule.toJson.key columns conflict = Rule.toJson.key columns' conflict') :
    columns = columns' ∧ conflict = conflict' := by
  simp only [Rule.toJson.key, Value.object.injEq, List.cons.injEq, Prod.mk.injEq,
    Value.list.injEq, Value.ofLabel_injective.eq_iff, true_and, and_true] at h
  obtain ⟨hcolumns, hconflict⟩ := h
  exact ⟨List.map_injective_iff.2 IndexedColumn.toJson_injective hcolumns, hconflict⟩

/-- Each kind of constraint has a label of its own, so none is taken for another. -/
theorem Rule.toJson_injective : Function.Injective toJson := by
  intro r r' h
  cases r with
  | primaryKey columns conflict =>
    cases r' with
    | primaryKey columns' conflict' =>
      obtain ⟨rfl, rfl⟩ := key_inj (Value.single_inj h)
      rfl
    | unique | check | foreignKey => simp [toJson] at h
  | unique columns conflict =>
    cases r' with
    | unique columns' conflict' =>
      obtain ⟨rfl, rfl⟩ := key_inj (Value.single_inj h)
      rfl
    | primaryKey | check | foreignKey => simp [toJson] at h
  | check expression =>
    cases r' with
    | check expression' =>
      obtain rfl := Value.string.inj (Value.single_inj h)
      rfl
    | primaryKey | unique | foreignKey => simp [toJson] at h
  | foreignKey columns target =>
    cases r' with
    | foreignKey columns' target' =>
      have hparts := Value.single_inj h
      simp only [Value.object.injEq, List.cons.injEq, Prod.mk.injEq,
        Value.ofStrings_injective.eq_iff, ForeignKey.toJson_injective.eq_iff, true_and,
        and_true] at hparts
      obtain ⟨rfl, rfl⟩ := hparts
      rfl
    | primaryKey | unique | check => simp [toJson] at h

theorem toJson_injective : Function.Injective toJson := by
  rintro ⟨⟩ ⟨⟩ h
  simp only [toJson, Value.object.injEq, List.cons.injEq, Prod.mk.injEq,
    Value.ofOption_injective.eq_iff, Rule.toJson_injective.eq_iff, true_and, and_true] at h
  obtain ⟨rfl, rfl⟩ := h
  rfl

end TableConstraint

theorem Table.toJson_injective : Function.Injective toJson := by
  rintro ⟨⟩ ⟨⟩ h
  simp only [toJson, Value.object.injEq, List.cons.injEq, Prod.mk.injEq, Value.string.injEq,
    Value.bool.injEq, Value.list.injEq, Value.ofOption_injective.eq_iff,
    (List.map_injective_iff.2 Column.toJson_injective).eq_iff,
    (List.map_injective_iff.2 TableConstraint.toJson_injective).eq_iff, true_and, and_true] at h
  obtain ⟨rfl, rfl, rfl, rfl, rfl, rfl, rfl, rfl⟩ := h
  rfl

-- ════════════════════════════════════════════════════════════════════════
-- What is printed
-- ════════════════════════════════════════════════════════════════════════

/-- What is printed for a table as JSON tells all of the table, whatever texts stand in it. -/
theorem output_show_json_inj {t u : Table} :
    (CommandLine.succeed (CommandLine.OutputMode.json.show t)).output =
      (CommandLine.succeed (CommandLine.OutputMode.json.show u)).output ↔ t = u := by
  constructor
  · intro h
    have hlines : pretty t.toJson ++ "\n" = pretty u.toJson ++ "\n" := h
    have hpretty : pretty t.toJson = pretty u.toJson := by
      rw [← String.toList_inj, String.toList_append, String.toList_append] at hlines
      exact String.toList_inj.1 (List.append_cancel_right hlines)
    exact Table.toJson_injective (pretty_injective hpretty)
  · intro h
    rw [h]

end CreateTable
