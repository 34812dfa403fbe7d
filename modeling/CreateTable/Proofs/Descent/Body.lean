import CreateTable.Parser.Statement
import CreateTable.Proofs.Descent.Column
import CreateTable.Proofs.Descent.TableConstraint

/-!
# Bodies

The procedure for what stands between the parentheses of a statement does what its reader does.
Behind a constraint the window may hold a `NOT`, which nothing there takes.

## Main definitions

- `BehindItem` — what the reader is given behind an item
- `AtEnd` — where no item follows

## Main statements

- `meets_item`, `meets_itemFollows` — an item, and whether another follows
- `reads_body` — the items through the closing parenthesis
-/

namespace CreateTable.Parser

open Lexical (Window)
open Grammar Grammar.Body

variable {limits : Limits}

-- ════════════════════════════════════════════════════════════════════════
-- Items
-- ════════════════════════════════════════════════════════════════════════

theorem startsTableConstraint_eq (t : Token) :
    startsTableConstraint t = (TableConstraint.start? t).isSome := by
  simp only [startsTableConstraint, TableConstraint.start?]
  generalize t.kind = kind
  cases kind with
  | keyword word => cases word <;> rfl
  | _ => rfl

/-- Behind an item, and what the reader is given then. -/
inductive BehindItem (progress : Progress) (w : Window) : Verdict Body.State Items → Prop
  | column : w.lookahead = none → progress.constraints = [] →
    BehindItem progress w (afterColumn progress w.current)
  | constraint : w.lookahead = none → progress.constraints ≠ [] →
    BehindItem progress w (afterConstraint progress w.current)
  | held {t : Token} : w.lookahead = some t → w.current.kind = .keyword .not →
    progress.constraints ≠ [] →
    BehindItem progress w (requireColumn progress (w.current.refuse .commaOrClose))

theorem follows_column (progress : Progress) :
    Follows (Body.step limits)
      (fun t => takeName t .column fun name => .column progress (.ofName name)) (column limits)
      fun column => afterColumn (progress.addColumn column) :=
  .name_bind fun name => (reads_columnRest name).part fun _ _ => rfl

/-- A constraint among the items. -/
theorem meets_constraintItem (progress : Progress) {p : Point} {s : TableConstraint.State}
    (hlook : p.window.lookahead = none) (hs : TableConstraint.start? p.window.current = some s) :
    Meets (Body.step limits) (.taken (.constraint progress s)) p (tableConstraint limits)
      fun constraint => BehindItem (progress.addConstraint constraint) := by
  have hstep : ∀ s t, Body.step limits (.constraint progress s) t =
      (TableConstraint.step limits s t).andThen (.constraint progress) _ := fun _ _ => rfl
  refine (Meets.part hstep hlook rfl (meets_tableConstraint hlook hs)).mono ?_
  rintro _ w _ ⟨⟨constraint, heldNot⟩, rfl, rfl, hheld⟩
  cases hheld with
  | none hlook =>
    rw [Window.ahead_eq_self hlook]
    exact .constraint hlook (List.cons_ne_nil _ _)
  | not hlook hnot => exact .held hlook hnot (List.cons_ne_nil _ _)

/-- One more item. -/
theorem meets_item {progress : Progress} {p : Point} (hlook : p.window.lookahead = none)
    (hopen : ¬(p.window.current.kind = .rightParen ∧
      ¬(progress.columns.isEmpty ∧ progress.constraints.isEmpty))) :
    Meets (Body.step limits) (Body.item limits progress p.window.current) p (item limits progress)
      fun progress' w v => progress'.first = progress.first ∧ BehindItem progress' w v := by
  rw [Body.item, if_neg hopen]
  refine .current ?_
  cases hstart : TableConstraint.start? p.window.current with
  | some s =>
    have hstarts : startsTableConstraint p.window.current := by
      simp [startsTableConstraint_eq, hstart]
    rw [if_pos hstarts]
    exact (meets_constraintItem progress hlook hstart).bind fun _ _ _ hitem => .pure ⟨rfl, hitem⟩
  | none =>
    have hstarts : ¬startsTableConstraint p.window.current := by
      simp [startsTableConstraint_eq, hstart]
    rw [if_neg hstarts]
    dsimp only
    split
    · rename_i hempty
      unfold beginColumn
      split
      · exact .current (.fail rfl)
      · refine ((follows_column progress).meets ⟨hlook, rfl⟩).bind ?_
        rintro column q _ ⟨hlook, rfl⟩
        exact .pure ⟨rfl, .column hlook (List.isEmpty_iff.1 hempty)⟩
    · exact .current (.fail rfl)

/-- Behind an item and no comma, where another one cannot follow. -/
def AtClose (progress : Progress) (w : Window) (v : Verdict Body.State Items) : Prop :=
  v = finish progress w.current ∧ ∃ heldNot, Holds w heldNot

/-- Whether an item follows. -/
theorem meets_itemFollows {progress : Progress} {p : Point} {v : Verdict Body.State Items}
    (hp : BehindItem progress p.window v) :
    Meets (Body.step limits) v p (itemFollows progress) fun follows =>
      if follows then Free (Body.item limits progress) else AtClose progress := by
  cases hp with
  | column hlook hconstraints =>
    refine .eat_bind hlook (fun hcomma => ?_) fun hcomma => .current (.pure ?_)
    · exact ⟨.item progress, by simp [afterColumn, hcomma], fun q hq => .pure ⟨hq, rfl⟩⟩
    · simp only [hconstraints, List.isEmpty_nil, Bool.not_true, Bool.false_and, afterColumn,
        if_neg hcomma]
      exact ⟨rfl, none, .none hlook⟩
  | constraint hlook hconstraints =>
    refine .eat_bind hlook (fun hcomma => ?_) fun hcomma => .current (.pure ?_)
    · have hnone : TableConstraint.start? p.window.current = none := by
        simp [TableConstraint.start?, hcomma]
      exact ⟨.item progress, by simp [afterConstraint, afterColumn, hcomma, hnone],
        fun q hq => .pure ⟨hq, rfl⟩⟩
    · cases hstart : TableConstraint.start? p.window.current with
      | some s =>
        have hparen : p.window.current.kind ≠ .rightParen := fun hparen => by
          simp [TableConstraint.start?, hparen] at hstart
        simp only [startsTableConstraint_eq, hstart, List.isEmpty_eq_false_iff.2 hconstraints,
          Option.isSome_some, Bool.not_false, Bool.and_self, if_true]
        exact ⟨hlook, by simp [afterConstraint, Body.item, hstart, hparen]⟩
      | none =>
        simp only [startsTableConstraint_eq, hstart, Option.isSome_none, Bool.and_false]
        exact ⟨by simp [afterConstraint, afterColumn, hstart, hcomma], none, .none hlook⟩
  | held hlook hnot hconstraints =>
    rw [itemFollows, Parser.eat_bind]
    refine .current ?_
    rw [if_neg (by simp [hnot])]
    refine .current (.pure ?_)
    simp only [startsTableConstraint, hnot, Bool.and_false]
    exact ⟨by simp [finish, takeKind, hnot], some p.window.current, .not hlook hnot⟩

/-- Behind all items, with the body's first token. -/
def AtEnd (first : Token) (progress : Progress) (w : Window) (v : Verdict Body.State Items) :
    Prop :=
  progress.first = first ∧ AtClose progress w v

/-- One more item, unless the body is closed. -/
theorem meets_bodyTurn {first : Token} {progress : Progress} {p : Point}
    {v : Verdict Body.State Items} (hfirst : progress.first = first)
    (hp : Free (Body.item limits progress) p.window v) :
    Meets (Body.step limits) v p (bodyTurn limits progress)
      (Sum.elim (fun progress w v => progress.first = first ∧ Free (Body.item limits progress) w v)
        (AtEnd first)) := by
  obtain ⟨hlook, rfl⟩ := hp
  refine .current ?_
  split
  · rename_i hclosed
    refine .pure ⟨hfirst, ?_, none, .none hlook⟩
    rw [Body.item, if_pos hclosed]
  · rename_i hopen
    refine (meets_item hlook hopen).bind ?_
    rintro progress' q v ⟨hfirst', hitem⟩
    refine (meets_itemFollows hitem).bind fun follows q v hfollows => ?_
    cases follows with
    | true => exact .pure ⟨hfirst'.trans hfirst, hfollows⟩
    | false => exact .pure ⟨hfirst'.trans hfirst, hfollows⟩

/-- The closing parenthesis behind all items, unless there is no column among them. -/
theorem meets_bodyEnd {first : Token} {progress : Progress} {p : Point}
    {v : Verdict Body.State Items} (hp : AtEnd first progress p.window v) :
    Meets (Body.step limits) v p
      ((if progress.columns.isEmpty then fail (first.error .noColumns)
        else pure progress.items) >>= fun items =>
          expect .rightParen .commaOrClose >>= fun _ => pure items)
      fun items => Free fun _ => .complete items := by
  obtain ⟨rfl, rfl, heldNot, hheld⟩ := hp
  unfold finish requireColumn
  split
  · rw [fail_bind]
    exact .fail rfl
  · rw [pure_bind]
    cases hheld with
    | none hlook =>
      have hexpect : Follows (Body.step limits)
          (takeKind · .rightParen .commaOrClose (.closed progress.items))
          (expect .rightParen .commaOrClose >>= fun _ => pure progress.items)
          fun items _ => .complete items := .expect_bind fun _ _ => .pure rfl
      exact hexpect.meets ⟨hlook, rfl⟩
    | not hlook hnot =>
      have hne : p.window.current.kind ≠ .rightParen := by simp [hnot]
      rw [expect, bind_assoc]
      refine .current ?_
      rw [if_neg hne, refuse_bind, takeKind, if_neg hne]
      exact .current (.fail rfl)

/-- Items through the closing parenthesis. -/
theorem reads_body : Reads (Body.step limits) .start
    (do
      let items ← body limits
      let _ ← expect .rightParen .commaOrClose
      return items) := by
  rintro t p hlook rfl
  rw [body, bind_assoc]
  refine .current ?_
  rw [bind_assoc]
  exact (Meets.loop (fun _ _ _ hp => meets_bodyTurn hp.1 hp.2) (.start limits p.window.current)
    ⟨rfl, hlook, rfl⟩).bind fun _ _ _ => meets_bodyEnd

end CreateTable.Parser
