import CreateTable.Grammar.References
import CreateTable.Parser.Clauses

/-!
# Foreign keys

The procedures for what follows `REFERENCES`.

## Main definitions

- `Parser.action` — what happens to a row
- `Parser.negates` — whether `NOT DEFERRABLE` stands here
- `Parser.foreignKey` — what a foreign key refers to, and how

## Design notes

A `NOT` behind the clauses may begin a `NOT NULL` of the column. The token behind it has to be
looked at, and stays held if it is not `DEFERRABLE`. Nothing else in a statement calls for two
tokens.
-/

namespace CreateTable.Parser

open Grammar.References

/-- What happens to a row. -/
def action : Parser ReferentialAction := do
  if ← eatKeyword .set then
    if ← eatKeyword .null then
      return .setNull
    else if ← eatKeyword .default then
      return .setDefault
    else
      refuse .nullOrDefaultAfterSet
  else if ← eatKeyword .cascade then
    return .cascade
  else if ← eatKeyword .restrict then
    return .restrict
  else if ← eatKeyword .no then
    let _ ← expectKeyword .action .actionAfterNo
    return .noAction
  else
    refuse .action

/-- One more clause, if one stands here. A later one takes the place of an earlier one. -/
def foreignKeyTurn (key : ForeignKey) : Parser (ForeignKey ⊕ ForeignKey) := do
  if ← eatKeyword .on then
    if ← eatKeyword .delete then
      return .inl (setAction key .delete (← action))
    else if ← eatKeyword .update then
      return .inl (setAction key .update (← action))
    else
      refuse .deleteOrUpdate
  else if ← eatKeyword .match then
    return .inl { key with matchType := some (← name .matchType) }
  else
    return .inr key

/-- Whether `NOT DEFERRABLE` stands here. -/
def negates : Parser Bool := do
  if (← current).isKeyword .not then
    return (← peekSecond).isKeyword .deferrable
  else
    return false

/-- Moves past `NOT` if `DEFERRABLE` follows. -/
def negation : Parser Bool := do
  if ← negates then
    let _ ← advance
    return true
  else
    return false

/-- When a key is checked at first. -/
def initialMode : Parser InitialMode := do
  if ← eatKeyword .initially then
    if ← eatKeyword .deferred then
      return .deferred
    else if ← eatKeyword .immediate then
      return .immediate
    else
      refuse .initialMode
  else
    return .unspecified

/-- When a key is checked, behind `NOT` or not. -/
def deferrable (key : ForeignKey) (negated : Bool) : Parser ForeignKey := do
  if ← eatKeyword .deferrable then
    return { key with deferral := .stated negated (← initialMode) }
  else
    return key

/-- When a key is checked. -/
def deferral (key : ForeignKey) : Parser ForeignKey := do
  deferrable key (← negation)

/-- The columns that a key refers to, if they are listed. -/
def referencedColumns : Parser (List String) := do
  if ← eat .leftParen then
    let columns ← nameList .referencedColumn
    let _ ← expect .rightParen .closeAfterReferenced
    return columns
  else
    return []

/-- What a foreign key refers to, and how. -/
def foreignKey : Parser ForeignKey := do
  let table ← name .referencedTable
  let columns ← referencedColumns
  let key ← loop foreignKeyTurn { table, columns }
  deferral key

-- ════════════════════════════════════════════════════════════════════════
-- Each ends
-- ════════════════════════════════════════════════════════════════════════

theorem action_total : Total action := by
  refine .eatKeyword_bind ?_ <| .eatKeyword_bind (.pure id) <| .eatKeyword_bind (.pure id) ?_
  · exact .eatKeyword_bind (.pure id) (.eatKeyword_bind (.pure id) .refuse)
  · exact .eatKeyword_bind (.expectKeyword_bind fun _ => .pure id) .refuse

theorem foreignKeyTurn_spends (key : ForeignKey) : Spends (foreignKeyTurn key) (·.isLeft) := by
  refine .eatKeyword_bind ?_ (.eatKeyword_bind ?_ (.pure nofun))
  · refine .eatKeyword_bind ?_ (.eatKeyword_bind ?_ .refuse)
    · exact action_total.bind fun _ => .pure id
    · exact action_total.bind fun _ => .pure id
  · exact (name_spends .matchType).bind_total fun _ => .pure id

/-- If `NOT DEFERRABLE` stands here, `NOT` is current. -/
theorem negates_ends (p : Point) :
    Ends negates p fun b _ q => b = true → q.window.current.kind = .keyword .not := by
  refine .current ?_
  split
  · rename_i hnot
    have hkind := beq_iff_eq.1 hnot
    refine (Ends.peekSecond (by simp [hkind])).bind fun t _ q _ hcurrent => .pure fun _ => ?_
    rw [hcurrent, hkind]
  · exact .pure nofun

theorem negation_total : Total negation := by
  intro p
  refine (negates_ends p).bind fun b ts q _ hnot => ?_
  cases b with
  | true =>
    refine (Ends.advance_bind (R := fun _ => False) ?_ fun _ => .pure id).mono fun _ _ _ _ => nofun
    simp [hnot rfl]
  | false => exact .pure nofun

theorem initialMode_total : Total initialMode :=
  .eatKeyword_bind (.eatKeyword_bind (.pure id) (.eatKeyword_bind (.pure id) .refuse)) (.pure id)

theorem deferral_total (key : ForeignKey) : Total (deferral key) :=
  negation_total.bind fun _ =>
    .eatKeyword_bind (initialMode_total.bind fun _ => .pure id) (.pure id)

theorem referencedColumns_total : Total referencedColumns :=
  .eat_bind nofun
    ((nameList_total .referencedColumn).bind fun _ => .expect_bind nofun fun _ => .pure id)
    (.pure id)

theorem foreignKey_spends : Spends foreignKey fun _ => True :=
  (name_spends .referencedTable).bind_total fun _ =>
    referencedColumns_total.bind fun _ =>
      (Total.loop foreignKeyTurn_spends _).bind deferral_total

end CreateTable.Parser
