import CreateTable.Parser.ForeignKey
import CreateTable.Proofs.Descent.Clauses

/-!
# Foreign keys

The procedure for a foreign key does what its reader does. A `NOT` that is not part of the key
leaves the window with two tokens. The reader has then taken the `NOT`, and hands it back.

## Main definitions

- `Holds` — the token that a window holds besides the one that a reader is given

## Main statements

- `meets_deferral` — when a key is checked
- `meets_foreignKey` — a foreign key
-/

namespace CreateTable.Parser

open Lexical (Window)
open Grammar Grammar.References

/-- The `NOT` that a reader has been given and a window still holds, if any. -/
inductive Holds (w : Window) : Option Token → Prop
  | none : w.lookahead = none → Holds w none
  | not {t : Token} : w.lookahead = some t → w.current.kind = .keyword .not →
    Holds w (some w.current)

-- ════════════════════════════════════════════════════════════════════════
-- Clauses
-- ════════════════════════════════════════════════════════════════════════

theorem follows_action (key : ForeignKey) (event : Event) :
    Follows References.step (References.step (.action key event)) action
      fun action => betweenClauses (setAction key event action) := by
  intro t
  refine .eat_bind (fun hset => ⟨.set key event, by simp [References.step, hset], ?_⟩) fun _ =>
    .eat_bind (fun hcascade => ?_) fun _ => .eat_bind (fun hrestrict => ?_) fun _ =>
    .eat_bind (fun hno => ⟨.no key event, by simp [References.step, hno], ?_⟩) fun _ => ?_
  · intro t
    refine .eat_bind (fun hnull => ?_) fun _ => .eat_bind (fun hdefault => ?_) fun _ => ?_
    · exact ⟨.clauses (setAction key event .setNull), by simp [References.step, hnull],
        fun _ => .pure rfl⟩
    · exact ⟨.clauses (setAction key event .setDefault), by simp [References.step, hdefault],
        fun _ => .pure rfl⟩
    · exact .refuse (by simp [References.step, *])
  · exact ⟨.clauses (setAction key event .cascade), by simp [References.step, hcascade],
      fun _ => .pure rfl⟩
  · exact ⟨.clauses (setAction key event .restrict), by simp [References.step, hrestrict],
      fun _ => .pure rfl⟩
  · exact .expect_bind fun _ _ => .pure rfl
  · exact .refuse (by simp [References.step, *])

/-- The verdict behind all clauses but the last. -/
def behindClauses (key : ForeignKey) (t : Token) : Verdict State Result :=
  match t.kind with
  | .keyword .not => .taken (.not key t)
  | .keyword .deferrable => .taken (.deferrable key false)
  | _ => .complete { key }

theorem follows_foreignKeyTurn (key : ForeignKey) :
    Follows References.step (betweenClauses key) (foreignKeyTurn key)
      (Sum.elim betweenClauses behindClauses) := by
  intro t
  refine .eat_bind (fun hon => ⟨.event key, by simp [betweenClauses, hon], ?_⟩) fun _ =>
    .eat_bind (fun hmatch => ⟨.matchType key, by simp [betweenClauses, hmatch], ?_⟩) fun _ => ?_
  · intro t
    refine .eat_bind (fun hdelete => ?_) fun _ => .eat_bind (fun hupdate => ?_) fun _ => ?_
    · exact ⟨.action key .delete, by simp [References.step, hdelete],
        (follows_action key .delete).bind fun _ _ => .pure rfl⟩
    · exact ⟨.action key .update, by simp [References.step, hupdate],
        (follows_action key .update).bind fun _ _ => .pure rfl⟩
    · exact .refuse (by simp [References.step, *])
  · exact .name_bind fun _ _ => .pure rfl
  · refine .pure ?_
    simp only [betweenClauses, behindClauses, Sum.elim_inr]
    split <;> simp_all

-- ════════════════════════════════════════════════════════════════════════
-- Deferral
-- ════════════════════════════════════════════════════════════════════════

theorem follows_initialMode (key : ForeignKey) (negated : Bool) :
    Follows References.step (References.step (.deferrable key negated)) initialMode
      fun mode _ => .complete { key := { key with deferral := .stated negated mode } } := by
  intro t
  refine .eat_bind
    (fun hinitially => ⟨.initially key negated, by simp [References.step, hinitially], ?_⟩)
    fun _ => .pure (by simp [References.step, *])
  · intro t
    refine .eat_bind (fun hdeferred => ?_) fun _ => .eat_bind (fun himmediate => ?_) fun _ => ?_
    · exact ⟨.closed { key with deferral := .stated negated .deferred },
        by simp [References.step, hdeferred], fun _ => .pure rfl⟩
    · exact ⟨.closed { key with deferral := .stated negated .immediate },
        by simp [References.step, himmediate], fun _ => .pure rfl⟩
    · exact .refuse (by simp [References.step, *])

/-- Where `DEFERRABLE` stands, a deferral is stated. -/
theorem followsAt_deferrable {t : Token} (h : t.kind = .keyword .deferrable) (key : ForeignKey)
    (negated : Bool) :
    FollowsAt References.step t (.taken (.deferrable key negated)) (deferrable key negated)
      fun key _ => .complete { key } :=
  .eat_bind (fun _ => ⟨_, rfl, (follows_initialMode key negated).bind fun _ _ => .pure rfl⟩)
    fun hne => absurd h hne

/-- What is left behind a foreign key. -/
def LeavesKey (key : ForeignKey) (w : Window) (v : Verdict State Result) : Prop :=
  ∃ r, v = .complete r ∧ r.key = key ∧ Holds w r.heldNot

theorem LeavesKey.of_free {key : ForeignKey} {w : Window} {v : Verdict State Result}
    (h : Free (fun _ => .complete { key }) w v) : LeavesKey key w v :=
  ⟨{ key }, h.2, rfl, .none h.1⟩

/-- Where no `NOT` stands, the reader goes on alike. -/
theorem followsAt_deferral {t : Token} (h : t.kind ≠ .keyword .not) (key : ForeignKey) :
    FollowsAt References.step t (behindClauses key t) (deferral key)
      fun key _ => .complete { key } := by
  rw [deferral, negation, negates, bind_assoc, bind_assoc]
  refine .current ?_
  rw [if_neg (by simp [Token.isKeyword, h])]
  by_cases hdeferrable : t.kind = .keyword .deferrable
  · rw [show behindClauses key t = .taken (.deferrable key false) by
      simp [behindClauses, hdeferrable]]
    exact followsAt_deferrable hdeferrable key false
  · exact .eat_bind (fun heq => absurd heq hdeferrable) fun _ =>
      .pure (by simp [behindClauses, *])

/-- Where a `NOT` stands, the reader takes it, and hands it back if the key is complete. -/
theorem meets_deferral_of_not (key : ForeignKey) {p : Point} (hlook : p.window.lookahead = none)
    (hnot : p.window.current.kind = .keyword .not) :
    Meets References.step (.taken (.not key p.window.current)) p (deferral key) LeavesKey := by
  rw [deferral, negation, negates, bind_assoc, bind_assoc]
  refine .current ?_
  rw [if_pos (by simp [Token.isKeyword, hnot]), bind_assoc]
  refine .peekSecond_bind hlook fun q t hcurrent hlook' => ?_
  rw [pure_bind]
  by_cases hdeferrable : t.kind = .keyword .deferrable
  · -- the window moves on to the token that the reader has been given
    rw [if_pos (by simp [Token.isKeyword, hdeferrable]), bind_assoc]
    refine .advance_bind_of_held hlook' fun r hr => ?_
    rw [pure_bind, show References.step (.not key p.window.current) t =
      .taken (.deferrable key true) by simp [References.step, hdeferrable]]
    refine (followsAt_deferrable hdeferrable key true r ?_ ?_).mono fun _ _ _ => .of_free
    · rw [hr, Window.lookahead_ahead]
    · rw [hr, Window.current_ahead hlook']
  · -- the window keeps the `NOT`, which the reader hands back
    rw [if_neg (by simp [Token.isKeyword, hdeferrable]), pure_bind, deferrable, eatKeyword,
      eat_bind]
    refine .current ?_
    rw [if_neg (by simp [hcurrent, hnot])]
    refine .pure ⟨{ key, heldNot := some p.window.current }, ?_, rfl, ?_⟩
    · simp [References.step]
    · rw [← hcurrent] at hnot ⊢
      exact .not hlook' hnot

theorem meets_deferral (key : ForeignKey) {p : Point} {v : Verdict State Result}
    (hp : Free (behindClauses key) p.window v) :
    Meets References.step v p (deferral key) LeavesKey := by
  obtain ⟨hlook, rfl⟩ := hp
  by_cases hnot : p.window.current.kind = .keyword .not
  · rw [show behindClauses key p.window.current = .taken (.not key p.window.current) by
      simp [behindClauses, hnot]]
    exact meets_deferral_of_not key hlook hnot
  · exact (followsAt_deferral hnot key p hlook rfl).mono fun _ _ _ => .of_free

-- ════════════════════════════════════════════════════════════════════════
-- Foreign keys
-- ════════════════════════════════════════════════════════════════════════

theorem follows_referencedColumns (table : String) :
    Follows References.step (References.step (.named { table })) referencedColumns
      fun columns => betweenClauses { table, columns } := by
  intro t
  refine .eat_bind (fun hopen => ⟨.columns { table } (.name []), ?_, ?_⟩) fun hopen => .pure ?_
  · simp [References.step, hopen]
  · exact .names_bind (fun _ _ => rfl) fun _ _ => .pure rfl
  · simp [References.step]

theorem meets_foreignKey {p : Point} {v : Verdict State Result}
    (hp : Free (References.step .table) p.window v) :
    Meets References.step v p foreignKey LeavesKey := by
  have hclauses : Follows References.step (References.step .table)
      (do
        let table ← name .referencedTable
        let columns ← referencedColumns
        loop foreignKeyTurn { table, columns }) behindClauses :=
    .name_bind fun table => (follows_referencedColumns table).bind fun columns =>
      .loop follows_foreignKeyTurn _
  have hmeets := (hclauses.meets hp).bind fun key _ _ => meets_deferral key
  simpa only [foreignKey, bind_assoc] using hmeets

end CreateTable.Parser
