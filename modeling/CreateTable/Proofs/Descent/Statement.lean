import CreateTable.Parser.Statement
import CreateTable.Proofs.Descent.Body

/-!
# Statements

The procedure for a statement does what its reader does, token by token.

## Main statements

- `follows_options` — the options behind a body
- `follows_statementEnd` — the end of a statement
- `reads_createTable` — a text as one statement
-/

namespace CreateTable.Parser

open Grammar Grammar.Statement

variable {limits : Limits}

-- ════════════════════════════════════════════════════════════════════════
-- Options
-- ════════════════════════════════════════════════════════════════════════

theorem follows_tableOption (table : Table) :
    Follows (Statement.step limits) (Statement.step limits (.option table)) (tableOption table)
      fun table => Statement.step limits (.optionEnd table) := by
  intro t
  refine .eat_bind (fun hwithout => ⟨.without table, ?_, fun u => .current ?_⟩) fun hwithout =>
    .current ?_
  · simp [Statement.step, beginOption, Token.isKeyword, hwithout]
  · split
    · rename_i hrowid
      exact .advance_bind (if_pos hrowid) fun _ => .pure rfl
    · rename_i hrowid
      exact .refuse (if_neg hrowid)
  · split
    · rename_i hstrict
      refine .advance_bind ?_ fun _ => .pure rfl
      simp [Statement.step, beginOption, Token.isKeyword, hwithout, hstrict]
    · rename_i hstrict
      refine .refuse ?_
      simp [Statement.step, beginOption, Token.isKeyword, hwithout, hstrict]

theorem follows_optionTurn (table : Table) :
    Follows (Statement.step limits) (Statement.step limits (.option table)) (optionTurn table)
      (Sum.elim (fun table => Statement.step limits (.option table)) finish) :=
  (follows_tableOption table).bind fun table t =>
    .eat_bind (fun hcomma => ⟨.option table, by simp [Statement.step, hcomma], fun _ => .pure rfl⟩)
      fun hcomma => .pure (by simp [Statement.step, hcomma])

/-- The options behind a body. -/
theorem follows_options (table : Table) :
    Follows (Statement.step limits) (fun t => beginOption table t (finish table t)) (options table)
      finish := by
  refine fun t => .current ?_
  split
  · rename_i hstarts
    have hoption : beginOption table t (finish table t) =
        Statement.step limits (.option table) t := by
      simp only [startsOption, Bool.or_eq_true] at hstarts
      simp only [Statement.step, beginOption]
      rcases hstarts with hstarts | hstarts <;> simp [hstarts]
    have hloop : FollowsAt (Statement.step limits) t (Statement.step limits (.option table) t)
        (loop optionTurn table) finish := Follows.loop follows_optionTurn table t
    rwa [← hoption] at hloop
  · rename_i hstarts
    simp only [startsOption, Bool.or_eq_true, not_or] at hstarts
    exact .pure (by simp [beginOption, hstarts])

-- ════════════════════════════════════════════════════════════════════════
-- Statements
-- ════════════════════════════════════════════════════════════════════════

/-- The verdict behind all semicolons. -/
def behindSemicolons (table : Table) (t : Token) : Verdict State Table :=
  if t.isEnd then .complete table else .refused (t.error .secondStatement)

theorem follows_semicolonTurn (table : Table) (b : Unit) :
    Follows (Statement.step limits) (Statement.step limits (.terminated table)) (semicolonTurn b)
      (Sum.elim (fun _ => Statement.step limits (.terminated table))
        fun _ => behindSemicolons table) := by
  intro t
  refine .eat_bind (fun hsemicolon => ?_) fun hsemicolon => .pure ?_
  · exact ⟨.terminated table, by simp [Statement.step, hsemicolon], fun _ => .pure rfl⟩
  · simp only [Statement.step, behindSemicolons, Token.isEnd, Sum.elim_inr]
    split <;> simp_all

theorem follows_statementEnd (table : Table) :
    Follows (Statement.step limits) (finish table) statementEnd fun _ _ => .complete table := by
  intro t
  refine .eat_bind (fun hsemicolon => ⟨.terminated table, by simp [finish, hsemicolon], ?_⟩)
    fun hsemicolon => .current ?_
  · refine (Follows.loop (follows_semicolonTurn table) ()).bind fun _ t => .current ?_
    split
    · exact .pure (if_pos ‹_›)
    · exact .failHere (if_neg ‹_›)
  · split
    · rename_i hend
      refine .pure ?_
      have hkind : t.kind = .endOfInput := beq_iff_eq.1 hend
      simp [finish, hkind]
    · rename_i hend
      refine .refuse ?_
      simp only [finish]
      split <;> simp_all [Token.isEnd]

theorem follows_temporary :
    Follows (Statement.step limits) (Statement.step limits .created) temporary
      fun temporary => Statement.tableWord { temporary } := by
  intro t
  refine .eat_bind (fun htemp => ⟨.temporary, ?_, fun _ => .pure rfl⟩) fun htemp => ?_
  · simp [Statement.step, htemp]
  · rw [eatKeyword, eat]
    refine .current ?_
    split
    · rename_i htemporary
      exact .advance_bind (s := .temporary) (by simp [Statement.step, htemporary])
        fun _ => .pure rfl
    · rename_i htemporary
      exact .pure (by simp [Statement.step])

theorem tableWord_eq_takeKeyword (table : Table) {t : Token}
    (h : ∀ word, t.kind = .keyword word → ¬Statement.createsOther word) :
    Statement.tableWord table t = takeKeyword t .table .table (.table table) := by
  simp only [Statement.tableWord, takeKeyword, takeKind]
  split
  · rename_i hword
    rw [if_pos hword]
  · rename_i word hne hword
    rw [if_neg (h word hword), if_neg (by simpa [hword] using hne)]
  · rename_i hne
    rw [if_neg (hne .table)]

theorem follows_tableWord (table : Table) :
    Follows (Statement.step limits) (Statement.tableWord table) tableWord
      fun _ => Statement.step limits (.table table) := by
  refine fun t => .current ?_
  split
  · rename_i word hword
    split
    · rename_i hother
      have hne : word ≠ .table := by
        rintro rfl
        cases hother
      exact .failHere (by simp [Statement.tableWord, hword, hother])
    · rename_i hother
      have hexpect : Follows (Statement.step limits)
          (takeKeyword · .table .table (.table table))
          (expectKeyword .table .table >>= fun _ => pure ())
          fun _ => Statement.step limits (.table table) := .expect_bind fun _ _ => .pure rfl
      rw [tableWord_eq_takeKeyword table fun _ h => by simp_all]
      exact hexpect t
  · rename_i hne
    refine .refuse ?_
    rw [tableWord_eq_takeKeyword table fun _ h => absurd h (hne _)]
    exact if_neg (hne .table)

theorem follows_ifNotExists (temporary : Bool) :
    Follows (Statement.step limits) (Statement.step limits (.table { temporary })) ifNotExists
      fun ifNotExists => firstName { temporary, ifNotExists } := by
  intro t
  refine .eat_bind (fun hif => ⟨.ifWord { temporary }, ?_, ?_⟩) fun hif => .pure ?_
  · simp [Statement.step, Token.isKeyword, hif]
  · exact .expect_bind fun _ => .expect_bind fun _ _ => .pure rfl
  · simp [Statement.step, Token.isKeyword, hif]

theorem follows_qualifiedName (temporary ifNotExists : Bool) :
    Follows (Statement.step limits) (firstName { temporary, ifNotExists }) qualifiedName
      fun names => afterName { schema := names.1, name := names.2, temporary, ifNotExists } := by
  refine .name_bind fun first t => .eat_bind (fun hdot => ?_) fun hdot => .pure ?_
  · exact ⟨.qualified { schema := some first, temporary, ifNotExists },
      by simp [Statement.step, hdot], .name_bind fun _ _ => .pure rfl⟩
  · simp [Statement.step, hdot]

theorem follows_openBody (table : Table) :
    Follows (Statement.step limits) (afterName table) openBody
      fun _ => Statement.step limits (.body table .start) := by
  refine fun t => .current ?_
  split
  · rename_i has
    exact .failHere (if_pos has)
  · rename_i has
    have hexpect : Follows (Statement.step limits)
        (takeKind · .leftParen .openAfterTableName (.body table .start))
        (expect .leftParen .openAfterTableName >>= fun _ => pure ())
        fun _ => Statement.step limits (.body table .start) := .expect_bind fun _ _ => .pure rfl
    rw [afterName, if_neg has]
    exact hexpect t

/-- What is done behind the body of a statement. -/
theorem follows_body_bind {f : Body.Items → Parser Table}
    {next : Table → Token → Verdict State Table} (table : Table)
    (hf : ∀ items : Body.Items, Follows (Statement.step limits) (fun t =>
      let table := { table with columns := items.columns, constraints := items.constraints }
      beginOption table t (finish table t)) (f items) next) :
    Follows (Statement.step limits) (Statement.step limits (.body table .start))
      (body limits >>= fun items => expect .rightParen .commaOrClose >>= fun _ => f items)
      next := by
  have hstep : ∀ s t, Statement.step limits (.body table s) t =
      (Body.step limits s t).andThen (.body table) fun items =>
        let table := { table with columns := items.columns, constraints := items.constraints }
        beginOption table t (finish table t) := fun _ _ => rfl
  have hbind := (reads_body.part hstep).bind hf
  simpa only [bind_assoc, pure_bind] using hbind

/-- A text as one statement. -/
theorem reads_createTable : Reads (Statement.step limits) .start (createTable limits) :=
  .expect_bind fun _ => follows_temporary.bind fun temporary =>
    (follows_tableWord _).bind fun _ => (follows_ifNotExists temporary).bind fun ifNotExists =>
    (follows_qualifiedName temporary ifNotExists).bind fun _ => (follows_openBody _).bind fun _ =>
    follows_body_bind _ fun _ => (follows_options _).bind fun table =>
    (follows_statementEnd table).bind fun _ _ => .pure rfl

end CreateTable.Parser
