import CreateTable.Proofs.Errors.Completion
import CreateTable.Proofs.Errors.Fronts
import CreateTable.Proofs.Errors.Location
import CreateTable.Proofs.Grammar.Likeness
import CreateTable.Proofs.Limits.Relaxation
import CreateTable.Proofs.Rendering.Statement
import Mathlib.Data.List.Chain

/-!
# The first point of failure

An error of the grammar stands at the first token that no statement goes on with. What stands
before it can be completed, and what stands before it together with the token cannot. There are two
exceptions: the end of a text, which is no token, and a `NOT` behind a foreign key of a table, where
`DEFERRABLE` might have followed.

## Main definitions

- `FollowsForeignKey` — a `NOT` that might belong to a foreign key of a table
- `BeginsBody` — the first token of the body of a statement
- `Viable` — tokens that some statement begins with
- `FailsAt` — the first point of failure of a text

## Main statements

- `viable_of_completes` — what has been read begins a statement, if the reader can be completed
- `not_viable_of_barred` — what is accepted with no limits begins no statement
- `failsAt_of_parse` — an error stands at the first point of failure
-/

namespace CreateTable

open Lexical Grammar

-- ════════════════════════════════════════════════════════════════════════
-- What is under suspicion
-- ════════════════════════════════════════════════════════════════════════

namespace Grammar

variable {limits : Limits} {t u : Token} {us : List Token}

namespace Body

/-- The constraint that is being read, in what has been taken of a body. -/
def ConstraintBehind (limits : Limits) (us : List Token) : State → Prop
  | .constraint _ inner =>
    ∃ front t rest s, us = front ++ t :: rest ∧ TableConstraint.start? t = some s ∧
      Takes (TableConstraint.step limits) s rest inner
  | _ => True

variable {p : Progress} {s s' : State}

theorem constraintBehind_item (h : item limits p t = .taken s) :
    ConstraintBehind limits (us ++ [t]) s := by
  obtain ⟨-, -, rfl⟩ | ⟨inner, hinner, rfl⟩ | ⟨-, -, name, -, rfl⟩ := item_eq_taken h
  · trivial
  · exact ⟨us, t, [], inner, rfl, hinner, rfl⟩
  · trivial

theorem constraintBehind_step (h : ConstraintBehind limits us s)
    (hstep : step limits s t = .taken s') : ConstraintBehind limits (us ++ [t]) s' := by
  have hcolumn : ∀ {p : Progress}, afterColumn p t = .taken s' →
      ConstraintBehind limits (us ++ [t]) s' := by
    intro p hafter
    unfold afterColumn at hafter
    split at hafter
    · obtain rfl := Verdict.taken.inj hafter
      trivial
    · obtain ⟨-, -, rfl⟩ := finish_eq_taken hafter
      trivial
  cases s with
  | start => exact constraintBehind_item hstep
  | item p => exact constraintBehind_item hstep
  | column p column =>
    obtain ⟨column', -, rfl⟩ | ⟨c, -, hafter⟩ := Verdict.andThen_eq_taken.1 hstep
    · trivial
    · exact hcolumn hafter
  | constraint p constraint =>
    obtain ⟨inner, hinner, rfl⟩ | ⟨r, -, hafter⟩ := Verdict.andThen_eq_taken.1 hstep
    · obtain ⟨front, first, rest, start, rfl, hstart, htakes⟩ := h
      exact ⟨front, first, rest ++ [t], start, by simp, hstart, htakes.snoc hinner⟩
    · split at hafter
      · unfold afterConstraint at hafter
        split at hafter
        · rename_i inner hinner
          obtain rfl := Verdict.taken.inj hafter
          exact ⟨us, t, [], inner, rfl, hinner, rfl⟩
        · exact hcolumn hafter
      · unfold requireColumn at hafter
        split at hafter <;> cases hafter
  | closed items => cases hstep

theorem constraintBehind_of_takes (h : Takes (step limits) .start us s) :
    ConstraintBehind limits us s :=
  h.invariant (ConstraintBehind limits) trivial fun _ _ _ _ => constraintBehind_step

end Body

/-- A `NOT` directly behind a foreign key of the table. -/
def FollowsForeignKey (before : List Token) (k : Token) : Prop :=
  k.kind = .keyword .not ∧ ∃ front foreign depth name columns key, before = front ++ foreign ∧
    TableConstraint.Derives depth foreign { name, rule := .foreignKey columns key }

theorem FollowsForeignKey.prepend {before : List Token} (front : List Token)
    (h : FollowsForeignKey before u) : FollowsForeignKey (front ++ before) u := by
  obtain ⟨hword, inner, foreign, depth, name, columns, key, rfl, hforeign⟩ := h
  exact ⟨hword, front ++ inner, foreign, depth, name, columns, key, by simp, hforeign⟩

/-- What is held while a foreign key of the table is read is a `NOT` behind it. -/
theorem followsForeignKey_of_takes {p : Body.Progress} {name : TableConstraint.OptionalName}
    {columns : List String} {key : ForeignKey}
    (h : Takes (Body.step limits) .start us
      (.constraint p (.references name columns (.not key u)))) :
    ∃ before, us = before ++ [u] ∧ FollowsForeignKey before u := by
  obtain ⟨front, first, rest, start, rfl, hstart, htakes⟩ := Body.constraintBehind_of_takes h
  -- a comma shows that the foreign key was complete before the `NOT`
  have hcomplete : TableConstraint.step limits (.references name columns (.not key u)) .comma =
      .complete ⟨{ name, rule := .foreignKey columns key }, some u⟩ := rfl
  have hresidual := TableConstraint.isResidual.of_accepts (htakes.accepts hcomplete)
  obtain ⟨hheld, -⟩ | ⟨foreign, word, hheld, hword, hrest, hforeign⟩ :=
    TableConstraint.derives_of_residual hstart hresidual
  · cases hheld
  · obtain rfl := Option.some.inj hheld
    refine ⟨front ++ foreign, ?_, hword, front, foreign, _, name, columns, key, rfl, hforeign⟩
    rw [hrest, List.append_assoc]

/-- The same in what has been taken of a statement. -/
theorem Statement.followsForeignKey_of_takes {table : Table} {p : Body.Progress}
    {name : TableConstraint.OptionalName} {columns : List String} {key : ForeignKey}
    {before : List Token}
    (h : Takes (Statement.step limits) .start (before ++ [u])
      (.body table (.constraint p (.references name columns (.not key u))))) :
    FollowsForeignKey before u := by
  obtain ⟨header, opening, us, hus, -, -, hbody⟩ := Statement.behind_of_takes h
  obtain ⟨inner, rfl, hinner⟩ := Grammar.followsForeignKey_of_takes hbody
  have heq : before ++ [u] = (header ++ opening :: inner) ++ [u] := by simpa using hus
  obtain ⟨rfl, -⟩ := List.append_inj' heq rfl
  have happend := hinner.prepend (header ++ [opening])
  simpa using happend

end Grammar

-- ════════════════════════════════════════════════════════════════════════
-- Where a body begins
-- ════════════════════════════════════════════════════════════════════════

/-- The first token of the body of a statement. A bare `IF` that names the table has no body behind
    it. -/
def BeginsBody (sql : String) (t : Token) : Prop :=
  ∃ header opening, Statement.Header header ∧ ¬Statement.NamesTableIf header ∧
    opening.kind = .leftParen ∧ StandsBehind sql (header ++ [opening]) t

section

variable {limits : Limits} {sql : String} {before rest : List Token} {t u : Token}

/-- A body begins with no constraint where no opening parenthesis has a word of one behind it. -/
theorem start?_of_beginsBody {ts : List Token} (htokens : tokenize sql.toList = .ok ts)
    (hts : ts.IsChain fun opening t => opening.kind = .leftParen → TableConstraint.start? t = none)
    (h : BeginsBody sql t) : TableConstraint.start? t = none := by
  obtain ⟨header, opening, -, -, hopening, ht⟩ := h
  by_cases hend : t.kind = .endOfInput
  · simp [TableConstraint.start?, hend]
  · obtain ⟨vs, rfl⟩ := ht.mem_of_tokenize htokens hend
    rw [List.append_assoc, List.singleton_append] at hts
    exact List.isChain_iff_forall_rel_of_append_cons_cons.1 hts rfl hopening

/-- A body that begins with no constraint has a column where it may end. -/
theorem hasColumn_of_takes {s : Statement.State}
    (hbegins : ∀ t, BeginsBody sql t → TableConstraint.start? t = none)
    (ht : StandsBehind sql before t) (h : Takes (Statement.step limits) .start before s) :
    s.HasColumn := by
  cases s with
  | body table body =>
    intro p hp
    obtain ⟨header, opening, us, rfl, hheader, hopening, hbody⟩ := Statement.behind_of_takes h
    obtain ⟨hhead, hcolumns⟩ := (Body.begun_of_takes hbody).of_progress hp
    obtain ⟨rest, rfl⟩ := List.head?_eq_some_iff.1 hhead
    have hif : ¬Statement.NamesTableIf header := by
      have hsettled : Statement.IfSettled (header ++ opening :: p.first :: rest) :=
        Statement.nameSettled_of_takes h
      exact fun hnames => hsettled.not_namesTableIf (hnames.append (by simp [hopening]) _)
    rw [List.append_cons] at ht
    exact hcolumns (hbegins p.first ⟨header, opening, hheader, hif, hopening, ht.front⟩)
  | _ => trivial

-- ════════════════════════════════════════════════════════════════════════
-- Tokens that some statement begins with
-- ════════════════════════════════════════════════════════════════════════

/-- Some statement that is parsed under some limits begins with tokens of the same kinds and
    texts. -/
def Viable (ts : List Token) : Prop :=
  ∃ limits sql table us vs, parse limits sql = .ok table ∧
    tokenize sql.toList = .ok (us ++ vs) ∧ List.Forall₂ Token.Alike ts us

/-- The text of tokens in a row, and words behind it, are read as the tokens and the words. -/
theorem Lexical.Cursor.Reads.tokenize_row {c : Cursor}
    (h : Cursor.Reads (.ofText sql.toList) before c) (ws : List Word) :
    ∃ us vs, tokenize (Token.row before ++ Word.row ws) = .ok (us ++ vs) ∧
      List.Forall₂ Token.Same before us ∧ List.Forall₂ Word.Fits ws vs := by
  obtain ⟨us, d, hus, hd, hsame⟩ := h.replace
    (d := .ofText (Token.row before ++ Word.row ws)) rfl ((Word.delimited_row ws).mayReplace _)
  have hrest : d.rest = [] ++ (Word.row ws ++ []) := by simp [hd]
  obtain ⟨vs, c', lead, hvs, hc', hlead, hfits⟩ := (Word.writes_row ws).reads hrest .nil .nil
  rw [List.append_nil] at hc'
  obtain ⟨e, he⟩ := Cursor.atEnd_of_closed (hc' ▸ hlead)
  exact ⟨us, vs, tokenize_eq_ok.2 ⟨c', e, hus.append hvs, he⟩, hsame, hfits⟩

/-- What has been read begins a statement, if the reader can be completed. -/
theorem viable_of_completes {s : Statement.State} {ws : List Word} (ht : StandsBehind sql before t)
    (htakes : Takes (Statement.step limits) .start before s)
    (hws : Completes (Statement.step limits) .endOfInput anyResult s ws) : Viable before := by
  obtain ⟨c, -, hreads, -⟩ := ht
  obtain ⟨us, vs, htokens, hsame, hfits⟩ := hreads.tokenize_row ws
  let text := String.ofList (Token.row before ++ Word.row ws)
  -- the words are read behind the tokens that have been taken, and the reader is complete
  obtain ⟨table, -, haccepts⟩ := hws vs .ending hfits rfl
  obtain ⟨written, hadmits⟩ := (Statement.accepts_iff rfl).1 (htakes.accepts_append_iff.2 haccepts)
  have hlike : List.Forall₂ Token.Alike before us := hsame.imp fun _ _ h => h.1
  obtain ⟨written', table', hadmits'⟩ := hadmits.of_alike
    (List.rel_append hlike (Token.alike_refl vs))
  refine ⟨{ limits with maxSqlLength := text.utf8ByteSize }, text, table', us, vs, ?_, ?_, hlike⟩
  · rw [parse_eq_ok_iff_admits]
    exact ⟨le_rfl, us ++ vs, written', by simpa [text] using htokens, hadmits'⟩
  · simpa [text] using htokens

/-- Nothing that begins with the tokens is accepted. -/
def Barred (limits : Limits) (ts : List Token) : Prop :=
  ∀ rest last table, ¬Accepts (Statement.step limits) .start (ts ++ rest) last table

theorem Barred.append {ts : List Token} (h : Barred limits ts) (us : List Token) :
    Barred limits (ts ++ us) := by
  intro rest last table
  rw [List.append_assoc]
  exact h (us ++ rest) last table

theorem barred_of_refused {s : Statement.State} {e : ParseError}
    (h : Takes (Statement.step limits) .start before s)
    (ht : Statement.step limits s t = .refused e) : Barred limits (before ++ [t]) := by
  intro rest last table haccepts
  rw [List.append_assoc, h.accepts_append_iff] at haccepts
  obtain ⟨s', hs', -⟩ := haccepts
  cases hs'.symm.trans ht

theorem barred_of_stuck {s : Statement.State} (h : Takes (Statement.step limits) .start before s)
    (hs : Stuck (Statement.step limits) s) : Barred limits before := by
  intro rest last table haccepts
  rw [h.accepts_append_iff] at haccepts
  exact hs.not_accepts haccepts

/-- What is not accepted with any looser limits begins no statement. -/
theorem not_viable_of_barred (limits : Limits) {ts : List Token}
    (h : ∀ looser, limits ≤ looser → Barred looser ts) : ¬Viable ts := by
  rintro ⟨limits', other, table, us, vs, hparse, htokens, hlike⟩
  obtain ⟨looser, hle, hle'⟩ := Limits.exists_ge limits limits'
  obtain ⟨-, _, written, htokens', hadmits⟩ := parse_eq_ok_iff_admits.1 (parse_ok_of_le hparse hle')
  obtain rfl := Except.ok.inj (htokens.symm.trans htokens')
  obtain ⟨written', table', hadmits'⟩ := hadmits.of_alike
    (List.rel_append (Token.alike_symm hlike) (Token.alike_refl vs))
  exact h looser hle vs .ending table' ((Statement.accepts_iff rfl).2 ⟨written', hadmits'⟩)

-- ════════════════════════════════════════════════════════════════════════
-- The first point of failure
-- ════════════════════════════════════════════════════════════════════════

/-- Under some limits a text fails at the token `k`: the reader has taken what stands before it and
    can be completed there, and accepts nothing that goes on with the token, or with that and the
    next one. -/
structure Failure (limits : Limits) (sql : String) (before : List Token) (k : Token) : Prop where
  stands : StandsBehind sql before k
  taken : ∃ s, Takes (Statement.step limits) .start before s ∧ s.suspect? = none ∧ s.HasColumn
  barred : ¬FollowsForeignKey before k → Barred limits (before ++ [k])
  decided : ∀ next, StandsBehind sql (before ++ [k]) next → Barred limits (before ++ [k, next])

/-- Where a token is refused, the text fails at the token, or at the last one taken. -/
theorem exists_failure_of_refused {s : Statement.State} {e : ParseError}
    (hbegins : ∀ t, BeginsBody sql t → TableConstraint.start? t = none)
    (ht : StandsBehind sql before t) (h : Takes (Statement.step limits) .start before s)
    (hrefused : Statement.step limits s t = .refused e) :
    ∃ front k, e.offset = k.start ∧ Failure limits sql front k := by
  obtain ⟨u, cause, hblamed, rfl⟩ := (Statement.step_blames limits s t).blamed_of_refused hrefused
  have hcolumn := hasColumn_of_takes hbegins ht h
  have hbarred := barred_of_refused h hrefused
  obtain rfl := Statement.eq_of_blamed hblamed hcolumn
  cases hs : s.suspect? with
  | none =>
    refine ⟨before, t, rfl, ht, ⟨s, h, hs, hcolumn⟩, fun _ => hbarred, fun next _ => ?_⟩
    simpa using hbarred.append [next]
  | some word =>
    obtain ⟨front, n, rfl, hfront, hword⟩ := Statement.exists_last_of_suspect h hs
    refine ⟨front, word, rfl, ht.front, ⟨n, hfront, Statement.unsuspected_of_taken hword hs,
      hasColumn_of_takes hbegins ht.front hfront⟩, fun hforeign => ?_, fun next hnext => ?_⟩
    · obtain hstuck | ⟨table, p, name, columns, key, rfl⟩ := Statement.stuck_or_held limits hs
      · exact barred_of_stuck h hstuck
      · exact absurd (Statement.followsForeignKey_of_takes h) hforeign
    · obtain rfl := ht.eq hnext
      simpa using hbarred

/-- Where a text fails that is not refused for a limit. -/
theorem exists_failure_of_parse {ts : List Token} {e : ParseError}
    (htokens : tokenize sql.toList = .ok ts)
    (hbegins : ∀ t, BeginsBody sql t → TableConstraint.start? t = none)
    (h : parse limits sql = .error e) (he : e.cause.kind ≠ .exhausted) :
    ∃ before k, e.offset = k.start ∧ Failure limits sql before k := by
  have hlength := length_le_of_not_exhausted (not_exhausted_of_error h he)
  obtain ⟨us, t, s, ht, htakes, hrefused⟩ := refused_of_tokenize hlength htokens h
  exact exists_failure_of_refused hbegins ht htakes hrefused

/-- The tokens before a failure begin a statement. -/
theorem Failure.viable {k : Token} (h : Failure limits sql before k)
    (hlimit : limits.maxColumns ≠ 0) : Viable before := by
  obtain ⟨s, htakes, hs, hcolumn⟩ := h.taken
  exact viable_of_completes h.stands htakes (Statement.completes hs hlimit hcolumn)

/-- No statement goes on with the token `k` behind `before`, though some statements begin with what
    stands before it. -/
structure FailsAt (sql : String) (before : List Token) (k : Token) : Prop where
  stands : StandsBehind sql before k
  /-- What stands before the token can be completed. -/
  viable : Viable before
  /-- With the token it cannot, unless the token is a `NOT` behind a foreign key of the table. -/
  failed : ¬FollowsForeignKey before k → ¬Viable (before ++ [k])
  /-- With the token and the next one it cannot in any case. -/
  decided : ∀ next, StandsBehind sql (before ++ [k]) next → ¬Viable (before ++ [k, next])
  /-- The text is never parsed, also where it ends at the place. -/
  rejected : ∀ limits table, parse limits sql ≠ .ok table

/-- In a text without a fault, whose body does not begin with a constraint, an error that is not
    about a limit stands at the first point of failure. -/
theorem failsAt_of_parse {ts : List Token} {e : ParseError}
    (htokens : tokenize sql.toList = .ok ts)
    (hbegins : ∀ t, BeginsBody sql t → TableConstraint.start? t = none)
    (h : parse limits sql = .error e) (he : e.cause.kind ≠ .exhausted) :
    ∃ before k, e.offset = k.start ∧ FailsAt sql before k := by
  obtain ⟨roomy, hle, hdefault⟩ := Limits.exists_ge limits {}
  have hroomy := parse_error_of_le h he hle
  obtain ⟨before, k, hoffset, hfailure⟩ := exists_failure_of_parse htokens hbegins hroomy he
  have hlimit : roomy.maxColumns ≠ 0 := Nat.ne_of_gt (Nat.lt_of_lt_of_le (by decide) hdefault.2.1)
  -- with looser limits the text fails at the same place
  have hlooser : ∀ looser, roomy ≤ looser → Failure looser sql before k := by
    intro looser hle
    obtain ⟨before', k', hoffset', hfailure'⟩ :=
      exists_failure_of_parse htokens hbegins (parse_error_of_le hroomy he hle) he
    obtain ⟨rfl, rfl⟩ :=
      hfailure.stands.eq_of_start_eq hfailure'.stands (hoffset.symm.trans hoffset')
    exact hfailure'
  exact ⟨before, k, hoffset,
    { stands := hfailure.stands
      viable := hfailure.viable hlimit
      failed := fun hforeign =>
        not_viable_of_barred roomy fun looser hle => (hlooser looser hle).barred hforeign
      decided := fun next hnext =>
        not_viable_of_barred roomy fun looser hle => (hlooser looser hle).decided next hnext
      rejected := fun limits' table => parse_ne_ok_of_error h he }⟩

/-- An expression that holds nothing: its closing parenthesis is at fault, not what follows. -/
theorem failsAt_of_parse_empty :
    ∃ before k, k.start = 23 ∧ FailsAt "CREATE TABLE t(a CHECK())" before k := by
  have htokens : (tokenize "CREATE TABLE t(a CHECK())".toList).toOption = some
      [⟨.keyword .create, [], "CREATE".toList, 0⟩, ⟨.keyword .table, [' '], "TABLE".toList, 7⟩,
       ⟨.identifier, [' '], ['t'], 13⟩, ⟨.leftParen, [], ['('], 14⟩,
       ⟨.identifier, [], ['a'], 15⟩, ⟨.keyword .check, [' '], "CHECK".toList, 17⟩,
       ⟨.leftParen, [], ['('], 22⟩, ⟨.rightParen, [], [')'], 23⟩,
       ⟨.rightParen, [], [')'], 24⟩] := by decide +kernel
  have hrefused : error? (parse {} "CREATE TABLE t(a CHECK())") =
      some { cause := .expected .expression, offset := 23, token := some ")" } := by
    rw [parse_eq_run]
    decide +kernel
  obtain ⟨before, k, hoffset, hfails⟩ := failsAt_of_parse (eq_ok_of_toOption htokens)
    (fun _ => start?_of_beginsBody (eq_ok_of_toOption htokens) (by decide))
    (eq_error_of_error? hrefused) nofun
  exact ⟨before, k, hoffset.symm, hfails⟩

end

end CreateTable
