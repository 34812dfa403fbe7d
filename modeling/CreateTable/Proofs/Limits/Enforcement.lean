import CreateTable.Proofs.Grammar.Exactness
import CreateTable.Proofs.Lexical.Layout
import CreateTable.Proofs.Limits.Columns
import CreateTable.Proofs.Limits.Counting
import Mathlib.Logic.ExistsUnique

/-!
# Enforcing limits

What is parsed keeps to the limits, and what is refused for a limit exceeds just one of them, at the
place that the error gives.

## Main definitions

- `StandsBehind` — the tokens of a text before one of them, or before its end
- `Excess` — the three limits
- `Excess.At` — a limit is exceeded at the place of an error

## Main statements

- `within_of_parse` — what is parsed keeps to the limits
- `existsUnique_excess_of_parse` — what is refused for a limit exceeds one
-/

namespace CreateTable

open Grammar Lexical Text

variable {limits : Limits} {sql : String} {table : Table} {e : ParseError}

-- ════════════════════════════════════════════════════════════════════════
-- What is parsed
-- ════════════════════════════════════════════════════════════════════════

/-- What is parsed is no longer than allowed and has no more columns. No more parentheses of an
    expression are open at once than allowed, but one always is: the limit is kept if it is not
    zero, or if the statement holds no expression. -/
theorem within_of_parse (h : parse limits sql = .ok table) :
    sql.utf8ByteSize ≤ limits.maxSqlLength ∧ table.columns.length ≤ limits.maxColumns ∧
      ∃ ts, tokenize sql.toList = .ok ts ∧
        (∀ front, front <+: ts → opened front ≤ max 1 limits.maxExprDepth) ∧
        ((∀ front, front <+: ts → opened front ≤ limits.maxExprDepth) ↔
          1 ≤ limits.maxExprDepth ∨ ∀ front, front <+: ts → opened front = 0) := by
  obtain ⟨hlength, hrun⟩ := parse_eq_ok.1 h
  obtain ⟨ts, c, end', c', hts, hnext, haccepts⟩ := Reader.reads_of_runFrom hrun
  have hend := Statement.kind_of_accepts haccepts
  obtain ⟨-, -, hcolumns, -⟩ := (Statement.accepts_iff hend).1 haccepts
  obtain ⟨s, htakes, -⟩ := haccepts.takes
  have hopened : ∀ front, front <+: ts → opened front ≤ max 1 limits.maxExprDepth :=
    fun front => Statement.opened_le_of_takes htakes
  refine ⟨hlength, hcolumns, ts, tokenize_eq_ok.2 ⟨c, end', hts, c', hnext, hend⟩, hopened, ?_⟩
  constructor
  · intro hwithin
    by_cases hdepth : 1 ≤ limits.maxExprDepth
    · exact .inl hdepth
    · refine .inr fun front hfront => ?_
      have := hwithin front hfront
      omega
  · rintro (hdepth | hnone) front hfront
    · have := hopened front hfront
      omega
    · rw [hnone front hfront]
      exact Nat.zero_le _

/-- A statement with an expression, and the tightest limits that it keeps to. -/
theorem within_of_parse_check :
    ∃ table, parse { maxSqlLength := 28, maxColumns := 1, maxExprDepth := 2 }
        "CREATE TABLE t(a CHECK((x)))" = .ok table ∧ table.columns.length ≤ 1 ∧
      ∃ ts, tokenize "CREATE TABLE t(a CHECK((x)))".toList = .ok ts ∧
        ∀ front, front <+: ts → opened front ≤ 2 := by
  have hparsed : (parse { maxSqlLength := 28, maxColumns := 1, maxExprDepth := 2 }
      "CREATE TABLE t(a CHECK((x)))").toOption =
        some { name := "t", columns := [{ name := "a", check := some "(x)" }] } := by
    rw [parse_eq_run]
    decide +kernel
  obtain ⟨-, hcolumns, ts, htokens, hopened, -⟩ := within_of_parse (eq_ok_of_toOption hparsed)
  exact ⟨_, eq_ok_of_toOption hparsed, hcolumns, ts, htokens, hopened⟩

/-- No parenthesis is allowed, and the one that opens an expression is taken all the same. -/
theorem opened_of_parse_zero :
    ∃ table ts front, parse { maxExprDepth := 0 } "CREATE TABLE t(a CHECK(x))" = .ok table ∧
      tokenize "CREATE TABLE t(a CHECK(x))".toList = .ok ts ∧ front <+: ts ∧ 0 < opened front := by
  have hparsed : (parse { maxExprDepth := 0 } "CREATE TABLE t(a CHECK(x))").toOption =
      some { name := "t", columns := [{ name := "a", check := some "x" }] } := by
    rw [parse_eq_run]
    decide +kernel
  have htokens : (tokenize "CREATE TABLE t(a CHECK(x))".toList).toOption = some
      [⟨.keyword .create, [], "CREATE".toList, 0⟩, ⟨.keyword .table, [' '], "TABLE".toList, 7⟩,
       ⟨.identifier, [' '], ['t'], 13⟩, ⟨.leftParen, [], ['('], 14⟩,
       ⟨.identifier, [], ['a'], 15⟩, ⟨.keyword .check, [' '], "CHECK".toList, 17⟩,
       ⟨.leftParen, [], ['('], 22⟩, ⟨.identifier, [], ['x'], 23⟩, ⟨.rightParen, [], [')'], 24⟩,
       ⟨.rightParen, [], [')'], 25⟩] := by decide +kernel
  refine ⟨_, _, _, eq_ok_of_toOption hparsed, eq_ok_of_toOption htokens, List.take_prefix 7 _, ?_⟩
  decide

-- ════════════════════════════════════════════════════════════════════════
-- What is refused
-- ════════════════════════════════════════════════════════════════════════

/-- The tokens of a text up to one of them, or up to its end. -/
def StandsBehind (sql : String) (before : List Token) (t : Token) : Prop :=
  ∃ c c', Cursor.Reads (.ofText sql.toList) before c ∧ c.next = (.ok t, c')

/-- The limits that a text may exceed. -/
inductive Excess where
  /-- The statement is too long. -/
  | length
  /-- The table has too many columns. -/
  | columns
  /-- An expression has too many parentheses open. -/
  | depth
  deriving Repr, DecidableEq

/-- A limit is exceeded where an error says so. -/
def Excess.At (limits : Limits) (sql : String) (e : ParseError) : Excess → Prop
  | .length =>
    limits.maxSqlLength < sql.utf8ByteSize ∧
      IsGreatest {n | IsBoundary sql.toList n ∧ n ≤ limits.maxSqlLength} e.offset ∧
      e.token = none
  | .columns =>
    sql.utf8ByteSize ≤ limits.maxSqlLength ∧
      ∃ header opening columns t, StandsBehind sql (header ++ opening :: columns) t ∧
        e.offset = t.start ∧ Statement.Header header ∧ opening.kind = .leftParen ∧
        Body.LeadingColumns limits.maxExprDepth columns limits.maxColumns ∧
        (∀ word ∈ [Keyword.constraint, .primary, .unique, .check, .foreign],
          t.kind ≠ .keyword word) ∧
        (t.kind = .rightParen → limits.maxColumns = 0)
  | .depth =>
    sql.utf8ByteSize ≤ limits.maxSqlLength ∧
      ∃ before t, StandsBehind sql before t ∧ e.offset = t.start ∧ t.kind = .leftParen ∧
        opened before = limits.maxExprDepth ∧
        ∀ front, front <+: before → opened front ≤ limits.maxExprDepth

theorem StandsBehind.eq_of_start_eq {before before' : List Token} {t t' : Token}
    (h : StandsBehind sql before t) (h' : StandsBehind sql before' t')
    (hstart : t.start = t'.start) : before = before' ∧ t = t' := by
  obtain ⟨c, d, hbefore, hnext⟩ := h
  obtain ⟨c', d', hbefore', hnext'⟩ := h'
  exact hbefore.eq_of_start_eq hbefore' hnext hnext' hstart

theorem kind_of_next_error {c c' : Cursor} (h : c.next = (.error e, c')) :
    e.cause.kind = .malformed := by
  obtain ⟨fault, -, rfl, -⟩ := Cursor.fault_of_next h
  rfl

/-- What begins no table constraint is none of the words that do. -/
theorem kind_ne_keyword_of_start? {t : Token} (h : TableConstraint.start? t = none) :
    ∀ word ∈ [Keyword.constraint, .primary, .unique, .check, .foreign],
      t.kind ≠ .keyword word := by
  intro word hword hkind
  simp only [List.mem_cons, List.not_mem_nil, or_false] at hword
  obtain rfl | rfl | rfl | rfl | rfl := hword <;>
    simp [TableConstraint.start?, TableConstraint.rule?, hkind] at h

namespace Grammar

theorem Statement.isCue_of_tableWords {ts : List Token} (h : Statement.TableWords ts) :
    ∀ t ∈ ts, t.kind.isCue = false := by
  obtain ⟨hcreate, htemps, hword⟩ := h
  cases htemps with
  | absent => simp [hcreate, hword, TokenKind.isCue]
  | present htemp => obtain htemp | htemp := htemp <;> simp [hcreate, htemp, hword, TokenKind.isCue]

theorem Statement.isCue_of_ifNotExists {ts : List Token} {ifNotExists : Bool}
    (h : Statement.IfNotExists ts ifNotExists) : ∀ t ∈ ts, t.kind.isCue = false := by
  cases h with
  | absent => simp
  | present hif hnot hexists => simp [hif, hnot, hexists, TokenKind.isCue]

theorem Statement.isCue_of_tableName {ts : List Token} {schema : Option String} {name : String}
    (h : Statement.TableName ts schema name) : ∀ t ∈ ts, t.kind.isCue = false := by
  cases h with
  | plain hname => simp [Token.isCue_of_name? hname]
  | @qualified _ dot _ _ _ hschema hdot hname =>
    have hcue : dot.kind.isCue = false := by
      rw [hdot]
      rfl
    simp [Token.isCue_of_name? hschema, Token.isCue_of_name? hname, hcue]

/-- Nothing before a body has to do with expressions. -/
theorem Statement.isCue_of_header {ts : List Token} (h : Statement.Header ts) :
    ∀ t ∈ ts, t.kind.isCue = false := by
  obtain ⟨hwords, hifs, hnames⟩ := h
  rw [List.forall_mem_append, List.forall_mem_append]
  exact ⟨⟨isCue_of_tableWords hwords, isCue_of_ifNotExists hifs⟩, isCue_of_tableName hnames⟩

/-- A whole column leaves off outside of expressions. -/
theorem Column.foldl_next_of_derives {ts : List Token} {w : WrittenColumn} {comma : Token}
    (h : Column.Derives limits.maxExprDepth ts w) (hcomma : comma.kind = .comma) :
    ts.foldl Nesting.next .outside = .outside := by
  obtain ⟨t, us, rfl, hname, haccepts⟩ : ∃ t us, ts = t :: us ∧ t.name? = some w.name ∧
      Accepts (Column.step limits) (.ofName w.name) us comma w.column :=
    Column.accepts_of_derives h (.inl hcomma)
  obtain ⟨s, htakes, hcomplete⟩ := haccepts.takes
  have hnesting := (htakes.follows fun s _ => Column.step_follows s).1
  rw [(Column.step_follows s).outside_of_complete hcomplete] at hnesting
  rw [List.foldl_cons, Nesting.next_outside (Token.isCue_of_name? hname)]
  exact hnesting.symm

/-- Whole columns leave off outside of expressions. -/
theorem Body.foldl_next_of_leadingColumns {ts : List Token} {count : Nat}
    (h : Body.LeadingColumns limits.maxExprDepth ts count) :
    ts.foldl Nesting.next .outside = .outside := by
  induction h with
  | nil => rfl
  | snoc _ hcolumn hcomma ih =>
    rw [List.foldl_append, List.foldl_append, ih, Column.foldl_next_of_derives hcolumn hcomma,
      List.foldl_cons, List.foldl_nil, Nesting.next_outside (by rw [hcomma]; rfl)]

end Grammar

/-- No parenthesis of an expression is open where a column may begin. -/
theorem opened_of_leadingColumns {header columns : List Token} {opening : Token} {count : Nat}
    (hheader : Statement.Header header) (hopening : opening.kind = .leftParen)
    (hcolumns : Body.LeadingColumns limits.maxExprDepth columns count) :
    opened (header ++ opening :: columns) = 0 := by
  have hbehind : Nesting.behind (header ++ opening :: columns) = .outside := by
    rw [Nesting.behind, List.foldl_append,
      Nesting.foldl_next_outside (Statement.isCue_of_header hheader), List.foldl_cons,
      Nesting.next_outside (by rw [hopening]; rfl), Body.foldl_next_of_leadingColumns hcolumns]
  rw [opened, hbehind]
  rfl

-- ════════════════════════════════════════════════════════════════════════
-- Which limit is exceeded
-- ════════════════════════════════════════════════════════════════════════

/-- One more column, where a body has as many as it may have. -/
theorem Excess.columns_of_exceeds {header us : List Token} {opening t : Token} {p : Body.Progress}
    (hlength : sql.utf8ByteSize ≤ limits.maxSqlLength)
    (hbefore : StandsBehind sql (header ++ opening :: us) t) (hheader : Statement.Header header)
    (hopening : opening.kind = .leftParen) (hcounts : Body.Counts limits p us)
    (h : p.Exceeds limits t e) : Excess.At limits sql e .columns := by
  obtain ⟨hroom, -, hstart, hclose, rfl⟩ := h
  obtain ⟨hleading, hcount⟩ := hcounts
  have hfull : p.columns.length = limits.maxColumns := by omega
  rw [hfull] at hleading
  refine ⟨hlength, header, opening, us, t, hbefore, rfl, hheader, hopening, hleading,
    kind_ne_keyword_of_start? hstart, fun hkind => ?_⟩
  rw [← hfull, hclose hkind]
  rfl

/-- One more parenthesis, where an expression has as many open as it may have. -/
theorem Excess.depth_of_exceeds {before : List Token} {s : Statement.State} {t : Token}
    (hlength : sql.utf8ByteSize ≤ limits.maxSqlLength) (hdepth : 1 ≤ limits.maxExprDepth)
    (hbefore : StandsBehind sql before t) (htakes : Takes (Statement.step limits) .start before s)
    (h : Grammar.Exceeds limits s.nesting t e) : Excess.At limits sql e .depth := by
  obtain ⟨hkind, -, hfull, rfl⟩ := h
  have hopened : s.nesting.opened = opened before :=
    congrArg Nesting.opened (Statement.nesting_of_takes htakes)
  have hbound := Statement.opened_le_of_takes htakes (List.prefix_refl _)
  refine ⟨hlength, before, t, hbefore, rfl, hkind, by omega, fun front hfront => ?_⟩
  have := Statement.opened_le_of_takes htakes hfront
  omega

/-- A token that is refused for a limit is one more column or one more parenthesis. -/
theorem excess_of_exceeds {before : List Token} {s : Statement.State} {t : Token}
    (hlength : sql.utf8ByteSize ≤ limits.maxSqlLength) (hdepth : 1 ≤ limits.maxExprDepth)
    (hbefore : StandsBehind sql before t) (htakes : Takes (Statement.step limits) .start before s)
    (h : s.Exceeds limits t e) : ∃ excess, Excess.At limits sql e excess := by
  obtain ⟨table, body, rfl, hexceeds⟩ := h
  obtain ⟨header, opening, us, rfl, hheader, hopening, hbody⟩ := Statement.behind_of_takes htakes
  have hbehind := Body.behind_of_takes hbody
  have hcolumns := fun p hcounts =>
    Excess.columns_of_exceeds (p := p) (e := e) hlength hbefore hheader hopening hcounts
  have hparens := Excess.depth_of_exceeds (e := e) hlength hdepth hbefore htakes
  cases body with
  | start =>
    obtain rfl := hbehind
    exact ⟨.columns, hcolumns _ ⟨.nil, Nat.add_zero _⟩ hexceeds⟩
  | item p => exact ⟨.columns, hcolumns p (hbehind hexceeds.2.1) hexceeds⟩
  | column p column => exact ⟨.depth, hparens hexceeds⟩
  | constraint p constraint => exact ⟨.depth, hparens hexceeds⟩
  | closed items => exact ⟨.depth, hparens hexceeds⟩

/-- What is refused for a limit exceeds one where the error says so. -/
theorem exists_excess_of_error (hdepth : 1 ≤ limits.maxExprDepth)
    (h : parse limits sql = .error e) (he : e.cause.kind = .exhausted) :
    ∃ excess, Excess.At limits sql e excess := by
  by_cases hlength : sql.utf8ByteSize ≤ limits.maxSqlLength
  · rw [parse_of_length_le hlength] at h
    obtain ⟨before, c, s, hreads, htakes, ⟨c', hnext⟩ | ⟨t, c', hnext, hrefused⟩⟩ :=
      Reader.takes_of_runFrom_error h
    · rw [kind_of_next_error hnext] at he
      cases he
    · have hexceeds := (Statement.step_follows s).exceeds_of_refused hrefused he
      exact excess_of_exceeds hlength hdepth ⟨c, c', hreads, hnext⟩ htakes hexceeds
  · have hlong := Nat.not_le.1 hlength
    rw [parse_of_lt_length hlong] at h
    obtain rfl := Except.error.inj h
    exact ⟨.length, hlong, isGreatest_splitAtByte _ _, rfl⟩

/-- A parenthesis of an expression is open before one place, and none before the other. -/
theorem Excess.not_depth_of_columns (hdepth : 1 ≤ limits.maxExprDepth)
    (h : Excess.At limits sql e .columns) : ¬Excess.At limits sql e .depth := by
  obtain ⟨-, header, opening, columns, t, ht, hstart, hheader, hopening, hcolumns, -⟩ := h
  rintro ⟨-, before, u, hu, hstart', -, hopened, -⟩
  obtain ⟨rfl, -⟩ := ht.eq_of_start_eq hu (hstart.symm.trans hstart')
  rw [opened_of_leadingColumns hheader hopening hcolumns] at hopened
  omega

/-- No two limits are exceeded at one place. -/
theorem Excess.At.eq {excess other : Excess} (hdepth : 1 ≤ limits.maxExprDepth)
    (h : excess.At limits sql e) (hother : other.At limits sql e) : excess = other := by
  cases excess with
  | length =>
    have hlong := Nat.not_le.2 h.1
    cases other with
    | length => rfl
    | columns => exact absurd hother.1 hlong
    | depth => exact absurd hother.1 hlong
  | columns =>
    cases other with
    | length => exact absurd h.1 (Nat.not_le.2 hother.1)
    | columns => rfl
    | depth => exact absurd hother (not_depth_of_columns hdepth h)
  | depth =>
    cases other with
    | length => exact absurd h.1 (Nat.not_le.2 hother.1)
    | columns => exact absurd h (not_depth_of_columns hdepth hother)
    | depth => rfl

/-- What is refused for a limit exceeds just one of them where the error says so, if an expression
    may have a parenthesis at all. -/
theorem existsUnique_excess_of_parse (hdepth : 1 ≤ limits.maxExprDepth)
    (h : parse limits sql = .error e) (he : e.cause.kind = .exhausted) :
    ∃! excess, Excess.At limits sql e excess := by
  obtain ⟨excess, hexcess⟩ := exists_excess_of_error hdepth h he
  exact ⟨excess, hexcess, fun _ hother => hother.eq hdepth hexcess⟩

/-- A second column where one is allowed. -/
theorem existsUnique_excess_of_parse_column :
    ∃ e, parse { maxColumns := 1 } "CREATE TABLE t(a,b)" = .error e ∧ e.offset = 17 ∧
      ∃! excess, Excess.At { maxColumns := 1 } "CREATE TABLE t(a,b)" e excess := by
  have hrefused : error? (parse { maxColumns := 1 } "CREATE TABLE t(a,b)") =
      some { cause := .tooManyColumns 1, offset := 17, token := some "b" } := by
    rw [parse_eq_run]
    decide +kernel
  have h := eq_error_of_error? hrefused
  exact ⟨_, h, rfl, existsUnique_excess_of_parse (by decide) h rfl⟩

end CreateTable
