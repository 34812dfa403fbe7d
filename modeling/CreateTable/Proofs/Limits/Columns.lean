import CreateTable.Proofs.Grammar.Statement
import CreateTable.Proofs.Stopping

/-!
# The columns that have been read

What stands before a place in a statement where a column may begin: the header of the statement,
the opening parenthesis, and whole columns, each with a comma behind it.

## Main definitions

- `Statement.Header` — the rule for what stands before a body
- `Body.LeadingColumns` — the rule for columns that others may follow
- `Body.Behind`, `Statement.Behind` — what has been taken in each state of the readers

## Main statements

- `Body.behind_of_takes` — a reader of bodies counts the columns that it has taken
- `Statement.behind_of_takes` — what has been taken of a statement
-/

namespace CreateTable.Grammar

variable {limits : Limits} {t : Token} {ts : List Token}

-- ════════════════════════════════════════════════════════════════════════
-- Bodies
-- ════════════════════════════════════════════════════════════════════════

namespace Body

/-- `{column ','}`, and how many columns there are. -/
inductive LeadingColumns (depth : Nat) : List Token → Nat → Prop
  | nil : LeadingColumns depth [] 0
  | snoc {ts us : List Token} {comma : Token} {count : Nat} {column : WrittenColumn} :
    LeadingColumns depth ts count → Column.Derives depth us column → comma.kind = .comma →
    LeadingColumns depth (ts ++ us ++ [comma]) (count + 1)

/-- The columns that have been taken, and the room that is left for more. -/
def Counts (limits : Limits) (p : Progress) (ts : List Token) : Prop :=
  LeadingColumns limits.maxExprDepth ts p.columns.length ∧
    p.room + p.columns.length = limits.maxColumns

/-- What has been taken of a body. Behind a constraint no column can follow. -/
def Behind (limits : Limits) (ts : List Token) : State → Prop
  | .start => ts = []
  | .item p => p.constraints = [] → Counts limits p ts
  | .column p column =>
    p.constraints = [] ∧ 0 < p.room ∧ ∃ us t vs name, ts = us ++ t :: vs ∧ Counts limits p us ∧
      t.name? = some name ∧ Takes (Column.step limits) (.ofName name) vs column
  | .constraint _ _ | .closed _ => True

variable {p : Progress} {s s' : State}

/-- What an item begins with. -/
theorem behind_item (hp : p.constraints = [] → Counts limits p ts)
    (h : item limits p t = .taken s) : Behind limits (ts ++ [t]) s := by
  obtain ⟨-, -, rfl⟩ | ⟨inner, -, rfl⟩ | ⟨hconstraints, hroom, name, hname, rfl⟩ := item_eq_taken h
  · trivial
  · trivial
  · exact ⟨hconstraints, hroom, ts, t, [], name, rfl, hp hconstraints, hname, rfl⟩

/-- What follows an item: a comma, or the end of the body. -/
theorem behind_afterColumn (hp : t.kind = .comma → p.constraints = [] →
    Counts limits p (ts ++ [t])) (h : afterColumn p t = .taken s) :
    Behind limits (ts ++ [t]) s := by
  unfold afterColumn at h
  split at h
  · rename_i hcomma
    obtain rfl := Verdict.taken.inj h
    exact hp hcomma
  · obtain ⟨-, -, rfl⟩ := finish_eq_taken h
    trivial

/-- A whole column is one more. -/
theorem Counts.addColumn {us vs : List Token} {name : String} {column : CreateTable.Column}
    {comma : Token} (h : Counts limits p us) (hroom : 0 < p.room) (hname : t.name? = some name)
    (hcolumn : Accepts (Column.step limits) (.ofName name) vs comma column)
    (hcomma : comma.kind = .comma) :
    Counts limits (p.addColumn column) (us ++ t :: vs ++ [comma]) := by
  have hdue := Column.isResidual.of_accepts hcolumn
  obtain ⟨w, hderives, -⟩ := Column.derives_of_residual hname hdue
  obtain ⟨hleading, hcount⟩ := h
  refine ⟨hleading.snoc hderives hcomma, ?_⟩
  simp only [Progress.addColumn, List.length_cons]
  omega

theorem behind_step (h : Behind limits ts s) (hstep : step limits s t = .taken s') :
    Behind limits (ts ++ [t]) s' := by
  cases s with
  | start =>
    obtain rfl := h
    exact behind_item (fun _ => ⟨.nil, Nat.add_zero _⟩) hstep
  | item p => exact behind_item h hstep
  | column p column =>
    obtain ⟨hconstraints, hroom, us, u, vs, name, rfl, hcounts, hname, htakes⟩ := h
    obtain ⟨column', htaken, rfl⟩ | ⟨c, hcomplete, hafter⟩ := Verdict.andThen_eq_taken.1 hstep
    · refine ⟨hconstraints, hroom, us, u, vs ++ [t], name, ?_, hcounts, hname, htakes.snoc htaken⟩
      rw [List.append_assoc, List.cons_append]
    · refine behind_afterColumn (fun hcomma _ => ?_) hafter
      exact hcounts.addColumn hroom hname (htakes.accepts hcomplete) hcomma
  | constraint p constraint =>
    obtain ⟨_, -, rfl⟩ | ⟨r, -, hafter⟩ := Verdict.andThen_eq_taken.1 hstep
    · trivial
    · split at hafter
      · unfold afterConstraint at hafter
        split at hafter
        · obtain rfl := Verdict.taken.inj hafter
          trivial
        · exact behind_afterColumn (fun _ hnil => absurd hnil (List.cons_ne_nil _ _)) hafter
      · unfold requireColumn at hafter
        split at hafter
        · cases hafter
        · exact absurd hafter (Token.refuse_ne_taken _ _ _)
  | closed items => cases hstep

/-- A reader of bodies counts the columns that it has taken. -/
theorem behind_of_takes (h : Takes (step limits) .start ts s) : Behind limits ts s :=
  h.invariant (Behind limits) rfl fun _ _ _ _ => behind_step

end Body

-- ════════════════════════════════════════════════════════════════════════
-- Statements
-- ════════════════════════════════════════════════════════════════════════

namespace Statement

/-- `CREATE [TEMP | TEMPORARY] TABLE` -/
inductive TableWords : List Token → Prop
  | intro {create word : Token} {temps : List Token} {temporary : Bool} :
    create.kind = .keyword .create → Temporary temps temporary → word.kind = .keyword .table →
    TableWords (create :: temps ++ [word])

/-- `CREATE [TEMP | TEMPORARY] TABLE [IF NOT EXISTS] name ['.' name]` -/
inductive Header : List Token → Prop
  | intro {words ifs names : List Token} {ifNotExists : Bool} {schema : Option String}
      {name : String} :
    TableWords words → IfNotExists ifs ifNotExists → TableName names schema name →
    Header (words ++ ifs ++ names)

/-- `CREATE [TEMP | TEMPORARY] TABLE [IF NOT EXISTS]`, where a name is due. -/
def NameBehind (ts : List Token) : Prop :=
  ∃ words ifs ifNotExists, ts = words ++ ifs ∧ TableWords words ∧ IfNotExists ifs ifNotExists

/-- What has been taken of a statement, up to its body. -/
def Behind (limits : Limits) (ts : List Token) : State → Prop
  | .start => ts = []
  | .created => ∃ create, ts = [create] ∧ create.kind = .keyword .create
  | .temporary =>
    ∃ create temps, ts = create :: temps ∧ create.kind = .keyword .create ∧ Temporary temps true
  | .table _ => TableWords ts
  | .ifWord _ => ∃ words word, ts = words ++ [word] ∧ TableWords words ∧ word.kind = .keyword .if
  | .ifNot _ =>
    ∃ words word not, ts = words ++ [word, not] ∧ TableWords words ∧ word.kind = .keyword .if ∧
      not.kind = .keyword .not
  | .name _ => NameBehind ts
  | .named _ _ => ∃ us t name, ts = us ++ [t] ∧ NameBehind us ∧ t.name? = some name
  | .qualified _ =>
    ∃ us t dot name, ts = us ++ [t, dot] ∧ NameBehind us ∧ t.name? = some name ∧ dot.kind = .dot
  | .bodyOpen _ => Header ts
  | .body _ body =>
    ∃ header opening us, ts = header ++ opening :: us ∧ Header header ∧
      opening.kind = .leftParen ∧ Takes (Body.step limits) .start us body
  | _ => True

variable {table : Table} {s s' : State}

theorem TableWords.nameBehind (h : TableWords ts) : NameBehind ts :=
  ⟨ts, [], false, (List.append_nil _).symm, h, .absent⟩

theorem header_of_nameBehind {names : List Token} {schema : Option String} {name : String}
    (h : NameBehind ts) (hnames : TableName names schema name) : Header (ts ++ names) := by
  obtain ⟨words, ifs, ifNotExists, rfl, hwords, hifs⟩ := h
  exact .intro hwords hifs hnames

theorem BeginsOption.behind (h : BeginsOption table t s) : Behind limits ts s := by
  cases h <;> trivial

theorem behind_step (h : Behind limits ts s) (hstep : step limits s t = .taken s') :
    Behind limits (ts ++ [t]) s' := by
  cases transition_of_taken hstep with
  | create hcreate =>
    obtain rfl := h
    exact ⟨t, rfl, hcreate⟩
  | temporary ht =>
    obtain ⟨create, rfl, hcreate⟩ := h
    exact ⟨create, [t], rfl, hcreate, .present ht⟩
  | tableWord hword =>
    obtain ⟨create, rfl, hcreate⟩ := h
    exact .intro hcreate .absent hword
  | temporaryTable hword =>
    obtain ⟨create, temps, rfl, hcreate, htemps⟩ := h
    exact .intro hcreate htemps hword
  | ifWord hif => exact ⟨ts, t, rfl, h, hif⟩
  | notWord hnot =>
    obtain ⟨words, word, rfl, hwords, hword⟩ := h
    exact ⟨words, word, t, List.append_assoc .., hwords, hword, hnot⟩
  | existsWord hexists =>
    obtain ⟨words, word, not, rfl, hwords, hword, hnot⟩ := h
    exact ⟨words, _, true, List.append_assoc .., hwords, .present hword hnot hexists⟩
  | @nameOrSchema _ name _ hname => exact ⟨ts, t, name, rfl, h.nameBehind, hname⟩
  | @nameBehindExists _ name hname => exact ⟨ts, t, name, rfl, h, hname⟩
  | dot hdot =>
    obtain ⟨us, u, schema, rfl, hus, hschema⟩ := h
    exact ⟨us, u, t, schema, List.append_assoc .., hus, hschema, hdot⟩
  | nameBehindSchema hname =>
    obtain ⟨us, u, dot, schema, rfl, hus, hschema, hdot⟩ := h
    rw [List.append_assoc]
    exact header_of_nameBehind hus (.qualified hschema hdot hname)
  | opening hopening =>
    obtain ⟨us, u, name, rfl, hus, hname⟩ := h
    exact ⟨us ++ [u], t, [], rfl, header_of_nameBehind hus (.plain hname), hopening, rfl⟩
  | openingBehindSchema hopening => exact ⟨ts, t, [], rfl, h, hopening, rfl⟩
  | body hbody =>
    obtain ⟨header, opening, us, rfl, hheader, hopening, hus⟩ := h
    refine ⟨header, opening, us ++ [t], ?_, hheader, hopening, hus.snoc hbody⟩
    rw [List.append_assoc, List.cons_append]
  | firstOption _ hoption => exact hoption.behind
  | nextOption hoption => exact hoption.behind
  | bodyEnd | rowid | comma | optionsEnd | semicolon => trivial

/-- What has been taken of a statement. -/
theorem behind_of_takes (h : Takes (step limits) .start ts s) : Behind limits ts s :=
  h.invariant (Behind limits) rfl fun _ _ _ _ => behind_step

end Statement

end CreateTable.Grammar
