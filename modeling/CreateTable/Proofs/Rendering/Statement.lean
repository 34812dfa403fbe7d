import CreateTable.Proofs.Grammar.Statement
import CreateTable.Proofs.Rendering.Column
import CreateTable.Proofs.Rendering.TableConstraint

/-!
# Statements as they are written

A table that can be written is read back from its statement.

## Main statements

- `Writes.body` — columns and constraints in parentheses
- `Writes.statement` — a statement is read as one that declares the table
- `tokenize_render` — the grammar derives a table from the tokens of its statement
-/

namespace CreateTable

open Grammar Lexical

variable {depth : Nat}

namespace Writes

theorem moreColumns {columns : List CreateTable.Column} (h : ∀ c ∈ columns, c.WellFormed depth) :
    Writes (listed (columns.map Column.render)) fun ts =>
      ∃ ws, Body.MoreColumns depth ts ws ∧ ws.map WrittenColumn.column = columns := by
  induction columns with
  | nil => exact nil.mono fun ts hts => ⟨[], hts ▸ .nil, rfl⟩
  | cons c columns ih =>
    rw [List.forall_mem_cons] at h
    have hcolumn := (column h.1).append (ih h.2) (delimited_listed _)
    refine hcolumn.space.comma.mono ?_
    rintro _ ⟨_, _, rfl, ⟨comma, rfl, hcomma⟩, ts, rest, rfl, ⟨w, hw, rfl⟩, ws, hws, rfl⟩
    exact ⟨w :: ws, by simpa using Body.MoreColumns.cons hcomma hw hws, rfl⟩

theorem moreConstraints {constraints : List CreateTable.TableConstraint}
    (h : ∀ c ∈ constraints, c.rule.WellFormed depth) :
    Writes (listed (constraints.map TableConstraint.render))
      (Body.MoreConstraints depth · constraints) := by
  induction constraints with
  | nil => exact nil.mono fun ts hts => hts ▸ .nil
  | cons c constraints ih =>
    rw [List.forall_mem_cons] at h
    have hconstraint := (tableConstraint h.1).append (ih h.2) (delimited_listed _)
    refine hconstraint.space.comma.mono ?_
    rintro _ ⟨_, _, rfl, ⟨comma, rfl, hcomma⟩, ts, rest, rfl, hts, hrest⟩
    simpa using Body.MoreConstraints.cons (.present hcomma) hts hrest

theorem constraintsOfTable {constraints : List CreateTable.TableConstraint}
    (h : ∀ c ∈ constraints, c.rule.WellFormed depth) :
    Writes (listed (constraints.map TableConstraint.render))
      (Body.Constraints depth · constraints) := by
  cases constraints with
  | nil => exact nil.mono fun ts hts => hts ▸ .absent
  | cons c constraints =>
    rw [List.forall_mem_cons] at h
    have hconstraint := (tableConstraint h.1).append (moreConstraints h.2) (delimited_listed _)
    refine hconstraint.space.comma.mono ?_
    rintro _ ⟨_, _, rfl, ⟨comma, rfl, hcomma⟩, ts, rest, rfl, hts, hrest⟩
    simpa using Body.Constraints.present hcomma hts hrest

end Writes

theorem Table.toList_renderBody {t : Table} {c : Column} {columns : List Column}
    (h : t.columns = c :: columns) :
    t.renderBody.toList = c.render.toList ++ (listed (columns.map Column.render) ++
      listed (t.constraints.map TableConstraint.render)) := by
  have hjoin : (String.join (t.constraints.map fun c => ", " ++ c.render)).toList =
      listed (t.constraints.map TableConstraint.render) := by
    rw [String.toList_join]
    unfold listed
    rw [List.flatMap_map, List.flatMap_map]
    simp only [String.toList_append]
    rfl
  rw [renderBody, h, List.map_cons, String.toList_append, toList_renderList_cons, hjoin,
    List.append_assoc]

/-- Columns and constraints in parentheses. -/
theorem Writes.body {t : Table} (h : t.WellFormed depth) :
    Writes ("(" ++ t.renderBody ++ ")").toList fun ts =>
      ∃ opening inner closing ws, ts = opening :: inner ++ [closing] ∧ opening.kind = .leftParen ∧
        Body.Derives depth inner ws t.constraints ∧ closing.kind = .rightParen ∧
        ws.map WrittenColumn.column = t.columns := by
  obtain ⟨c, columns, hcolumns⟩ := List.exists_cons_of_ne_nil h.columns_ne_nil
  have hall := h.columns
  rw [hcolumns, List.forall_mem_cons] at hall
  have hitems := (column hall.1).append
    ((moreColumns hall.2).append (constraintsOfTable h.constraints) (delimited_listed _))
    ((delimited_listed _).append (delimited_listed _))
  have hclosed := (hitems.append (rightParen nil) (.cons (by decide) _)).leftParen
  rw [String.toList_append, String.toList_append, Table.toList_renderBody hcolumns]
  refine hclosed.mono ?_
  rintro _ ⟨_, _, rfl, ⟨opening, rfl, hopening⟩, _, _, rfl, ⟨ts, _, rfl, ⟨w, hw, rfl⟩, more, us,
    rfl, ⟨ws, hws, rfl⟩, hus⟩, _, _, rfl, ⟨closing, rfl, hclosing⟩, rfl⟩
  refine ⟨opening, _, closing, w :: ws, rfl, hopening, ?_, hclosing, hcolumns.symm⟩
  simpa using Body.Derives.intro hw hws hus .absent

-- ════════════════════════════════════════════════════════════════════════
-- Options
-- ════════════════════════════════════════════════════════════════════════

/-- The options of a table, in the order in which they are written. -/
def Table.options (t : Table) : List TableOption :=
  (if t.withoutRowid then [.withoutRowid] else []) ++ if t.strict then [.strict] else []

namespace Writes

theorem withoutRowid :
    Writes "WITHOUT ROWID".toList (Statement.OptionWords · .withoutRowid) := by
  have hfirst : Lexeme.first "ROWID".toList = ⟨[], "ROWID".toList, .ok .identifier, []⟩ := rfl
  have hrowid := single hfirst (by simp) (by simp [Trivia.Begins, isBlank])
  refine ((keyword .without).append hrowid.space (.cons (by decide) _)).mono ?_
  rintro _ ⟨_, _, rfl, ⟨without, rfl, hwithout⟩, rowid, rfl, hkind, htext⟩
  exact .withoutRowid hwithout (by simp [Token.isWord, Token.isBareWord, hkind, htext])

theorem strict : Writes "STRICT".toList (Statement.OptionWords · .strict) := by
  have hfirst : Lexeme.first "STRICT".toList = ⟨[], "STRICT".toList, .ok .identifier, []⟩ := rfl
  refine (single hfirst (by simp) (by simp [Trivia.Begins, isBlank])).mono ?_
  rintro _ ⟨t, rfl, hkind, htext⟩
  exact .strict (by simp [Token.isBareWord, hkind, htext])

/-- The options of a table with a comma between. -/
theorem options (t : Table) : Writes (spaced t.optionClauses) (Statement.Options · t.options) := by
  unfold Table.optionClauses Table.options
  cases t.withoutRowid <;> cases t.strict
  · exact nil.mono fun ts hts => hts ▸ .absent
  · exact (clause strict).mono fun ts hts => .present (.last hts)
  · exact (clause withoutRowid).mono fun ts hts => .present (.last hts)
  · have hboth := withoutRowid.append strict.space.comma (.cons (by decide) _)
    refine (clause (s := "WITHOUT ROWID, STRICT") hboth).mono ?_
    rintro _ ⟨ts, _, rfl, hts, _, us, rfl, ⟨comma, rfl, hcomma⟩, hus⟩
    exact .present (.more hts hcomma (.last hus))

end Writes

-- ════════════════════════════════════════════════════════════════════════
-- Statements
-- ════════════════════════════════════════════════════════════════════════

namespace Writes

theorem temporary (present : Bool) :
    Writes (spaced (if present then ["TEMP"] else [])) (Statement.Temporary · present) := by
  cases present with
  | false => exact nil.mono fun ts hts => hts ▸ .absent
  | true =>
    refine (clause (keyword .temp)).mono ?_
    rintro _ ⟨t, rfl, ht⟩
    exact .present (.inl ht)

theorem ifNotExists (present : Bool) :
    Writes (spaced (if present then ["IF NOT EXISTS"] else []))
      (Statement.IfNotExists · present) := by
  cases present with
  | false => exact nil.mono fun ts hts => hts ▸ .absent
  | true =>
    refine (keywords [.if, .not, .exists] rfl).mono fun ts hts => ?_
    obtain ⟨word, _, rfl, hword, hts⟩ := List.map_eq_cons_iff.1 hts
    obtain ⟨not, _, rfl, hnot, hts⟩ := List.map_eq_cons_iff.1 hts
    obtain ⟨exist, _, rfl, hexist, hts⟩ := List.map_eq_cons_iff.1 hts
    obtain rfl := List.map_eq_nil_iff.1 hts
    exact .present hword hnot hexist

/-- The name of a table, the first token of which is no keyword. -/
theorem tableName (t : Table) :
    Writes t.renderName.toList fun ts =>
      Statement.TableName ts t.schema t.name ∧ ∀ u ∈ ts.head?, ∀ k, u.kind ≠ .keyword k := by
  unfold Table.renderName
  cases t.schema with
  | none =>
    refine (name t.name).mono ?_
    rintro _ ⟨u, rfl, hu⟩
    exact ⟨.plain hu.1, by simpa using hu.2⟩
  | some schema =>
    simp only [String.toList_append, List.append_assoc]
    refine (qualified schema t.name).mono ?_
    rintro _ ⟨u, dot, v, rfl, hu, hdot, hv⟩
    exact ⟨.qualified hu.1 hdot hv.1, by simpa using hu.2⟩

end Writes

theorem Table.foldl_options (t : Table) :
    t.options.foldl Table.withOption { t with withoutRowid := false, strict := false } = t := by
  obtain ⟨schema, name, temporary, ifNotExists, withoutRowid, strict, columns, constraints⟩ := t
  cases withoutRowid <;> cases strict <;> rfl

/-- A table name that does not begin with a keyword is not taken for the beginning of
    `IF NOT EXISTS`. -/
theorem Grammar.Statement.not_namesTableIf {create word : Token} {temps ifs names ts : List Token}
    {temporary ifNotExists : Bool} {schema : Option String} {name : String}
    (hcreate : create.kind = .keyword .create) (htemps : Temporary temps temporary)
    (hword : word.kind = .keyword .table) (hifs : IfNotExists ifs ifNotExists)
    (hnames : TableName names schema name)
    (hkeyword : ∀ u ∈ names.head?, ∀ k, u.kind ≠ .keyword k) :
    ¬NamesTableIf (create :: temps ++ word :: (ifs ++ (names ++ ts))) := by
  rintro ⟨first, rest, htail, hfirst, hrest⟩
  rw [tail_dropWhile hcreate htemps hword] at htail
  cases hifs with
  | absent =>
    cases hnames with
    | plain hu =>
      obtain ⟨rfl, -⟩ := List.cons.inj htail
      exact hkeyword _ rfl _ hfirst
    | qualified hu hdot hv =>
      obtain ⟨rfl, -⟩ := List.cons.inj htail
      exact hkeyword _ rfl _ hfirst
  | present hif hnot hexist =>
    obtain ⟨-, rfl⟩ := List.cons.inj htail
    exact hrest _ rfl hnot

/-- A statement is read as one that declares the table. -/
theorem Writes.statement {t : Table} (h : t.WellFormed depth) :
    Writes t.render.toList fun ts =>
      (∃ written, Statement.Derives depth ts written t) ∧ ¬Statement.NamesTableIf ts := by
  have hbehind := (clause (tableName t)).clauses ((clause (body h)).clauses (options t))
  have hhead := (temporary t.temporary).clauses
    ((clause (keyword .table)).clauses ((ifNotExists t.ifNotExists).clauses hbehind))
  have hclauses : t.headClauses ++ t.renderName :: ("(" ++ t.renderBody ++ ")") :: t.optionClauses =
      Keyword.create.spelling :: ((if t.temporary then ["TEMP"] else []) ++
        ([Keyword.table.spelling] ++ ((if t.ifNotExists then ["IF NOT EXISTS"] else []) ++
          ([t.renderName] ++ (["(" ++ t.renderBody ++ ")"] ++ t.optionClauses))))) := by
    simp [Table.headClauses, Keyword.spelling]
  unfold Table.render
  rw [hclauses]
  refine (renderClauses (keyword .create) hhead).mono ?_
  rintro _ ⟨_, _, rfl, ⟨create, rfl, hcreate⟩, temps, _, rfl, htemps, _, _, rfl, ⟨word, rfl, hword⟩,
    ifs, _, rfl, hifs, names, _, rfl, ⟨hnames, hkeyword⟩, _, us, rfl,
    ⟨opening, inner, closing, ws, rfl, hopening, hinner, hclosing, hws⟩, hus⟩
  constructor
  · have hends : ∀ t ∈ ([] : List Token), t.kind = .semicolon := by simp
    have hderives := Statement.Derives.intro hcreate htemps hword hifs hnames hopening hinner
      hclosing hus hends
    rw [hws] at hderives
    have htable := t.foldl_options
    exact ⟨ws, by simpa [htable] using hderives⟩
  · simpa using Statement.not_namesTableIf hcreate htemps hword hifs hnames hkeyword

/-- Behind closed trivia nothing but the end of a text is read. -/
theorem Lexical.Cursor.atEnd_of_closed {c : Cursor} (h : Trivia.Closed c.rest) :
    ∃ e, c.AtEnd e := by
  have hread : Lexeme.read c.rest = ⟨c.rest, [], .ok .endOfInput, []⟩ := by
    have hfirst : Lexeme.first [] = ⟨[], [], .ok .endOfInput, []⟩ := rfl
    simpa using Lexeme.read_of_first h (by simp [Trivia.Begins]) hfirst
  obtain ⟨e, c', he, hkind, -⟩ := next_of_read hread
  exact ⟨e, c', he, hkind⟩

/-- What is written alone in a text is what the text consists of. -/
theorem Writes.tokenize {text : List Char} {P : List Token → Prop} (h : Writes text P) :
    ∃ ts, CreateTable.tokenize text = .ok ts ∧ P ts := by
  have htext : (Cursor.ofText text).rest = [] ++ (text ++ []) := by simp [Cursor.ofText]
  obtain ⟨ts, c, lead, hts, hc, hlead, hP⟩ := h.reads htext .nil .nil
  rw [List.append_nil] at hc
  obtain ⟨e, he⟩ := Cursor.atEnd_of_closed (hc ▸ hlead)
  exact ⟨ts, tokenize_eq_ok.2 ⟨c, e, hts, he⟩, hP⟩

/-- The grammar derives a table from the tokens of its statement. -/
theorem tokenize_render {t : Table} (h : t.WellFormed depth) :
    ∃ ts written, CreateTable.tokenize t.render.toList = .ok ts ∧
      Statement.Derives depth ts written t ∧ ¬Statement.NamesTableIf ts := by
  obtain ⟨ts, htokens, ⟨written, hderives⟩, hif⟩ := (Writes.statement h).tokenize
  exact ⟨ts, written, htokens, hderives, hif⟩

end CreateTable
