import CreateTable.Proofs.Errors.Location
import CreateTable.Proofs.Parallel.Runs
import CreateTable.Proofs.Rendering.Parsed

/-!
# What parsed tables hold

A table that is parsed has columns. What is said about a constraint is there only with the
constraint, and every text that is held as it was written is a piece of the statement from the
start of one token to the end of one.

## Main definitions

- `IsPiece` — a text that runs from the start of a token through the end of one
- `Column.Sound`, `TableConstraint.Sound`, `Table.Sound` — what holds in parsed tables

## Main statements

- `Lexical.Cursor.Reads.slice?_row` — tokens in a row are a slice of the text
- `corresponds_self_of_parse` — the texts in a table are those of tokens in a row
- `sound_of_parse` — parsed tables are sound

## Design notes

A statement is read side by side with itself. What is known of the texts that two readers hold is
then known of the texts that one of them holds.
-/

namespace CreateTable

open Lexical Grammar Text

-- ════════════════════════════════════════════════════════════════════════
-- Tokens in a row
-- ════════════════════════════════════════════════════════════════════════

namespace Token

theorem verbatim_ne_empty {t : Token} (ts : List Token) (h : t.text ≠ []) :
    verbatim (t :: ts) ≠ "" := by
  intro hempty
  have hlist := congrArg String.toList hempty
  rw [toList_verbatim_cons, String.toList_empty, List.append_eq_nil_iff] at hlist
  exact h hlist.1

theorem Counterpart.refl (t : Token) : t.Counterpart id t := by
  refine ⟨?_, rfl, rfl, fun _ => rfl, fun _ => rfl⟩
  cases t.kind <;> rfl

theorem counterparts_refl (ts : List Token) : List.Forall₂ (Counterpart id) ts ts :=
  List.forall₂_same.2 fun t _ => .refl t

end Token

namespace Lexical.Cursor

variable {sql : String} {c c' : Cursor} {t : Token} {ts rest : List Token}

/-- A row of tokens ends where its last one does. -/
theorem Reads.offset_eq_stop (h : Reads c (t :: ts) c') : c'.offset = (ts.getLastD t).stop := by
  obtain _ | ⟨hnext, -, h⟩ := h
  have hstop := (start_of_next hnext).2
  clear hnext
  induction h generalizing t with
  | nil => exact hstop
  | @cons _ _ _ u us hnext _ _ ih =>
    rw [List.getLastD_cons]
    exact ih (start_of_next hnext).2

/-- The tokens of a row are a slice of the text, from the start of the first one to the end of the
    last. -/
theorem Reads.slice?_row (h : Reads c ts c') (hc : Within sql c) (hrow : t :: rest <:+: ts) :
    t.start < (rest.getLastD t).stop ∧ Token.verbatim (t :: rest) ≠ "" ∧
      (Span.mk t.start (rest.getLastD t).stop).slice? sql =
        some (Token.verbatim (t :: rest)) := by
  obtain ⟨front, back, rfl⟩ := hrow
  rw [List.append_assoc] at h
  obtain ⟨d, hfront, h⟩ := h.split
  obtain ⟨d', hrow, -⟩ := h.split
  have hlast := hrow.offset_eq_stop
  have hd' := hrow.within (hfront.within hc)
  obtain _ | @⟨_, d₁, _, _, _, hnext, hne, hrest⟩ := hrow
  have ht := ((hfront.within hc).next hnext).1
  have htext := text_ne_nil_of_next hnext hne
  -- the text behind the start of the first token is the row and what follows it
  have hverbatim : t.text ++ d₁.rest = (Token.verbatim (t :: rest)).toList ++ d'.rest := by
    rw [hrest.rest_eq, Token.toList_verbatim_cons, List.append_assoc]
  rw [hverbatim] at ht
  have hsize := ht.offset_add
  rw [byteLength_append, ← hd'.offset_add, hlast] at hsize
  have hstop : (rest.getLastD t).stop =
      t.start + byteLength (Token.verbatim (t :: rest)).toList := by
    dsimp only at hsize
    omega
  refine ⟨?_, Token.verbatim_ne_empty rest htext, ?_⟩
  · have hpos := byteLength_pos htext
    rw [hstop, Token.toList_verbatim_cons, byteLength_append]
    omega
  · rw [ht.slice? rfl rfl hstop, String.ofList_toList]

end Lexical.Cursor

-- ════════════════════════════════════════════════════════════════════════
-- Sound tables
-- ════════════════════════════════════════════════════════════════════════

/-- A text is a piece of a statement that begins where one of its tokens does and ends where one
    does. -/
def IsPiece (sql text : String) : Prop :=
  ∃ ts first rest, tokenize sql.toList = .ok ts ∧ first :: rest <:+: ts ∧
    first.start < (rest.getLastD first).stop ∧ text ≠ "" ∧
    (Span.mk first.start (rest.getLastD first).stop).slice? sql = some text

/-- What holds in the columns of a parsed table. -/
structure Column.Sound (sql : String) (c : Column) : Prop where
  autoincrement : c.autoincrement → c.primaryKey
  primaryKeyOrder : c.primaryKeyOrder ≠ .unspecified → c.primaryKey
  primaryKeyConflict : c.primaryKeyConflict ≠ .unspecified → c.primaryKey
  notNullConflict : c.notNullConflict ≠ .unspecified → c.notNull
  uniqueConflict : c.uniqueConflict ≠ .unspecified → c.unique
  length_type : c.length.isSome → c.type.isSome
  type : ∀ text ∈ c.type, IsPiece sql text
  length : ∀ text ∈ c.length, IsPiece sql text
  check : ∀ text ∈ c.check, IsPiece sql text
  default : ∀ text ∈ c.default, IsPiece sql text

/-- What holds in the constraints of a parsed table. -/
def TableConstraint.Sound (sql : String) (c : TableConstraint) : Prop :=
  match c.rule with
  | .primaryKey columns _ => columns ≠ []
  | .unique columns _ => columns ≠ []
  | .check expression => IsPiece sql expression
  | .foreignKey columns _ => columns ≠ []

/-- What holds in a parsed table. -/
structure Table.Sound (sql : String) (t : Table) : Prop where
  columns_ne_nil : t.columns ≠ []
  columns : ∀ c ∈ t.columns, c.Sound sql
  constraints : ∀ c ∈ t.constraints, c.Sound sql

variable {limits : Limits} {sql : String} {t : Table} {ts : List Token}

/-- The texts that a table holds are those of tokens in a row. -/
theorem corresponds_self_of_parse (h : parse limits sql = .ok t)
    (htokens : tokenize sql.toList = .ok ts) :
    t.Corresponds id (Past.Excerpt (.ofTokens ts ts)) t := by
  obtain ⟨-, hrun⟩ := parse_eq_ok.1 h
  obtain ⟨us, c, e, c', hus, he, haccepts⟩ := Reader.runFrom_eq_ok.1 hrun
  have hend : c.AtEnd e := ⟨c', he, Statement.kind_of_accepts haccepts⟩
  obtain rfl : us = ts :=
    Except.ok.inj ((tokenize_eq_ok.2 ⟨c, e, hus, hend⟩).symm.trans htokens)
  obtain ⟨t', haccepts', hcorresponds⟩ :=
    Statement.accepts_parallel rfl (Token.counterparts_refl us) (.refl e) haccepts
  obtain rfl : t' = t :=
    Except.ok.inj ((Reader.runFrom_eq_ok.2 ⟨us, c, e, c', hus, he, haccepts'⟩).symm.trans hrun)
  exact hcorresponds

/-- The text of tokens in a row is a piece of the statement. -/
theorem isPiece_of_excerpt (htokens : tokenize sql.toList = .ok ts) {a b : String}
    (h : Past.Excerpt (.ofTokens ts ts) a b) : IsPiece sql a := by
  obtain ⟨c, e, hts, -⟩ := tokenize_eq_ok.1 htokens
  have hself : List.Forall₂ Eq ts ts := List.forall₂_same.2 fun _ _ => rfl
  obtain ⟨row, -, hrow, -, hne, -, rfl, -⟩ := h.exists_row hself
  obtain ⟨first, rest, rfl⟩ := List.exists_cons_of_ne_nil hne
  have hslice := hts.slice?_row (Cursor.within_ofText sql) hrow
  exact ⟨ts, first, rest, htokens, hrow, hslice⟩

theorem isPiece_of_rel (htokens : tokenize sql.toList = .ok ts) {o o' : Option String}
    (h : Option.Rel (Past.Excerpt (.ofTokens ts ts)) o o') : ∀ text ∈ o, IsPiece sql text := by
  rintro text hmem
  cases h with
  | none => cases hmem
  | some hexcerpt =>
    obtain rfl := Option.mem_some.1 hmem
    exact isPiece_of_excerpt htokens hexcerpt

/-- A column that can be written is sound if its texts are those of tokens in a row. -/
theorem sound_of_wellFormed (htokens : tokenize sql.toList = .ok ts) {depth : Nat} {c : Column}
    (hwell : c.WellFormed depth)
    (hself : c.Corresponds id (Past.Excerpt (.ofTokens ts ts)) c) : c.Sound sql := by
  have hkey : c.autoincrement ∨ c.primaryKeyOrder ≠ .unspecified ∨
      c.primaryKeyConflict ≠ .unspecified → c.primaryKey := by
    intro hstated
    by_contra hkey
    obtain ⟨hauto, horder, hconflict⟩ := hwell.primaryKey (Bool.eq_false_of_not_eq_true hkey)
    simp [hauto, horder, hconflict] at hstated
  exact
    { autoincrement := fun hauto => hkey (.inl hauto)
      primaryKeyOrder := fun horder => hkey (.inr (.inl horder))
      primaryKeyConflict := fun hconflict => hkey (.inr (.inr hconflict))
      notNullConflict := fun hconflict => by
        by_contra hnull
        exact hconflict (hwell.notNull (Bool.eq_false_of_not_eq_true hnull))
      uniqueConflict := fun hconflict => by
        by_contra hunique
        exact hconflict (hwell.unique (Bool.eq_false_of_not_eq_true hunique))
      length_type := fun hlength => by
        obtain ⟨text, htext⟩ := Option.isSome_iff_exists.1 hlength
        exact (hwell.length text htext).1
      type := isPiece_of_rel htokens hself.type
      length := isPiece_of_rel htokens hself.length
      check := isPiece_of_rel htokens hself.check
      default := isPiece_of_rel htokens hself.default }

/-- Tables that are parsed are sound: they have columns, what is said about a constraint is there
    only with it, keys have columns, and texts that are held as they were written are pieces of the
    statement between borders of tokens. -/
theorem sound_of_parse (h : parse limits sql = .ok t) : t.Sound sql := by
  obtain ⟨-, ts, written, htokens, hadmits⟩ := parse_eq_ok_iff_admits.1 h
  have hlegible : Legible ts := by
    obtain ⟨c, -, hts, -⟩ := tokenize_eq_ok.1 htokens
    exact ⟨_, c, hts⟩
  obtain ⟨hnonempty, hcolumns, hconstraints⟩ := wellFormed_of_derives hadmits.1 hlegible
  have hself := corresponds_self_of_parse h htokens
  refine ⟨hnonempty, fun c hc => ?_, fun c hc => ?_⟩
  · exact sound_of_wellFormed htokens (hcolumns c hc) (List.forall₂_same.1 hself.columns c hc)
  · have hwell := hconstraints c hc
    have hpieces := (List.forall₂_same.1 hself.constraints c hc).rule
    unfold TableConstraint.Sound
    cases hrule : c.rule with
    | check expression =>
      rw [hrule] at hpieces
      obtain _ | _ | hexcerpt := hpieces
      exact isPiece_of_excerpt htokens hexcerpt
    | _ =>
      rw [hrule] at hwell
      exact hwell

/-- Comments stand inside a type and around a size, and a second key takes back the first one. -/
theorem sound_of_parse_comments :
    ∃ t, parse {} "CREATE TABLE t(a BIG/**/INT(/**/8 )PRIMARY KEY DESC PRIMARY KEY)" = .ok t ∧
      (t.columns.map fun c => (c.type, c.length, c.primaryKey, c.primaryKeyOrder)) =
        [(some "BIG/**/INT", some "8", true, .unspecified)] ∧
      t.Sound "CREATE TABLE t(a BIG/**/INT(/**/8 )PRIMARY KEY DESC PRIMARY KEY)" := by
  have hparsed : (parse {} "CREATE TABLE t(a BIG/**/INT(/**/8 )PRIMARY KEY DESC PRIMARY KEY)"
      ).toOption = some
        { name := "t"
          columns :=
            [{ name := "a"
               type := "BIG/**/INT"
               length := "8"
               primaryKey := true }] } := by
    rw [parse_eq_run]
    decide +kernel
  have h := eq_ok_of_toOption hparsed
  exact ⟨_, h, rfl, sound_of_parse h⟩

end CreateTable
