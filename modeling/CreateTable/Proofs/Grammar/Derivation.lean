import CreateTable.Grammar.Statement

/-!
# The grammar

What a statement is, rule by rule, apart from how one is read. A rule relates tokens to what they
mean. In the texts of the rules, brackets are around what may be absent, braces around what may be
repeated, and words in capitals stand for keywords.

## Main definitions

- `WrittenColumn` — a column with its constraints as they are written, and the column it declares
- `Statement.Derives` — the rule for statements
- `Statement.NamesTableIf` — the one kind of statement that the rules allow and that is not read

## Design notes

Rules that hold expressions have the most parentheses of an expression that may be open at once as
a parameter. The outer pair counts, and is always allowed.

Clauses that may be repeated act on what they belong to one after another, so of two that say the
same thing the later one stands.
-/

namespace CreateTable

/-- A constraint on a column as it is written, behind its name if it has one. -/
structure WrittenConstraint where
  name : Option String
  constraint : ColumnConstraint
  deriving Repr, DecidableEq

/-- A column as it is written. -/
structure WrittenColumn where
  name : String
  type : Option String
  length : Option String
  constraints : List WrittenConstraint
  deriving Repr, DecidableEq

/-- A column with one more written constraint on it. -/
def Column.add (c : Column) (w : WrittenConstraint) : Column :=
  { c with constraintName := w.name.or c.constraintName }.constrain w.constraint

/-- The column that a written column declares. -/
def WrittenColumn.column (w : WrittenColumn) : Column :=
  w.constraints.foldl Column.add { name := w.name, type := w.type, length := w.length }

/-- What may stand behind the body of a statement. -/
inductive TableOption where
  | withoutRowid
  | strict
  deriving Repr, DecidableEq

/-- A table with one more option. -/
def Table.withOption (t : Table) : TableOption → Table
  | .withoutRowid => { t with withoutRowid := true }
  | .strict => { t with strict := true }

namespace Grammar

-- ════════════════════════════════════════════════════════════════════════
-- Parts of constraints
-- ════════════════════════════════════════════════════════════════════════

/-- `name {',' name} ')'` -/
inductive NameList.Derives : List Token → List String → Prop
  | last {t close : Token} {name : String} :
    t.name? = some name → close.kind = .rightParen → Derives [t, close] [name]
  | more {t comma : Token} {name : String} {rest : List Token} {names : List String} :
    t.name? = some name → comma.kind = .comma → Derives rest names →
    Derives (t :: comma :: rest) (name :: names)

/-- `['+' | '-'] number` -/
inductive SignedNumber.Derives : List Token → Prop
  | plain {number : Token} : number.kind = .number → Derives [number]
  | signed {sign number : Token} :
    sign.isSign → number.kind = .number → Derives [sign, number]

/-- `[ON CONFLICT (ROLLBACK | ABORT | FAIL | IGNORE | REPLACE)]` -/
inductive ConflictClause.Derives : List Token → ConflictResolution → Prop
  | absent : Derives [] .unspecified
  | present {on conflict word : Token} {resolution : ConflictResolution} :
    on.kind = .keyword .on → conflict.kind = .keyword .conflict →
    resolution? word = some resolution → Derives [on, conflict, word] resolution

/-- `[ASC | DESC]` -/
inductive SortClause.Derives : List Token → SortOrder → Prop
  | absent : Derives [] .unspecified
  | present {t : Token} {order : SortOrder} : t.sortOrder? = some order → Derives [t] order

namespace Expression

/-- Tokens whose parentheses match, behind `nested` parentheses that are still open. Of those at
    most `bound` are open at once. -/
def Balanced (bound : Nat) : Nat → List Token → Prop
  | nested, [] => nested = 0
  | nested, t :: ts =>
    match t.kind with
    | .leftParen => nested < bound ∧ Balanced bound (nested + 1) ts
    | .rightParen => 0 < nested ∧ Balanced bound (nested - 1) ts
    | .endOfInput => False
    | _ => Balanced bound nested ts

/-- `'(' tokens ')'`, where the parentheses among the tokens match. -/
inductive Derives (depth : Nat) : List Token → String → Prop
  | intro {opening closing : Token} {inner : List Token} :
    opening.kind = .leftParen → inner ≠ [] → Balanced (depth - 1) 0 inner →
    closing.kind = .rightParen →
    Derives depth (opening :: inner ++ [closing]) (Token.verbatim inner)

end Expression

namespace IndexedColumns

/-- `[COLLATE name]` -/
inductive Collation : List Token → Option String → Prop
  | absent : Collation [] none
  | present {word t : Token} {name : String} :
    word.kind = .keyword .collate → t.name? = some name → Collation [word, t] (some name)

/-- `name [COLLATE name] [ASC | DESC]` -/
inductive Item : List Token → IndexedColumn → Prop
  | intro {t : Token} {collations orders : List Token} {name : String} {collation : Option String}
      {order : SortOrder} :
    t.name? = some name → Collation collations collation → SortClause.Derives orders order →
    Item (t :: collations ++ orders) { name, collation, order }

/-- `item {',' item} ')'` -/
inductive Items : List Token → List IndexedColumn → Prop
  | last {ts : List Token} {close : Token} {column : IndexedColumn} :
    Item ts column → close.kind = .rightParen → Items (ts ++ [close]) [column]
  | more {ts rest : List Token} {comma : Token} {column : IndexedColumn}
      {columns : List IndexedColumn} :
    Item ts column → comma.kind = .comma → Items rest columns →
    Items (ts ++ comma :: rest) (column :: columns)

/-- `'(' item {',' item} ')'` -/
inductive Derives : List Token → List IndexedColumn → Prop
  | intro {opening : Token} {ts : List Token} {columns : List IndexedColumn} :
    opening.kind = .leftParen → Items ts columns → Derives (opening :: ts) columns

end IndexedColumns

namespace References

/-- `SET NULL | SET DEFAULT | CASCADE | RESTRICT | NO ACTION` -/
inductive Action : List Token → ReferentialAction → Prop
  | setNull {set null : Token} :
    set.kind = .keyword .set → null.kind = .keyword .null → Action [set, null] .setNull
  | setDefault {set default : Token} :
    set.kind = .keyword .set → default.kind = .keyword .default →
    Action [set, default] .setDefault
  | cascade {t : Token} : t.kind = .keyword .cascade → Action [t] .cascade
  | restrict {t : Token} : t.kind = .keyword .restrict → Action [t] .restrict
  | noAction {no action : Token} :
    no.kind = .keyword .no → action.kind = .keyword .action → Action [no, action] .noAction

/-- The keyword of an event. -/
def Event.keyword : Event → Keyword
  | .delete => .delete
  | .update => .update

/-- `ON DELETE action | ON UPDATE action | MATCH name`, and what it makes of a foreign key. -/
inductive Clause : ForeignKey → List Token → ForeignKey → Prop
  | action {key : ForeignKey} {on word : Token} {event : Event} {ts : List Token}
      {action : ReferentialAction} :
    on.kind = .keyword .on → word.kind = .keyword event.keyword → Action ts action →
    Clause key (on :: word :: ts) (setAction key event action)
  | matchType {key : ForeignKey} {word t : Token} {name : String} :
    word.kind = .keyword .match → t.name? = some name →
    Clause key [word, t] { key with matchType := some name }

/-- `[INITIALLY (DEFERRED | IMMEDIATE)]` -/
inductive Mode : List Token → InitialMode → Prop
  | absent : Mode [] .unspecified
  | deferred {word t : Token} :
    word.kind = .keyword .initially → t.kind = .keyword .deferred → Mode [word, t] .deferred
  | immediate {word t : Token} :
    word.kind = .keyword .initially → t.kind = .keyword .immediate → Mode [word, t] .immediate

/-- `[NOT] DEFERRABLE [INITIALLY (DEFERRED | IMMEDIATE)]` -/
inductive Deferrable : List Token → Deferral → Prop
  | plain {t : Token} {ts : List Token} {mode : InitialMode} :
    t.kind = .keyword .deferrable → Mode ts mode → Deferrable (t :: ts) (.stated false mode)
  | negated {not t : Token} {ts : List Token} {mode : InitialMode} :
    not.kind = .keyword .not → t.kind = .keyword .deferrable → Mode ts mode →
    Deferrable (not :: t :: ts) (.stated true mode)

/-- `{clause} [deferrable]`, and what they make of a foreign key. -/
inductive Clauses : ForeignKey → List Token → ForeignKey → Prop
  | nil {key : ForeignKey} : Clauses key [] key
  | clause {key key' key'' : ForeignKey} {ts rest : List Token} :
    Clause key ts key' → Clauses key' rest key'' → Clauses key (ts ++ rest) key''
  | deferrable {key : ForeignKey} {ts : List Token} {deferral : Deferral} :
    Deferrable ts deferral → Clauses key ts { key with deferral }

/-- `name ['(' names ')'] {clause} [deferrable]` -/
inductive Derives : List Token → ForeignKey → Prop
  | plain {t : Token} {table : String} {ts : List Token} {key : ForeignKey} :
    t.name? = some table → Clauses { table } ts key → Derives (t :: ts) key
  | listed {t opening : Token} {table : String} {names ts : List Token} {columns : List String}
      {key : ForeignKey} :
    t.name? = some table → opening.kind = .leftParen → NameList.Derives names columns →
    Clauses { table, columns } ts key → Derives (t :: opening :: names ++ ts) key

end References

/-- `[CONSTRAINT name]` -/
inductive ConstraintName : List Token → Option String → Prop
  | absent : ConstraintName [] none
  | present {word t : Token} {name : String} :
    word.kind = .keyword .constraint → t.name? = some name → ConstraintName [word, t] (some name)

namespace ColumnConstraint

/-- `[AUTOINCREMENT]` -/
inductive Autoincrement : List Token → Bool → Prop
  | absent : Autoincrement [] false
  | present {t : Token} : t.kind = .keyword .autoincrement → Autoincrement [t] true

/-- `string | blob | name | NULL` -/
def IsLiteral (t : Token) : Prop :=
  t.kind = .blob ∨ t.kind = .keyword .null ∨ t.name?.isSome

/-- `PRIMARY KEY [order] [conflict] [AUTOINCREMENT] | NOT NULL [conflict] | NULL [conflict] |
    UNIQUE [conflict] | CHECK expression | DEFAULT (expression | signed number | literal) |
    COLLATE name | REFERENCES foreign key` -/
inductive Derives (depth : Nat) : List Token → ColumnConstraint → Prop
  | primaryKey {primary key : Token} {orders conflicts autos : List Token} {order : SortOrder}
      {conflict : ConflictResolution} {autoincrement : Bool} :
    primary.kind = .keyword .primary → key.kind = .keyword .key →
    SortClause.Derives orders order → ConflictClause.Derives conflicts conflict →
    Autoincrement autos autoincrement →
    Derives depth (primary :: key :: orders ++ conflicts ++ autos)
      (.primaryKey order conflict autoincrement)
  | notNull {not null : Token} {conflicts : List Token} {conflict : ConflictResolution} :
    not.kind = .keyword .not → null.kind = .keyword .null →
    ConflictClause.Derives conflicts conflict →
    Derives depth (not :: null :: conflicts) (.notNull conflict)
  | null {null : Token} {conflicts : List Token} {conflict : ConflictResolution} :
    null.kind = .keyword .null → ConflictClause.Derives conflicts conflict →
    Derives depth (null :: conflicts) .null
  | unique {unique : Token} {conflicts : List Token} {conflict : ConflictResolution} :
    unique.kind = .keyword .unique → ConflictClause.Derives conflicts conflict →
    Derives depth (unique :: conflicts) (.unique conflict)
  | check {check : Token} {ts : List Token} {text : String} :
    check.kind = .keyword .check → Expression.Derives depth ts text →
    Derives depth (check :: ts) (.check text)
  | defaultExpression {default : Token} {ts : List Token} {text : String} :
    default.kind = .keyword .default → Expression.Derives depth ts text →
    Derives depth (default :: ts) (.default text)
  | defaultNumber {default : Token} {ts : List Token} :
    default.kind = .keyword .default → SignedNumber.Derives ts →
    Derives depth (default :: ts) (.default (Token.verbatim ts))
  | defaultLiteral {default t : Token} :
    default.kind = .keyword .default → IsLiteral t →
    Derives depth [default, t] (.default t.source)
  | collate {collate t : Token} {name : String} :
    collate.kind = .keyword .collate → t.name? = some name →
    Derives depth [collate, t] (.collate name)
  | references {references : Token} {ts : List Token} {key : ForeignKey} :
    references.kind = .keyword .references → References.Derives ts key →
    Derives depth (references :: ts) (.references key)

end ColumnConstraint

namespace Column

/-- `signed number [',' signed number]` -/
inductive Size : List Token → Prop
  | size {ts : List Token} : SignedNumber.Derives ts → Size ts
  | scale {ts rest : List Token} {comma : Token} :
    SignedNumber.Derives ts → comma.kind = .comma → SignedNumber.Derives rest →
    Size (ts ++ comma :: rest)

/-- `[word {word} ['(' size ')']]`, with the text of the words and that of the size. -/
inductive TypeName : List Token → Option String → Option String → Prop
  | absent : TypeName [] none none
  | words {words : List Token} :
    words ≠ [] → (∀ t ∈ words, t.isTypeWord) →
    TypeName words (some (Token.verbatim words)) none
  | sized {words size : List Token} {opening closing : Token} :
    words ≠ [] → (∀ t ∈ words, t.isTypeWord) → opening.kind = .leftParen → Size size →
    closing.kind = .rightParen →
    TypeName (words ++ opening :: size ++ [closing]) (some (Token.verbatim words))
      (some (Token.verbatim size))

/-- `{[CONSTRAINT name] constraint}` -/
inductive Constraints (depth : Nat) : List Token → List WrittenConstraint → Prop
  | nil : Constraints depth [] []
  | cons {names ts rest : List Token} {name : Option String} {constraint : ColumnConstraint}
      {constraints : List WrittenConstraint} :
    ConstraintName names name → ColumnConstraint.Derives depth ts constraint →
    Constraints depth rest constraints →
    Constraints depth (names ++ ts ++ rest) (⟨name, constraint⟩ :: constraints)

/-- `name [type] {[CONSTRAINT name] constraint}` -/
inductive Derives (depth : Nat) : List Token → WrittenColumn → Prop
  | intro {t : Token} {types ts : List Token} {name : String} {type length : Option String}
      {constraints : List WrittenConstraint} :
    t.name? = some name → TypeName types type length → Constraints depth ts constraints →
    Derives depth (t :: types ++ ts) { name, type, length, constraints }

end Column

namespace TableConstraint

/-- `PRIMARY KEY columns [conflict] | UNIQUE columns [conflict] | CHECK expression [conflict] |
    FOREIGN KEY '(' names ')' REFERENCES foreign key` -/
inductive Demands (depth : Nat) : List Token → TableConstraint.Rule → Prop
  | primaryKey {primary key : Token} {ts conflicts : List Token} {columns : List IndexedColumn}
      {conflict : ConflictResolution} :
    primary.kind = .keyword .primary → key.kind = .keyword .key →
    IndexedColumns.Derives ts columns → ConflictClause.Derives conflicts conflict →
    Demands depth (primary :: key :: ts ++ conflicts) (.primaryKey columns conflict)
  | unique {unique : Token} {ts conflicts : List Token} {columns : List IndexedColumn}
      {conflict : ConflictResolution} :
    unique.kind = .keyword .unique → IndexedColumns.Derives ts columns →
    ConflictClause.Derives conflicts conflict →
    Demands depth (unique :: ts ++ conflicts) (.unique columns conflict)
  | check {check : Token} {ts conflicts : List Token} {text : String}
      {conflict : ConflictResolution} :
    check.kind = .keyword .check → Expression.Derives depth ts text →
    ConflictClause.Derives conflicts conflict →
    Demands depth (check :: ts ++ conflicts) (.check text)
  | foreignKey {foreign key opening references : Token} {names ts : List Token}
      {columns : List String} {target : ForeignKey} :
    foreign.kind = .keyword .foreign → key.kind = .keyword .key → opening.kind = .leftParen →
    NameList.Derives names columns → references.kind = .keyword .references →
    References.Derives ts target →
    Demands depth (foreign :: key :: opening :: names ++ references :: ts)
      (.foreignKey columns target)

/-- `[CONSTRAINT name] rule` -/
inductive Derives (depth : Nat) : List Token → TableConstraint → Prop
  | intro {names ts : List Token} {name : Option String} {rule : TableConstraint.Rule} :
    ConstraintName names name → Demands depth ts rule → Derives depth (names ++ ts) { name, rule }

end TableConstraint

-- ════════════════════════════════════════════════════════════════════════
-- Statements
-- ════════════════════════════════════════════════════════════════════════

/-- `[',']` -/
inductive OptionalComma : List Token → Prop
  | absent : OptionalComma []
  | present {t : Token} : t.kind = .comma → OptionalComma [t]

namespace Body

/-- `{',' column}` -/
inductive MoreColumns (depth : Nat) : List Token → List WrittenColumn → Prop
  | nil : MoreColumns depth [] []
  | cons {comma : Token} {ts rest : List Token} {column : WrittenColumn}
      {columns : List WrittenColumn} :
    comma.kind = .comma → Column.Derives depth ts column → MoreColumns depth rest columns →
    MoreColumns depth (comma :: ts ++ rest) (column :: columns)

/-- `{[','] constraint}` -/
inductive MoreConstraints (depth : Nat) : List Token → List TableConstraint → Prop
  | nil : MoreConstraints depth [] []
  | cons {comma ts rest : List Token} {constraint : CreateTable.TableConstraint}
      {constraints : List CreateTable.TableConstraint} :
    OptionalComma comma → TableConstraint.Derives depth ts constraint →
    MoreConstraints depth rest constraints →
    MoreConstraints depth (comma ++ ts ++ rest) (constraint :: constraints)

/-- `[',' constraint {[','] constraint}]` -/
inductive Constraints (depth : Nat) : List Token → List CreateTable.TableConstraint → Prop
  | absent : Constraints depth [] []
  | present {comma : Token} {ts rest : List Token} {constraint : CreateTable.TableConstraint}
      {constraints : List CreateTable.TableConstraint} :
    comma.kind = .comma → TableConstraint.Derives depth ts constraint →
    MoreConstraints depth rest constraints →
    Constraints depth (comma :: ts ++ rest) (constraint :: constraints)

/-- `column {',' column} [',' constraint {[','] constraint}] [',']` -/
inductive Derives (depth : Nat) :
    List Token → List WrittenColumn → List CreateTable.TableConstraint → Prop
  | intro {ts more us comma : List Token} {column : WrittenColumn} {columns : List WrittenColumn}
      {constraints : List CreateTable.TableConstraint} :
    Column.Derives depth ts column → MoreColumns depth more columns →
    Constraints depth us constraints → OptionalComma comma →
    Derives depth (ts ++ more ++ us ++ comma) (column :: columns) constraints

end Body

namespace Statement

/-- `[TEMP | TEMPORARY]` -/
inductive Temporary : List Token → Bool → Prop
  | absent : Temporary [] false
  | present {t : Token} :
    t.kind = .keyword .temp ∨ t.kind = .keyword .temporary → Temporary [t] true

/-- `[IF NOT EXISTS]` -/
inductive IfNotExists : List Token → Bool → Prop
  | absent : IfNotExists [] false
  | present {word not exist : Token} :
    word.kind = .keyword .if → not.kind = .keyword .not → exist.kind = .keyword .exists →
    IfNotExists [word, not, exist] true

/-- `name ['.' name]` -/
inductive TableName : List Token → Option String → String → Prop
  | plain {t : Token} {name : String} : t.name? = some name → TableName [t] none name
  | qualified {t dot u : Token} {schema name : String} :
    t.name? = some schema → dot.kind = .dot → u.name? = some name →
    TableName [t, dot, u] (some schema) name

/-- `WITHOUT ROWID | STRICT` -/
inductive OptionWords : List Token → TableOption → Prop
  | withoutRowid {without rowid : Token} :
    without.kind = .keyword .without → rowid.isWord "ROWID" →
    OptionWords [without, rowid] .withoutRowid
  | strict {t : Token} : t.isBareWord "STRICT" → OptionWords [t] .strict

/-- `option {',' option}` -/
inductive OptionList : List Token → List TableOption → Prop
  | last {ts : List Token} {option : TableOption} : OptionWords ts option → OptionList ts [option]
  | more {ts rest : List Token} {comma : Token} {option : TableOption}
      {options : List TableOption} :
    OptionWords ts option → comma.kind = .comma → OptionList rest options →
    OptionList (ts ++ comma :: rest) (option :: options)

/-- `[option {',' option}]` -/
inductive Options : List Token → List TableOption → Prop
  | absent : Options [] []
  | present {ts : List Token} {options : List TableOption} :
    OptionList ts options → Options ts options

/-- `CREATE [TEMP | TEMPORARY] TABLE [IF NOT EXISTS] name ['.' name] '(' body ')'
    [option {',' option}] {';'}`, with the columns as they are written and the table declared. -/
inductive Derives (depth : Nat) : List Token → List WrittenColumn → Table → Prop
  | intro {create word opening closing : Token} {temps ifs names body ts ends : List Token}
      {temporary ifNotExists : Bool} {schema : Option String} {name : String}
      {columns : List WrittenColumn} {constraints : List CreateTable.TableConstraint}
      {options : List TableOption} :
    create.kind = .keyword .create → Temporary temps temporary → word.kind = .keyword .table →
    IfNotExists ifs ifNotExists → TableName names schema name → opening.kind = .leftParen →
    Body.Derives depth body columns constraints → closing.kind = .rightParen →
    Options ts options → (∀ t ∈ ends, t.kind = .semicolon) →
    Derives depth
      (create :: temps ++ word :: ifs ++ names ++ opening :: body ++ closing :: ts ++ ends)
      columns
      (options.foldl Table.withOption
        { schema, name, temporary, ifNotExists
          columns := columns.map WrittenColumn.column
          constraints })

/-- The bare word `IF` stands behind `TABLE` as a name. Reading takes it for the beginning of
    `IF NOT EXISTS`. -/
def NamesTableIf (ts : List Token) : Prop :=
  ∃ word rest, (ts.dropWhile fun t => !t.isKeyword .table).tail = word :: rest ∧
    word.kind = .keyword .if ∧ ∀ t ∈ rest.head?, t.kind ≠ .keyword .not

end Statement

end Grammar

end CreateTable
