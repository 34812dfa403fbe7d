import CreateTable.Proofs.Grammar.Clauses
import CreateTable.Proofs.Lexical.Relocation

/-!
# Tables that can be written

A table is held in a form that a statement can declare: what belongs to a constraint is there only
with the constraint, and texts that are written as they are held are such as a statement may hold.
Names may be any text.

## Main definitions

- `IsType`, `IsSize`, `IsExpression` — texts that are written as they are held
- `Column.WellFormed`, `TableConstraint.WellFormed`, `Table.WellFormed` — what can be written

## Design notes

Expressions are bounded in depth: the parameter `depth` is the most parentheses that may be open at
once in an expression, its own pair included.
-/

namespace CreateTable

open Grammar

/-- A text consists of tokens with the property, with nothing before the first and nothing behind
    the last. -/
def ConsistsOf (P : List Token → Prop) (text : String) : Prop :=
  ∃ ts, tokenize text.toList = .ok ts ∧ Token.verbatim ts = text ∧ P ts

/-- The words of a type. -/
def IsType : String → Prop := ConsistsOf fun ts => ts ≠ [] ∧ ∀ t ∈ ts, t.isTypeWord

/-- A size, or a size and a scale. -/
def IsSize : String → Prop := ConsistsOf Grammar.Column.Size

/-- Tokens whose parentheses match. -/
def IsExpression (depth : Nat) : String → Prop :=
  ConsistsOf fun ts => ts ≠ [] ∧ Expression.Balanced (depth - 1) 0 ts

/-- A column that can be written. -/
structure Column.WellFormed (depth : Nat) (c : Column) : Prop where
  type : ∀ text ∈ c.type, IsType text
  length : ∀ text ∈ c.length, c.type.isSome ∧ IsSize text
  primaryKey : c.primaryKey = false →
    c.autoincrement = false ∧ c.primaryKeyOrder = .unspecified ∧
      c.primaryKeyConflict = .unspecified
  notNull : c.notNull = false → c.notNullConflict = .unspecified
  unique : c.unique = false → c.uniqueConflict = .unspecified
  check : ∀ text ∈ c.check, IsExpression depth text
  default : ∀ text ∈ c.default, IsExpression depth text

/-- What a constraint demands, if it can be written. -/
def TableConstraint.Rule.WellFormed (depth : Nat) : TableConstraint.Rule → Prop
  | .primaryKey columns _ => columns ≠ []
  | .unique columns _ => columns ≠ []
  | .check expression => IsExpression depth expression
  | .foreignKey columns _ => columns ≠ []

/-- A table that can be written. -/
structure Table.WellFormed (depth : Nat) (t : Table) : Prop where
  columns_ne_nil : t.columns ≠ []
  columns : ∀ c ∈ t.columns, c.WellFormed depth
  constraints : ∀ c ∈ t.constraints, c.rule.WellFormed depth

namespace Token

variable {t u : Token} {ts us : List Token}

theorem Alike.name? (h : t.Alike u) : t.name? = u.name? := by
  simp only [Token.name?, source, h.1, h.2]

theorem Alike.isTypeWord (h : t.Alike u) : t.isTypeWord = u.isTypeWord := by
  simp only [Token.isTypeWord, h.name?, isKeyword, h.1]

theorem Alike.isSign (h : t.Alike u) : t.isSign = u.isSign := by
  simp only [Token.isSign, h.1, h.2]

theorem forall_isTypeWord_of_alike (h : List.Forall₂ Alike ts us) (ht : ∀ t ∈ ts, t.isTypeWord) :
    ∀ u ∈ us, u.isTypeWord := by
  induction h with
  | nil => simp
  | cons hhead _ ih =>
    simp only [List.forall_mem_cons] at ht ⊢
    exact ⟨hhead.isTypeWord ▸ ht.1, ih ht.2⟩

end Token

namespace Grammar

open Token

variable {ts us : List Token} {text : String}

theorem SignedNumber.Derives.of_alike (h : SignedNumber.Derives ts)
    (hmoved : List.Forall₂ Alike ts us) : SignedNumber.Derives us := by
  cases h with
  | plain hnumber =>
    obtain _ | ⟨hn, hnil⟩ := hmoved
    obtain _ | _ := hnil
    exact .plain (hn.1 ▸ hnumber)
  | signed hsign hnumber =>
    obtain _ | ⟨hs, hrest⟩ := hmoved
    obtain _ | ⟨hn, hnil⟩ := hrest
    obtain _ | _ := hnil
    exact .signed (hs.isSign ▸ hsign) (hn.1 ▸ hnumber)

theorem Column.Size.of_alike (h : Column.Size ts) (hmoved : List.Forall₂ Alike ts us) :
    Column.Size us := by
  cases h with
  | size hnumber => exact .size (hnumber.of_alike hmoved)
  | scale hsize hcomma hscale =>
    obtain ⟨size, scale, rfl, hts, hrest⟩ := exists_append_of_forall₂ hmoved
    obtain _ | ⟨hc, hrest⟩ := hrest
    exact .scale (hsize.of_alike hts) (hc.1 ▸ hcomma) (hscale.of_alike hrest)

theorem Expression.Balanced.of_alike {bound nested : Nat} (h : Balanced bound nested ts)
    (hmoved : List.Forall₂ Alike ts us) : Balanced bound nested us := by
  induction hmoved generalizing nested with
  | nil => exact h
  | @cons t u ts us hhead _ ih =>
    by_cases hleft : t.kind = .leftParen
    · obtain ⟨hlt, h⟩ := (balanced_cons_leftParen hleft).1 h
      exact (balanced_cons_leftParen (hhead.1 ▸ hleft)).2 ⟨hlt, ih h⟩
    by_cases hright : t.kind = .rightParen
    · obtain ⟨hlt, h⟩ := (balanced_cons_rightParen hright).1 h
      exact (balanced_cons_rightParen (hhead.1 ▸ hright)).2 ⟨hlt, ih h⟩
    by_cases hend : t.kind = .endOfInput
    · exact absurd h (not_balanced_cons_endOfInput hend)
    have h := (balanced_cons_other hleft hright hend).1 h
    rw [hhead.1] at hleft hright hend
    exact (balanced_cons_other hleft hright hend).2 (ih h)

end Grammar

end CreateTable
