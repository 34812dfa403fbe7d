import CreateTable.Grammar.Name
import CreateTable.Schema.Clause

/-!
# Sort clauses

`[ASC | DESC]`

## Main definitions

- `Token.sortOrder?` — the direction that a token names
-/

namespace CreateTable.Token

/-- The direction that a token names. -/
def sortOrder? (t : Token) : Option SortOrder :=
  match t.kind with
  | .keyword word => SortOrder.ofKeyword? word
  | _ => none

theorem kind_ne_endOfInput_of_sortOrder? {t : Token} {order : SortOrder}
    (h : t.sortOrder? = some order) : t.kind ≠ .endOfInput := by
  intro hend
  simp [sortOrder?, hend] at h

end CreateTable.Token
