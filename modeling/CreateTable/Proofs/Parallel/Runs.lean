import CreateTable.Proofs.Parallel.Statement
import CreateTable.Proofs.Stopping

/-!
# Runs side by side

What is read of two rows of tokens that go with each other, from the first token to the last.

## Main definitions

- `Past.ofTokens` — what has been taken when all tokens of two rows have been

## Main statements

- `Past.Excerpt.exists_row` — the rows that texts of tokens in a row are the texts of
- `Statement.takes_parallel` — what is taken on one side is taken on the other
- `Statement.accepts_parallel` — what is accepted on one side is accepted on the other
- `Statement.refused_parallel` — what is refused on one side is refused on the other
-/

namespace CreateTable

-- ════════════════════════════════════════════════════════════════════════
-- Rows that have been taken
-- ════════════════════════════════════════════════════════════════════════

namespace Past

variable {ts us : List Token} {t u : Token} {a b : String}

/-- What has been taken when all tokens of two rows have been. -/
def ofTokens (ts us : List Token) : Past := (ts.zip us).reverse

theorem ofTokens_cons (t u : Token) (ts us : List Token) :
    ofTokens (t :: ts) (u :: us) = ofTokens ts us ++ [(t, u)] := List.reverse_cons

theorem ofTokens_concat (h : ts.length = us.length) :
    ofTokens (ts ++ [t]) (us ++ [u]) = (t, u) :: ofTokens ts us := by
  rw [ofTokens, List.zip_append h, List.reverse_append]
  rfl

variable {R : Token → Token → Prop}

theorem related_of_mem (h : List.Forall₂ R ts us) (hmem : (t, u) ∈ ofTokens ts us) : R t u :=
  (List.forall₂_iff_zip.1 h).2 (List.mem_reverse.1 hmem)

/-- Tokens that have been taken at the same time have the same index. -/
theorem exists_index_of_mem (hmem : (t, u) ∈ ofTokens ts us) :
    ∃ i : Nat, ts[i]? = some t ∧ us[i]? = some u := by
  obtain ⟨i, hi⟩ := List.mem_iff_getElem?.1 (List.mem_reverse.1 hmem)
  exact ⟨i, List.getElem?_zip_eq_some.1 hi⟩

/-- The tokens on either side that texts are the texts of. -/
theorem Excerpt.exists_row (h : (ofTokens ts us).Excerpt a b) (hts : List.Forall₂ R ts us) :
    ∃ row row', row <:+: ts ∧ row' <:+: us ∧ row ≠ [] ∧ List.Forall₂ R row row' ∧
      a = Token.verbatim row ∧ b = Token.verbatim row' := by
  obtain ⟨later, row, earlier, hpast, hne, ha, hb⟩ := h
  obtain ⟨hlength, hrelated⟩ := List.forall₂_iff_zip.1 hts
  have hzip : ts.zip us = earlier.reverse ++ (row.reverse ++ later.reverse) := by
    have hrow := congrArg List.reverse hpast
    simpa [ofTokens] using hrow
  have hpart : row.reverse <:+: ts.zip us := ⟨earlier.reverse, later.reverse, by simp [hzip]⟩
  have hfst := hpart.map Prod.fst
  have hsnd := hpart.map Prod.snd
  rw [List.map_fst_zip (Nat.le_of_eq hlength)] at hfst
  rw [List.map_snd_zip (Nat.le_of_eq hlength.symm)] at hsnd
  refine ⟨_, _, hfst, hsnd, by simpa using hne, ?_, ?_, ?_⟩
  · rw [List.forall₂_map_left_iff, List.forall₂_map_right_iff, List.forall₂_same]
    exact fun x hx => hrelated (hpart.mem hx)
  · rw [ha, List.map_reverse]
  · rw [hb, List.map_reverse]

end Past

-- ════════════════════════════════════════════════════════════════════════
-- Statements
-- ════════════════════════════════════════════════════════════════════════

namespace Grammar.Statement

variable {f : String → String} {past : Past} {limits : Limits} {ts us : List Token} {t u : Token}
  {s s' n : State}

/-- What is taken on one side is taken on the other, and leads to states that go with each
    other. -/
theorem takes_parallel (hf : f "" = "") (h : List.Forall₂ (Token.Counterpart f) ts us)
    (hs : State.Parallel f past s s') (htakes : Takes (step limits) s ts n) :
    ∃ n', Takes (step limits) s' us n' ∧
      State.Parallel f (Past.ofTokens ts us ++ past) n n' := by
  induction h generalizing past s s' with
  | nil =>
    obtain rfl := htakes
    exact ⟨s', rfl, hs⟩
  | @cons t u ts us ht _ ih =>
    obtain ⟨m, hm, htakes⟩ := htakes
    have hstep : (step limits s t).Parallel ((t, u) :: past) (State.Parallel f ((t, u) :: past))
        (Table.Corresponds f past.Excerpt) (step limits s' u) :=
      step_parallel hf ht hs
    rw [hm] at hstep
    generalize hv : step limits s' u = v at hstep
    cases hstep with
    | @taken _ m' hmm =>
      obtain ⟨n', htakes', hn⟩ := ih hmm htakes
      refine ⟨n', ⟨m', hv, htakes'⟩, ?_⟩
      rwa [Past.ofTokens_cons, List.append_assoc]

/-- The verdicts behind what is taken on either side. -/
theorem verdict_parallel (hf : f "" = "") (h : List.Forall₂ (Token.Counterpart f) ts us)
    (ht : t.Counterpart f u) (htakes : Takes (step limits) .start ts s) :
    ∃ s', Takes (step limits) .start us s' ∧
      (step limits s t).Parallel ((t, u) :: Past.ofTokens ts us)
        (State.Parallel f ((t, u) :: Past.ofTokens ts us))
        (Table.Corresponds f (Past.Excerpt (Past.ofTokens ts us))) (step limits s' u) := by
  have hstart : State.Parallel f [] .start .start := .start
  obtain ⟨s', htakes', hs⟩ := takes_parallel hf h hstart htakes
  rw [List.append_nil] at hs
  exact ⟨s', htakes', step_parallel hf ht hs⟩

/-- What is accepted on one side is accepted on the other. -/
theorem accepts_parallel (hf : f "" = "") (h : List.Forall₂ (Token.Counterpart f) ts us)
    (ht : t.Counterpart f u) {table : Table} (haccepts : Accepts (step limits) .start ts t table) :
    ∃ table', Accepts (step limits) .start us u table' ∧
      table.Corresponds f (Past.Excerpt (Past.ofTokens ts us)) table' := by
  obtain ⟨s, htakes, hcomplete⟩ := haccepts.takes
  obtain ⟨s', htakes', hverdict⟩ := verdict_parallel hf h ht htakes
  rw [hcomplete] at hverdict
  generalize hv : step limits s' u = v at hverdict
  cases hverdict with
  | @complete _ table' htable => exact ⟨table', htakes'.accepts hv, htable⟩

/-- What is refused on one side is refused on the other. -/
theorem refused_parallel (hf : f "" = "") (h : List.Forall₂ (Token.Counterpart f) ts us)
    (ht : t.Counterpart f u) {e : ParseError} (htakes : Takes (step limits) .start ts s)
    (hrefused : step limits s t = .refused e) :
    ∃ s' e', Takes (step limits) .start us s' ∧ step limits s' u = .refused e' ∧
      Past.Blames ((t, u) :: Past.ofTokens ts us) e e' := by
  obtain ⟨s', htakes', hverdict⟩ := verdict_parallel hf h ht htakes
  rw [hrefused] at hverdict
  generalize hv : step limits s' u = v at hverdict
  cases hverdict with
  | @refused _ e' he => exact ⟨s', e', htakes', hv, he⟩

end Grammar.Statement

end CreateTable
