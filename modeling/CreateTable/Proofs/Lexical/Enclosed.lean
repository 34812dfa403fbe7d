import CreateTable.Lexical.Quote

/-!
# Text before a closing mark

How a text is written before a closing mark, so that reading up to the mark gives it back.

## Main definitions

- `Enclosed.written` — a text as it stands before a closing mark

## Main statements

- `Enclosed.scan_written` — what is written is read back
- `Enclosed.read?_eq_some` — what is read is what is written so, and nothing else is
-/

namespace CreateTable.Lexical

namespace Enclosed

variable {close c : Char} {doubles : Bool} {inner value text rest : List Char} {e : Enclosed}

theorem scan_cons (hc : c ≠ close) :
    scan close doubles inner value (c :: rest) =
      scan close doubles (c :: inner) (c :: value) rest := by
  rw [scan.eq_def]
  simp only [if_neg hc]

theorem scan_twice :
    scan close true inner value (close :: close :: rest) =
      scan close true (close :: close :: inner) (close :: value) rest := by
  rw [scan, if_pos rfl]
  simp

theorem scan_close (hrest : doubles → rest.head? ≠ some close) :
    scan close doubles inner value (close :: rest) =
      some ⟨inner.reverse, value.reverse, rest⟩ := by
  rw [scan.eq_def]
  simp only [if_true]
  split
  · rename_i d rest
    have hd : d ≠ close := by simpa using hrest rfl
    rw [if_neg hd]
  · rfl

/-- A text as it stands before a closing mark, which is written twice in it if it is doubled. -/
def written (close : Char) (doubles : Bool) (value : List Char) : List Char :=
  if doubles then value.flatMap fun c => if c = close then [c, c] else [c] else value

@[simp] theorem written_nil : written close doubles [] = [] := by
  cases doubles <;> rfl

theorem written_twice (value : List Char) :
    written close true (close :: value) = close :: close :: written close true value := by
  simp [written]

theorem written_cons (hc : c ≠ close) (value : List Char) :
    written close doubles (c :: value) = c :: written close doubles value := by
  cases doubles <;> simp [written, hc]

/-- What is written before a closing mark is read up to the mark. -/
theorem scan_written (more : List Char) (hmore : doubles = false → close ∉ more)
    (hrest : doubles → rest.head? ≠ some close) :
    scan close doubles inner value (written close doubles more ++ close :: rest) =
      some ⟨inner.reverse ++ written close doubles more, value.reverse ++ more, rest⟩ := by
  induction more generalizing inner value with
  | nil => simp [scan_close hrest]
  | cons c more ih =>
    by_cases hc : c = close
    · subst hc
      cases doubles with
      | false => exact absurd List.mem_cons_self (hmore rfl)
      | true =>
        rw [written_twice, List.cons_append, List.cons_append, scan_twice, ih nofun]
        simp
    · have hmore' : doubles = false → close ∉ more :=
        fun hdoubles hmem => hmore hdoubles (List.mem_cons_of_mem c hmem)
      rw [written_cons hc, List.cons_append, scan_cons hc, ih hmore']
      simp

/-- Along a scan, what is read before the closing mark is what is written there. -/
private theorem written_of_scan (h : scan close doubles inner value text = some e) :
    ∃ more, e.inner = inner.reverse ++ written close doubles more ∧
      e.value = value.reverse ++ more ∧ (doubles = false → close ∉ more) ∧
      (doubles → e.rest.head? ≠ some close) := by
  fun_induction scan close doubles inner value text with
  | case1 => cases h
  | case2 inner value rest hdoubles ih =>
    obtain ⟨more, hinner, hvalue, -, hrest⟩ := ih h
    obtain rfl : doubles = true := hdoubles
    refine ⟨close :: more, ?_, by simpa using hvalue, by simp, hrest⟩
    rw [written_twice]
    simpa using hinner
  | case3 inner value d rest _ hd =>
    obtain rfl := Option.some.inj h
    exact ⟨[], by simp, by simp, by simp, fun _ => by simpa using hd⟩
  | case4 inner value rest hnone =>
    obtain rfl := Option.some.inj h
    refine ⟨[], by simp, by simp, by simp, fun hdoubles => ?_⟩
    cases rest with
    | nil => simp
    | cons d rest => exact (hnone d rest hdoubles rfl).elim
  | case5 inner value c rest hc ih =>
    obtain ⟨more, hinner, hvalue, hmore, hrest⟩ := ih h
    refine ⟨c :: more, ?_, by simpa using hvalue, fun hdoubles hmem => ?_, hrest⟩
    · rw [written_cons hc]
      simpa using hinner
    · obtain rfl | hmem := List.mem_cons.1 hmem
      · exact hc rfl
      · exact hmore hdoubles hmem

/-- What stands before a closing mark is what is written there, and the mark is the first that is
    not doubled. -/
theorem read?_eq_some :
    read? close doubles text = some e ↔
      text = e.inner ++ close :: e.rest ∧ e.inner = written close doubles e.value ∧
        (doubles = false → close ∉ e.value) ∧ (doubles → e.rest.head? ≠ some close) := by
  constructor
  · intro h
    obtain ⟨more, hinner, hvalue, hmore, hrest⟩ := written_of_scan h
    rw [List.reverse_nil, List.nil_append] at hinner hvalue
    subst hvalue
    exact ⟨eq_of_read? h, hinner, hmore, hrest⟩
  · rintro ⟨rfl, hinner, hvalue, hrest⟩
    rw [hinner, read?, scan_written e.value hvalue hrest]
    simp only [List.reverse_nil, List.nil_append, ← hinner]

end Enclosed

end CreateTable.Lexical
