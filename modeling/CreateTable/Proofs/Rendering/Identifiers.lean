import CreateTable.Proofs.Lexical.Layout
import CreateTable.Proofs.Rendering.Names

/-!
# Names read back

A written name is the next token wherever it stands, as long as what follows begins like something
that may follow a name. The token is a name and no keyword, and it stands for the name that was
written.

## Main statements

- `next_render` — a written name is the next token
- `render_reads_back` — that token is taken as the name, by every reader that a name is due to
-/

namespace CreateTable

open Lexical Grammar

variable {rest : List Char}

/-- A written name is the next token, and reading goes on behind it. -/
theorem next_render (name : String) (offset : Nat) (hrest : Name.Ends rest) :
    ∃ t, (⟨offset, (Name.render name).toList ++ rest⟩ : Cursor).next = (.ok t, ⟨t.stop, rest⟩) ∧
      t.kind = Name.kind name ∧ t.lead = [] ∧ t.text = (Name.render name).toList ∧
      t.span = ⟨offset, offset + Text.byteLength (Name.render name).toList⟩ := by
  have hread : Lexeme.read ([] ++ ((Name.render name).toList ++ rest)) =
      ⟨[], (Name.render name).toList, .ok (Name.kind name), rest⟩ :=
    Lexeme.read_of_first .nil (Name.not_begins_render name rest) (Name.first_render name hrest)
  obtain ⟨t, c', hnext, hkind, hlead, htext, hrest'⟩ :=
    Cursor.next_of_read (c := ⟨offset, (Name.render name).toList ++ rest⟩) hread
  obtain ⟨hstart, hstop⟩ := Cursor.start_of_next hnext
  have hstart' : t.start = offset := by simpa [hlead] using hstart
  obtain rfl : c' = ⟨t.stop, rest⟩ := by rw [← hstop, ← hrest']
  refine ⟨t, hnext, hkind, hlead, htext, ?_⟩
  rw [Token.span, Token.stop, hstart', htext]

/-- A written name is read as a bare or quoted name over all of its bytes, never as a keyword, and
    is taken as the name that was written wherever a name is due. -/
theorem render_reads_back (name : String) (offset : Nat) (hrest : Name.Ends rest) :
    ∃ t, (⟨offset, (Name.render name).toList ++ rest⟩ : Cursor).next = (.ok t, ⟨t.stop, rest⟩) ∧
      t.span = ⟨offset, offset + Text.byteLength (Name.render name).toList⟩ ∧
      t.lead = [] ∧ t.text = (Name.render name).toList ∧
      (t.kind = .identifier ∨ t.kind = .quotedIdentifier name) ∧ (∀ k, t.kind ≠ .keyword k) ∧
      (∀ (role : NameRole) (p : Point), p.window.current = t →
        Parser.name role p = (Parser.advance >>= fun _ => pure name) p) ∧
      ∀ {σ α : Type} (role : NameRole) (next : String → σ),
        (takeName t role next : Verdict σ α) = .taken (next name) ∧
        ∀ (r : Reader σ α) (s : σ), r.step s t = takeName t role next →
          r.runFrom s ⟨offset, (Name.render name).toList ++ rest⟩ =
            r.runFrom (next name) ⟨t.stop, rest⟩ := by
  obtain ⟨t, hnext, hkind, hlead, htext, hspan⟩ := next_render name offset hrest
  obtain ⟨hname, hkeyword⟩ := Name.names_of_kind hkind htext
  refine ⟨t, hnext, hspan, hlead, htext, ?_, hkeyword, fun role p hp => ?_,
    @fun σ α role next => ?_⟩
  · rw [hkind, Name.kind]
    split
    · exact .inl rfl
    · exact .inr rfl
  · rw [Parser.name, Parser.current_bind, hp, hname]
  · have htake : (takeName t role next : Verdict σ α) = .taken (next name) := by
      rw [takeName, hname]
    refine ⟨htake, fun r s hstep => ?_⟩
    rw [Reader.runFrom_of_taken hnext (hstep.trans htake)]

/-- A name that spells a keyword is written in quotes, and is a name before a point. -/
theorem render_reads_back_keyword :
    ∃ t, (⟨7, "\"Select\".t".toList⟩ : Cursor).next = (.ok t, ⟨t.stop, ['.', 't']⟩) ∧
      t.span = ⟨7, 15⟩ ∧ (∀ k, t.kind ≠ .keyword k) ∧
      (takeName t .table id : Verdict String Unit) = .taken "Select" := by
  have hends : Name.Ends ['.', 't'] := by
    rintro c hc
    obtain rfl := Option.some.inj hc
    exact .inr rfl
  have hrender : (Name.render "Select").toList ++ ['.', 't'] = "\"Select\".t".toList := by
    decide +kernel
  obtain ⟨t, hnext, hspan, -, -, -, hkeyword, -, htake⟩ := render_reads_back "Select" 7 hends
  rw [hrender] at hnext
  exact ⟨t, hnext, hspan, hkeyword, (htake .table id).1⟩

end CreateTable
