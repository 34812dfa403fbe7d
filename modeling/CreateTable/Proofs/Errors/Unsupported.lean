import CreateTable.Proofs.Errors.Fronts
import CreateTable.Proofs.Errors.Location
import CreateTable.Proofs.Limits.Relaxation

/-!
# What the grammar leaves out

Four constructs are known to the reader and have no place in the model of a table. They are refused
as such where they can be told from everything else, and nothing else is.

## Main definitions

- `Statement.Omitted` — a construct that is left out, by the tokens up to where it shows
- `Verdict.Supported` — a verdict that refuses nothing for being left out
- `Statement.OmissionAt` — a token that is refused for being left out

## Main statements

- `Statement.omitted_of_refused` — what is refused as left out is left out
- `Statement.refused_of_omitted` — what is left out is refused as such
- `unsupported_iff_omitted` — the two together, for texts
-/

namespace CreateTable

open Lexical Grammar

namespace Grammar.Statement

/-- A construct that is left out: what stands before the token that shows it. -/
inductive Omitted : List Token → Token → Prop
  /-- `CREATE [TEMP | TEMPORARY]` and something other than a table. -/
  | createsOther {create t : Token} {temps : List Token} {temporary : Bool} {word : Keyword} :
    create.kind = .keyword .create → Temporary temps temporary → t.kind = .keyword word →
    word ∈ [Keyword.virtual, .unique, .index, .view, .trigger] → Omitted (create :: temps) t
  /-- A table from a query. -/
  | asSelect {header : List Token} {t : Token} :
    Header header → t.kind = .keyword .as → Omitted header t
  /-- A column that is computed from others. -/
  | computed {depth count : Nat} {header columns front : List Token} {opening t : Token} :
    Header header → opening.kind = .leftParen → Body.LeadingColumns depth columns count →
    Column.Front depth front → t.kind = .keyword .generated ∨ t.kind = .keyword .as →
    Omitted (header ++ opening :: (columns ++ front)) t
  /-- A second statement behind one that is read and ends with a semicolon. -/
  | second {limits : Limits} {front : List Token} {semicolon t : Token}
      {written : List WrittenColumn} {table : Table} :
    Admits limits (front ++ [semicolon]) written table → semicolon.kind = .semicolon →
    t.kind ≠ .semicolon → t.kind ≠ .endOfInput → Omitted (front ++ [semicolon]) t

end Grammar.Statement

-- ════════════════════════════════════════════════════════════════════════
-- What is refused for other reasons
-- ════════════════════════════════════════════════════════════════════════

/-- A verdict that refuses nothing for being left out. -/
def Verdict.Supported {σ α : Type} (v : Verdict σ α) : Prop :=
  ∀ e, v = .refused e → e.cause.kind ≠ .unsupported

section

variable {σ α : Type} {t : Token}

theorem Verdict.supported_taken (s : σ) : (taken s : Verdict σ α).Supported := nofun

theorem Verdict.supported_complete (a : α) : (complete a : Verdict σ α).Supported := nofun

theorem Token.supported_refuse (t : Token) (what : Expectation) :
    (t.refuse what : Verdict σ α).Supported := by
  intro e h
  obtain rfl := Verdict.refused.inj h
  rw [Token.kind_unexpected]
  exact nofun

theorem Grammar.supported_takeKind (t : Token) (kind : TokenKind) (what : Expectation) (next : σ) :
    (takeKind t kind what next : Verdict σ α).Supported := by
  unfold takeKind
  split
  · exact Verdict.supported_taken _
  · exact Token.supported_refuse t what

theorem Grammar.supported_takeName (t : Token) (role : NameRole) (next : String → σ) :
    (takeName t role next : Verdict σ α).Supported := by
  unfold takeName
  split
  · exact Verdict.supported_taken _
  · exact Token.supported_refuse t _

end

namespace Grammar

variable {limits : Limits} {k : Token} {e : ParseError} {before : List Token}

namespace Body

/-- What is refused as left out in a body is a computed column. -/
theorem computed_of_refused {s : State} (h : step limits s k = .refused e)
    (he : e.cause.kind = .unsupported) :
    ∃ p column, s = .column p column ∧ Column.MayCompute limits column ∧
      (k.kind = .keyword .generated ∨ k.kind = .keyword .as) ∧ e.offset = k.start := by
  obtain ⟨u, cause, hblamed, rfl⟩ := (step_blames limits s k).blamed_of_refused h
  cases hblamed with
  | clause hcause => exact absurd he hcause.kind_ne_unsupported
  | column limit => cases he
  | first => cases he
  | @computed p column hs _ hk =>
    subst hs
    refine ⟨p, column, rfl, ?_, hk, rfl⟩
    obtain hbetween | hnamed | helse := Column.between_or_elsewhere limits column (.inr (.inr hk))
    · exact .inr hbetween
    · exact .inl hnamed
    · exfalso
      unfold step at h
      dsimp only at h
      generalize Column.step limits column k = v at h helse
      cases helse with
      | taken => cases h
      | refused hsupported =>
        obtain rfl := Verdict.refused.inj h
        exact hsupported he

variable {s : State} {t : Token} {items : Items}

/-- Only a closed body is complete. -/
theorem eq_closed_of_complete (h : step limits s t = .complete items) : s = .closed items := by
  cases s with
  | start => exact absurd h item_ne_complete
  | item p => exact absurd h item_ne_complete
  | column p column =>
    obtain ⟨c, -, h⟩ := Verdict.andThen_eq_complete.1 h
    exact absurd h afterColumn_ne_complete
  | constraint p constraint =>
    obtain ⟨r, -, h⟩ := Verdict.andThen_eq_complete.1 h
    split at h
    · exact absurd h afterConstraint_ne_complete
    · unfold requireColumn at h
      split at h
      · cases h
      · exact absurd h (Token.refuse_ne_complete _ _ _)
  | closed items' =>
    obtain rfl := Verdict.complete.inj h
    rfl

/-- Only a parenthesis closes a body. -/
theorem kind_of_taken_closed (h : step limits s t = .taken (.closed items)) :
    t.kind = .rightParen := by
  have hitem : ∀ {p}, item limits p t = .taken (.closed items) → t.kind = .rightParen := by
    intro p h
    obtain ⟨ht, -⟩ | ⟨inner, -, h⟩ | ⟨-, -, name, -, h⟩ := item_eq_taken h
    · exact ht
    · cases h
    · cases h
  have hafter : ∀ {p}, afterColumn p t = .taken (.closed items) → t.kind = .rightParen := by
    intro p h
    unfold afterColumn at h
    split at h
    · cases h
    · exact (finish_eq_taken h).1
  cases s with
  | start => exact hitem h
  | item p => exact hitem h
  | column p column =>
    obtain ⟨column', -, h⟩ | ⟨c, -, h⟩ := Verdict.andThen_eq_taken.1 h
    · cases h
    · exact hafter h
  | constraint p constraint =>
    obtain ⟨constraint', -, h⟩ | ⟨r, -, h⟩ := Verdict.andThen_eq_taken.1 h
    · cases h
    · split at h
      · unfold afterConstraint at h
        split at h
        · cases h
        · exact hafter h
      · unfold requireColumn at h
        split at h
        · cases h
        · exact absurd h (Token.refuse_ne_taken _ _ _)
  | closed items' => cases h

end Body

namespace Statement

variable {s s' : State} {table : Table}

theorem supported_finish (table : Table) (t : Token) : (finish table t).Supported := by
  unfold finish
  split
  · exact Verdict.supported_taken _
  · exact Verdict.supported_complete _
  · exact Token.supported_refuse t _

theorem supported_beginOption {t : Token} {otherwise : Verdict State Table}
    (h : otherwise.Supported) : (beginOption table t otherwise).Supported := by
  unfold beginOption
  split
  · exact Verdict.supported_taken _
  · split
    · exact Verdict.supported_taken _
    · exact h

theorem createsOther_iff {word : Keyword} :
    createsOther word ↔ word ∈ [Keyword.virtual, .unique, .index, .view, .trigger] := by
  cases word <;> simp [createsOther]

theorem tableWord_eq_refused (h : tableWord table k = .refused e)
    (he : e.cause.kind = .unsupported) :
    ∃ word, k.kind = .keyword word ∧ word ∈ [Keyword.virtual, .unique, .index, .view, .trigger] ∧
      e.offset = k.start := by
  unfold tableWord at h
  split at h
  · cases h
  · rename_i word _ hword
    split at h
    · rename_i hother
      obtain rfl := Verdict.refused.inj h
      exact ⟨word, hword, createsOther_iff.1 hother, rfl⟩
    · exact absurd he (Token.supported_refuse k _ e h)
  · exact absurd he (Token.supported_refuse k _ e h)

theorem afterName_eq_refused (h : afterName table k = .refused e)
    (he : e.cause.kind = .unsupported) : k.kind = .keyword .as ∧ e.offset = k.start := by
  unfold afterName at h
  split at h
  · rename_i has
    obtain rfl := Verdict.refused.inj h
    exact ⟨Token.isKeyword_iff.1 has, rfl⟩
  · exact absurd he (supported_takeKind k _ _ _ e h)

/-- Only a semicolon leads behind the end of a statement. -/
theorem kind_of_taken_terminated {t : Token} (h : step limits s t = .taken (.terminated table)) :
    t.kind = .semicolon := by
  cases transition_of_taken h with
  | bodyEnd _ hend => exact hend
  | optionsEnd hend => exact hend
  | semicolon hend => exact hend
  | firstOption _ hoption => cases hoption
  | nextOption hoption => cases hoption

/-- A statement that has been read up to a semicolon is read. -/
theorem admits_of_takes (h : Takes (step limits) .start before (.terminated table)) :
    ∃ front semicolon written, before = front ++ [semicolon] ∧ semicolon.kind = .semicolon ∧
      Admits limits before written table := by
  obtain ⟨front, semicolon, n, rfl, -, hlast⟩ := h.exists_last (by simp)
  have hcomplete : step limits (.terminated table) .ending = .complete table := rfl
  obtain ⟨written, hadmits⟩ := (accepts_iff (e := .ending) rfl).1 (h.accepts hcomplete)
  exact ⟨front, semicolon, written, rfl, kind_of_taken_terminated hlast, hadmits⟩

/-- What is refused as left out in a body makes its column a computed one. -/
theorem omitted_of_body_refused {body : Body.State}
    (htakes : Takes (step limits) .start before (.body table body))
    (h : step limits (.body table body) k = .refused e) (he : e.cause.kind = .unsupported) :
    Omitted before k ∧ e.offset = k.start := by
  obtain ⟨header, opening, us, rfl, hheader, hopening, hbody⟩ := behind_of_takes htakes
  have hrefused : Body.step limits body k = .refused e := by
    simp only [step] at h
    cases hv : Body.step limits body k with
    | taken body' => simp [hv] at h
    | refused e' => simpa [hv] using h
    | complete items =>
      rw [hv, Verdict.andThen_complete] at h
      exact absurd he (supported_beginOption (supported_finish _ k) e h)
  obtain ⟨p, column, rfl, hcolumn, hk, hoffset⟩ := Body.computed_of_refused hrefused he
  obtain ⟨-, -, columns, t, vs, name, rfl, ⟨hcolumns, -⟩, hname, hvs⟩ :=
    Body.behind_of_takes hbody
  have hfront := Column.front_of_takes hname hvs hcolumn
  exact ⟨.computed hheader hopening hcolumns hfront hk, hoffset⟩

/-- What is refused as left out is left out. -/
theorem omitted_of_refused (htakes : Takes (step limits) .start before s)
    (h : step limits s k = .refused e) (he : e.cause.kind = .unsupported) :
    Omitted before k ∧ ¬NamesTableIf before ∧ e.offset = k.start := by
  have hbehind := behind_of_takes htakes
  have hsettled := nameSettled_of_takes htakes
  cases s with
  | created =>
    obtain ⟨create, rfl, hcreate⟩ := hbehind
    simp only [step] at h
    split at h
    · cases h
    · cases h
    · obtain ⟨word, hk, hword, hoffset⟩ := tableWord_eq_refused h he
      refine ⟨.createsOther hcreate .absent hk hword, ?_, hoffset⟩
      simp [NamesTableIf, Token.isKeyword, hcreate]
  | temporary =>
    obtain ⟨create, temps, rfl, hcreate, htemps⟩ := hbehind
    obtain ⟨word, hk, hword, hoffset⟩ := tableWord_eq_refused h he
    refine ⟨.createsOther hcreate htemps hk hword, ?_, hoffset⟩
    obtain _ | (htemp | htemp) := htemps <;>
      simp [NamesTableIf, Token.isKeyword, hcreate, htemp]
  | named table name =>
    obtain ⟨us, t, first, rfl, hus, hfirst⟩ := hbehind
    simp only [step] at h
    split at h
    · cases h
    · obtain ⟨has, hoffset⟩ := afterName_eq_refused h he
      exact ⟨.asSelect (header_of_nameBehind hus (.plain hfirst)) has,
        hsettled.not_namesTableIf, hoffset⟩
  | bodyOpen table =>
    obtain ⟨has, hoffset⟩ := afterName_eq_refused h he
    exact ⟨.asSelect hbehind has, hsettled.not_namesTableIf, hoffset⟩
  | body table body =>
    obtain ⟨homitted, hoffset⟩ := omitted_of_body_refused htakes h he
    exact ⟨homitted, hsettled.not_namesTableIf, hoffset⟩
  | terminated table =>
    obtain ⟨front, semicolon, written, rfl, hsemicolon, hadmits⟩ := admits_of_takes htakes
    simp only [step] at h
    split at h
    · cases h
    · cases h
    · rename_i hk hend
      obtain rfl := Verdict.refused.inj h
      exact ⟨.second hadmits hsemicolon hk hend, hadmits.2.2, rfl⟩
  | start | ifWord _ | ifNot _ => exact absurd he (supported_takeKind k _ _ _ e h)
  | name _ | qualified _ => exact absurd he (supported_takeName k _ _ e h)
  | table table =>
    simp only [step] at h
    split at h
    · cases h
    · exact absurd he (supported_takeName k _ _ e h)
  | without table =>
    simp only [step] at h
    split at h
    · cases h
    · exact absurd he (Token.supported_refuse k _ e h)
  | optionEnd table =>
    simp only [step] at h
    split at h
    · cases h
    · exact absurd he (supported_finish table k e h)
  | option table =>
    exact absurd he (supported_beginOption (Token.supported_refuse k _) e h)

theorem BeginsOption.kind_ne_semicolon {t : Token} (h : BeginsOption table t s) :
    t.kind ≠ .semicolon := by
  intro ht
  cases h with
  | without hwithout => rw [ht] at hwithout; cases hwithout
  | strict hstrict => simp [Token.isBareWord, ht] at hstrict

/-- A semicolon behind which a statement may end is behind its end. -/
theorem terminated_of_semicolon {t ending : Token} (ht : t.kind = .semicolon)
    (h : step limits s t = .taken s') (hcomplete : step limits s' ending = .complete table) :
    s' = .terminated table := by
  obtain ⟨-, ⟨table', body, items, rfl, hitems, rfl⟩ | rfl | rfl⟩ := step_eq_complete hcomplete
  · -- a semicolon of an expression closes no body
    cases transition_of_taken h with
    | body hbody =>
      obtain rfl := Body.eq_closed_of_complete hitems
      have hclosing := Body.kind_of_taken_closed hbody
      rw [ht] at hclosing
      cases hclosing
    | opening hopening => rw [ht] at hopening; cases hopening
    | openingBehindSchema hopening => rw [ht] at hopening; cases hopening
    | firstOption _ hoption => cases hoption
    | nextOption hoption => cases hoption
  · cases transition_of_taken h with
    | firstOption _ hoption => exact absurd ht hoption.kind_ne_semicolon
    | nextOption hoption => exact absurd ht hoption.kind_ne_semicolon
    | rowid hrowid => simp [Token.isWord, Token.isBareWord, ht] at hrowid
  · rfl

/-- The token `k` behind `before` is refused for being left out. -/
def OmissionAt (limits : Limits) (before : List Token) (k : Token) : Prop :=
  ∃ s e, Takes (step limits) .start before s ∧ step limits s k = .refused e ∧
    e.cause.kind = .unsupported ∧ e.offset = k.start

theorem tableWord_of_createsOther {word : Keyword} (hk : k.kind = .keyword word)
    (hword : createsOther word) (table : Table) :
    tableWord table k = .refused (k.error (.createsOther word)) := by
  have hne : word ≠ .table := by
    rintro rfl
    cases hword
  unfold tableWord
  split
  · rename_i hkind
    exact absurd (TokenKind.keyword.inj (hk.symm.trans hkind)) hne
  · rename_i word' _ hkind
    obtain rfl := TokenKind.keyword.inj (hk.symm.trans hkind)
    rw [if_pos hword]
  · rename_i hkind
    exact absurd hk (hkind word)

theorem step_created_of_createsOther {word : Keyword} (hk : k.kind = .keyword word)
    (hword : createsOther word) : step limits .created k = tableWord {} k := by
  have htemp : word ≠ .temp ∧ word ≠ .temporary := by
    constructor <;>
    · rintro rfl
      cases hword
  unfold step
  dsimp only
  split
  · rename_i hkind
    exact absurd (TokenKind.keyword.inj (hk.symm.trans hkind)) htemp.1
  · rename_i hkind
    exact absurd (TokenKind.keyword.inj (hk.symm.trans hkind)) htemp.2
  · rfl

theorem omissionAt_createsOther {create : Token} {temps : List Token} {temporary : Bool}
    {word : Keyword} (hcreate : create.kind = .keyword .create) (htemps : Temporary temps temporary)
    (hk : k.kind = .keyword word) (hword : createsOther word) :
    OmissionAt limits (create :: temps) k := by
  have hfirst : step limits .start create = .taken .created :=
    takeKeyword_eq_taken.2 ⟨hcreate, rfl⟩
  have hother := tableWord_of_createsOther hk hword
  cases htemps with
  | absent =>
    have hstep : step limits .created k = .refused (k.error (.createsOther word)) :=
      (step_created_of_createsOther hk hword).trans (hother {})
    exact ⟨.created, _, ⟨_, hfirst, rfl⟩, hstep, rfl, rfl⟩
  | @present temp htemp =>
    have hsecond : step limits .created temp = .taken .temporary := by
      obtain htemp | htemp := htemp <;> simp only [step, htemp]
    exact ⟨.temporary, _, ⟨_, hfirst, _, hsecond, rfl⟩, hother _, rfl, rfl⟩

theorem omissionAt_asSelect (hheader : Header before) (hif : ¬NamesTableIf before)
    (has : k.kind = .keyword .as) : OmissionAt limits before k := by
  obtain ⟨s, htakes, table, hs⟩ := takes_of_header limits hheader hif
  have hstep : step limits s k = .refused (k.error .asSelect) := by
    rw [hs k (by simp [has])]
    simp [afterName, has]
  exact ⟨s, _, htakes, hstep, rfl, rfl⟩

theorem omissionAt_computed {count : Nat} {header columns front : List Token} {opening : Token}
    (hheader : Header header) (hif : ¬NamesTableIf header) (hopening : opening.kind = .leftParen)
    (hcolumns : Body.LeadingColumns limits.maxExprDepth columns count)
    (hcount : count < limits.maxColumns) (hfront : Column.Front limits.maxExprDepth front)
    (hk : k.kind = .keyword .generated ∨ k.kind = .keyword .as) :
    OmissionAt limits (header ++ opening :: (columns ++ front)) k := by
  obtain ⟨t, us, column, name, rfl, hname, hus, hcolumn⟩ := Column.takes_of_front hfront
  obtain ⟨table, p, htakes⟩ :=
    takes_of_leadingColumns hheader hif hopening hcolumns hcount hname
  have hbody : Takes (Body.step limits) (.column p (.ofName name)) us (.column p column) :=
    hus.part (fun column => Body.afterColumn (p.addColumn column)) fun _ _ => rfl
  have hrest : Takes (step limits) (.body table (.column p (.ofName name))) us
      (.body table (.column p column)) := hbody.part _ fun _ _ => rfl
  have hstep : step limits (.body table (.column p column)) k =
      .refused (k.error .generatedColumn) := by
    simp only [step, Body.step, Column.step_of_mayCompute hcolumn hk, Verdict.andThen_refused]
  refine ⟨_, _, ?_, hstep, rfl, rfl⟩
  simpa using takes_append.2 ⟨_, htakes, hrest⟩

theorem omissionAt_second {front : List Token} {semicolon : Token} {written : List WrittenColumn}
    (hadmits : Admits limits (front ++ [semicolon]) written table)
    (hsemicolon : semicolon.kind = .semicolon) (hk : k.kind ≠ .semicolon)
    (hend : k.kind ≠ .endOfInput) : OmissionAt limits (front ++ [semicolon]) k := by
  obtain ⟨s, htakes, hcomplete⟩ := (accepts_of_admits (e := .ending) hadmits rfl).takes
  obtain ⟨n, -, _, hlast, rfl⟩ := takes_append.1 htakes
  obtain rfl := terminated_of_semicolon hsemicolon hlast hcomplete
  have hstep : step limits (.terminated table) k = .refused (k.error .secondStatement) := by
    unfold step
    dsimp only
    split
    · exact absurd ‹_› hk
    · exact absurd ‹_› hend
    · rfl
  exact ⟨_, _, htakes, hstep, rfl, rfl⟩

/-- What is left out is refused as such, under limits that leave room for what stands before. -/
theorem refused_of_omitted (h : Omitted before k) (hif : ¬NamesTableIf before) :
    ∃ columns depth, ∀ limits : Limits, limits.maxColumns = columns →
      limits.maxExprDepth = depth → OmissionAt limits before k := by
  cases h with
  | createsOther hcreate htemps hk hword =>
    exact ⟨0, 0, fun _ _ _ => omissionAt_createsOther hcreate htemps hk (createsOther_iff.2 hword)⟩
  | asSelect hheader has => exact ⟨0, 0, fun _ _ _ => omissionAt_asSelect hheader hif has⟩
  | @computed depth count header columns front opening _ hheader hopening hcolumns hfront hk =>
    have hheaderIf : ¬NamesTableIf header := by
      intro h
      exact hif (h.append (by simp [hopening]) _)
    refine ⟨count + 1, depth, fun limits hcount hdepth => ?_⟩
    subst hdepth
    exact omissionAt_computed hheader hheaderIf hopening hcolumns (by omega) hfront hk
  | @second limits' front semicolon _ written table hadmits hsemicolon hk hend =>
    refine ⟨limits'.maxColumns, limits'.maxExprDepth, fun limits hcolumns hdepth => ?_⟩
    have hadmits' : Admits limits (front ++ [semicolon]) written table := by
      rwa [Admits, hcolumns, hdepth]
    exact omissionAt_second hadmits' hsemicolon hk hend

end Statement

end Grammar

-- ════════════════════════════════════════════════════════════════════════
-- Texts
-- ════════════════════════════════════════════════════════════════════════

section

variable {limits : Limits} {sql : String} {before : List Token} {k : Token} {e : ParseError}

/-- Limits that are not exceeded give the same result. -/
theorem parse_eq_of_not_exhausted {limits' : Limits}
    (h : ∀ e, parse limits sql = .error e → e.cause.kind ≠ .exhausted)
    (h' : ∀ e, parse limits' sql = .error e → e.cause.kind ≠ .exhausted) :
    parse limits sql = parse limits' sql := by
  obtain ⟨looser, hle, hle'⟩ := Limits.exists_ge limits limits'
  have hlength := length_le_of_not_exhausted h
  have hlength' := length_le_of_not_exhausted h'
  rw [parse_of_length_le hlength] at h ⊢
  rw [parse_of_length_le hlength'] at h' ⊢
  rw [← statementReader_run_of_le hle h, ← statementReader_run_of_le hle' h']

/-- What is left out is reported where it shows, unless a limit is exceeded. -/
theorem unsupported_of_omitted
    (hlimits : ∀ e, parse limits sql = .error e → e.cause.kind ≠ .exhausted)
    (hk : StandsBehind sql before k) (h : Statement.Omitted before k)
    (hif : ¬Statement.NamesTableIf before) :
    ∃ e, parse limits sql = .error e ∧ e.cause.kind = .unsupported ∧ e.offset = k.start := by
  obtain ⟨columns, depth, hroom⟩ := Statement.refused_of_omitted h hif
  let roomy : Limits :=
    { maxSqlLength := sql.utf8ByteSize, maxColumns := columns, maxExprDepth := depth }
  obtain ⟨s, e, htakes, hrefused, hkind, hoffset⟩ := hroom roomy rfl rfl
  obtain ⟨c, c', hreads, hnext⟩ := hk
  have hparse : parse roomy sql = .error e := by
    rw [parse_of_length_le (show sql.utf8ByteSize ≤ roomy.maxSqlLength from le_rfl)]
    exact Reader.runFrom_of_takes (r := statementReader roomy) hreads htakes hnext hrefused
  have hspare := not_exhausted_of_error hparse (by simp [hkind])
  rw [parse_eq_of_not_exhausted hlimits hspare]
  exact ⟨e, hparse, hkind, hoffset⟩

/-- What is reported as left out is left out. -/
theorem omitted_of_unsupported (h : parse limits sql = .error e)
    (he : e.cause.kind = .unsupported) :
    ∃ before k, StandsBehind sql before k ∧ Statement.Omitted before k ∧
      ¬Statement.NamesTableIf before ∧ e.offset = k.start := by
  have hlength := length_le_of_not_exhausted (not_exhausted_of_error h (by simp [he]))
  obtain ⟨before, c, c', -, hfault⟩ | ⟨before, k, s, hk, htakes, hrefused⟩ :=
    error_or_refused_of_parse hlength h
  · rw [kind_of_next_error hfault] at he
    cases he
  · obtain ⟨homitted, hif, hoffset⟩ := Statement.omitted_of_refused htakes hrefused he
    exact ⟨before, k, hk, homitted, hif, hoffset⟩

/-- Where no limit is exceeded, a text is reported to use something that is left out at just those
    tokens where something left out shows, unless the table is named by a bare `IF`. Whatever else
    is not parsed is not well formed. -/
theorem unsupported_iff_omitted
    (hlimits : ∀ e, parse limits sql = .error e → e.cause.kind ≠ .exhausted) :
    (∀ before k, StandsBehind sql before k →
      ((∃ e, parse limits sql = .error e ∧ e.cause.kind = .unsupported ∧ e.offset = k.start) ↔
        Statement.Omitted before k ∧ ¬Statement.NamesTableIf before)) ∧
    ∀ e, parse limits sql = .error e →
      (∀ before k, StandsBehind sql before k → Statement.Omitted before k →
        Statement.NamesTableIf before) →
      e.cause.kind = .malformed := by
  constructor
  · intro before k hk
    constructor
    · rintro ⟨e, h, he, hoffset⟩
      obtain ⟨before', k', hk', homitted, hif, hoffset'⟩ := omitted_of_unsupported h he
      obtain ⟨rfl, rfl⟩ := hk.eq_of_start_eq hk' (hoffset.symm.trans hoffset')
      exact ⟨homitted, hif⟩
    · rintro ⟨homitted, hif⟩
      exact unsupported_of_omitted hlimits hk homitted hif
  · intro e h hnone
    cases hkind : e.cause.kind with
    | malformed => rfl
    | exhausted => exact absurd hkind (hlimits e h)
    | unsupported =>
      obtain ⟨before, k, hk, homitted, hif, -⟩ := omitted_of_unsupported h hkind
      exact absurd (hnone before k hk homitted) hif

/-- A computed column behind its name. -/
theorem unsupported_iff_omitted_generated :
    ∃ before k, StandsBehind "CREATE TABLE t(a GENERATED)" before k ∧ k.start = 17 ∧
      Statement.Omitted before k := by
  have hrefused : error? (parse {} "CREATE TABLE t(a GENERATED)") =
      some { cause := .generatedColumn, offset := 17, token := some "GENERATED" } := by
    rw [parse_eq_run]
    decide +kernel
  have h := eq_error_of_error? hrefused
  have htokens : (tokenize "CREATE TABLE t(a GENERATED)".toList).toOption = some
      ([⟨.keyword .create, [], "CREATE".toList, 0⟩, ⟨.keyword .table, [' '], "TABLE".toList, 7⟩,
        ⟨.identifier, [' '], ['t'], 13⟩, ⟨.leftParen, [], ['('], 14⟩,
        ⟨.identifier, [], ['a'], 15⟩] ++ ⟨.keyword .generated, [' '], "GENERATED".toList, 17⟩ ::
       [⟨.rightParen, [], [')'], 26⟩]) := by decide +kernel
  have hk := standsBehind_of_tokenize (eq_ok_of_toOption htokens)
  have hlimits : ∀ e, parse {} "CREATE TABLE t(a GENERATED)" = .error e →
      e.cause.kind ≠ .exhausted := by
    intro e he
    obtain rfl := Except.error.inj (h.symm.trans he)
    exact nofun
  obtain ⟨hiff, -⟩ := unsupported_iff_omitted hlimits
  exact ⟨_, _, hk, rfl, ((hiff _ _ hk).1 ⟨_, h, rfl, rfl⟩).1⟩

/-- A table named by the bare word `IF` is made from a query, and the query is not what is
    reported. -/
theorem omitted_and_malformed :
    (∀ e, parse {} "CREATE TABLE if AS SELECT 1" = .error e → e.cause.kind ≠ .exhausted) ∧
    ∃ before k, StandsBehind "CREATE TABLE if AS SELECT 1" before k ∧
      Statement.Omitted before k ∧
      ¬∃ e, parse {} "CREATE TABLE if AS SELECT 1" = .error e ∧ e.cause.kind = .unsupported ∧
        e.offset = k.start := by
  have hrefused : error? (parse {} "CREATE TABLE if AS SELECT 1") =
      some { cause := .expected .notAfterIf, offset := 16, token := some "AS" } := by
    decide +kernel
  have h := eq_error_of_error? hrefused
  have hmalformed : ∀ e, parse {} "CREATE TABLE if AS SELECT 1" = .error e →
      e.cause.kind = .malformed := by
    intro e he
    obtain rfl := Except.error.inj (h.symm.trans he)
    rfl
  have htokens : (tokenize "CREATE TABLE if AS SELECT 1".toList).toOption = some
      ([⟨.keyword .create, [], "CREATE".toList, 0⟩, ⟨.keyword .table, [' '], "TABLE".toList, 7⟩,
        ⟨.keyword .if, [' '], "if".toList, 13⟩] ++ ⟨.keyword .as, [' '], "AS".toList, 16⟩ ::
       [⟨.keyword .select, [' '], "SELECT".toList, 19⟩, ⟨.number, [' '], ['1'], 26⟩]) := by
    decide +kernel
  refine ⟨fun e he hkind => ?_, _, _, standsBehind_of_tokenize (eq_ok_of_toOption htokens), ?_, ?_⟩
  · cases (hmalformed e he).symm.trans hkind
  · have hname : Statement.TableName [⟨.keyword .if, [' '], "if".toList, 13⟩] none "if" :=
      .plain (by decide +kernel)
    exact .asSelect (.intro (.intro rfl .absent rfl) .absent hname) rfl
  · rintro ⟨e, he, hkind, -⟩
    cases (hmalformed e he).symm.trans hkind

end

end CreateTable
