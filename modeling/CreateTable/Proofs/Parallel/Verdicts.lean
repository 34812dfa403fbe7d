import CreateTable.Grammar.Statement
import CreateTable.Proofs.Parallel.Models

/-!
# Readers side by side

Two readers are offered tokens that go with each other, pair by pair. What one makes of its tokens
goes with what the other makes of its own: both take a token, both are complete, or both refuse the
same one for the same cause.

## Main definitions

- `Token.Counterpart` — a token in the place of another one
- `Past` — the tokens that have been taken on either side
- `Past.Latest`, `Past.Excerpt` — tokens in a row, and the texts of tokens in a row
- `Verdict.Parallel` — verdicts that go with each other

## Design notes

Texts that are held as they were written are related through the tokens that they are the text of:
the same ones on either side. The relation therefore grows as tokens are taken, while one on rows
that are still growing themselves does not, and is about the latest tokens.
-/

namespace CreateTable

variable {f : String → String}

-- ════════════════════════════════════════════════════════════════════════
-- Tokens
-- ════════════════════════════════════════════════════════════════════════

namespace TokenKind

/-- A kind with another name or value. -/
def mapText (f : String → String) : TokenKind → TokenKind
  | .quotedIdentifier name => .quotedIdentifier (f name)
  | .stringLiteral value => .stringLiteral (f value)
  | k => k

/-- Kinds that are the same but for a name or value. -/
inductive Similar : TokenKind → TokenKind → Prop
  | same (k : TokenKind) : Similar k k
  | quotedIdentifier (name name' : String) :
    Similar (.quotedIdentifier name) (.quotedIdentifier name')
  | stringLiteral (value value' : String) : Similar (.stringLiteral value) (.stringLiteral value')

theorem similar_mapText (f : String → String) (k : TokenKind) : k.Similar (k.mapText f) := by
  cases k with
  | quotedIdentifier name => exact .quotedIdentifier name _
  | stringLiteral value => exact .stringLiteral value _
  | _ => exact .same _

/-- Whether a kind has a name or value. -/
def hasText : TokenKind → Bool
  | .quotedIdentifier _ | .stringLiteral _ => true
  | _ => false

theorem Similar.eq_iff {k k' : TokenKind} (h : k.Similar k') (kind : TokenKind)
    (hkind : kind.hasText = false) : k' = kind ↔ k = kind := by
  cases h with
  | same => rfl
  | quotedIdentifier | stringLiteral =>
    constructor <;> (rintro rfl; cases hkind)

end TokenKind

namespace Token

/-- A token in the place of another one: of the same kind, and with its texts spelled by `f` such
    that no word of the grammar and no sign is mistaken. -/
structure Counterpart (f : String → String) (t u : Token) : Prop where
  kind : u.kind = t.kind.mapText f
  source : u.source = f t.source
  isSign : u.isSign = t.isSign
  isBareWord : ∀ word, u.isBareWord word = t.isBareWord word
  isWord : ∀ word, u.isWord word = t.isWord word

variable {t u : Token}

theorem Counterpart.similar (h : t.Counterpart f u) : t.kind.Similar u.kind :=
  h.kind ▸ t.kind.similar_mapText f

theorem Counterpart.isKeyword (h : t.Counterpart f u) (word : Keyword) :
    u.isKeyword word = t.isKeyword word := by
  rw [Bool.eq_iff_iff, Token.isKeyword, Token.isKeyword, beq_iff_eq, beq_iff_eq]
  exact h.similar.eq_iff _ rfl

theorem Counterpart.isEnd (h : t.Counterpart f u) : u.isEnd = t.isEnd := by
  rw [Bool.eq_iff_iff, Token.isEnd, Token.isEnd, beq_iff_eq, beq_iff_eq]
  exact h.similar.eq_iff _ rfl

theorem Counterpart.name? (h : t.Counterpart f u) : u.name? = t.name?.map f := by
  unfold Token.name?
  rw [h.kind, h.source]
  cases t.kind with
  | keyword word =>
    dsimp only [TokenKind.mapText]
    split <;> rfl
  | _ => rfl

theorem Counterpart.isTypeWord (h : t.Counterpart f u) : u.isTypeWord = t.isTypeWord := by
  rw [Token.isTypeWord, Token.isTypeWord, h.name?, h.isKeyword, Option.isSome_map]

theorem Counterpart.sortOrder? (h : t.Counterpart f u) : u.sortOrder? = t.sortOrder? := by
  unfold Token.sortOrder?
  rw [h.kind]
  cases t.kind <;> rfl

end Token

-- ════════════════════════════════════════════════════════════════════════
-- What has been taken
-- ════════════════════════════════════════════════════════════════════════

/-- The tokens that have been taken on either side, latest first. -/
abbrev Past := List (Token × Token)

namespace Past

/-- The latest tokens on either side, latest first. -/
def Latest (past : Past) (ts us : List Token) : Prop :=
  ∃ row earlier, past = row ++ earlier ∧ ts = row.map Prod.fst ∧ us = row.map Prod.snd

/-- The texts of tokens in a row, of the same ones on either side. -/
def Excerpt (past : Past) (a b : String) : Prop :=
  ∃ later row earlier, past = later ++ (row ++ earlier) ∧ row ≠ [] ∧
    a = Token.verbatim (row.map Prod.fst).reverse ∧ b = Token.verbatim (row.map Prod.snd).reverse

/-- Tokens that go with each other and have been taken side by side. -/
structure Pairs (past : Past) (f : String → String) (t u : Token) : Prop where
  counterpart : t.Counterpart f u
  mem : (t, u) ∈ past

/-- Errors for one cause at the same token on either side. -/
inductive Blames (past : Past) : ParseError → ParseError → Prop
  | intro {t u : Token} {cause : Cause} :
    (t, u) ∈ past → Blames past (t.error cause) (u.error cause)

variable {past : Past} {t u : Token} {ts us : List Token} {a b : String}

theorem Pairs.now (past : Past) (h : t.Counterpart f u) : Pairs ((t, u) :: past) f t u :=
  ⟨h, List.mem_cons_self ..⟩

theorem Pairs.later (h : past.Pairs f t u) (p : Token × Token) : Pairs (p :: past) f t u :=
  ⟨h.counterpart, List.mem_cons_of_mem _ h.mem⟩

theorem Latest.nil : Latest past [] [] := ⟨[], past, rfl, rfl, rfl⟩

theorem Latest.cons (h : Latest past ts us) : Latest ((t, u) :: past) (t :: ts) (u :: us) := by
  obtain ⟨row, earlier, rfl, rfl, rfl⟩ := h
  exact ⟨(t, u) :: row, earlier, rfl, rfl, rfl⟩

theorem Latest.isEmpty (h : Latest past ts us) : us.isEmpty = ts.isEmpty := by
  obtain ⟨row, earlier, -, rfl, rfl⟩ := h
  cases row <;> rfl

theorem Latest.excerpt (h : Latest past ts us) (hne : ts ≠ []) :
    Excerpt past (Token.verbatim ts.reverse) (Token.verbatim us.reverse) := by
  obtain ⟨row, earlier, rfl, rfl, rfl⟩ := h
  refine ⟨[], row, earlier, rfl, ?_, rfl, rfl⟩
  rintro rfl
  exact hne rfl

/-- The text of the token that has been taken last. -/
theorem Excerpt.single (past : Past) (t u : Token) :
    Excerpt ((t, u) :: past) t.source u.source := by
  refine ⟨[], [(t, u)], past, rfl, List.cons_ne_nil _ _, ?_, ?_⟩ <;>
    simp [Token.verbatim, Token.source]

/-- Texts that go with each other do so when one more token has been taken. -/
theorem Excerpt.later (h : Excerpt past a b) (p : Token × Token) : Excerpt (p :: past) a b := by
  obtain ⟨later, row, earlier, rfl, hne, ha, hb⟩ := h
  exact ⟨p :: later, row, earlier, rfl, hne, ha, hb⟩

end Past

-- ════════════════════════════════════════════════════════════════════════
-- Verdicts
-- ════════════════════════════════════════════════════════════════════════

/-- Verdicts that go with each other: both take the token and lead to related states, both are
    complete with related results, or both refuse the same token for the same cause. -/
inductive Verdict.Parallel {σ τ α β : Type} (past : Past) (S : σ → τ → Prop) (A : α → β → Prop) :
    Verdict σ α → Verdict τ β → Prop
  | taken {s : σ} {s' : τ} : S s s' → Parallel past S A (taken s) (taken s')
  | complete {a : α} {a' : β} : A a a' → Parallel past S A (complete a) (complete a')
  | refused {e e' : ParseError} : past.Blames e e' → Parallel past S A (refused e) (refused e')

namespace Verdict

variable {σ σ' τ τ' α α' β β' : Type} {past : Past} {S : σ → τ → Prop} {S' : σ' → τ' → Prop}
  {A : α → α' → Prop} {B : β → β' → Prop} {t u : Token}

/-- Readers go with each other where their parts do, in the parts and behind them. -/
theorem Parallel.andThen {v : Verdict σ α} {v' : Verdict τ α'} {within : σ → σ'}
    {within' : τ → τ'} {after : α → Verdict σ' β} {after' : α' → Verdict τ' β'}
    (h : v.Parallel past S A v') (hin : ∀ s s', S s s' → S' (within s) (within' s'))
    (hout : ∀ a a', A a a' → (after a).Parallel past S' B (after' a')) :
    (v.andThen within after).Parallel past S' B (v'.andThen within' after') := by
  cases h with
  | taken hs => exact .taken (hin _ _ hs)
  | complete ha => exact hout _ _ ha
  | refused he => exact .refused he

theorem parallel_error (cause : Cause) (h : past.Pairs f t u) :
    (refused (t.error cause) : Verdict σ α).Parallel past S A (refused (u.error cause)) :=
  .refused (.intro h.mem)

/-- Something else is due on either side. -/
theorem parallel_refuse (what : Expectation) (h : past.Pairs f t u) :
    (t.refuse what : Verdict σ α).Parallel past S A (u.refuse what) := by
  unfold Token.refuse Token.unexpected
  rw [h.counterpart.isEnd]
  exact parallel_error _ h

end Verdict

namespace Grammar

open Verdict

variable {σ τ α β : Type} {past : Past} {S : σ → τ → Prop} {A : α → β → Prop} {t u : Token}

theorem parallel_takeKind {kind : TokenKind} (what : Expectation) {next : σ} {next' : τ}
    (hkind : kind.hasText = false) (h : past.Pairs f t u) (hnext : S next next') :
    (takeKind t kind what next).Parallel past S A (takeKind u kind what next') := by
  unfold takeKind
  simp only [h.counterpart.similar.eq_iff kind hkind]
  split
  · exact .taken hnext
  · exact parallel_refuse what h

theorem parallel_takeKeyword (word : Keyword) (what : Expectation) {next : σ} {next' : τ}
    (h : past.Pairs f t u) (hnext : S next next') :
    (takeKeyword t word what next).Parallel past S A (takeKeyword u word what next') :=
  parallel_takeKind what rfl h hnext

theorem parallel_takeName (role : NameRole) {next : String → σ} {next' : String → τ}
    (h : past.Pairs f t u) (hnext : ∀ name, S (next name) (next' (f name))) :
    (takeName t role next).Parallel past S A (takeName u role next') := by
  unfold takeName
  rw [h.counterpart.name?]
  cases t.name? with
  | none => exact parallel_refuse _ h
  | some name => exact .taken (hnext name)

end Grammar

end CreateTable
