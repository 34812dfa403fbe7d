import CreateTable.Json
import Mathlib.Logic.Function.Basic

/-!
# JSON texts end by themselves

Where the text of a value ends can be told from the text alone, whatever stands behind it. So no two
values have one text, however they are put together.

## Main definitions

- `unescape?` — the character that the front of a string stands for
- `chars` — the text of a value, part by part

## Main statements

- `unescape?_escape` — an escaped character is read back
- `chars_append_inj` — texts that go on to be the same are texts of the same value
- `pretty_injective` — values with the same text are the same
-/

namespace CreateTable.Json

variable {c : Char} {s t : String} {text rest rest' : List Char} {level : Nat}

-- ════════════════════════════════════════════════════════════════════════
-- Strings
-- ════════════════════════════════════════════════════════════════════════

/-- The number that a hexadecimal digit stands for. -/
def hexValue (c : Char) : Nat := ((List.range 16).map hexDigit).idxOf c

theorem hexValue_hexDigit : ∀ n < 16, hexValue (hexDigit n) = n := by decide

/-- The character that the front of a text behind a backslash stands for, and the rest. Of the
    escapes by number, those of the control characters are known. -/
def escaped? : List Char → Option (Char × List Char)
  | '\x22' :: rest => some ('\x22', rest)
  | '\\' :: rest => some ('\\', rest)
  | 'b' :: rest => some ('\x08', rest)
  | 't' :: rest => some ('\t', rest)
  | 'n' :: rest => some ('\n', rest)
  | 'f' :: rest => some ('\x0c', rest)
  | 'r' :: rest => some ('\r', rest)
  | 'u' :: '0' :: '0' :: high :: low :: rest =>
    some (Char.ofNat (16 * hexValue high + hexValue low), rest)
  | _ => none

/-- The character that the front of a string stands for, and the rest. There is none where a string
    ends. -/
def unescape? : List Char → Option (Char × List Char)
  | [] => none
  | c :: rest =>
    if c = '\x22' then none
    else if c = '\\' then escaped? rest
    else some (c, rest)

theorem toNat_lt_of_lt_space (h : c < ' ') : c.toNat < 32 := h

/-- An escaped character is read back, whatever follows it. -/
theorem unescape?_escape (c : Char) (rest : List Char) :
    unescape? (escape c ++ rest) = some (c, rest) := by
  unfold escape
  -- the characters with an escape of their own
  iterate 7
    split
    · subst_vars; rfl
  split
  · rename_i hcontrol
    have hlt := toNat_lt_of_lt_space hcontrol
    have hhigh := hexValue_hexDigit (c.toNat / 16) (by omega)
    have hlow := hexValue_hexDigit (c.toNat % 16) (by omega)
    show escaped? ('u' :: '0' :: '0' :: hexDigit (c.toNat / 16) :: hexDigit (c.toNat % 16) :: rest)
      = some (c, rest)
    rw [escaped?, hhigh, hlow, Nat.div_add_mod, Char.ofNat_toNat]
  · simp [unescape?, *]

/-- What is written in quotes can be told from the text that it is a part of. -/
theorem flatMap_escape_append_inj {more : List Char}
    (h : text.flatMap escape ++ '\x22' :: rest = more.flatMap escape ++ '\x22' :: rest') :
    text = more ∧ rest = rest' := by
  induction text generalizing more with
  | nil =>
    cases more with
    | nil => exact ⟨rfl, (List.cons.inj h).2⟩
    | cons d more =>
      have hread := congrArg unescape? h
      rw [List.flatMap_cons, List.append_assoc, unescape?_escape] at hread
      cases hread
  | cons c text ih =>
    cases more with
    | nil =>
      have hread := congrArg unescape? h
      rw [List.flatMap_cons, List.append_assoc, unescape?_escape] at hread
      cases hread
    | cons d more =>
      have hread := congrArg unescape? h
      rw [List.flatMap_cons, List.flatMap_cons, List.append_assoc, List.append_assoc,
        unescape?_escape, unescape?_escape] at hread
      obtain ⟨rfl, hmore⟩ := Prod.mk.inj (Option.some.inj hread)
      obtain ⟨rfl, hrest⟩ := ih hmore
      exact ⟨rfl, hrest⟩

theorem quote_append_inj (h : (quote s).toList ++ rest = (quote t).toList ++ rest') :
    s = t ∧ rest = rest' := by
  simp only [quote, String.toList_ofList, List.cons_append, List.append_assoc, List.nil_append] at h
  obtain ⟨hs, hrest⟩ := flatMap_escape_append_inj (List.cons.inj h).2
  exact ⟨String.toList_inj.1 hs, hrest⟩

-- ════════════════════════════════════════════════════════════════════════
-- Values
-- ════════════════════════════════════════════════════════════════════════

mutual

/-- The text of a value at a level. -/
def chars (level : Nat) : Value → List Char
  | .null => "null".toList
  | .bool true => "true".toList
  | .bool false => "false".toList
  | .string s => (quote s).toList
  | .list [] => ['[', ']']
  | .list (item :: items) =>
    '[' :: ((newline (level + 1)).toList ++ chars (level + 1) item ++
      itemChars (level + 1) items ++ (newline level).toList ++ [']'])
  | .object [] => ['\x7b', '\x7d']
  | .object ((name, value) :: members) =>
    '\x7b' :: ((newline (level + 1)).toList ++ (quote name).toList ++ [':', ' '] ++
      chars (level + 1) value ++ memberChars (level + 1) members ++ (newline level).toList ++
      ['\x7d'])

/-- The text of further items of a list. -/
def itemChars (level : Nat) : List Value → List Char
  | [] => []
  | item :: items => ',' :: ((newline level).toList ++ chars level item ++ itemChars level items)

/-- The text of further members of an object. -/
def memberChars (level : Nat) : List (String × Value) → List Char
  | [] => []
  | (name, value) :: members =>
    ',' :: ((newline level).toList ++ (quote name).toList ++ [':', ' '] ++ chars level value ++
      memberChars level members)

end

mutual

theorem toList_write (level : Nat) (text : String) :
    (v : Value) → (write level text v).toList = text.toList ++ chars level v
  | .null => by simp [write, chars]
  | .bool true => by simp [write, chars]
  | .bool false => by simp [write, chars]
  | .string s => by simp [write, chars]
  | .list [] => by simp [write, chars]
  | .list (item :: items) => by
    simp [write, chars, toList_writeItems _ _ items, toList_write _ _ item]
  | .object [] => by simp [write, chars]
  | .object ((name, value) :: members) => by
    simp [write, chars, toList_writeMembers _ _ members, toList_write _ _ value]

theorem toList_writeItems (level : Nat) (text : String) :
    (items : List Value) →
      (writeItems level text items).toList = text.toList ++ itemChars level items
  | [] => by simp [writeItems, itemChars]
  | item :: items => by
    simp [writeItems, itemChars, toList_writeItems _ _ items, toList_write _ _ item]

theorem toList_writeMembers (level : Nat) (text : String) :
    (members : List (String × Value)) →
      (writeMembers level text members).toList = text.toList ++ memberChars level members
  | [] => by simp [writeMembers, memberChars]
  | (name, value) :: members => by
    simp [writeMembers, memberChars, toList_writeMembers _ _ members, toList_write _ _ value]

end

/-- The first character of a text, which tells what sort of value it is of. -/
def Value.mark : Value → Char
  | .null => 'n'
  | .bool true => 't'
  | .bool false => 'f'
  | .string _ => '\x22'
  | .list _ => '['
  | .object _ => '\x7b'

theorem head?_chars (level : Nat) (v : Value) (rest : List Char) :
    (chars level v ++ rest).head? = some v.mark := by
  cases v with
  | null => rfl
  | bool b => cases b <;> rfl
  | string s => rw [chars, quote, String.toList_ofList]; rfl
  | list items =>
    cases items with
    | nil => rfl
    | cons item items => rw [chars]; rfl
  | object members =>
    cases members with
    | nil => rfl
    | cons member members => rw [chars]; rfl

/-- Texts that go on to be the same are of the same sort of value. -/
theorem mark_eq_of_chars {v w : Value} (h : chars level v ++ rest = chars level w ++ rest') :
    v.mark = w.mark := by
  have hhead := congrArg List.head? h
  rw [head?_chars, head?_chars] at hhead
  exact Option.some.inj hhead

theorem toList_newline (level : Nat) :
    (newline level).toList = '\n' :: List.replicate (2 * level) ' ' :=
  String.toList_ofList

mutual

/-- Texts that go on to be the same are texts of the same value. -/
theorem chars_append_inj (level : Nat) (rest rest' : List Char) :
    (v w : Value) → chars level v ++ rest = chars level w ++ rest' → v = w ∧ rest = rest'
  | v, w, h => by
    match v, w, mark_eq_of_chars h with
    | .null, .null, _ => exact ⟨rfl, List.append_cancel_left h⟩
    | .bool true, .bool true, _ => exact ⟨rfl, List.append_cancel_left h⟩
    | .bool false, .bool false, _ => exact ⟨rfl, List.append_cancel_left h⟩
    | .string s, .string t, _ =>
      obtain ⟨rfl, hrest⟩ := quote_append_inj h
      exact ⟨rfl, hrest⟩
    | .list [], .list [], _ => exact ⟨rfl, List.append_cancel_left h⟩
    | .list [], .list (_ :: _), _ => simp [chars, toList_newline] at h
    | .list (_ :: _), .list [], _ => simp [chars, toList_newline] at h
    | .list (item :: items), .list (item' :: items'), _ =>
      simp only [chars, List.cons_append, List.append_assoc] at h
      have hitem := List.append_cancel_left (List.cons.inj h).2
      obtain ⟨rfl, hitems⟩ := chars_append_inj _ _ _ item item' hitem
      rw [toList_newline, List.cons_append] at hitems
      obtain ⟨rfl, hrest⟩ := itemChars_append_inj _ _ _ items items' hitems
      exact ⟨rfl, (List.cons.inj (List.append_cancel_left hrest)).2⟩
    | .object [], .object [], _ => exact ⟨rfl, List.append_cancel_left h⟩
    | .object [], .object (_ :: _), _ => simp [chars, toList_newline] at h
    | .object (_ :: _), .object [], _ => simp [chars, toList_newline] at h
    | .object ((name, value) :: members), .object ((name', value') :: members'), _ =>
      simp only [chars, List.cons_append, List.append_assoc] at h
      obtain ⟨rfl, hcolon⟩ := quote_append_inj (List.append_cancel_left (List.cons.inj h).2)
      have hvalue := (List.cons.inj (List.cons.inj hcolon).2).2
      obtain ⟨rfl, hmembers⟩ := chars_append_inj _ _ _ value value' hvalue
      rw [toList_newline, List.cons_append] at hmembers
      obtain ⟨rfl, hrest⟩ := memberChars_append_inj _ _ _ members members' hmembers
      exact ⟨rfl, (List.cons.inj (List.append_cancel_left hrest)).2⟩

/-- Behind the items of a list there is a line feed, and behind each but the last a comma. -/
theorem itemChars_append_inj (level : Nat) (rest rest' : List Char) :
    (items items' : List Value) →
      itemChars level items ++ '\n' :: rest = itemChars level items' ++ '\n' :: rest' →
        items = items' ∧ rest = rest'
  | [], [], h => ⟨rfl, (List.cons.inj h).2⟩
  | [], _ :: _, h => by simp [itemChars] at h
  | _ :: _, [], h => by simp [itemChars] at h
  | item :: items, item' :: items', h => by
    simp only [itemChars, List.cons_append, List.append_assoc] at h
    have hitem := List.append_cancel_left (List.cons.inj h).2
    obtain ⟨rfl, hitems⟩ := chars_append_inj _ _ _ item item' hitem
    obtain ⟨rfl, hrest⟩ := itemChars_append_inj _ _ _ items items' hitems
    exact ⟨rfl, hrest⟩

/-- The same of the members of an object. -/
theorem memberChars_append_inj (level : Nat) (rest rest' : List Char) :
    (members members' : List (String × Value)) →
      memberChars level members ++ '\n' :: rest = memberChars level members' ++ '\n' :: rest' →
        members = members' ∧ rest = rest'
  | [], [], h => ⟨rfl, (List.cons.inj h).2⟩
  | [], _ :: _, h => by simp [memberChars] at h
  | _ :: _, [], h => by simp [memberChars] at h
  | (name, value) :: members, (name', value') :: members', h => by
    simp only [memberChars, List.cons_append, List.append_assoc] at h
    obtain ⟨rfl, hcolon⟩ := quote_append_inj (List.append_cancel_left (List.cons.inj h).2)
    have hvalue := (List.cons.inj (List.cons.inj hcolon).2).2
    obtain ⟨rfl, hmembers⟩ := chars_append_inj _ _ _ value value' hvalue
    obtain ⟨rfl, hrest⟩ := memberChars_append_inj _ _ _ members members' hmembers
    exact ⟨rfl, hrest⟩

end

/-- Values with the same text are the same. -/
theorem pretty_injective : Function.Injective pretty := by
  intro v w h
  have hchars := congrArg String.toList h
  rw [pretty, pretty, toList_write, toList_write, String.toList_empty, List.nil_append,
    List.nil_append] at hchars
  have happend : chars 0 v ++ [] = chars 0 w ++ [] := by
    rw [List.append_nil, List.append_nil, hchars]
  exact (chars_append_inj 0 [] [] v w happend).1

end CreateTable.Json
