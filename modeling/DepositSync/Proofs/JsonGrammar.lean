import DepositSync.Json.Value
import DepositSync.Proofs.NumeralReading

/-!
# DepositSync.Proofs.JsonGrammar

Which texts stand for a JSON value (`Value.IsText`). A value has many: there may be blanks between
any two parts, a character of a string may be written as itself, with a letter escape or by number,
and the exponent of a number may be marked by a letter of either case. A string is made of
characters, so a surrogate that is not one of a pair stands for nothing.

The text that is written for a value is one of them (`Value.isText_padded`).
-/

namespace DepositSync.Json

/-! ### Strings -/

/-- Four hexadecimal digits of either case, and the unit they stand for. -/
structure IsUnit (n : Nat) (ds : List Char) : Prop where
  length_eq : ds.length = 4
  value : Text.hexNumber? ds = some n

/-- The texts of a character of a string. -/
inductive SpellsChar : Char → List Char → Prop where
  /-- The character itself, unless it is a control, a quote or a backslash. -/
  | itself {c : Char} (hcontrol : 0x20 ≤ c.toNat) (hquote : c ≠ '\x22') (hbackslash : c ≠ '\\') :
      SpellsChar c [c]
  /-- A letter escape. -/
  | letter {c e : Char} (h : escaped? e = some c) : SpellsChar c ['\\', e]
  /-- The number of the character. -/
  | unit {c : Char} {ds : List Char} (h : IsUnit c.toNat ds) : SpellsChar c ('\\' :: 'u' :: ds)
  /-- The two surrogates of a character beyond sixteen bits. -/
  | pair {c : Char} {leading trailing : Nat} {ds ds' : List Char}
      (hleading : isLeading leading = true) (htrailing : isTrailing trailing = true)
      (hc : c.toNat = (leading - 0xD800) * 0x400 + (trailing - 0xDC00) + 0x10000)
      (hds : IsUnit leading ds) (hds' : IsUnit trailing ds') :
      SpellsChar c ('\\' :: 'u' :: ds ++ '\\' :: 'u' :: ds')

/-- The texts of characters that follow one another. -/
inductive SpellsChars : List Char → List Char → Prop where
  | nil : SpellsChars [] []
  | cons {c : Char} {cs s text : List Char} (hc : SpellsChar c cs) (hs : SpellsChars s text) :
      SpellsChars (c :: s) (cs ++ text)

/-- The texts of a string. -/
inductive SpellsString (s : String) : List Char → Prop where
  | quoted {cs : List Char} (h : SpellsChars s.toList cs) :
      SpellsString s ('\x22' :: cs ++ ['\x22'])

/-! ### Numbers -/

/-- What follows the mark of an exponent. -/
inductive IsExponent : List Char → Prop where
  | unsigned {ds : List Char} (hne : ds ≠ []) (hds : ds.all Char.isDigit = true) : IsExponent ds
  | signed {sign : Char} {ds : List Char} (hsign : sign = '+' ∨ sign = '-') (hne : ds ≠ [])
      (hds : ds.all Char.isDigit = true) : IsExponent (sign :: ds)

/-- The number without its exponent. -/
def Numeral.mantissa (n : Numeral) : Numeral := { n with exponent := [] }

/-- The texts of a number. -/
inductive SpellsNumber (n : Numeral) : List Char → Prop where
  | plain (h : n.IsPlain) : SpellsNumber n n.text
  | scientific {mark : Char} (h : n.mantissa.IsPlain) (hexponent : IsExponent n.exponent)
      (hmark : mark = 'e' ∨ mark = 'E') : SpellsNumber n (n.mantissa.text ++ mark :: n.exponent)

/-! ### Values -/

/-- Blanks of JSON, and nothing else. -/
def IsPadding (cs : List Char) : Prop :=
  ∀ c ∈ cs, c = ' ' ∨ c = '\n' ∨ c = '\t' ∨ c = '\r'

theorem IsPadding.nil : IsPadding [] := nofun

mutual

/-- The texts of a value, without blanks around them. -/
inductive Spells : Value → List Char → Prop where
  | null : Spells .null ['n', 'u', 'l', 'l']
  | true : Spells (.bool true) ['t', 'r', 'u', 'e']
  | false : Spells (.bool false) ['f', 'a', 'l', 's', 'e']
  | number {n : Numeral} {cs : List Char} (h : SpellsNumber n cs) : Spells (.number n) cs
  | string {s : String} {cs : List Char} (h : SpellsString s cs) : Spells (.string s) cs
  | emptyArray {before : List Char} (hbefore : IsPadding before) :
      Spells (.array []) ('[' :: before ++ [']'])
  | array {v : Value} {rest : List Value} {before cs more after : List Char}
      (hbefore : IsPadding before) (hfirst : Spells v cs) (hmore : SpellsMoreItems rest more)
      (hafter : IsPadding after) :
      Spells (.array (v :: rest)) ('[' :: before ++ (cs ++ (more ++ (after ++ [']']))))
  | emptyObject {before : List Char} (hbefore : IsPadding before) :
      Spells (.object []) ('\x7b' :: before ++ ['\x7d'])
  | object {m : String × Value} {rest : List (String × Value)} {before cs more after : List Char}
      (hbefore : IsPadding before) (hfirst : SpellsMember m cs) (hmore : SpellsMoreMembers rest more)
      (hafter : IsPadding after) :
      Spells (.object (m :: rest)) ('\x7b' :: before ++ (cs ++ (more ++ (after ++ ['\x7d']))))

/-- The texts of items that follow another one, each behind a comma. -/
inductive SpellsMoreItems : List Value → List Char → Prop where
  | nil : SpellsMoreItems [] []
  | cons {v : Value} {rest : List Value} {before after cs more : List Char}
      (hbefore : IsPadding before) (hafter : IsPadding after) (hfirst : Spells v cs)
      (hmore : SpellsMoreItems rest more) :
      SpellsMoreItems (v :: rest) (before ++ ',' :: (after ++ (cs ++ more)))

/-- The texts of a member: its key, a colon and its value. -/
inductive SpellsMember : String × Value → List Char → Prop where
  | mk {k : String} {v : Value} {key before after cs : List Char} (hkey : SpellsString k key)
      (hbefore : IsPadding before) (hafter : IsPadding after) (hvalue : Spells v cs) :
      SpellsMember (k, v) (key ++ (before ++ ':' :: (after ++ cs)))

/-- The texts of members that follow another one, each behind a comma. -/
inductive SpellsMoreMembers : List (String × Value) → List Char → Prop where
  | nil : SpellsMoreMembers [] []
  | cons {m : String × Value} {rest : List (String × Value)} {before after cs more : List Char}
      (hbefore : IsPadding before) (hafter : IsPadding after) (hfirst : SpellsMember m cs)
      (hmore : SpellsMoreMembers rest more) :
      SpellsMoreMembers (m :: rest) (before ++ ',' :: (after ++ (cs ++ more)))

end

/-- The text stands for the value. There may be blanks around it. -/
def Value.IsText (v : Value) (s : String) : Prop :=
  ∃ before cs after, IsPadding before ∧ Spells v cs ∧ IsPadding after ∧
    s.toList = before ++ (cs ++ after)

/-! ### What is written -/

theorem isUnit_control {n : Nat} (hn : n < 0x20) :
    IsUnit n ['0', '0', Text.hexDigit (n / 16), Text.hexDigit (n % 16)] := by
  refine ⟨rfl, ?_⟩
  revert n
  decide

theorem spells_escapedChar (c : Char) : SpellsChar c (escapedChar c) := by
  unfold escapedChar
  split_ifs with hquote hbackslash hb hf hn hr ht hcontrol
  · subst hquote
    exact .letter rfl
  · subst hbackslash
    exact .letter rfl
  · subst hb
    exact .letter rfl
  · subst hf
    exact .letter rfl
  · subst hn
    exact .letter rfl
  · subst hr
    exact .letter rfl
  · subst ht
    exact .letter rfl
  · exact .unit (isUnit_control hcontrol)
  · exact .itself (Nat.le_of_not_lt hcontrol) hquote hbackslash

theorem spells_escaped (s : List Char) : SpellsChars s (s.flatMap escapedChar) := by
  induction s with
  | nil => exact .nil
  | cons c s ih => exact .cons (spells_escapedChar c) ih

theorem spells_writeString (s : String) : SpellsString s (writeString s) :=
  .quoted (spells_escaped s.toList)

mutual

/-- The numbers in a value. -/
def Value.numerals : Value → List Numeral
  | .null | .bool _ | .string _ => []
  | .number n => [n]
  | .array items => numeralsOfItems items
  | .object members => numeralsOfMembers members

/-- The numbers in the items of an array. -/
def numeralsOfItems : List Value → List Numeral
  | [] => []
  | v :: rest => v.numerals ++ numeralsOfItems rest

/-- The numbers in the members of an object. -/
def numeralsOfMembers : List (String × Value) → List Numeral
  | [] => []
  | (_, v) :: rest => v.numerals ++ numeralsOfMembers rest

end

mutual

theorem Value.spells_write : ∀ v : Value, (∀ n ∈ v.numerals, SpellsNumber n n.text) →
    Spells v v.write
  | .null, _ => .null
  | .bool true, _ => .true
  | .bool false, _ => .false
  | .number n, h => .number (h n (List.mem_singleton_self n))
  | .string s, _ => .string (spells_writeString s)
  | .array [], _ => .emptyArray .nil
  | .array (v :: rest), h => by
      rw [Value.numerals, numeralsOfItems, List.forall_mem_append] at h
      obtain ⟨more, hwrite, hmore⟩ := spells_writeItems v rest h.2
      have hspells := Spells.array .nil (v.spells_write h.1) hmore .nil
      rw [Value.write, hwrite]
      simpa using hspells
  | .object [], _ => .emptyObject .nil
  | .object ((k, v) :: rest), h => by
      rw [Value.numerals, numeralsOfMembers, List.forall_mem_append] at h
      obtain ⟨more, hwrite, hmore⟩ := spells_writeMembers k v rest h.2
      have hmember := SpellsMember.mk (spells_writeString k) .nil .nil (v.spells_write h.1)
      have hspells := Spells.object .nil hmember hmore .nil
      rw [Value.write, hwrite]
      simpa using hspells

theorem spells_writeItems : ∀ (v : Value) (rest : List Value),
    (∀ n ∈ numeralsOfItems rest, SpellsNumber n n.text) →
      ∃ more, writeItems (v :: rest) = v.write ++ more ∧ SpellsMoreItems rest more
  | v, [], _ => ⟨[], by rw [writeItems, List.append_nil], .nil⟩
  | v, w :: rest, h => by
      rw [numeralsOfItems, List.forall_mem_append] at h
      obtain ⟨more, hwrite, hmore⟩ := spells_writeItems w rest h.2
      refine ⟨',' :: (w.write ++ more), ?_, .cons .nil .nil (w.spells_write h.1) hmore⟩
      rw [writeItems, hwrite]
      exact List.cons_ne_nil _ _

theorem spells_writeMembers : ∀ (k : String) (v : Value) (rest : List (String × Value)),
    (∀ n ∈ numeralsOfMembers rest, SpellsNumber n n.text) →
      ∃ more, writeMembers ((k, v) :: rest) = writeString k ++ ':' :: v.write ++ more ∧
        SpellsMoreMembers rest more
  | k, v, [], _ => ⟨[], by rw [writeMembers, List.append_nil], .nil⟩
  | k, v, (l, w) :: rest, h => by
      rw [numeralsOfMembers, List.forall_mem_append] at h
      obtain ⟨more, hwrite, hmore⟩ := spells_writeMembers l w rest h.2
      have hmember := SpellsMember.mk (spells_writeString l) .nil .nil (w.spells_write h.1)
      refine ⟨',' :: (writeString l ++ ':' :: w.write ++ more), ?_, .cons .nil .nil hmember hmore⟩
      rw [writeMembers, hwrite]
      exact List.cons_ne_nil _ _

end

/-- The text that is written for a value stands for it, whatever blanks are put around it. -/
theorem Value.isText_padded {v : Value} (h : ∀ n ∈ v.numerals, SpellsNumber n n.text)
    {before after : List Char} (hbefore : IsPadding before) (hafter : IsPadding after) :
    v.IsText (String.ofList (before ++ (v.write ++ after))) :=
  ⟨before, v.write, after, hbefore, v.spells_write h, hafter, String.toList_ofList⟩

end DepositSync.Json
