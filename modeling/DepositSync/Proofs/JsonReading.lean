import DepositSync.Proofs.JsonGrammar
import Mathlib.Data.List.Forall2

/-!
# DepositSync.Proofs.JsonReading

A JSON text is read as the value it stands for, if the value is within the reader's limits: arrays
and objects may lie inside one another up to a depth, and each number must fit 64 bits or a double.
Any other JSON text is refused (`Value.ofText_of_isText`).

The text is read into a tree, which knows nothing of these limits, and the value is taken out of
the tree. What carries the first part is that the fuel exceeds the length of the text that is still
to be read; the induction is on how the text stands for the value.
-/

namespace DepositSync.Json

open Text (Symbol)

variable {before cs : List Char} {rest : List Symbol} {fuel : Nat}

/-! ### Blanks -/

theorem skipSpace_padding (hbefore : IsPadding before) (input : List Symbol) :
    skipSpace (before.map Symbol.char ++ input) = skipSpace input := by
  refine List.dropWhile_append_of_pos fun s hs => ?_
  obtain ⟨c, hc, rfl⟩ := List.mem_map.mp hs
  rcases hbefore c hc with rfl | rfl | rfl | rfl <;> rfl

theorem readValue_padding (hbefore : IsPadding before) (input : List Symbol) :
    readValue (fuel + 1) (before.map Symbol.char ++ input) = readValue (fuel + 1) input := by
  simp only [readValue, skipSpace_padding hbefore]

theorem EndsNumber.cons {c : Char}
    (hc : c.isDigit = false ∧ c ≠ '.' ∧ c ≠ 'e' ∧ c ≠ 'E') (rest : List Symbol) :
    EndsNumber (.char c :: rest) := by
  intro d hd
  obtain rfl : c = d := Symbol.char.inj (Option.some.inj hd)
  exact hc

theorem EndsNumber.padding (hrest : EndsNumber rest) (hbefore : IsPadding before) :
    EndsNumber (before.map Symbol.char ++ rest) := by
  cases before with
  | nil => exact hrest
  | cons c before =>
      refine .cons ?_ _
      rcases hbefore c (List.mem_cons_self ..) with rfl | rfl | rfl | rfl <;> decide

/-! ### Strings -/

theorem readUnit_of_isUnit {n : Nat} {ds : List Char} (h : IsUnit n ds) :
    readUnit (ds.map Symbol.char ++ rest) = .ok (n, rest) := by
  have hlength : (ds.map Symbol.char).length = 4 := by rw [List.length_map, h.length_eq]
  have htake : (ds.map Symbol.char ++ rest).take 4 = ds.map Symbol.char := by
    rw [← hlength, List.take_left]
  have hdrop : (ds.map Symbol.char ++ rest).drop 4 = rest := by rw [← hlength, List.drop_left]
  have hbytes : ds.length ≤ ((ds.map Symbol.char).flatMap Symbol.bytes).length := by
    clear h hlength htake hdrop
    induction ds with
    | nil => exact Nat.zero_le _
    | cons d ds ih =>
        have hpos := d.utf8Size_pos
        simp only [List.map_cons, List.flatMap_cons, List.length_append, List.length_cons,
          Symbol.bytes, String.length_utf8EncodeChar]
        omega
  have hchars : (ds.map Symbol.char).mapM Symbol.char? = some ds := by
    simpa [List.mapM_map, Function.comp_def, Symbol.char?] using
      List.mapM_pure (m := Option) (l := ds) (f := id)
  have hlong : ¬((ds.map Symbol.char).flatMap Symbol.bytes).length < 4 := by
    rw [h.length_eq] at hbytes
    omega
  simp only [readUnit, htake, hdrop, if_neg hlong, hchars, h.value]

theorem readString_letter {c e : Char} (h : escaped? e = some c) (pieces : List Piece)
    (fuel : Nat) (input : List Symbol) :
    readString pieces (fuel + 1) (.char '\\' :: .char e :: input) =
      readString (.char c :: pieces) fuel input := by
  have hu : e ≠ 'u' := by
    rintro rfl
    cases h
  rw [readString, if_neg (by decide), if_pos rfl, h]
  exact hu

/-- No character is a surrogate. -/
theorem not_surrogate (c : Char) : isLeading c.toNat = false ∧ isTrailing c.toNat = false := by
  have hvalid : c.toNat < 0xD800 ∨ 0xDFFF < c.toNat ∧ c.toNat < 0x110000 := c.valid
  simp only [isLeading, isTrailing, Bool.and_eq_false_iff, decide_eq_false_iff_not]
  omega

theorem SpellsChar.length_pos {c : Char} (h : SpellsChar c cs) : 0 < cs.length := by
  cases h <;> exact Nat.succ_pos _

/-- A character takes no more fuel than its text has characters, and adds the pieces that stand for
it. -/
theorem SpellsChar.read {c : Char} (h : SpellsChar c cs) (pieces : List Piece) (fuel : Nat)
    (hfuel : cs.length ≤ fuel) (input : List Symbol) :
    ∃ more left, fuel ≤ left + cs.length ∧
      readString pieces fuel (cs.map Symbol.char ++ input) =
        readString (more.reverse ++ pieces) left input ∧
      ∀ later, resolve .closed (more ++ later) = (resolve .closed later).map (some c :: ·) := by
  obtain ⟨fuel, rfl⟩ : ∃ f, fuel = f + 1 :=
    Nat.exists_eq_add_one.mpr (Nat.lt_of_lt_of_le h.length_pos hfuel)
  cases h with
  | itself hcontrol hquote hbackslash =>
      refine ⟨[.char c], fuel, by simp, ?_, fun later => by simp [resolve]⟩
      simp [readString, hquote, hbackslash, Nat.not_lt.mpr hcontrol]
  | @letter e h =>
      refine ⟨[.char c], fuel, by simp, ?_, fun later => by simp [resolve]⟩
      exact readString_letter h pieces fuel input
  | @unit ds h =>
      refine ⟨[.unit c.toNat], fuel, by simp, ?_, fun later => ?_⟩
      · simp [readString, readUnit_of_isUnit h]
      · rw [List.singleton_append, resolve.eq_def]
        simp [(not_surrogate c).1, (not_surrogate c).2]
  | @pair leading trailing ds ds' hleading htrailing hc hds hds' =>
      -- the second surrogate is read with the fuel that is left behind the first one
      obtain ⟨fuel, rfl⟩ : ∃ f, fuel = f + 1 := Nat.exists_eq_add_one.mpr (by simp at hfuel; omega)
      have hspent : fuel + 1 + 1 ≤ fuel + ('\\' :: 'u' :: ds ++ '\\' :: 'u' :: ds').length := by
        simp only [List.length_append, List.length_cons]
        omega
      refine ⟨[.unit leading, .unit trailing], fuel, hspent, ?_, fun later => ?_⟩
      · simp [readString, readUnit_of_isUnit hds, readUnit_of_isUnit hds']
      · have hnot : isTrailing leading = false := by
          simp [isTrailing, isLeading] at hleading ⊢
          omega
        simp [resolve, hnot, hleading, htrailing, ← hc]

/-- Characters are read up to the closing quote. -/
theorem SpellsChars.read {s : List Char} (h : SpellsChars s cs) (rest : List Symbol) :
    ∀ (pieces : List Piece) (fuel : Nat), cs.length < fuel →
      ∃ more, readString pieces fuel (cs.map Symbol.char ++ .char '\x22' :: rest) =
          (⟨pieces.reverse ++ more, .closed⟩, rest) ∧
        resolve .closed more = .ok (s.map some) := by
  induction h with
  | nil =>
      intro pieces fuel hfuel
      obtain ⟨fuel, rfl⟩ := Nat.exists_eq_succ_of_ne_zero (Nat.ne_of_gt hfuel)
      exact ⟨[], by simp [readString], rfl⟩
  | @cons c cs s text hc hs ih =>
      intro pieces fuel hfuel
      rw [List.length_append] at hfuel
      obtain ⟨first, left, hleft, hfirst, hvalue⟩ :=
        hc.read pieces fuel (by omega) (text.map Symbol.char ++ .char '\x22' :: rest)
      obtain ⟨more, hmore, hvalues⟩ := ih (first.reverse ++ pieces) left (by omega)
      refine ⟨first ++ more, ?_, ?_⟩
      · rw [List.map_append, List.append_assoc, hfirst, hmore]
        simp
      · rw [hvalue, hvalues]
        rfl

/-- A string is read up to its end, and kept as what it stands for. -/
theorem SpellsString.read {s : String} (h : SpellsString s cs) (rest : List Symbol) :
    ∃ (raw : RawString) (behind : List Symbol),
      cs.map Symbol.char ++ rest = .char '\x22' :: behind ∧ stringAt behind = (raw, rest) ∧
        raw.ending = .closed ∧ raw.keep = .ok s := by
  cases h with
  | @quoted cs h =>
      obtain ⟨pieces, hread, hresolve⟩ :=
        h.read rest [] (cs.length + (rest.length + 2)) (by omega)
      refine ⟨⟨pieces, .closed⟩, cs.map Symbol.char ++ .char '\x22' :: rest, by simp, ?_, rfl, ?_⟩
      · simpa [stringAt, Nat.add_assoc] using hread
      · have hchars : (s.toList.map some).mapM id = some s.toList := by
          simpa using List.mapM_pure (m := Option) (l := s.toList) (f := id)
        rw [RawString.keep, hresolve]
        simp only [bind, Except.bind, hchars, String.ofList_toList]

/-! ### Numbers -/

theorem readExponent_of_isExponent {n : Numeral} (h : IsExponent n.exponent) {mark : Char}
    (hmark : mark = 'e' ∨ mark = 'E') (hrest : EndsNumber rest) :
    readExponent n.mantissa (.char mark :: (n.exponent.map Symbol.char ++ rest)) =
      (.number n, rest) := by
  obtain ⟨negative, whole, fraction, exponent⟩ := n
  have hdigits (ds : List Char) (hds : ds.all Char.isDigit = true) :
      spanDigits (ds.map Symbol.char ++ rest) = (ds, rest) :=
    spanDigits_append hds fun c hc => (hrest c hc).1
  change IsExponent exponent at h
  cases h with
  | unsigned hne hds =>
      obtain ⟨d, ds, rfl⟩ := List.exists_cons_of_ne_nil hne
      have hspan := hdigits _ hds
      rw [List.all_cons, Bool.and_eq_true] at hds
      have hplus := Text.ne_of_isDigit hds.1 (d := '+') (by decide)
      have hminus := Text.ne_of_isDigit hds.1 (d := '-') (by decide)
      simp only [List.map_cons, List.cons_append] at hspan
      rcases hmark with rfl | rfl <;>
        simp [readExponent, Numeral.mantissa, hspan, hplus, hminus]
  | @signed sign ds hsign hne hds =>
      obtain ⟨d, ds, rfl⟩ := List.exists_cons_of_ne_nil hne
      have hspan := hdigits _ hds
      simp only [List.map_cons, List.cons_append] at hspan
      rcases hmark with rfl | rfl <;> rcases hsign with rfl | rfl <;>
        simp [readExponent, Numeral.mantissa, hspan]

theorem SpellsNumber.read {n : Numeral} (h : SpellsNumber n cs) (hrest : EndsNumber rest) :
    readValue (fuel + 1) (cs.map Symbol.char ++ rest) = (.number n, rest) := by
  cases h with
  | plain h => exact readValue_text h hrest fuel
  | @scientific mark h hexponent hmark =>
      have hends : EndsDigits (.char mark :: (n.exponent.map Symbol.char ++ rest)) := by
        intro c hc
        obtain rfl : mark = c := Symbol.char.inj (Option.some.inj hc)
        rcases hmark with rfl | rfl <;> decide
      rw [List.map_append, List.map_cons, List.append_assoc, List.cons_append,
        readValue_mantissa h hends, readExponent_of_isExponent hexponent hmark hrest]

/-! ### Limits -/

/-- Does the number fit 64 bits or a double? -/
def Numeral.isReadable (n : Numeral) : Bool := n.toInt?.isSome || n.toBinary64?.isSome

mutual

/-- How many arrays and objects lie inside one another. -/
def Value.nesting : Value → Nat
  | .null | .bool _ | .number _ | .string _ => 0
  | .array items => nestingOfItems items + 1
  | .object members => nestingOfMembers members + 1

/-- The same of the items of an array. -/
def nestingOfItems : List Value → Nat
  | [] => 0
  | v :: rest => max v.nesting (nestingOfItems rest)

/-- The same of the members of an object. -/
def nestingOfMembers : List (String × Value) → Nat
  | [] => 0
  | (_, v) :: rest => max v.nesting (nestingOfMembers rest)

end

/-- This nesting and these numbers are within the limits, if so many levels are allowed. -/
def WithinLimits (depth nesting : Nat) (numerals : List Numeral) : Prop :=
  nesting ≤ depth ∧ ∀ n ∈ numerals, n.isReadable = true

instance (depth nesting : Nat) (numerals : List Numeral) :
    Decidable (WithinLimits depth nesting numerals) :=
  inferInstanceAs (Decidable (_ ∧ _))

/-- The value is within the limits, if so many levels of nesting are allowed. -/
def Value.Fits (depth : Nat) (v : Value) : Prop := WithinLimits depth v.nesting v.numerals

instance (depth : Nat) (v : Value) : Decidable (v.Fits depth) :=
  inferInstanceAs (Decidable (WithinLimits _ _ _))

theorem withinLimits_append {depth nesting nesting' : Nat} {ns ns' : List Numeral} :
    WithinLimits depth (max nesting nesting') (ns ++ ns') ↔
      WithinLimits depth nesting ns ∧ WithinLimits depth nesting' ns' := by
  simp only [WithinLimits, Nat.max_le, List.forall_mem_append]
  exact and_and_and_comm

theorem withinLimits_succ {depth nesting : Nat} {ns : List Numeral} :
    WithinLimits depth (nesting + 1) ns ↔
      depth ≠ 0 ∧ WithinLimits (depth - 1) nesting ns := by
  simp only [WithinLimits, ← and_assoc]
  refine and_congr_left' ?_
  omega

/-- The tree is complete, and its value is this one, if that is within the limits. -/
structure Tree.Holds (t : Tree) (v : Value) : Prop where
  stop?_eq : t.stop? = none
  value_eq : ∀ depth, t.value depth = if v.Fits depth then .ok v else .error .malformed

/-- The member's tree has this key and holds this value. -/
structure HoldsMember (t : RawString × Tree) (m : String × Value) : Prop where
  key : t.1.keep = .ok m.1
  value : t.2.Holds m.2

theorem ite_ok_bind {ε α β : Type} (p : Prop) [Decidable p] (a : α) (e : ε)
    (f : α → Except ε β) :
    (do let b ← (if p then .ok a else .error e); f b) = if p then f a else .error e := by
  split <;> rfl

theorem itemValues_of_holds {ts : List Tree} {vs : List Value}
    (h : List.Forall₂ Tree.Holds ts vs) (depth : Nat) :
    itemValues depth ts =
      if WithinLimits depth (nestingOfItems vs) (numeralsOfItems vs) then .ok vs
      else .error .malformed := by
  induction h with
  | nil => simp [itemValues, nestingOfItems, numeralsOfItems, WithinLimits]
  | @cons t v ts vs hv _ ih =>
      rw [itemValues, hv.value_eq, ih]
      simp only [ite_ok_bind, nestingOfItems, numeralsOfItems, withinLimits_append, ite_and]
      rfl

theorem memberValues_of_holds {ts : List (RawString × Tree)} {ms : List (String × Value)}
    (h : List.Forall₂ HoldsMember ts ms) (depth : Nat) :
    memberValues depth ts =
      if WithinLimits depth (nestingOfMembers ms) (numeralsOfMembers ms) then .ok ms
      else .error .malformed := by
  induction h with
  | nil => simp [memberValues, nestingOfMembers, numeralsOfMembers, WithinLimits]
  | @cons t m ts ms hm _ ih =>
      obtain ⟨key, t⟩ := t
      obtain ⟨k, v⟩ := m
      rw [memberValues, hm.key, hm.value.value_eq, ih]
      simp only [ite_ok_bind, nestingOfMembers, numeralsOfMembers, withinLimits_append, ite_and]
      rfl

namespace Tree

theorem holds_null : null.Holds .null :=
  ⟨rfl, fun _ => (if_pos ⟨Nat.zero_le _, nofun⟩).symm⟩

theorem holds_bool (b : Bool) : (bool b).Holds (.bool b) :=
  ⟨rfl, fun _ => (if_pos ⟨Nat.zero_le _, nofun⟩).symm⟩

theorem holds_number (n : Numeral) : (number n).Holds (.number n) := by
  refine ⟨rfl, fun depth => ?_⟩
  have hfits : (Value.number n).Fits depth ↔ n.isReadable = true := by
    simp [Value.Fits, WithinLimits, Value.nesting, Value.numerals]
  simp only [Tree.value, hfits, Numeral.isReadable]

theorem holds_string {s : String} {raw : RawString} (hclosed : raw.ending = .closed)
    (hkeep : raw.keep = .ok s) : (string raw).Holds (.string s) := by
  refine ⟨by simp [Tree.stop?, hclosed], fun depth => ?_⟩
  rw [Tree.value, hkeep]
  exact (if_pos ⟨Nat.zero_le _, nofun⟩).symm

theorem holds_array {ts : List Tree} {vs : List Value} (h : List.Forall₂ Tree.Holds ts vs) :
    (array ts .closed).Holds (.array vs) := by
  refine ⟨rfl, fun depth => ?_⟩
  rw [Tree.value, itemValues_of_holds h]
  simp only [Value.Fits, Value.nesting, Value.numerals, ite_ok_bind, withinLimits_succ, ite_and,
    ite_not, ne_eq]
  rfl

theorem holds_object {ts : List (RawString × Tree)} {ms : List (String × Value)}
    (h : List.Forall₂ HoldsMember ts ms) : (object ts .closed).Holds (.object ms) := by
  refine ⟨rfl, fun depth => ?_⟩
  rw [Tree.value, memberValues_of_holds h]
  simp only [Value.Fits, Value.nesting, Value.numerals, ite_ok_bind, withinLimits_succ, ite_and,
    ite_not, ne_eq]
  rfl

end Tree

/-! ### Arrays and objects, step by step -/

/-- The text begins with neither a blank nor the end of an array. -/
def StartsValue (cs : List Char) : Prop :=
  ∃ c tail, cs = c :: tail ∧ isSpace (.char c) = false ∧ c ≠ ']'

theorem StartsValue.skipSpace_eq (h : StartsValue cs) (rest : List Symbol) :
    skipSpace (cs.map Symbol.char ++ rest) = cs.map Symbol.char ++ rest := by
  obtain ⟨c, tail, rfl, hspace, -⟩ := h
  exact skipSpace_of_head hspace

/-- Behind blanks, and behind a comma if it is not the first one, the next item or member begins. -/
def LeadsTo (first : Bool) (input text : List Symbol) : Prop :=
  if first then skipSpace input = text
  else ∃ behind, skipSpace input = .char ',' :: behind ∧ skipSpace behind = text

theorem leadsTo_first (hbefore : IsPadding before) (hcs : StartsValue cs) :
    LeadsTo true (before.map Symbol.char ++ (cs.map Symbol.char ++ rest))
      (cs.map Symbol.char ++ rest) :=
  (skipSpace_padding hbefore _).trans (hcs.skipSpace_eq rest)

theorem leadsTo_next {after : List Char} (hbefore : IsPadding before) (hafter : IsPadding after)
    (hcs : StartsValue cs) :
    LeadsTo false
      (before.map Symbol.char ++
        .char ',' :: (after.map Symbol.char ++ (cs.map Symbol.char ++ rest)))
      (cs.map Symbol.char ++ rest) := by
  refine ⟨_, (skipSpace_padding hbefore _).trans (skipSpace_of_head (by decide)), ?_⟩
  exact (skipSpace_padding hafter _).trans (hcs.skipSpace_eq rest)

theorem readItems_close (hbefore : IsPadding before) (first : Bool) (items : List Tree) :
    readItems (fuel + 1) first items (before.map Symbol.char ++ .char ']' :: rest) =
      (.array items.reverse .closed, rest) := by
  rw [readItems, skipSpace_padding hbefore, skipSpace_of_head (by decide)]
  simp

theorem readItems_item {first : Bool} {items : List Tree} {input behind : List Symbol} {t : Tree}
    (hleads : LeadsTo first input (cs.map Symbol.char ++ behind)) (hcs : StartsValue cs)
    (hread : readValue fuel (cs.map Symbol.char ++ behind) = (t, rest)) (hstop : t.stop? = none) :
    readItems (fuel + 1) first items input = readItems fuel false (t :: items) rest := by
  obtain ⟨c, tail, rfl, -, hc⟩ := hcs
  rw [List.map_cons, List.cons_append] at hleads hread
  have hclose : Symbol.char c ≠ .char ']' := fun h => hc (Symbol.char.inj h)
  cases first with
  | true =>
      rw [LeadsTo, if_pos rfl] at hleads
      simp [readItems, hleads, hc, hread, hstop]
  | false =>
      obtain ⟨comma, hcomma, hspace⟩ := hleads
      have hne : Symbol.char ',' ≠ .char ']' := by decide
      simp only [readItems, hcomma, if_neg hne, Bool.false_eq_true, if_false, if_true, hspace]
      split
      · next heq => exact absurd (List.cons.inj heq).1 hclose
      · simp only [hread, hstop]

theorem readMembers_close (hbefore : IsPadding before) (first : Bool)
    (members : List (RawString × Tree)) :
    readMembers (fuel + 1) first members (before.map Symbol.char ++ .char '\x7d' :: rest) =
      (.object members.reverse .closed, rest) := by
  rw [readMembers, skipSpace_padding hbefore, skipSpace_of_head (by decide)]
  simp

theorem readMembers_member {first : Bool} {members : List (RawString × Tree)}
    {input behind colon text : List Symbol} {key : RawString} {t : Tree}
    (hleads : LeadsTo first input (.char '\x22' :: behind))
    (hkey : stringAt behind = (key, colon)) (hclosed : key.ending = .closed)
    (hcolon : skipSpace colon = .char ':' :: text) (hread : readValue fuel text = (t, rest))
    (hstop : t.stop? = none) :
    readMembers (fuel + 1) first members input =
      readMembers fuel false ((key, t) :: members) rest := by
  have hquote : skipSpace (.char '\x22' :: behind) = .char '\x22' :: behind :=
    skipSpace_of_head (by decide)
  cases first with
  | true =>
      rw [LeadsTo, if_pos rfl] at hleads
      simp [readMembers, hleads, hquote, hkey, hclosed, hcolon, hread, hstop]
  | false =>
      obtain ⟨comma, hcomma, hspace⟩ := hleads
      simp [readMembers, hcomma, hspace, hkey, hclosed, hcolon, hread, hstop]

/-! ### Texts of values -/

theorem StartsValue.cons {c : Char} (h : isSpace (.char c) = false ∧ c ≠ ']') (tail : List Char) :
    StartsValue (c :: tail) :=
  ⟨c, tail, rfl, h⟩

theorem StartsValue.append (h : StartsValue cs) (more : List Char) : StartsValue (cs ++ more) := by
  obtain ⟨c, tail, rfl, h⟩ := h
  exact .cons h _

theorem startsValue_text {n : Numeral} (h : n.IsPlain) : StartsValue n.text := by
  obtain ⟨c, tail, hwhole, hdigit⟩ := h.exists_whole_eq
  have hne (d : Char) (hd : d.isDigit = false) : c ≠ d := Text.ne_of_isDigit hdigit hd
  rw [Numeral.text, hwhole]
  split
  · exact .cons (by decide) _
  · refine .cons ⟨?_, hne ']' (by decide)⟩ _
    simp [isSpace, hne ' ' (by decide), hne '\n' (by decide), hne '\t' (by decide),
      hne '\r' (by decide)]

theorem SpellsString.starts {s : String} (h : SpellsString s cs) :
    ∃ tail, cs = '\x22' :: tail := by
  cases h with
  | quoted h => exact ⟨_, rfl⟩

theorem Spells.starts {v : Value} (h : Spells v cs) : StartsValue cs := by
  cases h with
  | number h =>
      cases h with
      | plain h => exact startsValue_text h
      | scientific h => exact (startsValue_text h).append _
  | string h =>
      obtain ⟨tail, rfl⟩ := h.starts
      exact .cons (by decide) _
  | _ => exact .cons (by decide) _

theorem SpellsMember.starts {m : String × Value} (h : SpellsMember m cs) : StartsValue cs := by
  cases h with
  | mk hkey =>
      obtain ⟨tail, rfl⟩ := hkey.starts
      exact .cons (by decide) _

/-- What follows an item or a member does not go on with a number. -/
theorem endsNumber_behind {more after : List Char} {close : Char}
    (hmore : more = [] ∨ ∃ before tail, IsPadding before ∧ more = before ++ ',' :: tail)
    (hafter : IsPadding after) (hclose : close = ']' ∨ close = '\x7d') (rest : List Symbol) :
    EndsNumber (more.map Symbol.char ++ (after.map Symbol.char ++ .char close :: rest)) := by
  rcases hmore with rfl | ⟨before, tail, hbefore, rfl⟩
  · have hends : EndsNumber (.char close :: rest) := by
      refine .cons ?_ _
      rcases hclose with rfl | rfl <;> decide
    exact hends.padding hafter
  · have hends : EndsNumber (.char ',' :: (tail.map Symbol.char ++
        (after.map Symbol.char ++ .char close :: rest))) := .cons (by decide) _
    simpa using hends.padding hbefore

theorem SpellsMoreItems.begins {vs : List Value} {more : List Char} (h : SpellsMoreItems vs more) :
    more = [] ∨ ∃ before tail, IsPadding before ∧ more = before ++ ',' :: tail := by
  cases h with
  | nil => exact .inl rfl
  | cons hbefore => exact .inr ⟨_, _, hbefore, rfl⟩

theorem SpellsMoreMembers.begins {ms : List (String × Value)} {more : List Char}
    (h : SpellsMoreMembers ms more) :
    more = [] ∨ ∃ before tail, IsPadding before ∧ more = before ++ ',' :: tail := by
  cases h with
  | nil => exact .inl rfl
  | cons hbefore => exact .inr ⟨_, _, hbefore, rfl⟩

/-! ### Reading -/

theorem readValue_array (input : List Symbol) :
    readValue (fuel + 1) (.char '[' :: input) = readItems fuel true [] input := by
  rw [readValue, skipSpace_of_head (by decide)]
  rfl

theorem readValue_object (input : List Symbol) :
    readValue (fuel + 1) (.char '\x7b' :: input) = readMembers fuel true [] input := by
  rw [readValue, skipSpace_of_head (by decide)]
  rfl

mutual

/-- A text of a value is read as a tree that holds the value. -/
theorem Spells.read : ∀ {v : Value} {cs : List Char}, Spells v cs →
    ∀ (fuel : Nat) (rest : List Symbol), cs.length < fuel → EndsNumber rest →
      ∃ t : Tree, readValue fuel (cs.map Symbol.char ++ rest) = (t, rest) ∧ t.Holds v
  | _, _, .null, fuel + 1, rest, _, _ =>
      ⟨.null, by simp [readValue, skipSpace, isSpace, word], Tree.holds_null⟩
  | _, _, .true, fuel + 1, rest, _, _ =>
      ⟨.bool true, by simp [readValue, skipSpace, isSpace, word], Tree.holds_bool true⟩
  | _, _, .false, fuel + 1, rest, _, _ =>
      ⟨.bool false, by simp [readValue, skipSpace, isSpace, word], Tree.holds_bool false⟩
  | _, _, @Spells.number n _ h, fuel + 1, rest, _, hrest =>
      ⟨.number n, h.read hrest, Tree.holds_number n⟩
  | _, _, .string h, fuel + 1, rest, _, _ => by
      obtain ⟨raw, behind, htext, hread, hclosed, hkeep⟩ := h.read rest
      refine ⟨.string raw, ?_, Tree.holds_string hclosed hkeep⟩
      rw [htext, readValue, skipSpace_of_head (by decide)]
      simp [hread]
  | _, _, .emptyArray hbefore, fuel + 2, rest, _, _ => by
      refine ⟨.array [] .closed, ?_, Tree.holds_array .nil⟩
      simpa [readValue_array] using readItems_close hbefore true []
  | _, _, @Spells.array v vs before cs more after hbefore hfirst hmore hafter, fuel + 2, rest,
      hfuel, _ => by
      simp only [List.length_cons, List.length_append] at hfuel
      obtain ⟨t, hread, hholds⟩ := hfirst.read fuel _ (by omega)
        (endsNumber_behind hmore.begins hafter (.inl rfl) rest)
      obtain ⟨ts, hitems, hall⟩ := hmore.read fuel [t] after rest (by omega) hafter
      refine ⟨.array (t :: ts) .closed, ?_, Tree.holds_array (.cons hholds hall)⟩
      simp only [List.map_cons, List.map_append, List.cons_append, List.append_assoc, List.map_nil,
        List.nil_append, readValue_array]
      rw [readItems_item (leadsTo_first hbefore hfirst.starts) hfirst.starts hread hholds.stop?_eq,
        hitems]
      rfl
  | _, _, .emptyObject hbefore, fuel + 2, rest, hfuel, _ => by
      refine ⟨.object [] .closed, ?_, Tree.holds_object .nil⟩
      simpa [readValue_object] using readMembers_close hbefore true []
  | _, _, @Spells.object m ms before cs more after hbefore hfirst hmore hafter, fuel + 2, rest,
      hfuel, _ => by
      simp only [List.length_cons, List.length_append] at hfuel
      obtain ⟨t, hholds, hmember⟩ := hfirst.read fuel _ (by omega)
        (endsNumber_behind hmore.begins hafter (.inr rfl) rest)
      obtain ⟨ts, hmembers, hall⟩ := hmore.read fuel [t] after rest (by omega) hafter
      refine ⟨.object (t :: ts) .closed, ?_, Tree.holds_object (.cons hholds hall)⟩
      simp only [List.map_cons, List.map_append, List.cons_append, List.append_assoc, List.map_nil,
        List.nil_append, readValue_object]
      rw [hmember _ _ _ (leadsTo_first hbefore hfirst.starts), hmembers]
      rfl

theorem SpellsMoreItems.read : ∀ {vs : List Value} {more : List Char}, SpellsMoreItems vs more →
    ∀ (fuel : Nat) (items : List Tree) (after : List Char) (rest : List Symbol),
      more.length < fuel → IsPadding after →
        ∃ ts, readItems fuel false items
              (more.map Symbol.char ++ (after.map Symbol.char ++ .char ']' :: rest)) =
            (.array (items.reverse ++ ts) .closed, rest) ∧
          List.Forall₂ Tree.Holds ts vs
  | _, _, .nil, fuel + 1, items, after, rest, _, hafter =>
      ⟨[], by simpa using readItems_close hafter false items, .nil⟩
  | _, _, @SpellsMoreItems.cons v vs before between cs more hbefore hbetween hfirst hmore, fuel + 1,
      items, after, rest, hfuel, hafter => by
      simp only [List.length_cons, List.length_append] at hfuel
      obtain ⟨t, hread, hholds⟩ := hfirst.read fuel _ (by omega)
        (endsNumber_behind hmore.begins hafter (.inl rfl) rest)
      obtain ⟨ts, hitems, hall⟩ := hmore.read fuel (t :: items) after rest (by omega) hafter
      refine ⟨t :: ts, ?_, .cons hholds hall⟩
      simp only [List.map_cons, List.map_append, List.cons_append, List.append_assoc]
      rw [readItems_item (leadsTo_next hbefore hbetween hfirst.starts) hfirst.starts hread
        hholds.stop?_eq, hitems]
      simp

/-- A text of a member is read as a key and a tree that hold it. -/
theorem SpellsMember.read : ∀ {m : String × Value} {cs : List Char}, SpellsMember m cs →
    ∀ (fuel : Nat) (rest : List Symbol), cs.length < fuel → EndsNumber rest →
      ∃ t, HoldsMember t m ∧ ∀ first members input,
        LeadsTo first input (cs.map Symbol.char ++ rest) →
          readMembers (fuel + 1) first members input = readMembers fuel false (t :: members) rest
  | _, _, @SpellsMember.mk k v key before after cs hkey hbefore hafter hvalue, fuel + 1, rest, hfuel,
      hrest => by
      simp only [List.length_append, List.length_cons] at hfuel
      obtain ⟨t, hread, hholds⟩ := hvalue.read (fuel + 1) rest (by omega) hrest
      obtain ⟨raw, behind, htext, hstring, hclosed, hkeep⟩ := hkey.read
        (before.map Symbol.char ++
          .char ':' :: (after.map Symbol.char ++ (cs.map Symbol.char ++ rest)))
      refine ⟨(raw, t), ⟨hkeep, hholds⟩, fun first members input hleads => ?_⟩
      simp only [List.map_append, List.map_cons, List.append_assoc, List.cons_append, htext]
        at hleads
      refine readMembers_member hleads hstring hclosed
        ((skipSpace_padding hbefore _).trans (skipSpace_of_head (by decide))) ?_ hholds.stop?_eq
      rw [readValue_padding hafter, hread]

/-- So are the texts of members that follow another one. -/
theorem SpellsMoreMembers.read : ∀ {ms : List (String × Value)} {more : List Char},
    SpellsMoreMembers ms more →
      ∀ (fuel : Nat) (members : List (RawString × Tree)) (after : List Char) (rest : List Symbol),
        more.length < fuel → IsPadding after →
          ∃ ts, readMembers fuel false members
                (more.map Symbol.char ++ (after.map Symbol.char ++ .char '\x7d' :: rest)) =
              (.object (members.reverse ++ ts) .closed, rest) ∧
            List.Forall₂ HoldsMember ts ms
  | _, _, .nil, fuel + 1, members, after, rest, _, hafter =>
      ⟨[], by simpa using readMembers_close hafter false members, .nil⟩
  | _, _, @SpellsMoreMembers.cons m ms before between cs more hbefore hbetween hfirst hmore,
      fuel + 1, members, after, rest, hfuel, hafter => by
      simp only [List.length_cons, List.length_append] at hfuel
      obtain ⟨t, hholds, hmember⟩ := hfirst.read fuel _ (by omega)
        (endsNumber_behind hmore.begins hafter (.inr rfl) rest)
      obtain ⟨ts, hmembers, hall⟩ := hmore.read fuel (t :: members) after rest (by omega) hafter
      refine ⟨t :: ts, ?_, .cons hholds hall⟩
      simp only [List.map_cons, List.map_append, List.cons_append, List.append_assoc]
      rw [hmember _ _ _ (leadsTo_next hbefore hbetween hfirst.starts), hmembers]
      simp

end

/-- **JSON texts are read.** A text of a value is read as the value, if it is within the limits; any
other JSON text is refused. -/
theorem Value.ofText_of_isText {v : Value} {s : String} (h : v.IsText s) :
    Value.ofText s = if v.Fits maxNesting then .ok v else .error .malformed := by
  obtain ⟨before, cs, after, hbefore, hspells, hafter, hs⟩ := h
  have hends : EndsNumber (after.map Symbol.char) := by
    have hnil : EndsNumber [] := fun c hc => by cases hc
    simpa using hnil.padding hafter
  have htrailing : skipSpace (after.map Symbol.char) = [] := by
    simpa [skipSpace] using skipSpace_padding hafter []
  obtain ⟨fuel, hfuel⟩ : ∃ fuel, 2 * (s.toList.map Symbol.char).length + 2 = fuel + 1 := ⟨_, rfl⟩
  have hlength : cs.length < fuel + 1 := by
    rw [← hfuel, hs]
    simp only [List.length_map, List.length_append]
    omega
  obtain ⟨t, hread, hholds⟩ := hspells.read (fuel + 1) _ hlength hends
  have hroot : readValue (fuel + 1) (s.toList.map Symbol.char) = (t, after.map Symbol.char) := by
    rw [hs, List.map_append, List.map_append, readValue_padding hbefore, hread]
  simp only [Value.ofText, Document.ofText, Document.ofSymbols, Text.symbols, hfuel, hroot,
    htrailing, Document.read, hholds.value_eq, ite_ok_bind]
  rfl

end DepositSync.Json
