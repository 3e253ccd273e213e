import DepositSync.Json.Reading

/-!
# DepositSync.Proofs.RecordReading

One member of a record. Reading a record takes the value of each member to one place of the result, so
a member can be exchanged for another one without any effect on the rest: the result is the one with
the other member, with the new value put in its place (`record_withMember`). This holds in both
notations, and of failures too: what is wrong elsewhere in the record is found in the same way.
-/

namespace DepositSync.Json

variable {α β : Type}

/-! ### Members -/

/-- Is this the name the string spells? -/
def RawString.spells (s : RawString) (name : String) : Bool :=
  match s.keep with
  | .ok k => k == name
  | .error _ => false

/-- Puts another value in the place of the first member of this name. -/
def replaceNamed (name : String) (new : Tree) : List (RawString × Tree) → List (RawString × Tree)
  | [] => []
  | (key, t) :: rest =>
    if key.spells name then (key, new) :: rest else (key, t) :: replaceNamed name new rest

namespace Tree

/-- The member of a record that has the name: in an array of its fields, the one in its place. -/
def member? (t : Tree) (names : List String) (name : String) : Option Tree :=
  match t with
  | .object members _ => (members.find? fun m => m.1.spells name).map Prod.snd
  | .array items _ => items[names.idxOf name]?
  | _ => none

/-- The record with another value in the place of that member. -/
def withMember (t : Tree) (names : List String) (name : String) (new : Tree) : Tree :=
  match t with
  | .object members ending => .object (replaceNamed name new members) ending
  | .array items ending => .array (items.set (names.idxOf name) new) ending
  | t => t

end Tree

/-! ### One place of the result -/

/-- The fields of a record and the place of one of them in the result: this field is read by `read`
and puts the value there by `set`, and no other field has to do with that place. -/
structure FieldPlace (fields : List (Field Tree ReadError α)) (name : String)
    (read : Tree → Except ReadError β) (set : α → β → α) : Prop where
  nodup : (fields.map Field.name).Nodup
  stores : ∀ f, f ∈ fields → f.name = name → ∀ t a, f.read t a = (read t).map (set a)
  spares : ∀ f, f ∈ fields → f.name ≠ name → ∀ t a b,
    f.read t (set a b) = (f.read t a).map (set · b)
  set_set : ∀ a b c, set (set a b) c = set a c

variable {fields : List (Field Tree ReadError α)} {name : String}
  {read : Tree → Except ReadError β} {set : α → β → α} {ending : Ending} {seen : List String}
  {a : α} {b : β} {old new : Tree}

/-! ### Records as objects -/

/-- The field a member is for, if there is one. A name that cannot be read is an error, and so is a
second member for a field. -/
def fieldFor (fields : List (Field Tree ReadError α)) (seen : List String) (key : RawString) :
    Except ReadError (Option (Field Tree ReadError α)) :=
  match key.keep with
  | .error e => .error e
  | .ok k =>
    match fields.find? (·.name == k) with
    | none => .ok none
    | some f => if seen.contains k then .error .mismatched else .ok (some f)

/-- One member is passed over, or read into the record. -/
theorem readFields_cons (key : RawString) (t : Tree) (rest : List (RawString × Tree)) (a : α) :
    readFields fields ending seen a ((key, t) :: rest) =
      match fieldFor fields seen key with
      | .error e => .error e
      | .ok none => (skip t).bind fun _ => readFields fields ending seen a rest
      | .ok (some f) =>
        (f.read t a).bind fun a' => readFields fields ending (f.name :: seen) a' rest := by
  simp only [readFields, fieldFor, bind]
  cases key.keep with
  | error e => rfl
  | ok k =>
    simp only [Except.bind]
    cases hfind : fields.find? (·.name == k) with
    | none => rfl
    | some f =>
      have hname : f.name = k := by simpa using List.find?_some hfind
      by_cases hseen : seen.contains k = true
      · simp only [if_pos hseen]
      · simp only [if_neg hseen, hname]

theorem spells_iff {s : RawString} : s.spells name = true ↔ s.keep = .ok name := by
  unfold RawString.spells
  cases s.keep with
  | error e => simp
  | ok k => simp

theorem fieldFor_eq_some {key : RawString} {f : Field Tree ReadError α}
    (h : fieldFor fields seen key = .ok (some f)) :
    f ∈ fields ∧ f.name ∉ seen ∧ key.spells f.name = true := by
  unfold fieldFor at h
  cases hkeep : key.keep with
  | error e =>
    rw [hkeep] at h
    cases h
  | ok k =>
    simp only [hkeep] at h
    cases hfind : fields.find? (·.name == k) with
    | none =>
      rw [hfind] at h
      cases h
    | some g =>
      have hname : g.name = k := by simpa using List.find?_some hfind
      simp only [hfind] at h
      split at h
      · cases h
      · next hseen =>
        cases h
        refine ⟨List.mem_of_find?_eq_some hfind, by simpa [hname] using hseen, ?_⟩
        rw [spells_iff, hkeep, hname]

/-- The member of the name is for the field of this name. -/
theorem exists_fieldFor {key : RawString} (hspells : key.spells name = true) (hseen : name ∉ seen)
    (hmem : name ∈ fields.map Field.name) :
    ∃ f, fieldFor fields seen key = .ok (some f) ∧ f.name = name := by
  obtain ⟨g, hg, hname⟩ := List.mem_map.mp hmem
  have hsome : (fields.find? (·.name == name)).isSome = true := by
    rw [List.find?_isSome]
    exact ⟨g, hg, beq_iff_eq.mpr hname⟩
  obtain ⟨f, hfind⟩ := Option.isSome_iff_exists.mp hsome
  refine ⟨f, ?_, by simpa using List.find?_some hfind⟩
  simp [fieldFor, spells_iff.mp hspells, hfind, hseen]

/-- Once the field has been read, what follows does not touch its place. -/
theorem readFields_of_seen (hplace : FieldPlace fields name read set) (hseen : name ∈ seen)
    (members : List (RawString × Tree)) (a : α) :
    readFields fields ending seen (set a b) members =
      (readFields fields ending seen a members).map (set · b) := by
  induction members generalizing seen a with
  | nil =>
    simp only [readFields]
    cases ending.check with
    | error e => rfl
    | ok u =>
      simp only [bind, Except.bind]
      split <;> rfl
  | cons m rest ih =>
    obtain ⟨key, t⟩ := m
    rw [readFields_cons, readFields_cons]
    cases hfield : fieldFor fields seen key with
    | error e => rfl
    | ok field? =>
      cases field? with
      | none =>
        cases skip t with
        | error e => rfl
        | ok u => exact ih hseen a
      | some f =>
        obtain ⟨hf, hnew, -⟩ := fieldFor_eq_some hfield
        have hother : f.name ≠ name := fun h => hnew (h ▸ hseen)
        simp only [hplace.spares f hf hother]
        cases f.read t a with
        | error e => rfl
        | ok a' => exact ih (List.mem_cons_of_mem _ hseen) a'

/-- The member itself is exchanged, and then the rest is read. -/
theorem readFields_member (hplace : FieldPlace fields name read set) {f : Field Tree ReadError α}
    (hf : f ∈ fields) (hname : f.name = name) (hread : read old = (read new).map fun _ => b)
    (rest : List (RawString × Tree)) (a : α) :
    ((f.read old a).bind fun a' => readFields fields ending (f.name :: seen) a' rest) =
      ((f.read new a).bind fun a' => readFields fields ending (f.name :: seen) a' rest).map
        (set · b) := by
  rw [hplace.stores f hf hname, hplace.stores f hf hname, hread]
  cases read new with
  | error e => rfl
  | ok c =>
    simp only [Except.map, Except.bind]
    rw [← hplace.set_set a c b]
    exact readFields_of_seen hplace (hname ▸ List.mem_cons_self) rest (set a c)

theorem readFields_replaceNamed (hplace : FieldPlace fields name read set) (hseen : name ∉ seen)
    (hmem : name ∈ fields.map Field.name)
    (hread : read old = (read new).map fun _ => b) {members : List (RawString × Tree)}
    (hmember : (members.find? fun m => m.1.spells name).map Prod.snd = some old) (a : α) :
    readFields fields ending seen a members =
      (readFields fields ending seen a (replaceNamed name new members)).map (set · b) := by
  induction members generalizing seen a with
  | nil => cases hmember
  | cons m rest ih =>
    obtain ⟨key, t⟩ := m
    rw [replaceNamed]
    by_cases hspells : key.spells name = true
    · obtain rfl : t = old := by simpa [List.find?_cons, hspells] using hmember
      obtain ⟨f, hfield, hname⟩ := exists_fieldFor hspells hseen hmem
      rw [if_pos hspells, readFields_cons, readFields_cons, hfield]
      exact readFields_member hplace (fieldFor_eq_some hfield).1 hname hread rest a
    · have hrest : (rest.find? fun m => m.1.spells name).map Prod.snd = some old := by
        simpa [List.find?_cons, hspells] using hmember
      rw [if_neg hspells, readFields_cons, readFields_cons]
      cases hfield : fieldFor fields seen key with
      | error e => rfl
      | ok field? =>
        cases field? with
        | none =>
          cases skip t with
          | error e => rfl
          | ok u => exact ih hseen hrest a
        | some f =>
          simp only
          cases f.read t a with
          | error e => rfl
          | ok a' =>
            refine ih ?_ hrest a'
            have hother : name ≠ f.name := fun h => hspells (h ▸ (fieldFor_eq_some hfield).2.2)
            simp [hseen, hother]

/-! ### Records as arrays -/

theorem FieldPlace.tail {f : Field Tree ReadError α} (h : FieldPlace (f :: fields) name read set) :
    FieldPlace fields name read set :=
  ⟨(List.nodup_cons.mp h.nodup).2, fun g hg => h.stores g (List.mem_cons_of_mem f hg),
    fun g hg => h.spares g (List.mem_cons_of_mem f hg), h.set_set⟩

theorem readPositions_of_absent (hplace : FieldPlace fields name read set)
    (habsent : name ∉ fields.map Field.name) (items : List Tree) (a : α) :
    readPositions ending fields (set a b) items =
      (readPositions ending fields a items).map (set · b) := by
  induction fields generalizing items a with
  | nil =>
    cases items with
    | nil =>
      simp only [readPositions]
      cases ending.check <;> rfl
    | cons t rest => rfl
  | cons f fields ih =>
    rw [List.map_cons, List.mem_cons, not_or] at habsent
    cases items with
    | nil =>
      simp only [readPositions, bind, Except.bind]
      cases ending.check with
      | error e => rfl
      | ok u =>
        simp only
        split
        · exact ih hplace.tail habsent.2 [] a
        · rfl
    | cons t rest =>
      simp only [readPositions, bind, Except.bind]
      rw [hplace.spares f List.mem_cons_self (Ne.symm habsent.1)]
      cases f.read t a with
      | error e => rfl
      | ok a' => exact ih hplace.tail habsent.2 rest a'

theorem readPositions_set (hplace : FieldPlace fields name read set)
    (hread : read old = (read new).map fun _ => b) {items : List Tree}
    (hmem : name ∈ fields.map Field.name)
    (hmember : items[(fields.map Field.name).idxOf name]? = some old) (a : α) :
    readPositions ending fields a items =
      (readPositions ending fields a
        (items.set ((fields.map Field.name).idxOf name) new)).map (set · b) := by
  induction fields generalizing items a with
  | nil => cases hmem
  | cons f fields ih =>
    cases items with
    | nil => cases hmember
    | cons t rest =>
      by_cases hname : f.name = name
      · have hindex : ((f :: fields).map Field.name).idxOf name = 0 := by
          rw [List.map_cons, hname, List.idxOf_cons_self]
        rw [hindex] at hmember ⊢
        have hold : t = old := by simpa using hmember
        have habsent : name ∉ fields.map Field.name := by
          rw [← hname]
          exact (List.nodup_cons.mp hplace.nodup).1
        simp only [List.set_cons_zero, readPositions, bind, Except.bind, hold]
        rw [hplace.stores f List.mem_cons_self hname, hplace.stores f List.mem_cons_self hname, hread]
        cases read new with
        | error e => rfl
        | ok c =>
          simp only [Except.map]
          rw [← hplace.set_set a c b]
          exact readPositions_of_absent hplace.tail habsent rest (set a c)
      · have hindex : ((f :: fields).map Field.name).idxOf name =
            (fields.map Field.name).idxOf name + 1 := by
          rw [List.map_cons, List.idxOf_cons, beq_false_of_ne hname, cond_false]
        rw [hindex] at hmember ⊢
        simp only [List.set_cons_succ, readPositions, bind, Except.bind]
        cases f.read t a with
        | error e => rfl
        | ok a' =>
          refine ih hplace.tail ?_ (by simpa using hmember) a'
          simpa [Ne.symm hname] using hmem

/-- Exchanging one member changes its place in the result, and nothing else. -/
theorem record_withMember (hplace : FieldPlace fields name read set)
    (hread : read old = (read new).map fun _ => b) {t : Tree} {base : α}
    (hmem : name ∈ fields.map Field.name)
    (hmember : t.member? (fields.map Field.name) name = some old) :
    record fields base t =
      (record fields base (t.withMember (fields.map Field.name) name new)).map (set · b) := by
  cases t with
  | object members ending =>
    exact readFields_replaceNamed hplace List.not_mem_nil hmem hread hmember base
  | array items ending => exact readPositions_set hplace hread hmem hmember base
  | null | bool _ | number _ | string _ | unread _ => cases hmember

end DepositSync.Json
