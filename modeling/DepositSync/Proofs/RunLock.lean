import DepositSync.Proofs.Account

/-!
# DepositSync.Proofs.RunLock

Several runs of one job under way at once. The scheduler and operators start the job at any time. A
run that finds something to do waits for the lock of the job, takes it when it is free, makes its
calls one by one, and gives the lock free when it has ended, in whatever way it did; none goes away
before. Nothing is said about which of those waiting is next.

What carries the proofs is that calls are made only by the holder of the lock, and that the holder
is the run that took it last (`RunLock.Inv`): a call that is answered extends the calls of the last
turn. So the calls fall into those of one turn after the other (`RunLock.Inv.calls_eq`).
-/

namespace DepositSync

variable {ν ρ σ : Type}

/-! ### Part of the way -/

namespace Program

variable {C : Type} {A : C → Type} {α : Type}

/-- The calls that a computation makes when they are answered like this, up to what it then still
has to do. Up to its result they are the trace of a run (`follows_trace`,
`Follows.exists_trace`). -/
inductive Follows : Program C A α → List (Step C A σ) → Program C A α → Prop where
  | refl (p : Program C A α) : Follows p [] p
  | call {c : C} {next : A c → Program C A α} {answer : A c} {after : σ}
      {steps : List (Step C A σ)} {rest : Program C A α} (h : Follows (next answer) steps rest) :
      Follows (.call c next) (⟨c, answer, after⟩ :: steps) rest

/-- One more call. -/
theorem Follows.snoc {p : Program C A α} {steps : List (Step C A σ)} {c : C}
    {next : A c → Program C A α} (h : p.Follows steps (.call c next)) (answer : A c) (after : σ) :
    p.Follows (steps ++ [⟨c, answer, after⟩]) (next answer) := by
  -- what is still to be done stays the same while the calls before it are taken off
  generalize hrest : Program.call c next = rest at h
  induction h with
  | refl p =>
      subst hrest
      exact .call (.refl _)
  | call _ ih => exact .call (ih hrest)

/-- Calls begin with the first one of the computation. -/
theorem Follows.head {c : C} {next : A c → Program C A α} {e : Step C A σ}
    {steps : List (Step C A σ)} {rest : Program C A α}
    (h : (Program.call c next).Follows (e :: steps) rest) :
    ∃ answer after, e = ⟨c, answer, after⟩ := by
  cases h with
  | call _ => exact ⟨_, _, rfl⟩

theorem follows_trace (handle : (c : C) → σ → A c × σ) (p : Program C A α) (s : σ) :
    p.Follows (p.trace handle s) (.done (p.run handle s).1) := by
  induction p generalizing s with
  | done a => exact .refl _
  | call c next ih => exact .call (ih _ _)

section

open Classical

/-- Gives the answers of a script, and leaves calls that are not in it to someone else. -/
noncomputable def replay (handle : (c : C) → σ → A c × σ) (c : C) :
    List (Step C A σ) × σ → A c × (List (Step C A σ) × σ)
  | (e :: script, s) =>
    if h : e.call = c then (h ▸ e.answer, (script, s))
    else ((handle c s).1, (e :: script, (handle c s).2))
  | ([], s) => ((handle c s).1, ([], (handle c s).2))

/-- A run that is given the answers of the script makes these calls, and has this result. -/
theorem Follows.exists_trace {p : Program C A α} {steps : List (Step C A σ)} {a : α}
    (h : p.Follows steps (.done a)) (handle : (c : C) → σ → A c × σ) (s : σ) :
    (p.run (replay handle) (steps, s)).1 = a ∧
      (p.trace (replay handle) (steps, s)).map (fun e => Sigma.mk e.call e.answer) =
        steps.map fun e => Sigma.mk e.call e.answer := by
  generalize hrest : (Program.done a : Program C A α) = rest at h
  induction h with
  | refl p =>
      subst hrest
      exact ⟨rfl, rfl⟩
  | @call c next answer after steps rest _ ih =>
      -- the script begins with the answer to this call
      have hanswer : replay handle c (⟨c, answer, after⟩ :: steps, s) = (answer, (steps, s)) :=
        dif_pos rfl
      rw [run_call, trace_call, hanswer, List.map_cons, List.map_cons]
      exact ⟨(ih hrest).1, congrArg (List.cons _) (ih hrest).2⟩

end

end Program

/-! ### The lock of a job -/

/-- A run of a job that ends in a report. -/
abbrev RunProgram (ν ρ : Type) := Program (Call ν ρ) Call.Answer RunReport

/-- How far a run that was started has come. -/
inductive Stage (ν ρ : Type) where
  /-- Waits for the lock, with the whole run to do. -/
  | waiting (p : RunProgram ν ρ)
  /-- Has the lock, and this still to do. -/
  | running (p : RunProgram ν ρ)
  /-- Has the lock, and a call on its way. -/
  | calling (c : Call ν ρ) (next : c.Answer → RunProgram ν ρ)
  /-- Has been given the report. -/
  | returned (report : RunReport)

namespace Stage

/-- What is still to be done. -/
def ahead : Stage ν ρ → RunProgram ν ρ
  | waiting p | running p => p
  | calling c next => .call c next
  | returned report => .done report

/-- Does the run hold the lock? -/
def holdsLock : Stage ν ρ → Bool
  | running _ | calling _ _ => true
  | waiting _ | returned _ => false

end Stage

/-- A run that was started, and how far it has come. -/
structure Invocation (ν ρ : Type) where
  launch : Launch
  stage : Stage ν ρ

/-- A run that is started. Where there is nothing to do it returns without waiting. -/
def Launch.invocation [Entity ν ρ] (l : Launch) : Invocation ν ρ where
  launch := l
  stage := match l.program ρ with
    | .done report => .returned report
    | .call c next => .waiting (.call c next)

/-- The lock of a job: the run that holds it, with all runs of the job that were started, the turns
that were taken, and the calls that were answered. -/
structure RunLock (ν ρ σ : Type) where
  /-- In the order in which they were started. -/
  invocations : List (Invocation ν ρ)
  /-- The run that has the lock. -/
  holder : Option Nat
  /-- The runs that have taken the lock, in this order. -/
  turns : List Nat
  /-- The calls, each with the run that made it. -/
  calls : List (Nat × RunStep ν ρ σ)

namespace RunLock

/-- No run was started, and the lock is free. -/
def initial : RunLock ν ρ σ := ⟨[], none, [], []⟩

/-- The calls that one of the runs made. -/
def callsOf (r : RunLock ν ρ σ) (i : Nat) : List (RunStep ν ρ σ) :=
  (r.calls.filter (·.1 == i)).map Prod.snd

/-- A run is started. -/
def enter [Entity ν ρ] (r : RunLock ν ρ σ) (l : Launch) : RunLock ν ρ σ :=
  { r with invocations := r.invocations ++ [l.invocation] }

/-- A run is at another stage. -/
def move (r : RunLock ν ρ σ) (i : Nat) (l : Launch) (stage : Stage ν ρ) : RunLock ν ρ σ :=
  { r with invocations := r.invocations.set i ⟨l, stage⟩ }

/-- A run takes the lock. -/
def take (r : RunLock ν ρ σ) (i : Nat) (l : Launch) (p : RunProgram ν ρ) : RunLock ν ρ σ :=
  { r.move i l (.running p) with holder := some i, turns := r.turns ++ [i] }

/-- A call of a run is answered. -/
def record (r : RunLock ν ρ σ) (i : Nat) (l : Launch) (e : RunStep ν ρ σ) (p : RunProgram ν ρ) :
    RunLock ν ρ σ :=
  { r.move i l (.running p) with calls := r.calls ++ [(i, e)] }

/-- A run gives the lock free. -/
def leave (r : RunLock ν ρ σ) (i : Nat) (l : Launch) (report : RunReport) : RunLock ν ρ σ :=
  { r.move i l (.returned report) with holder := none }

/-- A run goes on, if nothing is in the way. -/
def proceed (handle : (c : Call ν ρ) → σ → c.Answer × σ) (i : Nat) (r : RunLock ν ρ σ) (s : σ) :
    RunLock ν ρ σ × σ :=
  match r.invocations[i]? with
  | some ⟨l, .waiting p⟩ =>
    match r.holder with
    | none => (r.take i l p, s)
    | some _ => (r, s)
  | some ⟨l, .running (.call c next)⟩ => (r.move i l (.calling c next), s)
  | some ⟨l, .calling c next⟩ =>
    let (answer, after) := handle c s
    (r.record i l ⟨c, answer, after⟩ (next answer), after)
  | some ⟨l, .running (.done report)⟩ => (r.leave i l report, s)
  | some ⟨_, .returned _⟩ => (r, s)
  | none => (r, s)

/-! ### What is so at any time -/

theorem callsOf_record_self (r : RunLock ν ρ σ) (i : Nat) (l : Launch) (e : RunStep ν ρ σ)
    (p : RunProgram ν ρ) : (r.record i l e p).callsOf i = r.callsOf i ++ [e] := by
  simp [callsOf, record]

theorem callsOf_record_of_ne (r : RunLock ν ρ σ) {i j : Nat} (h : j ≠ i) (l : Launch)
    (e : RunStep ν ρ σ) (p : RunProgram ν ρ) : (r.record i l e p).callsOf j = r.callsOf j := by
  simp [callsOf, record, h.symm]

end RunLock

/-- A run that does anything begins by listing the clients. -/
theorem Launch.program_of_call [Entity ν ρ] {l : Launch} {c : Call ν ρ}
    {next : c.Answer → RunProgram ν ρ} (h : l.program ρ = .call c next) :
    ∃ next, l.program ρ = .call (.list l.settings.provider l.mode.isInstant) next := by
  rcases l.program_cases (ρ := ρ) with hdone | hrun
  · rw [hdone] at h
    cases h
  · exact ⟨_, hrun⟩

/-- What is so for a run that was started: given the calls made so far, whether it has the lock, and
whether it has taken it. -/
structure Invocation.Lawful [Entity ν ρ] (inv : Invocation ν ρ) (calls : List (RunStep ν ρ σ))
    (holds taken : Prop) : Prop where
  /-- The calls are those of the run, up to what is still to be done. -/
  follows : (inv.launch.program ρ).Follows calls inv.stage.ahead
  holds_iff : inv.stage.holdsLock = true ↔ holds
  /-- A run that waits has not taken the lock. -/
  waits : ∀ p, inv.stage = .waiting p → ¬taken
  /-- A run that waits for the lock, or has taken it, has something to do. -/
  busy : (taken ∨ ∃ p, inv.stage = .waiting p) → ∃ next,
    inv.launch.program ρ = .call (.list inv.launch.settings.provider inv.launch.mode.isInstant) next

/-- A run goes on to another stage, which is not to wait for the lock again. -/
theorem Invocation.Lawful.next [Entity ν ρ] {l : Launch} {stage stage' : Stage ν ρ}
    {calls calls' : List (RunStep ν ρ σ)} {holds holds' taken taken' : Prop}
    (h : Invocation.Lawful ⟨l, stage⟩ calls holds taken)
    (hfollows : (l.program ρ).Follows calls' stage'.ahead)
    (hholds : stage'.holdsLock = true ↔ holds') (hstage : ∀ p, stage' ≠ .waiting p)
    (htaken : taken' → taken ∨ ∃ p, stage = .waiting p) :
    Invocation.Lawful ⟨l, stage'⟩ calls' holds' taken' where
  follows := hfollows
  holds_iff := hholds
  waits p hp := absurd hp (hstage p)
  busy
    | .inl ht => h.busy (htaken ht)
    | .inr ⟨p, hp⟩ => absurd hp (hstage p)

section

variable [Entity ν ρ] (l : Launch)

theorem Launch.ahead_invocation :
    (l.invocation : Invocation ν ρ).stage.ahead = l.program ρ := by
  rw [invocation]
  cases l.program ρ <;> rfl

theorem Launch.holdsLock_invocation :
    (l.invocation : Invocation ν ρ).stage.holdsLock = false := by
  rw [invocation]
  cases l.program ρ <;> rfl

theorem Launch.program_of_waiting {p : RunProgram ν ρ}
    (h : (l.invocation : Invocation ν ρ).stage = .waiting p) :
    ∃ next, l.program ρ = .call (.list l.settings.provider l.mode.isInstant) next := by
  cases hp : l.program ρ with
  | done report =>
      simp only [invocation, hp] at h
      cases h
  | call c next =>
      obtain ⟨_, hlist⟩ := l.program_of_call hp
      exact ⟨_, hp ▸ hlist⟩

theorem Launch.lawful_invocation {holds taken : Prop} (hholds : ¬holds) (htaken : ¬taken) :
    (l.invocation : Invocation ν ρ).Lawful ([] : List (RunStep ν ρ σ)) holds taken where
  follows := by
    rw [ahead_invocation]
    exact .refl _
  holds_iff := by
    rw [holdsLock_invocation]
    exact ⟨nofun, fun h => absurd h hholds⟩
  waits _ _ := htaken
  busy
    | .inl h => absurd h htaken
    | .inr ⟨_, h⟩ => l.program_of_waiting h

end

namespace RunLock

variable [Entity ν ρ]

/-- What is so at any time. -/
structure Inv (r : RunLock ν ρ σ) : Prop where
  lawful : ∀ (i : Nat) (inv : Invocation ν ρ), r.invocations[i]? = some inv →
    inv.Lawful (r.callsOf i) (r.holder = some i) (i ∈ r.turns)
  known : ∀ i ∈ r.turns, i < r.invocations.length
  /-- No run takes the lock twice. -/
  once : r.turns.Nodup
  /-- The calls are those of one turn after the other. -/
  calls_eq : r.calls = r.turns.flatMap fun i => (r.callsOf i).map (Prod.mk i)
  /-- The run that has the lock has taken it last. -/
  latest : ∀ i, r.holder = some i → ∃ earlier, r.turns = earlier ++ [i]

theorem Inv.initial : (initial : RunLock ν ρ σ).Inv where
  lawful _ _ h := by cases h
  known _ h := by cases h
  once := .nil
  calls_eq := rfl
  latest _ h := by cases h

theorem Inv.mem_turns {r : RunLock ν ρ σ} (h : r.Inv) {i : Nat} (hi : r.holder = some i) :
    i ∈ r.turns := by
  obtain ⟨earlier, hturns⟩ := h.latest i hi
  exact hturns ▸ List.mem_append_right _ (List.mem_singleton.mpr rfl)

theorem Inv.exists_invocation {r : RunLock ν ρ σ} (h : r.Inv) {i : Nat} (hi : i ∈ r.turns) :
    ∃ l stage, r.invocations[i]? = some ⟨l, stage⟩ :=
  ⟨_, _, List.getElem?_eq_getElem (h.known i hi)⟩

theorem Inv.callsOf_eq_nil {r : RunLock ν ρ σ} (h : r.Inv) {i : Nat} (hi : i ∉ r.turns) :
    r.callsOf i = [] := by
  refine List.map_eq_nil_iff.mpr (List.filter_eq_nil_iff.mpr fun e he hei => hi ?_)
  rw [h.calls_eq] at he
  obtain ⟨j, hj, hmem⟩ := List.mem_flatMap.mp he
  obtain ⟨_, -, rfl⟩ := List.mem_map.mp hmem
  exact eq_of_beq hei ▸ hj

theorem Inv.enter {r : RunLock ν ρ σ} (h : r.Inv) (l : Launch) : (r.enter l).Inv where
  lawful i inv hi := by
    rcases Nat.lt_or_ge i r.invocations.length with hlt | hge
    · exact h.lawful i inv (by rwa [RunLock.enter, List.getElem?_append_left hlt] at hi)
    · -- the run that was started last has neither made a call nor taken the lock
      have hnew : i ∉ r.turns := fun hmem => absurd (h.known i hmem) (by omega)
      have hcalls : (r.enter l).callsOf i = [] := h.callsOf_eq_nil hnew
      rw [RunLock.enter, List.getElem?_append_right hge] at hi
      obtain rfl := List.mem_singleton.mp (List.mem_of_getElem? hi)
      rw [hcalls]
      exact l.lawful_invocation (fun hholder => hnew (h.mem_turns hholder)) hnew
  known i hi := by
    have := h.known i hi
    simp only [RunLock.enter, List.length_append, List.length_singleton]
    omega
  once := h.once
  calls_eq := h.calls_eq
  latest := h.latest

/-- If a run is at another stage, nothing is different for the others. -/
theorem Inv.lawful_of_move {r r' : RunLock ν ρ σ} (h : r.Inv) {i : Nat} {l : Launch}
    {stage : Stage ν ρ} (hmove : r'.invocations = (r.move i l stage).invocations)
    (hself : Invocation.Lawful ⟨l, stage⟩ (r'.callsOf i) (r'.holder = some i) (i ∈ r'.turns))
    (hothers : ∀ j, j ≠ i → r'.callsOf j = r.callsOf j ∧
      (r'.holder = some j ↔ r.holder = some j) ∧ (j ∈ r'.turns ↔ j ∈ r.turns)) (j : Nat)
    (inv : Invocation ν ρ) (hj : r'.invocations[j]? = some inv) :
    inv.Lawful (r'.callsOf j) (r'.holder = some j) (j ∈ r'.turns) := by
  rw [hmove, move] at hj
  by_cases hji : j = i
  · subst hji
    rw [List.getElem?_set_self'] at hj
    obtain ⟨_, -, rfl⟩ := Option.map_eq_some_iff.mp hj
    exact hself
  · rw [List.getElem?_set_ne (Ne.symm hji)] at hj
    obtain ⟨hcalls, hholder, hturns⟩ := hothers j hji
    rw [hcalls, hholder, hturns]
    exact h.lawful j inv hj

section

variable {r : RunLock ν ρ σ} {i : Nat} {l : Launch}

omit [Entity ν ρ] in
theorem length_move (r : RunLock ν ρ σ) (i : Nat) (l : Launch) (stage : Stage ν ρ) :
    (r.move i l stage).invocations.length = r.invocations.length :=
  List.length_set

theorem Inv.take (h : r.Inv) {p : RunProgram ν ρ} (hi : r.invocations[i]? = some ⟨l, .waiting p⟩)
    (hfree : r.holder = none) : (r.take i l p).Inv := by
  have hlawful := h.lawful i _ hi
  have hnew : i ∉ r.turns := hlawful.waits p rfl
  exact {
    lawful := h.lawful_of_move rfl
      (hlawful.next hlawful.follows ⟨fun _ => rfl, fun _ => rfl⟩ nofun fun _ => .inr ⟨p, rfl⟩)
      fun j hj => ⟨rfl, by simp [RunLock.take, hfree, hj.symm], by simp [RunLock.take, hj]⟩
    known := fun j hj => by
      refine (length_move ..).symm ▸ ?_
      rcases List.mem_append.mp hj with hj | hj
      · exact h.known j hj
      · obtain rfl := List.mem_singleton.mp hj
        exact (List.getElem?_eq_some_iff.mp hi).1
    once := List.nodup_append.mpr ⟨h.once, List.pairwise_singleton _ i, fun j hj k hk hjk =>
      hnew (List.mem_singleton.mp hk ▸ hjk ▸ hj)⟩
    calls_eq := by
      -- the turn that begins has no calls yet
      have hcalls : (r.take i l p).callsOf = r.callsOf := rfl
      rw [hcalls, RunLock.take, List.flatMap_append, ← h.calls_eq, List.flatMap_singleton,
        h.callsOf_eq_nil hnew]
      exact (List.append_nil _).symm
    latest := fun j hj => by
      obtain rfl := Option.some.inj hj
      exact ⟨r.turns, rfl⟩ }

/-- A call sets out. -/
theorem Inv.send (h : r.Inv) {c : Call ν ρ} {next : c.Answer → RunProgram ν ρ}
    (hi : r.invocations[i]? = some ⟨l, .running (.call c next)⟩) :
    (r.move i l (.calling c next)).Inv := by
  have hlawful := h.lawful i _ hi
  exact {
    lawful := h.lawful_of_move rfl (hlawful.next hlawful.follows hlawful.holds_iff nofun .inl)
      fun j _ => ⟨rfl, .rfl, .rfl⟩
    known := fun j hj => (length_move ..).symm ▸ h.known j hj
    once := h.once
    calls_eq := h.calls_eq
    latest := h.latest }

/-- A call is answered. It is one more of the last turn. -/
theorem Inv.record (h : r.Inv) (e : RunStep ν ρ σ) {next : e.call.Answer → RunProgram ν ρ}
    (hi : r.invocations[i]? = some ⟨l, .calling e.call next⟩) :
    (r.record i l e (next e.answer)).Inv := by
  have hlawful := h.lawful i _ hi
  exact {
    lawful := h.lawful_of_move rfl
      (hlawful.next (callsOf_record_self r i l e _ ▸ hlawful.follows.snoc e.answer e.after)
        hlawful.holds_iff nofun .inl)
      fun j hj => ⟨callsOf_record_of_ne r hj l e _, .rfl, .rfl⟩
    known := fun j hj => (length_move ..).symm ▸ h.known j hj
    once := h.once
    calls_eq := by
      -- the turn of the holder is the last one, and the others are closed
      obtain ⟨earlier, hturns⟩ := h.latest i (hlawful.holds_iff.mp rfl)
      have hother (j : Nat) (hj : j ∈ earlier) : j ≠ i := fun hji =>
        (List.nodup_append.mp (hturns ▸ h.once)).2.2 j hj i (List.mem_singleton.mpr rfl) hji
      have hcalls := h.calls_eq
      simp only [hturns, List.flatMap_append, List.flatMap_singleton] at hcalls
      calc (r.record i l e (next e.answer)).calls
          = r.calls ++ [(i, e)] := rfl
        _ = earlier.flatMap (fun j => (r.callsOf j).map (Prod.mk j)) ++
              (r.callsOf i ++ [e]).map (Prod.mk i) := by
            rw [hcalls, List.map_append, List.append_assoc]
            rfl
        _ = _ := by
            rw [show (r.record i l e (next e.answer)).turns = earlier ++ [i] from hturns,
              List.flatMap_append, List.flatMap_singleton, callsOf_record_self]
            refine congrArg (List.flatten · ++ _) (List.map_congr_left fun j hj => ?_)
            rw [callsOf_record_of_ne r (hother j hj)]
    latest := h.latest }

theorem Inv.leave (h : r.Inv) {report : RunReport}
    (hi : r.invocations[i]? = some ⟨l, .running (.done report)⟩) : (r.leave i l report).Inv := by
  have hlawful := h.lawful i _ hi
  have hholder : r.holder = some i := hlawful.holds_iff.mp rfl
  exact {
    lawful := h.lawful_of_move rfl (hlawful.next hlawful.follows ⟨nofun, nofun⟩ nofun .inl)
      fun j hj => ⟨rfl, by simp [RunLock.leave, hholder, hj.symm], .rfl⟩
    known := fun j hj => (length_move ..).symm ▸ h.known j hj
    once := h.once
    calls_eq := h.calls_eq
    latest := nofun }

end

theorem Inv.proceed {r : RunLock ν ρ σ} (h : r.Inv)
    (handle : (c : Call ν ρ) → σ → c.Answer × σ) (i : Nat) (s : σ) :
    (r.proceed handle i s).1.Inv := by
  fun_cases RunLock.proceed handle i r s with
  | case1 l p hi hfree => exact h.take hi hfree
  | case2 => exact h
  | case3 l c next hi => exact h.send hi
  | case4 l c next hi answer after _ => exact h.record ⟨c, answer, after⟩ hi
  | case5 l report hi => exact h.leave hi
  | case6 => exact h
  | case7 => exact h

/-! ### What is made of the table -/

/-- The calls account for the table: those that succeeded did their work on it, one after the other,
and clients were listed as it was then. -/
structure Faithful (env : Backend ν ρ σ) (t : Table ρ) (r : RunLock ν ρ σ) (s : σ) : Prop where
  table_eq : env.table s = applied (r.calls.map Prod.snd) t
  listed : ∀ (before later : List (Nat × RunStep ν ρ σ)) (i : Nat) (provider : String)
    (instantOnly : Bool) (clients : List String) (after : σ),
    r.calls = before ++ (i, ⟨.list provider instantOnly, .ok clients, after⟩) :: later →
      clients = (applied (before.map Prod.snd) t).list provider instantOnly

section

variable {env : Backend ν ρ σ} {t : Table ρ} {r : RunLock ν ρ σ} {s : σ}

theorem Faithful.record (h : r.Faithful env t s) (i : Nat) (l : Launch) (c : Call ν ρ)
    (p : RunProgram ν ρ) :
    (r.record i l ⟨c, (env.answer c s).1, (env.answer c s).2⟩ p).Faithful env t
      (env.answer c s).2 := by
  constructor
  · rw [env.table_eq, h.table_eq, RunLock.record, List.map_append, applied_append]
    rfl
  · intro before later j provider instantOnly clients after hcalls
    rcases append_cons_eq_append hcalls with ⟨tail, hold⟩ | ⟨rest, rfl, hnew⟩
    · exact h.listed _ _ _ _ _ _ _ hold
    · -- it is this call that lists the clients
      obtain ⟨rfl, he⟩ : rest = [] ∧
          (i, ⟨c, (env.answer c s).1, (env.answer c s).2⟩) =
            (j, (⟨.list provider instantOnly, .ok clients, after⟩ : RunStep ν ρ σ)) := by
        cases rest with
        | nil => exact ⟨rfl, (List.cons.inj hnew).1⟩
        | cons _ rest => simp at hnew
      obtain ⟨-, he⟩ := Prod.mk.inj he
      obtain ⟨rfl, hanswer, -⟩ := Step.mk.inj he
      rw [List.append_nil, ← h.table_eq]
      exact env.list_eq provider instantOnly s clients (eq_of_heq hanswer)

/-- Whichever run goes on, the calls account for the table. -/
theorem Faithful.proceed (h : r.Faithful env t s) (i : Nat) :
    (r.proceed env.answer i s).1.Faithful env t (r.proceed env.answer i s).2 := by
  -- nothing but an answer changes the world or the calls
  fun_cases RunLock.proceed env.answer i r s with
  | case1 => exact ⟨h.table_eq, h.listed⟩
  | case2 => exact h
  | case3 => exact ⟨h.table_eq, h.listed⟩
  | case4 l c next hi answer after hanswer =>
      have hrecord := h.record i l c (next (env.answer c s).1)
      rw [hanswer] at hrecord
      exact hrecord
  | case5 => exact ⟨h.table_eq, h.listed⟩
  | case6 => exact h
  | case7 => exact h

end

/-! ### A run goes on -/

section

variable {r : RunLock ν ρ σ} {i : Nat} {l : Launch}
  {handle : (c : Call ν ρ) → σ → c.Answer × σ} {s : σ}

omit [Entity ν ρ]

theorem proceed_of_waiting {p : RunProgram ν ρ} (hi : r.invocations[i]? = some ⟨l, .waiting p⟩)
    (hfree : r.holder = none) : r.proceed handle i s = (r.take i l p, s) := by
  simp only [proceed, hi, hfree]

theorem proceed_of_call {c : Call ν ρ} {next : c.Answer → RunProgram ν ρ}
    (hi : r.invocations[i]? = some ⟨l, .running (.call c next)⟩) :
    r.proceed handle i s = (r.move i l (.calling c next), s) := by
  simp only [proceed, hi]

theorem proceed_of_calling {c : Call ν ρ} {next : c.Answer → RunProgram ν ρ}
    (hi : r.invocations[i]? = some ⟨l, .calling c next⟩) :
    r.proceed handle i s =
      (r.record i l ⟨c, (handle c s).1, (handle c s).2⟩ (next (handle c s).1), (handle c s).2) := by
  simp only [proceed, hi]

theorem proceed_of_done {report : RunReport}
    (hi : r.invocations[i]? = some ⟨l, .running (.done report)⟩) :
    r.proceed handle i s = (r.leave i l report, s) := by
  simp only [proceed, hi]

theorem getElem?_move {inv : Invocation ν ρ} (hi : r.invocations[i]? = some inv)
    (stage : Stage ν ρ) : (r.move i l stage).invocations[i]? = some ⟨l, stage⟩ :=
  List.getElem?_set_self (List.getElem?_eq_some_iff.mp hi).1

/-- The runs are those that were started, whichever goes on. -/
theorem launches_proceed (r : RunLock ν ρ σ) (i : Nat) (s : σ) :
    (r.proceed handle i s).1.invocations.map Invocation.launch =
      r.invocations.map Invocation.launch := by
  have hmove {l : Launch} {stage : Stage ν ρ} (hi : r.invocations[i]? = some ⟨l, stage⟩)
      (stage' : Stage ν ρ) :
      (r.move i l stage').invocations.map Invocation.launch =
        r.invocations.map Invocation.launch := by
    obtain ⟨hlt, hget⟩ := List.getElem?_eq_some_iff.mp hi
    have hlength : i < (r.invocations.map Invocation.launch).length := by rwa [List.length_map]
    have hlaunch : (r.invocations.map Invocation.launch)[i] = l := by rw [List.getElem_map, hget]
    rw [move, List.map_set, ← hlaunch, List.set_getElem_self]
  fun_cases RunLock.proceed handle i r s with
  | case1 l p hi hfree => exact hmove hi _
  | case2 => rfl
  | case3 l c next hi => exact hmove hi _
  | case4 l c next hi answer after _ => exact hmove hi _
  | case5 l report hi => exact hmove hi _
  | case6 => rfl
  | case7 => rfl

end

/-- A run that has not returned waits for none but the one that has the lock, which can go on. -/
theorem Inv.goesOn {r : RunLock ν ρ σ} (h : r.Inv) {i : Nat} {inv : Invocation ν ρ}
    (hi : r.invocations[i]? = some inv) (hinv : ∀ report, inv.stage ≠ .returned report)
    (handle : (c : Call ν ρ) → σ → c.Answer × σ) (s : σ) :
    let j := r.holder.getD i
    (r.proceed handle j s).1.invocations[j]? ≠ r.invocations[j]? := by
  cases hholder : r.holder with
  | none =>
      -- the lock is free, so this run can take it
      change (r.proceed handle i s).1.invocations[i]? ≠ r.invocations[i]?
      obtain ⟨l, stage⟩ := inv
      match stage with
      | .waiting p =>
          rw [proceed_of_waiting hi hholder, RunLock.take, getElem?_move hi, hi]
          nofun
      | .running _ | .calling _ _ =>
          exact absurd ((h.lawful i _ hi).holds_iff.mp rfl) (by simp [hholder])
      | .returned report => exact absurd rfl (hinv report)
  | some j =>
      -- it is not, and nothing is in the way of the run that has it
      change (r.proceed handle j s).1.invocations[j]? ≠ r.invocations[j]?
      obtain ⟨l, stage, hj⟩ := h.exists_invocation (h.mem_turns hholder)
      have hholds : stage.holdsLock = true := (h.lawful j _ hj).holds_iff.mpr hholder
      match stage with
      | .waiting _ | .returned _ => cases hholds
      | .running (.call c next) =>
          rw [proceed_of_call hj, getElem?_move hj, hj]
          nofun
      | .running (.done report) =>
          rw [proceed_of_done hj, RunLock.leave, getElem?_move hj, hj]
          nofun
      | .calling c next =>
          rw [proceed_of_calling hj, RunLock.record, getElem?_move hj, hj]
          nofun

/-! ### One run after the other -/

omit [Entity ν ρ] in
/-- What stands between two items under the same key is under this key as well, where each key has
its turn once. -/
theorem fst_eq_of_between {β : Type} {keys : List Nat} (hkeys : keys.Nodup) {f : Nat → List β}
    {before middle later : List (Nat × β)} {k : Nat} {b b' : β}
    (h : keys.flatMap (fun k => (f k).map (Prod.mk k)) =
      before ++ (k, b) :: (middle ++ (k, b') :: later)) : ∀ x ∈ middle, x.1 = k := by
  induction keys generalizing before with
  | nil => simp at h
  | cons key rest ih =>
      obtain ⟨hnew, hrest⟩ := List.nodup_cons.mp hkeys
      rw [List.flatMap_cons] at h
      have hkey (x : Nat × β) (hx : x ∈ (f key).map (Prod.mk key)) : x.1 = key := by
        obtain ⟨_, -, rfl⟩ := List.mem_map.mp hx
        rfl
      rcases append_cons_eq_append h with ⟨tail, hfirst⟩ | ⟨before', rfl, hlater⟩
      · -- the first one is in the turn of this key, and so is the second one: it has no other
        rw [hfirst] at h hkey
        obtain rfl : k = key := hkey (k, b) (by simp)
        have hmiddle : tail ++ rest.flatMap (fun k => (f k).map (Prod.mk k)) =
            middle ++ (k, b') :: later := by simpa using h
        rcases append_cons_eq_append hmiddle with ⟨tail', rfl⟩ | ⟨rest', -, hother⟩
        · exact fun x hx => hkey x (by simp [hx])
        · have hmem : (k, b') ∈ rest.flatMap (fun k => (f k).map (Prod.mk k)) :=
            hother ▸ List.mem_append_right _ (List.mem_cons_self ..)
          obtain ⟨j, hj, hjk⟩ := List.mem_flatMap.mp hmem
          obtain ⟨_, -, hjk⟩ := List.mem_map.mp hjk
          obtain ⟨rfl, -⟩ := Prod.mk.inj hjk
          exact absurd hj hnew
      · exact ih hrest hlater

/-- Runs of one job, started at any time, that go on one after the other. -/
structure Serial (env : Backend ν ρ σ) (launches : List Launch) (t : Table ρ) (r : RunLock ν ρ σ)
    (s : σ) : Prop where
  /-- All that were started are there. -/
  started : r.invocations.map Invocation.launch = launches
  /-- Each takes the lock once at most. -/
  once : r.turns.Nodup
  /-- The calls are those of one run after the other, in the order in which the runs took the
  lock. -/
  calls_eq : r.calls = r.turns.flatMap fun i => (r.callsOf i).map (Prod.mk i)
  /-- Between two calls of a run there are none of another one. -/
  unbroken : ∀ (before middle later : List (Nat × RunStep ν ρ σ)) (i : Nat)
    (e e' : RunStep ν ρ σ), r.calls = before ++ (i, e) :: (middle ++ (i, e') :: later) →
      ∀ x ∈ middle, x.1 = i
  /-- A run that took the lock has returned and made all its calls, or it is the last one, still has
  the lock, and has made its calls so far. -/
  whole : ∀ (earlier later : List Nat) (i : Nat), r.turns = earlier ++ i :: later →
    ∃ l stage, r.invocations[i]? = some ⟨l, stage⟩ ∧
      ((∃ report, stage = .returned report ∧
          (l.program ρ).Follows (r.callsOf i) (.done report)) ∨
        (later = [] ∧ r.holder = some i ∧ (l.program ρ).Follows (r.callsOf i) stage.ahead))
  /-- A call is on its way only for the run that has the lock. -/
  alone : ∀ (i : Nat) (l : Launch) (c : Call ν ρ) (next : c.Answer → RunProgram ν ρ),
    r.invocations[i]? = some ⟨l, .calling c next⟩ → r.holder = some i
  /-- The first call of a run lists the clients. It sees the table as the runs before have left
  it. -/
  listed : ∀ (earlier later : List Nat) (i : Nat) (l : Launch) (stage : Stage ν ρ)
    (e : RunStep ν ρ σ) (rest : List (RunStep ν ρ σ)), r.turns = earlier ++ i :: later →
    r.invocations[i]? = some ⟨l, stage⟩ → r.callsOf i = e :: rest →
      ∃ listing after, e = ⟨.list l.settings.provider l.mode.isInstant, listing, after⟩ ∧
        ∀ clients, listing = .ok clients → clients =
          (applied (earlier.flatMap r.callsOf) t).list l.settings.provider l.mode.isInstant
  /-- A run that the scheduler starts of a job that is switched off is told so at once, and makes no
  call. -/
  turnedAway : ∀ (i : Nat) (l : Launch) (stage : Stage ν ρ),
    r.invocations[i]? = some ⟨l, stage⟩ → l.trigger = .schedule → l.settings.enabled = false →
      stage = .returned (.disabled (Entity.job ρ) l.mode l.settings.provider) ∧
        i ∉ r.turns ∧ r.callsOf i = []
  /-- The table is what the calls have made of it. -/
  table_eq : env.table s = applied (r.calls.map Prod.snd) t
  /-- A run that has not returned waits for none but the one that has the lock, which can go on. -/
  goesOn : ∀ (i : Nat) (inv : Invocation ν ρ), r.invocations[i]? = some inv →
    (∀ report, inv.stage ≠ .returned report) →
      let j := r.holder.getD i
      (r.proceed env.answer j s).1.invocations[j]? ≠ r.invocations[j]?

section

variable {env : Backend ν ρ σ} {t : Table ρ} {r : RunLock ν ρ σ} {s : σ}

theorem Inv.whole (h : r.Inv) {earlier later : List Nat} {i : Nat}
    (hturns : r.turns = earlier ++ i :: later) :
    ∃ l stage, r.invocations[i]? = some ⟨l, stage⟩ ∧
      ((∃ report, stage = .returned report ∧
          (l.program ρ).Follows (r.callsOf i) (.done report)) ∨
        (later = [] ∧ r.holder = some i ∧ (l.program ρ).Follows (r.callsOf i) stage.ahead)) := by
  have htaken : i ∈ r.turns := hturns ▸ List.mem_append_right _ (List.mem_cons_self ..)
  obtain ⟨l, stage, hi⟩ := h.exists_invocation htaken
  have hlawful := h.lawful i _ hi
  refine ⟨l, stage, hi, ?_⟩
  have hlast (hholds : r.holder = some i) : later = [] := by
    obtain ⟨before, hbefore⟩ := h.latest i hholds
    have honce := h.once
    rw [hturns] at hbefore honce
    rcases append_cons_eq_append hbefore.symm with ⟨tail, rfl⟩ | ⟨rest, hrest, hnil⟩
    · -- it would have taken the lock twice
      obtain rfl : later = tail ++ [i] := by simpa using hbefore
      exact absurd (by simp) (List.nodup_cons.mp (List.nodup_append.mp honce).2.1).1
    · cases rest with
      | nil => exact (List.cons.inj hnil).2.symm
      | cons _ rest => simp at hnil
  match stage with
  | .waiting p => exact absurd htaken (hlawful.waits p rfl)
  | .running p =>
      have hholds := hlawful.holds_iff.mp rfl
      exact .inr ⟨hlast hholds, hholds, hlawful.follows⟩
  | .calling c next =>
      have hholds := hlawful.holds_iff.mp rfl
      exact .inr ⟨hlast hholds, hholds, hlawful.follows⟩
  | .returned report => exact .inl ⟨report, rfl, hlawful.follows⟩

theorem Inv.listed (h : r.Inv) (hfaithful : r.Faithful env t s) {earlier later : List Nat} {i : Nat}
    {l : Launch} {stage : Stage ν ρ} {e : RunStep ν ρ σ} {rest : List (RunStep ν ρ σ)}
    (hturns : r.turns = earlier ++ i :: later) (hi : r.invocations[i]? = some ⟨l, stage⟩)
    (he : r.callsOf i = e :: rest) :
    ∃ listing after, e = ⟨.list l.settings.provider l.mode.isInstant, listing, after⟩ ∧
      ∀ clients, listing = .ok clients → clients =
        (applied (earlier.flatMap r.callsOf) t).list l.settings.provider l.mode.isInstant := by
  have hlawful := h.lawful i _ hi
  obtain ⟨next, hprogram⟩ := hlawful.busy (.inl (hturns ▸ List.mem_append_right _
    (List.mem_cons_self ..)))
  have hfollows := hlawful.follows
  rw [hprogram, he] at hfollows
  obtain ⟨listing, after, rfl⟩ := hfollows.head
  refine ⟨listing, after, rfl, ?_⟩
  rintro clients rfl
  -- the calls before this one are those of the turns before
  have hcalls := h.calls_eq
  simp only [hturns, List.flatMap_append, List.flatMap_cons, he, List.map_cons,
    List.cons_append] at hcalls
  rw [hfaithful.listed _ _ _ _ _ _ _ hcalls]
  simp [List.map_flatMap, Function.comp_def]

theorem Inv.turnedAway (h : r.Inv) {i : Nat} {l : Launch} {stage : Stage ν ρ}
    (hi : r.invocations[i]? = some ⟨l, stage⟩) (htrigger : l.trigger = .schedule)
    (hoff : l.settings.enabled = false) :
    stage = .returned (.disabled (Entity.job ρ) l.mode l.settings.provider) ∧
      i ∉ r.turns ∧ r.callsOf i = [] := by
  have hlawful := h.lawful i _ hi
  have hprogram : l.program ρ =
      .done (.disabled (Entity.job ρ) l.mode l.settings.provider) := if_pos ⟨htrigger, hoff⟩
  have hidle : ¬(i ∈ r.turns ∨ ∃ p, stage = .waiting p) := fun hbusy => by
    obtain ⟨next, hcall⟩ := hlawful.busy hbusy
    rw [hprogram] at hcall
    cases hcall
  have hturns : i ∉ r.turns := fun htaken => hidle (.inl htaken)
  have hcalls := h.callsOf_eq_nil hturns
  refine ⟨?_, hturns, hcalls⟩
  have hnot : ¬stage.holdsLock = true := fun hholds =>
    hturns (h.mem_turns (hlawful.holds_iff.mp hholds))
  have hfollows := hlawful.follows
  rw [hprogram, hcalls] at hfollows
  match stage with
  | .waiting p => exact absurd (.inr ⟨p, rfl⟩) hidle
  | .running _ | .calling _ _ => exact absurd rfl hnot
  | .returned report =>
      generalize hahead : (Stage.returned report : Stage ν ρ).ahead = ahead at hfollows
      cases hfollows
      rw [← Program.done.inj hahead]

theorem Inv.serial (h : r.Inv) (hfaithful : r.Faithful env t s) {launches : List Launch}
    (hlaunches : r.invocations.map Invocation.launch = launches) : r.Serial env launches t s where
  started := hlaunches
  once := h.once
  calls_eq := h.calls_eq
  unbroken _ _ _ _ _ _ hcalls := fst_eq_of_between h.once (h.calls_eq.symm.trans hcalls)
  whole _ _ _ := h.whole
  alone i _ _ _ hi := (h.lawful i _ hi).holds_iff.mp rfl
  listed _ _ _ _ _ _ _ := h.listed hfaithful
  turnedAway _ _ _ := h.turnedAway
  table_eq := hfaithful.table_eq
  goesOn _ _ hi hinv := h.goesOn hi hinv env.answer s

end

end RunLock

end DepositSync
