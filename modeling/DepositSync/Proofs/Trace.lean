import DepositSync.Program

/-!
# DepositSync.Proofs.Trace

The trace of a run: the calls that a program made, each with its answer and the state it left.
What holds of every state on the way is read off the trace, call by call (`trace_invariant`).

A program can be held to stop at its first failing call (`Program.untilFailure`). Its trace is then
the trace of the program that goes on regardless, up to and including the first failure
(`trace_untilFailure`), and it has a result exactly if nothing failed (`isSome_run_untilFailure`).
-/

namespace DepositSync

/-- A call of a run, its answer, and the state it left. -/
structure Step (C : Type) (A : C → Type) (σ : Type) where
  call : C
  answer : A call
  after : σ

/-- Does the answer count as a failure? -/
def Step.failed {C : Type} {A : C → Type} {σ : Type} (fails : (c : C) → A c → Bool)
    (e : Step C A σ) : Bool :=
  fails e.call e.answer

/-- The items up to the first one with the property, which is still among them. -/
def throughFirst {α : Type} (p : α → Bool) : List α → List α
  | [] => []
  | a :: rest => if p a then [a] else a :: throughFirst p rest

theorem throughFirst_isPrefix {α : Type} (p : α → Bool) (l : List α) : throughFirst p l <+: l := by
  induction l with
  | nil => exact List.prefix_refl []
  | cons a rest ih =>
      unfold throughFirst
      split
      · exact ⟨rest, rfl⟩
      · exact (List.prefix_cons_inj a).mpr ih

@[simp] theorem throughFirst_singleton {α : Type} (p : α → Bool) (a : α) :
    throughFirst p [a] = [a] := by
  unfold throughFirst
  split <;> rfl

/-- A part with such an item is where the cut is made. -/
theorem throughFirst_append_of_any {α : Type} {p : α → Bool} {l : List α} (h : l.any p = true)
    (l' : List α) : throughFirst p (l ++ l') = throughFirst p l := by
  induction l with
  | nil => simp at h
  | cons a rest ih =>
      rw [List.cons_append, throughFirst, throughFirst]
      split
      · rfl
      · next ha => rw [ih (by simpa [ha] using h)]

/-- A part without such an item is not cut. -/
theorem throughFirst_append_of_not_any {α : Type} {p : α → Bool} {l : List α}
    (h : l.any p = false) (l' : List α) :
    throughFirst p (l ++ l') = l ++ throughFirst p l' := by
  induction l with
  | nil => rfl
  | cons a rest ih =>
      rw [List.any_cons, Bool.or_eq_false_iff] at h
      rw [List.cons_append, throughFirst, if_neg (by simp [h.1]), ih h.2, List.cons_append]

/-- Where there is such an item, the cut is made right behind the first one. -/
theorem exists_throughFirst {α : Type} {p : α → Bool} {l : List α} (h : l.any p = true) :
    ∃ before a later, l = before ++ a :: later ∧ throughFirst p l = before ++ [a] ∧
      before.any p = false ∧ p a = true := by
  induction l with
  | nil => simp at h
  | cons a rest ih =>
      unfold throughFirst
      by_cases ha : p a = true
      · exact ⟨[], a, rest, rfl, if_pos ha, rfl, ha⟩
      · obtain ⟨before, b, later, hrest, hcut, hbefore, hb⟩ := ih (by simpa [ha] using h)
        refine ⟨a :: before, b, later, by rw [hrest]; rfl, ?_, by simp [ha, hbefore], hb⟩
        rw [if_neg ha, hcut]
        rfl

/-- Before an item that is not cut off there is no such item. -/
theorem not_any_of_throughFirst {α : Type} {p : α → Bool} {l before later : List α} {a : α}
    (h : throughFirst p l = before ++ a :: later) : before.any p = false := by
  induction l generalizing before with
  | nil => simp [throughFirst] at h
  | cons b rest ih =>
      unfold throughFirst at h
      cases before with
      | nil => rfl
      | cons first before =>
          split at h
          · simp at h
          · next hb =>
            obtain ⟨rfl, hrest⟩ := List.cons.inj h
            rw [List.any_cons, ih hrest, Bool.or_false]
            exact Bool.eq_false_iff.mpr hb

/-- An item of two lists put together is in the first one or in the second one. -/
theorem append_cons_eq_append {α : Type} {before later l l' : List α} {a : α}
    (h : l ++ l' = before ++ a :: later) :
    (∃ tail, l = before ++ a :: tail) ∨
      ∃ rest, before = l ++ rest ∧ l' = rest ++ a :: later := by
  rcases List.append_eq_append_iff.mp h with ⟨rest, hbefore, hl'⟩ | ⟨rest, hl, hrest⟩
  · exact .inr ⟨rest, hbefore, hl'⟩
  · cases rest with
    | nil => exact .inr ⟨[], by simpa using hl.symm, by simpa using hrest.symm⟩
    | cons b tail =>
        obtain ⟨rfl, -⟩ := List.cons.inj hrest
        exact .inl ⟨tail, hl⟩

namespace Program

variable {C : Type} {A : C → Type} {α β σ : Type}

/-! ### Results -/

/-- Does something with the result. -/
def map (f : α → β) (p : Program C A α) : Program C A β :=
  p.bind fun a => done (f a)

@[simp] theorem map_call (f : α → β) (c : C) (next : A c → Program C A α) :
    (call c next).map f = call c fun answer => (next answer).map f := rfl

theorem run_map (handle : (c : C) → σ → A c × σ) (f : α → β) (p : Program C A α) (s : σ) :
    (p.map f).run handle s = (f (p.run handle s).1, (p.run handle s).2) := by
  rw [map, run_bind, run_done]

/-! ### Traces -/

/-- The steps of a run, in their order. -/
def trace (handle : (c : C) → σ → A c × σ) : Program C A α → σ → List (Step C A σ)
  | done _, _ => []
  | call c next, s =>
    let (answer, after) := handle c s
    ⟨c, answer, after⟩ :: (next answer).trace handle after

variable (handle : (c : C) → σ → A c × σ)

@[simp] theorem trace_done (a : α) (s : σ) : (done a : Program C A α).trace handle s = [] := rfl

@[simp] theorem trace_call (c : C) (next : A c → Program C A α) (s : σ) :
    (call c next).trace handle s =
      ⟨c, (handle c s).1, (handle c s).2⟩ ::
        (next (handle c s).1).trace handle (handle c s).2 := rfl

/-- The trace of a sequence is the traces of its parts, one after the other. -/
theorem trace_bind (p : Program C A α) (f : α → Program C A β) (s : σ) :
    (p.bind f).trace handle s =
      p.trace handle s ++ (f (p.run handle s).1).trace handle (p.run handle s).2 := by
  induction p generalizing s with
  | done a => rfl
  | call c next ih => simp [ih]

@[simp] theorem trace_map (f : α → β) (p : Program C A α) (s : σ) :
    (p.map f).trace handle s = p.trace handle s := by
  simp [map, trace_bind]

/-- What holds at the start and is preserved by every call that the run makes held wherever one of
its calls was answered. -/
theorem exists_of_mem_trace {I : σ → Prop} {p : Program C A α} {s : σ} (hs : I s)
    (hstep : ∀ e ∈ p.trace handle s, ∀ s', I s' → I (handle e.call s').2) {e : Step C A σ}
    (he : e ∈ p.trace handle s) :
    ∃ s', I s' ∧ e.answer = (handle e.call s').1 ∧ e.after = (handle e.call s').2 := by
  induction p generalizing s with
  | done a => simp at he
  | call c next ih =>
      rcases List.mem_cons.mp he with rfl | he
      · exact ⟨s, hs, rfl, rfl⟩
      · exact ih _ (hstep ⟨c, _, _⟩ (List.mem_cons_self ..) s hs)
          (fun e he => hstep e (List.mem_cons_of_mem _ he)) he

/-- What holds at the start and is preserved by every call that the run makes holds after each of
its steps and at its end. -/
theorem trace_invariant (I : σ → Prop) (p : Program C A α) (s : σ) (hs : I s)
    (hstep : ∀ e ∈ p.trace handle s, ∀ s', I s' → I (handle e.call s').2) :
    (∀ e ∈ p.trace handle s, I e.after) ∧ I (p.run handle s).2 := by
  induction p generalizing s with
  | done a => exact ⟨by simp, hs⟩
  | call c next ih =>
      have hc : I (handle c s).2 := hstep ⟨c, _, _⟩ (List.mem_cons_self ..) s hs
      obtain ⟨hall, hend⟩ := ih _ _ hc fun e he => hstep e (List.mem_cons_of_mem _ he)
      refine ⟨fun e he => ?_, hend⟩
      rcases List.mem_cons.mp he with rfl | he
      · exact hc
      · exact hall e he

/-! ### Stopping at the first failure -/

variable (fails : (c : C) → A c → Bool)

/-- The same computation, which stops without a result as soon as a call fails. -/
def untilFailure : Program C A α → Program C A (Option α)
  | done a => done (some a)
  | call c next => call c fun answer =>
    if fails c answer then done none else (next answer).untilFailure

@[simp] theorem untilFailure_call (c : C) (next : A c → Program C A α) :
    (call c next).untilFailure fails = call c fun answer =>
      if fails c answer then done none else (next answer).untilFailure fails := rfl

/-- Stopping at the first failure cuts the trace behind it. -/
theorem trace_untilFailure (p : Program C A α) (s : σ) :
    (p.untilFailure fails).trace handle s =
      throughFirst (Step.failed fails) (p.trace handle s) := by
  induction p generalizing s with
  | done a => rfl
  | call c next ih =>
      simp only [untilFailure_call, trace_call, throughFirst, Step.failed]
      by_cases h : fails c (handle c s).1 = true
      · simp only [h, if_true, trace_done]
      · simp only [h, Bool.false_eq_true, if_false, ih]

/-- There is a result exactly if no call failed. -/
theorem isSome_run_untilFailure (p : Program C A α) (s : σ) :
    ((p.untilFailure fails).run handle s).1.isSome =
      !(p.trace handle s).any (Step.failed fails) := by
  induction p generalizing s with
  | done a => rfl
  | call c next ih =>
      simp only [untilFailure_call, run_call, trace_call, List.any_cons, Step.failed]
      by_cases h : fails c (handle c s).1 = true
      · simp [h]
      · simp only [h, Bool.false_eq_true, if_false, Bool.false_or]
        exact ih _ _

end Program

end DepositSync
