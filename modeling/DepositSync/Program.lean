/-!
# DepositSync.Program

Computations that make calls to the world outside and go on with the answers. Such a computation is
a tree: a call with one branch for every answer, or a result. What the calls do is not part of the
tree; running it with different handlers gives the same work a database, a log, or a script of
failures.
-/

namespace DepositSync

/-- A computation with calls `C`, each answered by an `A c`, and a result. -/
inductive Program (C : Type) (A : C → Type) (α : Type) where
  /-- The result. -/
  | done (a : α)
  /-- A call, and what comes after its answer. -/
  | call (c : C) (next : A c → Program C A α)

namespace Program

variable {C : Type} {A : C → Type} {α β γ : Type}

/-- Goes on with another computation. -/
def bind : Program C A α → (α → Program C A β) → Program C A β
  | done a, f => f a
  | call c next, f => call c fun answer => (next answer).bind f

instance : Monad (Program C A) where
  pure := done
  bind := bind

/-- A single call. -/
def perform (c : C) : Program C A (A c) :=
  call c done

/-- Runs the computation in a monad whose actions answer the calls. -/
def runM {m : Type → Type} [Monad m] (handle : (c : C) → m (A c)) : Program C A α → m α
  | done a => pure a
  | call c next => do (next (← handle c)).runM handle

/-- Runs the computation on a state; a handler answers each call and changes the state. -/
def run {σ : Type} (handle : (c : C) → σ → A c × σ) : Program C A α → σ → α × σ
  | done a, s => (a, s)
  | call c next, s =>
    let (answer, s) := handle c s
    (next answer).run handle s

@[simp] theorem bind_done (a : α) (f : α → Program C A β) : (done a).bind f = f a := rfl

@[simp] theorem bind_call (c : C) (next : A c → Program C A α) (f : α → Program C A β) :
    (call c next).bind f = call c fun answer => (next answer).bind f := rfl

@[simp] theorem pure_eq (a : α) : (pure a : Program C A α) = done a := rfl

@[simp] theorem bind_eq (p : Program C A α) (f : α → Program C A β) : p >>= f = p.bind f := rfl

theorem bind_assoc (p : Program C A α) (f : α → Program C A β) (g : β → Program C A γ) :
    (p.bind f).bind g = p.bind fun a => (f a).bind g := by
  induction p with
  | done a => rfl
  | call c next ih => simp [ih]

@[simp] theorem run_done {σ : Type} (handle : (c : C) → σ → A c × σ) (a : α) (s : σ) :
    (done a).run handle s = (a, s) := rfl

@[simp] theorem run_call {σ : Type} (handle : (c : C) → σ → A c × σ) (c : C)
    (next : A c → Program C A α) (s : σ) :
    (call c next).run handle s = (next (handle c s).1).run handle (handle c s).2 := rfl

/-- Running a sequence is running its parts one after the other. -/
theorem run_bind {σ : Type} (handle : (c : C) → σ → A c × σ) (p : Program C A α)
    (f : α → Program C A β) (s : σ) :
    (p.bind f).run handle s = (f (p.run handle s).1).run handle (p.run handle s).2 := by
  induction p generalizing s with
  | done a => rfl
  | call c next ih => simp [ih]

end Program

end DepositSync
