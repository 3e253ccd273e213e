import DepositSync.Program

/-!
# DepositSync.Job.Lane

Runs of one job, one at a time. A run enters the lane and waits until the runs before it have left,
whether they completed or were aborted. The steps of a lane may be interleaved with those of other
lanes in any way; the runs inside one lane never are.
-/

namespace DepositSync

/-- A lane: the run under way, the runs waiting behind it, and the results of those that left. -/
structure Lane (C : Type) (A : C → Type) (α : Type) where
  active : Option (Program C A α)
  waiting : List (Program C A α)
  finished : List α

namespace Lane

variable {C : Type} {A : C → Type} {α σ : Type}

/-- A lane without runs. -/
def idle : Lane C A α := ⟨none, [], []⟩

/-- A run enters the lane. -/
def enter (lane : Lane C A α) (p : Program C A α) : Lane C A α :=
  match lane.active with
  | none => { lane with active := some p }
  | some _ => { lane with waiting := lane.waiting ++ [p] }

/-- One step: the run under way makes its next call, or leaves and lets the next one begin. -/
def step (handle : (c : C) → σ → A c × σ) (lane : Lane C A α) (s : σ) : Lane C A α × σ :=
  match lane.active with
  | none => (lane, s)
  | some (.done a) => (⟨lane.waiting.head?, lane.waiting.tail, lane.finished ++ [a]⟩, s)
  | some (.call c next) =>
    let (answer, s) := handle c s
    ({ lane with active := some (next answer) }, s)

/-- The runs that have not left, in the order in which they will. -/
def pending (lane : Lane C A α) : List (Program C A α) :=
  lane.active.toList ++ lane.waiting

/-- Runs programs one after another. -/
def runAll (handle : (c : C) → σ → A c × σ) : List (Program C A α) → σ → List α × σ
  | [], s => ([], s)
  | p :: rest, s =>
    let (a, s) := p.run handle s
    let (results, s) := runAll handle rest s
    (a :: results, s)

/-- Lets all runs finish: their results, in the order in which they entered. -/
def settle (handle : (c : C) → σ → A c × σ) (lane : Lane C A α) (s : σ) : List α × σ :=
  let (results, s) := runAll handle lane.pending s
  (lane.finished ++ results, s)

/-- Taking a step first does not change how things end, as long as a waiting run does not wait for
nobody. -/
theorem settle_step (handle : (c : C) → σ → A c × σ) (lane : Lane C A α) (s : σ)
    (h : lane.active = none → lane.waiting = []) :
    (lane.step handle s).1.settle handle (lane.step handle s).2 = lane.settle handle s := by
  obtain ⟨active, waiting, finished⟩ := lane
  match active with
  | none => simp [step]
  | some (.done a) =>
      cases waiting <;> simp [step, settle, pending, runAll]
  | some (.call c next) => simp [step, settle, pending, runAll]

end Lane

end DepositSync
