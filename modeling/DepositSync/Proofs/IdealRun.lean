import DepositSync.Job.Reconciliation
import DepositSync.Proofs.Groups
import DepositSync.Proofs.Laws
import DepositSync.Proofs.Trace

/-!
# DepositSync.Proofs.IdealRun

What a run of a job would do in a world where nothing goes wrong: list the clients, ask the vendor
about each client of a batch and write the batch, batch after batch, and finish with one last call.
The ideal run knows no buffer and looks at no failure.

A run does the same, up to and including its first failing call, and is complete exactly if no call
fails. The two are equal as trees of calls (`execute_refines`), so this holds whatever answers the
calls. The proof goes through the clients one by one; what carries it is that the buffer holds the
rows of the clients of the present batch that were already asked about (`resume`).
-/

namespace DepositSync

open Sql (grouped)

variable {ν ρ σ : Type}

/-! ### Failing calls -/

/-- Is the answer a failure that ends a run? That the vendor rejects a client is none. -/
def Call.fails : (c : Call ν ρ) → c.Answer → Bool
  | .list _ _, .error _ => true
  | .fetch _, .error e => e.abortsRun
  | .upsert _, .error _ => true
  | .mark _ _, .error _ => true
  | .delete, .error _ => true
  | _, _ => false

/-! ### The ideal run -/

namespace Ideal

/-- Writes a batch and goes on. -/
def write (rows : List ρ) (next : Program (Call ν ρ) Call.Answer Unit) :
    Program (Call ν ρ) Call.Answer Unit :=
  .call (.upsert rows) fun _ => next

/-- The last call of a run. -/
def lastCall (mode : RefreshMode) (provider : String) (clients : List String) : Call ν ρ :=
  match mode with
  | .instant => .mark provider clients
  | .scheduled => .delete

/-- Finishes. -/
def finish (mode : RefreshMode) (provider : String) (clients : List String) :
    Program (Call ν ρ) Call.Answer Unit :=
  .call (lastCall mode provider clients) fun _ => .done ()

variable [Entity ν ρ]

/-- Asks the vendor about clients; their rows. -/
def fetchAll (provider : String) : List String → Program (Call ν ρ) Call.Answer (List ρ)
  | [] => .done []
  | client :: rest => .call (.fetch client) fun answer =>
    (fetchAll provider rest).map (Entity.ofAnswer provider (client, answer) :: ·)

/-- Asks about the clients of each batch, and writes it. -/
def writeAll (provider : String) : List (List String) → Program (Call ν ρ) Call.Answer Unit
  | [] => .done ()
  | batch :: rest => (fetchAll provider batch).bind fun rows => write rows (writeAll provider rest)

/-- Asks about the clients in batches of this size, writes them, and does what is last. -/
def cover (provider : String) (size : Nat) (last : Program (Call ν ρ) Call.Answer Unit)
    (clients : List String) : Program (Call ν ρ) Call.Answer Unit :=
  (writeAll provider (grouped size clients)).bind fun _ => last

/-- The ideal run. Where the listing fails there are no clients. -/
def run (provider : String) (batchSize : Nat) (mode : RefreshMode) :
    Program (Call ν ρ) Call.Answer Unit :=
  .call (.list provider mode.isInstant) fun (listing : Except StoreError (List String)) =>
    let clients := listing.toOption.getD []
    cover provider (max batchSize 1) (finish mode provider clients) clients

/-- The ideal run in the middle of a batch: the rows of the batch that are known already, and the
clients that are left. -/
def resume (provider : String) (size : Nat) (last : Program (Call ν ρ) Call.Answer Unit)
    (rows : List ρ) (clients : List String) : Program (Call ν ρ) Call.Answer Unit :=
  (fetchAll provider (clients.take (size - rows.length))).bind fun more =>
    write (rows ++ more) (cover provider size last (clients.drop (size - rows.length)))

variable {provider : String} {size : Nat} {last : Program (Call ν ρ) Call.Answer Unit}

theorem cover_nil : cover provider size last [] = last := by
  simp [cover, writeAll]

theorem cover_eq_resume (hsize : 0 < size) {clients : List String} (h : clients ≠ []) :
    cover provider size last clients = resume provider size last [] clients := by
  rw [cover, grouped_eq_cons hsize h, writeAll, Program.bind_assoc]
  rfl

/-- In a batch that is not full, the next client is asked about. -/
theorem resume_cons {rows : List ρ} (h : rows.length < size) (client : String)
    (rest : List String) :
    resume provider size last rows (client :: rest) =
      .call (.fetch client) fun answer =>
        resume provider size last (rows ++ [Entity.ofAnswer provider (client, answer)]) rest := by
  obtain ⟨n, hn⟩ : ∃ n, size - rows.length = n + 1 := ⟨size - rows.length - 1, by omega⟩
  have hn' : size - (rows.length + 1) = n := by omega
  simp only [resume, hn, List.take_succ_cons, List.drop_succ_cons, fetchAll, Program.bind_call,
    Program.map, Program.bind_assoc, Program.bind_done, List.length_append, List.length_singleton,
    hn', List.append_assoc, List.singleton_append]

/-- A full batch is written. -/
theorem resume_of_le {rows : List ρ} (h : size ≤ rows.length) (clients : List String) :
    resume provider size last rows clients = write rows (cover provider size last clients) := by
  simp [resume, Nat.sub_eq_zero_of_le h, fetchAll]

/-- When no client is left, what there is of the batch is written. -/
theorem resume_nil (rows : List ρ) :
    resume provider size last rows [] = write rows last := by
  simp [resume, fetchAll, cover_nil]

end Ideal

/-! ### A run does what the ideal run does -/

/-- The ideal run, held to stop at its first failing call. Is it complete? -/
def Ideal.held (p : Program (Call ν ρ) Call.Answer Unit) : Program (Call ν ρ) Call.Answer Bool :=
  (p.untilFailure Call.fails).map Option.isSome

theorem Ideal.held_call (c : Call ν ρ) (next : c.Answer → Program (Call ν ρ) Call.Answer Unit) :
    held (.call c next) = .call c fun answer =>
      if c.fails answer then .done false else held (next answer) := by
  simp only [held, Program.untilFailure_call, Program.map_call]
  congr 1
  funext answer
  split <;> rfl

namespace Run

/-- A run, of which only counts whether it is complete. -/
def completion (p : Run ν ρ) : Program (Call ν ρ) Call.Answer Bool :=
  p.map fun ending => ending.2.isNone

theorem completion_flush {last : Program (Call ν ρ) Call.Answer Unit} (batch : List ρ) (t : Tally)
    {next : Tally → Run ν ρ} (hnext : ∀ t, (next t).completion = Ideal.held last) :
    (flush batch t next).completion = Ideal.held (Ideal.write batch last) := by
  rw [Ideal.write, Ideal.held_call, completion, flush, Program.map_call]
  congr 1
  funext answer
  cases answer with
  | ok n => exact hnext _
  | error e => rfl

theorem completion_finish (mode : RefreshMode) (provider : String) (clients : List String)
    (t : Tally) :
    (finish mode provider clients t : Run ν ρ).completion =
      Ideal.held (Ideal.finish mode provider clients) := by
  rw [Ideal.finish, Ideal.held_call]
  cases mode <;>
  · rw [completion, finish, Program.map_call]
    congr 1
    funext answer
    cases answer <;> rfl

/-- A row that is put into the buffer fills the batch, which is then written, or it does not. -/
theorem push_eq (row : ρ) (buffer : BatchBuffer ρ) (t : Tally)
    (next : BatchBuffer ρ → Tally → Run ν ρ) :
    push row buffer t next =
      if buffer.size ≤ buffer.items.length + 1 then
        flush (buffer.items ++ [row]) t (next { buffer with items := [] })
      else next { buffer with items := buffer.items ++ [row] } t := by
  by_cases h : buffer.size ≤ buffer.items.length + 1 <;> simp [push, BatchBuffer.push, h]

variable [Entity ν ρ]

/-- From any client on, with any buffer that is not full: a run does what the ideal run does, which
is in the middle of a batch unless nothing is in the buffer. -/
theorem each_refines {provider : String} {last : Program (Call ν ρ) Call.Answer Unit}
    {finish : Tally → Run ν ρ} (hfinish : ∀ t, (finish t).completion = Ideal.held last)
    (clients : List String) (buffer : BatchBuffer ρ) (t : Tally)
    (hlt : buffer.items.length < buffer.size) :
    (each provider (fun buffer t => flushRemaining buffer t finish) clients buffer t).completion =
      Ideal.held (if buffer.items = [] then Ideal.cover provider buffer.size last clients
        else Ideal.resume provider buffer.size last buffer.items clients) := by
  induction clients generalizing buffer t with
  | nil =>
      rw [each, flushRemaining, BatchBuffer.takeRemaining]
      by_cases hitems : buffer.items = []
      · simp only [hitems, List.isEmpty_nil, if_true, Ideal.cover_nil]
        exact hfinish t
      · simp only [hitems, List.isEmpty_iff, if_false, Ideal.resume_nil]
        exact completion_flush _ t hfinish
  | cons client rest ih =>
      -- with the client's row in it the buffer is full and is written, or the batch goes on
      have hpush (row : ρ) (t : Tally) :
          (push row buffer t
            (each provider (fun buffer t => flushRemaining buffer t finish) rest)).completion =
          Ideal.held (Ideal.resume provider buffer.size last (buffer.items ++ [row]) rest) := by
        rw [push_eq]
        split
        · next hfull =>
          rw [Ideal.resume_of_le (by simpa using hfull)]
          refine completion_flush _ t fun t => ?_
          rw [ih _ t (by simp; omega), if_pos rfl]
        · next hroom =>
          rw [ih _ t (by simpa using hroom), if_neg (by simp)]
      -- as long as there is a client, between two batches is the start of a batch
      have hbatch : (if buffer.items = [] then
            Ideal.cover provider buffer.size last (client :: rest)
          else Ideal.resume provider buffer.size last buffer.items (client :: rest)) =
          Ideal.resume provider buffer.size last buffer.items (client :: rest) := by
        split
        · next hitems =>
          rw [hitems, Ideal.cover_eq_resume (by omega) (List.cons_ne_nil client rest)]
        · rfl
      rw [hbatch, Ideal.resume_cons hlt, Ideal.held_call, completion, each, Program.map_call]
      congr 1
      funext answer
      cases answer with
      | ok report => exact hpush _ t
      | error e =>
          by_cases haborts : e.abortsRun = true
          · simp only [Call.fails, haborts, if_true]
            rfl
          · simp only [Call.fails, haborts, Bool.false_eq_true, if_false]
            exact hpush _ _

/-- A run does what the ideal run does until its first failing call, and it is complete exactly if
there is none. -/
theorem execute_refines (provider : String) (batchSize : Nat) (mode : RefreshMode) :
    (execute provider batchSize mode : Run ν ρ).completion =
      Ideal.held (Ideal.run provider batchSize mode) := by
  rw [Ideal.run, Ideal.held_call, completion, execute, Program.map_call]
  congr 1
  funext answer
  cases answer with
  | error e => rfl
  | ok clients =>
      refine (each_refines (fun t => completion_finish mode provider clients t) clients
        (.empty batchSize) _ ?_).trans ?_
      · show 0 < max batchSize 1
        omega
      · rfl

end Run

end DepositSync
