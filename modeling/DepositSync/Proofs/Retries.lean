import DepositSync.Proofs.VendorExchange
import Mathlib.Order.Bounds.Defs

/-!
# DepositSync.Proofs.Retries

How often a request is sent. The outcomes that the requests meet are given beforehand, without end
(`scripted`); what is shown is which of them are used up, and what is done in between.

The requests are sent one by one, the same each time, until an outcome is not worth another try or
the retries are used up. One try is put in front of the tries that follow it
(`sendFrom_of_transient`), and that is how the least index comes about at which the tries end
(`isLeast_succ`): the retries that are left count down while the attempts, on which the waits
depend, count up.
-/

namespace DepositSync

open Http (Request Response Outcome)

/-! ### Outcomes -/

/-- Is it worth sending the request again? It is if there was no connection in time, if the answer
says that there were too many requests, and if it says that the server failed. -/
def Transient : Outcome → Prop
  | .ok answer => answer.status = 429 ∨ (500 ≤ answer.status ∧ answer.status ≤ 599)
  | .error failure => failure = .unreachable

theorem isWorthRetrying_iff {outcome : Outcome} :
    isWorthRetrying outcome = true ↔ Transient outcome := by
  match outcome with
  | .ok answer =>
      simp only [isWorthRetrying, isRetryable, Transient, Bool.or_eq_true, Bool.and_eq_true,
        decide_eq_true_eq, beq_iff_eq]
      exact or_comm
  | .error .unreachable => simp [isWorthRetrying, Transient]
  | .error .interrupted => simp [isWorthRetrying, Transient]

/-- A world in which the requests meet given outcomes, one after the other. It counts those that are
used up; the clock stands still. -/
def scripted (outcomes : Nat → Outcome) (clock : Time.Moment) :
    (c : ClientCall) → Nat → c.Answer × Nat
  | .now, used => (clock, used)
  | .send _, used => (outcomes used, used + 1)
  | .pause _, used => ((), used)

/-! ### One try after the other -/

section

variable (b : Backoff) (r : Request) (script : Nat → Outcome) (clock : Time.Moment)

/-- The tries from an attempt on, which end at the `k`-th of the outcomes that are left. -/
structure TriesFrom (attempt used k : Nat) (p : Exchange Outcome) : Prop where
  /-- Each try but the last is followed by the wait of its attempt. -/
  calls : (p.trace (scripted script clock) used).map Step.call =
    (List.range k).flatMap (fun i => [.send r, .pause (b.delay (attempt + i))]) ++ [.send r]
  outcomes : outcomes (p.trace (scripted script clock) used) =
    (List.range (k + 1)).map fun i => script (used + i)
  /-- The last outcome is the result, and none is used up beyond it. -/
  run : p.run (scripted script clock) used = (script (used + k), used + k + 1)

/-- An outcome that is not worth another try is the last one. -/
theorem sendFrom_of_settled (retries attempt used : Nat)
    (h : retries = 0 ∨ ¬Transient (script used)) :
    TriesFrom b r script clock attempt used 0 (sendFrom b r retries attempt) := by
  cases retries with
  | zero => exact ⟨rfl, rfl, rfl⟩
  | succ retries =>
      have hdone : isWorthRetrying (script used) = false := by
        rw [← Bool.not_eq_true, isWorthRetrying_iff]
        exact h.resolve_left (Nat.succ_ne_zero retries)
      constructor <;> simp [sendFrom, scripted, hdone]

/-- After one that is, the request is sent again behind a wait, if there are retries left. -/
theorem sendFrom_of_transient {retries attempt used k : Nat} (h : Transient (script used))
    (hrest : TriesFrom b r script clock (attempt + 1) (used + 1) k
      (sendFrom b r retries (attempt + 1))) :
    TriesFrom b r script clock attempt used (k + 1) (sendFrom b r (retries + 1) attempt) := by
  have hretry : isWorthRetrying (script used) = true := isWorthRetrying_iff.mpr h
  have hattempt (i : Nat) : attempt + 1 + i = attempt + (i + 1) := by omega
  have hused (i : Nat) : used + 1 + i = used + (i + 1) := by omega
  obtain ⟨hcalls, houtcomes, hrun⟩ := hrest
  constructor
  · simp only [sendFrom, Program.trace_call, scripted, hretry, if_true, List.map_cons, hcalls]
    rw [List.range_succ_eq_map, List.flatMap_cons, List.flatMap_map]
    simp only [hattempt]
    rfl
  · simp only [sendFrom, Program.trace_call, scripted, hretry, if_true, outcomes_send,
      outcomes_pause, houtcomes]
    rw [List.range_succ_eq_map (n := k + 1), List.map_cons, List.map_map]
    simp only [hused]
    rfl
  · simp only [sendFrom, Program.run_call, scripted, hretry, if_true, hrun, hused]

/-- Where an outcome does not end the tries, they end one later than those that follow it. -/
theorem isLeast_succ {retries used k : Nat} (h : Transient (script used))
    (hrest : IsLeast {k | k = retries ∨ ¬Transient (script (used + 1 + k))} k) :
    IsLeast {k | k = retries + 1 ∨ ¬Transient (script (used + k))} (k + 1) := by
  have hused (i : Nat) : used + 1 + i = used + (i + 1) := by omega
  simp only [hused] at hrest
  refine ⟨hrest.1.imp_left (congrArg (· + 1)), ?_⟩
  rintro (_ | i) hi
  · exact absurd h (hi.resolve_left (Nat.succ_ne_zero retries).symm)
  · exact Nat.succ_le_succ (hrest.2 (hi.imp_left Nat.succ.inj))

theorem exists_triesFrom (retries attempt used : Nat) :
    ∃ k, IsLeast {k | k = retries ∨ ¬Transient (script (used + k))} k ∧
      TriesFrom b r script clock attempt used k (sendFrom b r retries attempt) := by
  induction retries generalizing attempt used with
  | zero =>
      exact ⟨0, ⟨.inl rfl, fun i _ => Nat.zero_le i⟩,
        sendFrom_of_settled b r script clock 0 attempt used (.inl rfl)⟩
  | succ retries ih =>
      by_cases h : Transient (script used)
      · obtain ⟨k, hleast, htries⟩ := ih (attempt + 1) (used + 1)
        exact ⟨k + 1, isLeast_succ script h hleast,
          sendFrom_of_transient b r script clock h htries⟩
      · exact ⟨0, ⟨.inr h, fun i _ => Nat.zero_le i⟩,
          sendFrom_of_settled b r script clock _ attempt used (.inr h)⟩

/-- The tries of a request, from the first one on. -/
theorem exists_tries :
    ∃ j, IsLeast {j | j = b.maxRetries ∨ ¬Transient (script j)} j ∧
      TriesFrom b r script clock 0 0 j (send b r) := by
  obtain ⟨j, hleast, htries⟩ := exists_triesFrom b r script clock b.maxRetries 0 0
  simp only [Nat.zero_add] at hleast
  exact ⟨j, hleast, htries⟩

end

/-! ### Sending -/

/-- **How often a request is sent.** Whatever outcomes the requests meet: the tries end at the first
outcome that is not worth another one, and at the latest when all retries are used up. If `j`
outcomes come before it, the same request is sent `j + 1` times; after each time but the last the
wait is that of the attempt; the last outcome is the result, whatever it is, and none is used up
beyond it. Where something is asked for, an answer is read as it came, and that there was none is a
failure of transport. -/
theorem send_ends_at_first_settled (r : Request) (script : Nat → Outcome) (clock : Time.Moment) :
    (∀ b : Backoff, ∃ j, IsLeast {j | j = b.maxRetries ∨ ¬Transient (script j)} j ∧
      ((send b r).trace (scripted script clock) 0).map Step.call =
        (List.range j).flatMap (fun i => [.send r, .pause (b.delay i)]) ++ [.send r] ∧
      outcomes ((send b r).trace (scripted script clock) 0) = (List.range (j + 1)).map script ∧
      (send b r).run (scripted script clock) 0 = (script j, j + 1)) ∧
    ∀ (α : Type) (settings : VendorSettings) (read : Json.Tree → Except Json.ReadError α),
      ∃ j, IsLeast {j | j = settings.maxRetries ∨ ¬Transient (script j)} j ∧
        (ask settings read (some r)).trace (scripted script clock) 0 =
          (send settings.backoff r).trace (scripted script clock) 0 ∧
        (ask settings read (some r)).run (scripted script clock) 0 =
          (match script j with
            | .ok answer => readAnswer read answer
            | .error _ => .error (.transport (.notAnswered r.url.text)), j + 1) := by
  constructor
  · intro b
    obtain ⟨j, hleast, hcalls, houtcomes, hrun⟩ := exists_tries b r script clock
    simp only [Nat.zero_add] at hcalls houtcomes hrun
    exact ⟨j, hleast, hcalls, houtcomes, hrun⟩
  · intro α settings read
    obtain ⟨j, hleast, -, -, hrun⟩ := exists_tries settings.backoff r script clock
    simp only [Nat.zero_add] at hrun
    refine ⟨j, hleast, ?_, ?_⟩
    · simp [ask, Program.trace_bind]
    · simp only [ask, Program.run_bind, Program.run_done, hrun]
      cases script j <;> rfl

end DepositSync
