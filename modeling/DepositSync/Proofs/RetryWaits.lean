import DepositSync.Proofs.Retries

/-!
# DepositSync.Proofs.RetryWaits

How long the waits between the tries of a request are. They double up to a limit and stay there.
What carries this is that the factor of a wait depends on the counter of attempts alone and grows
with it (`factor_le_factor`), through the powers of two and on to the largest number of the counter.

The counter has few bits, so it begins anew after many attempts, and then the waits begin anew as
well (`delay_add_cycle`). Within one round of the counter no wait is shorter than one before it; over
its end the waits shrink, unless all of them are the same (`Flat`).
-/

namespace DepositSync

namespace Backoff

/-- How many attempts the counter tells apart. -/
def cycle : Nat := Width.count counterBits

variable {b : Backoff} {i j : Nat}

/-! ### The factor of a wait -/

theorem factor_of_lt (h : i % cycle < counterBits) : factor i = Nat.pow 2 (i % cycle) :=
  if_pos h

theorem factor_of_le (h : counterBits ≤ i % cycle) : factor i = cycle - 1 :=
  if_neg (Nat.not_lt.mpr h)

theorem factor_lt_cycle (i : Nat) : factor i < cycle := by
  rcases Nat.lt_or_ge (i % cycle) counterBits with h | h
  · rw [factor_of_lt h]
    exact Nat.pow_lt_pow_right (by decide) h
  · rw [factor_of_le h]
    decide

/-- The factor grows with the counter. -/
theorem factor_le_factor (h : i % cycle ≤ j % cycle) : factor i ≤ factor j := by
  rcases Nat.lt_or_ge (j % cycle) counterBits with hj | hj
  · rw [factor_of_lt hj, factor_of_lt (Nat.lt_of_le_of_lt h hj)]
    exact Nat.pow_le_pow_right (by decide) h
  · rw [factor_of_le hj]
    exact Nat.le_pred_of_lt (factor_lt_cycle i)

theorem factor_add_cycle (i : Nat) : factor (i + cycle) = factor i := by
  have hmod : (i + cycle) % Width.count counterBits = i % Width.count counterBits :=
    Nat.add_mod_right i cycle
  simp only [factor, hmod]

theorem factor_zero : factor 0 = 1 := by decide

/-- The last attempt of a round has the largest factor. -/
theorem factor_last : factor (cycle - 1) = cycle - 1 := by decide

/-! ### Waits -/

theorem nanos_delay (b : Backoff) (i : Nat) :
    (b.delay i).nanos =
      min (min (b.baseDelay.nanos * factor i) Time.Span.longest.nanos) b.maxDelay.nanos := rfl

theorem delay_le_delay (b : Backoff) (h : i % cycle ≤ j % cycle) :
    (b.delay i).nanos ≤ (b.delay j).nanos := by
  have hscaled : b.baseDelay.nanos * factor i ≤ b.baseDelay.nanos * factor j :=
    Nat.mul_le_mul_left _ (factor_le_factor h)
  simp only [nanos_delay]
  omega

theorem delay_add_cycle (b : Backoff) (i : Nat) : b.delay (i + cycle) = b.delay i := by
  simp only [delay, factor_add_cycle]

/-- Two attempts lie in the same round of the counter. -/
def SameRound (i j : Nat) : Prop := i / cycle = j / cycle

instance (i j : Nat) : Decidable (SameRound i j) := inferInstanceAs (Decidable (_ = _))

theorem SameRound.mod_le_mod (h : SameRound i j) (hij : i ≤ j) : i % cycle ≤ j % cycle := by
  have hi := Nat.div_add_mod i cycle
  have hj := Nat.div_add_mod j cycle
  rw [h] at hi
  omega

theorem sameRound_of_lt (hi : i < cycle) (hj : j < cycle) : SameRound i j := by
  rw [SameRound, Nat.div_eq_of_lt hi, Nat.div_eq_of_lt hj]

/-- All waits are the same: there are none, or the first one is as long as a wait may be. -/
def Flat (b : Backoff) : Prop :=
  b.baseDelay.nanos = 0 ∨ min b.maxDelay.nanos Time.Span.longest.nanos ≤ b.baseDelay.nanos

theorem Flat.delay_eq (h : b.Flat) (i : Nat) : b.delay i = b.delay 0 := by
  have hfactor : b.baseDelay.nanos * factor 0 ≤ b.baseDelay.nanos * factor i :=
    Nat.mul_le_mul_left _ (factor_le_factor (Nat.zero_le _))
  have heq : (b.delay i).nanos = (b.delay 0).nanos := by
    rw [factor_zero, Nat.mul_one] at hfactor
    simp only [nanos_delay, factor_zero, Nat.mul_one]
    rcases h with hzero | hfull
    · simp [hzero]
    · omega
  exact congrArg Time.Span.mk heq

/-- Where not all waits are the same, the first one of a round is shorter than the last one of the
round before. -/
theorem delay_cycle_lt (h : ¬b.Flat) : (b.delay cycle).nanos < (b.delay (cycle - 1)).nanos := by
  rw [Flat, not_or, Nat.not_le] at h
  have hgrows : b.baseDelay.nanos < b.baseDelay.nanos * (cycle - 1) :=
    (Nat.lt_mul_iff_one_lt_right (Nat.pos_of_ne_zero h.1)).mpr (by decide)
  rw [← Nat.zero_add cycle, delay_add_cycle, Nat.zero_add]
  simp only [nanos_delay, factor_zero, factor_last, Nat.mul_one]
  omega

end Backoff

/-! ### The waits of a request -/

/-- The waits among the steps of a use of the client, in their order. -/
def waits {σ : Type} (steps : List (ClientStep σ)) : List Time.Span :=
  steps.filterMap fun e => match e.call with
    | .pause length => some length
    | _ => none

theorem waits_eq_of_calls {σ : Type} {b : Backoff} {r : Http.Request} {k : Nat}
    {steps : List (ClientStep σ)}
    (h : steps.map Step.call =
      (List.range k).flatMap (fun i => [.send r, .pause (b.delay i)]) ++ [.send r]) :
    waits steps = (List.range k).map b.delay := by
  have hwaits : waits steps = (steps.map Step.call).filterMap fun
      | .pause length => some length
      | _ => none := by
    rw [List.filterMap_map]
    rfl
  rw [hwaits, h, List.filterMap_append, List.filterMap_flatMap, List.map_eq_flatMap]
  simp

/-- No wait is shorter than one before it. -/
def NeverShrinks (spans : List Time.Span) : Prop :=
  spans.Pairwise fun a c => a.nanos ≤ c.nanos

open Backoff

theorem neverShrinks_delays_iff {b : Backoff} {k : Nat} :
    NeverShrinks ((List.range k).map b.delay) ↔ k ≤ cycle ∨ b.Flat := by
  rw [NeverShrinks, List.pairwise_map]
  constructor
  · intro hsorted
    rw [Classical.or_iff_not_imp_right, ← Nat.not_lt]
    intro hmoves hk
    have hpair := List.pairwise_iff_getElem.mp hsorted (cycle - 1) cycle
    simp only [List.length_range, List.getElem_range] at hpair
    have hlast := hpair (Nat.lt_of_le_of_lt (Nat.sub_le cycle 1) hk) hk (by decide)
    exact absurd (delay_cycle_lt hmoves) (Nat.not_lt.mpr hlast)
  · rintro (hk | hflat)
    · refine List.pairwise_lt_range.imp_of_mem ?_
      intro i j hi hj hij
      have hround : SameRound i j :=
        sameRound_of_lt (Nat.lt_of_lt_of_le (List.mem_range.mp hi) hk)
          (Nat.lt_of_lt_of_le (List.mem_range.mp hj) hk)
      exact delay_le_delay b (hround.mod_le_mod (Nat.le_of_lt hij))
    · refine List.pairwise_lt_range.imp ?_
      intro i j _
      exact Nat.le_of_eq (congrArg Time.Span.nanos ((hflat.delay_eq i).trans (hflat.delay_eq j).symm))

/-! ### How the waits grow -/

/-- **How the waits grow.** No wait is longer than the limit. As long as the counter of attempts does
not begin anew no wait is shorter than one before it, and once the limit is reached each wait is as
long; when the counter begins anew the waits do. So there are attempts of 64 bits over which they
shrink, unless all of them are the same. A request that is sent meets the waits one after the other
until its tries end, and these get shorter exactly if there are more tries than the counter tells
apart. -/
theorem waits_grow_within_round (b : Backoff) :
    (∀ i, (b.delay i).nanos ≤ b.maxDelay.nanos) ∧
    (∀ i j, i ≤ j → SameRound i j → (b.delay i).nanos ≤ (b.delay j).nanos ∧
      (b.delay i = b.maxDelay → b.delay j = b.maxDelay)) ∧
    (∀ i, b.delay (i + cycle) = b.delay i) ∧
    ((∀ i j, i ≤ j → j < Width.count 64 → (b.delay i).nanos ≤ (b.delay j).nanos) ↔ b.Flat) ∧
    ∀ (r : Http.Request) (script : Nat → Http.Outcome) (clock : Time.Moment),
      ∃ k, IsLeast {k | k = b.maxRetries ∨ ¬Transient (script k)} k ∧
        waits ((send b r).trace (scripted script clock) 0) = (List.range k).map b.delay ∧
        (NeverShrinks ((List.range k).map b.delay) ↔ k ≤ cycle ∨ b.Flat) := by
  refine ⟨b.nanos_delay_le, ?_, b.delay_add_cycle, ?_, ?_⟩
  · intro i j hij hround
    have hle := b.delay_le_delay (hround.mod_le_mod hij)
    refine ⟨hle, fun hfull => congrArg Time.Span.mk ?_⟩
    rw [hfull] at hle
    exact Nat.le_antisymm (b.nanos_delay_le j) hle
  · constructor
    · intro hgrow
      by_cases hflat : b.Flat
      · exact hflat
      · have hlast := hgrow (cycle - 1) cycle (Nat.sub_le cycle 1) (by decide)
        exact absurd (delay_cycle_lt hflat) (Nat.not_lt.mpr hlast)
    · intro hflat i j _ _
      exact Nat.le_of_eq (congrArg Time.Span.nanos ((hflat.delay_eq i).trans (hflat.delay_eq j).symm))
  · intro r script clock
    obtain ⟨k, hleast, htries⟩ := exists_tries b r script clock
    have hcalls := htries.calls
    simp only [Nat.zero_add] at hcalls
    exact ⟨k, hleast, waits_eq_of_calls hcalls, neverShrinks_delays_iff⟩

/-- Waits of 100, 200 and then 350 milliseconds. -/
def quickBackoff : Backoff := ⟨5, .ofMillis 100, .ofMillis 350⟩

/-- The third wait is as long as a wait may be, and so is the sixth. -/
theorem waits_grow_within_round_capped :
    2 ≤ 5 ∧ SameRound 2 5 ∧ quickBackoff.delay 2 = quickBackoff.maxDelay ∧
      quickBackoff.delay 5 = quickBackoff.maxDelay := by
  have hfull : quickBackoff.delay 2 = quickBackoff.maxDelay := by decide
  have hgrow := (waits_grow_within_round quickBackoff).2.1 2 5 (by decide) (by decide)
  exact ⟨by decide, by decide, hfull, hgrow.2 hfull⟩

/-- With the usual settings the wait after attempt 4294967295 is as long as a wait may be, and the
next one as short as the first. -/
theorem wait_shrinks :
    VendorSettings.standard.backoff.delay 4294967295 = .ofSeconds 5 ∧
    VendorSettings.standard.backoff.delay 4294967296 = .ofMillis 250 ∧
    ¬∀ (b : Backoff) (i j : Nat), i ≤ j → j < Width.count 64 →
      (b.delay i).nanos ≤ (b.delay j).nanos ∧ (b.delay j).nanos ≤ b.maxDelay.nanos := by
  refine ⟨by decide, by decide, fun hgrow => ?_⟩
  have hle := (hgrow VendorSettings.standard.backoff 4294967295 4294967296 (by decide) (by decide)).1
  exact absurd hle (by decide)

end DepositSync
