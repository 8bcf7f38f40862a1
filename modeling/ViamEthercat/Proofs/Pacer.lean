import Mathlib.Order.Bounds.Defs
import Mathlib.Data.List.Chain
import Mathlib.Tactic.Linarith
import Mathlib.Tactic.Ring
import Mathlib.Tactic.Zify
import ViamEthercat.Proofs.PhaseLock

/-!
# `ViamEthercat.Proofs.Pacer`: the catch-up of the pacer

The loop of `advance_to_deadline` adds whole periods, so its deadline stays on the grid of
`next_ + period + corr`. With a fixed clock it stops at the first grid point after `now`
(`step_spec`). A moving clock is outrun as soon as it advances by less than a period a reading
(`outrun`), and the loop then stops on enough fuel.

A period above 50 us makes the lower bound of 1 ns in `advance` idle, because the correction is
at least -50 us.
-/

set_option autoImplicit false

namespace ViamEthercat

open Lib

namespace DcPacer

variable {p : DcPacer} {dcTime : Int}

/-- The correction of the next period. -/
def correction (p : DcPacer) (dcTime : Int) : Int :=
  (dcPhaseCorrection dcTime p.period p.integral p.shift).1

theorem abs_correction_le (p : DcPacer) (dcTime : Int) : |p.correction dcTime| ≤ 50000 :=
  abs_dcPhaseCorrection_le _ _ _ _ (by decide)

@[simp] theorem advance_period : (p.advance dcTime).period = p.period := rfl

@[simp] theorem advance_integral :
    (p.advance dcTime).integral =
      (dcPhaseCorrection dcTime p.period p.integral p.shift).2 := rfl

/-- With a period above the clamp every advance is exactly `period + corr`, and forward. -/
theorem advance_next (hperiod : 50000 < p.period) (dcTime : Int) :
    ((p.advance dcTime).next : Int) = p.next + p.period + p.correction dcTime ∧
      p.next < (p.advance dcTime).next := by
  have hcorr := abs_le.mp (p.abs_correction_le dcTime)
  have hnext : (p.advance dcTime).next =
      p.next + (max (p.period + p.correction dcTime) 1).toNat := rfl
  omega

/-! ## The loop -/

section
variable {period : Nat} {now : Nat → Nat}

/-- What the loop returns: the first deadline of the grid that its reading does not reach. -/
theorem skipMissed_eq_some {fuel i next d : Nat} {skipped n : UInt32}
    (h : skipMissed period now fuel i next skipped = some (d, n)) :
    ∃ k, d = next + k * period ∧ now (i + k) < d ∧ ∀ j < k, next + j * period ≤ now (i + j) := by
  induction fuel generalizing i next skipped with
  | zero => cases h
  | succ fuel ih =>
      rw [skipMissed] at h
      split_ifs at h with hbehind
      · obtain ⟨k, hd, hlt, hpassed⟩ := ih h
        have hshift : ∀ j, i + 1 + j = i + (j + 1) := fun j => by omega
        rw [hshift] at hlt
        refine ⟨k + 1, by rw [hd]; ring, hlt, fun j hj => ?_⟩
        cases j with
        | zero => simpa using hbehind
        | succ j =>
            have hj := hpassed j (Nat.lt_of_succ_lt_succ hj)
            rw [hshift] at hj
            linarith
      · obtain ⟨rfl, rfl⟩ := Prod.mk.injEq .. ▸ Option.some.inj h
        exact ⟨0, by simp, by simpa using hbehind, fun j hj => absurd hj (Nat.not_lt_zero j)⟩

/-- The loop stops when a reading is behind the deadline of its turn, and more fuel changes
nothing. -/
theorem skipMissed_terminates (now : Nat → Nat) (i : Nat) {k next : Nat} (skipped : UInt32)
    (h : now (i + k) < next + k * period) :
    ∃ r, ∀ fuel, k < fuel → skipMissed period now fuel i next skipped = some r := by
  induction k generalizing i next skipped with
  | zero =>
      refine ⟨(next, skipped), fun fuel hfuel => ?_⟩
      obtain ⟨fuel, rfl⟩ := Nat.exists_eq_succ_of_ne_zero hfuel.ne'
      rw [skipMissed, if_neg (by simpa using h)]
  | succ k ih =>
      by_cases hbehind : next ≤ now i
      · obtain ⟨r, hr⟩ := @ih (i + 1) (next + period) (skipped + 1)
          (by rw [Nat.add_right_comm, Nat.add_assoc]; linarith)
        refine ⟨r, fun fuel hfuel => ?_⟩
        obtain ⟨fuel, rfl⟩ := Nat.exists_eq_succ_of_ne_zero (Nat.ne_zero_of_lt hfuel)
        rw [skipMissed, if_pos hbehind]
        exact hr fuel (Nat.lt_of_succ_lt_succ hfuel)
      · refine ⟨(next, skipped), fun fuel hfuel => ?_⟩
        obtain ⟨fuel, rfl⟩ := Nat.exists_eq_succ_of_ne_zero (Nat.ne_zero_of_lt hfuel)
        rw [skipMissed, if_neg hbehind]

/-- A clock that advances by less than a period a reading, from some reading on, is outrun. -/
theorem outrun {N : Nat} (h : ∀ i, N ≤ i → now (i + 1) < now i + period) (next : Nat) :
    ∃ k, now k < next + k * period := by
  have hlag : ∀ m, now (N + m) + m ≤ now N + m * period := by
    intro m
    induction m with
    | zero => simp
    | succ m ih =>
        have hstep := h (N + m) (Nat.le_add_right N m)
        rw [Nat.succ_mul, ← Nat.add_assoc N m 1]
        omega
  refine ⟨N + (now N + 1), ?_⟩
  have hend := hlag (now N + 1)
  rw [Nat.add_mul N]
  omega

end

/-! ## One step -/

/-- The grid of a step: the corrected deadline, and whole periods after it. -/
def grid (p : DcPacer) (dcTime : Int) : Set Int :=
  { d | ∃ k : Nat, d = p.next + p.period + p.correction dcTime + k * p.period }

/-- What a step returns: a pacer at the least deadline of the grid after `now`, later than the one
before, with the integral of the correction. -/
def Paces (p : DcPacer) (input : Int × Nat) : Prop :=
  ∃ q, p.step input.1 input.2 = some q ∧
    IsLeast { d | d ∈ p.grid input.1 ∧ (input.2 : Int) < d } q.next ∧
    p.next < q.next ∧ |p.correction input.1| ≤ 50000 ∧
    q.integral = (dcPhaseCorrection input.1 p.period p.integral p.shift).2 ∧
    q.period = p.period ∧ q.shift = p.shift

theorem step_spec (hperiod : 50000 < p.period) (input : Int × Nat) : p.Paces input := by
  obtain ⟨dcTime, now⟩ := input
  obtain ⟨hnext, hforward⟩ := advance_next hperiod dcTime
  have hreach : now < (p.advance dcTime).next + now * p.period := by
    have := Nat.le_mul_of_pos_right now (Nat.zero_lt_of_lt hperiod)
    omega
  obtain ⟨⟨d, n⟩, hloop⟩ := skipMissed_terminates (fun _ => now) 0 0 hreach
  have hloop := hloop (now + 1) (Nat.lt_succ_self now)
  obtain ⟨k, hd, hlt, hpassed⟩ := skipMissed_eq_some hloop
  refine ⟨{ p.advance dcTime with next := d }, ?_, ⟨⟨⟨k, ?_⟩, ?_⟩, ?_⟩, ?_,
    p.abs_correction_le dcTime, rfl, rfl, rfl⟩
  · rw [step, advanceToDeadline, advance_period, hloop]
    rfl
  · dsimp only
    rw [hd, ← hnext]
    push_cast
    rfl
  · dsimp only at hlt ⊢
    omega
  · rintro d' ⟨⟨j, rfl⟩, hafter⟩
    dsimp only at hafter hpassed ⊢
    rw [← hnext] at hafter ⊢
    -- an earlier point of the grid was passed by the loop, so `now` had reached it
    have hj : k ≤ j := by
      by_contra hj
      have hreached := hpassed j (Nat.lt_of_not_le hj)
      zify at hreached
      omega
    have hmul := Nat.mul_le_mul_right p.period hj
    rw [hd]
    zify at hmul
    push_cast
    omega
  · dsimp only
    omega

/-! ## Runs -/

/-- The pacer after a step. -/
def paced (p : DcPacer) (input : Int × Nat) : DcPacer :=
  (p.step input.1 input.2).getD p

/-- The deadlines that a run returns. -/
def deadlines : DcPacer → List (Int × Nat) → List Nat
  | _, [] => []
  | p, input :: inputs => (p.paced input).next :: deadlines (p.paced input) inputs

theorem Paces.paced {input : Int × Nat} (h : p.Paces input) :
    p.next < (p.paced input).next ∧ (p.paced input).period = p.period := by
  obtain ⟨q, hq, -, hforward, -, -, hperiod, -⟩ := h
  rw [DcPacer.paced, hq]
  exact ⟨hforward, hperiod⟩

theorem allSteps_paces (hperiod : 50000 < p.period) (inputs : List (Int × Nat)) :
    AllSteps DcPacer.paced Paces p inputs := by
  induction inputs generalizing p with
  | nil => trivial
  | cons input inputs ih =>
      have hstep := step_spec hperiod input
      refine ⟨hstep, ih ?_⟩
      rwa [hstep.paced.2]

theorem deadlines_increasing {inputs : List (Int × Nat)}
    (h : AllSteps DcPacer.paced Paces p inputs) :
    (p.next :: p.deadlines inputs).IsChain (· < ·) := by
  induction inputs generalizing p with
  | nil => simp [deadlines]
  | cons input inputs ih =>
      rw [deadlines, List.isChain_cons_cons]
      exact ⟨h.1.paced.1, ih h.2⟩

end DcPacer

open DcPacer

/-- For every pacer with a period above 50 us: each step of every run returns the least deadline
of the corrected grid after `now`, the deadlines of the run increase, and the loop of
`advance_to_deadline` terminates for every clock that is slow enough from some reading on. -/
theorem pacer_catch_up_minimal (p : DcPacer) (hperiod : 50000 < p.period) :
    (∀ inputs, AllSteps DcPacer.paced Paces p inputs ∧
      (p.next :: p.deadlines inputs).Pairwise (· < ·)) ∧
    ∀ (dcTime : Int) (now : Nat → Nat) (N : Nat),
      (∀ i, N ≤ i → now (i + 1) < now i + p.period) →
      ∃ r enough, ∀ fuel, enough < fuel → advanceToDeadline fuel p dcTime now = some r := by
  refine ⟨fun inputs => ?_, fun dcTime now N hslow => ?_⟩
  · have hsteps := allSteps_paces hperiod inputs
    exact ⟨hsteps, (deadlines_increasing hsteps).pairwise⟩
  · obtain ⟨k, hk⟩ := outrun hslow (p.advance dcTime).next
    obtain ⟨⟨d, n⟩, hr⟩ := skipMissed_terminates now 0 0 (by rwa [Nat.zero_add])
    refine ⟨({ p.advance dcTime with next := d }, n), k, fun fuel hfuel => ?_⟩
    rw [advanceToDeadline, advance_period, hr fuel hfuel]
    rfl

/-- A pacer of 1 ms that is three periods behind. -/
theorem pacer_catch_up_minimal_bench :
    (1000 :: (DcPacer.deadlines { period := 1000000, shift := 500000, next := 1000 }
      [(685000, 3001234), (0, 0)])).Pairwise (· < ·) :=
  ((pacer_catch_up_minimal { period := 1000000, shift := 500000, next := 1000 }
    (by decide)).1 _).2

end ViamEthercat
