import Mathlib.Data.Int.ModEq
import Mathlib.Algebra.Order.Group.Abs
import Mathlib.Algebra.Order.Group.Int
import ViamEthercat.Ethercat.Realtime
import ViamEthercat.Lib.Run

/-!
# `ViamEthercat.Proofs.PhaseLock`: the phase lock captures and holds

The closed loop of `dc_phase_correction` at a cycle of 1 ms: the correction is added to the phase,
and the next sample reads the new phase. The integral starts at 0.

The error is captured first: while the integral is small, the proportional part takes a hundredth
off the error in each cycle (`approach`), and after 500 cycles 6000 ns are left. From then on
`error + 5 * integral` carries the proof. A step multiplies it by 0.99, up to the sign of the
error and the truncations, so it stays bounded, and the sign then bounds the integral
(`LockRegion`). The clamps of the source are never reached along the run.
-/

set_option autoImplicit false

namespace ViamEthercat

open Lib

/-! ## Truncating division -/

/-- A truncated quotient with its remainder, which has the sign of the dividend. -/
theorem tdiv_cases (a : Int) {k : Int} (hk : 0 < k) :
    k * a.tdiv k + a.tmod k = a ∧
      (0 ≤ a ∧ 0 ≤ a.tmod k ∧ a.tmod k < k ∨ a ≤ 0 ∧ a.tmod k ≤ 0 ∧ -k < a.tmod k) := by
  refine ⟨Int.mul_tdiv_add_tmod a k, ?_⟩
  obtain h | h := Int.le_total 0 a
  · exact .inl ⟨h, Int.tmod_nonneg k h, Int.tmod_lt_of_pos a hk⟩
  · have hneg := Int.neg_tmod a k
    have hnonneg := Int.tmod_nonneg k (Int.neg_nonneg.mpr h)
    have hlt := Int.tmod_lt_of_pos (-a) hk
    exact .inr ⟨h, by omega, by omega⟩

/-- The two remainders of the source are one floor remainder. -/
theorem tmod_add_tmod (a : Int) {k : Int} (hk : 0 < k) : (a.tmod k + k).tmod k = a % k := by
  have hlow : 0 ≤ a.tmod k + k := by
    obtain ⟨-, ⟨-, h, -⟩ | ⟨-, -, h⟩⟩ := tdiv_cases a hk <;> omega
  have hdiv := Int.mul_tdiv_add_tmod a k
  rw [Int.tmod_eq_emod_of_nonneg hlow, Int.add_emod_right]
  conv => rhs; rw [← hdiv]
  rw [Int.mul_add_emod_self_left]

/-! ## One correction -/

/-- The error is the representative of the distance in `(-cycle / 2, cycle / 2]`. -/
theorem phaseError_eq (dcTime shift : Int) {cycle : Int} (hcycle : 0 < cycle) :
    phaseError dcTime cycle shift =
      if (dcTime - shift) % cycle > cycle / 2 then (dcTime - shift) % cycle - cycle
      else (dcTime - shift) % cycle := by
  rw [phaseError, tmod_add_tmod _ hcycle, Int.tdiv_eq_ediv_of_nonneg hcycle.le]

/-- The integral stays inside the correction range. -/
theorem abs_windIntegral_le (delta integral : Int) {maxCorrection : Int} (h : 0 ≤ maxCorrection) :
    |windIntegral delta integral maxCorrection| ≤ maxCorrection * 20 := by
  rw [abs_le]
  unfold windIntegral
  constructor <;> (dsimp only; split_ifs <;> omega)

/-- The correction stays in its range. -/
theorem abs_dcPhaseCorrection_le (dcTime cycle integral shift : Int) {maxCorrection : Int}
    (h : 0 ≤ maxCorrection) :
    |(dcPhaseCorrection dcTime cycle integral shift maxCorrection).1| ≤ maxCorrection := by
  rw [abs_le]
  unfold dcPhaseCorrection
  split_ifs
  · simpa using h
  · dsimp only
    constructor <;> (split_ifs <;> omega)

/-- So does the integral, with the first sample that has a DC clock. -/
theorem abs_dcPhaseCorrection_integral_le {dcTime cycle : Int} (integral shift : Int)
    {maxCorrection : Int} (hdc : dcTime ≠ 0) (hcycle : cycle ≠ 0) (h : 0 ≤ maxCorrection) :
    |(dcPhaseCorrection dcTime cycle integral shift maxCorrection).2| ≤ maxCorrection * 20 := by
  rw [dcPhaseCorrection, if_neg (not_or.mpr ⟨hdc, hcycle⟩)]
  exact abs_windIntegral_le _ _ h

/-! ## The closed loop -/

/-- The phase of the wakeup and the integral of the controller. -/
structure PhaseLoop where
  phase : Int
  integral : Int := 0
deriving DecidableEq, Repr

namespace PhaseLoop

variable {shift : Int}

/-- One cycle of 1 ms: the correction is added to the phase. -/
def cycle (shift : Int) (s : PhaseLoop) (dcTime : Int) : PhaseLoop :=
  let (corr, integral) := dcPhaseCorrection dcTime 1000000 s.integral shift
  { phase := s.phase + corr, integral := integral }

/-- A sample is a nonzero DC time of the current phase. -/
def Samples (s : PhaseLoop) (dcTime : Int) : Prop :=
  dcTime ≠ 0 ∧ dcTime ≡ s.phase [ZMOD 1000000]

instance (s : PhaseLoop) (dcTime : Int) : Decidable (s.Samples dcTime) :=
  inferInstanceAs (Decidable (_ ∧ _))

/-- The signed phase error relative to the shift. -/
def error (shift : Int) (s : PhaseLoop) : Int := phaseError s.phase 1000000 shift

theorem error_eq (shift : Int) (s : PhaseLoop) :
    s.error shift = if (s.phase - shift) % 1000000 > 500000 then
      (s.phase - shift) % 1000000 - 1000000 else (s.phase - shift) % 1000000 :=
  phaseError_eq s.phase shift (by decide)

theorem error_bounds (shift : Int) (s : PhaseLoop) :
    -500000 < s.error shift ∧ s.error shift ≤ 500000 := by
  rw [error_eq]
  split_ifs <;> omega

/-- The wound integral of a small one: the clamp is not reached. -/
theorem windIntegral_of_small {delta integral : Int} (h : |integral| < 1000000) :
    windIntegral delta integral 50000 = integral + delta.sign := by
  rw [abs_lt] at h
  unfold windIntegral
  obtain hpos | rfl | hneg := Int.lt_trichotomy 0 delta
  · rw [Int.sign_eq_one_of_pos hpos]
    dsimp only
    split_ifs <;> omega
  · dsimp only
    rw [Int.sign_zero]
    split_ifs <;> omega
  · rw [Int.sign_eq_neg_one_of_neg hneg]
    dsimp only
    split_ifs <;> omega

/-- The step lemma: while the integral is small and the corrected error does not wrap, a cycle
winds the integral by the sign of the error and takes both parts off the error. -/
theorem cycle_of_samples (shift : Int) {s : PhaseLoop} {dcTime next : Int} (h : s.Samples dcTime)
    (hsmall : |s.integral| ≤ 10000)
    (hnext : next = s.error shift - (s.error shift).tdiv 100 -
      (s.integral + (s.error shift).sign).tdiv 20)
    (hwrap : -500000 < next ∧ next ≤ 500000) :
    (s.cycle shift dcTime).integral = s.integral + (s.error shift).sign ∧
      (s.cycle shift dcTime).error shift = next := by
  obtain ⟨hzero, hphase⟩ := h
  have herror : phaseError dcTime 1000000 shift = s.error shift := by
    rw [error, phaseError_eq _ _ (by decide), phaseError_eq _ _ (by decide),
      (hphase.sub_right shift).eq]
  have hsmall' := abs_le.mp hsmall
  have hint : windIntegral (phaseError dcTime 1000000 shift) s.integral 50000 =
      s.integral + (s.error shift).sign := by
    rw [windIntegral_of_small (by omega), herror]
  have hsign : -1 ≤ (s.error shift).sign ∧ (s.error shift).sign ≤ 1 := by
    obtain h | h | h := Int.sign_trichotomy (s.error shift) <;> omega
  have hcorr : (dcPhaseCorrection dcTime 1000000 s.integral shift).1 = next - s.error shift := by
    have hbounds := error_bounds shift s
    have h100 := tdiv_cases (s.error shift) (k := 100) (by decide)
    have h20 := tdiv_cases (s.integral + (s.error shift).sign) (k := 20) (by decide)
    unfold dcPhaseCorrection
    rw [if_neg (by omega)]
    dsimp only
    rw [hint, herror]
    split_ifs <;> omega
  have hcycle : s.cycle shift dcTime =
      { phase := s.phase + (next - s.error shift)
        integral := s.integral + (s.error shift).sign } := by
    rw [← hcorr, ← hint]
    unfold cycle dcPhaseCorrection
    rw [if_neg (by omega)]
  refine ⟨by rw [hcycle], ?_⟩
  have hold := error_eq shift s
  rw [hcycle, error_eq]
  dsimp only
  split_ifs at hold ⊢ <;> omega

/-! ## Capture -/

/-- The bound of the error after so many cycles, while the integral is at most 500. -/
def approach : Nat → Int
  | 0 => 500000
  | n + 1 => approach n - approach n / 100 + 25

theorem approach_le (n : Nat) : approach n ≤ 500000 := by
  induction n with
  | zero => decide
  | succ n ih =>
      rw [approach]
      omega

/-- The first 500 cycles leave 6000 ns. -/
theorem approach_captured : approach 500 ≤ 6000 := by decide +kernel

/-- While the integral is at most 500, the error approaches the target. -/
theorem cycle_approach {s : PhaseLoop} {dcTime : Int} {n : Nat} (h : s.Samples dcTime)
    (hn : n < 500) (herror : |s.error shift| ≤ approach n) (hintegral : |s.integral| ≤ n) :
    |(s.cycle shift dcTime).error shift| ≤ approach (n + 1) ∧
      |(s.cycle shift dcTime).integral| ≤ (n + 1 : Nat) := by
  rw [abs_le] at herror hintegral
  have hle := approach_le n
  have hsign : -1 ≤ (s.error shift).sign ∧ (s.error shift).sign ≤ 1 := by
    obtain h | h | h := Int.sign_trichotomy (s.error shift) <;> omega
  have h100 := tdiv_cases (s.error shift) (k := 100) (by decide)
  have h20 := tdiv_cases (s.integral + (s.error shift).sign) (k := 20) (by decide)
  obtain ⟨hint, herr⟩ := cycle_of_samples shift h (abs_le.mpr (by omega)) rfl (by omega)
  rw [hint, herr, abs_le, abs_le, approach]
  omega

/-- Where the loop stays after it has captured the phase. -/
structure LockRegion (shift : Int) (s : PhaseLoop) : Prop where
  lock : |s.error shift + 5 * s.integral| ≤ 8500
  integral : |s.integral| ≤ 1700

namespace LockRegion

theorem error_le {s : PhaseLoop} (h : LockRegion shift s) : |s.error shift| ≤ 17000 := by
  have hlock := abs_le.mp h.lock
  have hintegral := abs_le.mp h.integral
  rw [abs_le]
  omega

/-- The region is kept: the error plus five integrals contracts by a hundredth, and an integral at
its bound has the sign of the error against it. -/
theorem cycle {s : PhaseLoop} {dcTime : Int} (h : LockRegion shift s) (hsample : s.Samples dcTime) :
    LockRegion shift (s.cycle shift dcTime) := by
  have herror := abs_le.mp h.error_le
  have hlock := abs_le.mp h.lock
  have hintegral := abs_le.mp h.integral
  have hsign := Int.sign_trichotomy (s.error shift)
  have h100 := tdiv_cases (s.error shift) (k := 100) (by decide)
  have h20 := tdiv_cases (s.integral + (s.error shift).sign) (k := 20) (by decide)
  obtain ⟨hint, herr⟩ := cycle_of_samples shift hsample (abs_le.mpr (by omega)) rfl (by omega)
  constructor
  · rw [herr, hint, abs_le]
    omega
  · have hpos := @Int.sign_eq_one_iff_pos (s.error shift)
    have hneg := @Int.sign_eq_neg_one_iff_neg (s.error shift)
    rw [hint, abs_le]
    omega

end LockRegion

/-- The run lemma: the loop approaches for 500 cycles, and is in its region from then on. -/
theorem run_captured (phase : Int) {dcTimes : List Int}
    (h : AllSteps (cycle shift) Samples { phase := phase } dcTimes) :
    let s := runFrom (cycle shift) { phase := phase } dcTimes
    (dcTimes.length ≤ 500 → |s.error shift| ≤ approach dcTimes.length ∧
      |s.integral| ≤ dcTimes.length) ∧ (500 ≤ dcTimes.length → LockRegion shift s) := by
  induction dcTimes using List.reverseRecOn with
  | nil =>
      have hbounds := error_bounds shift { phase := phase }
      refine ⟨fun _ => ⟨abs_le.mpr ?_, by simp⟩, fun h => by simp at h⟩
      rw [runFrom_nil, List.length_nil, approach]
      omega
  | append_singleton dcTimes dcTime ih =>
      obtain ⟨hrun, hlast⟩ := allSteps_concat.mp h
      obtain ⟨happroach, hregion⟩ := ih hrun
      dsimp only
      rw [runFrom_concat, List.length_append, List.length_singleton]
      have hfirst : dcTimes.length < 500 → _ := fun hn =>
        cycle_approach hlast hn (happroach hn.le).1 (happroach hn.le).2
      refine ⟨hfirst, fun hlength => ?_⟩
      obtain hlater | hnow := Nat.lt_or_ge dcTimes.length 500
      · obtain ⟨herror, hintegral⟩ := hfirst hlater
        have hn : dcTimes.length + 1 = 500 := by omega
        rw [hn] at herror hintegral
        have herror := abs_le.mp (herror.trans approach_captured)
        have hintegral := abs_le.mp hintegral
        exact ⟨abs_le.mpr (by omega), abs_le.mpr (by omega)⟩
      · exact (hregion hnow).cycle hlast

end PhaseLoop

open PhaseLoop

end ViamEthercat
