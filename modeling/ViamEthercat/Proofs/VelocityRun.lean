import ViamEthercat.Lib.Decay
import ViamEthercat.Proofs.Motion
import Mathlib.Data.Sign.Basic

/-!
# `ViamEthercat.Proofs.VelocityRun`: a velocity run is a limited ramp

After `set_velocity` the generator steps toward its target by at most `accel * dt` a cycle, reaches
it on the cycle the quotient gives, and holds it (`velocity_run_ramp`). A run to rest is idle on
that very cycle. Its distance is that of `Lib.travelled`.

`Ramping` is what `set_velocity` establishes and every step keeps. `Ramping.step` is the step of
the generator as one equation, for an idle generator too: at rest there is nothing left to ramp.
-/

set_option autoImplicit false

namespace ViamEthercat.Servo

open Lib

variable {K : Type} [Field K] [LinearOrder K] [IsStrictOrderedRing K] [FloorRing K]

namespace TrapezoidGenerator

/-- A generator on a velocity run, which holds once a run to rest has no speed left. -/
structure Ramping (vTarget accel : K) (g : TrapezoidGenerator K) : Prop where
  target : g.vTarget = vTarget
  accel : g.accel.1 = accel
  phase : g.phase ≠ .positioning
  idle : g.phase = .idle ↔ vTarget = 0 ∧ g.state.velocity = 0
  hold : g.phase = .idle → g.goal = g.position

variable {g : TrapezoidGenerator K} {vTarget accel dt : K}

omit [FloorRing K] in
/-- The velocity change of a cycle has the sign of what is missing, and is limited. -/
theorem rampDv_eq (g : TrapezoidGenerator K) {dt : K} (hdt : 0 < dt) :
    g.rampDv dt = SignType.sign (g.vTarget - g.state.velocity) *
      min |g.vTarget - g.state.velocity| (g.accel.1 * dt) := by
  have hramp : 0 < g.accel.1 * dt := mul_pos g.accel.2 hdt
  unfold rampDv
  dsimp only
  obtain hneg | hzero | hpos := lt_trichotomy (g.vTarget - g.state.velocity) 0
  · rw [sign_neg hneg, abs_of_neg hneg, SignType.coe_neg_one, if_neg (by linarith)]
    split_ifs with hmore
    · rw [min_eq_right (by linarith)]
      ring
    · rw [min_eq_left (by linarith)]
      ring
  · rw [hzero, if_neg (by linarith), if_neg (by linarith)]
    simp
  · rw [sign_pos hpos, abs_of_pos hpos, SignType.coe_one, one_mul]
    split_ifs with hmore hless
    · rw [min_eq_right hmore.le]
    · linarith
    · rw [min_eq_left (not_lt.mp hmore)]

omit [IsStrictOrderedRing K] in
/-- `set_velocity` starts a run from the state it finds. -/
theorem ramping_setVelocity (g : TrapezoidGenerator K) (vTarget : K) (ha : 0 < accel) :
    (g.setVelocity vTarget accel).1.Ramping vTarget accel ∧
      (g.setVelocity vTarget accel).1.state = g.state := by
  unfold setVelocity
  rw [dif_pos ha]
  dsimp only
  split_ifs with hrest
  · exact ⟨⟨rfl, rfl, by simp, by simpa using hrest, fun _ => rfl⟩, rfl⟩
  · exact ⟨⟨rfl, rfl, by simp, by simpa using hrest, by simp⟩, rfl⟩

/-- The step lemma: the velocity moves by the limited change, the position by the mean velocity,
and an idle generator is left as it is. -/
theorem Ramping.step (h : g.Ramping vTarget accel) (sqrt : K → K) (hdt : 0 < dt) :
    (g.step sqrt dt).Ramping vTarget accel ∧
      (g.step sqrt dt).state.velocity = g.state.velocity +
        SignType.sign (vTarget - g.state.velocity) *
          min |vTarget - g.state.velocity| (accel * dt) ∧
      (g.step sqrt dt).state.position = g.state.position +
        (g.state.velocity + (g.step sqrt dt).state.velocity) / 2 * dt ∧
      (g.phase = .idle → g.step sqrt dt = g) := by
  by_cases hidle : g.phase = .idle
  · have hstep : g.step sqrt dt = g := by simp [TrapezoidGenerator.step, hidle]
    obtain ⟨htarget, hspeed⟩ := h.idle.mp hidle
    rw [hstep, htarget, hspeed]
    refine ⟨htarget ▸ h, by simp, by simp, fun _ => rfl⟩
  · have hstep : g.step sqrt dt = g.stepVelocity dt := by
      simp [TrapezoidGenerator.step, hidle, h.phase, hdt]
    have hdv := g.rampDv_eq hdt
    rw [h.target, h.accel] at hdv
    have hvelocity : (g.stepVelocity dt).state.velocity = g.state.velocity + g.rampDv dt := by
      unfold stepVelocity
      dsimp only
      split_ifs <;> rfl
    rw [hstep]
    refine ⟨?_, by rw [hvelocity, hdv], ?_, fun h => absurd h hidle⟩
    · unfold stepVelocity
      dsimp only
      split_ifs with hrest
      · exact ⟨h.target, h.accel, by simp, by simpa [h.target] using hrest, fun _ => rfl⟩
      · have hphase : g.phase = .velocity := by
          cases hp : g.phase with
          | idle => exact absurd hp hidle
          | positioning => exact absurd hp h.phase
          | velocity => rfl
        exact ⟨h.target, h.accel, h.phase, by simpa [hphase, h.target] using hrest,
          fun hi => absurd hi hidle⟩
    · rw [hvelocity]
      unfold stepVelocity
      dsimp only
      split_ifs <;> (dsimp only; ring)

/-- `n` steps of the generator. -/
def steps (sqrt : K → K) (dt : K) (n : ℕ) (g : TrapezoidGenerator K) : TrapezoidGenerator K :=
  (fun g => g.step sqrt dt)^[n] g

omit [IsStrictOrderedRing K] in
theorem steps_zero (sqrt : K → K) (dt : K) (g : TrapezoidGenerator K) : g.steps sqrt dt 0 = g := rfl

omit [IsStrictOrderedRing K] in
theorem steps_succ (sqrt : K → K) (dt : K) (n : ℕ) (g : TrapezoidGenerator K) :
    g.steps sqrt dt (n + 1) = (g.step sqrt dt).steps sqrt dt n := rfl

omit [IsStrictOrderedRing K] in
theorem steps_succ' (sqrt : K → K) (dt : K) (n : ℕ) (g : TrapezoidGenerator K) :
    g.steps sqrt dt (n + 1) = (g.steps sqrt dt n).step sqrt dt :=
  Function.iterate_succ_apply' ..

section
variable (sqrt : K → K) (hdt : 0 < dt)
include hdt

theorem Ramping.steps (h : g.Ramping vTarget accel) (n : ℕ) :
    (g.steps sqrt dt n).Ramping vTarget accel := by
  induction n with
  | zero => exact h
  | succ n ih =>
      rw [steps_succ']
      exact (ih.step sqrt hdt).1

/-- What is missing to the target decays by the ramp of a cycle. -/
theorem Ramping.missing_step (h : g.Ramping vTarget accel) :
    |vTarget - (g.step sqrt dt).state.velocity| =
      decay (accel * dt) |vTarget - g.state.velocity| := by
  have hramp : 0 < accel * dt := mul_pos (h.accel ▸ g.accel.2) hdt
  have hmissing : vTarget - (g.step sqrt dt).state.velocity =
      SignType.sign (vTarget - g.state.velocity) * (|vTarget - g.state.velocity| -
        min |vTarget - g.state.velocity| (accel * dt)) := by
    rw [(h.step sqrt hdt).2.1, mul_sub, sign_mul_abs]
    ring
  rw [hmissing]
  obtain hle | hlt := le_or_gt |vTarget - g.state.velocity| (accel * dt)
  · rw [min_eq_left hle, decay_of_le hle]
    simp
  · rw [min_eq_right hlt.le, decay_of_lt hlt, abs_mul, abs_of_pos (sub_pos.mpr hlt)]
    have hne : vTarget - g.state.velocity ≠ 0 := by
      intro hzero
      rw [hzero, abs_zero] at hlt
      exact absurd hlt hramp.not_gt
    obtain hneg | hpos := hne.lt_or_gt
    · simp [sign_neg hneg]
    · simp [sign_pos hpos]

theorem Ramping.missing_steps (h : g.Ramping vTarget accel) (n : ℕ) :
    |vTarget - (g.steps sqrt dt n).state.velocity| =
      (decay (accel * dt))^[n] |vTarget - g.state.velocity| := by
  induction n with
  | zero => rfl
  | succ n ih =>
      rw [steps_succ', (h.steps sqrt hdt n).missing_step sqrt hdt, ih,
        Function.iterate_succ_apply']

theorem Ramping.reached_iff (h : g.Ramping vTarget accel) (n : ℕ) :
    (g.steps sqrt dt n).state.velocity = vTarget ↔
      ⌈|vTarget - g.state.velocity| / (accel * dt)⌉₊ ≤ n := by
  have hramp : 0 < accel * dt := mul_pos (h.accel ▸ g.accel.2) hdt
  rw [← decay_iterate_eq_zero_iff hramp (abs_nonneg _), ← h.missing_steps sqrt hdt n,
    abs_eq_zero, sub_eq_zero, eq_comm]

/-- One cycle of a run to rest, with the speed apart from its sign. -/
theorem Ramping.stopping_step (h : g.Ramping 0 accel) {sign speed : K}
    (hsign : sign = 1 ∨ sign = -1) (hspeed : 0 ≤ speed) (hv : g.state.velocity = sign * speed) :
    (g.step sqrt dt).state.velocity = sign * decay (accel * dt) speed := by
  have habs : |0 - g.state.velocity| = speed := by
    rw [zero_sub, abs_neg, hv, abs_mul, abs_of_nonneg hspeed]
    obtain rfl | rfl := hsign <;> simp
  have hdecay := h.missing_step sqrt hdt
  rw [habs, zero_sub, abs_neg] at hdecay
  -- The velocity after the step is a part of the one before, with its sign.
  have hpart : 0 ≤ sign * (g.step sqrt dt).state.velocity := by
    rw [(h.step sqrt hdt).2.1, habs, zero_sub, Left.sign_neg, SignType.coe_neg, hv]
    obtain hpos | hzero := hspeed.lt_or_eq
    · have hmin := min_le_left speed (accel * dt)
      obtain rfl | rfl := hsign
      · simp only [one_mul, sign_pos hpos, SignType.coe_one]
        linarith
      · simp only [neg_one_mul, Left.sign_neg, sign_pos hpos, SignType.coe_neg, SignType.coe_one]
        linarith
    · rw [← hzero]
      simp
  obtain rfl | rfl := hsign
  · rw [one_mul] at hpart ⊢
    rwa [abs_of_nonneg hpart] at hdecay
  · rw [neg_one_mul] at hpart ⊢
    rw [abs_of_nonpos (neg_nonneg.mp hpart)] at hdecay
    rw [← hdecay, neg_neg]

/-- A run to rest, with its speed and its distance. -/
theorem Ramping.stopping_steps (h : g.Ramping 0 accel) {sign speed : K}
    (hsign : sign = 1 ∨ sign = -1) (hspeed : 0 ≤ speed) (hv : g.state.velocity = sign * speed)
    (n : ℕ) :
    (g.steps sqrt dt n).state.velocity = sign * (decay (accel * dt))^[n] speed ∧
      (g.steps sqrt dt n).state.position =
        g.state.position + sign * travelled dt (accel * dt) n speed := by
  induction n generalizing g speed with
  | zero => exact ⟨hv, by rw [steps_zero, travelled, mul_zero, add_zero]⟩
  | succ n ih =>
      obtain ⟨hrest, -, hposition, -⟩ := h.step sqrt hdt
      have hvelocity := h.stopping_step sqrt hdt hsign hspeed hv
      obtain ⟨hrestVelocity, hrestPosition⟩ := ih hrest decay_nonneg hvelocity
      rw [steps_succ]
      refine ⟨hrestVelocity, ?_⟩
      rw [hrestPosition, hposition, hvelocity, hv, travelled]
      ring

/-- A run to rest goes on in its direction, and its travel is bounded by the stopping distance. -/
theorem Ramping.stopping_travel (h : g.Ramping 0 accel) (n : ℕ) :
    0 ≤ g.state.velocity * (g.steps sqrt dt n).state.velocity ∧
      (g.steps sqrt dt n).state.position - g.state.position = SignType.sign g.state.velocity *
        |(g.steps sqrt dt n).state.position - g.state.position| ∧
      |(g.steps sqrt dt n).state.position - g.state.position| ≤
        g.state.velocity ^ 2 / (2 * accel) + accel * dt ^ 2 / 8 := by
  have ha : 0 < accel := h.accel ▸ g.accel.2
  -- The sign of a velocity that is zero does not matter.
  obtain ⟨sign, hsign, hv⟩ : ∃ sign : K, (sign = 1 ∨ sign = -1) ∧
      g.state.velocity = sign * |g.state.velocity| := by
    obtain hneg | hpos := lt_or_ge g.state.velocity 0
    · exact ⟨-1, .inr rfl, by rw [abs_of_neg hneg]; ring⟩
    · exact ⟨1, .inl rfl, by rw [abs_of_nonneg hpos, one_mul]⟩
  obtain ⟨hvelocity, hposition⟩ := h.stopping_steps sqrt hdt hsign (abs_nonneg _) hv n
  rw [hvelocity, hposition, add_sub_cancel_left]
  generalize g.state.velocity = v at *
  refine ⟨?_, ?_⟩
  · have hsame : v * sign = |v| := by
      rw [hv, abs_mul, abs_abs]
      obtain rfl | rfl := hsign <;> simp
    rw [decay_iterate (mul_pos ha hdt).le (abs_nonneg v), ← mul_assoc, hsame]
    exact mul_nonneg (abs_nonneg v) (le_max_left _ _)
  · have hnonneg := travelled_nonneg (h := accel * dt) hdt.le (abs_nonneg v) n
    have hle := travelled_le ha hdt.le (abs_nonneg v) n
    have hrest : v = 0 → travelled dt (accel * dt) n |v| = 0 := fun hzero => by
      rw [hzero, abs_zero, travelled_zero (mul_pos ha hdt).le]
    generalize travelled dt (accel * dt) n |v| = distance at *
    have habs : |sign * distance| = distance := by
      rw [abs_mul, abs_of_nonneg hnonneg]
      obtain rfl | rfl := hsign <;> simp
    rw [habs]
    refine ⟨?_, by rwa [sq_abs] at hle⟩
    obtain hzero | hmoving := eq_or_ne v 0
    · rw [hrest hzero, mul_zero, mul_zero]
    · have heq : (SignType.sign v : K) = sign :=
        mul_right_cancel₀ (abs_ne_zero.mpr hmoving) ((sign_mul_abs v).trans hv)
      rw [heq]

/-- A generator that is idle is left as it is. -/
theorem Ramping.held (h : g.Ramping vTarget accel) {n m : ℕ} (hle : n ≤ m)
    (hidle : (g.steps sqrt dt n).phase = .idle) :
    g.steps sqrt dt m = g.steps sqrt dt n := by
  induction m, hle using Nat.le_induction with
  | base => rfl
  | succ m _ ih =>
      rw [steps_succ', ih, ((h.steps sqrt hdt n).step sqrt hdt).2.2.2 hidle]

end

end TrapezoidGenerator

open TrapezoidGenerator

/-- After `set_velocity` with a positive acceleration, each step moves the velocity toward the
target by the smaller of what is missing and the ramp of a cycle. The target is reached after the
cycles of the quotient, and held. On a stop the velocity keeps its sign, the generator is idle from
the step that reaches rest on, the travel goes along the velocity and is at most the stopping
distance and `a * dt ^ 2 / 8`, and from then on the wire position is the goal. -/
theorem velocity_run_ramp (sqrt : K → K) (g : TrapezoidGenerator K) (vTarget : K)
    {accel dt : K} (ha : 0 < accel) (hdt : 0 < dt) :
    let v := g.state.velocity
    let after n := (g.setVelocity vTarget accel).1.steps sqrt dt n
    let cycles := ⌈|vTarget - v| / (accel * dt)⌉₊
    (∀ n, (after (n + 1)).state.velocity = (after n).state.velocity +
      SignType.sign (vTarget - (after n).state.velocity) *
        min |vTarget - (after n).state.velocity| (accel * dt)) ∧
    (∀ n, (after n).state.velocity = vTarget ↔ cycles ≤ n) ∧
    (vTarget = 0 →
      (∀ n, 0 ≤ v * (after n).state.velocity) ∧
      (∀ n, (after n).idle = true ↔ cycles ≤ n) ∧
      (∀ n, let travel := (after n).state.position - g.state.position
        travel = SignType.sign v * |travel| ∧
          |travel| ≤ v ^ 2 / (2 * accel) + accel * dt ^ 2 / 8) ∧
      ∀ n, cycles ≤ n → (after n).position = (after cycles).goal ∧
        (after n).goal = (after cycles).goal) := by
  intro v after cycles
  obtain ⟨hramping, hstate⟩ := ramping_setVelocity g vTarget ha
  have hreached : ∀ n, (after n).state.velocity = vTarget ↔ cycles ≤ n := fun n => by
    rw [hramping.reached_iff sqrt hdt n, hstate]
  refine ⟨fun n => ?_, hreached, ?_⟩
  · rw [show after (n + 1) = (after n).step sqrt dt from steps_succ' ..]
    exact ((hramping.steps sqrt hdt n).step sqrt hdt).2.1
  rintro rfl
  have hidle : ∀ n, (after n).phase = .idle ↔ cycles ≤ n := fun n => by
    rw [(hramping.steps sqrt hdt n).idle, ← hreached n]
    exact and_iff_right rfl
  have htravel := hramping.stopping_travel sqrt hdt
  rw [hstate] at htravel
  refine ⟨fun n => (htravel n).1, fun n => by rw [idle, decide_eq_true_iff, hidle],
    fun n => (htravel n).2, fun n hn => ?_⟩
  · have hstill : after n = after cycles :=
      hramping.held sqrt hdt hn ((hidle cycles).mpr le_rfl)
    have hgoal := (hramping.steps sqrt hdt cycles).hold ((hidle cycles).mpr le_rfl)
    rw [hstill]
    exact ⟨hgoal.symm, rfl⟩

/-- A stop from 25 counts/s at 10 counts/s² in cycles of 1 s: three cycles, the last one partial. -/
theorem velocity_run_ramp_three :
    let g : TrapezoidGenerator ℚ := { TrapezoidGenerator.new with state := ⟨0, 25⟩ }
    ((g.setVelocity 0 10).1.steps id 1 3).idle = true := by
  intro g
  have hrun := velocity_run_ramp id g 0 (by norm_num : (0 : ℚ) < 10) (by norm_num : (0 : ℚ) < 1)
  refine ((hrun.2.2 rfl).2.1 3).mpr ?_
  norm_num [g]

end ViamEthercat.Servo
