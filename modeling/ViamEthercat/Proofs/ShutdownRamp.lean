import ViamEthercat.Servo.Teardown
import ViamEthercat.Proofs.Step
import Mathlib.Tactic.FieldSimp
import Mathlib.Tactic.Linarith

/-!
# `ViamEthercat.Proofs.ShutdownRamp`: the ramp of the cyclic mode in the stopping window

In the stopping window the cyclic mode ramps to rest while the drive is enabled, and the Runner
closes the bus when the window is over. `shutdown_cycles` sizes the window from the velocity
ceiling with a margin, and then caps it at 60000 cycles.

`shutdown_ramp_fits_iff`: every velocity up to the ceiling is ramped down within the window if
and only if the ramp from the ceiling is not longer than the cap, or a configured quick-stop
gives the window the cycles it needs. The count of the cycles is what the generator does:
`idle_of_ramped` runs `step_shutdown` on it. That a generator ramps at the acceleration of its
mode is an invariant of every run (`runs_of_run`).
-/

set_option autoImplicit false

namespace ViamEthercat.Servo

/-! ### One shutdown cycle -/

/-- The drive is enabled and shows no fault. -/
def MotionFeedback.Enabled (fb : MotionFeedback) : Prop :=
  fb.status.operationEnabled = true ∧ fb.status.fault = false

namespace TrapezoidGenerator

variable {g : TrapezoidGenerator ℚ}

/-- One cycle of a velocity run to rest: the speed falls by the ramp, and a generator at rest
holds. -/
theorem stepVelocity_to_rest {dt : ℚ} (hdt : 0 < dt) (hv : g.vTarget = 0) :
    |(g.stepVelocity dt).state.velocity| = max 0 (|g.state.velocity| - g.accel.1 * dt) ∧
      ((g.stepVelocity dt).state.velocity = 0 → (g.stepVelocity dt).phase = .idle) := by
  have hramp : 0 < g.accel.1 * dt := mul_pos g.accel.2 hdt
  have hvelocity : (g.stepVelocity dt).state.velocity = g.state.velocity + g.rampDv dt := by
    unfold stepVelocity
    dsimp only
    split_ifs <;> rfl
  refine ⟨?_, fun hzero => ?_⟩
  · rw [hvelocity]
    unfold rampDv
    rw [hv]
    dsimp only
    -- The ramp is cut at zero, from either side.
    rcases le_total 0 g.state.velocity with hpos | hneg
    · rw [abs_of_nonneg hpos]
      split_ifs with hup hdown
      · linarith
      · rw [max_eq_right (by linarith), abs_of_nonneg (by linarith)]
        ring
      · rw [max_eq_left (by linarith)]
        simp
    · rw [abs_of_nonpos hneg]
      split_ifs with hup hdown
      · rw [max_eq_right (by linarith), abs_of_nonpos (by linarith)]
        ring
      · linarith
      · rw [max_eq_left (by linarith)]
        simp
  · rw [hvelocity] at hzero
    unfold stepVelocity
    dsimp only
    rw [if_pos ⟨hv, hzero⟩]

/-- A velocity run from rest is within one cycle's ramp of it, and leaves it unless it is a run
to rest. -/
theorem stepVelocity_from_rest {dt : ℚ} (hdt : 0 < dt) (hv : g.state.velocity = 0) :
    |(g.stepVelocity dt).state.velocity| ≤ g.accel.1 * dt ∧
      ((g.stepVelocity dt).state.velocity = 0 → g.vTarget = 0) := by
  have hramp : 0 < g.accel.1 * dt := mul_pos g.accel.2 hdt
  have hvelocity : (g.stepVelocity dt).state.velocity = g.rampDv dt := by
    unfold stepVelocity
    dsimp only
    split_ifs <;> simp [hv]
  rw [hvelocity]
  unfold rampDv
  dsimp only
  rw [hv, sub_zero]
  split_ifs with hup hdown
  · exact ⟨by rw [abs_of_pos hramp], fun h => absurd h hramp.ne'⟩
  · exact ⟨by rw [abs_neg, abs_of_pos hramp], fun h => absurd (neg_eq_zero.mp h) hramp.ne'⟩
  · exact ⟨abs_le.mpr ⟨not_lt.mp hdown, not_lt.mp hup⟩, id⟩

/-- `stop` on a moving generator starts a run to rest at the given acceleration. -/
theorem stop_moving {a : ℚ} (ha : 0 < a) (hv : g.state.velocity ≠ 0) :
    g.stop a = { g with vTarget := 0, accel := ⟨a, ha⟩, phase := .velocity } := by
  simp [stop, setVelocity, ha, hv]

/-- `stop` on a generator without speed holds. -/
theorem stop_resting {a : ℚ} (ha : 0 < a) (hv : g.state.velocity = 0) :
    (g.stop a).phase = .idle := by
  simp [stop, setVelocity, ha, hv]

theorem step_velocity (sqrt : ℚ → ℚ) {dt : ℚ} (hdt : 0 < dt) (hp : g.phase = .velocity) :
    g.step sqrt dt = g.stepVelocity dt := by
  simp [step, hp, hdt]

theorem step_idle (sqrt : ℚ → ℚ) (dt : ℚ) (hp : g.phase = .idle) : g.step sqrt dt = g := by
  simp [step, hp]

end TrapezoidGenerator

namespace CyclicPositionMode

/-- The shutdown cycles of a mode on the feedback `fbs`, with the output image. -/
def shutdownRun (sqrt : ℚ → ℚ) (f : Fields) (st : CyclicPositionMode ℚ × Outputs)
    (fbs : List MotionFeedback) : CyclicPositionMode ℚ × Outputs :=
  Lib.runFrom (fun st fb =>
    ((st.1.stepShutdown sqrt f st.2 fb).next, (st.1.stepShutdown sqrt f st.2 fb).outputs)) st fbs

section
variable {sqrt : ℚ → ℚ} {f : Fields} {out : Outputs} {fb : MotionFeedback}
  {m : CyclicPositionMode ℚ}

/-- On an enabled drive an idle generator is left alone, and another one is told to stop, unless
its velocity run has no speed yet. -/
theorem stepShutdown_generator (hfb : fb.Enabled) :
    (m.stepShutdown sqrt f out fb).next =
      { m with generator :=
          if m.generator.phase = .idle then m.generator
          else if m.generator.phase ≠ .velocity ∨ m.generator.state.velocity ≠ 0 then
            (m.generator.stop m.accel).step sqrt m.dt
          else m.generator.step sqrt m.dt } := by
  unfold stepShutdown TrapezoidGenerator.idle
  simp only [hfb.1, hfb.2, Bool.not_true, Bool.or_self, Bool.false_eq_true, if_false]
  by_cases hidle : m.generator.phase = .idle
  · simp [hidle]
  · simp only [hidle, decide_false, Bool.not_false, if_true, if_false]
    split_ifs <;> rfl

variable (sqrt f out) in
/-- A generator that moves loses one cycle's ramp of its speed, and holds once at rest. -/
theorem stepShutdown_moving (hfb : fb.Enabled) (ha : 0 < m.accel) (hdt : 0 < m.dt)
    (hv : m.generator.state.velocity ≠ 0) (hidle : m.generator.phase ≠ .idle) :
    |(m.stepShutdown sqrt f out fb).next.generator.state.velocity|
        = max 0 (|m.generator.state.velocity| - m.accel * m.dt) ∧
      ((m.stepShutdown sqrt f out fb).next.generator.state.velocity = 0 →
        (m.stepShutdown sqrt f out fb).next.generator.phase = .idle) := by
  rw [stepShutdown_generator hfb]
  dsimp only
  rw [if_neg hidle, if_pos (.inr hv), TrapezoidGenerator.stop_moving ha hv,
    TrapezoidGenerator.step_velocity sqrt hdt rfl]
  exact TrapezoidGenerator.stepVelocity_to_rest hdt rfl

theorem shutdownRun_cons (fbs : List MotionFeedback) :
    shutdownRun sqrt f (m, out) (fb :: fbs) =
      shutdownRun sqrt f ((m.stepShutdown sqrt f out fb).next,
        (m.stepShutdown sqrt f out fb).outputs) fbs := rfl

variable (sqrt f out) in
/-- The constants of the mode, after a shutdown cycle. -/
theorem stepShutdown_frame (hfb : fb.Enabled) :
    (m.stepShutdown sqrt f out fb).next.accel = m.accel ∧
      (m.stepShutdown sqrt f out fb).next.dt = m.dt := by
  rw [stepShutdown_generator hfb]
  exact ⟨rfl, rfl⟩

/-- An idle generator stays idle. -/
theorem idle_shutdownRun {fbs : List MotionFeedback} (hfbs : ∀ fb ∈ fbs, fb.Enabled)
    (hidle : m.generator.phase = .idle) :
    (shutdownRun sqrt f (m, out) fbs).1.generator.phase = .idle := by
  induction fbs generalizing m out with
  | nil => exact hidle
  | cons fb fbs ih =>
      rw [shutdownRun_cons]
      refine ih (fun x hx => hfbs x (List.mem_cons_of_mem fb hx)) ?_
      rw [stepShutdown_generator (hfbs fb List.mem_cons_self)]
      simp [hidle]

/-- A generator whose speed is at most `n` ramps is idle after `n` shutdown cycles. -/
theorem idle_of_ramped {fbs : List MotionFeedback} (hfbs : ∀ fb ∈ fbs, fb.Enabled)
    (ha : 0 < m.accel) (hdt : 0 < m.dt) {n : Nat} (hn : n ≤ fbs.length)
    (hv : m.generator.state.velocity ≠ 0)
    (hspeed : |m.generator.state.velocity| ≤ n * (m.accel * m.dt)) :
    (shutdownRun sqrt f (m, out) fbs).1.generator.phase = .idle := by
  induction n generalizing m out fbs with
  | zero =>
      -- No ramp at all leaves no speed.
      rw [Nat.cast_zero, zero_mul] at hspeed
      exact absurd (abs_nonpos_iff.mp hspeed) hv
  | succ n ih =>
      cases fbs with
      | nil => simp at hn
      | cons fb fbs =>
          have hfb := hfbs fb List.mem_cons_self
          have hrest : ∀ x ∈ fbs, x.Enabled := fun x hx => hfbs x (List.mem_cons_of_mem fb hx)
          rw [shutdownRun_cons]
          by_cases hidle : m.generator.phase = .idle
          · refine idle_shutdownRun hrest ?_
            rw [stepShutdown_generator hfb]
            simp [hidle]
          obtain ⟨hspeed', hzero⟩ := stepShutdown_moving sqrt f out hfb ha hdt hv hidle
          by_cases hstopped : (m.stepShutdown sqrt f out fb).next.generator.state.velocity = 0
          · exact idle_shutdownRun hrest (hzero hstopped)
          obtain ⟨haccel, hdt'⟩ := stepShutdown_frame sqrt f out (m := m) hfb
          refine ih hrest (by rwa [haccel]) (by rwa [hdt']) (by simpa using hn) hstopped ?_
          rw [haccel, hdt', hspeed']
          push_cast at hspeed
          have hramp : 0 < m.accel * m.dt := mul_pos ha hdt
          exact max_le (by positivity) (by linarith)

/-- A generator without speed is idle after two shutdown cycles: a velocity run from rest takes
one cycle up and one down. -/
theorem idle_of_resting {fbs : List MotionFeedback} (hfbs : ∀ fb ∈ fbs, fb.Enabled)
    (ha : 0 < m.accel) (hdt : 0 < m.dt) (hn : 2 ≤ fbs.length)
    (hramp : m.generator.phase ≠ .idle → m.generator.accel.1 = m.accel)
    (hv : m.generator.state.velocity = 0) :
    (shutdownRun sqrt f (m, out) fbs).1.generator.phase = .idle := by
  cases fbs with
  | nil => simp at hn
  | cons fb fbs =>
      have hfb := hfbs fb List.mem_cons_self
      have hrest : ∀ x ∈ fbs, x.Enabled := fun x hx => hfbs x (List.mem_cons_of_mem fb hx)
      have hstep : (m.stepShutdown sqrt f out fb).next = _ := stepShutdown_generator hfb
      rw [shutdownRun_cons]
      by_cases hidle : m.generator.phase = .idle
      · refine idle_shutdownRun hrest ?_
        rw [hstep]
        simp [hidle]
      by_cases hp : m.generator.phase = .velocity
      swap
      · -- A positioning generator without speed holds at once.
        refine idle_shutdownRun hrest ?_
        have hstop := TrapezoidGenerator.stop_resting (g := m.generator) ha hv
        rw [hstep]
        dsimp only
        rw [if_neg hidle, if_pos (.inl hp), TrapezoidGenerator.step_idle sqrt m.dt hstop]
        exact hstop
      have hnext : (m.stepShutdown sqrt f out fb).next
          = { m with generator := m.generator.stepVelocity m.dt } := by
        rw [hstep, if_neg hidle, if_neg (by simp [hp, hv]),
          TrapezoidGenerator.step_velocity sqrt hdt hp]
      rw [hnext]
      obtain ⟨hspeed, htarget⟩ :=
        TrapezoidGenerator.stepVelocity_from_rest (g := m.generator) hdt hv
      rw [hramp hidle] at hspeed
      by_cases hstopped : (m.generator.stepVelocity m.dt).state.velocity = 0
      · -- Nothing to ramp to: the run was to rest.
        exact idle_shutdownRun hrest
          ((TrapezoidGenerator.stepVelocity_to_rest hdt (htarget hstopped)).2 hstopped)
      · exact idle_of_ramped (m := { m with generator := m.generator.stepVelocity m.dt })
          (n := 1) hrest ha hdt (by simpa using hn) hstopped (by simpa using hspeed)

end

end CyclicPositionMode

/-! ### The window -/

namespace ServoConfig

variable (c : ServoConfig)

/-- A cyclic mode of the configuration: its constants, the ramp of a generator that is not idle,
and a velocity up to the ceiling. -/
structure Runs (m : CyclicPositionMode ℚ) : Prop where
  dt : m.dt = c.cycleS
  accel : m.accel = c.accelCps2
  ramp : m.generator.phase ≠ .idle → m.generator.accel.1 = c.accelCps2
  velocity : |m.generator.state.velocity| ≤ c.vmaxCps

/-- The mode of the configuration on a velocity run at the ceiling. -/
def atCeiling (ha : 0 < c.accelCps2) : CyclicPositionMode ℚ where
  dt := c.cycleS
  accel := c.accelCps2
  generator :=
    { state := ⟨0, c.vmaxCps⟩, vMax := ⟨1, one_pos⟩, accel := ⟨c.accelCps2, ha⟩
      vTarget := c.vmaxCps, goal := 0, phase := .velocity }

/-- The shutdown cycles of a velocity `v`. -/
def rampCycles (v : ℚ) : Nat := ⌈|v| / (c.accelCps2 * c.cycleS)⌉₊

/-- The shutdown ramp fits the stopping window: the cycles of the ramp are at most those of the
window, and after the window on an enabled drive the generator is idle. -/
def ShutdownFits : Prop :=
  ∀ m : CyclicPositionMode ℚ, c.Runs m →
    c.rampCycles m.generator.state.velocity ≤ c.teardownWindowCycles ∧
    ∀ (sqrt : ℚ → ℚ) (f : Fields) (out : Outputs) (fbs : List MotionFeedback),
      fbs.length = c.teardownWindowCycles → (∀ fb ∈ fbs, fb.Enabled) →
      (CyclicPositionMode.shutdownRun sqrt f (m, out) fbs).1.generator.phase = .idle

/-- The ramp from the velocity ceiling is not longer than the cap of `shutdown_cycles`, or than
the controlled-stop window of a configured quick-stop. -/
def RampWithinCap : Prop :=
  c.vmaxCps * c.targetLoopRateHz / c.accelCps2 ≤ 60000 ∨
    (0 < c.quickStopDecel ∧
      c.vmaxCps * c.targetLoopRateHz / c.accelCps2 ≤ c.controlledStopCycles)

instance : Decidable c.RampWithinCap := inferInstanceAs (Decidable (_ ∨ _))

section
variable {c} (hcfg : c.validate = .ok ()) (hmode : c.motionMode = .cyclicPosition)
  (ha : 0 < c.accelCps2)
include hcfg

theorem cycleS_pos : 0 < c.cycleS := by
  obtain ⟨hrate, -⟩ := rate_of_validate hcfg
  have : 0 < c.targetLoopRateHz := Nat.pos_of_ne_zero hrate
  unfold cycleS
  positivity

/-- The window of a controlled stop has a `uint32_t` value. -/
theorem controlledStopCycles_lt : max c.controlledStopCycles 2 < 2 ^ 32 := by
  obtain ⟨-, hrate⟩ := rate_of_validate hcfg
  have hms : c.controlledStopWindowMs.toNat < 2 ^ 32 := c.controlledStopWindowMs.toNat_lt
  have hprod : c.controlledStopWindowMs.toNat * c.targetLoopRateHz
      ≤ c.controlledStopWindowMs.toNat * 1000 := Nat.mul_le_mul_left _ hrate
  unfold controlledStopCycles
  omega

/-- The ramp from a velocity in cycles, as a multiple of the ramp of one cycle. -/
theorem div_ramp (v : ℚ) : v / (c.accelCps2 * c.cycleS) = v * c.targetLoopRateHz / c.accelCps2 := by
  obtain ⟨hrate, -⟩ := rate_of_validate hcfg
  have hne : (c.targetLoopRateHz : ℚ) ≠ 0 := Nat.cast_ne_zero.mpr hrate
  unfold cycleS
  field_simp

include hmode ha

/-- What the cyclic mode asks for: the ramp from the ceiling up to the cap, with a margin. -/
theorem modeCycles_eq : c.modeCycles =
    ⌊min (c.vmaxCps * c.targetLoopRateHz / c.accelCps2 + 20) 60000⌋.toNat := by
  unfold modeCycles
  rw [hmode]
  dsimp only
  rw [CyclicPositionMode.shutdownCycles, if_pos ha, div_div, div_ramp hcfg]

/-- The mode's own cycles cover the ramp from the ceiling exactly up to the cap. -/
theorem vmax_le_modeCycles_iff (hv : 0 ≤ c.vmaxCps) :
    c.vmaxCps * c.targetLoopRateHz / c.accelCps2 ≤ c.modeCycles ↔
      c.vmaxCps * c.targetLoopRateHz / c.accelCps2 ≤ 60000 := by
  have hr : 0 ≤ c.vmaxCps * c.targetLoopRateHz / c.accelCps2 := by positivity
  rw [modeCycles_eq hcfg hmode ha]
  generalize c.vmaxCps * c.targetLoopRateHz / c.accelCps2 = r at hr ⊢
  have hfloor : 0 ≤ ⌊min (r + 20) 60000⌋ :=
    Int.floor_nonneg.mpr (le_min (by linarith) (by norm_num))
  have hcast : ((⌊min (r + 20) 60000⌋.toNat : Nat) : ℚ) = (⌊min (r + 20) 60000⌋ : ℚ) := by
    rw [← Int.cast_natCast, Int.toNat_of_nonneg hfloor]
  rw [hcast]
  constructor
  · intro h
    exact h.trans ((Int.floor_le _).trans (min_le_right _ _))
  · intro h
    rcases le_total (r + 20) 60000 with hcap | hcap
    · -- The margin is more than what the rounding takes.
      rw [min_eq_left hcap]
      linarith [Int.lt_floor_add_one (r + 20)]
    · rw [min_eq_right hcap]
      exact h.trans (by norm_num)

/-- The ramp from the ceiling fits the window exactly when it is within the cap. -/
theorem vmax_fits_iff (hv : 0 ≤ c.vmaxCps) :
    c.vmaxCps * c.targetLoopRateHz / c.accelCps2 ≤ c.teardownWindowCycles ↔
      c.RampWithinCap := by
  have hmodeiff := vmax_le_modeCycles_iff hcfg hmode ha hv
  unfold RampWithinCap teardownWindowCycles
  by_cases hqs : c.quickStopDecel = 0
  · rw [if_pos hqs, Nat.cast_max, le_max_iff, hmodeiff]
    have hnone : ¬ 0 < c.quickStopDecel := by simp [hqs]
    simp only [hnone, false_and, or_false, Nat.cast_ofNat, or_iff_right_iff_imp]
    intro h
    linarith
  · have hpos : 0 < c.quickStopDecel := by
      rw [UInt32.lt_iff_toNat_lt]
      exact Nat.pos_of_ne_zero fun h => hqs (UInt32.toNat_inj.mp h)
    rw [if_neg hqs, Nat.mod_eq_of_lt (controlledStopCycles_lt hcfg), Nat.cast_max, Nat.cast_max,
      le_max_iff, le_max_iff, hmodeiff]
    simp only [hpos, true_and, Nat.cast_ofNat]
    constructor
    · rintro ((h | h) | h)
      · exact .inr h
      · exact .inl (by linarith)
      · exact .inl h
    · rintro (h | h)
      · exact .inr h
      · exact .inl (.inl h)

omit hmode in
/-- A velocity up to the ceiling fits when that of the ceiling does. -/
theorem rampCycles_le {v : ℚ} {n : Nat} (hv : |v| ≤ c.vmaxCps)
    (hn : c.vmaxCps * c.targetLoopRateHz / c.accelCps2 ≤ n) : c.rampCycles v ≤ n := by
  unfold rampCycles
  rw [Nat.ceil_le, div_ramp hcfg]
  refine le_trans ?_ hn
  gcongr

omit hmode ha in
/-- The window has two cycles at least. -/
theorem two_le_teardownWindowCycles : 2 ≤ c.teardownWindowCycles := by
  unfold teardownWindowCycles
  split_ifs
  · exact le_max_left _ _
  · rw [Nat.mod_eq_of_lt (controlledStopCycles_lt hcfg)]
    exact (le_max_right _ _).trans (le_max_left _ _)

end

end ServoConfig

/-! ### The ramp of a run -/

namespace MotionMode

/-- A property of the mode that a reset establishes and every other call of the controller
keeps. -/
structure Kept (P : MotionMode ℚ → Prop) : Prop where
  reset : ∀ m : MotionMode ℚ, P m.reset
  tracked : ∀ {m : MotionMode ℚ}, P m → ∀ x, P (m.tracked x)
  goTo : ∀ {m : MotionMode ℚ}, P m → ∀ counts v, P (m.goTo counts v)
  setVelocity : ∀ {m : MotionMode ℚ}, P m → ∀ v, P (m.setVelocity v)
  halt : ∀ {m : MotionMode ℚ}, P m → P m.halt
  step : ∀ {m : MotionMode ℚ}, P m → ∀ sqrt f inp out fb, P (m.step sqrt f inp out fb).next
  stepShutdown : ∀ {m : MotionMode ℚ}, P m →
    ∀ sqrt f inp out fb, P (m.stepShutdown sqrt f inp out fb).next

/-- A generator that is not idle ramps at the acceleration of its mode. -/
def RampsAtAccel : MotionMode ℚ → Prop
  | .profile _ => True
  | .cyclic m => 0 < m.accel → m.generator.phase ≠ .idle → m.generator.accel.1 = m.accel

variable {m : MotionMode ℚ}

theorem rampsAtAccel_reset (m : MotionMode ℚ) : m.reset.RampsAtAccel := by
  cases m with
  | profile m => trivial
  | cyclic m => exact fun _ h => absurd rfl h

theorem rampsAtAccel_tracked (h : m.RampsAtAccel) (x : Int32) : (m.tracked x).RampsAtAccel := by
  cases m with
  | profile m => trivial
  | cyclic m => exact fun _ h => absurd rfl h

theorem rampsAtAccel_goTo (h : m.RampsAtAccel) (counts : Int32) (v : UInt32) :
    (m.goTo counts v).RampsAtAccel := by
  cases m with
  | profile m => trivial
  | cyclic m =>
      simp only [goTo, CyclicPositionMode.goTo_eq, TrapezoidGenerator.setGoal]
      split_ifs
      · exact fun _ _ => rfl
      · exact h

theorem rampsAtAccel_setVelocity (h : m.RampsAtAccel) (v : Int32) :
    (m.setVelocity v).RampsAtAccel := by
  cases m with
  | profile m => trivial
  | cyclic m =>
      simp only [setVelocity, CyclicPositionMode.setVelocity_eq, TrapezoidGenerator.setVelocity]
      split_ifs
      · exact fun _ _ => rfl
      · exact fun _ _ => rfl
      · exact h

theorem rampsAtAccel_halt (m : MotionMode ℚ) : m.halt.RampsAtAccel := by
  cases m with
  | profile m => trivial
  | cyclic m =>
      intro ha hidle
      have ha : 0 < m.accel := ha
      show (m.generator.stop m.accel).accel.1 = m.accel
      by_cases hv : m.generator.state.velocity = 0
      · exact absurd (TrapezoidGenerator.stop_resting ha hv) hidle
      · rw [TrapezoidGenerator.stop_moving ha hv]

/-- A step keeps the limits of the generator, and starts nothing. -/
theorem generator_step_frame (sqrt : ℚ → ℚ) (dt : ℚ) (g : TrapezoidGenerator ℚ) :
    (g.step sqrt dt).accel = g.accel ∧
      ((g.step sqrt dt).phase ≠ .idle → g.phase ≠ .idle) := by
  unfold TrapezoidGenerator.step
  split_ifs with hidle hp
  · exact ⟨rfl, id⟩
  · unfold TrapezoidGenerator.stepPositioning
    dsimp only
    split_ifs <;> exact ⟨rfl, fun _ h => hidle (.inl h)⟩
  · unfold TrapezoidGenerator.stepVelocity
    dsimp only
    split_ifs <;> exact ⟨rfl, fun _ h => hidle (.inl h)⟩

theorem rampsAtAccel_step (h : m.RampsAtAccel) (sqrt : ℚ → ℚ) (f : Fields) (inp : CycleInput)
    (out : Outputs) (fb : MotionFeedback) : (m.step sqrt f inp out fb).next.RampsAtAccel := by
  cases m with
  | profile m => trivial
  | cyclic m =>
      intro ha hidle
      obtain ⟨haccel, hphase⟩ := generator_step_frame sqrt m.dt m.generator
      show (m.generator.step sqrt m.dt).accel.1 = m.accel
      rw [haccel]
      exact h ha (hphase hidle)

theorem rampsAtAccel_stepShutdown (h : m.RampsAtAccel) (sqrt : ℚ → ℚ) (f : Fields)
    (inp : CycleInput) (out : Outputs) (fb : MotionFeedback) :
    (m.stepShutdown sqrt f inp out fb).next.RampsAtAccel := by
  cases m with
  | profile m =>
      simp only [stepShutdown]
      trivial
  | cyclic m =>
      have hstep : ∀ q : CyclicPositionMode ℚ, (cyclic q).RampsAtAccel →
          (cyclic { q with generator := q.generator.step sqrt q.dt }).RampsAtAccel :=
        fun q hq => rampsAtAccel_step hq sqrt f inp out fb
      simp only [stepShutdown, CyclicPositionMode.stepShutdown, StepResult.map_next]
      split_ifs
      · exact fun _ h => absurd rfl h
      · exact hstep { m with generator := m.generator.stop m.accel } (rampsAtAccel_halt (cyclic m))
      · exact hstep m h
      · exact h

theorem rampsAtAccel_kept : Kept RampsAtAccel where
  reset := rampsAtAccel_reset
  tracked := rampsAtAccel_tracked
  goTo := rampsAtAccel_goTo
  setVelocity := rampsAtAccel_setVelocity
  halt := fun _ => rampsAtAccel_halt _
  step := rampsAtAccel_step
  stepShutdown := rampsAtAccel_stepShutdown

section
open Controller
variable {P : MotionMode ℚ → Prop} (hP : Kept P) {p : RtParams} {s : Controller} {t : Tick}
include hP

/-- A kept property holds after the batch is routed. -/
theorem Kept.routed {inp : CycleInput} {b : CommandBatch} (h : P s.motion) :
    P (s.routedMotion inp b) := by
  have hstopped : P (stoppedMotion b s.motion) := by
    unfold stoppedMotion
    split_ifs
    · exact hP.halt h
    · exact h
  have htargeted : P (targetedMotion inp b (stoppedMotion b s.motion) s.activeGeneration) := by
    unfold targetedMotion
    cases b.setTarget with
    | none => exact hstopped
    | some u =>
        dsimp only
        split_ifs
        · exact hP.goTo hstopped _ _
        · exact hstopped
  unfold routedMotion velocityMotion
  cases b.setVelocity with
  | none => exact htargeted
  | some v => exact hP.setVelocity htargeted v

/-- A kept property holds after every cycle. -/
theorem Kept.cycle (h : P s.motion) : P (cycle p s t).motion := by
  cases hstop : t.inp.stopping with
  | true =>
      obtain ⟨te, ph, ar, w, out, sr, -, hc⟩ := cycle_stopping (p := p) (s := s) hstop
      rw [hc]
      exact hP.stepShutdown h _ _ _ _ _
  | false =>
      obtain ⟨te, ph, ar, w, out, -, hc⟩ := cycle_steady (p := p) (s := s) hstop
      have hrouted : P ((s.sample t.inp).routedMotion t.inp (drain t.drained)) := hP.routed h
      have hstep : P (lifecycleStep p s t.inp (drain t.drained)).1.motion := by
        cases stepLifecycle_outcome p (s.sample t.inp) t.inp (drain t.drained) with
        | kept hmotion => rwa [hmotion]
        | reset hmotion => rw [hmotion]; exact hP.reset _
        | faulted hmotion => rw [hmotion]; exact hP.reset _
        | stepped q hq hmotion =>
            rw [hmotion]
            exact hP.step (hq ▸ hrouted) _ _ _ _ _
      rw [hc]
      dsimp only
      unfold settledMotion
      split_ifs
      · exact hP.tracked hstep _
      · exact hstep

/-- A kept property holds when the loop starts. -/
theorem Kept.spawned (bringup : List CycleInput) : P (spawned p s bringup).motion := by
  refine spawned_induction (P := fun s : Controller => P s.motion) (hP.reset _) ?_
  intro s inp h
  rw [stageBringupOutputs_motion]
  exact hP.tracked h _

end

end MotionMode

open Controller

/-- In every run of the mode that the configuration selects, the cyclic mode has the constants of
the configuration, and a generator that is not idle ramps at its acceleration. -/
theorem runs_of_run (c : ServoConfig) (ha : 0 < c.accelCps2) (p : RtParams) (s₀ : Controller)
    (hmode : s₀.motion = c.selectMotionMode) (bringup : List CycleInput) (ticks : List Tick)
    {m : CyclicPositionMode ℚ}
    (hm : (Lib.runFrom (cycle p) (spawned p s₀ bringup) ticks).motion = .cyclic m)
    (hv : |m.generator.state.velocity| ≤ c.vmaxCps) : c.Runs m := by
  have hramps : (Lib.runFrom (cycle p) (spawned p s₀ bringup) ticks).motion.RampsAtAccel :=
    Lib.runFrom_induction (I := fun s : Controller => s.motion.RampsAtAccel)
      (MotionMode.rampsAtAccel_kept.spawned bringup) fun _ _ => MotionMode.rampsAtAccel_kept.cycle
  have hconst : (Lib.runFrom (cycle p) (spawned p s₀ bringup) ticks).motion.constants
      = c.selectMotionMode.constants := by
    refine Lib.runFrom_induction (I := fun s : Controller =>
      s.motion.constants = c.selectMotionMode.constants) ?_ fun s t h => constants_cycle.trans h
    rw [← hmode]
    exact constants_spawned bringup
  rw [hm] at hramps hconst
  unfold ServoConfig.selectMotionMode at hconst
  cases hkind : c.motionMode with
  | profile =>
      rw [hkind] at hconst
      cases hconst
  | cyclicPosition =>
      rw [hkind] at hconst
      have hdt : m.dt = c.cycleS ∧ m.accel = c.accelCps2 := by
        simpa [MotionMode.constants] using hconst
      exact ⟨hdt.1, hdt.2, fun hidle => (hramps (hdt.2 ▸ ha) hidle).trans hdt.2, hv⟩

/-! ### The law -/

/-- The shutdown ramp of the cyclic mode fits its window for every velocity up to the ceiling if
and only if the ramp from the ceiling is within the cap. -/
theorem shutdown_ramp_fits_iff (c : ServoConfig) (hcfg : c.validate = .ok ())
    (hmode : c.motionMode = .cyclicPosition) (ha : 0 < c.accelCps2) :
    c.ShutdownFits ↔ c.RampWithinCap := by
  have hdt := ServoConfig.cycleS_pos hcfg
  constructor
  · intro h
    rcases le_or_gt 0 c.vmaxCps with hv | hv
    · -- A generator that runs at the ceiling.
      have hruns := h (c.atCeiling ha) ⟨rfl, rfl, fun _ => rfl, (abs_of_nonneg hv).le⟩
      have hvelocity : (c.atCeiling ha).generator.state.velocity = c.vmaxCps := rfl
      have hceil := Nat.ceil_le.mp hruns.1
      rw [ServoConfig.div_ramp hcfg, hvelocity, abs_of_nonneg hv] at hceil
      exact (ServoConfig.vmax_fits_iff hcfg hmode ha hv).mp hceil
    · have hneg : c.vmaxCps * c.targetLoopRateHz / c.accelCps2 ≤ 0 :=
        div_nonpos_of_nonpos_of_nonneg
          (mul_nonpos_of_nonpos_of_nonneg hv.le (Nat.cast_nonneg _)) ha.le
      exact .inl (hneg.trans (by norm_num))
  · intro h m hm
    have hv : 0 ≤ c.vmaxCps := (abs_nonneg _).trans hm.velocity
    have hfits := (ServoConfig.vmax_fits_iff hcfg hmode ha hv).mpr h
    have hcycles := ServoConfig.rampCycles_le hcfg ha hm.velocity hfits
    refine ⟨hcycles, fun sqrt f out fbs hlength henabled => ?_⟩
    have ham : 0 < m.accel := hm.accel ▸ ha
    have hdtm : 0 < m.dt := hm.dt ▸ hdt
    by_cases hmoves : m.generator.state.velocity = 0
    · refine CyclicPositionMode.idle_of_resting henabled ham hdtm ?_ ?_ hmoves
      · rw [hlength]
        exact ServoConfig.two_le_teardownWindowCycles hcfg
      · intro hidle
        rw [hm.ramp hidle, hm.accel]
    · refine CyclicPositionMode.idle_of_ramped henabled ham hdtm (hlength ▸ hcycles) hmoves ?_
      rw [hm.accel, hm.dt, ← div_le_iff₀ (mul_pos ha hdt)]
      exact Nat.le_ceil _

/-- A cyclic drive with 10000 counts per revolution, limited to 3000 rpm, that reaches them in
one second. -/
def cyclicConfig : ServoConfig :=
  { ifname := "eth0", useDistributedClocks := true, maxMotorSpeedRpm := .fin 3000
    motorRatedCurrentAmps := .fin 5, countsPerRev := .fin 10000 }

/-- A ramp of one second fits. -/
theorem shutdown_ramp_fits_second : cyclicConfig.ShutdownFits :=
  (shutdown_ramp_fits_iff cyclicConfig (by decide +kernel) rfl (by decide +kernel)).mpr
    (by decide +kernel)

/-- The same drive with a ramp of 10 rpm/s. -/
def slowConfig : ServoConfig := { cyclicConfig with maxAccelRpmPerS := .fin 10 }

/-- At 10 rpm/s the ramp from 3000 rpm takes 300 s, and the window is over after 60. -/
theorem shutdown_ramp_cut : ¬ ∀ c : ServoConfig, c.validate = .ok () →
    c.motionMode = .cyclicPosition → 0 < c.accelCps2 → c.ShutdownFits := by
  intro h
  have ha : 0 < slowConfig.accelCps2 := by decide +kernel
  have hv : 0 ≤ slowConfig.vmaxCps := by decide +kernel
  have hfits : slowConfig.rampCycles slowConfig.vmaxCps ≤ slowConfig.teardownWindowCycles :=
    (h slowConfig (by decide +kernel) rfl ha (slowConfig.atCeiling ha)
      ⟨rfl, rfl, fun _ => rfl, (abs_of_nonneg hv).le⟩).1
  exact absurd hfits (by decide +kernel)

end ViamEthercat.Servo
