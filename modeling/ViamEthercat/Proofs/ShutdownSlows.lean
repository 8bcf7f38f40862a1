import ViamEthercat.Proofs.ShutdownRamp
import ViamEthercat.Proofs.VelocityRun

/-!
# `ViamEthercat.Proofs.ShutdownSlows`: the stopping window slows the axis

`step_shutdown` of the cyclic mode stops a generator that is not idle, except a velocity run whose
velocity is exactly zero: there the stop is taken for done. But a velocity run goes through zero
when it reverses, and in that cycle it is stepped toward its target.

`shutdown_slows_iff`: along every run of the cyclic mode, each cycle of the stopping window on an
enabled drive takes one ramp off the speed, and disables the drive as soon as the generator is
idle, if and only if no such cycle finds a velocity run at zero.

`Settles` is the invariant of every run: an idle generator has no speed, and a run to rest that has
no speed is idle.
-/

set_option autoImplicit false

namespace ViamEthercat.Servo

open Lib

namespace TrapezoidGenerator

/-- An idle generator is at rest, and a velocity run is not a run to rest that is at rest. -/
structure Settles (g : TrapezoidGenerator ℚ) : Prop where
  idle : g.phase = .idle → g.state.velocity = 0
  run : g.phase = .velocity → g.state.velocity = 0 → g.vTarget ≠ 0

variable {g : TrapezoidGenerator ℚ}

theorem settles_reseed (g : TrapezoidGenerator ℚ) (p : Int32) : (g.reseed p).Settles where
  idle := fun _ => rfl
  run := by simp [reseed]

theorem settles_setGoal (h : g.Settles) (goal : Int32) (vMax accel : ℚ) :
    (g.setGoal goal vMax accel).1.Settles := by
  unfold setGoal
  split_ifs
  · exact ⟨by simp, by simp⟩
  · exact h

/-- What a velocity run does is settled from its start. -/
theorem Ramping.settles {vTarget accel : ℚ} (h : g.Ramping vTarget accel) : g.Settles where
  idle := fun hidle => (h.idle.mp hidle).2
  run := fun hrun hv htarget => by
    have hidle := h.idle.mpr ⟨h.target ▸ htarget, hv⟩
    rw [hrun] at hidle
    cases hidle

theorem settles_setVelocity (h : g.Settles) (v accel : ℚ) : (g.setVelocity v accel).1.Settles := by
  by_cases ha : 0 < accel
  · exact (ramping_setVelocity g v ha).1.settles
  · rwa [setVelocity_refused ha]

theorem settles_stop (h : g.Settles) (accel : ℚ) : (g.stop accel).Settles := by
  unfold stop
  dsimp only
  split_ifs <;> exact settles_setVelocity h 0 _

theorem settles_step (h : g.Settles) (sqrt : ℚ → ℚ) (dt : ℚ) : (g.step sqrt dt).Settles := by
  by_cases hheld : g.phase = .idle ∨ ¬ 0 < dt
  · rwa [step, if_pos hheld]
  obtain ⟨hidle, hdt⟩ := not_or.mp hheld
  by_cases hp : g.phase = .positioning
  · rw [step, if_neg hheld, if_pos hp, stepPositioning]
    dsimp only
    split_ifs with hgoal
    · exact ⟨fun _ => congrArg Wpilib.State.velocity hgoal, by simp⟩
    · exact ⟨by simp [hp], by simp [hp]⟩
  · have hrun : g.Ramping g.vTarget g.accel.1 := by
      refine ⟨rfl, rfl, hp, ⟨fun h => absurd h hidle, ?_⟩, fun h => absurd h hidle⟩
      rintro ⟨htarget, hv⟩
      cases hphase : g.phase with
      | idle => rfl
      | positioning => exact absurd hphase hp
      | velocity => exact absurd htarget (h.run hphase hv)
    exact (hrun.step sqrt (not_not.mp hdt)).1.settles

/-- A stop takes one ramp off the speed, in its cycle already. -/
theorem stop_step (sqrt : ℚ → ℚ) {a dt : ℚ} (ha : 0 < a) (hdt : 0 < dt) :
    |((g.stop a).step sqrt dt).state.velocity| = max 0 (|g.state.velocity| - a * dt) ∧
      0 ≤ g.state.velocity * ((g.stop a).step sqrt dt).state.velocity := by
  have hstop : g.stop a = (g.setVelocity 0 a).1 := by
    unfold stop
    dsimp only
    rw [if_pos (setVelocity_accepted ha)]
  have hdecay := decay_nonneg (h := a * dt) (w := |g.state.velocity|)
  obtain ⟨hramping, hstate⟩ := ramping_setVelocity g 0 ha
  rw [hstop]
  obtain hneg | hpos := lt_or_ge g.state.velocity 0
  · have hv : (g.setVelocity 0 a).1.state.velocity = -1 * |g.state.velocity| := by
      rw [hstate, abs_of_neg hneg]
      ring
    have hstep := hramping.stopping_step sqrt hdt (.inr rfl) (abs_nonneg _) hv
    rw [hstep, neg_one_mul, abs_neg, abs_of_nonneg hdecay]
    exact ⟨rfl, mul_nonneg_of_nonpos_of_nonpos hneg.le (neg_nonpos.mpr hdecay)⟩
  · have hv : (g.setVelocity 0 a).1.state.velocity = 1 * |g.state.velocity| := by
      rw [hstate, abs_of_nonneg hpos, one_mul]
    have hstep := hramping.stopping_step sqrt hdt (.inl rfl) (abs_nonneg _) hv
    rw [hstep, one_mul, abs_of_nonneg hdecay]
    exact ⟨rfl, mul_nonneg hpos hdecay⟩

end TrapezoidGenerator

namespace MotionMode

/-- The generator of the cyclic mode is settled. -/
def GeneratorSettles : MotionMode ℚ → Prop
  | .profile _ => True
  | .cyclic m => m.generator.Settles

open TrapezoidGenerator in
theorem generatorSettles_kept : Kept GeneratorSettles where
  reset := fun m => by
    cases m with
    | profile m => trivial
    | cyclic m => exact settles_reseed _ _
  tracked := fun {m} _ x => by
    cases m with
    | profile m => trivial
    | cyclic m => exact settles_reseed _ _
  goTo := fun {m} h counts v => by
    cases m with
    | profile m => trivial
    | cyclic m =>
        simp only [goTo, CyclicPositionMode.goTo_eq]
        exact settles_setGoal h _ _ _
  setVelocity := fun {m} h v => by
    cases m with
    | profile m => trivial
    | cyclic m =>
        simp only [setVelocity, CyclicPositionMode.setVelocity_eq]
        exact settles_setVelocity h _ _
  halt := fun {m} h => by
    cases m with
    | profile m => trivial
    | cyclic m => exact settles_stop h _
  step := fun {m} h sqrt f inp out fb => by
    cases m with
    | profile m => trivial
    | cyclic m => exact settles_step h sqrt m.dt
  stepShutdown := fun {m} h sqrt f inp out fb => by
    cases m with
    | profile m =>
        simp only [stepShutdown]
        trivial
    | cyclic m =>
        simp only [stepShutdown, CyclicPositionMode.stepShutdown, StepResult.map_next]
        split_ifs
        · exact settles_reseed _ _
        · exact settles_step (settles_stop h _) sqrt m.dt
        · exact settles_step h sqrt m.dt
        · exact h

end MotionMode

open Controller

section
variable (p : RtParams) (s : Controller) (t : Tick)

/-- A cycle of the stopping window in which the drive reports that it is enabled, without a
fault. -/
def StopsEnabled : Prop :=
  t.inp.stopping = true ∧ t.inp.status.operationEnabled = true ∧ t.inp.status.fault = false

/-- The speed falls by one ramp, without a change of sign. -/
def OneRamp (m m' : CyclicPositionMode ℚ) : Prop :=
  |m'.generator.state.velocity| = max 0 (|m.generator.state.velocity| - m.accel * m.dt) ∧
    0 ≤ m.generator.state.velocity * m'.generator.state.velocity

/-- The image disables the drive if and only if the generator was at rest, and then holds its
position. -/
def DisablesAtRest (f : Fields) (m m' : CyclicPositionMode ℚ) (out : Outputs) : Prop :=
  (out.controlword = ControlWord.disableVoltage ↔ m.generator.phase = .idle) ∧
    (m.generator.phase = .idle →
      m' = m ∧ (f.targetPosition = true → out.targetPosition = m.generator.position))

/-- From one mode to the next, with the image: the axis is slowed. -/
def SlowsTo (f : Fields) (out : Outputs) : MotionMode ℚ → MotionMode ℚ → Prop
  | .profile _, _ => True
  | .cyclic _, .profile _ => False
  | .cyclic m, .cyclic m' => OneRamp m m' ∧ DisablesAtRest f m m' out

/-- A cycle of the stopping window on an enabled drive slows the axis. -/
def ShutdownSlows : Prop :=
  StopsEnabled t → SlowsTo p.fields (cycle p s t).outputs s.motion (cycle p s t).motion

/-- A velocity run whose velocity is exactly zero. -/
def AtReversal : MotionMode ℚ → Prop
  | .profile _ => False
  | .cyclic m => m.generator.phase = .velocity ∧ m.generator.state.velocity = 0

/-- Such a cycle does not find a velocity run at zero. -/
def NotAtReversal : Prop := StopsEnabled t → ¬ AtReversal s.motion

instance : Decidable (StopsEnabled t) := inferInstanceAs (Decidable (_ ∧ _))

instance (m m' : CyclicPositionMode ℚ) : Decidable (OneRamp m m') :=
  inferInstanceAs (Decidable (_ ∧ _))

instance (f : Fields) (m m' : CyclicPositionMode ℚ) (out : Outputs) :
    Decidable (DisablesAtRest f m m' out) := inferInstanceAs (Decidable (_ ∧ _))

instance (f : Fields) (out : Outputs) : (m m' : MotionMode ℚ) → Decidable (SlowsTo f out m m')
  | .profile _, _ => isTrue trivial
  | .cyclic _, .profile _ => isFalse id
  | .cyclic _, .cyclic _ => inferInstanceAs (Decidable (_ ∧ _))

instance : (m : MotionMode ℚ) → Decidable (AtReversal m)
  | .profile _ => isFalse id
  | .cyclic _ => inferInstanceAs (Decidable (_ ∧ _))

instance : Decidable (ShutdownSlows p s t) := inferInstanceAs (Decidable (_ → _))

instance : Decidable (NotAtReversal s t) := inferInstanceAs (Decidable (_ → _))

end

section
variable {p : RtParams} {s : Controller} {t : Tick}

/-- What a cycle of the stopping window writes. -/
theorem cycle_outputs_stopping (h : t.inp.stopping = true) :
    (cycle p s t).outputs =
      (shutdownStep p s t.inp).outputs.storeControlword (shutdownStep p s t.inp).controlword := by
  simp only [cycle, h, if_true, stepStopping]
  rfl

/-- An idle generator is held, and the drive is disabled. -/
theorem stepShutdown_idle (sqrt : ℚ → ℚ) (f : Fields) {m : CyclicPositionMode ℚ} (out : Outputs)
    {fb : MotionFeedback} (hfb : fb.Enabled) (hidle : m.generator.phase = .idle) :
    m.stepShutdown sqrt f out fb =
      ⟨m, out.storeTargetPosition f m.generator.position, false, ControlWord.disableVoltage⟩ := by
  unfold CyclicPositionMode.stepShutdown TrapezoidGenerator.idle
  simp only [hfb.1, hfb.2, hidle, Bool.not_true, Bool.or_self, Bool.false_eq_true, if_false,
    decide_true]

/-- Any other generator keeps the drive enabled. -/
theorem stepShutdown_busy (sqrt : ℚ → ℚ) (f : Fields) {m : CyclicPositionMode ℚ} (out : Outputs)
    {fb : MotionFeedback} (hfb : fb.Enabled) (hidle : m.generator.phase ≠ .idle) :
    (m.stepShutdown sqrt f out fb).controlword = ControlWord.enableOperation := by
  unfold CyclicPositionMode.stepShutdown TrapezoidGenerator.idle
  simp only [hfb.1, hfb.2, hidle, Bool.not_true, Bool.or_self, Bool.false_eq_true, if_false,
    decide_false, Bool.not_false, if_true]

/-- The speed after a cycle is the one before less a ramp if and only if the cycle does not find
a velocity run at zero. -/
theorem stepShutdown_slows_iff (sqrt : ℚ → ℚ) (f : Fields) {m : CyclicPositionMode ℚ}
    (out : Outputs) {fb : MotionFeedback} (hfb : fb.Enabled) (ha : 0 < m.accel) (hdt : 0 < m.dt)
    (hsettles : m.generator.Settles) :
    OneRamp m (m.stepShutdown sqrt f out fb).next ↔ ¬ AtReversal (.cyclic m) := by
  have hramp : 0 < m.accel * m.dt := mul_pos ha hdt
  rw [CyclicPositionMode.stepShutdown_generator hfb]
  unfold OneRamp AtReversal
  dsimp only
  by_cases hidle : m.generator.phase = .idle
  · rw [if_pos hidle, hsettles.idle hidle, abs_zero, max_eq_left (by linarith), mul_zero]
    simp [hidle]
  rw [if_neg hidle]
  by_cases hrun : m.generator.phase = .velocity ∧ m.generator.state.velocity = 0
  · -- The run is stepped toward its target, which is not zero.
    obtain ⟨hp, hv⟩ := hrun
    rw [if_neg (by simp [hp, hv]), TrapezoidGenerator.step_velocity sqrt hdt hp]
    refine iff_of_false (fun hslows => ?_) (not_not.mpr ⟨hp, hv⟩)
    have hspeed := hslows.1
    rw [hv, abs_zero, max_eq_left (by linarith), abs_eq_zero] at hspeed
    exact hsettles.run hp hv
      ((TrapezoidGenerator.stepVelocity_from_rest hdt hv).2 hspeed)
  · rw [if_pos (not_and_or.mp hrun)]
    exact iff_of_true (TrapezoidGenerator.stop_step sqrt ha hdt) hrun

/-- One cycle, from a settled generator. -/
theorem shutdownSlows_iff {m : CyclicPositionMode ℚ} (hm : s.motion = .cyclic m)
    (ha : 0 < m.accel) (hdt : 0 < m.dt) (hsettles : m.generator.Settles) :
    ShutdownSlows p s t ↔ NotAtReversal s t := by
  by_cases hstops : StopsEnabled t
  swap
  · exact ⟨fun _ h => absurd h hstops, fun _ h => absurd h hstops⟩
  have hfb : (s.feedback p t.inp).Enabled := hstops.2
  have hslows := stepShutdown_slows_iff p.sqrt p.fields s.outputs hfb ha hdt hsettles
  have hstep : shutdownStep p s t.inp =
      (m.stepShutdown p.sqrt p.fields s.outputs (s.feedback p t.inp)).map .cyclic := by
    unfold shutdownStep
    rw [hm]
    rfl
  have hmotion := cycle_motion_stopping (p := p) (s := s) hstops.1
  have houtputs := cycle_outputs_stopping (p := p) (s := s) hstops.1
  rw [hstep] at hmotion houtputs
  have hdisables : DisablesAtRest p.fields m
      (m.stepShutdown p.sqrt p.fields s.outputs (s.feedback p t.inp)).next
      (cycle p s t).outputs := by
    rw [houtputs]
    by_cases hidle : m.generator.phase = .idle
    · rw [stepShutdown_idle _ _ _ hfb hidle]
      refine ⟨iff_of_true rfl hidle, fun _ => ⟨rfl, fun hmapped => ?_⟩⟩
      show (s.outputs.storeTargetPosition p.fields m.generator.position).targetPosition = _
      rw [Outputs.storeTargetPosition, if_pos hmapped]
    · refine ⟨iff_of_false ?_ hidle, fun h => absurd h hidle⟩
      show (m.stepShutdown _ _ _ _).controlword ≠ _
      rw [stepShutdown_busy _ _ _ hfb hidle]
      decide
  unfold ShutdownSlows NotAtReversal
  rw [hm, hmotion, ← hslows]
  exact ⟨fun h hstops => (h hstops).1, fun h hstops => ⟨h hstops, hdisables⟩⟩

end

/-- Along every run of the cyclic mode with a positive acceleration: every cycle of the stopping
window on an enabled drive slows the axis by one ramp, and disables the drive exactly from the
first that starts at rest, if and only if no such cycle finds a velocity run at zero. -/
theorem shutdown_slows_iff (p : RtParams) (s₀ : Controller) (m₀ : CyclicPositionMode ℚ)
    (hcsp : s₀.motion = .cyclic m₀) (ha : 0 < m₀.accel) (hdt : 0 < m₀.dt)
    (bringup : List CycleInput) (ticks : List Tick) :
    AllSteps (cycle p) (ShutdownSlows p) (spawned p s₀ bringup) ticks ↔
      AllSteps (cycle p) NotAtReversal (spawned p s₀ bringup) ticks := by
  refine allSteps_congr (I := fun s => s.motion.GeneratorSettles ∧
    s.motion.constants = s₀.motion.constants)
    ⟨MotionMode.generatorSettles_kept.spawned bringup, constants_spawned bringup⟩ ?_ ?_
  · rintro s t ⟨hsettles, hconst⟩ -
    exact ⟨MotionMode.generatorSettles_kept.cycle hsettles, constants_cycle.trans hconst⟩
  · rintro s t ⟨hsettles, hconst⟩
    obtain ⟨m, hm⟩ := MotionMode.cyclic_congr hconst hcsp
    rw [hm] at hsettles hconst
    rw [hcsp] at hconst
    obtain ⟨hdt', haccel⟩ : m.dt = m₀.dt ∧ m.accel = m₀.accel := by
      simpa [MotionMode.constants] using hconst
    exact shutdownSlows_iff hm (haccel ▸ ha) (hdt' ▸ hdt) hsettles

/-- A cycle of the stopping window on an enabled drive. -/
def shutdownTick : Tick :=
  { tick 0x0027#16 8 0 [] with inp := { (tick 0x0027#16 8 0 []).inp with stopping := true } }

/-- A velocity run of 2 counts/s is stopped in two cycles. -/
theorem shutdown_slows_running :
    AllSteps (cycle cyclicBench) (ShutdownSlows cyclicBench)
      (spawned cyclicBench cyclicController [])
      (climb 8 0 ++ [tick 0x0027#16 8 0 [.setVelocity 2], tick 0x0027#16 8 0 [], shutdownTick,
        shutdownTick, shutdownTick]) :=
  (shutdown_slows_iff cyclicBench cyclicController _ rfl (by norm_num) (by norm_num) [] _).mpr
    (by decide +kernel)

/-- A velocity run that is reversed is at zero after one cycle. The stopping window then starts
with a cycle that speeds up. -/
theorem shutdown_speeds_up : ¬ ∀ (p : RtParams) (s₀ : Controller) (m₀ : CyclicPositionMode ℚ),
    s₀.motion = .cyclic m₀ → 0 < m₀.accel → 0 < m₀.dt →
    ∀ (bringup : List CycleInput) (ticks : List Tick),
      AllSteps (cycle p) (ShutdownSlows p) (spawned p s₀ bringup) ticks := by
  intro h
  have hslows := h cyclicBench cyclicController _ rfl (by norm_num) (by norm_num) []
    (climb 8 0 ++ [tick 0x0027#16 8 0 [.setVelocity 1], tick 0x0027#16 8 0 [.setVelocity (-1)],
      shutdownTick])
  revert hslows
  decide +kernel

end ViamEthercat.Servo
