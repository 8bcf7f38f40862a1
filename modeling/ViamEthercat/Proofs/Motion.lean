import ViamEthercat.Ethercat.CommandQueue
import ViamEthercat.Servo.MotionMode
import Mathlib.Data.Rat.Floor

/-!
# `ViamEthercat.Proofs.Motion`: steps of the two motion modes

What the proofs about the controller use of the modes.

* The generator: `AtRestOrStopping` says that it holds or ramps to rest, and is kept by
  `stop`, by a zero velocity and by `step`. A velocity run toward a nonzero velocity goes on.
* The profile mode: `step_echoed` and `step_lagging` are its step with and without the mode
  echo.
* Either mode: `Takes` says which targets it accepts, and `constants` what it keeps for good.
-/

set_option autoImplicit false

namespace ViamEthercat.Servo

/-! ### The generator -/

section
variable {K : Type} [Field K] [LinearOrder K] [FloorRing K]

namespace TrapezoidGenerator

/-- The generator holds its position, or ramps to rest. -/
def AtRestOrStopping (g : TrapezoidGenerator K) : Prop :=
  g.phase = .idle ∨ (g.phase = .velocity ∧ g.vTarget = 0)

variable {g : TrapezoidGenerator K}

/-- A velocity is accepted when the acceleration is positive. -/
theorem setVelocity_accepted {v a : K} (ha : 0 < a) : (g.setVelocity v a).2 = true := by
  unfold setVelocity
  rw [dif_pos ha]
  dsimp only
  split_ifs <;> rfl

/-- Else the generator is left as it was. -/
theorem setVelocity_refused {v a : K} (ha : ¬ 0 < a) : g.setVelocity v a = (g, false) := by
  unfold setVelocity
  rw [dif_neg ha]

/-- A zero velocity that is accepted stops the generator, one that is refused changes
nothing. -/
theorem setVelocity_zero (a : K) :
    ((g.setVelocity 0 a).2 = true ∧ (g.setVelocity 0 a).1.AtRestOrStopping) ∨
      g.setVelocity 0 a = (g, false) := by
  unfold setVelocity AtRestOrStopping
  by_cases ha : 0 < a
  · by_cases hv : g.state.velocity = 0 <;> simp [ha, hv]
  · simp [ha]

theorem atRestOrStopping_setVelocity_zero (a : K) (h : g.AtRestOrStopping) :
    (g.setVelocity 0 a).1.AtRestOrStopping := by
  rcases g.setVelocity_zero a with ⟨-, hq⟩ | hrefused
  · exact hq
  · rw [hrefused]
    exact h

/-- `stop` always stops: its fallback acceleration is a stored one, which is positive. -/
theorem atRestOrStopping_stop (a : K) : (g.stop a).AtRestOrStopping := by
  unfold stop
  rcases g.setVelocity_zero a with ⟨hok, hq⟩ | hrefused
  · simp only [hok, if_true]
    exact hq
  · simp only [hrefused, Bool.false_eq_true, if_false]
    -- Refused at `a`, so the stop falls back to the stored acceleration.
    rcases g.setVelocity_zero g.accel.1 with ⟨-, hq⟩ | hrefused'
    · exact hq
    · have hacc : (g.setVelocity 0 g.accel.1).2 = true := setVelocity_accepted g.accel.2
      rw [hrefused'] at hacc
      cases hacc

theorem atRestOrStopping_step (sqrt : K → K) (dt : K) (h : g.AtRestOrStopping) :
    (g.step sqrt dt).AtRestOrStopping := by
  unfold step
  rcases h with hidle | ⟨hvel, hzero⟩
  · -- An idle generator is not stepped.
    simp only [hidle, true_or, if_true]
    exact .inl hidle
  · by_cases hdt : 0 < dt
    · simp only [hvel, hdt, not_true_eq_false, reduceCtorEq, or_self, if_false, stepVelocity,
        AtRestOrStopping]
      split_ifs <;> simp [hzero]
    · simp only [hdt, not_false_eq_true, or_true, if_true]
      exact .inr ⟨hvel, hzero⟩

/-- An accepted nonzero velocity starts a velocity run. -/
theorem setVelocity_run {v a : K} (hv : v ≠ 0) (ha : 0 < a) :
    (g.setVelocity v a).1.phase = .velocity ∧ (g.setVelocity v a).1.vTarget = v := by
  unfold setVelocity
  simp [ha, hv]

/-- A velocity run toward a nonzero velocity goes on. -/
theorem step_run (sqrt : K → K) (dt : K) (hp : g.phase = .velocity) (hv : g.vTarget ≠ 0) :
    (g.step sqrt dt).phase = .velocity ∧ (g.step sqrt dt).vTarget = g.vTarget := by
  unfold step
  by_cases hdt : 0 < dt
  · simp [hp, hdt, stepVelocity, hv]
  · simp [hdt, hp]

end TrapezoidGenerator

end

/-! ### The cyclic mode -/

section
variable {K : Type} [Field K] [LinearOrder K] [FloorRing K]

omit [FloorRing K] in
/-- A goal that the generator accepts makes the mode positioning. -/
theorem CyclicPositionMode.goTo_eq (m : CyclicPositionMode K) (counts : Int32) (v : UInt32) :
    m.goTo counts v =
      { m with
          generator := (m.generator.setGoal counts (v.toNat : K) m.accel).1
          positioning :=
            (m.generator.setGoal counts (v.toNat : K) m.accel).2 || m.positioning } := by
  unfold goTo
  split <;> simp_all

/-- A velocity that the generator accepts makes the mode run. -/
theorem CyclicPositionMode.setVelocity_eq (m : CyclicPositionMode K) (v : Int32) :
    m.setVelocity v =
      { m with
          generator := (m.generator.setVelocity (v.toInt : K) m.accel).1
          positioning :=
            !(m.generator.setVelocity (v.toInt : K) m.accel).2 && m.positioning } := by
  unfold setVelocity
  split <;> simp_all

/-- Accepted or refused, a velocity leaves the mode with what the generator made of it. -/
theorem CyclicPositionMode.setVelocity_generator (m : CyclicPositionMode K) (v : Int32) :
    (m.setVelocity v).generator = (m.generator.setVelocity (v.toInt : K) m.accel).1 := by
  unfold setVelocity
  split <;> simp_all

/-- The stopping window does not change the kind of the last command. -/
theorem CyclicPositionMode.stepShutdown_positioning (sqrt : K → K) (f : Fields)
    (m : CyclicPositionMode K) (out : Outputs) (fb : MotionFeedback) :
    (m.stepShutdown sqrt f out fb).next.positioning = m.positioning := by
  unfold stepShutdown
  dsimp only
  split_ifs <;> rfl

end

/-! ### The profile mode -/

namespace ProfilePositionMode

variable (f : Fields) (inp : CycleInput) (out : Outputs) {m : ProfilePositionMode}
  {fb : MotionFeedback}

/-- The command of a step whose mode is echoed: it carries the pending set-point. -/
def echoedCommand (m : ProfilePositionMode) : SequencerCommand :=
  { m.command with newSetpoint := m.pendingNewSetpoint }

/-- The command of a step whose mode is not echoed: no set-point, zero velocity. -/
def laggingCommand (m : ProfilePositionMode) : SequencerCommand :=
  { m.command with newSetpoint := false, targetVelocity := 0 }

theorem step_echoed (h : m.echoed fb = true) :
    m.step f inp out fb =
      (m.sequencer.step f inp out m.echoedCommand).map fun q =>
        { m with
            modeNotAdopted := false, echoWaitCycles := 0, pendingNewSetpoint := false
            sequencer := q } := by
  have h' : ({ m with modeNotAdopted := false } : ProfilePositionMode).echoed fb = true := h
  unfold step
  simp only [h', if_true]
  rfl

theorem step_lagging (h : m.echoed fb = false) :
    m.step f inp out fb =
      (m.sequencer.step f inp out m.laggingCommand).map fun q =>
        { ({ m with modeNotAdopted := false } : ProfilePositionMode).waitEcho fb with
            sequencer := q } := by
  have h' : ({ m with modeNotAdopted := false } : ProfilePositionMode).echoed fb = false := h
  unfold step
  simp only [h', Bool.false_eq_true, if_false]
  -- The expiry of the wait changes the command of later cycles, not the sequencer.
  have hseq : (({ m with modeNotAdopted := false } : ProfilePositionMode).waitEcho fb).sequencer
      = m.sequencer := by
    unfold waitEcho
    dsimp only
    split_ifs <;> rfl
  rw [hseq]
  rfl

/-- A step keeps the halt latch. -/
theorem step_halted : (m.step f inp out fb).next.halted = m.halted := by
  cases h : m.echoed fb with
  | true => rw [step_echoed f inp out h]; rfl
  | false =>
      rw [step_lagging f inp out h]
      simp only [StepResult.map_next, waitEcho]
      split_ifs <;> rfl

/-- A step keeps the commanded mode, unless the echo wait expires. -/
theorem step_intent (h : (m.step f inp out fb).next.modeNotAdopted = false) :
    (m.step f inp out fb).next.intent = m.intent := by
  cases he : m.echoed fb with
  | true => rw [step_echoed f inp out he]; rfl
  | false =>
      rw [step_lagging f inp out he] at h ⊢
      simp only [StepResult.map_next, waitEcho] at h ⊢
      split_ifs at h ⊢
      · rfl

end ProfilePositionMode

/-! ### The target of a mode -/

namespace MotionMode

/-- The mode takes the target. A generator refuses one without a positive velocity. -/
def Takes (u : SetTarget) : MotionMode ℚ → Prop
  | .profile _ => True
  | .cyclic m => 0 < u.profileVelocity.toNat ∧ 0 < m.accel

instance (u : SetTarget) : (m : MotionMode ℚ) → Decidable (m.Takes u)
  | .profile _ => isTrue trivial
  | .cyclic _ => inferInstanceAs (Decidable (_ ∧ _))

/-- A refused target changes nothing. -/
theorem goTo_of_not_takes {m : MotionMode ℚ} {u : SetTarget} (h : ¬ m.Takes u)
    (counts : Int32) : m.goTo counts u.profileVelocity = m := by
  cases m with
  | profile m => exact absurd trivial h
  | cyclic m =>
      have hlimits : ¬ ((0 : ℚ) < (u.profileVelocity.toNat : ℚ) ∧ 0 < m.accel) := by
        simpa [Takes] using h
      have hrefused : m.generator.setGoal counts (u.profileVelocity.toNat : ℚ) m.accel
          = (m.generator, false) := dif_neg hlimits
      simp only [goTo, CyclicPositionMode.goTo, hrefused]

/-- What no operation of a mode changes. -/
inductive Constants where
  | profile (quickStopDecel : UInt32)
  | cyclic (dt accel : ℚ)

/-- The constants a mode was built with. -/
def constants : MotionMode ℚ → Constants
  | .profile m => .profile m.quickStopDecel
  | .cyclic m => .cyclic m.dt m.accel

section
variable {m m' : MotionMode ℚ}

/-- What a mode accepts is decided by its constants. -/
theorem takes_congr (h : m'.constants = m.constants) (u : SetTarget) :
    m'.Takes u ↔ m.Takes u := by
  cases m <;> cases m' <;> simp_all [constants, Takes]

theorem modeRequiredBy_congr (h : m'.constants = m.constants) (cmd : MotionCommand) :
    m'.modeRequiredBy cmd = m.modeRequiredBy cmd := by
  cases m <;> cases m' <;> cases cmd <;> first | rfl | cases h

/-- The constants say which of the two modes it is. -/
theorem cyclic_congr (h : m'.constants = m.constants) {q : CyclicPositionMode ℚ}
    (hm : m = .cyclic q) : ∃ q', m' = .cyclic q' := by
  subst hm
  cases m' with
  | profile r => cases h
  | cyclic r => exact ⟨r, rfl⟩

@[simp] theorem constants_reset : m.reset.constants = m.constants := by
  cases m <;> rfl

@[simp] theorem constants_goTo (counts : Int32) (v : UInt32) :
    (m.goTo counts v).constants = m.constants := by
  cases m with
  | profile m => rfl
  | cyclic m =>
      simp only [goTo, CyclicPositionMode.goTo]
      split <;> rfl

@[simp] theorem constants_setVelocity (v : Int32) :
    (m.setVelocity v).constants = m.constants := by
  cases m with
  | profile m => rfl
  | cyclic m =>
      simp only [setVelocity, CyclicPositionMode.setVelocity]
      split <;> rfl

@[simp] theorem constants_halt : m.halt.constants = m.constants := by
  cases m <;> rfl

@[simp] theorem constants_step (sqrt : ℚ → ℚ) (f : Fields) (inp : CycleInput) (out : Outputs)
    (fb : MotionFeedback) : (m.step sqrt f inp out fb).next.constants = m.constants := by
  cases m with
  | profile m =>
      show Constants.profile (m.step f inp out fb).next.quickStopDecel = _
      cases he : m.echoed fb with
      | true => rw [ProfilePositionMode.step_echoed f inp out he]; rfl
      | false =>
          rw [ProfilePositionMode.step_lagging f inp out he]
          simp only [StepResult.map_next, ProfilePositionMode.waitEcho]
          split_ifs <;> rfl
  | cyclic m => rfl

@[simp] theorem constants_stepShutdown (sqrt : ℚ → ℚ) (f : Fields) (inp : CycleInput)
    (out : Outputs) (fb : MotionFeedback) :
    (m.stepShutdown sqrt f inp out fb).next.constants = m.constants := by
  cases m with
  | profile m =>
      simp only [stepShutdown, ProfilePositionMode.stepShutdown]
      split_ifs <;> rfl
  | cyclic m =>
      simp only [stepShutdown, CyclicPositionMode.stepShutdown]
      split_ifs <;> rfl

end

end MotionMode

end ViamEthercat.Servo
