import ViamEthercat.Servo.Controller
import ViamEthercat.Lib.Run
import ViamEthercat.Proofs.Motion

/-!
# `ViamEthercat.Proofs.Step`: what one cycle can do

The rules that the proofs about the controller use in place of its definitions.

* `routeCommands_eq`: routing a batch changes the move ids, the mode, the homing verdict and
  the diagnostics, and nothing else.
* `stepLifecycle_init`, ..., `stepLifecycle_disabled`: the state machine, one equation for
  each lifecycle state.
* `stepLifecycle_outcome`: what a step of the state machine leaves of the mode and of the
  active move is one of the cases of `Outcome`, whatever the lifecycle state.
* `cycle_steady`, `cycle_stopping`: a whole cycle as an update of the controller, since
  `publish_state` writes only what it publishes.
* `spawned_induction`: what a reset leaves and the bring-up keeps holds when the loop starts.
-/

set_option autoImplicit false

namespace ViamEthercat.Servo

/-! ### The mode under `track` -/

namespace MotionMode

/-- The mode after `track`: a cyclic generator holds the actual position. -/
def tracked (actual : Int32) : MotionMode ℚ → MotionMode ℚ
  | .profile m => .profile m
  | .cyclic m => .cyclic { m with generator := m.generator.reseed actual }

theorem track_fst (f : Fields) (m : MotionMode ℚ) (out : Outputs) (fb : MotionFeedback) :
    (m.track f out fb).1 = m.tracked fb.actual := by
  cases m <;> rfl

@[simp] theorem constants_tracked (m : MotionMode ℚ) (actual : Int32) :
    (m.tracked actual).constants = m.constants := by
  cases m <;> rfl

@[simp] theorem reset_reset (m : MotionMode ℚ) : m.reset.reset = m.reset := by
  cases m <;> rfl

/-- The shutdown step gives one of three words. -/
theorem stepShutdown_controlword (sqrt : ℚ → ℚ) (f : Fields) (m : MotionMode ℚ)
    {inp : CycleInput} (out : Outputs) (fb : MotionFeedback) (h : inp.stopping = true) :
    (m.stepShutdown sqrt f inp out fb).controlword = ControlWord.disableVoltage ∨
    (m.stepShutdown sqrt f inp out fb).controlword = quickStopCw ∨
    (m.stepShutdown sqrt f inp out fb).controlword = ControlWord.enableOperation := by
  cases m with
  | profile m =>
      simp only [stepShutdown, ProfilePositionMode.stepShutdown, Sequencer.step,
        Sequencer.stepStopping, h, StepResult.map_controlword, if_true]
      split_ifs <;> simp
  | cyclic m =>
      simp only [stepShutdown, CyclicPositionMode.stepShutdown, StepResult.map_controlword]
      split_ifs <;> simp

end MotionMode

namespace Controller

variable (p : RtParams) (s : Controller) (inp : CycleInput) (b : CommandBatch)

/-! ### Routing a batch -/

/-- The mode after the stops of a batch: halted when the halt supersedes. -/
def stoppedMotion (m : MotionMode ℚ) : MotionMode ℚ :=
  if b.halt ∧ b.haltSupersedes then m.halt else m

/-- The absolute count a target asks for: a relative one adds to the actual position. -/
def requested (actual : Int32) (t : SetTarget) : Int32 :=
  if t.relative then actual + t.counts else t.counts

/-- The mode after the target of a batch, for the active move `active`. -/
def targetedMotion (m : MotionMode ℚ) (active : Nat) : MotionMode ℚ :=
  match b.setTarget with
  | some t =>
      if t.generation ≠ active then m.goTo (requested inp.actual t) t.profileVelocity else m
  | none => m

/-- The mode after the velocity of a batch. -/
def velocityMotion (m : MotionMode ℚ) : MotionMode ℚ :=
  match b.setVelocity with
  | some v => m.setVelocity v
  | none => m

/-- The mode after a batch was routed to it. -/
def routedMotion : MotionMode ℚ :=
  velocityMotion b (targetedMotion inp b (stoppedMotion b s.motion) s.activeGeneration)

/-- The active move after a batch was routed: the target's, when the batch has one. -/
def routedActive : Nat := (b.setTarget.map SetTarget.generation).getD s.activeGeneration

/-- The failed move after a batch was routed: a stop fails the move that was active before. -/
def routedFailed : Nat :=
  if (b.halt ∨ b.disable) ∧ s.activeGeneration ≠ 0 ∧ s.completedGeneration ≠ s.activeGeneration
  then s.activeGeneration else s.failedGeneration

/-- The published homing verdict after a batch was routed. -/
def routedHoming : HomingState :=
  if b.startHoming.isSome ∧ s.lifecycle ≠ .operational then .failed else s.homingState

theorem routeStops_eq : ∃ le te w, s.wakeSeq ≤ w ∧ s.routeStops b =
    { s with
        latchedCtrlError := le, telemetry := te, wakeSeq := w
        failedGeneration := s.routedFailed b
        motion := stoppedMotion b s.motion } := by
  unfold routeStops routedFailed stoppedMotion
  by_cases hh : b.halt <;> by_cases hd : b.disable <;> by_cases hs : b.haltSupersedes <;>
    simp only [hh, hd, hs, abortActiveMove, if_true, if_false, and_true, and_false, or_true,
      true_or, or_self, false_and, true_and, Bool.false_eq_true] <;>
    (try split_ifs) <;> refine ⟨_, _, _, ?_, rfl⟩ <;> omega

theorem routeMotion_eq : ∃ le, s.routeMotion inp b =
    { s with
        latchedCtrlError := le
        activeGeneration := s.routedActive b
        motion := velocityMotion b (targetedMotion inp b s.motion s.activeGeneration) } := by
  unfold routeMotion routedActive velocityMotion targetedMotion adoptTarget
  cases b.setTarget with
  | none => cases b.setVelocity <;> exact ⟨_, rfl⟩
  | some t =>
      -- A relative move is an absolute one, from the position of this cycle.
      have hgo : (if t.relative then s.motion.goFor t.counts t.profileVelocity inp.actual
          else s.motion.goTo t.counts t.profileVelocity)
          = s.motion.goTo (requested inp.actual t) t.profileVelocity := by
        unfold requested
        split_ifs <;> rfl
      simp only [hgo]
      -- A target of the active move is not adopted again, and writes the same id.
      by_cases h : t.generation = s.activeGeneration
      · refine ⟨s.latchedCtrlError, ?_⟩
        cases b.setVelocity <;>
          simp only [h, ne_eq, not_true_eq_false, if_false, Option.map_some, Option.getD_some]
      · cases b.setVelocity <;> simp only [h, ne_eq, not_false_eq_true, if_true] <;>
          exact ⟨_, rfl⟩

theorem routeHoming_eq : ∃ w hf, s.wakeSeq ≤ w ∧
    (b.startHoming.isSome ∧ s.lifecycle ≠ .operational → s.wakeSeq < w) ∧
    s.routeHoming b =
      { s with wakeSeq := w, homingState := s.routedHoming b, homingFail := hf } := by
  unfold routeHoming routedHoming
  split_ifs with h
  · exact ⟨s.wakeSeq + 1, .notOperational, by omega, fun _ => by omega, rfl⟩
  · exact ⟨s.wakeSeq, s.homingFail, le_refl _, fun h' => absurd h' h, rfl⟩

/-- Routing a batch changes the move ids, the mode, the homing verdict and the diagnostics.
Every other field keeps its value. A wake is never lost, and a homing request that is failed
here wakes its caller. -/
theorem routeCommands_eq : ∃ le te w hf, s.wakeSeq ≤ w ∧
    (b.startHoming.isSome ∧ s.lifecycle ≠ .operational → s.wakeSeq < w) ∧
    s.routeCommands inp b =
      { s with
          latchedCtrlError := le, telemetry := te, wakeSeq := w
          homingState := s.routedHoming b, homingFail := hf
          activeGeneration := s.routedActive b
          failedGeneration := s.routedFailed b
          motion := s.routedMotion inp b } := by
  obtain ⟨le₁, te, w₁, hw₁, hstops⟩ := s.routeStops_eq b
  obtain ⟨le, hmotion⟩ := (s.routeStops b).routeMotion_eq inp b
  obtain ⟨w, hf, hw, hlt, hhoming⟩ := ((s.routeStops b).routeMotion inp b).routeHoming_eq b
  -- The wake counts of the three parts add up, and the homing part wakes last.
  rw [hmotion, hstops] at hw hlt
  refine ⟨le, te, w, hf, hw₁.trans hw, fun h => hw₁.trans_lt (hlt h), ?_⟩
  unfold routeCommands
  rw [hhoming, hmotion, hstops]
  rfl

/-- The routed mode, of a profile mode. -/
def routedProfile (active : Nat) (m : ProfilePositionMode) : ProfilePositionMode :=
  let m := if b.halt ∧ b.haltSupersedes then m.halt else m
  let m := match b.setTarget with
    | some t =>
        if t.generation ≠ active then m.goTo (requested inp.actual t) t.profileVelocity else m
    | none => m
  match b.setVelocity with
  | some v => m.setVelocity v
  | none => m

/-- The routed mode, of a cyclic mode. -/
def routedCyclic (active : Nat) (m : CyclicPositionMode ℚ) : CyclicPositionMode ℚ :=
  let m := if b.halt ∧ b.haltSupersedes then m.halt else m
  let m := match b.setTarget with
    | some t =>
        if t.generation ≠ active then m.goTo (requested inp.actual t) t.profileVelocity else m
    | none => m
  match b.setVelocity with
  | some v => m.setVelocity v
  | none => m

variable {s} in
theorem routedMotion_profile {m : ProfilePositionMode} (h : s.motion = .profile m) :
    s.routedMotion inp b = .profile (routedProfile inp b s.activeGeneration m) := by
  unfold routedMotion stoppedMotion targetedMotion velocityMotion routedProfile
  rw [h]
  cases b.setTarget <;> cases b.setVelocity <;> dsimp only <;> split_ifs <;> rfl

variable {s} in
theorem routedMotion_cyclic {m : CyclicPositionMode ℚ} (h : s.motion = .cyclic m) :
    s.routedMotion inp b = .cyclic (routedCyclic inp b s.activeGeneration m) := by
  unfold routedMotion stoppedMotion targetedMotion velocityMotion routedCyclic
  rw [h]
  cases b.setTarget <;> cases b.setVelocity <;> dsimp only <;> split_ifs <;> rfl

/-- Routing does not touch the sequencer. -/
theorem routedProfile_sequencer (active : Nat) (m : ProfilePositionMode) :
    (routedProfile inp b active m).sequencer = m.sequencer := by
  unfold routedProfile
  cases b.setTarget <;> cases b.setVelocity <;> dsimp only <;> split_ifs <;> rfl

theorem constants_targetedMotion (m : MotionMode ℚ) (active : Nat) :
    (targetedMotion inp b m active).constants = m.constants := by
  unfold targetedMotion
  cases b.setTarget with
  | none => rfl
  | some t =>
      dsimp only
      split_ifs <;> simp

/-- Routing does not touch the constants of the mode. -/
@[simp] theorem constants_routedMotion :
    (s.routedMotion inp b).constants = s.motion.constants := by
  unfold routedMotion velocityMotion
  have hstopped : (stoppedMotion b s.motion).constants = s.motion.constants := by
    unfold stoppedMotion
    split_ifs <;> simp
  cases b.setVelocity <;> simp [constants_targetedMotion, hstopped]

@[simp] theorem routeCommands_lifecycle : (s.routeCommands inp b).lifecycle = s.lifecycle := by
  obtain ⟨le, te, w, hf, -, -, h⟩ := s.routeCommands_eq inp b
  rw [h]

/-! ### The state machine, one equation for each state -/

section
variable {p s inp b}

theorem stepLifecycle_init (h : s.lifecycle = .init) :
    s.stepLifecycle p inp b = (s.routeCommands inp b).stepInit p inp := by
  simp only [stepLifecycle, routeCommands_lifecycle, h]

theorem stepLifecycle_enabling (h : s.lifecycle = .enabling) :
    s.stepLifecycle p inp b = (s.routeCommands inp b).stepEnabling p inp := by
  simp only [stepLifecycle, routeCommands_lifecycle, h]

theorem stepLifecycle_operational (h : s.lifecycle = .operational) :
    s.stepLifecycle p inp b = (s.routeCommands inp b).stepOperational p inp b := by
  simp only [stepLifecycle, routeCommands_lifecycle, h]

theorem stepLifecycle_homing (h : s.lifecycle = .homing) :
    s.stepLifecycle p inp b = (s.routeCommands inp b).stepHoming p inp b := by
  simp only [stepLifecycle, routeCommands_lifecycle, h]

theorem stepLifecycle_resetting (h : s.lifecycle = .resetting) :
    s.stepLifecycle p inp b = (s.routeCommands inp b).stepResetting p inp b := by
  simp only [stepLifecycle, routeCommands_lifecycle, h]

theorem stepLifecycle_disabled (h : s.lifecycle = .disabled) :
    s.stepLifecycle p inp b = (s.routeCommands inp b).stepDisabled b := by
  simp only [stepLifecycle, routeCommands_lifecycle, h]

end

/-- The mode's step in Operational. -/
abbrev motionStep : StepResult (MotionMode ℚ) :=
  s.motion.step p.sqrt p.fields inp s.outputs (s.feedback p inp)

/-- The motion part of Operational changes the mode, the output image and the diagnostics,
and a failure of the mode fails the active move. -/
theorem stepMotion_eq : ∃ le te w sr, s.wakeSeq ≤ w ∧ s.stepMotion p inp =
    ({ s with
        latchedCtrlError := le, telemetry := te, wakeSeq := w, stopRequested := sr
        outputs := (motionStep p s inp).outputs
        motion := (motionStep p s inp).next
        failedGeneration :=
          if (motionStep p s inp).next.fault ≠ .none ∧ s.activeGeneration ≠ 0 ∧
            s.completedGeneration ≠ s.activeGeneration
          then s.activeGeneration else s.failedGeneration },
      (motionStep p s inp).controlword) := by
  unfold stepMotion
  simp only [abortActiveMove]
  -- Both failures fail the move. They differ in the error that is latched.
  cases hf : (motionStep p s inp).next.fault with
  | none =>
      simp only [ne_eq, not_true_eq_false, false_and, if_false]
      exact ⟨_, _, _, _, le_refl _, rfl⟩
  | setpointNotAcknowledged =>
      simp only [ne_eq, reduceCtorEq, not_false_eq_true, true_and]
      split_ifs <;> exact ⟨_, _, _, _, by omega, rfl⟩
  | modeNotAdopted =>
      simp only [ne_eq, reduceCtorEq, not_false_eq_true, true_and]
      split_ifs <;> exact ⟨_, _, _, _, by omega, rfl⟩

/-! ### What the state machine does to the mode -/

/-- The ladder reaches Operational: the drive is energized and echoes the mode. -/
def LadderTop (m : MotionMode ℚ) : Prop :=
  inp.status.decode = .operationEnabled ∧ modeEchoed p inp m.commandedMode = true

instance (m : MotionMode ℚ) : Decidable (LadderTop p inp m) :=
  inferInstanceAs (Decidable (_ ∧ _))

/-- The stay in Homing ends: a fault, a stop, or the end of the procedure. -/
def HomingEnds : Prop :=
  Faulted inp ∨ (b.disable = true ∨ b.halt = true ∨ b.quickStop = true) ∨
    if modeEchoed p inp .homing then
      inp.status.homingError = true ∨ inp.status.homingAttained = true ∨
        s.homingTimeoutCycles ≤ s.homingCycles + 1
    else modeEchoCycles ≤ s.homingEchoWait + 1

instance : Decidable (HomingEnds p s inp b) := inferInstanceAs (Decidable (_ ∨ _))

/-- The state machine resets the mode without failing the active move. -/
def ResetsMode : Prop :=
  ((s.lifecycle = .init ∨ s.lifecycle = .enabling) ∧ inp.status.decode = .fault) ∨
    (s.lifecycle = .operational ∧ ¬ Faulted inp ∧
      (b.disable = true ∨ b.startHoming.isSome = true)) ∨
    (s.lifecycle = .homing ∧ HomingEnds p s inp b)

instance : Decidable (ResetsMode p s inp b) := inferInstanceAs (Decidable (_ ∨ _))

/-- What a step of the state machine does to the mode and to the failed move, and where it
may do it. -/
inductive Outcome (r : Controller × ControlWord) : Prop where
  /-- the routed mode is kept -/
  | kept (hmotion : r.1.motion = s.routedMotion inp b)
      (hfailed : r.1.failedGeneration = s.routedFailed b)
      (hwhere : (s.lifecycle ≠ .operational ∧ r.1.lifecycle ≠ .operational ∧
          (s.lifecycle = .enabling → ¬ LadderTop p inp (s.routedMotion inp b)) ∧
          ¬ ResetsMode p s inp b) ∨
        (s.lifecycle = .enabling ∧ r.1.lifecycle = .operational ∧
          LadderTop p inp (s.routedMotion inp b) ∧
          r.2 = fsmStep inp.status .operationEnabled) ∨
        (s.lifecycle = .operational ∧ r.1.lifecycle = .operational ∧ b.quickStop = true ∧
          r.2 = ControlWord.quickStop ∧ ¬ Faulted inp ∧ b.disable = false ∧
          b.startHoming = none))
  /-- the routed mode is reset, outside an Operational fault -/
  | reset (hmotion : r.1.motion = (s.routedMotion inp b).reset)
      (hfailed : r.1.failedGeneration = s.routedFailed b)
      (hto : r.1.lifecycle ≠ .operational)
      (hwhere : ResetsMode p s inp b)
  /-- an Operational fault resets the mode and fails the active move -/
  | faulted (hmotion : r.1.motion = (s.routedMotion inp b).reset)
      (hfailed : r.1.failedGeneration =
        if s.routedActive b ≠ 0 ∧ s.completedGeneration ≠ s.routedActive b
        then s.routedActive b else s.routedFailed b)
      (hfrom : s.lifecycle = .operational) (hto : r.1.lifecycle = .resetting)
      (hfault : Faulted inp)
  /-- the routed mode steps -/
  | stepped (q : Controller) (hq : q.motion = s.routedMotion inp b)
      (hmotion : r.1.motion = (motionStep p q inp).next)
      (hcw : r.2 = (motionStep p q inp).controlword)
      (hfailed : r.1.failedGeneration =
        if (motionStep p q inp).next.fault ≠ .none ∧ s.routedActive b ≠ 0 ∧
          s.completedGeneration ≠ s.routedActive b
        then s.routedActive b else s.routedFailed b)
      (hfrom : s.lifecycle = .operational) (hto : r.1.lifecycle = .operational)
      (hfault : ¬ Faulted inp) (hdisable : b.disable = false)
      (hhoming : b.startHoming = none) (hquick : b.quickStop = false)

section
variable {p s inp b}

@[simp] theorem routeCommands_motion :
    (s.routeCommands inp b).motion = s.routedMotion inp b := by
  obtain ⟨le, te, w, hf, -, -, h⟩ := s.routeCommands_eq inp b
  rw [h]

@[simp] theorem routeCommands_failedGeneration :
    (s.routeCommands inp b).failedGeneration = s.routedFailed b := by
  obtain ⟨le, te, w, hf, -, -, h⟩ := s.routeCommands_eq inp b
  rw [h]

@[simp] theorem routeCommands_activeGeneration :
    (s.routeCommands inp b).activeGeneration = s.routedActive b := by
  obtain ⟨le, te, w, hf, -, -, h⟩ := s.routeCommands_eq inp b
  rw [h]

@[simp] theorem routeCommands_completedGeneration :
    (s.routeCommands inp b).completedGeneration = s.completedGeneration := by
  obtain ⟨le, te, w, hf, -, -, h⟩ := s.routeCommands_eq inp b
  rw [h]

@[simp] theorem routeCommands_clearStreak :
    (s.routeCommands inp b).clearStreak = s.clearStreak := by
  obtain ⟨le, te, w, hf, -, -, h⟩ := s.routeCommands_eq inp b
  rw [h]

/-- Routing does not touch the counters of the homing state. -/
@[simp] theorem routeCommands_homingCounters :
    (s.routeCommands inp b).homingCycles = s.homingCycles ∧
      (s.routeCommands inp b).homingTimeoutCycles = s.homingTimeoutCycles ∧
      (s.routeCommands inp b).homingEchoWait = s.homingEchoWait := by
  obtain ⟨le, te, w, hf, -, -, h⟩ := s.routeCommands_eq inp b
  rw [h]
  exact ⟨rfl, rfl, rfl⟩

theorem outcome_homing (hl : s.lifecycle = .homing) :
    Outcome p s inp b ((s.routeCommands inp b).stepHoming p inp b) := by
  have hmotion : (s.routeCommands inp b).motion.reset = (s.routedMotion inp b).reset := by simp
  have hfailed : (s.routeCommands inp b).failedGeneration = s.routedFailed b := by simp
  -- Every exit of the state resets the mode, and a cycle that stays keeps it.
  have hexit (fail : HomingFail) (q : Controller) (cw : ControlWord)
      (hm : q.motion = (s.routeCommands inp b).motion)
      (hf : q.failedGeneration = (s.routeCommands inp b).failedGeneration)
      (hends : HomingEnds p s inp b) : Outcome p s inp b (q.finishHoming fail, cw) :=
    .reset (by rw [← hmotion, ← hm]; rfl) (hf.trans hfailed) (by simp [finishHoming])
      (.inr (.inr ⟨hl, hends⟩))
  have hstay (q : Controller) (cw : ControlWord)
      (hm : q.motion = (s.routeCommands inp b).motion)
      (hf : q.failedGeneration = (s.routeCommands inp b).failedGeneration)
      (hq : q.lifecycle = (s.routeCommands inp b).lifecycle)
      (hstays : ¬ HomingEnds p s inp b) : Outcome p s inp b (q, cw) :=
    .kept (hm.trans routeCommands_motion) (hf.trans hfailed)
      (.inl (by simp [hq, hl, ResetsMode, hstays]))
  unfold stepHoming
  dsimp only
  split_ifs with hfault hstop hdis hecho hwait herr hatt htime
  · exact .reset (by rw [← hmotion, ← MotionMode.reset_reset]; rfl) hfailed
      (by simp [enterResetting]) (.inr (.inr ⟨hl, .inl hfault⟩))
  · exact .reset hmotion hfailed (by simp) (.inr (.inr ⟨hl, .inr (.inl hstop)⟩))
  · exact .reset hmotion hfailed (by simp [finishHoming])
      (.inr (.inr ⟨hl, .inr (.inl hstop)⟩))
  · refine hexit _ _ _ rfl rfl (.inr (.inr ?_))
    simpa [Bool.eq_false_iff.mpr (by simpa using hecho)] using hwait
  · exact hstay _ _ rfl rfl rfl (by simp_all [HomingEnds])
  · exact hexit _ _ _ rfl rfl (.inr (.inr (by simp_all)))
  · exact hexit _ _ _ rfl rfl (.inr (.inr (by simp_all)))
  · exact hexit _ _ _ rfl rfl (.inr (.inr (by simp_all)))
  · exact hstay _ _ rfl rfl rfl (by simp_all [HomingEnds])

theorem outcome_operational (hl : s.lifecycle = .operational) :
    Outcome p s inp b ((s.routeCommands inp b).stepOperational p inp b) := by
  have hmotion : (s.routeCommands inp b).motion.reset = (s.routedMotion inp b).reset := by simp
  have hfailed : (s.routeCommands inp b).failedGeneration = s.routedFailed b := by simp
  unfold stepOperational
  by_cases hfault : Faulted inp
  · rw [if_pos hfault]
    refine .faulted hmotion ?_ hl rfl hfault
    simp [enterResetting, abortActiveMove]
  rw [if_neg hfault]
  -- The order of the tests is that of the source: disable, homing, quick-stop.
  cases hdis : b.disable with
  | true => exact .reset hmotion hfailed (by simp) (.inr (.inl ⟨hl, hfault, .inl hdis⟩))
  | false =>
      cases hhom : b.startHoming with
      | some h =>
          exact .reset hmotion hfailed (by simp) (.inr (.inl ⟨hl, hfault, .inr (by simp [hhom])⟩))
      | none =>
          cases hq : b.quickStop with
          | true =>
              exact .kept routeCommands_motion hfailed
                (.inr (.inr ⟨hl, by simp [hl], hq, rfl, hfault, hdis, hhom⟩))
          | false =>
              obtain ⟨le, te, w, sr, -, hm⟩ := (s.routeCommands inp b).stepMotion_eq p inp
              simp only [Bool.false_eq_true, if_false, hm]
              exact .stepped (s.routeCommands inp b) routeCommands_motion rfl rfl (by simp) hl
                (by simp [hl]) hfault hdis hhom hq

/-- The state machine adopts a move only by routing its target, and completes none. -/
theorem stepLifecycle_ids (p : RtParams) (s : Controller) (inp : CycleInput)
    (b : CommandBatch) :
    (s.stepLifecycle p inp b).1.activeGeneration = s.routedActive b ∧
      (s.stepLifecycle p inp b).1.completedGeneration = s.completedGeneration := by
  have hids : (s.routeCommands inp b).activeGeneration = s.routedActive b ∧
      (s.routeCommands inp b).completedGeneration = s.completedGeneration := by simp
  cases hl : s.lifecycle with
  | init =>
      rw [stepLifecycle_init hl, stepInit]
      split_ifs <;> exact hids
  | enabling =>
      rw [stepLifecycle_enabling hl]
      unfold stepEnabling
      dsimp only
      split_ifs <;> exact hids
  | operational =>
      obtain ⟨le, te, w, sr, -, hm⟩ := (s.routeCommands inp b).stepMotion_eq p inp
      rw [stepLifecycle_operational hl, stepOperational, hm]
      cases b.startHoming <;> split_ifs <;> exact hids
  | homing =>
      rw [stepLifecycle_homing hl]
      unfold stepHoming
      dsimp only
      split_ifs <;> exact hids
  | resetting =>
      rw [stepLifecycle_resetting hl]
      unfold stepResetting
      dsimp only
      split_ifs <;> exact hids
  | disabled =>
      rw [stepLifecycle_disabled hl, stepDisabled]
      split_ifs <;> exact hids

/-- Every step of the state machine has one of the four outcomes. -/
theorem stepLifecycle_outcome (p : RtParams) (s : Controller) (inp : CycleInput)
    (b : CommandBatch) : Outcome p s inp b (s.stepLifecycle p inp b) := by
  have hmotion : (s.routeCommands inp b).motion.reset = (s.routedMotion inp b).reset := by simp
  have hfailed : (s.routeCommands inp b).failedGeneration = s.routedFailed b := by simp
  cases hl : s.lifecycle with
  | homing => exact stepLifecycle_homing hl ▸ outcome_homing hl
  | operational => exact stepLifecycle_operational hl ▸ outcome_operational hl
  | init =>
      rw [stepLifecycle_init hl, stepInit]
      split_ifs with hfault
      · exact .reset hmotion hfailed (by simp [enterResetting]) (.inl ⟨.inl hl, hfault⟩)
      · exact .kept routeCommands_motion hfailed (.inl (by simp [hl, ResetsMode, hfault]))
  | enabling =>
      rw [stepLifecycle_enabling hl]
      unfold stepEnabling
      by_cases hfault : inp.status.decode = .fault
      · rw [if_pos hfault]
        exact .reset hmotion hfailed (by simp [enterResetting]) (.inl ⟨.inr hl, hfault⟩)
      rw [if_neg hfault]
      dsimp only
      split
      · rename_i hlag
        refine .kept routeCommands_motion hfailed
          (.inl ⟨by simp [hl], by simp [hl], ?_, by simp [hl, ResetsMode, hfault]⟩)
        -- The echo lags, so the ladder has not reached its top.
        rintro - ⟨-, hecho⟩
        simp [hecho] at hlag
      · rename_i hlag
        refine .kept routeCommands_motion hfailed ?_
        by_cases hop : inp.status.decode = .operationEnabled
        · refine .inr (.inl ⟨hl, by simp [hop], ⟨hop, ?_⟩, rfl⟩)
          simpa [hop] using hlag
        · exact .inl ⟨by simp [hl], by simp [hl, hop], fun _ htop => hop htop.1,
            by simp [hl, ResetsMode, hfault]⟩
  | resetting =>
      rw [stepLifecycle_resetting hl]
      unfold stepResetting
      dsimp only
      split_ifs <;> exact .kept routeCommands_motion hfailed (.inl (by simp [hl, ResetsMode]))
  | disabled =>
      rw [stepLifecycle_disabled hl]
      unfold stepDisabled
      split_ifs <;> exact .kept routeCommands_motion hfailed (.inl (by simp [hl, ResetsMode]))

/-! ### The move ids -/

theorem moveActive_iff : s.moveActive = true ↔ s.activeGeneration ≠ 0 ∧
    s.completedGeneration ≠ s.activeGeneration ∧ s.failedGeneration ≠ s.activeGeneration := by
  simp [moveActive, and_assoc]

/-- The batch carries a target of another move than the active one. -/
def Adopts (b : CommandBatch) (active : Nat) (u : SetTarget) : Prop :=
  b.setTarget = some u ∧ u.generation ≠ active

theorem routedActive_of_adopts {u : SetTarget} (h : Adopts b s.activeGeneration u) :
    s.routedActive b = u.generation := by
  simp [routedActive, h.1]

theorem routedActive_of_not_adopts (h : ∀ u, ¬ Adopts b s.activeGeneration u) :
    s.routedActive b = s.activeGeneration := by
  unfold routedActive
  cases ht : b.setTarget with
  | none => rfl
  | some u => exact not_not.mp fun hne => h u ⟨ht, hne⟩

/-- Which moves are live after a step: the failed move is the routed one, or the active. -/
theorem outcome_failed {r : Controller × ControlWord} (h : Outcome p s inp b r) :
    r.1.failedGeneration = s.routedFailed b ∨ r.1.failedGeneration = s.routedActive b := by
  cases h with
  | kept _ hfailed => exact .inl hfailed
  | reset _ hfailed => exact .inl hfailed
  | faulted _ hfailed =>
      rw [hfailed]
      split_ifs <;> simp
  | stepped _ _ _ _ hfailed =>
      rw [hfailed]
      split_ifs <;> simp

/-- The move that is live after a step is the routed one, not failed in the step. -/
theorem live_after_iff : (s.stepLifecycle p inp b).1.moveActive = true ↔
    s.routedActive b ≠ 0 ∧ s.completedGeneration ≠ s.routedActive b ∧
      (s.stepLifecycle p inp b).1.failedGeneration ≠ s.routedActive b := by
  obtain ⟨hactive, hcompleted⟩ := stepLifecycle_ids p s inp b
  rw [moveActive_iff, hactive, hcompleted]

/-- A move that is live after a step and was not adopted in it was live before, and no stop
was drained. -/
theorem live_before_of_live_after (hno : ∀ u, ¬ Adopts b s.activeGeneration u)
    (hlive : (s.stepLifecycle p inp b).1.moveActive = true) :
    s.moveActive = true ∧ b.halt = false ∧ b.disable = false := by
  rw [live_after_iff, routedActive_of_not_adopts hno] at hlive
  obtain ⟨hzero, hcompleted, hfailed⟩ := hlive
  have hrouted : s.routedFailed b ≠ s.activeGeneration := by
    -- Either no failure was written after the routing, or it is that of the active move.
    rcases outcome_failed (stepLifecycle_outcome p s inp b) with h | h
    · rwa [h] at hfailed
    · rw [h, routedActive_of_not_adopts hno] at hfailed
      exact absurd rfl hfailed
  unfold routedFailed at hrouted
  split_ifs at hrouted with hstop
  · exact absurd rfl hrouted
  · rw [moveActive_iff]
    refine ⟨⟨hzero, hcompleted, hrouted⟩, ?_⟩
    simpa [hzero, hcompleted] using hstop

/-- Publishing makes no move live: a completion ends one. -/
theorem moveActive_of_publish {q s' : Controller}
    (hactive : s'.activeGeneration = q.activeGeneration)
    (hfailed : s'.failedGeneration = q.failedGeneration)
    (hdef : s'.completedGeneration = q.activeGeneration ∨
      s'.completedGeneration = q.completedGeneration)
    (h : s'.moveActive = true) : q.moveActive = true := by
  rw [moveActive_iff, hactive, hfailed] at h
  obtain ⟨hzero, hcompleted, hne⟩ := h
  rcases hdef with hdef | hdef <;> rw [hdef] at hcompleted
  · exact absurd rfl hcompleted
  · exact moveActive_iff.mpr ⟨hzero, hcompleted, hne⟩

end

/-! ### Publishing -/

/-- `publish_state` writes the telemetry, the rest verdict, the completed move and the wake
count. Every other field keeps its value. -/
theorem publishState_eq (v : Int32) : ∃ te ph ar w, s.wakeSeq ≤ w ∧ s.publishState p inp v =
    { s with
        telemetry := te, posHist := ph, atRest := ar, wakeSeq := w
        completedGeneration :=
          if inp.status.operationEnabled && s.moveActive &&
            s.motion.isTargetReached ({ s with atRest := ar }.feedback p inp)
          then s.activeGeneration else s.completedGeneration } :=
  ⟨_, _, _, _, by simp only; omega, rfl⟩

/-- The state after the state machine's step and its controlword, in a steady cycle. -/
abbrev lifecycleStep : Controller × ControlWord := (s.sample inp).stepLifecycle p inp b

/-- The mode when the cycle publishes: it tracks the shaft outside Operational. -/
def settledMotion (r : Controller) (actual : Int32) : MotionMode ℚ :=
  if r.lifecycle ≠ .operational then r.motion.tracked actual else r.motion

/-- The mode's shutdown step, in a cycle of the stopping window. -/
def shutdownStep : StepResult (MotionMode ℚ) :=
  s.motion.stepShutdown p.sqrt p.fields inp s.outputs (s.feedback p inp)

theorem trackUnlessOperational_eq : ∃ out, s.trackUnlessOperational p inp =
    { s with outputs := out, motion := settledMotion s inp.actual } := by
  unfold trackUnlessOperational settledMotion
  split_ifs with h
  · have hfst : (s.motion.track p.fields s.outputs (s.feedback p inp)).1
        = s.motion.tracked inp.actual := MotionMode.track_fst ..
    exact ⟨(s.motion.track p.fields s.outputs (s.feedback p inp)).2, by rw [← hfst]; rfl⟩
  · exact ⟨s.outputs, rfl⟩

end Controller

open Controller

variable {p : RtParams} {s : Controller} {t : Tick}

/-- A steady cycle: the state machine's step, the controlword, the tracking, and what
`publish_state` writes. -/
theorem cycle_steady (h : t.inp.stopping = false) :
    let r := lifecycleStep p s t.inp (drain t.drained)
    ∃ te ph ar w out, r.1.wakeSeq ≤ w ∧ cycle p s t =
      { r.1 with
          telemetry := te, posHist := ph, atRest := ar, wakeSeq := w, outputs := out
          lastCw := r.2
          motion := settledMotion r.1 t.inp.actual
          completedGeneration :=
            if t.inp.status.operationEnabled && r.1.moveActive &&
              (settledMotion r.1 t.inp.actual).isTargetReached
                ({ r.1 with atRest := ar, motion := settledMotion r.1 t.inp.actual }.feedback
                  p t.inp)
            then r.1.activeGeneration else r.1.completedGeneration } := by
  intro r
  obtain ⟨out, ht⟩ := (r.1.storeControlword r.2).trackUnlessOperational_eq p t.inp
  obtain ⟨te, ph, ar, w, hw, hp⟩ :=
    ((r.1.storeControlword r.2).trackUnlessOperational p t.inp).publishState_eq p t.inp
      (velocityOf p t.inp (if s.firstCycle then t.inp.actual else s.prevActual))
  -- Tracking and storing the controlword touch nothing that is published.
  refine ⟨te, ph, ar, w, out, by rw [ht] at hw; exact hw, ?_⟩
  have hc : cycle p s t = ((r.1.storeControlword r.2).trackUnlessOperational p t.inp).publishState
      p t.inp (velocityOf p t.inp (if s.firstCycle then t.inp.actual else s.prevActual)) := by
    simp only [cycle, h, Bool.false_eq_true, if_false, stepSteady, r]
  rw [hc, hp, ht]
  rfl

/-- A cycle in the stopping window: the mode's shutdown step, and what `publish_state`
writes. -/
theorem cycle_stopping (h : t.inp.stopping = true) :
    let r := shutdownStep p s t.inp
    ∃ te ph ar w out sr, s.wakeSeq ≤ w ∧ cycle p s t =
      { s with
          telemetry := te, posHist := ph, atRest := ar, wakeSeq := w, outputs := out
          prevActual := t.inp.actual, stopAtRest := sr
          lastCw := r.controlword
          motion := r.next
          completedGeneration :=
            if t.inp.status.operationEnabled && s.moveActive &&
              r.next.isTargetReached ({ s with atRest := ar, motion := r.next }.feedback p t.inp)
            then s.activeGeneration else s.completedGeneration } := by
  intro r
  obtain ⟨te, ph, ar, w, hw, hp⟩ :=
    ({ s with
        prevActual := t.inp.actual
        motion := r.next
        outputs := r.outputs.storeControlword r.controlword
        lastCw := r.controlword
        stopAtRest := t.inp.status.switchOnDisabled } : Controller).publishState_eq p t.inp
      (velocityOf p t.inp s.prevActual)
  refine ⟨te, ph, ar, w, r.outputs.storeControlword r.controlword,
    t.inp.status.switchOnDisabled, hw, ?_⟩
  have hc : cycle p s t = s.stepStopping p t.inp := by simp only [cycle, h, if_true]
  rw [hc]
  exact hp

/-- The mode after a steady cycle. -/
theorem cycle_motion_steady (h : t.inp.stopping = false) : (cycle p s t).motion =
    settledMotion (lifecycleStep p s t.inp (drain t.drained)).1 t.inp.actual := by
  obtain ⟨te, ph, ar, w, out, -, hc⟩ := cycle_steady (p := p) (s := s) h
  rw [hc]

/-- The mode after a cycle of the stopping window. -/
theorem cycle_motion_stopping (h : t.inp.stopping = true) :
    (cycle p s t).motion = (shutdownStep p s t.inp).next := by
  obtain ⟨te, ph, ar, w, out, sr, -, hc⟩ := cycle_stopping (p := p) (s := s) h
  rw [hc]

/-- The lifecycle and the controlword of a steady cycle. -/
theorem cycle_lifecycle_lastCw (h : t.inp.stopping = false) :
    (cycle p s t).lifecycle = (lifecycleStep p s t.inp (drain t.drained)).1.lifecycle ∧
      (cycle p s t).lastCw = (lifecycleStep p s t.inp (drain t.drained)).2 := by
  obtain ⟨te, ph, ar, w, out, -, hc⟩ := cycle_steady (p := p) (s := s) h
  simp [hc]

/-- What a steady cycle leaves in the output image: the state machine's writes, the
controlword, and those of the tracking. -/
theorem cycle_outputs (h : t.inp.stopping = false) :
    (cycle p s t).outputs = (((lifecycleStep p s t.inp (drain t.drained)).1.storeControlword
      (lifecycleStep p s t.inp (drain t.drained)).2).trackUnlessOperational p t.inp).outputs := by
  simp only [cycle, h, Bool.false_eq_true, if_false, stepSteady]
  rfl

/-- The controlword of a steady cycle is the one in its image. -/
theorem cycle_controlword (h : t.inp.stopping = false) :
    (cycle p s t).outputs.controlword = (cycle p s t).lastCw := by
  obtain ⟨te, ph, ar, w, out, -, hc⟩ := cycle_steady (p := p) (s := s) h
  have hcw : (cycle p s t).lastCw = (lifecycleStep p s t.inp (drain t.drained)).2 := by rw [hc]
  rw [cycle_outputs h, hcw]
  unfold trackUnlessOperational track
  split_ifs
  · -- Tracking writes 0x607A, or nothing.
    cases hm : ((lifecycleStep p s t.inp (drain t.drained)).1.storeControlword
      (lifecycleStep p s t.inp (drain t.drained)).2).motion with
    | profile m => rfl
    | cyclic m =>
        dsimp only
        show (Outputs.storeTargetPosition _ _ _).controlword = _
        unfold Outputs.storeTargetPosition
        split_ifs <;> rfl
  · rfl

/-- No step of the state machine changes the constants of the mode. -/
theorem constants_lifecycle (inp : CycleInput) (b : CommandBatch) :
    (settledMotion (s.stepLifecycle p inp b).1 inp.actual).constants = s.motion.constants := by
  have hstep : (s.stepLifecycle p inp b).1.motion.constants = s.motion.constants := by
    cases stepLifecycle_outcome p s inp b with
    | kept hmotion => rw [hmotion]; exact constants_routedMotion ..
    | reset hmotion =>
        rw [hmotion, MotionMode.constants_reset]
        exact constants_routedMotion ..
    | faulted hmotion =>
        rw [hmotion, MotionMode.constants_reset]
        exact constants_routedMotion ..
    | stepped q hq hmotion =>
        rw [hmotion, motionStep, MotionMode.constants_step, hq]
        exact constants_routedMotion ..
  unfold settledMotion
  split_ifs
  · rw [MotionMode.constants_tracked, hstep]
  · exact hstep

/-- No cycle changes the constants of the mode. -/
theorem constants_cycle : (cycle p s t).motion.constants = s.motion.constants := by
  cases hstop : t.inp.stopping with
  | true =>
      rw [cycle_motion_stopping hstop]
      exact MotionMode.constants_stepShutdown ..
  | false =>
      rw [cycle_motion_steady hstop]
      exact constants_lifecycle (s := s.sample t.inp) t.inp (drain t.drained)

/-- A cyclic mode stays one. -/
theorem cyclic_lifecycle {inp : CycleInput} {b : CommandBatch} {m : CyclicPositionMode ℚ}
    (hm : s.motion = .cyclic m) :
    ∃ m', settledMotion (s.stepLifecycle p inp b).1 inp.actual = .cyclic m' :=
  MotionMode.cyclic_congr (constants_lifecycle inp b) hm

theorem cyclic_cycle (h : ∃ m, s.motion = .cyclic m) :
    ∃ m, (cycle p s t).motion = .cyclic m := by
  obtain ⟨m, hm⟩ := h
  exact MotionMode.cyclic_congr constants_cycle hm

/-- A property of a reset controller that the bring-up keeps holds when the loop starts. -/
theorem spawned_induction {P : Controller → Prop} (h0 : P s.resetRunState)
    (hstep : ∀ s inp, P s → P (s.stageBringupOutputs p inp)) {bringup : List CycleInput} :
    P (spawned p s bringup) :=
  Lib.runFrom_induction h0 hstep

/-- The bring-up only tracks the shaft. -/
theorem stageBringupOutputs_motion (inp : CycleInput) :
    (s.stageBringupOutputs p inp).motion = s.motion.tracked inp.actual :=
  MotionMode.track_fst ..

/-- A run starts in Init. -/
theorem spawned_lifecycle (bringup : List CycleInput) :
    (spawned p s bringup).lifecycle = .init :=
  spawned_induction (P := fun s => s.lifecycle = .init) rfl fun _ _ h => h

/-- Nor does the bring-up change them. -/
theorem constants_spawned (bringup : List CycleInput) :
    (spawned p s bringup).motion.constants = s.motion.constants := by
  refine spawned_induction (P := fun s' => s'.motion.constants = s.motion.constants)
    MotionMode.constants_reset ?_
  intro s' inp h
  rw [stageBringupOutputs_motion, MotionMode.constants_tracked, h]

/-- A run in cyclic mode starts in cyclic mode. -/
theorem spawned_cyclic {m : CyclicPositionMode ℚ} (hm : s.motion = .cyclic m)
    (bringup : List CycleInput) : ∃ m, (spawned p s bringup).motion = .cyclic m :=
  MotionMode.cyclic_congr (constants_spawned bringup) hm

/-- The controlword of the stopping window has bit 4 low. -/
theorem shutdownStep_bit4 (h : t.inp.stopping = true) :
    (shutdownStep p s t.inp).controlword.bit4 = false := by
  rcases MotionMode.stepShutdown_controlword p.sqrt p.fields s.motion s.outputs
    (s.feedback p t.inp) h with hcw | hcw | hcw <;> rw [shutdownStep, hcw] <;> decide

/-! ### A drive to evaluate the model on

The maps of `set_fixed_pdo_map`, the defaults of `ServoConfig` and a 17-bit encoder at
1 kHz. -/

/-- `std::sqrt`, exact where the root is rational. -/
def ratSqrt (x : ℚ) : ℚ := (Nat.sqrt (x.num.toNat * x.den) : ℚ) / x.den

/-- The profile map: every object is mapped. -/
def profileBench : RtParams where
  fields := ⟨true, true, true, true, true, true, true⟩
  estopFaultCode := 0#16
  faultResetWindowCycles := 200
  faultResetClearConfirmCycles := 3
  positionToleranceCounts := 182
  targetLoopRateHz := 1000
  targetReachedBitUsable := true
  sqrt := ratSqrt

/-- The cyclic map carries 0x607A and no mode byte. -/
def cyclicBench : RtParams :=
  { profileBench with fields := ⟨false, true, true, true, true, false, false⟩ }

/-- A controller that was never started, in profile mode without a quick-stop. -/
def profileController : Controller :=
  { motion := .profile { quickStopDecel := 0 }, posHist := { hist := List.replicate 20 0 } }

/-- A controller that was never started, in cyclic mode: 1 ms cycle, 1000 counts/s². -/
def cyclicController : Controller :=
  { motion := .cyclic { dt := 1 / 1000, accel := 1000, generator := .new }
    posHist := { hist := List.replicate 20 0 } }

/-- A cycle with a healthy bus: statusword, mode echo, actual position, drained commands. -/
def tick (status : BitVec 16) (echo : Int8) (actual : Int32) (drained : List Command) : Tick :=
  { inp := { status := ⟨status⟩, actual := actual, modeDisplay := echo, faultCode := 0#16,
             velocityActual := 0, fault := false, wkcLast := 3, stopping := false }
    drained := drained }

/-- The climb of a fresh run to Operational with the mode echo `echo` at the position `x`. -/
def climb (echo : Int8) (x : Int32) : List Tick :=
  [tick 0x0040#16 echo x [], tick 0x0040#16 echo x [], tick 0x0021#16 echo x [],
    tick 0x0023#16 echo x [], tick 0x0027#16 echo x []]

end ViamEthercat.Servo
