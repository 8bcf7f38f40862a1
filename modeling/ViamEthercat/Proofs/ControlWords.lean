import ViamEthercat.Proofs.Step

/-!
# `ViamEthercat.Proofs.ControlWords`: which controlword each state writes

The laws about a bit of the controlword need, for each lifecycle state, the word that the
state machine gives.

* `stepLifecycle_init_word`, ..., `stepLifecycle_resetting_word`: the words of the states
  outside Operational and Homing, as a table over the drive state.
* `fsmStep_bit7`, `fsmStep_enableBit`: what `Cia402Fsm::step` raises.
* `motionStep_bit7`: no mode raises the reset bit on a drive that is not in Fault.
* `written_eq_lastCw`: the word in the output image is the one the controller remembers, in
  steady cycles and in the stopping window.
-/

set_option autoImplicit false

namespace ViamEthercat

/-! ### The words of the enable ladder -/

/-- The reset bit comes from a drive in Fault, whatever the goal. -/
theorem fsmStep_bit7 (st : Status) (goal : Cia402State) :
    (fsmStep st goal).bit7 = decide (st.decode = .fault) := by
  unfold fsmStep
  cases st.decode <;> cases goal <;> decide

/-- Toward SwitchedOn the enable-operation bit stays low. -/
theorem fsmStep_switchedOn_enableBit (st : Status) :
    (fsmStep st .switchedOn).enableBit = false := by
  unfold fsmStep
  cases st.decode <;> decide

/-- The drive states in which the ladder writes enable-operation. -/
def Cia402State.energizable (d : Cia402State) : Prop :=
  d = .switchedOn ∨ d = .operationEnabled ∨ d = .quickStopActive

instance (d : Cia402State) : Decidable d.energizable := inferInstanceAs (Decidable (_ ∨ _))

/-- Toward OperationEnabled the enable-operation bit comes with three of the drive states. -/
theorem fsmStep_enableBit (st : Status) :
    (fsmStep st .operationEnabled).enableBit = decide st.decode.energizable := by
  unfold fsmStep
  cases st.decode <;> decide

namespace Sequencer

/-- The handshake writes enable-operation, with bit 4 or without. -/
theorem stepHandshake_word (q : Sequencer) (st : Status) :
    ∃ n, (q.stepHandshake st).2 = ControlWord.enableOperation.withNewSetpoint n := by
  have hlow : ControlWord.enableOperation
      = ControlWord.enableOperation.withNewSetpoint false := by decide
  unfold stepHandshake
  cases q.handshake with
  | idle => exact ⟨false, hlow⟩
  | clearBit4 => exact ⟨false, hlow⟩
  | writeTarget =>
      dsimp only
      split_ifs
      · exact ⟨false, hlow⟩
      · exact ⟨true, rfl⟩
      · exact ⟨true, rfl⟩
  | awaitAck =>
      dsimp only
      split_ifs
      · exact ⟨true, rfl⟩
      · exact ⟨false, hlow⟩
      · exact ⟨true, rfl⟩
  | awaitAckClear =>
      dsimp only
      split_ifs <;> exact ⟨false, hlow⟩

/-- An energized drive gets enable-operation, with the set-point and the Halt bit. -/
theorem driveOperational_word (f : Fields) (q : Sequencer) (out : Outputs)
    (cmd : SequencerCommand) (st : Status) :
    ∃ n h, (q.driveOperational f out cmd st).2.2
      = (ControlWord.enableOperation.withNewSetpoint n).withHalt h := by
  -- The Halt bit is put on whatever the handshake wrote.
  have hword {base : ControlWord}
      (hbase : ∃ n, base = ControlWord.enableOperation.withNewSetpoint n) :
      ∃ n h, (if cmd.halt then base.withHalt true else base)
        = (ControlWord.enableOperation.withNewSetpoint n).withHalt h := by
    obtain ⟨n, rfl⟩ := hbase
    cases cmd.halt with
    | true => exact ⟨n, true, rfl⟩
    | false => exact ⟨n, false, by cases n <;> decide⟩
  unfold driveOperational
  by_cases hmode : cmd.mode = .profileVelocity
  · rw [if_pos hmode]
    exact hword ⟨false, by decide⟩
  · rw [if_neg hmode]
    exact hword (q.stepHandshake_word st)

/-- The handshake raises bit 4, and Halt bit 8. -/
theorem driveOperational_bit7 (f : Fields) (q : Sequencer) (out : Outputs)
    (cmd : SequencerCommand) (st : Status) :
    (q.driveOperational f out cmd st).2.2.bit7 = false := by
  obtain ⟨n, h, hword⟩ := q.driveOperational_word f out cmd st
  rw [hword]
  cases n <;> cases h <;> decide

theorem stepStopping_bit7 (f : Fields) (q : Sequencer) (inp : CycleInput) (out : Outputs) :
    (q.stepStopping f inp out).controlword.bit7 = false := by
  unfold stepStopping
  dsimp only
  split_ifs
  · show ControlWord.disableVoltage.bit7 = false
    decide
  · show quickStopCw.bit7 = false
    decide

theorem stepSteady_bit7 (f : Fields) (q : Sequencer) {inp : CycleInput} (out : Outputs)
    (cmd : SequencerCommand) (hfault : inp.status.decode ≠ .fault) :
    (q.stepSteady f inp out cmd).controlword.bit7 = false := by
  unfold stepSteady
  -- The toggle of bit 7 is the branch of a drive in Fault.
  simp only [if_neg hfault]
  generalize q.checkMode inp cmd = q'
  by_cases hdrive : (cmd.enable && !q'.state.modeMismatch && inp.status.operationEnabled) = true
  · simp only [if_pos hdrive]
    exact driveOperational_bit7 ..
  · simp only [if_neg hdrive]
    cases hen : cmd.enable with
    | false =>
        show ControlWord.shutdown.bit7 = false
        decide
    | true =>
        simp only [Bool.not_true, Bool.false_eq_true, if_false, fsmStep_bit7]
        exact decide_eq_false hfault

/-- On a drive that is not in Fault the sequencer leaves the reset bit low. -/
theorem step_bit7 (f : Fields) (q : Sequencer) {inp : CycleInput} (out : Outputs)
    (cmd : SequencerCommand) (hfault : inp.status.decode ≠ .fault) :
    (q.step f inp out cmd).controlword.bit7 = false := by
  unfold step
  cases inp.stopping with
  | true => exact stepStopping_bit7 ..
  | false => exact stepSteady_bit7 f _ out cmd hfault

end Sequencer

namespace Servo

/-- On a drive that is not in Fault no mode raises the reset bit. -/
theorem MotionMode.step_bit7 (sqrt : ℚ → ℚ) (f : Fields) (m : MotionMode ℚ) {inp : CycleInput}
    (out : Outputs) (fb : MotionFeedback) (hfault : inp.status.decode ≠ .fault) :
    (m.step sqrt f inp out fb).controlword.bit7 = false := by
  cases m with
  | cyclic m =>
      show ControlWord.enableOperation.bit7 = false
      decide
  | profile m =>
      cases hecho : m.echoed fb with
      | true =>
          rw [MotionMode.step, ProfilePositionMode.step_echoed f inp out hecho]
          exact m.sequencer.step_bit7 f out _ hfault
      | false =>
          rw [MotionMode.step, ProfilePositionMode.step_lagging f inp out hecho]
          exact m.sequencer.step_bit7 f out _ hfault

namespace Controller

variable (p : RtParams) (s : Controller) (inp : CycleInput) (b : CommandBatch)

/-! ### The words of the recovery -/

/-- The cycles that the drive has stayed out of Fault, with this one. -/
def clearStreakAfter : Nat := if inp.status.decode ≠ .fault then s.clearStreak + 1 else 0

/-- The recovery hands the drive back to the enable ladder. -/
def HandsBack : Prop := p.faultResetClearConfirmCycles ≤ s.clearStreakAfter inp

instance : Decidable (HandsBack p s inp) := inferInstanceAs (Decidable (_ ≤ _))

/-- The pacing counter of the recovery in this cycle. -/
def resetCyclesAfter : Nat := (s.resetCycles + 1) % 2 ^ 32

/-- The first word of the recovery: a reset level, unless the emergency stop is engaged. -/
def entryWord : ControlWord :=
  if estopPresent p inp then ControlWord.disableVoltage else ControlWord.faultReset

theorem entryWord_bit7 : (entryWord p inp).bit7 = !estopPresent p inp := by
  unfold entryWord
  cases estopPresent p inp <;> decide

section
variable {p s inp b}

@[simp] theorem routeCommands_resetCycles :
    (s.routeCommands inp b).resetCycles = s.resetCycles := by
  obtain ⟨le, te, w, hf, -, -, h⟩ := s.routeCommands_eq inp b
  rw [h]

theorem stepLifecycle_init_word (hl : s.lifecycle = .init) :
    (s.stepLifecycle p inp b).2 =
      if inp.status.decode = .fault then entryWord p inp else ControlWord.disableVoltage := by
  rw [stepLifecycle_init hl, stepInit]
  split_ifs <;> rfl

/-- The ladder holds at SwitchedOn while the echo lags, but only from the two drive states in
which the next word would be enable-operation or keep it. -/
theorem stepLifecycle_enabling_word (hl : s.lifecycle = .enabling) :
    (s.stepLifecycle p inp b).2 =
      if inp.status.decode = .fault then entryWord p inp
      else if modeEchoed p inp (s.routedMotion inp b).commandedMode = false ∧
          (inp.status.decode = .switchedOn ∨ inp.status.decode = .operationEnabled) then
        fsmStep inp.status .switchedOn
      else fsmStep inp.status .operationEnabled := by
  rw [stepLifecycle_enabling hl, stepEnabling]
  simp only [routeCommands_motion, Bool.not_eq_true']
  split_ifs <;> rfl

/-- What Resetting writes: the operator's disable first, then the hand-back, then the
operator's reset, then the paced one. -/
theorem stepLifecycle_resetting_word (hl : s.lifecycle = .resetting) :
    (s.stepLifecycle p inp b).2 =
      if b.disable then ControlWord.disableVoltage
      else if HandsBack p s inp then fsmStep inp.status .operationEnabled
      else if b.faultReset ∨ (inp.status.decode = .fault ∧ estopPresent p inp = false ∧
          s.resetCyclesAfter % p.faultResetWindowCycles = 0) then ControlWord.faultReset
      else ControlWord.disableVoltage := by
  rw [stepLifecycle_resetting hl]
  simp only [stepResetting, routeCommands_clearStreak, routeCommands_resetCycles, HandsBack,
    clearStreakAfter, resetCyclesAfter, Bool.not_eq_true', ge_iff_le]
  cases b.disable with
  | true => rfl
  | false =>
      cases b.faultReset <;> simp only [Bool.false_eq_true, if_false, if_true, true_or, false_or]
        <;> split_ifs <;> rfl

/-- Where Resetting goes, and its pacing counter while it stays. -/
theorem stepLifecycle_resetting_next (hl : s.lifecycle = .resetting)
    (hdis : b.disable = false) :
    (HandsBack p s inp → (s.stepLifecycle p inp b).1.lifecycle = .enabling) ∧
    (¬ HandsBack p s inp → (s.stepLifecycle p inp b).1.lifecycle = .resetting ∧
      (s.stepLifecycle p inp b).1.resetCycles
        = if b.faultReset then 0 else s.resetCyclesAfter) := by
  rw [stepLifecycle_resetting hl]
  simp only [stepResetting, routeCommands_clearStreak, routeCommands_resetCycles, HandsBack,
    clearStreakAfter, resetCyclesAfter, ge_iff_le, hdis, Bool.false_eq_true, if_false]
  generalize (if inp.status.decode ≠ .fault then s.clearStreak + 1 else 0) = streak
  constructor
  · intro hback
    rw [if_pos hback]
  · intro hstay
    rw [if_neg hstay]
    cases b.faultReset <;> simp [hl]

theorem stepLifecycle_disabled_word (hl : s.lifecycle = .disabled) :
    (s.stepLifecycle p inp b).2 = ControlWord.disableVoltage := by
  rw [stepLifecycle_disabled hl, stepDisabled]
  split_ifs <;> rfl

end

end Controller

open Controller

/-- The controlword in the output image is the one the controller remembers, after every
cycle. -/
theorem written_eq_lastCw (p : RtParams) (s : Controller) (t : Tick) :
    (cycle p s t).outputs.controlword = (cycle p s t).lastCw := by
  cases hstop : t.inp.stopping with
  | false => exact cycle_controlword hstop
  | true =>
      simp only [cycle, hstop, if_true, stepStopping]
      rfl

end Servo

end ViamEthercat
