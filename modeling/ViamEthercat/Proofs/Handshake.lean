import ViamEthercat.Proofs.Motion

/-!
# `ViamEthercat.Proofs.Handshake`: one cycle of the new-set-point handshake

The sequencer as the proofs about set-points see it.

* `HandshakeStep` is one cycle of the handshake: the next phase, the level of bit 4 in the
  controlword, and whether a wait expired. `Sequencer.step_handshake` says that every cycle is
  one of its cases.
* `FlagSound`: the published `handshake_idle` is the phase. Every cycle keeps it.
* `ProfilePositionMode.step_handshake`: the same for the profile mode, which hands a pending
  set-point over once the drive echoes the commanded mode.
-/

set_option autoImplicit false

namespace ViamEthercat

/-- No word of the enable ladder has bit 4 set. -/
theorem fsmStep_bit4 (status : Status) (goal : Cia402State) :
    (fsmStep status goal).bit4 = false := by
  unfold fsmStep
  cases goal <;> cases status.decode <;> rfl

/-- Halt does not touch bit 4. -/
theorem ControlWord.bit4_withHalt (cw : ControlWord) : (cw.withHalt true).bit4 = cw.bit4 := by
  simp only [ControlWord.withHalt, ControlWord.bit4, ControlWord.haltBit, if_true,
    BitVec.getLsbD_or]
  simp

namespace Sequencer

variable (f : Fields) (inp : CycleInput) (out : Outputs) (cmd : SequencerCommand)

/-- The sequencer when it chooses the controlword: the feedback was published, and a new
set-point was taken. -/
def taken (q : Sequencer) : Sequencer :=
  if cmd.newSetpoint then (q.observe f inp).arm else q.observe f inp

theorem taken_handshake (q : Sequencer) : (q.taken f inp cmd).handshake =
    if cmd.newSetpoint then .writeTarget else q.handshake := by
  unfold taken
  split_ifs <;> rfl

/-- One cycle of the handshake of `q`: the next phase, bit 4 of the controlword, and whether
a wait expired. -/
inductive HandshakeStep (q : Sequencer) : Handshake → Bool → Bool → Prop where
  /-- the phase stays and bit 4 is low: Idle, Halt not settled, the acknowledge still high,
  or a drive that is not energized in profile position -/
  | held : HandshakeStep q q.handshake false false
  /-- the rising edge -/
  | raised (h : q.handshake = .writeTarget)
      (hsettled : setpointHaltSettleCycles ≤ q.haltClearCycles)
      (hmode : cmd.mode ≠ .profileVelocity) (hon : inp.status.operationEnabled = true) :
      HandshakeStep q .awaitAck true false
  | waiting (h : q.handshake = .awaitAck) : HandshakeStep q .awaitAck true false
  | acknowledged (h : q.handshake = .awaitAck)
      (hack : inp.status.setpointAcknowledged = true) : HandshakeStep q .clearBit4 true false
  | cleared (h : q.handshake = .clearBit4) : HandshakeStep q .awaitAckClear false false
  | released (h : q.handshake = .awaitAckClear)
      (hack : inp.status.setpointAcknowledged = false) : HandshakeStep q .idle false false
  | expired (h : q.handshake = .awaitAck ∨ q.handshake = .awaitAckClear) :
      HandshakeStep q .idle false true

section
variable {f inp out cmd}

/-- The four-phase handshake, once the drive is energized in a mode other than profile
velocity. -/
theorem stepHandshake_cases {q : Sequencer} (hmode : cmd.mode ≠ .profileVelocity)
    (hon : inp.status.operationEnabled = true) (hout : q.state.handshakeTimedOut = false) :
    HandshakeStep inp cmd q (q.stepHandshake inp.status).1.handshake
      (q.stepHandshake inp.status).2.bit4
      (q.stepHandshake inp.status).1.state.handshakeTimedOut := by
  have hlow : ControlWord.enableOperation.bit4 = false := by decide
  have hhigh : (ControlWord.enableOperation.withNewSetpoint true).bit4 = true := by decide
  unfold stepHandshake
  cases hq : q.handshake with
  | idle =>
      simp only [hlow, hout]
      exact .held
  | writeTarget =>
      -- The edge waits until the drive has seen Halt clear for a full cycle.
      by_cases hsettled : q.haltClearCycles < setpointHaltSettleCycles
      · simp only [hsettled, if_true, hlow, hout]
        exact .held
      · simp only [hsettled, if_false, hhigh, hout]
        exact .raised hq (not_lt.mp hsettled) hmode hon
  | awaitAck =>
      by_cases hack : inp.status.setpointAcknowledged = true
      · simp only [hack, if_true, hhigh, hout]
        exact .acknowledged hq hack
      · by_cases hzero : q.handshakeCyclesRemaining = 0
        · simp only [hack, hzero, if_true, if_false, hlow, Bool.false_eq_true]
          exact .expired (.inl hq)
        · simp only [hack, hzero, if_false, hhigh, hout, Bool.false_eq_true]
          exact .waiting hq
  | clearBit4 =>
      simp only [hlow, hout]
      exact .cleared hq
  | awaitAckClear =>
      by_cases hack : inp.status.setpointAcknowledged = true
      · by_cases hzero : q.handshakeCyclesRemaining = 0
        · simp only [hack, hzero, if_true, hlow, Bool.not_true, Bool.false_eq_true, if_false]
          exact .expired (.inr hq)
        · simp only [hack, hzero, if_false, hlow, hout, Bool.not_true, Bool.false_eq_true]
          exact hq ▸ .held
      · simp only [hack, Bool.not_false, if_true, hlow, hout]
        exact .released hq (by simpa using hack)

/-- The handshake reads the phase and the halt-settle count, and nothing else. -/
theorem HandshakeStep.congr {q q' : Sequencer} {h : Handshake} {bit4 timedOut : Bool}
    (hstep : HandshakeStep inp cmd q h bit4 timedOut) (hphase : q.handshake = q'.handshake)
    (hcount : q.haltClearCycles = q'.haltClearCycles) :
    HandshakeStep inp cmd q' h bit4 timedOut := by
  cases hstep with
  | held => exact hphase ▸ .held
  | raised h hsettled hmode hon => exact .raised (hphase ▸ h) (hcount ▸ hsettled) hmode hon
  | waiting h => exact .waiting (hphase ▸ h)
  | acknowledged h hack => exact .acknowledged (hphase ▸ h) hack
  | cleared h => exact .cleared (hphase ▸ h)
  | released h hack => exact .released (hphase ▸ h) hack
  | expired h => exact .expired (hphase ▸ h)

/-! The cycle read off by the phase it starts from. -/

section
variable {q : Sequencer} {h : Handshake} {bit4 timedOut : Bool}

/-- From WriteTarget the handshake is held with bit 4 low, or raises it. -/
theorem HandshakeStep.of_writeTarget (hstep : HandshakeStep inp cmd q h bit4 timedOut)
    (hq : q.handshake = .writeTarget) :
    (h = .writeTarget ∧ bit4 = false) ∨
      (h = .awaitAck ∧ bit4 = true ∧ setpointHaltSettleCycles ≤ q.haltClearCycles ∧
        cmd.mode ≠ .profileVelocity ∧ inp.status.operationEnabled = true) := by
  cases hstep with
  | held => exact .inl ⟨hq, rfl⟩
  | raised _ hsettled hmode hon => exact .inr ⟨rfl, rfl, hsettled, hmode, hon⟩
  | _ => simp_all

theorem HandshakeStep.of_awaitAck (hstep : HandshakeStep inp cmd q h bit4 false)
    (hq : q.handshake = .awaitAck) :
    h = .awaitAck ∨ (h = .clearBit4 ∧ inp.status.setpointAcknowledged = true) := by
  cases hstep with
  | held => exact .inl hq
  | waiting => exact .inl rfl
  | acknowledged _ hack => exact .inr ⟨rfl, hack⟩
  | _ => simp_all

theorem HandshakeStep.of_clearBit4 (hstep : HandshakeStep inp cmd q h bit4 false)
    (hq : q.handshake = .clearBit4) : h = .clearBit4 ∨ h = .awaitAckClear := by
  cases hstep with
  | held => exact .inl hq
  | cleared => exact .inr rfl
  | _ => simp_all

theorem HandshakeStep.of_awaitAckClear (hstep : HandshakeStep inp cmd q h bit4 false)
    (hq : q.handshake = .awaitAckClear) :
    h = .awaitAckClear ∨ (h = .idle ∧ inp.status.setpointAcknowledged = false) := by
  cases hstep with
  | held => exact .inl hq
  | released _ hack => exact .inr ⟨rfl, hack⟩
  | _ => simp_all

/-- Bit 4 is high only while the acknowledge is awaited, and in the cycle that sees it. -/
theorem HandshakeStep.phase_of_high (hstep : HandshakeStep inp cmd q h true timedOut) :
    h = .awaitAck ∨ h = .clearBit4 := by
  cases hstep with
  | acknowledged => exact .inr rfl
  | _ => exact .inl rfl

/-- The handshake has bit 4 to raise or to hold. -/
def Armed (q : Sequencer) : Prop := q.handshake = .writeTarget ∨ q.handshake = .awaitAck

instance (q : Sequencer) : Decidable q.Armed := inferInstanceAs (Decidable (_ ∨ _))

/-- Only an armed handshake raises bit 4 or holds it. -/
theorem HandshakeStep.armed_of_high (hstep : HandshakeStep inp cmd q h true timedOut) :
    q.Armed := by
  cases hstep with
  | raised hq => exact .inl hq
  | waiting hq => exact .inr hq
  | acknowledged hq => exact .inr hq

/-- A handshake is armed by a new set-point only. -/
theorem HandshakeStep.armed_before (hstep : HandshakeStep inp cmd q h bit4 timedOut)
    (harmed : h = .writeTarget ∨ h = .awaitAck) : q.Armed := by
  cases hstep with
  | held => exact harmed
  | raised hq => exact .inl hq
  | waiting hq => exact .inr hq
  | _ => simp at harmed

end

/-- The energized drive: one cycle of the handshake, in profile velocity a held one. -/
theorem driveOperational_handshake (f : Fields) (q : Sequencer) (out : Outputs)
    (cmd : SequencerCommand) (hon : inp.status.operationEnabled = true)
    (hout : q.state.handshakeTimedOut = false) :
    HandshakeStep inp cmd q (driveOperational f q out cmd inp.status).1.handshake
      (driveOperational f q out cmd inp.status).2.2.bit4
      (driveOperational f q out cmd inp.status).1.state.handshakeTimedOut := by
  have hlow : ControlWord.enableOperation.bit4 = false := by decide
  unfold driveOperational
  by_cases hmode : cmd.mode = .profileVelocity
  · simp only [hmode, if_true]
    -- Profile velocity writes no bit 4, whatever the phase is.
    have hbit : (if cmd.halt then ControlWord.enableOperation.withHalt true
        else ControlWord.enableOperation).bit4 = false := by
      split_ifs
      · rw [ControlWord.bit4_withHalt, hlow]
      · exact hlow
    rw [hbit, hout]
    exact .held
  · simp only [hmode, if_false]
    have hbit : (if cmd.halt then (q.stepHandshake inp.status).2.withHalt true
        else (q.stepHandshake inp.status).2).bit4 = (q.stepHandshake inp.status).2.bit4 := by
      split_ifs
      · rw [ControlWord.bit4_withHalt]
      · rfl
    rw [hbit]
    exact stepHandshake_cases hmode hon hout

/-- The mode-echo check leaves the handshake alone. -/
theorem checkMode_frame (inp : CycleInput) (cmd : SequencerCommand) (q : Sequencer) :
    (q.checkMode inp cmd).handshake = q.handshake ∧
      (q.checkMode inp cmd).haltClearCycles = q.haltClearCycles ∧
      (q.checkMode inp cmd).state.handshakeIdle = q.state.handshakeIdle ∧
      (q.checkMode inp cmd).state.handshakeTimedOut = q.state.handshakeTimedOut := by
  unfold checkMode
  split_ifs <;> exact ⟨rfl, rfl, rfl, rfl⟩

/-- A drive that is energized is past the mode-echo check, which leaves the sequencer alone. -/
theorem checkMode_of_operationEnabled (q : Sequencer) (cmd : SequencerCommand)
    (hon : inp.status.operationEnabled = true) : q.checkMode inp cmd = q := by
  simp [checkMode, modeCheckDue, hon]

/-- Taking a command leaves the verdict of the mode check, the announcement and the counters. -/
theorem taken_frame (f : Fields) (q : Sequencer) (inp : CycleInput) (cmd : SequencerCommand) :
    (q.taken f inp cmd).state.modeMismatch = q.state.modeMismatch ∧
    (q.taken f inp cmd).announcedOp = q.announcedOp ∧
    (q.taken f inp cmd).handshakeCyclesRemaining = q.handshakeCyclesRemaining ∧
    (q.taken f inp cmd).haltClearCycles = (q.observe f inp).haltClearCycles := by
  unfold taken
  split_ifs <;> exact ⟨rfl, rfl, rfl, rfl⟩

theorem taken_timedOut (f : Fields) (inp : CycleInput) (cmd : SequencerCommand)
    (q : Sequencer) :
    (q.taken f inp cmd).state.handshakeTimedOut = false := by
  unfold taken
  split_ifs <;> rfl

theorem step_eq (q : Sequencer) : q.step f inp out cmd =
    if inp.stopping then (q.taken f inp cmd).stepStopping f inp out
    else (q.taken f inp cmd).stepSteady f inp out cmd := rfl

/-- Every cycle is one cycle of the handshake. The stopping window, a drive fault and a drive
that is not energized hold it. -/
theorem step_handshake (q : Sequencer) :
    HandshakeStep inp cmd (q.taken f inp cmd) (q.step f inp out cmd).next.handshake
      (q.step f inp out cmd).controlword.bit4
      (q.step f inp out cmd).next.state.handshakeTimedOut := by
  have hout := taken_timedOut f inp cmd q
  rw [step_eq]
  -- From here on the argument is about any sequencer whose timeout report is clear.
  generalize q.taken f inp cmd = q at hout
  split_ifs
  · unfold stepStopping
    have hqcw : (if (!q.announcedOp || inp.status.fault || inp.status.switchOnDisabled) = true
        then ControlWord.disableVoltage else quickStopCw).bit4 = false := by
      split_ifs <;> rfl
    dsimp only
    rw [hqcw, hout]
    exact .held
  obtain ⟨hphase, hcount, -, htimed⟩ := checkMode_frame inp cmd q
  -- The branches that do not reach the handshake keep the phase and hold bit 4 low.
  have hheld (cw : ControlWord) (hcw : cw.bit4 = false) :
      HandshakeStep inp cmd q (q.checkMode inp cmd).handshake cw.bit4
        (q.checkMode inp cmd).state.handshakeTimedOut := by
    rw [hcw, hphase, htimed, hout]
    exact .held
  unfold stepSteady
  dsimp only
  split_ifs with hdec hbit hon henable henable
  · exact hheld 0#16 (by decide)
  · exact hheld ControlWord.faultReset (by decide)
  · have hdrive := driveOperational_handshake f { q.checkMode inp cmd with announcedOp := true }
      (out.storeMode f cmd.mode) cmd (Bool.and_eq_true_iff.mp hon).2 (htimed.trans hout)
    exact hdrive.congr hphase hcount
  · exact hheld ControlWord.shutdown (by decide)
  · exact hheld _ (fsmStep_bit4 _ _)
  · exact hheld _ (fsmStep_bit4 _ _)

/-- The published flag says whether the handshake is Idle. -/
def FlagSound (q : Sequencer) : Prop := q.state.handshakeIdle = decide (q.handshake = .idle)

/-- Every cycle keeps the published flag in step with the handshake. -/
theorem flagSound_step (q : Sequencer) (h : q.FlagSound) :
    (q.step f inp out cmd).next.FlagSound := by
  have htaken : (q.taken f inp cmd).FlagSound := by
    unfold taken
    split_ifs
    · rfl
    · exact h
  rw [step_eq]
  -- A new set-point sets the phase and the flag together, so the flag is sound here.
  generalize q.taken f inp cmd = q at htaken
  have hcheck : (q.checkMode inp cmd).FlagSound := by
    obtain ⟨hphase, -, hflag, -⟩ := checkMode_frame inp cmd q
    unfold FlagSound
    rw [hphase, hflag]
    exact htaken
  split_ifs
  · exact htaken
  · unfold stepSteady driveOperational
    dsimp only
    split_ifs <;> first | exact hcheck | rfl

end

end Sequencer

/-! ### The profile mode -/

namespace Servo.ProfilePositionMode

variable (f : Fields) (inp : CycleInput) (out : Outputs) (fb : MotionFeedback)
  (m : ProfilePositionMode)

/-- The command that a step gives to the sequencer. -/
def issued : SequencerCommand := if m.echoed fb then m.echoedCommand else m.laggingCommand

theorem issued_mode : (m.issued fb).mode = m.intent := by
  unfold issued
  split_ifs <;> rfl

/-- The mode always asks the sequencer to enable. -/
theorem issued_enable : (m.issued fb).enable = true := by
  unfold issued
  split_ifs <;> rfl

theorem issued_newSetpoint :
    (m.issued fb).newSetpoint = (m.echoed fb && m.pendingNewSetpoint) := by
  unfold issued
  cases m.echoed fb <;> rfl

theorem step_sequencer :
    (m.step f inp out fb).next.sequencer = (m.sequencer.step f inp out (m.issued fb)).next ∧
      (m.step f inp out fb).controlword
        = (m.sequencer.step f inp out (m.issued fb)).controlword := by
  unfold issued
  cases h : m.echoed fb with
  | true =>
      rw [step_echoed f inp out h]
      exact ⟨rfl, rfl⟩
  | false =>
      rw [step_lagging f inp out h]
      exact ⟨rfl, rfl⟩

/-- A pending set-point waits for the mode echo, unless the wait expires. -/
theorem step_pending (h : (m.step f inp out fb).next.modeNotAdopted = false) :
    (m.step f inp out fb).next.pendingNewSetpoint
      = (!m.echoed fb && m.pendingNewSetpoint) := by
  cases he : m.echoed fb with
  | true => rw [step_echoed f inp out he]; rfl
  | false =>
      rw [step_lagging f inp out he] at h ⊢
      simp only [StepResult.map_next, waitEcho] at h ⊢
      split_ifs at h ⊢
      · rfl

/-- A step of the profile mode is one cycle of the handshake. -/
theorem step_handshake :
    Sequencer.HandshakeStep inp (m.issued fb) (m.sequencer.taken f inp (m.issued fb))
      (m.step f inp out fb).next.sequencer.handshake (m.step f inp out fb).controlword.bit4
      (m.step f inp out fb).next.sequencer.state.handshakeTimedOut := by
  obtain ⟨hseq, hcw⟩ := m.step_sequencer f inp out fb
  rw [hseq, hcw]
  exact m.sequencer.step_handshake

theorem flagSound_reset : m.reset.sequencer.FlagSound := rfl

theorem flagSound_step (h : m.sequencer.FlagSound) :
    (m.step f inp out fb).next.sequencer.FlagSound := by
  rw [(m.step_sequencer f inp out fb).1]
  exact m.sequencer.flagSound_step h

/-- The stopping window leaves the handshake, the pending set-point and the mode alone. -/
theorem stepShutdown_frame (hstop : inp.stopping = true) :
    (m.stepShutdown f inp out).next.sequencer.handshake = m.sequencer.handshake ∧
      (m.stepShutdown f inp out).next.pendingNewSetpoint = m.pendingNewSetpoint ∧
      (m.stepShutdown f inp out).next.intent = m.intent := by
  unfold stepShutdown
  split_ifs
  · -- The quick-stop command carries no set-point, so nothing is armed.
    refine ⟨?_, rfl, rfl⟩
    rw [Sequencer.step_eq, if_pos hstop]
    rfl
  · exact ⟨rfl, rfl, rfl⟩

theorem flagSound_stepShutdown (h : m.sequencer.FlagSound) :
    (m.stepShutdown f inp out).next.sequencer.FlagSound := by
  unfold stepShutdown
  split_ifs
  · exact m.sequencer.flagSound_step h
  · exact h

end Servo.ProfilePositionMode

end ViamEthercat
