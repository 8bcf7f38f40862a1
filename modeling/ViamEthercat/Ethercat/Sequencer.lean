import ViamEthercat.Ethercat.Cycle

/-!
# `ViamEthercat.Ethercat.Sequencer`: the profile-mode sequencer

The model of `ethercat/cia402_sequencer.hpp`: the enable ladder, the mode-echo check, the
four-phase new-set-point handshake and the quick-stop of the stopping window. `configure`
resolves the fields and runs the quick-stop SDOs before the loop starts and is not part of
the cyclic state.

`Sequencer.step` follows the order of the source: the feedback and the halt-settle count
first (`observe`), then a new set-point (`arm`), then the stopping window, the mode-echo
check (`checkMode`) and one of the four sources of the controlword.
-/

set_option autoImplicit false

namespace ViamEthercat

/-- What the wrapper asks of the sequencer this cycle. -/
structure SequencerCommand where
  mode : Cia402Mode := .profilePosition
  targetCounts : Int32 := 0
  profileVelocity : UInt32 := 0
  targetVelocity : Int32 := 0
  enable : Bool := false
  halt : Bool := false
  newSetpoint : Bool := false
deriving DecidableEq, Repr

/-- The state the sequencer publishes to its wrapper. -/
structure SequencerState where
  currentMode : Int8 := 0
  faultCode : BitVec 16 := 0#16
  modeMismatch : Bool := false
  handshakeIdle : Bool := true
  handshakeTimedOut : Bool := false
deriving DecidableEq, Repr

/-- The phases of the new-set-point handshake. -/
inductive Handshake where
  | idle
  | writeTarget
  | awaitAck
  | clearBit4
  | awaitAckClear
deriving DecidableEq, Repr

/-- Cycles the written Halt bit must have been clear before bit 4 is raised. -/
def setpointHaltSettleCycles : Nat := 2

/-- Cycles to wait for the acknowledge, and again for its release. -/
def handshakeTimeoutCycles : Nat := 100

/-- The quick-stop controlword 0x0B: `enableOperation` with bit 2 cleared. -/
def quickStopCw : ControlWord := ControlWord.enableOperation &&& ~~~0x0004#16

/-- `Cia402Sequencer`, without the resolved field locations. -/
structure Sequencer where
  state : SequencerState := {}
  handshake : Handshake := .idle
  handshakeCyclesRemaining : Nat := 0
  haltClearCycles : Nat := setpointHaltSettleCycles
  lastCw : ControlWord := 0#16
  announcedOp : Bool := false
  modeChecked : Bool := false
  bit4High : Bool := false
  bit4Edges : Nat := 0
deriving DecidableEq, Repr

namespace Sequencer

/-- `Cia402Sequencer::reset`: every per-run field back to its initial value. -/
def reset (_ : Sequencer) : Sequencer := {}

/-- The head of `step`: publish the feedback, re-arm the timeout report, and count the
cycles the written controlword has had Halt clear. -/
def observe (f : Fields) (q : Sequencer) (inp : CycleInput) : Sequencer :=
  { q with
      state := { q.state with
        faultCode := if f.faultCode then inp.faultCode else 0#16
        currentMode := if f.modeDisplay then inp.modeDisplay else 0
        handshakeTimedOut := false }
      haltClearCycles :=
        if q.lastCw.halt then 0
        else if q.haltClearCycles < setpointHaltSettleCycles then q.haltClearCycles + 1
        else q.haltClearCycles }

/-- A new set-point signalled by the wrapper restarts the handshake. -/
def arm (q : Sequencer) : Sequencer :=
  { q with
      handshake := .writeTarget
      state := { q.state with handshakeIdle := false }
      bit4High := false }

/-- The mode-echo check is due: at SwitchedOn, before OperationEnabled, once. -/
def modeCheckDue (q : Sequencer) (inp : CycleInput) (cmd : SequencerCommand) : Bool :=
  cmd.enable && !q.modeChecked && !q.state.modeMismatch && inp.status.switchedOn &&
    !inp.status.operationEnabled

/-- The mode-echo check: a match is remembered, a mismatch refuses to enable. -/
def checkMode (q : Sequencer) (inp : CycleInput) (cmd : SequencerCommand) : Sequencer :=
  if q.modeCheckDue inp cmd then
    if q.state.currentMode = cmd.mode.code then { q with modeChecked := true }
    else { q with state := { q.state with modeMismatch := true } }
  else q

/-- The check of `checkMode` fails this cycle, which asks the Runner to stop. -/
def modeCheckFails (q : Sequencer) (inp : CycleInput) (cmd : SequencerCommand) : Bool :=
  q.modeCheckDue inp cmd && !decide (q.state.currentMode = cmd.mode.code)

/-- One cycle of the handshake: the next phase and the controlword before Halt. -/
def stepHandshake (q : Sequencer) (status : Status) : Sequencer × ControlWord :=
  let base := ControlWord.enableOperation
  let high := ControlWord.withNewSetpoint base true
  match q.handshake with
  | .idle => (q, base)
  | .writeTarget =>
      -- Halt not yet seen clear for a full cycle: hold bit 4 low and stay here.
      if q.haltClearCycles < setpointHaltSettleCycles then (q, base)
      else
        ({ q with
            bit4Edges := if q.bit4High then q.bit4Edges else q.bit4Edges + 1
            bit4High := true
            handshake := .awaitAck
            handshakeCyclesRemaining := handshakeTimeoutCycles }, high)
  | .awaitAck =>
      -- Bit 4 stays high until the cycle after the acknowledge.
      if status.setpointAcknowledged then ({ q with handshake := .clearBit4 }, high)
      else if q.handshakeCyclesRemaining = 0 then
        ({ q with
            state := { q.state with handshakeTimedOut := true }
            handshake := .idle
            bit4High := false }, base)
      else
        ({ q with handshakeCyclesRemaining := q.handshakeCyclesRemaining - 1 }, high)
  | .clearBit4 =>
      ({ q with
          handshake := .awaitAckClear
          handshakeCyclesRemaining := handshakeTimeoutCycles
          bit4High := false }, base)
  | .awaitAckClear =>
      -- Settled only when the drive has taken the acknowledge back.
      if !status.setpointAcknowledged then ({ q with handshake := .idle }, base)
      else if q.handshakeCyclesRemaining = 0 then
        ({ q with
            state := { q.state with handshakeTimedOut := true }
            handshake := .idle }, base)
      else
        ({ q with handshakeCyclesRemaining := q.handshakeCyclesRemaining - 1 }, base)

/-- `drive_operational_`: write the mode's command objects and give the controlword. -/
def driveOperational (f : Fields) (q : Sequencer) (out : Outputs) (cmd : SequencerCommand)
    (status : Status) : Sequencer × Outputs × ControlWord :=
  let out := out.storeMode f cmd.mode
  -- Profile velocity has no handshake, and an unfinished one keeps its phase.
  if cmd.mode = .profileVelocity then
    let base := ControlWord.enableOperation
    (q, out.storeTargetVelocity f cmd.targetVelocity,
      if cmd.halt then base.withHalt true else base)
  else
    let out := (out.storeTargetPosition f cmd.targetCounts).storeProfileVelocity f
      cmd.profileVelocity
    let (q, base) := q.stepHandshake status
    ({ q with state := { q.state with handshakeIdle := decide (q.handshake = .idle) } }, out,
      if cmd.halt then base.withHalt true else base)

/-- The stopping window: quick-stop while the drive is energized, else disable-voltage. The
word is not recorded in `lastCw`. -/
def stepStopping (f : Fields) (q : Sequencer) (inp : CycleInput) (out : Outputs) :
    StepResult Sequencer :=
  let qcw :=
    if !q.announcedOp || inp.status.fault || inp.status.switchOnDisabled then
      ControlWord.disableVoltage
    else quickStopCw
  ⟨q, (out.storeTargetVelocity f 0).storeControlword qcw, false, qcw⟩

/-- The steady part of `step`, after the new set-point was taken. -/
def stepSteady (f : Fields) (q : Sequencer) (inp : CycleInput) (out : Outputs)
    (cmd : SequencerCommand) : StepResult Sequencer :=
  let out := out.storeMode f cmd.mode
  let stop := q.modeCheckFails inp cmd
  let q := q.checkMode inp cmd
  -- A mismatch found in this very cycle already refuses to enable.
  let enable := cmd.enable && !q.state.modeMismatch
  let (q, out, cw) :=
    if inp.status.decode = .fault then
      -- Toggle bit 7, so that the drive sees a rising edge.
      (q, out,
        if q.lastCw &&& ControlWord.faultResetBit ≠ 0#16 then 0#16 else ControlWord.faultReset)
    else if enable && inp.status.operationEnabled then
      driveOperational f { q with announcedOp := true } out cmd inp.status
    -- The wrapper asked to de-energize: `shutdown` at any rung of the ladder.
    else if !cmd.enable then (q, out, ControlWord.shutdown)
    else (q, out, fsmStep inp.status (if enable then .operationEnabled else .readyToSwitchOn))
  ⟨{ q with lastCw := cw }, out.storeControlword cw, stop, cw⟩

/-- `Cia402Sequencer::step`. -/
def step (f : Fields) (q : Sequencer) (inp : CycleInput) (out : Outputs)
    (cmd : SequencerCommand) : StepResult Sequencer :=
  let q := q.observe f inp
  let q := if cmd.newSetpoint then q.arm else q
  if inp.stopping then q.stepStopping f inp out else q.stepSteady f inp out cmd

end Sequencer

end ViamEthercat
