import ViamEthercat.Ethercat.CommandQueue
import ViamEthercat.Servo.MotionMode
import Mathlib.Data.Rat.Floor

/-!
# `ViamEthercat.Servo.Controller`: the real-time half of `ServoController`

The model of the RT loop of `viam/lib/servo_controller.cpp`: the lifecycle state machine
(`step_lifecycle`), the published state (`publish_state`), the stopping window and the start
of a run (`reset_run_state`, `stage_bringup_outputs`). A `double` of the trajectory generator
is a rational.

`Controller` is one record. Its first part is what the loop publishes to the API threads
(`ControllerState`, `rt_error_`, `wake_seq_`), with the values that no part of the loop reads
back in `Telemetry`. Its second part is the loop's own working state, and its last part the
selected motion mode and the output image. `cycle` is one dispatch: the input image, and the
commands that `drain` pops in it.

What the loop only logs (`last_logged_fault_code_`, the log lines) is left out, and so are
the fields that only the non-RT side writes or reads (`expected_wkc`, `bringup_al_code`).
-/

set_option autoImplicit false

namespace ViamEthercat.Servo

/-- The configuration the loop reads, with the fields that `resolve_fields` found in the PDO
map and the `target_reached_bit_usable` seam of the device. -/
structure RtParams where
  fields : Fields
  /-- the 0x603F code of an engaged emergency stop, 0 when not configured -/
  estopFaultCode : BitVec 16
  faultResetWindowCycles : Nat
  faultResetClearConfirmCycles : Nat
  positionToleranceCounts : Int32
  targetLoopRateHz : Nat
  targetReachedBitUsable : Bool
  /-- `std::sqrt` of the trajectory profile -/
  sqrt : ℚ → ℚ

/-- The lifecycle states. -/
inductive Lifecycle where
  | init
  | enabling
  | operational
  | resetting
  | homing
  | disabled
deriving DecidableEq, Repr

/-- Controller-tier fault reasons. -/
inductive RtError where
  | none
  | handshakeTimeout
  | notOperational
  | motorStopped
  | motorDisabled
  | modeMismatch
  | rtSetupFailed
deriving DecidableEq, Repr

/-- The homing procedure as the API sees it. -/
inductive HomingState where
  | idle
  | running
  | done
  | failed
deriving DecidableEq, Repr

/-- Why a homing run failed. -/
inductive HomingFail where
  | none
  | modeNotAdopted
  | driveError
  | timeout
  | cancelled
  | driveFault
  | notOperational
deriving DecidableEq, Repr

/-- What the loop publishes for the accessors. The loop itself reads back only `faulted`, to
find the onset of a fault. -/
structure Telemetry where
  positionCounts : Int32 := 0
  velocity : Int32 := 0
  powered : Bool := false
  moving : Bool := false
  modeEcho : Int8 := 0
  faulted : Bool := false
  faultWkc : Int := 0
  wkcFaulted : Bool := false
  driveFaulted : Bool := false
  driveWarning : Bool := false
  driveFaultCode : BitVec 16 := 0#16
  loopCycle : Nat := 0
  rtError : RtError := .none
deriving DecidableEq, Repr

/-- The ring of the last actual positions (`pos_hist_`). -/
structure PositionRing where
  hist : List Int32 := []
  idx : Nat := 0
  filled : Nat := 0
deriving DecidableEq, Repr

/-- The window of `resolve_fields`: 20 ms of cycles, and at least 3. -/
def positionWindow (targetLoopRateHz : Nat) : Nat := max 3 (targetLoopRateHz / 50)

/-- The ring as `resolve_fields` sizes it. -/
def PositionRing.sized (window : Nat) : PositionRing := { hist := List.replicate window 0 }

/-- `position_stable`: push into the ring, and compare its range with the tolerance once it
is full. The difference is taken in `int32_t`. -/
def PositionRing.push (r : PositionRing) (tolerance actual : Int32) : PositionRing × Bool :=
  if r.hist = [] then (r, false)
  else
    let hist := r.hist.set r.idx actual
    let idx := (r.idx + 1) % hist.length
    if r.filled < hist.length then (⟨hist, idx, r.filled + 1⟩, false)
    else
      let lo := hist.foldl min (hist.headD 0)
      let hi := hist.foldl max (hist.headD 0)
      (⟨hist, idx, r.filled⟩, decide (hi - lo ≤ tolerance))

/-- The state of the RT loop. -/
structure Controller where
  -- Published to the API threads.
  telemetry : Telemetry := {}
  zeroOffsetCounts : Int32 := 0
  activeGeneration : Nat := 0
  completedGeneration : Nat := 0
  failedGeneration : Nat := 0
  homingState : HomingState := .idle
  homingFail : HomingFail := .none
  homed : Bool := false
  homeCounts : Int32 := 0
  wakeSeq : Nat := 0
  -- The loop's working state.
  lifecycle : Lifecycle := .init
  lastCw : ControlWord := 0#16
  resetCycles : Nat := 0
  clearStreak : Nat := 0
  modeEchoWait : Nat := 0
  homingCycles : Nat := 0
  homingTimeoutCycles : Nat := 0
  homingEchoWait : Nat := 0
  prevActual : Int32 := 0
  firstCycle : Bool := true
  posHist : PositionRing := {}
  atRest : Bool := false
  stopAtRest : Bool := false
  latchedCtrlError : RtError := .none
  -- The mode, the output image, and whether this control asked the Runner to stop.
  motion : MotionMode ℚ
  outputs : Outputs := Outputs.zero
  stopRequested : Bool := false
deriving DecidableEq

namespace Controller

variable (p : RtParams) (s : Controller) (inp : CycleInput)

/-! ### The start of a run -/

/-- `reset_run_state`, the part that the loop owns. -/
def resetRunState : Controller :=
  { s with
      telemetry := { s.telemetry with
        rtError := .none, faulted := false, driveFaulted := false, loopCycle := 0 }
      activeGeneration := 0, completedGeneration := 0, failedGeneration := 0
      lifecycle := .init
      homingState := .idle, homed := false, homeCounts := 0
      lastCw := 0#16
      motion := s.motion.reset
      prevActual := 0, firstCycle := true, stopAtRest := false, atRest := false
      latchedCtrlError := .none, stopRequested := false }

/-! ### Helpers of the state machine -/

/-- `bump_wake`: wake every parked waiter. -/
def bumpWake : Controller := { s with wakeSeq := s.wakeSeq + 1 }

/-- A move is live: adopted and not terminal. -/
def moveActive : Bool :=
  decide (s.activeGeneration ≠ 0) && decide (s.completedGeneration ≠ s.activeGeneration) &&
    decide (s.failedGeneration ≠ s.activeGeneration)

/-- `abort_active_move`: latch the reason, and fail the active move unless it completed. -/
def abortActiveMove (reason : RtError) : Controller :=
  let fails := s.activeGeneration ≠ 0 ∧ s.completedGeneration ≠ s.activeGeneration
  { s with
      latchedCtrlError := reason
      telemetry := { s.telemetry with rtError := reason }
      failedGeneration := if fails then s.activeGeneration else s.failedGeneration
      wakeSeq := if fails then s.wakeSeq + 1 else s.wakeSeq }

/-- The 0x603F code of this cycle, 0 when the object is not mapped. -/
def faultCodeOf : BitVec 16 := if p.fields.faultCode then inp.faultCode else 0#16

/-- The configured emergency-stop code is present. -/
def estopPresent : Bool :=
  decide (p.estopFaultCode ≠ 0#16) && decide (faultCodeOf p inp = p.estopFaultCode)

/-- `enter_resetting`: the first reset level of the recovery, or none while the emergency
stop is engaged. No command survives a fault. -/
def enterResetting : Controller × ControlWord :=
  ({ s with lifecycle := .resetting, resetCycles := 0, clearStreak := 0,
            motion := s.motion.reset },
    if estopPresent p inp then ControlWord.disableVoltage else ControlWord.faultReset)

/-- `publish_homing_result`: the outcome of a run, without touching the lifecycle. -/
def publishHomingResult (fail : HomingFail) : Controller :=
  { s with
      homingFail := fail
      homingState := if fail = HomingFail.none then .done else .failed }.bumpWake

/-- `finish_homing`: publish, drop every command, and go back through the enable ladder. -/
def finishHoming (fail : HomingFail) : Controller :=
  { s.publishHomingResult fail with
      homingCycles := 0, homingEchoWait := 0
      motion := s.motion.reset
      lifecycle := .enabling, modeEchoWait := 0 }

/-- 0x6061 echoes `want`, or is not mapped. -/
def modeEchoed (want : Cia402Mode) : Bool :=
  !p.fields.modeDisplay || decide (inp.modeDisplay = want.code)

/-- `feedback`: this cycle's inputs for the mode. -/
def feedback : MotionFeedback where
  status := inp.status
  actual := inp.actual
  modeEcho := if p.fields.modeDisplay then some inp.modeDisplay else none
  atRest := s.atRest
  nearTarget := decide (|inp.actual.toInt - s.motion.target.toInt| ≤
    p.positionToleranceCounts.toInt)
  targetReachedBitUsable := p.targetReachedBitUsable

/-! ### `step_lifecycle` -/

/-- A halt and a disable cancel the move in flight. The mode's halt is latched only when the
halt was the latest stop-relevant command of the drain. -/
def routeStops (batch : CommandBatch) : Controller :=
  let s : Controller :=
    if batch.halt then
      let s := s.abortActiveMove .motorStopped
      { s with motion := if batch.haltSupersedes then s.motion.halt else s.motion }
    else s
  if batch.disable then s.abortActiveMove .motorDisabled else s

/-- Adopt a positioning target, unless its move is the active one already. -/
def adoptTarget (t : SetTarget) : Controller :=
  -- The move id rides in the command, so a coalesced target brings its own.
  if t.generation ≠ s.activeGeneration then
    { s with
        motion :=
          if t.relative then s.motion.goFor t.counts t.profileVelocity inp.actual
          else s.motion.goTo t.counts t.profileVelocity
        latchedCtrlError := .none
        activeGeneration := t.generation }
  else s

/-- The target, then the velocity. -/
def routeMotion (batch : CommandBatch) : Controller :=
  let s : Controller := match batch.setTarget with
    | some t => s.adoptTarget inp t
    | none => s
  match batch.setVelocity with
  | some v => { s with motion := s.motion.setVelocity v }
  | none => s

/-- A homing request outside Operational is failed, not dropped with the batch. -/
def routeHoming (batch : CommandBatch) : Controller :=
  if batch.startHoming.isSome ∧ s.lifecycle ≠ .operational then
    s.publishHomingResult .notOperational
  else s

/-- The head of `step_lifecycle`: the drained batch is routed to the mode in a fixed order,
stops first, then the target, then the velocity. -/
def routeCommands (batch : CommandBatch) : Controller :=
  ((s.routeStops batch).routeMotion inp batch).routeHoming batch

def stepInit : Controller × ControlWord :=
  if inp.status.decode = .fault then s.enterResetting p inp
  else ({ s with lifecycle := .enabling, modeEchoWait := 0 }, ControlWord.disableVoltage)

/-- The enable ladder: energize only once 0x6061 echoes the commanded mode. -/
def stepEnabling : Controller × ControlWord :=
  let dev := inp.status.decode
  if dev = .fault then s.enterResetting p inp
  else
    let want := s.motion.commandedMode
    let s := { s with outputs := s.outputs.storeMode p.fields want }
    let echoed := modeEchoed p inp want
    -- Hold at SwitchedOn while the echo lags. The lag is latched once, at the limit.
    if !echoed ∧ (dev = .switchedOn ∨ dev = .operationEnabled) then
      let wait := s.modeEchoWait + 1
      ({ s with
          modeEchoWait := wait
          latchedCtrlError :=
            if wait = modeEchoCycles then .modeMismatch else s.latchedCtrlError },
        fsmStep inp.status .switchedOn)
    else
      ({ s with
          modeEchoWait := if echoed then 0 else s.modeEchoWait
          latchedCtrlError :=
            if echoed ∧ s.latchedCtrlError = .modeMismatch then .none else s.latchedCtrlError
          lifecycle := if dev = .operationEnabled then .operational else s.lifecycle },
        fsmStep inp.status .operationEnabled)

/-- The motion part of Operational: the mode writes its objects and gives the controlword,
and a failure it reports fails the move. -/
def stepMotion : Controller × ControlWord :=
  let r := s.motion.step p.sqrt p.fields inp s.outputs (s.feedback p inp)
  let s := { s with
    motion := r.next, outputs := r.outputs, stopRequested := s.stopRequested || r.requestStop }
  match r.next.fault with
  | .none => (s, r.controlword)
  -- The controlword of the failing cycle is written all the same.
  | .modeNotAdopted => (s.abortActiveMove .modeMismatch, r.controlword)
  | .setpointNotAcknowledged => (s.abortActiveMove .handshakeTimeout, r.controlword)

/-- `dev == Fault || bus_fault`: what ends an Operational or Homing stay. -/
def Faulted (inp : CycleInput) : Prop := inp.status.decode = .fault ∨ inp.fault = true

instance (inp : CycleInput) : Decidable (Faulted inp) := inferInstanceAs (Decidable (_ ∨ _))

def stepOperational (batch : CommandBatch) : Controller × ControlWord :=
  if Faulted inp then
    (s.abortActiveMove .notOperational).enterResetting p inp
  else if batch.disable then
    ({ s with lifecycle := .disabled, motion := s.motion.reset }, ControlWord.disableVoltage)
  else match batch.startHoming with
    | some h =>
        -- Bit 4 low, so that the start edge of the next cycle is real.
        ({ s with
            lifecycle := .homing, homingCycles := 0, homingEchoWait := 0
            homingTimeoutCycles := h.timeoutCycles
            motion := s.motion.reset }, ControlWord.enableOperation)
    | none => if batch.quickStop then (s, ControlWord.quickStop) else s.stepMotion p inp

/-- The drive runs its homing procedure. Error, attained and timeout are tested before the
start bit is raised. -/
def stepHoming (batch : CommandBatch) : Controller × ControlWord :=
  if Faulted inp then
    -- The ladder state that `finishHoming` leaves is replaced at once.
    (s.finishHoming .driveFault).enterResetting p inp
  else if batch.disable ∨ batch.halt ∨ batch.quickStop then
    -- The operator's stop wins over the run.
    let s := s.finishHoming .cancelled
    ({ s with lifecycle := if batch.disable then .disabled else s.lifecycle },
      ControlWord.disableVoltage)
  else
    let s := { s with outputs := s.outputs.storeMode p.fields .homing }
    if !modeEchoed p inp .homing then
      let s := { s with homingEchoWait := s.homingEchoWait + 1 }
      (if s.homingEchoWait ≥ modeEchoCycles then s.finishHoming .modeNotAdopted else s,
        ControlWord.enableOperation)
    else if inp.status.homingError then
      (s.finishHoming .driveError, ControlWord.enableOperation.withHalt true)
    else if inp.status.homingAttained then
      -- The raw count is the axis reference, so the software zero goes with it.
      ({ s with zeroOffsetCounts := 0, homeCounts := inp.actual, homed := true }.finishHoming
        .none, ControlWord.enableOperation)
    else
      let s := { s with homingCycles := s.homingCycles + 1 }
      if s.homingCycles ≥ s.homingTimeoutCycles then
        (s.finishHoming .timeout, ControlWord.enableOperation.withHalt true)
      -- In homing mode bit 4 starts the procedure and stays high for its duration.
      else (s, ControlWord.enableOperation.withNewSetpoint true)

/-- The drive is in Fault: reset edges, one per window, until it has stayed clear. -/
def stepResetting (batch : CommandBatch) : Controller × ControlWord :=
  let dev := inp.status.decode
  if batch.disable then ({ s with lifecycle := .disabled }, ControlWord.disableVoltage)
  else
    -- One cycle in Fault starts the streak again.
    let s := { s with clearStreak := if dev ≠ Cia402State.fault then s.clearStreak + 1 else 0 }
    if s.clearStreak ≥ p.faultResetClearConfirmCycles then
      ({ s with lifecycle := .enabling, modeEchoWait := 0 },
        fsmStep inp.status .operationEnabled)
    else
      -- `reset_cycles_` is a `uint32_t`.
      let s := { s with resetCycles := (s.resetCycles + 1) % 2 ^ 32 }
      -- The operator's request is an edge now, also under an emergency stop.
      if batch.faultReset then ({ s with resetCycles := 0 }, ControlWord.faultReset)
      else
        (s, if dev = .fault ∧ !estopPresent p inp ∧
            s.resetCycles % p.faultResetWindowCycles = 0 then ControlWord.faultReset
          else ControlWord.disableVoltage)

def stepDisabled (batch : CommandBatch) : Controller × ControlWord :=
  if batch.enable then
    ({ s with lifecycle := .enabling, modeEchoWait := 0 }, ControlWord.disableVoltage)
  else (s, ControlWord.disableVoltage)

/-- `step_lifecycle`: route the commands, then one step of the state machine. -/
def stepLifecycle (batch : CommandBatch) : Controller × ControlWord :=
  let s := s.routeCommands inp batch
  match s.lifecycle with
  | .init => s.stepInit p inp
  | .enabling => s.stepEnabling p inp
  | .operational => s.stepOperational p inp batch
  | .homing => s.stepHoming p inp batch
  | .resetting => s.stepResetting p inp batch
  | .disabled => s.stepDisabled batch

/-! ### `publish_state` -/

/-- `publish_state`: the rest verdict first, then completion, then the fault tiers. -/
def publishState (velocity : Int32) : Controller :=
  let powered := inp.status.operationEnabled
  -- The ring advances here and nowhere else, once a cycle.
  let ring := s.posHist.push p.positionToleranceCounts inp.actual
  let s := { s with posHist := ring.1, atRest := ring.2 }
  let atTarget := s.motion.isTargetReached (s.feedback p inp)
  -- The shaft may still ramp down after every command is gone, hence the rest verdict.
  let moving := powered && (decide (s.lifecycle = Lifecycle.homing) || s.motion.isMoving ||
    (s.moveActive && !atTarget) || !ring.2)
  let completes := powered && s.moveActive && atTarget
  let nowFaulted := inp.fault || inp.status.fault
  { s with
      telemetry :=
        { positionCounts := inp.actual
          velocity := velocity
          powered := powered
          moving := moving
          modeEcho := if p.fields.modeDisplay then inp.modeDisplay else 0
          faulted := nowFaulted
          faultWkc := inp.wkcLast
          wkcFaulted := inp.fault
          driveFaulted := inp.status.fault
          driveWarning := inp.status.warning
          driveFaultCode := faultCodeOf p inp
          loopCycle := s.telemetry.loopCycle + 1
          rtError := s.latchedCtrlError }
      completedGeneration := if completes then s.activeGeneration else s.completedGeneration
      -- One wake for the completion, one for the onset of a fault.
      wakeSeq := s.wakeSeq + (if completes then 1 else 0) +
        (if nowFaulted && !s.telemetry.faulted then 1 else 0) }

/-! ### One dispatch -/

/-- The velocity of this cycle: 0x606C when mapped, else the position delta times the loop
rate. -/
def velocityOf (prevActual : Int32) : Int32 :=
  if p.fields.velocityActual then inp.velocityActual
  else Int32.ofInt ((inp.actual - prevActual).toInt * p.targetLoopRateHz)

/-- The target of the mode follows the shaft (`MotionMode::track`). -/
def track : Controller :=
  let (m, out) := s.motion.track p.fields s.outputs (s.feedback p inp)
  { s with motion := m, outputs := out }

/-- `stage_bringup_outputs`: one process-data frame before the loop runs. -/
def stageBringupOutputs : Controller := s.track p inp

/-- A dispatch in the stopping window. Nothing is drained. -/
def stepStopping : Controller :=
  let velocity := velocityOf p inp s.prevActual
  let s := { s with prevActual := inp.actual }
  let r := s.motion.stepShutdown p.sqrt p.fields inp s.outputs (s.feedback p inp)
  { s with
      motion := r.next
      outputs := r.outputs.storeControlword r.controlword
      lastCw := r.controlword
      stopAtRest := inp.status.switchOnDisabled }.publishState p inp velocity

/-- The actual position of this cycle becomes the previous one. -/
def sample : Controller := { s with firstCycle := false, prevActual := inp.actual }

/-- The controlword goes into the output image. -/
def storeControlword (cw : ControlWord) : Controller :=
  { s with outputs := s.outputs.storeControlword cw, lastCw := cw }

/-- The command objects follow the shaft while the drive is not enabled. -/
def trackUnlessOperational : Controller :=
  if s.lifecycle ≠ .operational then s.track p inp else s

/-- A steady dispatch on the drained batch. -/
def stepSteady (batch : CommandBatch) : Controller :=
  -- No velocity estimate on the first cycle.
  let prevActual := if s.firstCycle then inp.actual else s.prevActual
  -- The batch is routed before the state machine looks at the drive.
  let r := (s.sample inp).stepLifecycle p inp batch
  ((r.1.storeControlword r.2).trackUnlessOperational p inp).publishState p inp
    (velocityOf p inp prevActual)

end Controller

/-- One cycle of the loop: the input image and the commands queued when it starts. -/
structure Tick where
  inp : CycleInput
  drained : List Command
deriving DecidableEq, Repr

/-- `ServoController::step`. -/
def cycle (p : RtParams) (s : Controller) (t : Tick) : Controller :=
  if t.inp.stopping then s.stepStopping p t.inp else s.stepSteady p t.inp (drain t.drained)

/-- The state in which a run enters its loop: a reset controller after the process-data
frames of the bring-up. -/
def spawned (p : RtParams) (s : Controller) (bringup : List CycleInput) : Controller :=
  bringup.foldl (fun s inp => s.stageBringupOutputs p inp) s.resetRunState

end ViamEthercat.Servo
