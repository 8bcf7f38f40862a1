import ViamEthercat.Ethercat.Sequencer
import ViamEthercat.Servo.Trapezoid

/-!
# `ViamEthercat.Servo.MotionMode`: the two motion modes

The model of `viam/lib/motion_mode.hpp` and `viam/lib/motion_mode.cpp`. The virtual class
`MotionMode` has two implementations, and a mode is selected once per bring-up: the model is
the sum of the two, and each virtual function is a match.

* `ProfilePositionMode`: PP for positioning and PV for a velocity run, over the sequencer.
  The drive generates the trajectory.
* `CyclicPositionMode`: CSP. The master streams 0x607A from a `TrapezoidGenerator`.

`resolve` runs before the loop starts, is not part of the cyclic state and is left out.
`shutdown_cycles` sizes the stopping window, in `Servo.Teardown`.
-/

set_option autoImplicit false

namespace ViamEthercat.Servo

/-- Cycles to wait for 0x6061 to echo a commanded 0x6060. -/
def modeEchoCycles : Nat := 200

/-- One cycle's inputs, as the controller hands them to the mode. -/
structure MotionFeedback where
  status : Status
  actual : Int32
  /-- 0x6061, when mapped -/
  modeEcho : Option Int8
  /-- the position-stability verdict -/
  atRest : Bool
  /-- within the position tolerance of `target` -/
  nearTarget : Bool
  /-- false on drives that tie statusword bit 10 high -/
  targetReachedBitUsable : Bool
deriving DecidableEq, Repr

/-- A failure the mode detected this cycle. -/
inductive MotionFault where
  | none
  | setpointNotAcknowledged
  | modeNotAdopted
deriving DecidableEq, Repr

/-- The two kinds of motion command. -/
inductive MotionCommand where
  | position
  | velocity
deriving DecidableEq, Repr

/-! ### Profile mode -/

/-- `ProfilePositionMode`. -/
structure ProfilePositionMode where
  quickStopDecel : UInt32
  sequencer : Sequencer := {}
  /-- the mode of the last command -/
  intent : Cia402Mode := .profilePosition
  targetCounts : Int32 := 0
  profileVel : UInt32 := 0
  pvVelocity : Int32 := 0
  halted : Bool := false
  pendingNewSetpoint : Bool := false
  /-- cycles 0x6061 has lagged `intent` -/
  echoWaitCycles : Nat := 0
  /-- one cycle, when the echo wait expires -/
  modeNotAdopted : Bool := false
deriving DecidableEq, Repr

namespace ProfilePositionMode

def reset (m : ProfilePositionMode) : ProfilePositionMode :=
  { quickStopDecel := m.quickStopDecel, sequencer := m.sequencer.reset }

def goTo (m : ProfilePositionMode) (targetCounts : Int32) (velocityCps : UInt32) :
    ProfilePositionMode :=
  { m with
      intent := .profilePosition
      targetCounts := targetCounts
      profileVel := velocityCps
      pendingNewSetpoint := true
      halted := false }

def setVelocity (m : ProfilePositionMode) (velocityCps : Int32) : ProfilePositionMode :=
  { m with intent := .profileVelocity, pvVelocity := velocityCps, halted := false }

def halt (m : ProfilePositionMode) : ProfilePositionMode := { m with halted := true }

/-- 0x6061 echoes the commanded mode, or is not mapped. -/
def echoed (m : ProfilePositionMode) (fb : MotionFeedback) : Bool :=
  match fb.modeEcho with
  | none => true
  | some e => decide (e = m.intent.code)

/-- The command of this cycle, before the echo gate. -/
def command (m : ProfilePositionMode) : SequencerCommand :=
  { mode := m.intent, targetCounts := m.targetCounts, profileVelocity := m.profileVel,
    targetVelocity := m.pvVelocity, enable := true, halt := m.halted }

/-- One cycle of the echo wait. When it expires the failure is reported once and the mode
falls back to the one the drive runs, with no pending command. -/
def waitEcho (m : ProfilePositionMode) (fb : MotionFeedback) : ProfilePositionMode :=
  let m := { m with echoWaitCycles := m.echoWaitCycles + 1 }
  -- Equality, as in the source, so the failure is reported in one cycle only.
  if m.echoWaitCycles = modeEchoCycles then
    { m with
        modeNotAdopted := true
        intent := ⟨fb.modeEcho.getD 0⟩
        pvVelocity := 0
        pendingNewSetpoint := false }
  else m

/-- `ProfilePositionMode::step`. -/
def step (f : Fields) (m : ProfilePositionMode) (inp : CycleInput) (out : Outputs)
    (fb : MotionFeedback) : StepResult ProfilePositionMode :=
  let m := { m with modeNotAdopted := false }
  let cmd := m.command
  if m.echoed fb then
    -- The set-point is handed over once, in the first cycle whose echo agrees.
    let cmd := { cmd with newSetpoint := m.pendingNewSetpoint }
    let m := { m with echoWaitCycles := 0, pendingNewSetpoint := false }
    (m.sequencer.step f inp out cmd).map fun q => { m with sequencer := q }
  else
    -- Until the drive follows, hold at rest: no set-point, zero velocity.
    let m := m.waitEcho fb
    let cmd := { cmd with newSetpoint := false, targetVelocity := 0 }
    (m.sequencer.step f inp out cmd).map fun q => { m with sequencer := q }

/-- `ProfilePositionMode::step_shutdown`: the drive's quick-stop when one is configured, else
a disable-voltage coast. -/
def stepShutdown (f : Fields) (m : ProfilePositionMode) (inp : CycleInput) (out : Outputs) :
    StepResult ProfilePositionMode :=
  if 0 < m.quickStopDecel then
    (m.sequencer.step f inp out { mode := m.intent, enable := false }).map
      fun q => { m with sequencer := q }
  else ⟨m, out, false, ControlWord.disableVoltage⟩

def isTargetReached (m : ProfilePositionMode) (fb : MotionFeedback) : Bool :=
  -- Bit 10 means something else in velocity mode, and is stale during a handshake.
  if m.intent ≠ .profilePosition ∨ m.sequencer.state.handshakeIdle = false then false
  else if fb.targetReachedBitUsable then fb.status.targetReached
  else fb.nearTarget && fb.atRest

/-- A PP move is tracked by the controller's move id, so only a velocity run counts here. -/
def isMoving (m : ProfilePositionMode) : Bool :=
  decide (m.intent = .profileVelocity) && decide (m.pvVelocity ≠ 0) && !m.halted

def fault (m : ProfilePositionMode) : MotionFault :=
  if m.modeNotAdopted then .modeNotAdopted
  else if m.sequencer.state.handshakeTimedOut then .setpointNotAcknowledged
  else .none

end ProfilePositionMode

/-! ### Cyclic synchronous position -/

section
variable {K : Type} [Field K] [LinearOrder K] [IsStrictOrderedRing K] [FloorRing K]

/-- `CyclicPositionMode`: the cycle period, the ramp acceleration, and the generator. -/
structure CyclicPositionMode (K : Type) [Zero K] [LT K] where
  dt : K
  accel : K
  generator : TrapezoidGenerator K
  /-- the last accepted command was a positioning move -/
  positioning : Bool := true
deriving DecidableEq

namespace CyclicPositionMode

def reset (m : CyclicPositionMode K) : CyclicPositionMode K :=
  { m with generator := m.generator.reseed 0, positioning := true }

/-- A refused goal leaves the generator and the kind of command as they were. -/
def goTo (m : CyclicPositionMode K) (targetCounts : Int32) (velocityCps : UInt32) :
    CyclicPositionMode K :=
  match m.generator.setGoal targetCounts (velocityCps.toNat : K) m.accel with
  | (g, true) => { m with generator := g, positioning := true }
  | (g, false) => { m with generator := g }

def setVelocity (m : CyclicPositionMode K) (velocityCps : Int32) : CyclicPositionMode K :=
  match m.generator.setVelocity (velocityCps.toInt : K) m.accel with
  | (g, true) => { m with generator := g, positioning := false }
  | (g, false) => { m with generator := g }

def halt (m : CyclicPositionMode K) : CyclicPositionMode K :=
  { m with generator := m.generator.stop m.accel }

/-- `CyclicPositionMode::step`: stream the next point. CSP has no handshake bits. -/
def step (sqrt : K → K) (f : Fields) (m : CyclicPositionMode K) (out : Outputs) :
    StepResult (CyclicPositionMode K) :=
  let g := m.generator.step sqrt m.dt
  ⟨{ m with generator := g }, out.storeTargetPosition f g.position, false,
    ControlWord.enableOperation⟩

/-- `CyclicPositionMode::track`: not enabled, so the target follows the shaft. -/
def track (f : Fields) (m : CyclicPositionMode K) (out : Outputs) (fb : MotionFeedback) :
    CyclicPositionMode K × Outputs :=
  ({ m with generator := m.generator.reseed fb.actual }, out.storeTargetPosition f fb.actual)

/-- `CyclicPositionMode::step_shutdown`: ramp to rest while energized, then disable. -/
def stepShutdown (sqrt : K → K) (f : Fields) (m : CyclicPositionMode K) (out : Outputs)
    (fb : MotionFeedback) : StepResult (CyclicPositionMode K) :=
  -- Not energized: nothing to ramp, so the target follows the shaft.
  if !fb.status.operationEnabled || fb.status.fault then
    ⟨{ m with generator := m.generator.reseed fb.actual },
      out.storeTargetPosition f fb.actual, false, ControlWord.disableVoltage⟩
  else if !m.generator.idle then
    let g :=
      if m.generator.phase ≠ .velocity ∨ m.generator.state.velocity ≠ 0 then
        m.generator.stop m.accel
      else m.generator
    let g := g.step sqrt m.dt
    ⟨{ m with generator := g }, out.storeTargetPosition f g.position, false,
      ControlWord.enableOperation⟩
  else ⟨m, out.storeTargetPosition f m.generator.position, false, ControlWord.disableVoltage⟩

/-- Bit 10 is a status toggle in CSP, so only position and rest count. -/
def isTargetReached (m : CyclicPositionMode K) (fb : MotionFeedback) : Bool :=
  m.positioning && m.generator.idle && fb.nearTarget && fb.atRest

end CyclicPositionMode

/-! ### The selected mode -/

/-- `MotionMode`: the mode the controller calls every cycle. -/
inductive MotionMode (K : Type) [Zero K] [LT K] where
  | profile (m : ProfilePositionMode)
  | cyclic (m : CyclicPositionMode K)
deriving DecidableEq

namespace MotionMode

/-- The 0x6060 value of this cycle. -/
def commandedMode : MotionMode K → Cia402Mode
  | .profile m => m.intent
  | .cyclic _ => .cyclicSyncPosition

/-- The 0x6060 value a command needs. -/
def modeRequiredBy : MotionMode K → MotionCommand → Cia402Mode
  | .profile _, .position => .profilePosition
  | .profile _, .velocity => .profileVelocity
  | .cyclic _, _ => .cyclicSyncPosition

def reset : MotionMode K → MotionMode K
  | .profile m => .profile m.reset
  | .cyclic m => .cyclic m.reset

def goTo (m : MotionMode K) (targetCounts : Int32) (velocityCps : UInt32) : MotionMode K :=
  match m with
  | .profile m => .profile (m.goTo targetCounts velocityCps)
  | .cyclic m => .cyclic (m.goTo targetCounts velocityCps)

/-- `MotionMode::go_for`: the sum is taken in `uint32_t` and so wraps. -/
def goFor (m : MotionMode K) (deltaCounts : Int32) (velocityCps : UInt32) (actual : Int32) :
    MotionMode K :=
  m.goTo (actual + deltaCounts) velocityCps

def setVelocity (m : MotionMode K) (velocityCps : Int32) : MotionMode K :=
  match m with
  | .profile m => .profile (m.setVelocity velocityCps)
  | .cyclic m => .cyclic (m.setVelocity velocityCps)

def halt : MotionMode K → MotionMode K
  | .profile m => .profile m.halt
  | .cyclic m => .cyclic m.halt

def step (sqrt : K → K) (f : Fields) (m : MotionMode K) (inp : CycleInput) (out : Outputs)
    (fb : MotionFeedback) : StepResult (MotionMode K) :=
  match m with
  | .profile m => (m.step f inp out fb).map .profile
  | .cyclic m => (m.step sqrt f out).map .cyclic

/-- In profile mode the drive holds its own set-points and `track` does nothing. -/
def track (f : Fields) (m : MotionMode K) (out : Outputs) (fb : MotionFeedback) :
    MotionMode K × Outputs :=
  match m with
  | .profile m => (.profile m, out)
  | .cyclic m => (m.track f out fb).map .cyclic id

def stepShutdown (sqrt : K → K) (f : Fields) (m : MotionMode K) (inp : CycleInput)
    (out : Outputs) (fb : MotionFeedback) : StepResult (MotionMode K) :=
  match m with
  | .profile m => (m.stepShutdown f inp out).map .profile
  | .cyclic m => (m.stepShutdown sqrt f out fb).map .cyclic

def target : MotionMode K → Int32
  | .profile m => m.targetCounts
  | .cyclic m => m.generator.goal

def isTargetReached (m : MotionMode K) (fb : MotionFeedback) : Bool :=
  match m with
  | .profile m => m.isTargetReached fb
  | .cyclic m => m.isTargetReached fb

def isMoving : MotionMode K → Bool
  | .profile m => m.isMoving
  | .cyclic m => !m.generator.idle

def fault : MotionMode K → MotionFault
  | .profile m => m.fault
  | .cyclic _ => .none

end MotionMode

end

end ViamEthercat.Servo
