import ViamEthercat.Servo.Session

/-!
# `ViamEthercat.Servo.Teardown`: the motion mode of a run and its stopping window

The model of what `viam/lib/servo_controller.cpp` derives from the configuration before a run:
what the loop reads of it (`rtParams`), `select_motion_mode`, the stopping window
(`teardown_window_cycles`) and the velocity budget of `on_configured`. `shutdown_cycles` is the
virtual function of `viam/lib/motion_mode.hpp`.

The Runner dispatches at most `teardownWindowCycles` cycles after a stop was asked for, and then
closes the bus, which cuts the torque. A `double` is a rational here. The one `double` that the
window is cast from is not negative for the configurations of a drive, and a negative one has no
`uint32_t` value in the source.
-/

set_option autoImplicit false

namespace ViamEthercat.Servo

open Double

/-- `CyclicPositionMode::shutdown_cycles`: the ramp from the velocity ceiling to rest, a margin,
and a cap. -/
def CyclicPositionMode.shutdownCycles (dt accel maxVel : ℚ) : Nat :=
  let rampS := if 0 < accel then maxVel / accel else 0
  let cycles := rampS / dt + 20
  ⌊min cycles 60000⌋.toNat

/-- What of the window is kept for the drive to stop in, in seconds. -/
def stopWindowMarginS : ℚ := 1 / 20

namespace ServoConfig

variable (c : ServoConfig)

/-- What the loop reads of the configuration, with the fields that `resolve_fields` found, the
`target_reached_bit_usable` of the device and the `std::sqrt` of the profile. -/
def rtParams (fields : Fields) (targetReachedBitUsable : Bool) (sqrt : ℚ → ℚ) : RtParams where
  fields := fields
  estopFaultCode := c.estopFaultCode
  faultResetWindowCycles := c.faultResetWindowCycles.toNat
  faultResetClearConfirmCycles := c.faultResetClearConfirmCycles.toNat
  positionToleranceCounts := c.positionToleranceCounts
  targetLoopRateHz := c.targetLoopRateHz
  targetReachedBitUsable := targetReachedBitUsable
  sqrt := sqrt

/-- The cycle period, in seconds. -/
def cycleS : ℚ := 1 / c.targetLoopRateHz

/-- The ramp of the cyclic mode in rpm/s: one second to full speed when none is configured. -/
def accelRpmPerS : Double :=
  if lt (.fin 0) c.maxAccelRpmPerS then c.maxAccelRpmPerS else c.maxMotorSpeedRpm

/-- The ramp of the cyclic mode, in counts/s². -/
def accelCps2 : ℚ := (rpmToDeviceVelocity c.accelRpmPerS c.countsPerRev c.gearRatio).toInt

/-- The velocity ceiling of the cyclic mode, in counts/s. -/
def vmaxCps : ℚ := (rpmToDeviceVelocity c.maxMotorSpeedRpm c.countsPerRev c.gearRatio).toInt

/-- `select_motion_mode`. -/
def selectMotionMode : MotionMode ℚ :=
  match c.motionMode with
  | .profile => .profile { quickStopDecel := c.quickStopDecel }
  | .cyclicPosition => .cyclic { dt := c.cycleS, accel := c.accelCps2, generator := .new }

/-- `shutdown_cycles` of the selected mode. -/
def modeCycles : Nat :=
  match c.motionMode with
  -- The drive's own quick-stop ramps down.
  | .profile => 0
  | .cyclicPosition => CyclicPositionMode.shutdownCycles c.cycleS c.accelCps2 c.vmaxCps

/-- The cycles of the controlled-stop window, rounded up. -/
def controlledStopCycles : Nat :=
  (c.controlledStopWindowMs.toNat * c.targetLoopRateHz + 999) / 1000

/-- `teardown_window_cycles`: the hard cap of the stopping window. -/
def teardownWindowCycles : Nat :=
  if c.quickStopDecel = 0 then max 2 c.modeCycles
  else max (max c.controlledStopCycles 2 % 2 ^ 32) c.modeCycles

/-- The stopping window without its margin, in seconds. -/
def stopWindowS : ℚ := c.teardownWindowCycles / c.targetLoopRateHz - stopWindowMarginS

/-- The velocity budget, for the 0x6085 value that the drive echoed: 0 without one, which makes
the guard inert. -/
def velBudget (echoed : UInt32) : Int :=
  if 0 < echoed then ⌊(echoed.toNat : ℚ) * max 0 c.stopWindowS⌋ else 0

end ServoConfig

/-- `on_configured` on the 0x6085 value that the mode's `resolve` returned. -/
def Session.onConfigured (s : Session) (echoed : UInt32) : Session :=
  { s with velBudgetCps := s.config.velBudget echoed }

end ViamEthercat.Servo
