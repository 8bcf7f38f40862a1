import ViamEthercat.Ethercat.Util

/-!
# `ViamEthercat.Servo.Config`: the configuration and its checks

The model of `ServoConfig` and `ServoConfig::validate` of `viam/lib/servo_config.hpp` and
`viam/lib/servo_config.cpp`, every check in the order of the source with its text. The fields
that neither `validate` nor a modelled function reads (the PDO maps, the clock granularity,
the absolute encoder and others) are left out.
-/

set_option autoImplicit false

namespace ViamEthercat.Servo

open Double

/-- The mode family the driver runs, the attribute `control_mode`. -/
inductive MotionModeKind where
  | cyclicPosition
  | profile
deriving DecidableEq, Repr

/-- The configuration of one homing run. -/
structure HomingConfig where
  /-- 0x6098, 0 when not configured -/
  method : Int8 := 0
  speedRpm : Double := .fin 0
  accelRpmPerS : Double := .fin 0
  torquePercent : Double := .fin 0
  timeoutS : Double := .fin 120
  /-- the object that bounds the motor current, 0 when not configured -/
  torqueIndex : BitVec 16 := 0#16
deriving DecidableEq, Repr

/-- `ServoConfig`. -/
structure ServoConfig where
  ifname : String
  slaveId : Nat := 1
  motionMode : MotionModeKind := .cyclicPosition
  useDistributedClocks : Bool := false
  maxMotorSpeedRpm : Double := .fin 0
  maxAccelRpmPerS : Double := .fin 0
  motorRatedCurrentAmps : Double := .fin 0
  gearRatio : Double := .fin 1
  countsPerRev : Double := .fin 0
  positionToleranceCounts : Int32 := 0
  targetLoopRateHz : Nat := 1000
  rtPriority : Int := 80
  commandQueueCapacity : Nat := 64
  /-- 0x6085 in counts/s², 0 when no quick-stop is configured -/
  quickStopDecel : UInt32 := 0
  /-- what a controlled stop may take, in ms -/
  controlledStopWindowMs : UInt32 := 1000
  homing : HomingConfig := {}
  /-- the 0x603F code of an engaged emergency stop, 0 when not configured -/
  estopFaultCode : BitVec 16 := 0#16
  /-- the period of the reset edges of a drive in Fault -/
  faultResetWindowCycles : UInt32 := 200
  /-- the cycles out of Fault before a clear counts -/
  faultResetClearConfirmCycles : UInt32 := 3
deriving DecidableEq, Repr

/-- `if (!ok) throw Error(message)`. -/
def require (ok : Bool) (message : String) : Except String Unit :=
  if ok then .ok () else .error message

/-- A checked computation has a result if and only if the check passes and the rest has it. -/
theorem require_bind_ok_iff {α : Type} {ok : Bool} {message : String}
    {f : Unit → Except String α} {a : α} :
    (require ok message >>= f) = .ok a ↔ ok = true ∧ f () = .ok a := by
  cases ok with
  | true => exact ⟨fun h => ⟨rfl, h⟩, fun h => h.2⟩
  | false =>
      constructor
      · intro h
        cases h
      · rintro ⟨h, -⟩
        cases h

namespace ServoConfig

/-- The homing block is checked at load, while nothing is moving. -/
def validateHoming (h : HomingConfig) : Except String Unit := do
  require (lt (.fin 0) h.speedRpm) "servo config: 'homing.speed_rpm' must be > 0"
  require (le (.fin 0) h.accelRpmPerS)
    "servo config: 'homing.acceleration_rpm_per_s' must be >= 0"
  require (!(lt h.torquePercent (.fin 0) || lt (.fin 300) h.torquePercent ||
      h.torquePercent.isNan)) "servo config: 'homing.torque_percent' must be within 0..300"
  require (!(lt (.fin 0) h.torquePercent && decide (h.torqueIndex = 0#16)))
    ("servo config: 'homing.torque_percent' needs 'homing.torque_object' " ++
      "(the object is drive-specific)")
  require (lt (.fin 0) h.timeoutS) "servo config: 'homing.timeout_s' must be > 0"

/-- `ServoConfig::validate`. -/
def validate (c : ServoConfig) : Except String Unit := do
  require (decide (c.ifname ≠ ""))
    "servo config: 'ifname' (EtherCAT interface) must not be empty"
  require (decide (1 ≤ c.slaveId)) "servo config: 'slave_id' must be >= 1"
  require (!(decide (c.motionMode = .cyclicPosition) && !c.useDistributedClocks))
    ("servo config: control_mode 'csp' requires 'use_distributed_clocks' = true " ++
      "(CSP runs synchronous to SYNC0)")
  -- Also rejects NaN.
  require (le (.fin 0) c.maxMotorSpeedRpm) "servo config: 'max_motor_speed_rpm' must be >= 0"
  require (lt (.fin 0) c.motorRatedCurrentAmps)
    ("servo config: 'motor_rated_current_amps' must be > 0 " ++
      "(needed to convert a current limit to torque per-mille)")
  -- Accepts NaN.
  require (decide (c.gearRatio ≠ .fin 0)) "servo config: 'gear_ratio' must not be 0"
  require (lt (.fin 0) c.countsPerRev) "servo config: 'counts_per_rev' must be > 0"
  require (!lt c.maxAccelRpmPerS (.fin 0)) "servo config: 'max_accel_rpm_per_s' must be >= 0"
  require (decide (0 ≤ c.positionToleranceCounts.toInt))
    "servo config: 'position_tolerance_counts' must be >= 0"
  require (decide (c.targetLoopRateHz ≠ 0 ∧ c.targetLoopRateHz ≤ 1000))
    ("servo config: 'target_loop_rate_hz' " ++ toString c.targetLoopRateHz ++
      " out of range (1..1000)")
  require (decide (1 ≤ c.rtPriority ∧ c.rtPriority ≤ 99))
    ("servo config: 'rt_priority' " ++ toString c.rtPriority ++ " out of range (1..99)")
  require (decide (0 < c.commandQueueCapacity))
    "servo config: 'command_queue_capacity' must be > 0"
  if c.homing.method ≠ 0 then validateHoming c.homing

/-- The loop rate of a configuration that `validate` accepts. -/
theorem rate_of_validate {c : ServoConfig} (h : c.validate = .ok ()) :
    c.targetLoopRateHz ≠ 0 ∧ c.targetLoopRateHz ≤ 1000 := by
  unfold validate at h
  -- The rate is the tenth check.
  iterate 9 obtain ⟨-, h⟩ := require_bind_ok_iff.mp h
  exact of_decide_eq_true (require_bind_ok_iff.mp h).1

/-- What the conversions need of a configuration that `validate` accepts. -/
theorem limits_of_validate {c : ServoConfig} (h : c.validate = .ok ()) :
    le (.fin 0) c.maxMotorSpeedRpm = true ∧ c.gearRatio ≠ .fin 0 ∧
      lt (.fin 0) c.countsPerRev = true := by
  unfold validate at h
  obtain ⟨-, h⟩ := require_bind_ok_iff.mp h
  obtain ⟨-, h⟩ := require_bind_ok_iff.mp h
  obtain ⟨-, h⟩ := require_bind_ok_iff.mp h
  obtain ⟨hspeed, h⟩ := require_bind_ok_iff.mp h
  obtain ⟨-, h⟩ := require_bind_ok_iff.mp h
  obtain ⟨hgear, h⟩ := require_bind_ok_iff.mp h
  obtain ⟨hcounts, -⟩ := require_bind_ok_iff.mp h
  exact ⟨hspeed, of_decide_eq_true hgear, hcounts⟩

end ServoConfig

end ViamEthercat.Servo
