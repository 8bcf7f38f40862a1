import ViamEthercat.Servo.AbsoluteEncoder
import ViamEthercat.Servo.Config

/-!
# `ViamEthercat.Servo.DriveConfig`: the rest of the configuration

The fields of `ServoConfig` (`viam/lib/servo_config.hpp`) that `validate` does not read: the
realtime policy, the clock granularity, the working-counter threshold, the absolute encoder and
the torque object of a homing run.
-/

set_option autoImplicit false

namespace ViamEthercat.Servo

/-- `TorqueObject`. Its index is `HomingConfig.torqueIndex`. -/
structure TorqueObject where
  sub : UInt8 := 0
  type : String := "u16"
  /-- object units for one percent of the rated current -/
  unitsPerPercent : Double := .fin 10
deriving DecidableEq, Repr

/-- `ServoConfig` with all of its fields, except the PDO maps. -/
structure DriveConfig extends ServoConfig where
  requireRealtime : Bool := true
  syncCycleGranularityNs : UInt32 := 0
  maxConsecutiveWkcErrors : Int32 := 5
  torque : TorqueObject := {}
  absoluteEncoder : AbsoluteEncoder := {}
  /-- the `sdo_codec` type of the mode object of the encoder -/
  encoderType : String := "u16"
deriving DecidableEq, Repr

end ViamEthercat.Servo
