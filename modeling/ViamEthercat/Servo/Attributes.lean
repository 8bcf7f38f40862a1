import ViamEthercat.Ethercat.Master
import ViamEthercat.Lib.Fallible
import ViamEthercat.Servo.DriveConfig
import ViamEthercat.Servo.SdoCodec

/-!
# `ViamEthercat.Servo.Attributes`: the configuration from its attributes

The model of `module/proto_attrs.hpp`, of `config_from_attrs` with the functions it calls
(`module/servo_motor.cpp`), and of `build_master_config` (`lib/servo_controller.cpp`). The
attributes are read in the order of the source, and the first bad one throws.

A number comes as a `double`. A conversion to an integer type drops the fraction, and is undefined
when the rest is out of the range of the type: `undef` says what an undefined conversion gives.
Every conversion is logged as a `Cast`, also the one that the codec makes.
-/

set_option autoImplicit false

namespace ViamEthercat.Servo

open Double Lib

/-! ### Attributes -/

/-- `ProtoValue`. -/
inductive ProtoValue where
  | null
  | bool (b : Bool)
  | number (d : Double)
  | string (s : Text)
  | list (vs : List ProtoValue)
  | struct (fields : List (String × ProtoValue))

/-- `ProtoStruct`: the values by their keys. -/
abbrev ProtoStruct := List (String × ProtoValue)

namespace ProtoValue

/-- `get<double>`. -/
def getNumber : ProtoValue → Option Double
  | number d => some d
  | _ => none

/-- `get<bool>`. -/
def getBool : ProtoValue → Option Bool
  | bool b => some b
  | _ => none

/-- `get<std::string>`. -/
def getString : ProtoValue → Option Text
  | string s => some s
  | _ => none

/-- `get<std::vector<ProtoValue>>`. -/
def getList : ProtoValue → Option (List ProtoValue)
  | list vs => some vs
  | _ => none

/-- `get<ProtoStruct>`. -/
def getStruct : ProtoValue → Option ProtoStruct
  | struct fields => some fields
  | _ => none

end ProtoValue

/-- `find_attr`. -/
def findAttr (s : ProtoStruct) (key : String) : Option ProtoValue := s.lookup key

/-- `opt_attr`: a key that is present with another type throws. -/
def optAttr {α : Type} (get : ProtoValue → Option α) (s : ProtoStruct) (key : String) :
    Except String (Option α) :=
  match findAttr s key with
  | none => .ok none
  | some v =>
      match get v with
      | none => .error ("config attribute '" ++ key ++ "' has the wrong type")
      | some p => .ok (some p)

/-- An attribute that is required. -/
def reqAttr {α : Type} (get : ProtoValue → Option α) (s : ProtoStruct) (key : String) :
    Except String α := do
  match ← optAttr get s key with
  | none => .error ("required config attribute '" ++ key ++ "' is missing")
  | some p => return p

/-- `req_num`. -/
def reqNum : ProtoStruct → String → Except String Double := reqAttr ProtoValue.getNumber

/-- `req_str`. -/
def reqStr : ProtoStruct → String → Except String Text := reqAttr ProtoValue.getString

/-- `opt_num`. -/
def optNum (s : ProtoStruct) (key : String) (dflt : Double) : Except String Double := do
  return (← optAttr ProtoValue.getNumber s key).getD dflt

/-- `nested`. -/
def nested (s : ProtoStruct) (key : String) : Option ProtoStruct :=
  (findAttr s key).bind ProtoValue.getStruct

/-- A text as a string, one character a byte. -/
def Text.name (t : Text) : String := String.ofList (t.map fun b => Char.ofNat b.toNat)

/-! ### Conversions -/

/-- A conversion of a `double` to an integer type with values from `lo` to `hi`. -/
structure Cast where
  value : Double
  lo : Int
  hi : Int
deriving DecidableEq, Repr

/-- The number without its fraction. -/
def truncate (q : ℚ) : Int := if 0 ≤ q then ⌊q⌋ else ⌈q⌉

/-- `std::trunc`. -/
def trunc : Double → Double
  | .fin q => .fin (truncate q)
  | v => v

/-- `!=`, true on a NaN. -/
def neq (x y : Double) : Bool := !(decide (x = y) && !x.isNan)

namespace Cast

/-- The conversion is defined. -/
def InRange (c : Cast) : Prop :=
  match c.value with
  | .fin q => c.lo ≤ truncate q ∧ truncate q ≤ c.hi
  | _ => False

instance (c : Cast) : Decidable c.InRange := by
  unfold InRange
  split <;> infer_instance

/-- Its result. -/
def result (undef : Cast → Int) (c : Cast) : Int :=
  match c.value with
  | .fin q => if c.lo ≤ truncate q ∧ truncate q ≤ c.hi then truncate q else undef c
  | _ => undef c

end Cast

instance : IntScalar UInt64 where
  lo := 0
  hi := 18446744073709551615
  toInt v := v.toNat
  ofInt := UInt64.ofInt
  toInt_mem v := by have := v.toNat_lt; omega
  toInt_ofInt x h0 h1 := by
    have hlt : (x % 2 ^ 64).toNat < UInt64.size := by
      show _ < 18446744073709551616
      omega
    rw [UInt64.ofInt, UInt64.toNat_ofNat_of_lt' hlt]
    omega
  ofInt_toInt v := by
    have hv := v.toNat_lt
    apply UInt64.toNat_inj.mp
    have hlt : ((v.toNat : Int) % 2 ^ 64).toNat < UInt64.size := by
      show _ < 18446744073709551616
      omega
    rw [UInt64.ofInt, UInt64.toNat_ofNat_of_lt' hlt]
    omega

/-- A parser of attributes, with the conversions that it has made. -/
abbrev Parse (α : Type) := Fallible String (List Cast) α

/-- A parser that converts nothing. -/
def Parse.ofExcept {α : Type} (x : Except String α) : Parse α := fun log => (x, log)

section
variable (undef : Cast → Int)

/-- `static_cast<T>` of a `double`. -/
def staticCast (T : Type) [IntScalar T] (value : Double) : Parse T := fun log =>
  let c : Cast := ⟨value, IntScalar.lo T, IntScalar.hi T⟩
  (.ok (IntScalar.ofInt (c.result undef)), log ++ [c])

/-! ### Objects -/

/-- `input_of`. -/
def inputOf (v : ProtoValue) (key : String) : Except String Input :=
  match v with
  | .number d => .ok { number := some d }
  | .string t => .ok { text := some t }
  | _ => .error ("'" ++ key ++ "' must be a number or a string")

/-- The conversion to `int64_t` in `to_integer`, made for a whole number. -/
def codecCast (input : Input) : Parse Unit := fun log =>
  match input.number with
  | some d => (.ok (), if isWhole d then log ++ [⟨d, -2 ^ 63, 2 ^ 63 - 1⟩] else log)
  | none => (.ok (), log)

/-- What the codec throws, with its text. -/
def Parse.ofCodec {α : Type} (x : Except CodecError α) : Parse α :=
  .ofExcept (x.mapError fun e => Text.name e.what)

/-- `small_uint`. -/
def smallUint (v : ProtoValue) (key type : String) : Parse UInt32 := do
  -- The callers name a type of the table that decodes to a number.
  let some t := findType type | throw ""
  let input ← .ofExcept (inputOf v key)
  codecCast input
  let bytes ← .ofCodec (t.encode input)
  let decoded ← .ofCodec (t.decode bytes)
  let some number := decoded.number | throw ""
  staticCast undef UInt32 number

/-- The object that `object_ref` writes through to. -/
structure ObjectRef where
  index : UInt16 := 0
  sub : UInt8 := 0
  type : String := "u16"
deriving DecidableEq, Repr

/-- The optional subindex of `object_ref`. -/
def objectSub (o : ProtoStruct) (sub : UInt8) : Parse UInt8 :=
  match findAttr o "sub" with
  | some s => do return UInt8.ofNat (← smallUint undef s "sub" "u8").toNat
  | none => return sub

/-- `object_ref`. -/
def objectRef (o : ProtoStruct) (place : String) (r : ObjectRef) : Parse ObjectRef := do
  let some i := findAttr o "index"
    | throw ("config attribute '" ++ place ++ "' needs an 'index'")
  let index ← smallUint undef i "index" "u16"
  let sub ← objectSub undef o r.sub
  let type := ((← Parse.ofExcept (optAttr ProtoValue.getString o "type")).map Text.name).getD r.type
  if (findType type).isNone then
    throw ("config attribute '" ++ place ++ ".type' is not a known SDO type: " ++ type)
  else return ⟨UInt16.ofNat index.toNat, sub, type⟩

/-! ### The blocks of the configuration -/

/-- The attribute `control_mode`. -/
def controlMode (attrs : ProtoStruct) (dflt : MotionModeKind) : Except String MotionModeKind := do
  match ← optAttr ProtoValue.getString attrs "control_mode" with
  | none => return dflt
  | some mode =>
      if mode = ascii "csp" then return .cyclicPosition
      else if mode = ascii "profile" then return .profile
      else .error ("config attribute 'control_mode' must be \"csp\" or \"profile\" (got '" ++
        Text.name mode ++ "')")

/-- The list `absolute_encoder.invalid_codes`. -/
def invalidCodes (o : ProtoStruct) : Parse (List UInt16) :=
  match findAttr o "invalid_codes" with
  | none => return []
  | some codes =>
      match codes.getList with
      | none => throw "config attribute 'absolute_encoder.invalid_codes' must be a list"
      | some list => list.mapM fun code => do
          return UInt16.ofNat (← smallUint undef code "invalid_codes" "u16").toNat

/-- The attribute `absolute_encoder`: the encoder, and the type of its object. -/
def absoluteEncoderAttr (attrs : ProtoStruct) : Parse (AbsoluteEncoder × String) :=
  match findAttr attrs "absolute_encoder" with
  | none => return ({}, "u16")
  | some v =>
      match v.getStruct.bind fun o =>
          ((findAttr o "equals").bind ProtoValue.getNumber).map (o, ·) with
      | none => throw ("config attribute 'absolute_encoder' expects " ++
          "\x7bindex, sub?, type?, equals, invalid_codes?\x7d")
      | some (o, eq) => do
          let r ← objectRef undef o "absolute_encoder" {}
          let codes ← invalidCodes undef o
          return ({ index := r.index, sub := r.sub, equals := eq, invalidCodes := codes }, r.type)

/-- The check of `homing.method`. -/
def badMethod (method : Double) : Bool :=
  lt method (.fin (-128)) || lt (.fin 127) method || neq method (trunc method) ||
    decide (method = .fin 0)

/-- The block `homing.torque_object`. -/
def torqueObject (o : ProtoStruct) : Parse (BitVec 16 × TorqueObject) :=
  match nested o "torque_object" with
  | none => return (0#16, {})
  | some t => do
      let r ← objectRef undef t "homing.torque_object" {}
      let units ← Parse.ofExcept (optNum t "units_per_percent" (.fin 10))
      return (r.index.toBitVec, { sub := r.sub, type := r.type, unitsPerPercent := units })

/-- The attribute `homing`. -/
def homingAttr (attrs : ProtoStruct) : Parse (HomingConfig × TorqueObject) :=
  match findAttr attrs "homing" with
  | none => return ({}, {})
  | some v =>
      match v.getStruct with
      | none => throw ("config attribute 'homing' expects \x7bmethod, speed_rpm, " ++
          "acceleration_rpm_per_s?, torque_object?, torque_percent?, timeout_s?\x7d")
      | some o => do
          let method ← Parse.ofExcept (reqNum o "method")
          if badMethod method then
            throw "config attribute 'homing.method' must be a non-zero 0x6098 method (int8)"
          else do
            let method ← staticCast undef Int8 method
            let speedRpm ← Parse.ofExcept (reqNum o "speed_rpm")
            let accelRpmPerS ← Parse.ofExcept (optNum o "acceleration_rpm_per_s" (.fin 0))
            let torquePercent ← Parse.ofExcept (optNum o "torque_percent" (.fin 0))
            let timeoutS ← Parse.ofExcept (optNum o "timeout_s" (.fin 120))
            let (torqueIndex, torque) ← torqueObject undef o
            return ({ method, speedRpm, accelRpmPerS, torquePercent, timeoutS, torqueIndex },
              torque)

/-- The number in `emergency_stop_fault_code`. A value of another type leaves it 0. -/
def estopCode (v : ProtoValue) : Parse Nat :=
  match v with
  | .number d => do return (← staticCast undef UInt64 d).toNat
  | .string t =>
      match stoul t with
      | none => throw ("config attribute 'emergency_stop_fault_code' is not a number: " ++
          Text.name t)
      -- What follows the number is not looked at.
      | some (code, _) => return code
  | _ => return 0

/-- The attribute `emergency_stop_fault_code`. -/
def estopAttr (attrs : ProtoStruct) : Parse (BitVec 16) :=
  match findAttr attrs "emergency_stop_fault_code" with
  | none => return 0#16
  | some v => do
      let code ← estopCode undef v
      if 0xFFFF < code then
        throw "config attribute 'emergency_stop_fault_code' must fit in 16 bits"
      else return BitVec.ofNat 16 code

/-- The attribute `quick_stop_decel_rpm_per_s`, as the value for 0x6085. -/
def quickStopDecel (attrs : ProtoStruct) (countsPerRev gearRatio : Double) :
    Except String UInt32 := do
  let qs ← optNum attrs "quick_stop_decel_rpm_per_s" (.fin 0)
  if !le (.fin 0) qs then .error "config attribute 'quick_stop_decel_rpm_per_s' must be >= 0"
  else return (rpmToDeviceVelocity qs countsPerRev gearRatio).toUInt32

/-- An attribute that is converted to an integer. -/
def castAttr (T : Type) [IntScalar T] (attrs : ProtoStruct) (key : String) (dflt : Double) :
    Parse T := do
  staticCast undef T (← Parse.ofExcept (optNum attrs key dflt))

/-- `config_from_attrs`. -/
def configFromAttrs (attrs : ProtoStruct) (defaultMode : MotionModeKind) : Parse DriveConfig := do
  let ifname ← Parse.ofExcept (reqStr attrs "interface")
  let slaveId ← castAttr undef UInt16 attrs "slave" (.fin 1)
  let motionMode ← Parse.ofExcept (controlMode attrs defaultMode)
  let maxMotorSpeedRpm ← Parse.ofExcept (reqNum attrs "max_rpm")
  let maxAccelRpmPerS ← Parse.ofExcept (optNum attrs "max_acceleration_rpm_per_s" (.fin 0))
  let countsPerRev ← Parse.ofExcept (reqNum attrs "counts_per_rev")
  let motorRatedCurrentAmps ← Parse.ofExcept (reqNum attrs "motor_rated_current_amps")
  let gearRatio ← Parse.ofExcept (optNum attrs "gear_ratio" (.fin 1))
  let (absoluteEncoder, encoderType) ← absoluteEncoderAttr undef attrs
  let (homing, torque) ← homingAttr undef attrs
  let estopFaultCode ← estopAttr undef attrs
  let quickStopDecel ← Parse.ofExcept (quickStopDecel attrs countsPerRev gearRatio)
  let positionToleranceCounts ← castAttr undef Int32 attrs "position_tolerance_counts" (.fin 0)
  let targetLoopRateHz ← castAttr undef UInt32 attrs "loop_rate_hz" (.fin 1000)
  let realtime ← Parse.ofExcept (optAttr ProtoValue.getBool attrs "require_realtime")
  let rtPriority ← castAttr undef Int32 attrs "rt_priority" (.fin 80)
  let clocks ← Parse.ofExcept (optAttr ProtoValue.getBool attrs "use_distributed_clocks")
  let syncCycleGranularityNs ← castAttr undef UInt32 attrs "sync_cycle_granularity_ns" (.fin 0)
  let maxConsecutiveWkcErrors ← castAttr undef Int32 attrs "max_consecutive_wkc_errors" (.fin 5)
  let commandQueueCapacity ← castAttr undef UInt64 attrs "command_queue_capacity" (.fin 64)
  let c : DriveConfig :=
    { ifname := Text.name ifname
      slaveId := slaveId.toNat
      motionMode, maxMotorSpeedRpm, maxAccelRpmPerS, countsPerRev, motorRatedCurrentAmps
      gearRatio, absoluteEncoder, encoderType, homing, torque, estopFaultCode, quickStopDecel
      positionToleranceCounts
      targetLoopRateHz := targetLoopRateHz.toNat
      requireRealtime := realtime.getD true
      rtPriority := rtPriority.toInt
      useDistributedClocks := clocks.getD false
      syncCycleGranularityNs, maxConsecutiveWkcErrors
      commandQueueCapacity := commandQueueCapacity.toNat }
  Parse.ofExcept c.validate
  return c

end

/-- `build_master_config`, without the PDO maps. -/
def DriveConfig.masterConfig (c : DriveConfig) : MasterConfig where
  ifname := c.ifname
  targetLoopRateHz := UInt32.ofNat c.targetLoopRateHz
  slaves := [{ slaveId := c.slaveId, syncCycleGranularityNs := c.syncCycleGranularityNs }]
  maxConsecutiveWkcErrors := c.maxConsecutiveWkcErrors.toUInt32
  useDistributedClocks := c.useDistributedClocks
  dcSettleCycles := if c.useDistributedClocks then 1000 else 0

end ViamEthercat.Servo
