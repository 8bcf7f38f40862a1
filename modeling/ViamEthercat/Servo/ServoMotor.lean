import ViamEthercat.Lib.Dialogue
import ViamEthercat.Servo.Attributes
import ViamEthercat.Servo.Controller

/-!
# `ViamEthercat.Servo.ServoMotor`: the commands of the motor component

The model of `ServoMotor::do_command` and of `get_status` and `absolute_encoder_status`, which it
calls (`viam/module/servo_motor.cpp`). They are a `Talk` with the controller: they call it, and go
on with any answer. The cached mode of the encoder is their state.

`do_command` tests one key after the other. A key with its block is a `MotorVerb`, and
`MotorVerb.all` is their order. A reply is a list of the values that were emplaced.

The timeout of a transfer, which the controller does not use, and the log line of a write are left
out.
-/

set_option autoImplicit false

namespace ViamEthercat.Servo

open Lib Lib.Talk Double

/-- An exception that reaches the motor: its class, and its text. -/
inductive MotorError where
  /-- `ethercat::Error` -/
  | error (what : String)
  /-- `ethercat::SdoError` -/
  | sdo (what : String) (abortCode : UInt32)
  /-- `std::runtime_error`, not of the library -/
  | runtime (what : String)
deriving DecidableEq, Repr

namespace MotorError

/-- `what`. -/
def what : MotorError → String
  | error what | sdo what _ | runtime what => what

/-- `catch (const ethercat::Error&)`. -/
def isError : MotorError → Bool
  | error _ | sdo _ _ => true
  | runtime _ => false

end MotorError

/-! ### The controller -/

/-- A call of the controller. -/
inductive ControllerCall where
  | requestFaultReset
  | enable
  | disable
  | home
  | homePositionCounts
  | homePositionRevs
  | homingError
  | homingState
  | homed
  | isPowered
  | isMoving
  | isDisconnected
  | positionRevs
  | lastError
  | motionModeName
  | emergencyStopped
  | driveWarning
  | driveFaultCode
  | ratedCurrentAmps
  /-- an upload into a buffer of a size -/
  | sdoRead (index : UInt16) (sub : UInt8) (size : Nat)
  | sdoWrite (index : UInt16) (sub : UInt8) (data : List UInt8)
deriving DecidableEq, Repr

/-- What an upload answers: the size that it reports, and what it writes into the buffer. -/
structure SdoUpload where
  size : Nat
  data : List UInt8
deriving DecidableEq, Repr

/-- What a call returns, or throws. -/
abbrev ControllerCall.Answer : ControllerCall → Type
  | requestFaultReset | enable | disable => Unit
  | home => Except MotorError Bool
  | homePositionCounts => Int32
  | homePositionRevs | positionRevs | ratedCurrentAmps => Double
  | homingError | lastError | motionModeName => String
  | homingState => HomingState
  | homed | isPowered | isMoving | isDisconnected | emergencyStopped | driveWarning => Bool
  | driveFaultCode => UInt16
  | sdoRead _ _ _ => Except MotorError SdoUpload
  | sdoWrite _ _ _ => Except MotorError Unit

/-- `abs_enc_mode_known_` and `abs_enc_mode_`. -/
structure EncoderCache where
  known : Bool := false
  mode : Double := .fin 0
deriving DecidableEq, Repr

/-- What the motor does with its controller. -/
abbrev MotorTalk (α : Type) := Talk ControllerCall ControllerCall.Answer MotorError EncoderCache α

namespace MotorTalk

/-- The outcome of a step that asks nothing. -/
def outcome {α : Type} : Except MotorError α → MotorTalk α
  | .ok a => pure a
  | .error e => throw e

/-- `sdo_read` into a buffer of `size` zero bytes, cut to what was read. -/
def sdoRead (index : UInt16) (sub : UInt8) (size : Nat) : MotorTalk (List UInt8) := do
  let upload ← outcome (← ask (.sdoRead index sub size))
  let buffer := (upload.data ++ List.replicate size 0).take size
  return buffer.take (min upload.size size)

/-- `sdo_write`. -/
def sdoWrite (index : UInt16) (sub : UInt8) (data : List UInt8) : MotorTalk Unit := do
  outcome (← ask (.sdoWrite index sub data))

end MotorTalk

open MotorTalk

/-! ### Replies -/

/-- `to_string` of a `HomingState`. -/
def HomingState.text : HomingState → String
  | .idle => "idle"
  | .running => "running"
  | .done => "done"
  | .failed => "failed"

/-- `ProtoValue(std::string)`. -/
def ProtoValue.ofString (s : String) : ProtoValue := .string (ascii s)

/-- `flag`: a key that is set to true. -/
def flag (s : ProtoStruct) (key : String) : Bool :=
  match findAttr s key with
  | some (.bool b) => b
  | _ => false

/-- `kSdoReadBytes`. -/
def kSdoReadBytes : Nat := 64

/-- `%08X`. -/
def hex32 (v : UInt32) : String :=
  let digits := (Nat.toDigits 16 v.toNat).map Char.toUpper
  String.ofList (List.replicate (8 - digits.length) '0' ++ digits)

/-- `sdo_reply`. -/
def sdoReply (d : Decoded) (raw : List UInt8) : ProtoStruct :=
  [("value", match d.number with
    | some number => .number number
    | none => .string d.text),
    ("raw", .string (hexBytes raw)),
    ("ok", .bool true)]

/-- `sdo_refusal`. -/
def sdoRefusal (what : String) (abortCode : UInt32) : ProtoStruct :=
  [("ok", .bool false),
    ("abort_code", .ofString ("0x" ++ hex32 abortCode)),
    ("error", .ofString what)]

/-! ### Requests -/

/-- `SdoRequest`. -/
structure SdoRequest where
  index : UInt16
  sub : UInt8
  type : TypeInfo
  value : Input

/-- The objects that the driver leaves to its user. -/
def writable (index : UInt16) : Bool :=
  !((index < 0x2000 || index > 0x5FFF) && index != 0x1010)

section
variable (undef : Cast → Int)

/-- What the library throws, as the motor sees it. -/
def ofLibrary {α : Type} (x : Except String α) : Except MotorError α := x.mapError .error

/-- `small_uint`. -/
def smallUintOf (v : ProtoValue) (key type : String) : Except MotorError UInt32 :=
  ofLibrary (smallUint undef v key type []).1

/-- What the codec throws, as the motor sees it. -/
def ofCodec {α : Type} (x : Except CodecError α) : Except MotorError α :=
  x.mapError fun e => .error (Text.name e.what)

/-- The value of a request to write `index`. -/
def requestValue (req : ProtoStruct) (index : UInt16) (verb : String) : Except MotorError Input :=
  if writable index then
    match findAttr req "value" with
    | none => .error (.error "sdo_write: 'value' is required")
    | some v => ofLibrary (inputOf v "value")
  else
    .error (.error (verb ++
      ": only manufacturer-specific objects (0x2000-0x5FFF) and 0x1010 are writable"))

/-- The type that a request names. -/
def requestType (req : ProtoStruct) : Except MotorError (Option TypeInfo) := do
  let name ← ofLibrary (optAttr ProtoValue.getString req "type")
  return name.bind fun name => findType (Text.name name)

/-- `parse_sdo_request`. -/
def parseSdoRequest (v : ProtoValue) (verb : String) (withValue : Bool) :
    Except MotorError SdoRequest := do
  let req := v.getStruct
  let type ← (match req with
    | some req => requestType req
    | none => pure none)
  match req, req.bind (findAttr · "index"), type with
  | some req, some index, some type => do
      let index := UInt16.ofNat (← smallUintOf undef index "index" "u16").toNat
      let sub ← (match findAttr req "sub" with
        | some sub => smallUintOf undef sub "sub" "u8"
        | none => pure 0)
      let value ← (if withValue then requestValue req index verb else pure {})
      return ⟨index, UInt8.ofNat sub.toNat, type, value⟩
  | _, _, _ =>
      throw (.error (verb ++ " expects \x7bindex, sub?, type: u8|i8|u16|i16|u32|i32|string|bytes" ++
        if withValue then ", value\x7d" else "\x7d"))

end

/-! ### The verbs -/

/-- A reply of a getter, as data. -/
def asks (q : ControllerCall) (f : q.Answer → ProtoValue) : MotorTalk ProtoValue := do
  return f (← ask q)

/-- The loop of `decode_drive_modes`. -/
def decodeDriveModes (bits : UInt32) : List ProtoValue :=
  [(0, "PP"), (1, "VL"), (2, "PV"), (3, "TQ"), (5, "HM"), (6, "IP"), (7, "CSP"), (8, "CSV"),
    (9, "CST")].filterMap fun (bit, name) =>
      if bits.toNat.testBit bit then some (.ofString name) else none

/-- `read_std_sdo`. -/
def readStdSdo (T : Type) [PdoScalar T] (index : UInt16) : MotorTalk T := do
  let bytes ← MotorTalk.sdoRead index 0 (PdoScalar.size T)
  if bytes.length < PdoScalar.size T then
    throw (.sdo ("standard SDO object " ++ toString index.toNat ++ " short read: " ++
      toString bytes.length ++ " of " ++ toString (PdoScalar.size T) ++ " byte(s)") 0)
  else return loadLe T bytes 0

/-- The block of a standard object: its value under `key`, or `fallback` and why under a second
key. -/
def stdObject (T : Type) [PdoScalar T] (index : UInt16) (key : String) (fallback : ProtoValue)
    (unavailable : String) (convert : T → MotorTalk ProtoValue) : MotorTalk ProtoStruct := do
  match ← attempt (do convert (← readStdSdo T index)) with
  | .ok value => return [(key, value)]
  | .error e =>
      if e.isError then
        return [(key, fallback), (key ++ "_diag", .ofString (unavailable ++ e.what))]
      else throw e

/-- The part of `absolute_encoder_status` that reads the mode object, and caches it. -/
def readEncoderMode (enc : AbsoluteEncoder) (encoderType : String) : MotorTalk Double := do
  let bytes ← MotorTalk.sdoRead enc.index enc.sub kSdoReadBytes
  -- The configuration names a type of the table.
  let some type := findType encoderType | throw (.error "")
  let decoded ← outcome (ofCodec (type.decode bytes))
  let mode := decoded.number.getD (.fin 0)
  modify fun _ => ⟨true, mode⟩
  return mode

/-- `absolute_encoder_status`. -/
def absoluteEncoderStatus (enc : AbsoluteEncoder) (encoderType : String) :
    MotorTalk EncoderReply := do
  if enc.index = 0 then
    return { reason := some "no 'absolute_encoder' config attribute on this motor" }
  else if ← ask .isDisconnected then
    -- The mode is asked again on the first call after the bus is back.
    modify fun cache => { cache with known := false }
    return { reason := some "the bus is disconnected, so the drive cannot be asked" }
  else
    let cache ← get
    let read ← (if cache.known then pure (.ok cache.mode)
      else attempt (readEncoderMode enc encoderType))
    let faultCode ← ask .driveFaultCode
    let warning ← ask .driveWarning
    match read with
    | .ok mode => return enc.verdict none mode { faultCode, warning }
    | .error e =>
        return enc.verdict (some ("reading the encoder mode object failed: " ++ e.what))
          cache.mode { faultCode, warning }

/-- The reply as a struct. -/
def EncoderReply.toStruct (reply : EncoderReply) : ProtoStruct :=
  ("valid", .bool reply.valid) ::
    (match reply.details with
      | some d => [("configured", .bool d.configured), ("mode", .number d.mode),
          ("fault_code", .ofString d.faultCode), ("warning", .bool d.warning)]
      | none => []) ++
    (match reply.reason with
      | some reason => [("reason", .ofString reason)]
      | none => [])

/-- `get_status`. -/
def getStatus (enc : AbsoluteEncoder) (encoderType : String) : MotorTalk ProtoStruct := do
  let isPowered ← asks .isPowered .bool
  let isMoving ← asks .isMoving .bool
  let position ← asks .positionRevs .number
  let isDisconnected ← asks .isDisconnected .bool
  let lastError ← asks .lastError .ofString
  let motionMode ← asks .motionModeName .ofString
  let emergencyStop ← asks .emergencyStopped .bool
  let warning ← asks .driveWarning .bool
  let faultCode ← asks .driveFaultCode fun code => .ofString (hex16 code)
  let ran ← ask .homed
  let absolute ← (if ran then pure false
    else EncoderReply.valid <$> absoluteEncoderStatus enc encoderType)
  let homing ← asks .homingState fun state => .ofString state.text
  let homingError ← ask .homingError
  return [("is_powered", isPowered), ("is_moving", isMoving), ("position", position),
    ("is_disconnected", isDisconnected), ("last_error", lastError), ("motion_mode", motionMode),
    ("emergency_stop", emergencyStop), ("warning", warning), ("fault_code", faultCode),
    ("homed", .bool (ran || absolute)),
    ("homed_by", .ofString (if ran then "home_run" else if absolute then "absolute_encoder"
      else "none")),
    ("homing", homing)] ++ if homingError = "" then [] else [("homing_error", .ofString homingError)]

/-- The block of `home`. -/
def homeReply : MotorTalk ProtoStruct := do
  let homed ← outcome (← ask .home)
  let counts ← asks .homePositionCounts fun c => .number (.fin c.toInt)
  let revolutions ← asks .homePositionRevs .number
  let homingError ← ask .homingError
  return [("homed", .bool homed), ("counts", counts), ("revolutions", revolutions)] ++
    if homingError = "" then [] else [("error", .ofString homingError)]

/-- A drive that refuses a transfer is an answer, another failure is none. -/
def orRefusal (x : MotorTalk ProtoStruct) : MotorTalk ProtoStruct := do
  match ← attempt x with
  | .ok reply => return reply
  | .error (.sdo what abortCode) => return sdoRefusal what abortCode
  | .error e => throw e

section
variable (undef : Cast → Int)

/-- The block of `sdo_read`. -/
def sdoReadReply (rq : ProtoValue) : MotorTalk ProtoStruct := do
  let r ← outcome (parseSdoRequest undef rq "sdo_read" false)
  orRefusal do
    -- The buffer is wider than the type, so that a mismatch of the width is seen.
    let bytes ← MotorTalk.sdoRead r.index r.sub kSdoReadBytes
    if 0 < r.type.width ∧ bytes.length ≠ r.type.width then
      throw (.error ("sdo_read: object " ++ hex16 r.index ++ ":" ++ toString r.sub.toNat ++ " is " ++
        toString bytes.length ++ " bytes, type '" ++ r.type.name ++ "' is " ++
        toString r.type.width))
    else
      let decoded ← outcome (ofCodec (r.type.decode bytes))
      return sdoReply decoded bytes

/-- The block of `sdo_write`. -/
def sdoWriteReply (rq : ProtoValue) : MotorTalk ProtoStruct := do
  let r ← outcome (parseSdoRequest undef rq "sdo_write" true)
  if ← ask .isMoving then
    throw (.runtime "sdo_write: the motor is moving; stop it first")
  else
    let bytes ← outcome (ofCodec (r.type.encode r.value))
    orRefusal do
      MotorTalk.sdoWrite r.index r.sub bytes
      let decoded ← outcome (ofCodec (r.type.decode bytes))
      return sdoReply decoded bytes

/-- A key of `do_command`, with its block. -/
inductive MotorVerb where
  | faultReset
  | enable
  | disable
  | describe
  | status
  | getMotorVoltage
  | getMotorCurrent
  | getMotorDriveModes
  | isAbsEncValid
  | home
  | sdoRead
  | sdoWrite
deriving DecidableEq, Repr

namespace MotorVerb

/-- The blocks, in the order of `do_command`. -/
def all : List MotorVerb :=
  [faultReset, enable, disable, describe, status, getMotorVoltage, getMotorCurrent,
    getMotorDriveModes, isAbsEncValid, home, sdoRead, sdoWrite]

/-- The key that asks for the block. -/
def key : MotorVerb → String
  | faultReset => "fault_reset"
  | enable => "enable"
  | disable => "disable"
  | describe => "describe"
  | status => "status"
  | getMotorVoltage => "get_motor_voltage"
  | getMotorCurrent => "get_motor_current_actual_value"
  | getMotorDriveModes => "get_motor_drive_modes"
  | isAbsEncValid => "is_abs_enc_valid"
  | home => "home"
  | sdoRead => "sdo_read"
  | sdoWrite => "sdo_write"

/-- The condition of the block. -/
def requested (v : MotorVerb) (command : ProtoStruct) : Bool :=
  match v with
  | sdoRead | sdoWrite => (findAttr command v.key).isSome
  | _ => flag command v.key

/-- The block: what it emplaces. -/
def block (enc : AbsoluteEncoder) (encoderType : String) (command : ProtoStruct) :
    MotorVerb → MotorTalk ProtoStruct
  | faultReset => do
      ask ControllerCall.requestFaultReset
      return [("fault_reset", .bool true)]
  | enable => do
      ask ControllerCall.enable
      return [("enable", .bool true)]
  | disable => do
      ask ControllerCall.disable
      return [("disable", .bool true)]
  | describe => return [("describe", .struct [("driver", .ofString "viam:ethercat"),
      ("contract", .number (.fin 1)), ("homing", .bool true)])]
  | status => do return [("status", .struct (← getStatus enc encoderType))]
  | getMotorVoltage => stdObject UInt32 0x6079 "voltage_volts" (.number (.fin 0))
      "0x6079 unavailable (reporting 0): " fun mv =>
        return .number (div (.fin mv.toNat) (.fin 1000))
  | getMotorCurrent => stdObject Int16 0x6078 "current_amps" (.number (.fin 0))
      "0x6078 unavailable (reporting 0): " fun permille => do
        let rated ← ask .ratedCurrentAmps
        return .number (mul (div (.fin permille.toInt) (.fin 1000)) rated)
  | getMotorDriveModes => stdObject UInt32 0x6502 "drive_modes" (.list [])
      "0x6502 unavailable (reporting none): " fun bits => return .list (decodeDriveModes bits)
  | isAbsEncValid => do
      return [("is_abs_enc_valid", .struct (← absoluteEncoderStatus enc encoderType).toStruct)]
  | home => do return [("home", .struct (← homeReply))]
  | sdoRead =>
      match findAttr command "sdo_read" with
      | some rq => do return [("sdo_read", .struct (← sdoReadReply undef rq))]
      | none => return []
  | sdoWrite =>
      match findAttr command "sdo_write" with
      | some rq => do return [("sdo_write", .struct (← sdoWriteReply undef rq))]
      | none => return []

end MotorVerb

/-- What `do_command` throws when no key is known. -/
def unknownCommand : MotorError :=
  .runtime ("unknown do_command; supported keys (each a bool): describe, fault_reset, enable, " ++
    "disable, status, home, is_abs_enc_valid; get_motor_voltage, get_motor_current_actual_value, " ++
    "get_motor_drive_modes (converted SDO reads); sdo_read \x7bindex, sub, type\x7d (any object) / " ++
    "sdo_write \x7bindex, sub, type, value\x7d (0x2000-0x5FFF and 0x1010)")

/-- `do_command`, for a motor with this encoder. -/
def doCommand (enc : AbsoluteEncoder) (encoderType : String) (command : ProtoStruct) :
    MotorTalk ProtoStruct := do
  let result ← MotorVerb.all.foldlM (fun result v =>
    if v.requested command then do
      return result ++ (← v.block undef enc encoderType command)
    else pure result) []
  if result.isEmpty then throw unknownCommand else return result

end

end ViamEthercat.Servo
