import ViamEthercat.Lib.Fallible
import ViamEthercat.Servo.DriveConfig
import ViamEthercat.Servo.SdoCodec
import Mathlib.Logic.Function.Basic

/-!
# `ViamEthercat.Servo.HomingRun`: the SDO transfers of `home`

The model of `write_homing_objects`, `restore_homing_torque`, `select_drive_mode` and `home` of
`viam/lib/servo_controller.cpp`, as one program of SDO transfers on the object dictionary of the
drive. What the other threads see of `home` (the slot, the push, the wait) is `Servo.Threads`'.

Every transfer has a `Site` in the program, and no site is passed twice in one call. The drive
answers at each: a download may take effect or not, and its reply may arrive or not. So a
download whose reply is lost takes effect and throws. An upload that is answered gives the whole
object, which has to fit the buffer.
-/

set_option autoImplicit false

namespace ViamEthercat.Servo

open Double Lib

/-- The places of the program with a transfer. -/
inductive Site where
  | readTorque
  | writeMethod
  | readMethod
  | writeSpeed
  | writeAccel
  | writeTorque
  | selectHoming
  | restoreMode
  | restoreTorque
deriving DecidableEq, Repr

/-- An object of the drive: index and subindex. -/
abbrev SdoObject := BitVec 16 × UInt8

/-- What becomes of a transfer. -/
structure Reply where
  /-- a download takes effect -/
  effect : Bool := true
  /-- the reply arrives, and is no abort -/
  acked : Bool := true
deriving DecidableEq, Repr

/-- A transfer as it was made. -/
inductive Transfer where
  /-- the value, when it arrived -/
  | upload (site : Site) (obj : SdoObject) (value : Option (List UInt8))
  /-- the bytes, what the object held before, and the reply -/
  | download (site : Site) (obj : SdoObject) (bytes before : List UInt8) (reply : Reply)
deriving DecidableEq, Repr

/-- What `home` throws. -/
inductive HomeError where
  | base (what : String)
  | codec (e : CodecError)
  /-- the transfer at this site -/
  | sdo (site : Site)
deriving DecidableEq, Repr

/-- The drive, the transfers so far, oldest first, and the local `saved_torque`. -/
structure HomeState where
  objects : SdoObject → List UInt8
  log : List Transfer := []
  savedTorque : List UInt8 := []

/-- What one call meets. -/
structure HomeEnv where
  replies : Site → Reply
  /-- what the checks ahead of the first transfer throw, with the claim of the slot -/
  refusal : Option String := none
  /-- what `await_homing` returns, or that it throws -/
  attained : Option Bool := some true
  /-- `commanded_cia402_mode`, when the mode is restored -/
  commandedMode : UInt8

abbrev HomeM := Fallible HomeError HomeState

section
variable (c : DriveConfig) (env : HomeEnv)

/-- `sdo_read` into a buffer of `size` bytes. -/
def sdoRead (site : Site) (obj : SdoObject) (size : Nat) : HomeM (List UInt8) := fun s =>
  let value := s.objects obj
  if (env.replies site).acked = true ∧ value.length ≤ size then
    (.ok value, { s with log := s.log ++ [.upload site obj (some value)] })
  else (.error (.sdo site), { s with log := s.log ++ [.upload site obj none] })

/-- `sdo_write`. -/
def sdoWrite (site : Site) (obj : SdoObject) (bytes : List UInt8) : HomeM Unit := fun s =>
  let reply := env.replies site
  (if reply.acked = true then .ok () else .error (.sdo site),
    { s with
        objects := if reply.effect = true then Function.update s.objects obj bytes else s.objects
        log := s.log ++ [.download site obj bytes (s.objects obj) reply] })

/-! ### `write_homing_objects` -/

/-- The configured torque object. -/
def DriveConfig.torqueObject : SdoObject := (c.homing.torqueIndex, c.torque.sub)

/-- 0x6098, 0x6099:01 and 0x609A. -/
def methodObject : SdoObject := (0x6098#16, 0)
def speedObject : SdoObject := (0x6099#16, 1)
def accelObject : SdoObject := (0x609A#16, 0)

/-- 0x6060. -/
def modeObject : SdoObject := (0x6060#16, 0)

/-- The bytes of a scalar. -/
def rawBytes {T : Type} [PdoScalar T] (value : T) : List UInt8 :=
  storeLe (List.replicate (PdoScalar.size T) 0) 0 value

/-- The values of 0x6099:01 and 0x609A. -/
def DriveConfig.homingSpeedIn (round : ℚ → Double) : UInt32 :=
  (rpmToDeviceVelocityIn round c.homing.speedRpm c.countsPerRev c.gearRatio).toUInt32

def DriveConfig.homingAccelIn (round : ℚ → Double) : UInt32 :=
  (rpmToDeviceVelocityIn round c.homing.accelRpmPerS c.countsPerRev c.gearRatio).toUInt32

/-- The same in exact arithmetic. -/
def DriveConfig.homingSpeed : UInt32 := c.homingSpeedIn .fin

def DriveConfig.homingAccel : UInt32 := c.homingAccelIn .fin

/-- `std::round`. -/
def roundDouble : Double → Double
  | .fin q => .fin (llround q)
  | x => x

/-- The limit in the units of the torque object, which the multiplication rounds. -/
def DriveConfig.torqueUnits : Double :=
  rounded binary64 (mul c.homing.torquePercent c.torque.unitsPerPercent)

/-- The value of the torque object during the run. -/
def DriveConfig.torqueInput : Input := { number := some (roundDouble c.torqueUnits) }

/-- The codec inside `home`. -/
def encoded (t : TypeInfo) (value : Input) : HomeM (List UInt8) := fun s =>
  (match t.encode value with
    | .ok bytes => .ok bytes
    | .error e => .error (.codec e), s)

/-- The type of the torque object, when a run clamps it. -/
def torqueType : HomeM (Option TypeInfo) :=
  if lt (.fin 0) c.homing.torquePercent then
    match findType c.torque.type with
    | none => throw (.base ("home: unknown homing torque object type '" ++ c.torque.type ++ "'"))
    | some t => pure (some t)
  else pure none

/-- The torque object is saved before it is clamped. -/
def saveTorque : Option TypeInfo → HomeM (List UInt8)
  | some t => sdoRead env .readTorque c.torqueObject t.width
  | none => pure []

/-- The method, and the proof that the drive took it. -/
def writeMethod : HomeM Unit := do
  let method := c.homing.method
  sdoWrite env .writeMethod methodObject (rawBytes method)
  -- The buffer is wider than the object.
  let echo ← sdoRead env .readMethod methodObject 4
  let got := Int8.ofBitVec (echo.headD 0).toBitVec
  if echo.length ≠ 1 ∨ got ≠ method then
    throw (.base ("home: the drive refused homing method " ++ toString method.toInt ++
      " (0x6098 reads back " ++ toString got.toInt ++ " in " ++ toString echo.length ++
      " bytes) -- it does not support it"))
  else pure ()

def writeSpeeds : HomeM Unit := do
  sdoWrite env .writeSpeed speedObject (rawBytes (c.homingSpeedIn binary64))
  if lt (.fin 0) c.homing.accelRpmPerS then
    sdoWrite env .writeAccel accelObject (rawBytes (c.homingAccelIn binary64))
  else pure ()

/-- `write_homing_objects` up to the torque object: its type, and the bytes saved. -/
def prepareHoming : HomeM (Option TypeInfo × List UInt8) :=
  if c.homing.method = 0 then
    throw (.base ("home: needs the 'homing' config attribute (its 0x6098 method is " ++
      "drive-specific, so it cannot be guessed)"))
  else do
    let t ← torqueType c
    let saved ← saveTorque c env t
    writeMethod c env
    writeSpeeds c env
    return (t, saved)

/-- The clamp. -/
def clampTorque : Option TypeInfo → HomeM Unit
  | some t => do
      let bytes ← encoded t c.torqueInput
      sdoWrite env .writeTorque c.torqueObject bytes
  | none => pure ()

/-- `write_homing_objects`: the bytes of the torque object before the run. -/
def writeHomingObjects : HomeM (List UInt8) := do
  let (t, saved) ← prepareHoming c env
  clampTorque c env t
  return saved

/-! ### `home` -/

/-- `restore_homing_torque`: a refused restore is logged, and dropped. -/
def restoreHomingTorque : HomeM Unit := fun s =>
  if s.savedTorque = [] then (.ok (), s)
  else (.ok (), (sdoWrite env .restoreTorque c.torqueObject s.savedTorque s).2)

/-- `select_drive_mode`. -/
def selectDriveMode (site : Site) (mode : UInt8) : HomeM Unit :=
  sdoWrite env site modeObject [mode]

/-- The `try` block behind the set-up: the drive is switched to homing, and the run is awaited. -/
def runHoming (saved : List UInt8) : HomeM Bool := do
  modify fun s => { s with savedTorque := saved }
  selectDriveMode env .selectHoming 6
  match env.attained with
  | some attained => return attained
  | none => throw (.base "home: controller stopped / RT loop not alive")

/-- The `try` block. -/
def homeBody : HomeM Bool := do
  let saved ← writeHomingObjects c env
  runHoming env saved

/-- The `catch` block: the mode first, whose failure is logged, and then the torque object. -/
def homeFailed (e : HomeError) : HomeM Bool := do
  let _ ← Fallible.attempt (selectDriveMode env .restoreMode env.commandedMode)
  restoreHomingTorque c env
  throw e

/-- The end of a run that came through: the torque object first. -/
def homeEnded (attained : Bool) : HomeM Bool := do
  restoreHomingTorque c env
  selectDriveMode env .restoreMode env.commandedMode
  return attained

/-- `home`. -/
def home : HomeM Bool :=
  match env.refusal with
  | some what => throw (.base what)
  | none => do
      match ← Fallible.attempt (homeBody c env) with
      | .error e => homeFailed c env e
      | .ok attained => homeEnded c env attained

end

end ViamEthercat.Servo
