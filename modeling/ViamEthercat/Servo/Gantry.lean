import ViamEthercat.Servo.Session

/-!
# `ViamEthercat.Servo.Gantry`: the axis on a motor

The model of `GantryAxis` (`viam/module/gantry_axis.cpp`): the checks of its attributes, the
conversion between millimetres and revolutions, `home`, `get_position` and `move_to_position`. The
axis reaches its motor through the motor API and the `do_command` contract of the module, so the
motor is a `Session`.

`GantrySystem` is one motor with its axis. Its steps are whole operations: a run of `home` blocks
until the drive has given its verdict, which is the input of the step. What the absolute encoder
answers is an input too. The kinematics file is left out.
-/

set_option autoImplicit false

namespace ViamEthercat.Servo

open Double

/-- `GantryAxis::Attributes`, as `parse` accepts them. -/
structure GantryAttributes where
  motor : String
  lengthMm : Double
  mmPerRev : Double
  /-- the default speed, 0 when a speed is required for each move -/
  mmPerSec : Double := .fin 0
  travelPositive : Bool := true
  length_pos : lt (.fin 0) lengthMm = true
  mmPerRev_pos : lt (.fin 0) mmPerRev = true

namespace GantryAttributes

/-- `travel_direction`: the attribute when it is there, and its text when it is a string. -/
def travelDirection : Option (Option String) → Except String Bool
  | none => .ok true
  | some (some "negative") => .ok false
  | some (some "positive") => .ok true
  | some _ =>
      .error "config attribute 'travel_direction' must be \"negative\" or \"positive\""

/-- `GantryAxis::parse`, on the attributes that are there. -/
def parse (motor : Option String) (lengthMm mmPerRev mmPerSec : Option Double)
    (direction : Option (Option String)) : Except String GantryAttributes := do
  let name := motor.getD ""
  require (decide (name ≠ "")) "required config attribute 'motor' is missing"
  if hlength : lt (.fin 0) (lengthMm.getD (.fin 0)) = true then
    if hrev : lt (.fin 0) (mmPerRev.getD (.fin 0)) = true then
      let speed := mmPerSec.getD (.fin 0)
      require (!lt speed (.fin 0)) "config attribute 'gantry_mm_per_sec' must be >= 0"
      let travelPositive ← travelDirection direction
      return ⟨name, _, _, speed, travelPositive, hlength, hrev⟩
    else throw "config attribute 'mm_per_rev' must be positive"
  else throw "config attribute 'length_mm' must be positive"

end GantryAttributes

/-- `movement_coordinate`. -/
structure MovementCoordinate where
  positionMm : Double
  speedMmPerSec : Double

/-- `GantryAxis`. -/
structure GantryAxis where
  attrs : GantryAttributes
  /-- the motor position of the zero of the axis, from its last `home` -/
  homeRevs : Double := .fin 0

namespace GantryAxis

variable (a : GantryAxis)

def sign : Double := if a.attrs.travelPositive then .fin 1 else .fin (-1)

def mmToRevs (mm : Double) : Double := add a.homeRevs (div (mul a.sign mm) a.attrs.mmPerRev)

def revsToMm (revs : Double) : Double := mul (mul a.sign (sub revs a.homeRevs)) a.attrs.mmPerRev

/-- The speed of a move: its own one, or the default. -/
def speed (c : MovementCoordinate) : Double :=
  if lt (.fin 0) c.speedMmPerSec then c.speedMmPerSec else a.attrs.mmPerSec

/-- `move_to_position`: the arguments of the `go_to` of the motor, or what it throws. -/
def moveArguments (homed : Bool) : List MovementCoordinate → Except String (Double × Double)
  | [c] => do
      require homed "gantry: home the axis before moving it -- call home()"
      require (c.positionMm.isFinite && !lt c.positionMm (.fin 0) &&
          !lt a.attrs.lengthMm c.positionMm)
        ("gantry: " ++ c.positionMm.toText ++ " mm is outside the axis (0 .. " ++
          a.attrs.lengthMm.toText ++ " mm)")
      require (lt (.fin 0) (a.speed c))
        "gantry: no speed given and no 'gantry_mm_per_sec' configured"
      return (mul (div (a.speed c) a.attrs.mmPerRev) (.fin 60), a.mmToRevs c.positionMm)
  | coordinates => .error ("gantry: this axis takes exactly one coordinate, got " ++
      toString coordinates.length)

end GantryAxis

namespace Session

variable (s : Session)

/-- `position_revs`. -/
def positionRevs : Double :=
  countsToRevs (s.rt.telemetry.positionCounts - s.rt.zeroOffsetCounts) s.config.countsPerRev
    s.config.gearRatio

/-- `home_position_revs`. -/
def homePositionRevs : Double :=
  countsToRevs s.rt.homeCounts s.config.countsPerRev s.config.gearRatio

/-- The reference after a homing run that was attained at `actual`. -/
def referenced (actual : Int32) : Session :=
  { s with rt := { s.rt with zeroOffsetCounts := 0, homeCounts := actual, homed := true } }

/-- Another state of the motor, with the same configuration, reference and software zero. -/
def SameReference (s s' : Session) : Prop :=
  s'.config = s.config ∧ s'.rt.homed = s.rt.homed ∧ s'.rt.homeCounts = s.rt.homeCounts ∧
    s'.rt.zeroOffsetCounts = s.rt.zeroOffsetCounts

instance (s s' : Session) : Decidable (s.SameReference s') :=
  inferInstanceAs (Decidable (_ ∧ _ ∧ _ ∧ _))

end Session

/-- How a call of the `home` verb ends. -/
inductive HomeRun where
  /-- it throws before the drive has attained home -/
  | threw
  /-- the drive reports a failure, or the run times out -/
  | notAttained
  | attained (actual : Int32)
  /-- home is attained, and then the running mode cannot be restored, which throws -/
  | attainedThrew (actual : Int32)
deriving DecidableEq, Repr

/-- The position at which the run attained home. -/
def HomeRun.actual? : HomeRun → Option Int32
  | .threw | .notAttained => none
  | .attained actual | .attainedThrew actual => some actual

/-- What the run leaves in the motor. -/
def Session.afterRun (s : Session) (run : HomeRun) : Session :=
  match run.actual? with
  | some actual => s.referenced actual
  | none => s

/-- One motor with its axis. -/
structure GantrySystem where
  motor : Session
  axis : GantryAxis

/-- One operation. -/
inductive GantryEvent where
  /-- `home` of the axis -/
  | home (run : HomeRun)
  /-- the `home` verb, sent to the motor or through the `do_command` of the axis, which forwards
  it -/
  | motorHome (run : HomeRun)
  /-- `reset_zero_position` of the motor -/
  | resetZero (offset : Double)
  /-- a new `GantryAxis` on the same motor -/
  | construct (attrs : GantryAttributes)
  /-- anything else that happens to the motor: its cycles, its moves, a restart -/
  | elsewhere (motor : Session)

namespace GantrySystem

variable (y : GantrySystem)

/-- `homed` of the axis: a run succeeded, or the absolute encoder is valid. -/
def homed (absolute : Bool) : Bool := y.motor.rt.homed || absolute

/-- `get_position` of the axis. -/
def getPosition (absolute : Bool) : Except String Double := do
  require (y.homed absolute) "gantry: position is unknown until the axis is homed -- call home()"
  return y.axis.revsToMm y.motor.positionRevs

/-- `move_to_position`: the command that the motor pushes. The motor takes the magnitude of the
speed. -/
def moveToPosition (absolute : Bool) (coordinates : List MovementCoordinate) :
    Except String Command := do
  let (rpm, revs) ← y.axis.moveArguments (y.homed absolute) coordinates
  y.motor.goTo rpm.abs revs

/-- `home` of the axis: it keeps the position that the reply brings. -/
def home (run : HomeRun) : GantrySystem :=
  let motor := y.motor.afterRun run
  match run with
  | .attained _ => ⟨motor, { y.axis with homeRevs := motor.homePositionRevs }⟩
  -- Without a reply, and with one that is not homed, the axis keeps what it has.
  | .threw | .notAttained | .attainedThrew _ => ⟨motor, y.axis⟩

/-- One operation. What happens elsewhere leaves the reference, or a restart forgets it. -/
def step : GantryEvent → GantrySystem
  | .home run => y.home run
  | .motorHome run => { y with motor := y.motor.afterRun run }
  | .resetZero offset => { y with motor := y.motor.setZero offset }
  | .construct attrs => { y with axis := { attrs := attrs } }
  | .elsewhere motor =>
      if y.motor.SameReference motor ∨ motor.rt.homed = false then { y with motor := motor } else y

end GantrySystem

end ViamEthercat.Servo
