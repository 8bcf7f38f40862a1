import ViamEthercat.Servo.HomingRun
import ViamEthercat.Servo.Stores

/-!
# `ViamEthercat.Servo.HomingMachine`: the transfers of `home` among the other threads

For `Machine` the set-up of `home` is one step, and so is what it does on the drive at its end.
Here every SDO transfer is a step of its own, and the other threads step between any two of them.
The order is that of `home` in `viam/lib/servo_controller.cpp`:

* the set-up, ahead of the push: `write_homing_objects`, and then the selection of mode 6;
* the `catch` block: the mode, the torque object, and then the release of the slot;
* a run that came through: the release of the slot, the torque object, and then the mode.

What the drive answers is free. `HomingRun` has the same transfers as one program, on a drive.
-/

set_option autoImplicit false

namespace ViamEthercat.Servo

open Double Lib

/-- A call of `home`, as far as the drive is concerned. -/
structure HomeCall where
  /-- the transfers that were attempted, oldest first -/
  made : List Site := []
  /-- what 0x6098 read back -/
  echo : List UInt8 := []
  /-- the local `saved` of `write_homing_objects` -/
  saved : List UInt8 := []
  /-- the local `saved_torque` of `home` -/
  savedTorque : List UInt8 := []

/-- A step of the RT thread, of an API thread, or a transfer of the call `i`: what an upload
gives, or what the transfer throws. -/
inductive HomingOp where
  | atomic (op : AtomicOp)
  | transfer (i : Nat) (answer : Except String (List UInt8))

namespace DriveConfig

variable (c : DriveConfig)

/-- The run clamps the torque object. -/
def clamps : Bool := lt (.fin 0) c.homing.torquePercent

/-- The transfers of `write_homing_objects`. -/
def objectSites : List Site :=
  (if c.clamps then [.readTorque] else []) ++ [.writeMethod, .readMethod, .writeSpeed] ++
    (if lt (.fin 0) c.homing.accelRpmPerS then [.writeAccel] else []) ++
    (if c.clamps then [.writeTorque] else [])

/-- The transfers ahead of the push: mode 6 is selected last. -/
def setupSites : List Site := c.objectSites ++ [.selectHoming]

end DriveConfig

namespace HomeCall

variable (c : DriveConfig) (h : HomeCall)

/-- `restore_homing_torque`: with nothing saved it returns at once. -/
def torqueRestore : List Site := if h.savedTorque = [] then [] else [.restoreTorque]

/-- The transfers at an operation of the call, in order. -/
def sites : Pc → List Site
  | .prepare => c.setupSites
  | .release _ => .restoreMode :: h.torqueRestore
  | .restore _ => h.torqueRestore ++ [.restoreMode]
  | _ => []

/-- The next transfer at an operation of the call. No site is passed twice. -/
def next? (t : Thread) : Option Site :=
  if t.verb = .home then (h.sites c t.pc).find? fun site => decide (site ∉ h.made) else none

/-- What `write_homing_objects` throws ahead of a transfer: the configuration is checked ahead of
the first one, the echo of the method behind its upload, and the value of the torque object when
it is encoded. -/
def refusal? (site : Site) : Option HomeError :=
  if h.made = [] ∧ c.homing.method = 0 then
    some (.base ("home: needs the 'homing' config attribute (its 0x6098 method is " ++
      "drive-specific, so it cannot be guessed)"))
  else if h.made = [] ∧ c.clamps ∧ findType c.torque.type = none then
    some (.base ("home: unknown homing torque object type '" ++ c.torque.type ++ "'"))
  else match site with
    | .writeSpeed =>
        let method := c.homing.method
        let got := Int8.ofBitVec (h.echo.headD 0).toBitVec
        if h.echo.length ≠ 1 ∨ got ≠ method then
          some (.base ("home: the drive refused homing method " ++ toString method.toInt ++
            " (0x6098 reads back " ++ toString got.toInt ++ " in " ++ toString h.echo.length ++
            " bytes) -- it does not support it"))
        else none
    | .writeTorque => match findType c.torque.type with
        | some t => match t.encode c.torqueInput with
            | .ok _ => none
            | .error e => some (.codec e)
        | none => none
    | _ => none

/-- The call after a transfer. -/
def after (site : Site) (answer : Except String (List UInt8)) : HomeCall where
  made := h.made ++ [site]
  echo := match site, answer with
    | .readMethod, .ok bytes => bytes
    | _, _ => h.echo
  saved := match site, answer with
    | .readTorque, .ok bytes => bytes
    | _, _ => h.saved
  -- `write_homing_objects` has returned by then.
  savedTorque := if site = .selectHoming then h.saved else h.savedTorque

end HomeCall

/-- The threads, with what each call of `home` did on the drive. -/
structure HomingMachine where
  machine : Machine
  homes : Nat → HomeCall := fun _ => {}

namespace HomingMachine

variable (c : DriveConfig) (f : HomingMachine)

def threads : List Thread := f.machine.process.threads

/-- The next transfer of the call `i`, at its present operation. -/
def next? (i : Nat) : Option Site := f.threads[i]?.bind fun t => (f.homes i).next? c t

/-- The set-up of the call `i` comes to a check that fails. -/
def refused (i : Nat) : Bool :=
  f.threads[i]?.any fun t =>
    decide (t.pc = .prepare) &&
      ((f.homes i).next? c t).any fun site => ((f.homes i).refusal? c site).isSome

/-- A call of `home` goes on when the transfers of its operation are made. Its set-up throws at a
check that fails, and else with a transfer. -/
def admits : AtomicOp → Bool
  | .api (.advance i) => (f.next? c i).isNone
  | .api (.homeFails i _) => f.refused c i
  | _ => true

/-- The call `i` behind a transfer. A torque object that is not restored is logged, and a mode
that is not restored in the `catch` block: `homeFails` does nothing there. -/
def transferred (i : Nat) (site : Site) (answer : Except String (List UInt8)) : HomingMachine where
  machine := match answer with
    | .ok _ => f.machine
    | .error text =>
        if site = .restoreTorque then f.machine else f.machine.step (.api (.homeFails i text))
  homes := Function.update f.homes i ((f.homes i).after site answer)

/-- One step of some thread. -/
def step : HomingOp → HomingMachine
  | .atomic op => if f.admits c op then { f with machine := f.machine.step op } else f
  | .transfer i answer => match f.next? c i with
      | some site => if f.refused c i then f else f.transferred i site answer
      | none => f

end HomingMachine

end ViamEthercat.Servo
