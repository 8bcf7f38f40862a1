import ViamEthercat.Ethercat.PdoMapping
import ViamEthercat.Servo.BusRecovery

/-!
# `ViamEthercat.Servo.AbsoluteEncoder`: the cached mode of the encoder

The model of `ServoMotor::absolute_encoder_status` and of what `ServoMotor::get_status` answers
about the home (`viam/module/servo_motor.cpp`), on any number of API threads beside the lifecycle
functions of `BusState`. Each load or store of `stopping_`, `rt_exited_`, `homed` and of the two
members of the cache is a step of its own, and so is the SDO read, which takes `api_mutex_`
shared.

`losses`, `lost` and `readAt` are of no use to the code: how often the bus was lost, whether it is
lost since the last run was spawned, and how often it had been lost when the cached mode was read.
-/

set_option autoImplicit false

namespace ViamEthercat.Servo

open Double

/-- `ServoConfig::AbsoluteEncoder`, without the type that the read is decoded by. -/
structure AbsoluteEncoder where
  index : UInt16 := 0
  sub : UInt8 := 0
  equals : Double := .fin 0
  invalidCodes : List UInt16 := []
deriving DecidableEq, Repr

/-- What the reply holds beyond `valid` and `reason`. -/
structure EncoderDetails where
  configured : Bool
  mode : Double
  faultCode : String
  warning : Bool
deriving DecidableEq, Repr

/-- The reply of `absolute_encoder_status`. -/
structure EncoderReply where
  valid : Bool := false
  reason : Option String := none
  details : Option EncoderDetails := none
deriving DecidableEq, Repr

/-- A call that looks at the encoder. -/
inductive EncoderVerb where
  | status
  | isAbsEncValid
deriving DecidableEq, Repr

/-- Where a call is. The step that a constructor names comes next. -/
inductive EncoderPc where
  | idle
  /-- `status` only: `controller_->homed()` -/
  | loadHomed
  | loadStopping
  | loadExited
  | storeUnknown
  | loadMode
  | loadKnown (mode : Double) (readAt : Option Nat)
  | sdoRead (mode : Double) (readAt : Option Nat)
  | storeMode (mode : Double) (readAt : Option Nat)
  | storeKnown (mode : Double) (readAt : Option Nat)
  | verdict (reason : Option String) (mode : Double) (readAt : Option Nat)
deriving DecidableEq, Repr

/-- What a call has answered, and how often the bus was lost by then. -/
inductive EncoderAnswer where
  /-- `status` of a motor whose run has succeeded -/
  | homeRun
  | encoder (reply : EncoderReply) (readAt : Option Nat) (losses : Nat)
deriving DecidableEq, Repr

/-- `homed` and `homed_by` of `status`. -/
def EncoderAnswer.homedBy : EncoderAnswer → Bool × String
  | .homeRun => (true, "home_run")
  | .encoder reply _ _ => (reply.valid, if reply.valid then "absolute_encoder" else "none")

/-- An API thread: the verb of its call, and its answers, the last one first. -/
structure EncoderCall where
  verb : EncoderVerb := .status
  pc : EncoderPc := .idle
  answers : List EncoderAnswer := []
deriving DecidableEq, Repr

/-- What the drive answers: the SDO read, decoded, or why it failed, the fault code and the
warning. -/
structure DriveAnswer where
  read : Except String Double := .ok (.fin 0)
  faultCode : UInt16 := 0
  warning : Bool := false

/-- The motor: the lifecycle, the members of the cache, and the API threads. -/
structure EncoderSystem where
  config : AbsoluteEncoder
  bus : BusState := {}
  stopping : Bool := false
  homed : Bool := false
  /-- `abs_enc_mode_known_` -/
  known : Bool := false
  /-- `abs_enc_mode_` -/
  mode : Double := .fin 0
  readAt : Option Nat := none
  losses : Nat := 0
  lost : Bool := false
  calls : Nat → EncoderCall := fun _ => {}

/-- One step. -/
inductive EncoderEvent where
  /-- an operation of a lifecycle function or of the RT thread -/
  | bus (e : BusEvent)
  /-- the RT loop attains home -/
  | attained
  /-- the thread `i` starts a call -/
  | call (i : Nat) (verb : EncoderVerb)
  /-- the next operation of the call of the thread `i` -/
  | advance (i : Nat) (answer : DriveAnswer)

namespace AbsoluteEncoder

variable (enc : AbsoluteEncoder)

/-- The error of `ServoController::sdo_read` without a run. -/
def notRunning : String :=
  "ServoController::sdo_read: not running -- call while operational (object " ++
    toString enc.index.toNat ++ ":" ++ toString enc.sub.toNat ++ ")"

/-- `mode == enc.equals` -/
def accepts (mode : Double) : Bool := decide (mode = enc.equals) && !mode.isNan

/-- The verdict on the mode and the live fault code. `reason` is why the read failed. -/
def verdict (reason : Option String) (mode : Double) (answer : DriveAnswer) : EncoderReply :=
  let configured := reason.isNone && enc.accepts mode
  let lost := decide (answer.faultCode ∈ enc.invalidCodes)
  { valid := configured && !lost
    reason :=
      if lost then some ("the drive reports " ++ hex16 answer.faultCode ++
        ", which this config lists as a lost reference")
      else if reason.isNone && !configured then
        some "the encoder mode object does not read the configured value"
      else reason
    details := some ⟨configured, mode, hex16 answer.faultCode, answer.warning⟩ }

end AbsoluteEncoder

namespace EncoderSystem

/-- The motor is constructed: nothing is cached. -/
def new (config : AbsoluteEncoder) : EncoderSystem := { config := config }

variable (s : EncoderSystem)

/-! ### The lifecycle -/

/-- The operation spawns a run: `reset_run_state`. -/
def spawns : BusEvent → Bool
  | .advance answer => decide (answer ≠ .throws) && match s.bus.holder with
      | .spawn _ _ => true
      | _ => false
  | _ => false

/-- The operation is the head of a function that stops the run. -/
def stops : BusEvent → Bool
  | .advance _ => match s.bus.holder with
      | .teardown _ => true
      | _ => false
  | _ => false

/-- The RT thread leaves its loop since the bus is lost. -/
def loses : BusEvent → Bool
  | .leave (.busFault wkc) => s.bus.runner.any fun r => BusState.leaves r (.busFault wkc)
  | _ => false

/-- An operation of a lifecycle function or of the RT thread. -/
def busStep (e : BusEvent) : EncoderSystem :=
  { s with
    bus := s.bus.step e
    stopping := if s.spawns e then false else s.stopping || s.stops e
    homed := !s.spawns e && s.homed
    losses := if s.loses e then s.losses + 1 else s.losses
    lost := !s.spawns e && (s.lost || s.loses e) }

/-! ### The calls -/

/-- The thread `i`, with its call at `pc`. -/
def atPc (i : Nat) (pc : EncoderPc) : EncoderSystem :=
  { s with calls := Function.update s.calls i { (s.calls i) with pc := pc } }

/-- The call of the thread `i` returns. -/
def answered (i : Nat) (a : EncoderAnswer) : EncoderSystem :=
  let call := s.calls i
  let call := { call with pc := .idle, answers := a :: call.answers }
  { s with calls := Function.update s.calls i call }

/-- `absolute_encoder_status` returns. -/
def replied (i : Nat) (reply : EncoderReply) (readAt : Option Nat) : EncoderSystem :=
  s.answered i (.encoder reply readAt s.losses)

/-- The head of `absolute_encoder_status`. -/
def begin (i : Nat) : EncoderSystem :=
  if s.config.index = 0 then
    s.replied i { reason := some "no 'absolute_encoder' config attribute on this motor" } none
  else s.atPc i .loadStopping

/-- The SDO read. It waits while a lifecycle function holds the lock. -/
def sdoReadStep (i : Nat) (mode : Double) (readAt : Option Nat) (answer : DriveAnswer) :
    EncoderSystem :=
  let failed (text : String) := s.atPc i
    (.verdict (some ("reading the encoder mode object failed: " ++ text)) mode readAt)
  if s.bus.holder ≠ .free then s
  else if s.bus.runner = none then failed s.config.notRunning
  else match answer.read with
    | .ok v => s.atPc i (.storeMode v (some s.losses))
    | .error text => failed text

/-- The next operation of a call. -/
def advance (i : Nat) (answer : DriveAnswer) : EncoderSystem :=
  match (s.calls i).pc with
  | .idle => s
  | .loadHomed => if s.homed then s.answered i .homeRun else s.begin i
  -- `is_disconnected`.
  | .loadStopping => s.atPc i (if s.stopping then .storeUnknown else .loadExited)
  | .loadExited => s.atPc i (if s.bus.rtExited then .storeUnknown else .loadMode)
  | .storeUnknown =>
      { s with known := false }.replied i
        { reason := some "the bus is disconnected, so the drive cannot be asked" } none
  | .loadMode => s.atPc i (.loadKnown s.mode s.readAt)
  | .loadKnown mode readAt =>
      s.atPc i (if s.known then .verdict none mode readAt else .sdoRead mode readAt)
  | .sdoRead mode readAt => s.sdoReadStep i mode readAt answer
  | .storeMode mode readAt =>
      { s with mode := mode, readAt := readAt }.atPc i (.storeKnown mode readAt)
  | .storeKnown mode readAt => { s with known := true }.atPc i (.verdict none mode readAt)
  | .verdict reason mode readAt => s.replied i (s.config.verdict reason mode answer) readAt

/-- One step. -/
def step : EncoderEvent → EncoderSystem
  | .bus e => s.busStep e
  | .attained => { s with homed := true }
  | .call i verb =>
      if (s.calls i).pc = .idle then
        let s := { s with calls := Function.update s.calls i { (s.calls i) with verb := verb } }
        match verb with
        | .status => s.atPc i .loadHomed
        | .isAbsEncValid => s.begin i
      else s
  | .advance i answer => s.advance i answer

end EncoderSystem

end ViamEthercat.Servo
