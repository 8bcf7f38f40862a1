import ViamEthercat.Servo.Config
import ViamEthercat.Servo.Controller

/-!
# `ViamEthercat.Servo.Session`: the API half of `ServoController` and its threads

The model of the non-RT functions of `viam/lib/servo_controller.cpp`: the motion verbs with
their guards, conversions and texts, the single-in-flight slot, the wait of a blocking call,
and the start and the end of a run. `Session` is the state that the API threads and the RT
loop share, and `Session.step` one atomic step of any of them:

* a verb that only pushes a command;
* a step of a blocking call (`Call`), one atomic operation at a time: the fresh move id, the
  claim of the slot, the push, and each load of `await_move`. A call is named by its place in
  `calls`: the move ids start again with every run, and wrap;
* a dispatch of the RT loop (`cycle`), which drains the queue unless the Runner is stopping;
* the exit of the RT loop (`on_stop`), `stop`, and a restart. `start`, `reconfigure` and the
  rebuild in `maybe_recover_bus` all restart through `spawn_runner`.

The verbs that convert a position or a speed take the rounding of the arithmetic (`goToIn`). The
steps are those of exact arithmetic, `.fin`. The guards of a verb are one step: they are loads
that only refuse. `home` writes its SDO
objects between its claim and its push, and these can fail. The bring-up retries and the marker
of a lost bus are `Servo.BusRecovery`'s. `last_error`'s composed text is a parameter.
-/

set_option autoImplicit false

namespace ViamEthercat.Servo

open Double

/-- Where a blocking call is. -/
inductive CallPc where
  /-- holds a fresh move id, claims the slot next -/
  | claim
  /-- `home` only: writes the homing objects by SDO -/
  | prepare
  | push
  | loadCompleted
  | loadActive
  | loadStopping
  | loadExited
  | loadFailed
  | loadFaulted
  /-- `home` only: `await_homing` -/
  | loadHoming
  | loadHomingStopping
  | loadHomingExited
  | parked
  | returned
  | threw (text : String)
deriving DecidableEq, Repr

/-- A call of `go_to`, `go_for` or `home`: the verb, its move id and the command it pushes. -/
structure Call where
  verb : String
  generation : Nat
  command : Command
  pc : CallPc
deriving DecidableEq, Repr

/-- Why the RT loop exited. -/
inductive StopReason where
  | requested
  | busFault (wkc : Int)
  /-- with the sync-fault code, when that was the cause -/
  | bringupAborted (syncCode : Option (BitVec 16))
  | rtSetupFailed
deriving DecidableEq, Repr

/-- The state that the API threads and the RT loop share. -/
structure Session where
  config : ServoConfig
  params : RtParams
  /-- `last_error()`, of the published state -/
  lastErrorText : Controller → String
  rt : Controller
  /-- fixed at construction, also across `reconfigure` -/
  queueCapacity : Nat
  queue : List Command := []
  /-- a Runner is live and dispatches cycles -/
  running : Bool := false
  stopping : Bool := false
  rtExited : Bool := false
  degraded : Bool := false
  degradedReason : String := ""
  nextGeneration : Nat := 0
  motionSlot : Nat := 0
  velBudgetCps : Int := 0
  calls : List Call := []

/-- What a restart is built from: the configuration, the resolved fields, the selected mode
with its velocity budget, and the process-data frames of the bring-up. -/
structure Bringup where
  config : ServoConfig
  params : RtParams
  motion : MotionMode ℚ
  posHist : PositionRing
  velBudgetCps : Int
  frames : List CycleInput

namespace Session

/-- The constructor: no run yet, and nothing queued. -/
def new (config : ServoConfig) (params : RtParams) (lastErrorText : Controller → String)
    (rt : Controller) : Session :=
  { config := config, params := params, lastErrorText := lastErrorText, rt := rt
    queueCapacity := config.commandQueueCapacity }

variable (s : Session)

/-! ### Guards -/

def lastError : String := s.lastErrorText s.rt

def estopEngaged : Bool :=
  decide (s.config.estopFaultCode ≠ 0#16) && s.rt.telemetry.driveFaulted &&
    decide (s.rt.telemetry.driveFaultCode = s.config.estopFaultCode)

/-- `gen_terminal`: completed and failed hold the last terminal move. -/
def genTerminal (g : Nat) : Bool :=
  decide (g ≠ 0) &&
    (decide (s.rt.completedGeneration = g) || decide (s.rt.failedGeneration = g))

/-- `motion_slot_busy`: a live blocking call owns the slot. The claim of
`try_claim_motion_slot` fails exactly then. -/
def motionSlotBusy : Bool := decide (s.motionSlot ≠ 0) && !s.genTerminal s.motionSlot

/-- The command needs another mode than the drive runs, and the motor is moving. -/
def switchesModeWhileMoving (cmd : MotionCommand) : Bool :=
  s.params.fields.modeDisplay && decide (s.rt.telemetry.modeEcho ≠ 0) &&
    decide (s.rt.telemetry.modeEcho ≠ (s.rt.motion.modeRequiredBy cmd).code) &&
    s.rt.telemetry.moving

/-- `refuse_mode_switch_while_moving`. -/
def refuseModeSwitchWhileMoving (verb : String) (cmd : MotionCommand) : Except String Unit :=
  require (!s.switchesModeWhileMoving cmd)
    (verb ++ ": the motor is moving in mode " ++ toString s.rt.telemetry.modeEcho.toInt ++
      " and this command needs mode " ++
      toString (s.rt.motion.modeRequiredBy cmd).code.toInt ++
      " -- stop the motor before changing mode")

/-- The degraded gate of a verb. -/
def requireAvailable (verb : String) : Except String Unit :=
  require (!s.degraded) (verb ++ " unavailable: " ++
    if s.degradedReason = "" then s.lastError else s.degradedReason)

/-- The emergency-stop gate of a verb. -/
def requireReleased (verb action : String) : Except String Unit :=
  require (!s.estopEngaged)
    (verb ++ ": emergency stop engaged -- release it before " ++ action)

/-! ### The motion verbs -/

/-- `std::abs` of an `int32_t`, as the hardware computes it: the least value is its own
negative. -/
def absI32 (v : Int32) : Int32 := if v < 0 then -v else v

/-- `clamp_to_stop_budget`: inert without a budget. -/
def clampToStopBudget (velCps : Int32) : Int32 :=
  if s.velBudgetCps ≤ 0 ∨ (absI32 velCps).toInt ≤ s.velBudgetCps then velCps
  else if 0 ≤ velCps then Int32.ofInt s.velBudgetCps else -Int32.ofInt s.velBudgetCps

/-- The device velocity of a clamped rpm. -/
def deviceVelocityIn (round : ℚ → Double) (rpm : Double) : Int32 :=
  rpmToDeviceVelocityIn round (clampRpm rpm s.config.maxMotorSpeedRpm) s.config.countsPerRev
    s.config.gearRatio

def deviceVelocity (rpm : Double) : Int32 :=
  rpmToDeviceVelocity (clampRpm rpm s.config.maxMotorSpeedRpm) s.config.countsPerRev
    s.config.gearRatio

/-- `set_rpm` and `push_velocity`: the command it pushes, or what it throws. -/
def setRpm (rpm : Double) : Except String Command := do
  s.requireAvailable "set_rpm"
  s.requireReleased "set_rpm" "commanding motion"
  -- A velocity owns no slot, so only a live blocking move refuses it.
  require (!s.motionSlotBusy) "set_rpm: a motion operation is already in progress"
  s.refuseModeSwitchWhileMoving "set_rpm" .velocity
  return .setVelocity (s.clampToStopBudget (s.deviceVelocity rpm))

/-- `go_to` until it takes its move id. The target is in the zeroed frame, and the sum is
taken in `int32_t`. -/
def goToTargetIn (round : ℚ → Double) (rpm position : Double) :
    Except String (Nat → SetTarget) := do
  s.requireAvailable "go_to"
  s.requireReleased "go_to" "commanding motion"
  -- Only the rpm is tested below: a position that is no number saturates here.
  let counts := revsToCountsIn round position s.config.countsPerRev s.config.gearRatio +
    s.rt.zeroOffsetCounts
  require (rpm.isFinite && lt (.fin 0) rpm)
    ("go_to: rpm must be a positive number (got " ++ rpm.toText ++ ")")
  let prof := s.clampToStopBudget (s.deviceVelocityIn round rpm)
  s.refuseModeSwitchWhileMoving "go_to" .position
  return fun g => ⟨counts, (absI32 prof).toUInt32, false, g⟩

/-- `go_for` until it takes its move id. The sign of the rpm flips the direction, and the
speed does not pass the stop budget. -/
def goForTargetIn (round : ℚ → Double) (rpm revs : Double) :
    Except String (Nat → SetTarget) := do
  s.requireAvailable "go_for"
  s.requireReleased "go_for" "commanding motion"
  require (rpm.isFinite && decide (rpm ≠ .fin 0))
    ("go_for: rpm must be non-zero (got " ++ rpm.toText ++ ")")
  let delta := revsToCountsIn round (if lt rpm (.fin 0) then neg revs else revs)
    s.config.countsPerRev s.config.gearRatio
  -- No stop budget here, unlike `go_to`.
  let prof := s.deviceVelocityIn round rpm.abs
  s.refuseModeSwitchWhileMoving "go_for" .position
  return fun g => ⟨delta, (absI32 prof).toUInt32, true, g⟩

def goToTarget (rpm position : Double) : Except String (Nat → SetTarget) :=
  s.goToTargetIn .fin rpm position

def goForTarget (rpm revs : Double) : Except String (Nat → SetTarget) :=
  s.goForTargetIn .fin rpm revs

/-- `next_generation_.fetch_add(1) + 1`, of an `uint32_t`. After `2 ^ 32` moves of a run the id
is 0, which is also the value of a free slot. -/
def nextId : Nat := (s.nextGeneration + 1) % 2 ^ 32

/-- The claim of the single-in-flight slot, before the push. -/
def claimed (verb : String) (target : Nat → SetTarget) : Except String Command := do
  require (!s.motionSlotBusy) (verb ++ ": a motion operation is already in progress")
  return .setTarget (target s.nextId)

/-- `go_to` without other threads: the command it pushes, or what it throws before the
wait. -/
def goToIn (round : ℚ → Double) (rpm position : Double) : Except String Command := do
  s.claimed "go_to" (← s.goToTargetIn round rpm position)

/-- `go_for` without other threads. -/
def goForIn (round : ℚ → Double) (rpm revs : Double) : Except String Command := do
  s.claimed "go_for" (← s.goForTargetIn round rpm revs)

def goTo (rpm position : Double) : Except String Command := s.goToIn .fin rpm position

def goFor (rpm revs : Double) : Except String Command := s.goForIn .fin rpm revs

/-- `home` until it takes its move id. -/
def homeRequest : Except String (Nat → StartHoming) := do
  s.requireAvailable "home"
  s.requireReleased "home" "homing"
  require s.rt.telemetry.powered "home: the drive is not energized"
  let cycles := match mul s.config.homing.timeoutS (.fin s.config.targetLoopRateHz) with
    | .fin q => ⌊q⌋.toNat
    -- An infinite timeout has no `uint32_t` value in the source.
    | _ => 0
  return fun g => ⟨g, cycles⟩

/-! ### Steps -/

/-- `CommandQueue::push`: a full queue drops the command. -/
def pushed (c : Command) : Session :=
  { s with queue := (push s.queueCapacity s.queue c).1 }

/-- A blocking call starts: it takes the next move id. -/
def begun (verb : String) (command : Nat → Command) : Session :=
  let g := s.nextId
  { s with nextGeneration := g, calls := s.calls ++ [⟨verb, g, command g, .claim⟩] }

/-- The call `i` at `pc`. -/
def atPc (i : Nat) (pc : CallPc) : Session :=
  { s with calls := s.calls.modify i fun c => { c with pc := pc } }

/-- `release_motion_slot`: only if it is still ours. -/
def released (g : Nat) : Session :=
  if s.motionSlot = g then { s with motionSlot := 0 } else s

/-- A failure of a wait: the call `i` releases the slot, if it is its own, and throws. -/
def failed (i g : Nat) (text : String) : Session := (s.released g).atPc i (.threw text)

/-- One atomic operation of the blocking call `c`, which is the call `i`. -/
def advance (i : Nat) (c : Call) : Session :=
  let g := c.generation
  match c.pc with
  | .claim =>
      -- Another thread may have claimed the slot since the checks of the verb.
      if s.motionSlotBusy then
        s.atPc i (.threw (c.verb ++ ": a motion operation is already in progress"))
      else { s with motionSlot := g }.atPc i (if c.command.homing?.isSome then .prepare else .push)
  | .prepare =>
      { s with rt := { s.rt with homingFail := .none, homingState := .running } }.atPc i .push
  | .push =>
      (s.pushed c.command).atPc i
        (if c.command.homing?.isSome then .loadHoming else .loadCompleted)
  | .loadCompleted =>
      -- The ids are monotonic, so a later completion covers this move.
      s.atPc i (if g ≤ s.rt.completedGeneration then .returned else .loadActive)
  -- Superseded by a newer move, which the source takes as benign.
  | .loadActive => s.atPc i (if g < s.rt.activeGeneration then .returned else .loadStopping)
  | .loadStopping =>
      if s.stopping then s.failed i g "move: controller stopped / RT loop not alive"
      else s.atPc i .loadExited
  | .loadExited =>
      if s.rtExited then s.failed i g "move: controller stopped / RT loop not alive"
      else s.atPc i .loadFailed
  | .loadFailed =>
      if g ≤ s.rt.failedGeneration then s.failed i g ("move aborted (" ++ s.lastError ++ ")")
      else s.atPc i .loadFaulted
  | .loadFaulted =>
      -- The call gives up here, and its command stays in the queue.
      if s.rt.telemetry.faulted then
        s.failed i g ("move: drive faulted (" ++ s.lastError ++ ")")
      else s.atPc i .parked
  | .loadHoming =>
      if s.rt.homingState ≠ .running then (s.released g).atPc i .returned
      else s.atPc i .loadHomingStopping
  | .loadHomingStopping =>
      if s.stopping then s.failed i g "home: controller stopped / RT loop not alive"
      else s.atPc i .loadHomingExited
  | .loadHomingExited =>
      if s.rtExited then s.failed i g "home: controller stopped / RT loop not alive"
      else s.atPc i .parked
  -- A wake, or a spurious one.
  | .parked => s.atPc i (if c.command.homing?.isSome then .loadHoming else .loadCompleted)
  | .returned => s
  | .threw _ => s

/-- A dispatch of the RT loop. The stopping window drains nothing. -/
def dispatched (inp : CycleInput) : Session :=
  if s.running then
    { s with
        rt := cycle s.params s.rt ⟨inp, s.queue⟩
        queue := if inp.stopping then s.queue else [] }
  else s

/-- `on_stop`: the RT loop exits. -/
def exited (reason : StopReason) : Session :=
  let s := { s with running := false, rtExited := true, rt := s.rt.bumpWake }
  match reason with
  | .requested => s
  | .busFault wkc =>
      { s with
          rt := { s.rt with telemetry :=
            { s.rt.telemetry with faultWkc := wkc, wkcFaulted := true } } }
  | .bringupAborted syncCode =>
      let te := match syncCode with
        | some code =>
            { s.rt.telemetry with driveFaultCode := code, driveFaulted := true }
        | none => s.rt.telemetry
      { s with
          rt := { s.rt with telemetry := { te with rtError := .notOperational, faulted := true } }
          degraded := true }
  | .rtSetupFailed =>
      { s with
          rt := { s.rt with telemetry := { s.rt.telemetry with rtError := .rtSetupFailed } }
          degraded := true }

/-- `spawn_runner` on a rebuilt master: the per-run state is reset, and the queue is not. -/
def restarted (b : Bringup) : Session :=
  { s with
      config := b.config, params := b.params
      rt := spawned b.params { s.rt with motion := b.motion, posHist := b.posHist } b.frames
      running := true, stopping := false, rtExited := false
      degraded := false, degradedReason := ""
      -- The ids start again, while `queue` and `calls` are those of the dead run.
      nextGeneration := 0, motionSlot := 0, velBudgetCps := b.velBudgetCps }

/-- `set_zero`: the current position reads `offsetRevs` from here on. -/
def setZero (offsetRevs : Double) : Session :=
  let cur := s.rt.telemetry.positionCounts
  let offset := if offsetRevs = .fin 0 then 0
    else revsToCounts offsetRevs s.config.countsPerRev s.config.gearRatio
  { s with rt := { s.rt with zeroOffsetCounts := cur - offset } }

end Session

/-- One atomic step of some thread. -/
inductive Event where
  | setRpm (rpm : Double)
  | halt
  | enable
  | disable
  | requestFaultReset
  | setZero (offsetRevs : Double)
  | goTo (rpm position : Double)
  | goFor (rpm revs : Double)
  | home
  /-- the next operation of the call `i` -/
  | advance (i : Nat)
  /-- an SDO transfer of the call `i`, a `home`, fails -/
  | homeFails (i : Nat) (text : String)
  | dispatch (inp : CycleInput)
  | exit (reason : StopReason)
  | stop
  | restart (b : Bringup)

namespace Session

/-- One atomic step. A verb that throws leaves no trace. -/
def step (s : Session) : Event → Session
  | .setRpm rpm => match s.setRpm rpm with
      | .ok c => s.pushed c
      | .error _ => s
  | .halt => s.pushed .halt
  | .enable => s.pushed .enable
  | .disable => s.pushed .disable
  | .requestFaultReset => s.pushed .faultReset
  | .setZero offsetRevs => s.setZero offsetRevs
  | .goTo rpm position => match s.goToTarget rpm position with
      | .ok target => s.begun "go_to" fun g => .setTarget (target g)
      | .error _ => s
  | .goFor rpm revs => match s.goForTarget rpm revs with
      | .ok target => s.begun "go_for" fun g => .setTarget (target g)
      | .error _ => s
  | .home => match s.homeRequest with
      | .ok request => s.begun "home" fun g => .startHoming (request g)
      | .error _ => s
  | .advance i => match s.calls[i]? with
      | some c => s.advance i c
      | none => s
  | .homeFails i text => match s.calls[i]? with
      | some c =>
          if c.pc = .prepare then
            -- No request was pushed yet, so the loop has nothing to settle.
            { s with rt := { s.rt with homingState := .failed } }.failed i c.generation text
          else s
      | none => s
  | .dispatch inp => s.dispatched inp
  | .exit reason => s.exited reason
  | .stop => { s with stopping := true, rt := s.rt.bumpWake }
  | .restart b => s.restarted b

end Session

end ViamEthercat.Servo
