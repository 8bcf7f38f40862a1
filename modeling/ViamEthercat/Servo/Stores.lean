import ViamEthercat.Servo.Threads

/-!
# `ViamEthercat.Servo.Stores`: the RT loop, one store at a time

`Process.step` takes a dispatch of the loop for one step. Here the loop's stores to what the API
threads read are steps of their own, in the order of `viam/lib/servo_controller.cpp`, and
`bump_wake` is one of them (`RtStore.wake`, with the store that it follows).

* `Published` is what the loop publishes. `RtStore` lists its stores.
* `Controller.cycleStores`: the stores of one dispatch. The loop computes them from its own state,
  the input image and the drained batch alone: nobody else writes what it reads back.
* `Session.stopStores`: those of `on_stop`.
* `Machine`: the API threads of a `Process`, with the stores that the RT thread has left to make.
  `on_stop` comes first, and then the stopping window.

Stores that no wait and no claim of the slot reads stand together in one step: the sensed values
of `publish_state`, and its fault tiers.
-/

set_option autoImplicit false

namespace ViamEthercat.Servo

/-- What the loop publishes to the API threads. -/
structure Published where
  telemetry : Telemetry
  zeroOffsetCounts : Int32
  activeGeneration : Nat
  completedGeneration : Nat
  failedGeneration : Nat
  homingState : HomingState
  homingFail : HomingFail
  homed : Bool
  homeCounts : Int32
  wakeSeq : Nat
deriving DecidableEq

/-- The store that a `bump_wake` follows. -/
inductive WakeCause where
  | completed
  | failed
  | homing
  | faulted
  | exited
deriving DecidableEq, Repr

/-- One store of the RT thread. -/
inductive RtStore where
  | rtError (e : RtError)
  | failed (g : Nat)
  | active (g : Nat)
  | homingFail (fail : HomingFail)
  | homingState (state : HomingState)
  | zeroOffset (counts : Int32)
  | homeCounts (counts : Int32)
  | homed
  /-- position, velocity, powered, moving and the mode echo -/
  | sensed (te : Telemetry)
  | completed (g : Nat)
  /-- the bus, drive and controller tiers -/
  | tiers (te : Telemetry)
  | faulted (b : Bool)
  | loopCycle
  | rtExited
  | degraded
  /-- `bump_wake` -/
  | wake (cause : WakeCause)
deriving DecidableEq, Repr

/-- A store to the published state. -/
def RtStore.apply (m : Published) : RtStore → Published
  | .rtError e => { m with telemetry := { m.telemetry with rtError := e } }
  | .failed g => { m with failedGeneration := g }
  | .active g => { m with activeGeneration := g }
  | .homingFail fail => { m with homingFail := fail }
  | .homingState state => { m with homingState := state }
  | .zeroOffset counts => { m with zeroOffsetCounts := counts }
  | .homeCounts counts => { m with homeCounts := counts }
  | .homed => { m with homed := true }
  | .sensed te =>
      { m with telemetry := { m.telemetry with
          positionCounts := te.positionCounts, velocity := te.velocity, powered := te.powered
          moving := te.moving, modeEcho := te.modeEcho } }
  | .completed g => { m with completedGeneration := g }
  | .tiers te =>
      { m with telemetry := { m.telemetry with
          faultWkc := te.faultWkc, wkcFaulted := te.wkcFaulted, driveFaulted := te.driveFaulted
          driveWarning := te.driveWarning, driveFaultCode := te.driveFaultCode
          rtError := te.rtError } }
  | .faulted b => { m with telemetry := { m.telemetry with faulted := b } }
  | .loopCycle =>
      { m with telemetry := { m.telemetry with loopCycle := m.telemetry.loopCycle + 1 } }
  | .wake _ => { m with wakeSeq := m.wakeSeq + 1 }
  -- Not in `ControllerState`.
  | .rtExited | .degraded => m

namespace Controller

variable (p : RtParams) (s : Controller) (inp : CycleInput)

def published : Published where
  telemetry := s.telemetry
  zeroOffsetCounts := s.zeroOffsetCounts
  activeGeneration := s.activeGeneration
  completedGeneration := s.completedGeneration
  failedGeneration := s.failedGeneration
  homingState := s.homingState
  homingFail := s.homingFail
  homed := s.homed
  homeCounts := s.homeCounts
  wakeSeq := s.wakeSeq

/-- The controller with this published state. -/
def publish (m : Published) : Controller :=
  { s with
      telemetry := m.telemetry, zeroOffsetCounts := m.zeroOffsetCounts
      activeGeneration := m.activeGeneration, completedGeneration := m.completedGeneration
      failedGeneration := m.failedGeneration, homingState := m.homingState
      homingFail := m.homingFail, homed := m.homed, homeCounts := m.homeCounts
      wakeSeq := m.wakeSeq }

/-! ### The stores of a dispatch -/

/-- `abort_active_move`. -/
def abortStores (reason : RtError) : List RtStore :=
  .rtError reason ::
    if s.activeGeneration ≠ 0 ∧ s.completedGeneration ≠ s.activeGeneration then
      [.failed s.activeGeneration, .wake .failed]
    else []

/-- `publish_homing_result`. -/
def homingStores (fail : HomingFail) : List RtStore :=
  [.homingFail fail, .homingState (if fail = HomingFail.none then .done else .failed),
    .wake .homing]

/-- Adopting a target has no `bump_wake`. -/
def adoptStores (t : SetTarget) : List RtStore :=
  if t.generation ≠ s.activeGeneration then [.active t.generation] else []

/-- The head of `step_lifecycle`. -/
def routeStores (batch : CommandBatch) : List RtStore :=
  (if batch.halt then s.abortStores .motorStopped else []) ++
    (if batch.disable then s.abortStores .motorDisabled else []) ++
    (match batch.setTarget with
      | some t => s.adoptStores t
      | none => []) ++
    if batch.startHoming.isSome ∧ s.lifecycle ≠ .operational then homingStores .notOperational
    else []

/-- Operational: a fault, or a failure of the mode, fails the move. -/
def operationalStores (batch : CommandBatch) : List RtStore :=
  if Faulted inp then s.abortStores .notOperational
  else if batch.disable ∨ batch.startHoming.isSome ∨ batch.quickStop then []
  else match (s.motion.step p.sqrt p.fields inp s.outputs (s.feedback p inp)).next.fault with
    | .none => []
    | .modeNotAdopted => s.abortStores .modeMismatch
    | .setpointNotAcknowledged => s.abortStores .handshakeTimeout

/-- Homing: the branches that end the run publish its result. -/
def homingRunStores (batch : CommandBatch) : List RtStore :=
  if Faulted inp then homingStores .driveFault
  else if batch.disable ∨ batch.halt ∨ batch.quickStop then homingStores .cancelled
  else if !modeEchoed p inp .homing then
    if s.homingEchoWait + 1 ≥ modeEchoCycles then homingStores .modeNotAdopted else []
  else if inp.status.homingError then homingStores .driveError
  else if inp.status.homingAttained then
    [.zeroOffset 0, .homeCounts inp.actual, .homed] ++ homingStores .none
  else if s.homingCycles + 1 ≥ s.homingTimeoutCycles then homingStores .timeout
  else []

/-- The state machine, on the routed state. -/
def lifecycleStores (batch : CommandBatch) : List RtStore :=
  match s.lifecycle with
  | .operational => s.operationalStores p inp batch
  | .homing => s.homingRunStores p inp batch
  | _ => []

/-- The cycle completes the active move. -/
def completes : Bool :=
  let s := { s with atRest := (s.posHist.push p.positionToleranceCounts inp.actual).2 }
  inp.status.operationEnabled && s.moveActive && s.motion.isTargetReached (s.feedback p inp)

/-- `publish_state`. A fault wakes at its onset only. -/
def publishStores (velocity : Int32) : List RtStore :=
  let te := (s.publishState p inp velocity).telemetry
  .sensed te ::
    (if s.completes p inp then [.completed s.activeGeneration, .wake .completed] else []) ++
    [.tiers te, .faulted te.faulted] ++
    (if te.faulted && !s.telemetry.faulted then [.wake .faulted] else []) ++ [.loopCycle]

/-- `ServoController::step`: a dispatch of the stopping window only publishes. -/
def cycleStores (t : Tick) : List RtStore :=
  if t.inp.stopping then
    let velocity := velocityOf p t.inp s.prevActual
    let s := { s with prevActual := t.inp.actual }
    let r := s.motion.stepShutdown p.sqrt p.fields t.inp s.outputs (s.feedback p t.inp)
    { s with
        motion := r.next
        outputs := r.outputs.storeControlword r.controlword
        lastCw := r.controlword
        stopAtRest := t.inp.status.switchOnDisabled }.publishStores p t.inp velocity
  else
    let batch := drain t.drained
    let prevActual := if s.firstCycle then t.inp.actual else s.prevActual
    let s := s.sample t.inp
    let r := s.stepLifecycle p t.inp batch
    s.routeStores batch ++ (s.routeCommands t.inp batch).lifecycleStores p t.inp batch ++
      ((r.1.storeControlword r.2).trackUnlessOperational p t.inp).publishStores p t.inp
        (velocityOf p t.inp prevActual)

end Controller

namespace Session

variable (s : Session)

/-- One store of the RT thread. -/
def stored : RtStore → Session
  | .rtExited => { s with rtExited := true }
  | .degraded => { s with degraded := true }
  | st => { s with rt := s.rt.publish (st.apply s.rt.published) }

/-- `on_stop`. Its last stores have no `bump_wake` of their own. -/
def stopStores (reason : StopReason) : List RtStore :=
  let te := s.rt.telemetry
  [.rtExited, .wake .exited] ++ match reason with
    | .requested => []
    | .busFault wkc => [.tiers { te with faultWkc := wkc, wkcFaulted := true }]
    | .bringupAborted syncCode =>
        let te := match syncCode with
          | some code => { te with driveFaultCode := code, driveFaulted := true }
          | none => te
        [.tiers { te with rtError := .notOperational }, .faulted true, .degraded]
    | .rtSetupFailed => [.rtError .rtSetupFailed, .degraded]

/-- A dispatch begins: the queue is drained, and the loop computes its next state. Its stores are
left to make. -/
def computed (inp : CycleInput) : Session :=
  { s with
      rt := (cycle s.params s.rt ⟨inp, s.queue⟩).publish s.rt.published
      queue := if inp.stopping then s.queue else [] }

end Session

/-- The threads, with the stores that the RT thread has left. -/
structure Machine where
  process : Process
  todo : List RtStore := []
  /-- `on_stop` was called: the Runner is in its stopping window -/
  window : Bool := false

/-- One atomic operation of some thread. -/
inductive AtomicOp where
  /-- of an API thread -/
  | api (op : Op)
  /-- a dispatch of the RT thread begins -/
  | dispatch (inp : CycleInput)
  /-- the RT thread enters `on_stop` -/
  | leave (reason : StopReason)
  /-- the next store of the RT thread -/
  | store
  /-- the RT thread ends -/
  | finish

namespace Machine

variable (m : Machine)

/-- The memory that the threads share. -/
def shared : Session := m.process.shared

def onShared (s : Session) : Machine := { m with process := { m.process with shared := s } }

/-- One atomic operation. The RT thread begins nothing before its last stores are made. -/
def step : AtomicOp → Machine
  -- The RT thread's own operations are those below.
  | .api (.dispatch _) | .api (.exit _) => m
  | .api op => { m with process := m.process.step op }
  | .dispatch inp =>
      if m.shared.running ∧ m.todo = [] ∧ inp.stopping = m.window then
        { m.onShared (m.shared.computed inp) with
            todo := m.shared.rt.cycleStores m.shared.params ⟨inp, m.shared.queue⟩ }
      else m
  | .leave reason =>
      if m.shared.running ∧ m.todo = [] ∧ m.window = false then
        { m with todo := m.shared.stopStores reason, window := true }
      else m
  | .store => match m.todo with
      | st :: todo => { m.onShared (m.shared.stored st) with todo := todo }
      | [] => m
  | .finish =>
      if m.shared.running ∧ m.todo = [] ∧ m.window = true then
        m.onShared { m.shared with running := false }
      else m

end Machine

end ViamEthercat.Servo
