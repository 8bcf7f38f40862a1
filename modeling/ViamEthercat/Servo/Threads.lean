import ViamEthercat.Servo.Session

/-!
# `ViamEthercat.Servo.Threads`: the API threads, one atomic operation at a time

`Session.step` takes a verb that only pushes, and a restart, for one step. Here every operation
on an atomic that another thread writes is a step, and `api_mutex_` excludes what it excludes in
the source. The model of the same functions of `viam/lib/servo_controller.cpp`:

* `Thread.step`: one operation of a call of `set_rpm`, `go_to`, `go_for` or `home` on the memory
  it shares. The guards of a verb are loads that only refuse, and stay one step.
* `Stage`: how far the thread is that holds the lock exclusively, in `start`, `stop`,
  `reconfigure` or `maybe_recover_bus`. `RunStore` lists the stores of `reset_run_state`.
* `Process.step`: one step of any of these threads or of the RT loop.

A step that has to wait, for the lock or in `wake_seq_.wait`, changes nothing. The
shared memory is a `Session`, without its `calls`: the calls here are the threads.
-/

set_option autoImplicit false

namespace ViamEthercat.Servo

/-- The verbs that look at the motion slot. -/
inductive Verb where
  | setRpm
  | goTo
  | goFor
  | home
deriving DecidableEq, Repr

namespace Verb

def text : Verb → String
  | .setRpm => "set_rpm"
  | .goTo => "go_to"
  | .goFor => "go_for"
  | .home => "home"

/-- The verbs that wait in `await_move`. -/
def isMove : Verb → Bool
  | .goTo | .goFor => true
  | _ => false

end Verb

/-- Why a blocking call fails. -/
inductive Failure where
  | stopped
  | aborted
  | faulted
  /-- an SDO transfer of `home` -/
  | sdo (text : String)
deriving DecidableEq, Repr

/-- How a call ends. -/
inductive Result where
  | returned
  /-- `home` returns what `await_homing` gave -/
  | homed (attained : Bool)
  | threw (text : String)
deriving DecidableEq, Repr

/-- The next operation of a call. `seq` is the `wake_seq_` of the round of a wait, and `cur` the
slot that `try_claim_motion_slot` or `motion_slot_busy` read. -/
inductive Pc where
  | takeId
  | loadSlot
  /-- the two loads of `gen_terminal` -/
  | slotCompleted (cur : Nat)
  | slotFailed (cur : Nat)
  /-- `compare_exchange_weak` -/
  | exchange (cur : Nat)
  /-- `set_rpm` only: `refuse_mode_switch_while_moving` -/
  | checkMode
  /-- `home` only: writes the homing objects by SDO, without the lock -/
  | prepare
  | push
  | loadSeq
  | loadCompleted (seq : Nat)
  | loadActive (seq : Nat)
  | loadHoming (seq : Nat)
  | loadStopping (seq : Nat)
  | loadExited (seq : Nat)
  | loadFailed (seq : Nat)
  | loadFaulted (seq : Nat)
  | wait (seq : Nat)
  /-- `home` only: its catch block stores the state first -/
  | giveUp (why : Failure)
  | release (why : Failure)
  /-- `home` only: the slot is released, and then the mode restored -/
  | releaseHomed (attained : Bool)
  | restore (attained : Bool)
  | done (r : Result)
deriving DecidableEq, Repr

/-- In `await_move` or `await_homing`, and not yet on the way out. -/
def Pc.waits : Pc → Bool
  | .loadSeq | .loadCompleted _ | .loadActive _ | .loadHoming _ | .loadStopping _ | .loadExited _
  | .loadFailed _ | .loadFaulted _ | .wait _ => true
  | _ => false

/-- A call: its verb, the command it pushes with its move id, and where it is. -/
structure Thread where
  verb : Verb
  command : Nat → Command
  /-- 0 until `next_generation_` gave one -/
  generation : Nat := 0
  pc : Pc

/-- The text that a failed call throws. -/
def Failure.message (s : Session) (v : Verb) : Failure → String
  | .stopped =>
      (if v = .home then "home" else "move") ++ ": controller stopped / RT loop not alive"
  | .aborted => "move aborted (" ++ s.lastError ++ ")"
  | .faulted => "move: drive faulted (" ++ s.lastError ++ ")"
  | .sdo text => text

namespace Thread

variable (s : Session) (t : Thread)

def atPc (pc : Pc) : Thread := { t with pc := pc }

/-- The slot is free, or holds a terminal move. -/
def slotFree (cur : Nat) : Pc := if t.verb = .setRpm then .checkMode else .exchange cur

/-- The slot was read. -/
def slotRead (cur : Nat) : Pc := if cur = 0 then t.slotFree 0 else .slotCompleted cur

/-- A live blocking move owns the slot. -/
def busy : Pc := .done (.threw (t.verb.text ++ ": a motion operation is already in progress"))

/-- A failure of a wait. -/
def fails (why : Failure) : Pc := if t.verb = .home then .giveUp why else .release why

/-- One operation: the shared memory and the call after it. -/
def step : Session × Thread :=
  match t.pc with
  | .takeId =>
      let g := s.nextId
      ({ s with nextGeneration := g }, { t with generation := g, pc := .loadSlot })
  | .loadSlot => (s, t.atPc (t.slotRead s.motionSlot))
  | .slotCompleted cur =>
      (s, t.atPc (if s.rt.completedGeneration = cur then t.slotFree cur else .slotFailed cur))
  | .slotFailed cur =>
      (s, t.atPc (if s.rt.failedGeneration = cur then t.slotFree cur else t.busy))
  | .exchange cur =>
      if s.motionSlot = cur then
        ({ s with motionSlot := t.generation },
          t.atPc (if t.verb = .home then .prepare else .push))
      -- The exchange reloads `cur`, and the loop looks at the winner.
      else (s, t.atPc (t.slotRead s.motionSlot))
  | .checkMode => match s.refuseModeSwitchWhileMoving "set_rpm" .velocity with
      | .ok _ => (s, t.atPc .push)
      | .error text => (s, t.atPc (.done (.threw text)))
  | .prepare =>
      ({ s with rt := { s.rt with homingFail := .none, homingState := .running } }, t.atPc .push)
  -- The result of the push is discarded.
  | .push =>
      (s.pushed (t.command t.generation),
        t.atPc (if t.verb = .setRpm then .done .returned else .loadSeq))
  | .loadSeq =>
      (s, t.atPc (if t.verb = .home then .loadHoming s.rt.wakeSeq
        else .loadCompleted s.rt.wakeSeq))
  | .loadCompleted seq =>
      -- The ids are monotonic, so a later completion covers this move.
      (s, t.atPc (if t.generation ≤ s.rt.completedGeneration then .done .returned
        else .loadActive seq))
  | .loadActive seq =>
      -- Superseded by a newer move, which the source takes as benign.
      (s, t.atPc (if t.generation < s.rt.activeGeneration then .done .returned
        else .loadStopping seq))
  | .loadHoming seq =>
      (s, t.atPc (if s.rt.homingState ≠ .running
        then .releaseHomed (decide (s.rt.homingState = .done)) else .loadStopping seq))
  | .loadStopping seq =>
      (s, t.atPc (if s.stopping then t.fails .stopped else .loadExited seq))
  | .loadExited seq =>
      (s, t.atPc (if s.rtExited then t.fails .stopped
        else if t.verb = .home then .wait seq else .loadFailed seq))
  | .loadFailed seq =>
      (s, t.atPc (if t.generation ≤ s.rt.failedGeneration then t.fails .aborted
        else .loadFaulted seq))
  | .loadFaulted seq =>
      (s, t.atPc (if s.rt.telemetry.faulted then t.fails .faulted else .wait seq))
  | .wait seq => (s, t.atPc (if s.rt.wakeSeq = seq then .wait seq else .loadSeq))
  | .giveUp why =>
      ({ s with rt := { s.rt with homingState := .failed } }, t.atPc (.release why))
  | .release why =>
      (s.released t.generation, t.atPc (.done (.threw (why.message s t.verb))))
  | .releaseHomed attained => (s.released t.generation, t.atPc (.restore attained))
  | .restore attained => (s, t.atPc (.done (.homed attained)))
  | .done _ => (s, t)

/-- The call holds `api_mutex_` shared. `home` gives it back before its SDO transfers, and holds
it again for its push alone. -/
def holdsLock : Bool :=
  match t.pc with
  | .takeId | .loadSlot | .slotCompleted _ | .slotFailed _ | .exchange _ | .checkMode => true
  | .push => decide (t.verb ≠ .home)
  | _ => false

end Thread

/-- The stores of `reset_run_state` that an API thread can see. What only the loop reads is in
`loop`. -/
inductive RunStore where
  | stopping
  | telemetry
  | active
  | completed
  | failed
  | nextGeneration
  | motionSlot
  | homing
  | loop
  | rtExited
deriving DecidableEq, Repr

/-- `reset_run_state`, in its order. -/
def runStores : List RunStore :=
  [.stopping, .telemetry, .active, .completed, .failed, .nextGeneration, .motionSlot, .homing,
    .loop, .rtExited]

/-- How far the thread is that holds `api_mutex_` exclusively. -/
inductive Stage where
  /-- nobody holds it -/
  | free
  | locked
  /-- `stopping_` is set -/
  | stopped
  /-- the waiters are woken, and the Runner is joined next -/
  | woken
  /-- there is no Runner -/
  | down
  /-- inside `spawn_runner`, with these stores left -/
  | resetting (todo : List RunStore) (b : Bringup)
  /-- a Runner is live, and its bring-up is awaited -/
  | spawned

namespace Session

variable (s : Session)

/-- One store of `reset_run_state`. -/
def store : RunStore → Session
  | .stopping => { s with stopping := false }
  | .telemetry =>
      { s with rt := { s.rt with telemetry := { s.rt.telemetry with
          rtError := .none, faulted := false, driveFaulted := false, loopCycle := 0 } } }
  | .active => { s with rt := { s.rt with activeGeneration := 0 } }
  | .completed => { s with rt := { s.rt with completedGeneration := 0 } }
  | .failed => { s with rt := { s.rt with failedGeneration := 0 } }
  | .nextGeneration => { s with nextGeneration := 0 }
  | .motionSlot => { s with motionSlot := 0 }
  | .homing => { s with rt := { s.rt with homingState := .idle, homed := false, homeCounts := 0 } }
  | .loop =>
      { s with rt := { s.rt with
          lifecycle := .init, lastCw := 0#16, motion := s.rt.motion.reset, prevActual := 0
          firstCycle := true, stopAtRest := false, atRest := false, latchedCtrlError := .none
          stopRequested := false } }
  | .rtExited => { s with rtExited := false }

/-- The mode is selected and the fields are resolved, before the Runner is spawned. -/
def resolved (b : Bringup) : Session :=
  { s with config := b.config, params := b.params
           rt := { s.rt with motion := b.motion, posHist := b.posHist } }

/-- The rest of `spawn_runner`: the Runner starts and pumps the process data of its bring-up. -/
def launched (b : Bringup) : Session :=
  { s with running := true, degraded := false, degradedReason := ""
           velBudgetCps := b.velBudgetCps
           rt := b.frames.foldl (fun rt inp => rt.stageBringupOutputs b.params inp) s.rt }

/-- The Runner refuses to start. -/
def refused (text : String) : Session := { s with degraded := true, degradedReason := text }

end Session

/-- The shared memory, the calls and the holder of the exclusive lock. -/
structure Process where
  shared : Session
  threads : List Thread := []
  stage : Stage := .free

/-- The start of a call. -/
inductive Invocation where
  | setRpm (rpm : Double)
  | goTo (rpm position : Double)
  | goFor (rpm revs : Double)
  | home
  | halt
  | enable
  | disable
  | requestFaultReset

/-- A step of the thread that holds the lock exclusively. -/
inductive Hold where
  /-- `start`, `stop`, `reconfigure` or `maybe_recover_bus` takes the lock -/
  | lock
  | storeStopping
  | wake
  | join
  | reset (b : Bringup)
  | store
  | launch
  | refuse (text : String)
  | unlock

/-- One atomic step of some thread. -/
inductive Op where
  | call (r : Invocation)
  | setZero (offsetRevs : Double)
  /-- the next operation of a call -/
  | advance (i : Nat)
  /-- `compare_exchange_weak` fails without a cause -/
  | exchangeFails (i : Nat)
  /-- an SDO transfer of `home` fails -/
  | homeFails (i : Nat) (text : String)
  | dispatch (inp : CycleInput)
  | exit (reason : StopReason)
  | hold (h : Hold)

/-- The guards of `set_rpm` before the slot. `push_velocity` converts later, from what only a
restart changes. -/
def Session.setRpmRequest (s : Session) (rpm : Double) : Except String Command := do
  s.requireAvailable "set_rpm"
  s.requireReleased "set_rpm" "commanding motion"
  return .setVelocity (s.clampToStopBudget (s.deviceVelocity rpm))

namespace Process

variable (y : Process)

def pushed (c : Command) : Process := { y with shared := y.shared.pushed c }

/-- The guards of a verb passed, and its call starts. -/
def begun (verb : Verb) (pc : Pc) (command : Nat → Command) : Process :=
  { y with threads := y.threads ++ [{ verb := verb, command := command, pc := pc }] }

/-- The call `i` after an operation on its own state. -/
def put (i : Nat) (t : Thread) : Process := { y with threads := y.threads.set i t }

def atStage (stage : Stage) : Process := { y with stage := stage }

/-- Somebody holds the lock exclusively. -/
def exclusive : Bool := match y.stage with
  | .free => false
  | _ => true

/-- A verb starts under the shared lock. One that throws leaves no trace. -/
def call : Invocation → Process
  | .setRpm rpm => match y.shared.setRpmRequest rpm with
      | .ok c => y.begun .setRpm .loadSlot fun _ => c
      | .error _ => y
  | .goTo rpm position => match y.shared.goToTarget rpm position with
      | .ok target => y.begun .goTo .takeId fun g => .setTarget (target g)
      | .error _ => y
  | .goFor rpm revs => match y.shared.goForTarget rpm revs with
      | .ok target => y.begun .goFor .takeId fun g => .setTarget (target g)
      | .error _ => y
  | .home => match y.shared.homeRequest with
      | .ok request => y.begun .home .takeId fun g => .startHoming (request g)
      | .error _ => y
  | .halt => y.pushed .halt
  | .enable => y.pushed .enable
  | .disable => y.pushed .disable
  | .requestFaultReset => y.pushed .faultReset

/-- An operation of the call `i`. Only `home` takes the lock in the middle, and waits for it. -/
def advance (i : Nat) (t : Thread) : Process :=
  if t.pc = .push ∧ t.verb = .home ∧ y.exclusive then y
  else { y with shared := (t.step y.shared).1, threads := y.threads.set i (t.step y.shared).2 }

/-- A step of the thread that holds the lock exclusively. -/
def hold : Hold → Process
  | .lock =>
      if y.exclusive || y.threads.any Thread.holdsLock then y else y.atStage .locked
  | .storeStopping => match y.stage with
      | .locked => { y with shared := { y.shared with stopping := true } }.atStage .stopped
      | _ => y
  | .wake => match y.stage with
      | .stopped =>
          { y with shared := { y.shared with rt := y.shared.rt.bumpWake } }.atStage .woken
      | _ => y
  -- The Runner is destroyed once its loop has exited.
  | .join => match y.stage with
      | .woken | .spawned => if y.shared.running then y else y.atStage .down
      | _ => y
  -- `start` finds no Runner.
  | .reset b => match y.stage with
      | .locked | .down =>
          if y.shared.running then y
          else { y with shared := y.shared.resolved b }.atStage (.resetting runStores b)
      | _ => y
  | .store => match y.stage with
      | .resetting (r :: todo) b =>
          { y with shared := y.shared.store r }.atStage (.resetting todo b)
      | _ => y
  | .launch => match y.stage with
      | .resetting [] b => { y with shared := y.shared.launched b }.atStage .spawned
      | _ => y
  | .refuse text => match y.stage with
      | .resetting [] _ => { y with shared := y.shared.refused text }.atStage .down
      | _ => y
  | .unlock => match y.stage with
      | .locked | .down | .spawned => y.atStage .free
      | _ => y

/-- One atomic step. -/
def step : Op → Process
  -- A verb waits while the lock is held exclusively.
  | .call r => if y.exclusive then y else y.call r
  | .setZero offsetRevs => { y with shared := y.shared.setZero offsetRevs }
  | .advance i => match y.threads[i]? with
      | some t => y.advance i t
      | none => y
  | .exchangeFails i => match y.threads[i]? with
      | some t => match t.pc with
          | .exchange _ => y.put i (t.atPc (t.slotRead y.shared.motionSlot))
          | _ => y
      | none => y
  | .homeFails i text => match y.threads[i]? with
      | some t => match t.pc with
          | .prepare => y.put i (t.atPc (.giveUp (.sdo text)))
          -- The slot is free by now.
          | .restore _ => y.put i (t.atPc (.done (.threw text)))
          | _ => y
      | none => y
  | .dispatch inp => { y with shared := y.shared.dispatched inp }
  | .exit reason => if y.shared.running then { y with shared := y.shared.exited reason } else y
  | .hold h => y.hold h

end Process

end ViamEthercat.Servo
