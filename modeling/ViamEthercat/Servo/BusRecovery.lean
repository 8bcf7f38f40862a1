import ViamEthercat.Servo.Session

/-!
# `ViamEthercat.Servo.BusRecovery`: bring-up attempts and the marker of a lost bus

The model of the lifecycle functions of `viam/lib/servo_controller.cpp` that hold `api_mutex_`
exclusively: `start`, `stop`, `reconfigure` and `maybe_recover_bus`, with the retries of
`bring_up`, the poll of `attempt_bringup`, and `on_stop` on the RT thread.

Two threads share `BusState`: the one that holds the lock (`Holder`, with its next operation) and
the RT thread of the Runner (`RtPhase`). `BusState.step` is one operation of one of them, in any
order:

* an operation of the holder finds an `Answer`: the bus, the configuration, the operating system
  or the clock may let it fail;
* `on_stop` is two steps of the RT thread, `leave` with the store of `rt_exited_` and `mark` with
  that of its reason, so that the holder can look in between;
* a motion call that found `bus_lost_` set takes the lock as `recover` and looks again.

A Runner is destroyed once its thread has left `on_stop`. The destructor raises the Runner's stop
flag and waits. A wedged thread aborts the process, which is not modelled.
-/

set_option autoImplicit false

namespace ViamEthercat.Servo

/-- `kMaxBringupAttempts`. -/
def maxBringupAttempts : Nat := 5

/-- A function that holds `api_mutex_` exclusively. -/
inductive LifecycleCall where
  | start
  | stop
  | reconfigure
  /-- `maybe_recover_bus`, of a motion call -/
  | recover
deriving DecidableEq, Repr

/-- Where the RT thread of a Runner is. -/
inductive RtPhase where
  | bringingUp
  /-- `RunnerPhase::Running` -/
  | running
  /-- inside `on_stop`: `rt_exited_` is set, and the store of the reason is not made yet -/
  | stopping (reason : StopReason)
  /-- `on_stop` has returned -/
  | exited (reason : StopReason)
deriving DecidableEq, Repr

/-- `rt_runner_`: its thread, and the flag that its destructor raises. -/
structure RtRunner where
  phase : RtPhase := .bringingUp
  stopFlag : Bool := false
deriving DecidableEq, Repr

/-- The next operation of the thread that holds the lock. `n` counts the attempts of
`bring_up`. -/
inductive Holder where
  /-- nobody holds it -/
  | free
  /-- the second load of `bus_lost_` in `maybe_recover_bus` -/
  | recheck
  /-- the Runner is dropped -/
  | teardown (call : LifecycleCall)
  /-- `bus_lost_.store(false)` -/
  | clear (call : LifecycleCall)
  /-- the realtime preflight and the first Master, up to SAFE-OP -/
  | build (call : LifecycleCall)
  /-- `select_motion_mode`, `resolve_fields` and `spawn_runner` -/
  | spawn (call : LifecycleCall) (n : Nat)
  /-- one round of the poll of `attempt_bringup` -/
  | poll (call : LifecycleCall) (n : Nat)
  /-- `attempt_bringup` returned false -/
  | failed (call : LifecycleCall) (n : Nat)
  /-- the Runner of a failed attempt is dropped -/
  | retry (call : LifecycleCall) (n : Nat)
  /-- the Master of the next attempt, up to SAFE-OP -/
  | rebuild (call : LifecycleCall) (n : Nat)
  /-- `bring_up` has returned -/
  | returned (call : LifecycleCall)
  /-- an `Error` leaves the function body, or `bring_up` -/
  | threw (call : LifecycleCall)
  /-- `maybe_recover_bus` drops the Runner of a failed rebuild -/
  | giveUp
deriving DecidableEq, Repr

/-- What the bus, the configuration, the operating system or the clock answer to an operation. -/
inductive Answer where
  | ok
  | throws
  /-- the Runner refuses to attach or to start -/
  | refuses (text : String)
  /-- `kBringupWaitCap` is over -/
  | expires
deriving DecidableEq, Repr

/-- The memory that the lifecycle functions and `on_stop` share. -/
structure BusState where
  busLost : Bool := false
  degraded : Bool := false
  degradedReason : String := ""
  rtExited : Bool := false
  runner : Option RtRunner := none
  holder : Holder := .free
  /-- the last `reconfigure` or recovery threw; of no use to the code -/
  rebuildFailed : Bool := false
deriving DecidableEq, Repr

/-- One operation of one of the threads. -/
inductive BusEvent where
  /-- a function takes the lock -/
  | acquire (call : LifecycleCall)
  /-- the next operation of the holder -/
  | advance (answer : Answer)
  /-- the RT thread reaches OP -/
  | operational
  /-- the RT thread leaves its loop, and `on_stop` stores `rt_exited_` -/
  | leave (reason : StopReason)
  /-- `on_stop` makes the store of its reason and returns -/
  | mark
deriving DecidableEq, Repr

namespace BusState

variable (s : BusState)

def atHolder (h : Holder) : BusState := { s with holder := h }

/-- The phase of the RT thread, if there is one. -/
def phase : Option RtPhase := s.runner.map RtRunner.phase

/-- The RT thread of the current run has not left its loop. -/
def live : Bool := decide (s.phase = some .bringingUp) || decide (s.phase = some .running)

/-- `rt_runner_->status().phase == RunnerPhase::Running`. -/
def isRunning : Bool := decide (s.phase = some .running)

/-- The RT thread is inside `on_stop`. -/
def insideOnStop : Bool := match s.phase with
  | some (.stopping _) => true
  | _ => false

/-- The RT thread with a new phase. -/
def atPhase (r : RtRunner) (p : RtPhase) : BusState :=
  { s with runner := some { r with phase := p } }

/-- `rt_runner_.reset()`, and then `next`: it waits until the RT thread has left `on_stop`. -/
def drop (next : BusState → BusState) : BusState := match s.runner with
  | none => next s
  | some r => match r.phase with
      | .exited _ => next { s with runner := none }
      | _ => { s with runner := some { r with stopFlag := true } }

/-- `reset_run_state` and the head of `spawn_runner`. -/
def resetRun : BusState := { s with rtExited := false, degraded := false, degradedReason := "" }

/-- The function that the holder is in takes the lock. -/
def acquire : LifecycleCall → BusState
  -- `start` is called when there is no Runner: it would replace the Master under a live one.
  | .start =>
      if s.runner = none then { s with rebuildFailed := false }.atHolder (.build .start) else s
  | .stop => s.atHolder (.teardown .stop)
  | .reconfigure => s.atHolder (.teardown .reconfigure)
  | .recover => s.atHolder .recheck

/-- The head of one attempt. -/
def spawnStep (call : LifecycleCall) (n : Nat) : Answer → BusState
  | .throws => s.atHolder (.threw call)
  | .refuses text =>
      { s.resetRun with degraded := true, degradedReason := text, runner := none }.atHolder
        (.failed call n)
  | _ => { s.resetRun with runner := some {} }.atHolder (.poll call n)

/-- One round of the poll. The loads are one step: once the loop has exited, the run is not
Running again. -/
def pollStep (call : LifecycleCall) (n : Nat) (answer : Answer) : BusState :=
  -- `bring_up` returns with `attempt_bringup`.
  if s.isRunning then s.atHolder (.returned call)
  else if s.rtExited || s.degraded then s.atHolder (.failed call n)
  else if answer = .expires then s.atHolder (.failed call n)
  else s

/-- The rest of the loop body of `bring_up`. -/
def failedStep (call : LifecycleCall) (n : Nat) : BusState :=
  -- A refusal is not transient. Its Runner is gone already.
  if s.degradedReason ≠ "" then s.atHolder (.threw call)
  else if maxBringupAttempts ≤ n then s.atHolder (.returned call)
  else s.atHolder (.retry call n)

/-- `bring_up` has returned: only the recovery looks at `degraded_`. -/
def returnedStep : LifecycleCall → BusState
  | .recover => s.atHolder (if s.degraded then .giveUp else .free)
  | _ => s.atHolder .free

/-- An `Error` leaves the function, or is caught by the recovery. -/
def threwStep : LifecycleCall → BusState
  | .recover => s.atHolder .giveUp
  | .reconfigure => { s with rebuildFailed := true }.atHolder .free
  | _ => s.atHolder .free

/-- The next operation of the holder. -/
def advance (answer : Answer) : BusState := match s.holder with
  | .free => s
  | .recheck => s.atHolder (if s.busLost then .teardown .recover else .free)
  | .teardown call =>
      s.drop fun s => s.atHolder (if call = .stop then .free else .clear call)
  | .clear call => { s with busLost := false, rebuildFailed := false }.atHolder (.build call)
  | .build call => s.atHolder (if answer = .throws then .threw call else .spawn call 1)
  | .spawn call n => s.spawnStep call n answer
  | .poll call n => s.pollStep call n answer
  | .failed call n => s.failedStep call n
  | .retry call n => s.drop fun s => s.atHolder (.rebuild call n)
  | .rebuild call n => s.atHolder (if answer = .throws then .threw call else .spawn call (n + 1))
  | .returned call => s.returnedStep call
  | .threw call => s.threwStep call
  | .giveUp => s.drop fun s => { s with busLost := true, rebuildFailed := true }.atHolder .free

/-- The reasons for which the RT thread leaves its loop. The first cause wins: once the
destructor has requested the stop, a bus fault and an aborted bring-up are not reported. Before
OP nobody else requests it. -/
def leaves (r : RtRunner) : StopReason → Bool
  | .rtSetupFailed => decide (r.phase = .bringingUp)
  | .bringupAborted _ => decide (r.phase = .bringingUp) && !r.stopFlag
  | .busFault _ => decide (r.phase = .running) && !r.stopFlag
  | .requested => decide (r.phase = .running) || (decide (r.phase = .bringingUp) && r.stopFlag)

/-- The store of `on_stop` for its reason. -/
def stored : StopReason → BusState
  | .busFault _ => { s with busLost := true }
  | .bringupAborted _ | .rtSetupFailed => { s with degraded := true }
  | .requested => s

/-- One operation of one of the threads. -/
def step : BusEvent → BusState
  | .acquire call => if s.holder = .free then s.acquire call else s
  | .advance answer => s.advance answer
  | .operational => match s.runner with
      | some r => if r.phase = .bringingUp then s.atPhase r .running else s
      | none => s
  | .leave reason => match s.runner with
      | some r =>
          if leaves r reason then { s.atPhase r (.stopping reason) with rtExited := true } else s
      | none => s
  | .mark => match s.runner with
      | some r => match r.phase with
          | .stopping reason => (s.stored reason).atPhase r (.exited reason)
          | _ => s
      | none => s

end BusState

end ViamEthercat.Servo
