import ViamEthercat.Ethercat.Master

/-!
# `ViamEthercat.Ethercat.Runner`: the hooks of the realtime loop

The model of `RtCore::rt_body` and of the stop requests (`ethercat/runner.cpp`). The realtime
thread is a program counter. Each load or store of `reason_` and `stop_flag_`, and each call of a
hook, is a step of its own, and between two of them any thread, and the hook itself, can request a
stop.

What the thread asks the environment is the input of its step: the outcome of the realtime
setup, `bringup_step`, the clock, the fault of the master, the answers of the controls. What it
calls is recorded in `trace`. The images, the cycle counter and the time that a hook finds in its
context are left out, and so is the pacing.
-/

set_option autoImplicit false

namespace ViamEthercat

/-- The `StopReason` of the runner. `Wedged` is latched nowhere, a wedge aborts the process. -/
inductive RunnerReason where
  | none
  | requested
  | busFault
  | bringupAborted
  | rtSetupFailed
deriving DecidableEq, Repr

/-- `RunnerPhase`. -/
inductive RunnerPhase where
  | idle
  | bringingUp
  | running
  | stopping
  | stopped
deriving DecidableEq, Repr

/-- `RunnerConfig`, without the priority and the time bounds. -/
structure RunnerConfig where
  requireRealtime : Bool := false
  teardownCycles : UInt32 := 100
deriving DecidableEq, Repr

/-- The floor that the constructor of the runner applies. -/
def RunnerConfig.floored (c : RunnerConfig) : RunnerConfig :=
  if c.teardownCycles = 0 then { c with teardownCycles := 1 } else c

/-- What the runner does that its controls can see, and the reasons that are latched. The number
is that of the control, in the order of `attach`. -/
inductive HookCall where
  /-- a call of `latch_reason` -/
  | latched (reason : RunnerReason)
  /-- `bringup_step` has answered `Operational` -/
  | operational
  /-- the hooks of one control in a bring-up cycle -/
  | bringup (i : Nat)
  | onOperational (i : Nat)
  /-- `step`, with `ctx.stopping()` -/
  | step (i : Nat) (stopping : Bool)
  | onStop (i : Nat) (reason : RunnerReason)
  /-- `teardown_complete`, with its answer -/
  | tornDown (i : Nat) (answer : Bool)
deriving DecidableEq, Repr

/-- Where `rt_body` is. The step that a constructor names comes next. -/
inductive RtPc where
  | setup
  | latchSetup
  | setupStop (i : Nat)
  | bringup
  | bringupHooks (i : Nat) (anySyncFault allPresent : Bool)
  | bringupStep (anySyncFault allPresent : Bool)
  | latchAborted
  | endBringup
  | latchRequested
  | loadBringupReason
  | bringupStop (r : RunnerReason) (i : Nat)
  | onOperational (i : Nat)
  | process
  | latchFault
  | setFlag
  | loadFlag
  | loadReason
  | onStop (r : RunnerReason) (i : Nat)
  | step (i : Nat)
  | cycleEnd
  | tornDown (i : Nat) (allTornDown : Bool)
  | window (allTornDown : Bool)
  | storeStopped
  | returned
deriving DecidableEq, Repr

/-- What the environment answers. Each step of `rt_body` reads what it asks for. -/
structure RtAnswer where
  /-- `realtime::setup` -/
  realtime : Bool := true
  /-- `sync_faulted` of the control -/
  syncFaulted : Bool := false
  /-- `drive_present` of the control -/
  drivePresent : Bool := true
  /-- `master_.bringup_step` -/
  bringupStep : Bool → Bool → BringupStatus := fun _ _ => .operational
  /-- the bring-up timeout has passed -/
  timeUp : Bool := false
  /-- `master_.fault()`, after this cycle's `process` -/
  fault : Bool := false
  /-- `teardown_complete` of the control -/
  tornDown : Bool := false

/-- `RtCore`, with the locals of `rt_body`. -/
structure RtCore where
  cfg : RunnerConfig
  /-- the number of attached controls -/
  controls : Nat
  phase : RunnerPhase := .bringingUp
  reason : RunnerReason := .none
  stopFlag : Bool := false
  /-- the calls of `request_stop` that have latched the reason and not set the flag -/
  pending : Nat := 0
  pc : RtPc := .setup
  stopping : Bool := false
  windowLeft : UInt32 := 0
  trace : List HookCall := []

/-- One step of the runner. -/
inductive RunnerEvent where
  /-- the next step of `rt_body` -/
  | rt (answer : RtAnswer)
  /-- a call of `request_stop`, by any thread or from a hook, latches its reason -/
  | requestLatch
  /-- a call of `request_stop` sets the flag -/
  | requestFlag

namespace RtCore

/-- The core when the realtime thread starts. -/
def new (cfg : RunnerConfig) (controls : Nat) : RtCore :=
  { cfg := cfg.floored, controls := controls }

variable (s : RtCore)

/-- `latch_reason`: the first cause wins. -/
def latchReason (r : RunnerReason) : RtCore :=
  { s with
    reason := if s.reason = .none then r else s.reason
    trace := s.trace ++ [.latched r] }

/-- A call of a hook, and what comes next. -/
def call (c : HookCall) (pc : RtPc) : RtCore := { s with trace := s.trace ++ [c], pc := pc }

/-- A loop over the controls goes on at the control `i`, or is over. -/
def eachControl (i : Nat) (body : Nat → RtPc) (next : RtPc) : RtPc :=
  if i < s.controls then body i else next

/-- The loop over the `step` hooks. -/
def stepFrom (i : Nat) : RtPc := s.eachControl i .step .cycleEnd

/-- One step of `rt_body`. -/
def rtStep (x : RtAnswer) : RtCore :=
  match s.pc with
  | .setup =>
      { s with pc := if !x.realtime && s.cfg.requireRealtime then .latchSetup else .bringup }
  | .latchSetup =>
      { s.latchReason .rtSetupFailed with pc := s.eachControl 0 .setupStop .storeStopped }
  | .setupStop i =>
      s.call (.onStop i .rtSetupFailed) (s.eachControl (i + 1) .setupStop .storeStopped)
  | .bringup =>
      if s.stopFlag then { s with pc := .endBringup }
      else
        { s with
          pc := s.eachControl 0 (.bringupHooks · false true) (.bringupStep false true) }
  | .bringupHooks i anySyncFault allPresent =>
      let anySyncFault := anySyncFault || x.syncFaulted
      let allPresent := allPresent && x.drivePresent
      s.call (.bringup i)
        (s.eachControl (i + 1) (.bringupHooks · anySyncFault allPresent)
          (.bringupStep anySyncFault allPresent))
  | .bringupStep anySyncFault allPresent =>
      let bs := x.bringupStep anySyncFault allPresent
      if bs = .operational then
        { s.call .operational (s.eachControl 0 .onOperational .process) with phase := .running }
      else if bs = .aborted ∨ x.timeUp = true then { s with pc := .latchAborted }
      else { s with pc := .bringup }
  | .latchAborted => { s.latchReason .bringupAborted with pc := .endBringup }
  | .endBringup =>
      { s with pc := if s.reason = .none then .latchRequested else .loadBringupReason }
  | .latchRequested => { s.latchReason .requested with pc := .loadBringupReason }
  | .loadBringupReason => { s with pc := s.eachControl 0 (.bringupStop s.reason) .storeStopped }
  | .bringupStop r i => s.call (.onStop i r) (s.eachControl (i + 1) (.bringupStop r) .storeStopped)
  | .onOperational i =>
      s.call (.onOperational i) (s.eachControl (i + 1) .onOperational .process)
  | .process =>
      if s.stopping then { s with pc := s.stepFrom 0 }
      else { s with pc := if x.fault then .latchFault else .loadFlag }
  | .latchFault => { s.latchReason .busFault with pc := .setFlag }
  | .setFlag => { s with stopFlag := true, pc := .loadFlag }
  | .loadFlag =>
      if s.stopFlag then
        { s with
          stopping := true, windowLeft := s.cfg.teardownCycles, phase := .stopping
          pc := .loadReason }
      else { s with pc := s.stepFrom 0 }
  | .loadReason => { s with pc := s.eachControl 0 (.onStop s.reason) (s.stepFrom 0) }
  | .onStop r i => s.call (.onStop i r) (s.eachControl (i + 1) (.onStop r) (s.stepFrom 0))
  | .step i => s.call (.step i s.stopping) (s.stepFrom (i + 1))
  | .cycleEnd =>
      { s with
        pc := if s.stopping then s.eachControl 0 (.tornDown · true) (.window true) else .process }
  -- After the first control that is not torn down the others are not asked.
  | .tornDown i false => { s with pc := s.eachControl (i + 1) (.tornDown · false) (.window false) }
  | .tornDown i true =>
      s.call (.tornDown i x.tornDown)
        (s.eachControl (i + 1) (.tornDown · x.tornDown) (.window x.tornDown))
  | .window allTornDown =>
      let left := s.windowLeft - 1
      { s with
        windowLeft := left
        pc := if allTornDown = true ∨ left = 0 then .storeStopped else .process }
  | .storeStopped => { s with phase := .stopped, pc := .returned }
  | .returned => s

/-- One step. What is not enabled leaves the core as it is. -/
def step : RunnerEvent → RtCore
  | .rt x => s.rtStep x
  | .requestLatch => { s.latchReason .requested with pending := s.pending + 1 }
  | .requestFlag =>
      if s.pending = 0 then s else { s with stopFlag := true, pending := s.pending - 1 }

end RtCore

end ViamEthercat
