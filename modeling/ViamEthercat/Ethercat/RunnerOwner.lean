import ViamEthercat.Ethercat.Runner

/-!
# `ViamEthercat.Ethercat.RunnerOwner`: the owner of the realtime loop

The model of `Runner` (`ethercat/runner.cpp`), the side of it that the owner drives: `attach`,
`start` with its hooks, `run`, `stop` and the destructor, next to the steps of `RtCore`. The owner
is a program counter too. Its steps, those of the realtime thread and the stop requests of other
threads come in any order.

What reaches the master is recorded in `uses`. A call that throws leaves the runner as it was. The
clock is an input of the wait in `stop`. The memory lock is left out.
-/

set_option autoImplicit false

namespace ViamEthercat

/-- Where the owner is. The flag of the steps of `stop` says that the destructor called it. -/
inductive OwnerPc where
  /-- in no call -/
  | idle
  /-- in `start`, before the `on_configured` of the control `i`, for `run` or not -/
  | configuring (i : Nat) (blocking : Bool)
  /-- in `run`, waiting for the loop to end -/
  | waiting
  | stopLatch (dropped : Bool)
  | stopFlag (dropped : Bool)
  /-- in the bounded wait of `stop` -/
  | awaiting (dropped : Bool)
  | closing (dropped : Bool)
  /-- destroyed -/
  | gone
  /-- `std::abort` -/
  | aborted
deriving DecidableEq, Repr

/-- A use of the master. -/
inductive PortUse where
  /-- the `on_configured` of the control of a slave, by the owner -/
  | configured (slave : UInt16)
  /-- the realtime thread is spawned -/
  | spawned
  /-- a step of the realtime thread -/
  | rt (pc : RtPc)
  /-- `master_.close()`, by the owner -/
  | closed
deriving DecidableEq, Repr

/-- `Runner`, with the state that it shares with the thread. -/
structure Runner where
  /-- `master_.slave_count()` -/
  slaveCount : Nat
  core : RtCore
  /-- the slaves of the controls, in the order of `attach` -/
  attached : List UInt16 := []
  started : Bool := false
  owner : OwnerPc := .idle
  uses : List PortUse := []

/-- A step of the system. -/
inductive RunnerStep where
  | attach (slave : UInt16)
  /-- `start`, or `run` when it blocks -/
  | start (blocking : Bool)
  /-- the `on_configured` that is next returns, or throws -/
  | configured (throws : Bool)
  /-- the next step of `run` or `stop`: the deadline has passed, when it waits -/
  | owner (timeUp : Bool)
  /-- the destructor -/
  | drop
  /-- a step of the realtime thread, or of a `request_stop` of any thread -/
  | core (e : RunnerEvent)

namespace Runner

/-- `Runner::Runner`. -/
def new (slaveCount : Nat) (cfg : RunnerConfig) : Runner where
  slaveCount := slaveCount
  core := { RtCore.new cfg 0 with phase := .idle }

variable (r : Runner)

/-- The tests of `attach`. -/
def checkAttach (slave : UInt16) : Except String Unit := do
  if r.started then throw "Runner::attach: controls must be attached before start()"
  if slave = 0 ∨ r.slaveCount < slave.toNat then
    throw ("Runner::attach: slave " ++ toString slave ++ " out of range (bus has " ++
      toString r.slaveCount ++ ")")
  if slave ∈ r.attached then
    throw ("Runner::attach: slave " ++ toString slave ++ " already has a control attached")

/-- The tests of `start`. -/
def checkStart : Except String Unit := do
  if r.started then
    throw "Runner::start: already started (one start() per Runner; restart = a fresh Runner)"
  if r.attached = [] then throw "Runner::start: no controls attached"

/-- `start` has run its hooks: the thread is spawned. -/
def spawn (blocking : Bool) : Runner :=
  { r with
      started := true
      core := { r.core with phase := .bringingUp }
      owner := if blocking then .waiting else .idle
      uses := r.uses ++ [.spawned] }

/-- The next hook of `start`, or its end. -/
def configureFrom (i : Nat) (blocking : Bool) : Runner :=
  if i < r.attached.length then { r with owner := .configuring i blocking }
  else r.spawn blocking

/-- `stop`, from `run` or from the destructor. One that never started has nothing to tear down. -/
def stop (dropped : Bool) : Runner :=
  if r.started then { r with owner := .stopLatch dropped }
  else { r with owner := if dropped then .gone else .idle }

/-- The next step of `run` or of `stop`. -/
def ownerStep (timeUp : Bool) : Runner :=
  match r.owner with
  | .waiting => if r.core.phase = .stopped then r.stop false else r
  | .stopLatch dropped =>
      { r with core := r.core.step .requestLatch, owner := .stopFlag dropped }
  | .stopFlag dropped =>
      { r with core := r.core.step .requestFlag, owner := .awaiting dropped }
  | .awaiting dropped =>
      if r.core.phase = .stopped then { r with owner := .closing dropped }
      -- The loop is wedged in a hook.
      else if timeUp then { r with owner := .aborted }
      else r
  | .closing dropped =>
      { r with owner := if dropped then .gone else .idle, uses := r.uses ++ [.closed] }
  | .idle | .configuring _ _ | .gone | .aborted => r

/-- One step. What is not enabled, or throws, leaves the runner as it is. -/
def step : RunnerStep → Runner
  | .attach slave =>
      if r.owner = .idle ∧ r.checkAttach slave = .ok () then
        { r with
            attached := r.attached ++ [slave]
            core := { r.core with controls := r.attached.length + 1 } }
      else r
  | .start blocking =>
      if r.owner = .idle ∧ r.checkStart = .ok () then r.configureFrom 0 blocking else r
  | .configured throws =>
      match r.owner with
      | .configuring i blocking =>
          let r := { r with uses := r.uses ++ (r.attached[i]?.toList.map PortUse.configured) }
          if throws then { r with owner := .idle } else r.configureFrom (i + 1) blocking
      | _ => r
  | .owner timeUp => r.ownerStep timeUp
  | .drop => if r.owner = .idle then r.stop true else r
  | .core (.rt x) =>
      -- An abort takes the thread with it.
      if r.started = true ∧ r.owner ≠ .aborted ∧ r.core.pc ≠ .returned then
        { r with core := r.core.step (.rt x), uses := r.uses ++ [.rt r.core.pc] }
      else r
  | .core e =>
      if r.owner ≠ .gone ∧ r.owner ≠ .aborted then { r with core := r.core.step e } else r

end Runner

end ViamEthercat
