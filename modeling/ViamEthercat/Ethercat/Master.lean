import Mathlib.Algebra.Group.Nat.Defs
import Mathlib.Data.List.Basic
import Mathlib.Order.Lattice

/-!
# `ViamEthercat.Ethercat.Master`: bring-up and bus supervision

The model of the cyclic part of `ethercat/master.cpp`: the checks and derived bounds of the
constructor, the state that `configure` resets, the bring-up state machine (`bringup_step`)
and the working-counter latch (`process`).

One call makes one exchange on the wire. What the exchange returns, and what else the call
reads from outside, is its input. The requests it puts on the bus are its output. The bounds
that the constructor stores in members depend on the configuration alone, which does not change
afterwards, so they are functions of it here.

`uint32_t` counters are numbers modulo 2^32. The statistics are `uint64_t`. The expected
working counter comes from the backend as `outputsWKC * 2 + inputsWKC` and so is not negative.
The PDO maps, the process-image caches that `process` publishes to and the log lines are left
out.
-/

set_option autoImplicit false

namespace ViamEthercat

/-- What the constructor reads of a `SlaveConfig`. -/
structure SlaveConfig where
  slaveId : Nat := 1
  /-- the base tick of SYNC0 in ns, 0 when the drive declares none -/
  syncCycleGranularityNs : UInt32 := 0
deriving DecidableEq, Repr

/-- `MasterConfig`, without what only the backend reads. -/
structure MasterConfig where
  ifname : String
  targetLoopRateHz : UInt32 := 1000
  slaves : List SlaveConfig
  useDistributedClocks : Bool := false
  dcOpGateCycles : UInt32 := 400
  dcSettleCycles : UInt32 := 0
  maxConsecutiveWkcErrors : UInt32 := 5
  opHoldConfirmCycles : UInt32 := 5
  opNudgeIntervalCycles : UInt32 := 10
  opAwaitTimeoutMs : UInt32 := 30000
deriving DecidableEq, Repr

namespace MasterConfig

variable (c : MasterConfig)

/-- `kNsPerSec`. -/
def nsPerSec : Nat := 1000000000

/-- `rate_ok`: the truncated SYNC0 cycle of the rate `r` is a multiple of `g`. -/
def rateOk (g : Nat) (r : Nat) : Bool := decide (nsPerSec / r % g = 0)

/-- The nearest valid rates within 1..1000 Hz: the first one down, then the first one up. -/
def nearestRates (g : Nat) : String :=
  let rate := c.targetLoopRateHz.toNat
  let lower := ((List.range rate).reverse.map (· + 1)).find? (rateOk g)
  let higher := ((List.range (1001 - rate)).map (· + rate)).find? (rateOk g)
  match lower, higher with
  | none, none => " none in 1..1000 Hz"
  | some l, none => " " ++ toString l ++ " Hz"
  | none, some h => " " ++ toString h ++ " Hz"
  | some l, some h => " " ++ toString l ++ " Hz" ++ " /" ++ " " ++ toString h ++ " Hz"

/-- The SYNC0 cycle is a multiple of what the slave declares. -/
def checkGranularity (sc : SlaveConfig) : Except String Unit :=
  let cycleNs := nsPerSec / c.targetLoopRateHz.toNat
  let g := sc.syncCycleGranularityNs.toNat
  if g = 0 ∨ cycleNs % g = 0 then .ok ()
  else .error ("Master: slave " ++ toString sc.slaveId ++ " declares sync_cycle_granularity_ns=" ++
    toString g ++ " but target_loop_rate_hz=" ++ toString c.targetLoopRateHz ++ " gives a " ++
    toString cycleNs ++ " ns SYNC0 cycle that is not a multiple -- the drive would reject it " ++
    "at OP entry. Nearest valid rates:" ++ c.nearestRates g)

/-- The checks of `Master::Master`. -/
def check : Except String Unit := do
  if c.ifname = "" then throw "Master: empty interface name"
  if c.slaves = [] then throw "Master: no slaves configured"
  if c.targetLoopRateHz = 0 ∨ 1000 < c.targetLoopRateHz then
    throw ("Master: target_loop_rate_hz " ++ toString c.targetLoopRateHz ++
      " out of range (1..1000)")
  if c.useDistributedClocks then c.slaves.forM c.checkGranularity

/-- `op_hold_confirm_cycles_`: 0 becomes 1. -/
def holdConfirm : Nat := max c.opHoldConfirmCycles.toNat 1

/-- `op_nudge_interval_cycles_`: 0 becomes 1. -/
def nudgeInterval : Nat := max c.opNudgeIntervalCycles.toNat 1

/-- `op_await_bound_cycles_`: the give-up time in cycles, between 1 and `UINT32_MAX`. -/
def awaitBound : Nat :=
  min (max (c.opAwaitTimeoutMs.toNat * c.targetLoopRateHz.toNat / 1000) 1) (2 ^ 32 - 1)

/-- `target` of the Settle phase, for the `dc_enabled_` of the last `configure`. -/
def settleTarget (dcEnabled : Bool) : Nat :=
  if dcEnabled ∧ c.dcOpGateCycles ≠ 0 then c.dcOpGateCycles.toNat else 1

/-- `settle_remaining_` at OP: the grace cycles of the latch, only with distributed clocks. -/
def graceCycles (dcEnabled : Bool) : Nat := if dcEnabled then c.dcSettleCycles.toNat else 0

end MasterConfig

/-- The phases of the bring-up. -/
inductive BringupPhase where
  | settle
  | awaitOp
  | done
  | aborted
deriving DecidableEq, Repr

/-- What `bringup_step` returns. -/
inductive BringupStatus where
  | gating
  | awaitingOp
  | operational
  | aborted
deriving DecidableEq, Repr

/-- What a call asks of the slaves, beyond the exchange. -/
inductive BusRequest where
  /-- `set_state(0, Op)` -/
  | setStateOp
  /-- `reack_op(0)` -/
  | reackOp
deriving DecidableEq, Repr

/-- What one `bringup_step` sees: the working counter of its exchange, its two arguments and
the AL status code of slave 1. -/
structure BringupInput where
  wkc : Int
  driveSyncFaulted : Bool
  drivePresent : Bool
  alStatusCode : BitVec 16 := 0#16
deriving DecidableEq, Repr

/-- `Master`. -/
structure Master where
  config : MasterConfig
  dcEnabled : Bool := false
  expectedWkc : Nat := 0
  -- The bring-up.
  bringupPhase : BringupPhase := .settle
  bringupSettleCount : Nat := 0
  bringupAwaitCount : Nat := 0
  bringupOpHoldStreak : Nat := 0
  bringupAlCode : BitVec 16 := 0#16
  -- The supervision.
  operational : Bool := false
  fault : Bool := false
  faultWkc : Int := 0
  consecutiveWkcErrors : Nat := 0
  settleRemaining : Nat := 0
  lastWkc : Int := 0
  workingCounter : Int := 0
  totalCycles : UInt64 := 0
  badCycles : UInt64 := 0
  cycle : UInt64 := 0
deriving DecidableEq, Repr

/-- What a `bringup_step` leaves. -/
structure BringupResult where
  next : Master
  status : BringupStatus
  requests : List BusRequest

namespace Master

variable (m : Master)

/-- `Master::Master`. -/
def new (c : MasterConfig) : Except String Master := do
  c.check
  return { config := c }

/-- The state that a successful `configure` leaves, for the working counter that the backend
expects of the applied map. -/
def configure (expectedWkc : Nat) : Master :=
  { m with
      expectedWkc := expectedWkc
      dcEnabled := m.config.useDistributedClocks
      bringupPhase := .settle, bringupSettleCount := 0, bringupAwaitCount := 0
      bringupOpHoldStreak := 0, bringupAlCode := 0#16
      fault := false, consecutiveWkcErrors := 0, settleRemaining := 0
      totalCycles := 0, badCycles := 0, operational := false }

/-- The input holds the drive at OP: full working counter, in sync and present. -/
def held (x : BringupInput) : Bool :=
  decide (x.wkc = m.expectedWkc) && !x.driveSyncFaulted && x.drivePresent

/-- The Settle phase: process data for a fixed number of cycles, then one OP request. -/
def stepSettle : BringupResult :=
  let m := { m with bringupSettleCount := (m.bringupSettleCount + 1) % 2 ^ 32 }
  if m.config.settleTarget m.dcEnabled ≤ m.bringupSettleCount then
    ⟨{ m with bringupAwaitCount := 0, bringupOpHoldStreak := 0, bringupPhase := .awaitOp },
      .gating, [.setStateOp]⟩
  else ⟨m, .gating, []⟩

/-- The AwaitOp phase: nudge, confirm or give up. -/
def stepAwaitOp (x : BringupInput) : BringupResult :=
  let await := (m.bringupAwaitCount + 1) % 2 ^ 32
  let streak := if m.held x then (m.bringupOpHoldStreak + 1) % 2 ^ 32 else 0
  let m := { m with
    bringupAwaitCount := await
    -- The last code that was not 0 is kept.
    bringupAlCode := if x.alStatusCode ≠ 0#16 then x.alStatusCode else m.bringupAlCode
    bringupOpHoldStreak := streak }
  let requests := if await % m.config.nudgeInterval = 0 then [BusRequest.reackOp] else []
  -- Success is tested before the give-up bound.
  if m.config.holdConfirm ≤ streak then
    ⟨{ m with
        operational := true
        settleRemaining := m.config.graceCycles m.dcEnabled
        fault := false, consecutiveWkcErrors := 0
        bringupPhase := .done }, .operational, requests⟩
  else if m.config.awaitBound ≤ await then
    ⟨{ m with bringupPhase := .aborted }, .aborted, requests⟩
  else ⟨m, .awaitingOp, requests⟩

/-- `Master::bringup_step`. -/
def bringupStep (x : BringupInput) : BringupResult :=
  let m := { m with lastWkc := x.wkc }
  match m.bringupPhase with
  | .settle => m.stepSettle
  | .awaitOp => m.stepAwaitOp x
  | .done => ⟨m, .operational, []⟩
  | .aborted => ⟨m, .aborted, []⟩

/-- A short or abnormal working counter. -/
def badWkc (wkc : Int) : Bool := decide (wkc < 0) || decide (wkc < m.expectedWkc)

/-- The latch of `process`: a bad cycle outside the grace counts, a good one clears. -/
def latch (wkc : Int) (inGrace : Bool) : Master :=
  if m.badWkc wkc then
    if inGrace then m
    else
      let m := { m with consecutiveWkcErrors := (m.consecutiveWkcErrors + 1) % 2 ^ 32 }
      if m.config.maxConsecutiveWkcErrors.toNat ≤ m.consecutiveWkcErrors then
        { m with faultWkc := wkc, fault := true, operational := false }
      else m
  else { m with consecutiveWkcErrors := 0, workingCounter := wkc }

/-- `Master::process`, on the working counter that its exchange returned. -/
def process (wkc : Int) : Master :=
  let m := { m with
    lastWkc := wkc
    totalCycles := m.totalCycles + 1
    badCycles := if m.badWkc wkc then m.badCycles + 1 else m.badCycles }
  let inGrace := decide (0 < m.settleRemaining)
  -- The grace clears the streak in every cycle, so that none carries past its end.
  let m := if inGrace then
      { m with settleRemaining := m.settleRemaining - 1, consecutiveWkcErrors := 0 }
    else m
  let m := m.latch wkc inGrace
  { m with cycle := m.cycle + 1 }

/-- `all_operational`. -/
def allOperational : Bool := m.operational

end Master

end ViamEthercat
