import ViamEthercat.Ethercat.Master
import ViamEthercat.Ethercat.SoemBackend

/-!
# `ViamEthercat.Ethercat.MasterBus`: the master on its backend

The functions of `ethercat/master.cpp` that reach the bus, on the backend of
`Ethercat.SoemBackend`: `init`, the phases of `configure`, `bringup_step` and `process` with their
exchange, and `close`. The decisions of the cyclic part are `Master`'s, and the images, tables and
refusals of `configure` are `configureSlave`'s.

`BusSession` is what an owner does with one master: it opens and configures the bus, then the
cyclic thread and the API use it, and at the end the cyclic thread closes it. A bus that could not
be opened or configured is dropped without a `close`.
-/

set_option autoImplicit false

namespace ViamEthercat

open Lib Lib.Talk

/-- A configuration that the constructor accepts, with the maps of the same slaves. -/
structure BusConfig where
  config : MasterConfig
  maps : List MappedSlave
  dcSync0ShiftNs : Int32 := 0
  same : maps.map (fun sc => sc.slaveId.toNat) = config.slaves.map SlaveConfig.slaveId
  accepted : config.check = .ok ()

/-- `Master`, with its backend and its `slaves_`. -/
structure MasterBus where
  master : Master
  backend : SoemBackend := {}
  slaves : List SlaveRuntime := []

/-- A function of the master. -/
abbrev Bus (α : Type) : Type := Talk SoemCall SoemAnswer BusFailure MasterBus α

namespace Bus

/-- A function of the backend. -/
def onBackend {α : Type} (x : Soem α) : Bus α :=
  zoom MasterBus.backend (fun b m => { m with backend := b }) x

/-- A result that does not depend on the bus. -/
def ofExcept {α : Type} : Except BusError α → Bus α
  | .ok a => return a
  | .error e => throw (.bus e)

end Bus

open Bus

namespace MasterBus

variable (text : SoemText) (cfg : BusConfig)

/-- `Master::Master`. -/
def new : MasterBus := { master := { config := cfg.config } }

/-- `Master::init`. -/
def init : Bus Unit := do
  let count ← onBackend (SoemBackend.openBus text cfg.config.ifname)
  whenever (count ≠ cfg.config.slaves.length) <|
    throw (.bus (.base ("EtherCAT bus on '" ++ cfg.config.ifname ++ "': found " ++ toString count ++
      " slaves, config expects " ++ toString cfg.config.slaves.length)))

/-! ### `configure` -/

/-- `sdo_write_scalar`: the drive's refusal of a mapping download is a mapping error. -/
def sdoWriteScalar (d : SdoDownload) : Soem Unit :=
  mapError (fun
    | .sdo what _ => .bus (.pdoMapping ("PDO mapping write rejected: " ++ what))
    | .bus e => .bus e) (SoemBackend.sdoWrite text d)

/-- One assigned PDO: zero the count of its entries, write each of them, set the count. -/
def applyPdo (slave : UInt16) (m : PdoMap) (assignIndex pdo : UInt16) : Soem Unit :=
  match m.entries.lookup pdo with
  | none => throw (.bus (.pdoMapping ("slave " ++ toString slave ++ ": PDO " ++ hex16 pdo ++
      " assigned to SM " ++ hex16 assignIndex ++ " has no entry list")))
  | some list =>
      if 0xFF < list.length then
        throw (.bus (.pdoMapping ("slave " ++ toString slave ++ ": PDO " ++ hex16 pdo ++ " has " ++
          toString list.length ++ " entries (max 255)")))
      else do
        sdoWriteScalar text ⟨slave, pdo, 0, 1, 0⟩
        list.zipIdx.forM fun (e, i) =>
          sdoWriteScalar text ⟨slave, pdo, UInt8.ofNat (i + 1), 4, e.packed⟩
        sdoWriteScalar text ⟨slave, pdo, 0, 1, list.length⟩

/-- `apply_pdo_map`, through the backend. -/
def applyPdoMap (slave : UInt16) (m : PdoMap) (dir : PdoDirection) : Soem Unit := do
  let assignIndex := m.assignIndex dir
  sdoWriteScalar text ⟨slave, assignIndex, 0, 1, 0⟩
  m.pdoIndices.forM (applyPdo text slave m assignIndex)
  whenever (0xFF < m.pdoIndices.length) <|
    throw (.bus (.pdoMapping ("slave " ++ toString slave ++ ": SM " ++ hex16 assignIndex ++
      " has " ++ toString m.pdoIndices.length ++ " PDOs (max 255)")))
  m.pdoIndices.zipIdx.forM fun (pdo, i) =>
    sdoWriteScalar text ⟨slave, assignIndex, UInt8.ofNat (i + 1), 2, pdo.toNat⟩
  sdoWriteScalar text ⟨slave, assignIndex, 0, 1, m.pdoIndices.length⟩

/-- The maps of one slave. -/
def applyMaps (sc : MappedSlave) : Soem Unit := do
  applyPdoMap text sc.slaveId sc.rxpdo .rx
  applyPdoMap text sc.slaveId sc.txpdo .tx

/-- `cycle_ns`: the SYNC0 cycle is the loop period. -/
def cycleNs : UInt32 := UInt32.ofNat (MasterConfig.nsPerSec / cfg.config.targetLoopRateHz.toNat)

/-- One turn of the loop that fills `slaves_`. The drive has answered all downloads by now. -/
def addSlave (sc : MappedSlave) : Bus Unit := do
  let m ← get
  let bus : MappedBus := { port := fun _ => none, slaves := m.backend.images }
  let rt ← ofExcept (configureSlave bus sc)
  modify fun m => { m with slaves := m.slaves ++ [rt] }

/-- `Master::configure`. -/
def configure : Bus Unit := do
  onBackend (SoemBackend.requestState text 0 .preOp)
  onBackend (cfg.maps.forM (applyMaps text))
  whenever (cfg.config.useDistributedClocks = true) <|
    onBackend (SoemBackend.armDcSync (cycleNs cfg) cfg.dcSync0ShiftNs)
  onBackend SoemBackend.mapProcessData
  modify fun m =>
    { m with master := { m.master with expectedWkc := m.backend.expectedWkc }, slaves := [] }
  cfg.maps.forM addSlave
  whenever (cfg.config.useDistributedClocks = true) (onBackend SoemBackend.configureDcConfigdc)
  onBackend (SoemBackend.requestState text 0 .safeOp)
  modify fun m => { m with master := m.master.configure m.backend.expectedWkc }

/-! ### The cycle and the end -/

/-- What a cyclic call asks of the slaves. -/
def perform : BusRequest → Soem Unit
  | .setStateOp => SoemBackend.setState 0 .op
  | .reackOp => SoemBackend.reackOp 0

/-- `Master::bringup_step`. -/
def bringupStep (driveSyncFaulted drivePresent : Bool) : Bus BringupStatus := do
  let wkc ← onBackend SoemBackend.exchange
  let m ← get
  let r := m.master.bringupStep
    ⟨wkc, driveSyncFaulted, drivePresent, (m.backend.alStatusCode 1).toBitVec⟩
  modify fun m => { m with master := r.next }
  onBackend (r.requests.forM perform)
  return r.status

/-- `Master::process`. -/
def process : Bus Unit := do
  let wkc ← onBackend SoemBackend.exchange
  modify fun m => { m with master := m.master.process wkc }

/-- `Master::close`. -/
def close : Bus Unit := do
  modify fun m => { m with master.operational := false }
  onBackend SoemBackend.close

/-! ### A session -/

/-- What the cyclic thread and the API do with a bus that is configured. -/
inductive BusOp where
  | bringupStep (driveSyncFaulted drivePresent : Bool)
  | process
  | sdoWrite (d : SdoDownload)
  | sdoRead (slave index : UInt16) (sub : UInt8) (size : Nat)
  | refreshSlaveState (slave : UInt16)
deriving DecidableEq, Repr

/-- One of these. The callers of a transfer catch what it throws. -/
def runOp : BusOp → Bus Unit
  | .bringupStep driveSyncFaulted drivePresent => do
      let _ ← bringupStep driveSyncFaulted drivePresent
  | .process => process
  | .sdoWrite d => do
      let _ ← attempt (onBackend (SoemBackend.sdoWrite text d))
  | .sdoRead slave index sub size => do
      let _ ← attempt (onBackend (SoemBackend.sdoRead text slave index sub size))
  | .refreshSlaveState slave => do
      let _ ← onBackend (SoemBackend.refreshSlaveState slave)

/-- The bus is opened and configured. -/
def start : Bus Unit := do
  init text cfg
  configure text cfg

/-- A bus that has started is used and closed. One that has not is left to its destruction. -/
def use (ops : List BusOp) : Except BusFailure Unit → Bus Unit
  | .ok _ => do
      ops.forM (runOp text)
      close
  | .error _ => pure ()

/-- The life of one master, and what its start came to. -/
def session (ops : List BusOp) : Bus (Except BusFailure Unit) := do
  let started ← attempt (start text cfg)
  use text ops started
  onBackend SoemBackend.destroy
  return started

end MasterBus

end ViamEthercat
