import Mathlib.Algebra.Order.Ring.Nat
import Mathlib.Data.List.AList

/-!
# `ViamEthercat.Ethercat.PdoMapping`: the PDO maps and the images they describe

The model of `ethercat/pdo_mapping.cpp`, of the part of `Master::configure` that applies the maps
and builds the field tables, and of the copies that the Runner makes between the process image and
the buffers of a control.

A map is read twice. `PdoMap.byteSize` sums over the entry lists, and `buildFieldTable` walks the
assigned PDOs in their order and looks each entry list up. A `std::map` is an association list
with unique keys. Its order is read by no function here except through a sum.

The drive is a parameter: which SDO downloads it accepts, and which image it lays out.
-/

set_option autoImplicit false

namespace ViamEthercat

/-- What the functions of the bus throw. A `PdoMappingError` is an `Error`. -/
inductive BusError where
  | base (what : String)
  | pdoMapping (what : String)
deriving DecidableEq, Repr

/-- `hex` of a `uint16_t`. -/
def hex16 (v : UInt16) : String :=
  let digits := (Nat.toDigits 16 v.toNat).map Char.toUpper
  "0x" ++ String.ofList (List.replicate (4 - digits.length) '0' ++ digits)

/-- One entry of a PDO: an object of `bitLength` bits. The index 0 is a gap. -/
structure PdoEntry where
  index : UInt16 := 0
  subindex : UInt8 := 0
  bitLength : UInt8 := 0
deriving DecidableEq, Repr

inductive PdoDirection where
  | rx
  | tx
deriving DecidableEq, Repr

/-- `sm_assign_index`. -/
def smAssignIndex : PdoDirection → UInt16
  | .rx => 0x1C12
  | .tx => 0x1C13

/-- `PdoMap`: the assigned PDOs and the entry list of each. -/
structure PdoMap where
  assignIndexOverride : UInt16 := 0
  pdoIndices : List UInt16
  entries : AList (fun _ : UInt16 => List PdoEntry)

/-- The bits of a list of entries. -/
def mapBits (list : List PdoEntry) : Nat := (list.map fun e => e.bitLength.toNat).sum

namespace PdoMap

variable (m : PdoMap)

/-- `assign_index`. -/
def assignIndex (dir : PdoDirection) : UInt16 :=
  if m.assignIndexOverride ≠ 0 then m.assignIndexOverride else smAssignIndex dir

/-- The bit total of `byte_size`, over all entry lists. -/
def totalBits : Nat := (m.entries.entries.map fun s => mapBits s.2).sum

/-- `byte_size`. -/
def byteSize : Except BusError Nat :=
  if m.totalBits % 8 ≠ 0 then
    .error (.pdoMapping ("PDO map size " ++ toString m.totalBits ++ " bits is not byte-aligned"))
  else .ok (m.totalBits / 8)

end PdoMap

/-! ### `apply_pdo_map` -/

/-- One SDO download, with the width of its value in bytes. -/
structure SdoDownload where
  slave : UInt16
  index : UInt16
  sub : UInt8
  width : Nat
  value : Nat
deriving DecidableEq, Repr

/-- How a download fails: the drive aborts it (`SdoError`), or it does not get through. -/
inductive SdoFailure where
  | abort (what : String)
  | transport (what : String)

/-- The answers to the downloads, `none` when the drive takes one. -/
abbrev SdoPort := SdoDownload → Option SdoFailure

/-- `sdo_write_scalar`: an abort of a mapping download is a mapping error. -/
def sdoWriteScalar (port : SdoPort) (d : SdoDownload) : Except BusError Unit :=
  match port d with
  | none => .ok ()
  | some (.abort what) => .error (.pdoMapping ("PDO mapping write rejected: " ++ what))
  | some (.transport what) => .error (.base what)

/-- `packed`: index, subindex and bit length in one word. -/
def PdoEntry.packed (e : PdoEntry) : Nat :=
  e.index.toNat * 2 ^ 16 + e.subindex.toNat * 2 ^ 8 + e.bitLength.toNat

/-- The entry list of one PDO: zero the count, write each entry, set the count. -/
def applyEntries (port : SdoPort) (slave pdo : UInt16) (list : List PdoEntry) :
    Except BusError Unit := do
  sdoWriteScalar port ⟨slave, pdo, 0, 1, 0⟩
  list.zipIdx.forM fun (e, i) => sdoWriteScalar port ⟨slave, pdo, UInt8.ofNat (i + 1), 4, e.packed⟩
  sdoWriteScalar port ⟨slave, pdo, 0, 1, list.length⟩

/-- `apply_pdo_map`. -/
def applyPdoMap (port : SdoPort) (slave : UInt16) (m : PdoMap) (dir : PdoDirection) :
    Except BusError Unit := do
  let assignIndex := m.assignIndex dir
  -- The assignment is emptied first, so that the entries are writable.
  sdoWriteScalar port ⟨slave, assignIndex, 0, 1, 0⟩
  m.pdoIndices.forM fun pdo =>
    match m.entries.lookup pdo with
    | none => .error (.pdoMapping ("slave " ++ toString slave ++ ": PDO " ++ hex16 pdo ++
        " assigned to SM " ++ hex16 assignIndex ++ " has no entry list"))
    | some list =>
        if 0xFF < list.length then
          .error (.pdoMapping ("slave " ++ toString slave ++ ": PDO " ++ hex16 pdo ++ " has " ++
            toString list.length ++ " entries (max 255)"))
        else applyEntries port slave pdo list
  if 0xFF < m.pdoIndices.length then
    throw (.pdoMapping ("slave " ++ toString slave ++ ": SM " ++ hex16 assignIndex ++ " has " ++
      toString m.pdoIndices.length ++ " PDOs (max 255)"))
  m.pdoIndices.zipIdx.forM fun (pdo, i) =>
    sdoWriteScalar port ⟨slave, assignIndex, UInt8.ofNat (i + 1), 2, pdo.toNat⟩
  sdoWriteScalar port ⟨slave, assignIndex, 0, 1, m.pdoIndices.length⟩

/-! ### The field tables -/

/-- `MappedField`. -/
structure MappedField where
  byteOffset : Nat
  bitLength : Nat
deriving DecidableEq, Repr

/-- `field_key`. -/
def fieldKey (index : UInt16) (sub : UInt8) : Nat := index.toNat * 2 ^ 8 + sub.toNat

abbrev FieldTable := AList (fun _ : Nat => MappedField)

/-- The state of the loop of `build_field_table`. -/
structure FieldBuild where
  fields : FieldTable := ∅
  bit : Nat := 0

/-- One entry. A gap advances the offset, an object must lie on whole bytes. -/
def FieldBuild.addEntry (slave : UInt16) (b : FieldBuild) (e : PdoEntry) :
    Except BusError FieldBuild :=
  if e.index ≠ 0 then
    if b.bit % 8 ≠ 0 then
      .error (.pdoMapping ("slave " ++ toString slave ++
        ": mapped object is not byte-aligned (bit offset " ++ toString b.bit ++ ")"))
    else if e.bitLength.toNat % 8 ≠ 0 then
      .error (.pdoMapping ("slave " ++ toString slave ++ ": mapped object width " ++
        toString e.bitLength ++ " bits is not a whole number of bytes"))
    else .ok
      { fields := b.fields.insert (fieldKey e.index e.subindex) ⟨b.bit / 8, e.bitLength.toNat⟩
        bit := b.bit + e.bitLength.toNat }
  else .ok { b with bit := b.bit + e.bitLength.toNat }

/-- One assigned PDO. -/
def FieldBuild.addPdo (slave : UInt16) (m : PdoMap) (b : FieldBuild) (pdo : UInt16) :
    Except BusError FieldBuild :=
  match m.entries.lookup pdo with
  | none => .error (.pdoMapping ("slave " ++ toString slave ++
      ": PDO has no entry list while building field table"))
  | some list => list.foldlM (FieldBuild.addEntry slave) b

/-- `Master::build_field_table`. -/
def buildFieldTable (slave : UInt16) (m : PdoMap) : Except BusError FieldTable := do
  let b ← m.pdoIndices.foldlM (FieldBuild.addPdo slave m) {}
  return b.fields

/-- `Master::resolve_field`: the offset of an object whose mapped width is `wantWidth`. -/
def resolveField (table : FieldTable) (index : UInt16) (sub : UInt8) (wantWidth : Nat)
    (slave : UInt16) (isTx : Bool) : Except BusError Nat :=
  let which := if isTx then "TxPDO (feedback)" else "RxPDO (command)"
  match table.lookup (fieldKey index sub) with
  | none => .error (.pdoMapping ("slave " ++ toString slave ++ ": object " ++ toString index ++
      ":" ++ toString sub ++ " is not in the " ++ which ++ " map"))
  | some f =>
      let mappedWidth := f.bitLength / 8
      if mappedWidth ≠ wantWidth then
        .error (.base ("slave " ++ toString slave ++ ": object " ++ toString index ++ ":" ++
          toString sub ++ " width mismatch -- the Field type is " ++ toString wantWidth ++
          " byte(s) but the object is mapped " ++ toString mappedWidth ++ " byte(s)"))
      else .ok f.byteOffset

/-! ### `Master::configure` -/

/-- Upper bound on a process image of a slave, in bytes. -/
def maxPdoBytes : Nat := 512

/-- What `configure` reads of a `SlaveConfig`. -/
structure MappedSlave where
  slaveId : UInt16 := 1
  rxpdo : PdoMap
  txpdo : PdoMap

/-- The image of a slave as the backend has mapped it, in bytes. -/
structure SlaveImage where
  inputBytes : Nat
  outputBytes : Nat
deriving DecidableEq, Repr

/-- The bus behind the backend: its answers to the downloads, and the image of each slave after
`map_process_data`, in ring order. -/
structure MappedBus where
  port : SdoPort
  slaves : List SlaveImage

/-- `slave_info`: slaves are counted from 1. -/
def MappedBus.slaveInfo (bus : MappedBus) (slave : UInt16) : Except BusError SlaveImage :=
  if slave < 1 ∨ bus.slaves.length < slave.toNat then
    .error (.base ("SoemBackend::slave_info: slave " ++ toString slave ++ " out of range"))
  else .ok (bus.slaves.getD (slave.toNat - 1) ⟨0, 0⟩)

/-- `slave_io`: the sizes of the two spans. -/
def MappedBus.slaveIo (bus : MappedBus) (slave : UInt16) : SlaveImage :=
  if slave < 1 ∨ bus.slaves.length < slave.toNat then ⟨0, 0⟩
  else bus.slaves.getD (slave.toNat - 1) ⟨0, 0⟩

/-- `SlaveRuntime`, without the cache, which `pdoCache` stands for. -/
structure SlaveRuntime where
  slaveId : UInt16
  io : SlaveImage
  rxFields : FieldTable
  txFields : FieldTable

/-- `PdoCache::PdoCache`. -/
def pdoCache (rxSize : Nat) : Except BusError Unit :=
  if maxPdoBytes < rxSize then
    .error (.pdoMapping ("slave feedback image (" ++ toString rxSize ++
      " B) exceeds kMaxPdoBytes (" ++ toString maxPdoBytes ++
      " B); raise kMaxPdoBytes or remap the slave"))
  else .ok ()

/-- The body of the loop that fills `slaves_`. -/
def configureSlave (bus : MappedBus) (sc : MappedSlave) : Except BusError SlaveRuntime := do
  let info ← bus.slaveInfo sc.slaveId
  let rxBytes ← sc.rxpdo.byteSize
  let txBytes ← sc.txpdo.byteSize
  if info.outputBytes ≠ rxBytes ∨ info.inputBytes ≠ txBytes then
    throw (.pdoMapping ("slave " ++ toString sc.slaveId ++ ": applied RxPDO " ++
      toString info.outputBytes ++ " B / TxPDO " ++ toString info.inputBytes ++
      " B != configured " ++ toString rxBytes ++ " / " ++ toString txBytes ++
      " B (remap did not take)"))
  pdoCache info.inputBytes
  let rxFields ← buildFieldTable sc.slaveId sc.rxpdo
  let txFields ← buildFieldTable sc.slaveId sc.txpdo
  return ⟨sc.slaveId, bus.slaveIo sc.slaveId, rxFields, txFields⟩

/-- `Master::configure`, the part that decides on the maps: apply them all, then check the images
and build the tables. -/
def configureSlaves (bus : MappedBus) (slaves : List MappedSlave) :
    Except BusError (List SlaveRuntime) := do
  slaves.forM fun sc => do
    applyPdoMap bus.port sc.slaveId sc.rxpdo .rx
    applyPdoMap bus.port sc.slaveId sc.txpdo .tx
  slaves.mapM (configureSlave bus)

/-! ### The copies of `dispatch` -/

/-- `input_image` and `outputs`: the spans of the first slave of that id, else empty ones. -/
def slaveImage (slaves : List SlaveRuntime) (slave : UInt16) : SlaveImage :=
  match slaves.find? fun rt => rt.slaveId = slave with
  | some rt => rt.io
  | none => ⟨0, 0⟩

/-- One `memcpy`: the bytes copied, and the sizes of the two objects. -/
structure Memcpy where
  count : Nat
  source : Nat
  dest : Nat
deriving DecidableEq, Repr

/-- The copy stays inside both objects. -/
def Memcpy.InRange (c : Memcpy) : Prop := c.count ≤ c.source ∧ c.count ≤ c.dest

instance (c : Memcpy) : Decidable c.InRange := inferInstanceAs (Decidable (_ ∧ _))

/-- The copies of `RtCore::dispatch` around a hook: the input image and the output image into the
buffers of the context, and the output buffer back. -/
def dispatchCopies (image : SlaveImage) : List Memcpy :=
  [⟨image.inputBytes, image.inputBytes, maxPdoBytes⟩,
    ⟨image.outputBytes, image.outputBytes, maxPdoBytes⟩,
    ⟨image.outputBytes, maxPdoBytes, image.outputBytes⟩]

end ViamEthercat
