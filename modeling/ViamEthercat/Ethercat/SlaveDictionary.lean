import ViamEthercat.Ethercat.PdoMapping
import ViamEthercat.Lib.Fallible

/-!
# `ViamEthercat.Ethercat.SlaveDictionary`: the PDO map on a drive that remembers it

`applyPdoMap` asks a port that answers each download on its own. A drive answers from its object
dictionary, which the accepted downloads change. Here the same sequence of downloads runs against
a device with a state, and the device is the dictionary of a slave: it takes an entry only while
the count of its object is zero, and changes a PDO only while no PDO is assigned.
-/

set_option autoImplicit false

namespace ViamEthercat

open Lib

/-- A drive that answers a download from its state, and changes the state when it takes it. -/
abbrev SdoDevice (σ : Type) := σ → SdoDownload → Except SdoFailure σ

section
variable {σ : Type} (device : SdoDevice σ)

/-- `sdo_write_scalar` on a device. -/
def sdoWriteScalarTo (d : SdoDownload) : Fallible BusError σ Unit := fun s =>
  match device s d with
  | .ok s' => (.ok (), s')
  | .error (.abort what) => (.error (.pdoMapping ("PDO mapping write rejected: " ++ what)), s)
  | .error (.transport what) => (.error (.base what), s)

/-- The entry list of one PDO, as `applyEntries`. -/
def applyEntriesTo (slave pdo : UInt16) (list : List PdoEntry) : Fallible BusError σ Unit := do
  sdoWriteScalarTo device ⟨slave, pdo, 0, 1, 0⟩
  list.zipIdx.forM fun (e, i) =>
    sdoWriteScalarTo device ⟨slave, pdo, UInt8.ofNat (i + 1), 4, e.packed⟩
  sdoWriteScalarTo device ⟨slave, pdo, 0, 1, list.length⟩

/-- One turn of the loop over the assigned PDOs. -/
def applyPdoTo (slave : UInt16) (m : PdoMap) (assignIndex pdo : UInt16) :
    Fallible BusError σ Unit :=
  match m.entries.lookup pdo with
  | none => throw (.pdoMapping ("slave " ++ toString slave ++ ": PDO " ++ hex16 pdo ++
      " assigned to SM " ++ hex16 assignIndex ++ " has no entry list"))
  | some list =>
      if 0xFF < list.length then
        throw (.pdoMapping ("slave " ++ toString slave ++ ": PDO " ++ hex16 pdo ++ " has " ++
          toString list.length ++ " entries (max 255)"))
      else applyEntriesTo device slave pdo list

/-- `apply_pdo_map` on a device. -/
def applyPdoMapTo (slave : UInt16) (m : PdoMap) (dir : PdoDirection) :
    Fallible BusError σ Unit := do
  let assignIndex := m.assignIndex dir
  sdoWriteScalarTo device ⟨slave, assignIndex, 0, 1, 0⟩
  m.pdoIndices.forM (applyPdoTo device slave m assignIndex)
  if 0xFF < m.pdoIndices.length then
    throw (.pdoMapping ("slave " ++ toString slave ++ ": SM " ++ hex16 assignIndex ++ " has " ++
      toString m.pdoIndices.length ++ " PDOs (max 255)"))
  m.pdoIndices.zipIdx.forM fun (pdo, i) =>
    sdoWriteScalarTo device ⟨slave, assignIndex, UInt8.ofNat (i + 1), 2, pdo.toNat⟩
  sdoWriteScalarTo device ⟨slave, assignIndex, 0, 1, m.pdoIndices.length⟩

end

/-! ### The dictionary of a slave -/

/-- The value of each object. Sub-index 0 of a list is its length. -/
abbrev ObjectDictionary := UInt16 → UInt8 → Nat

namespace ObjectDictionary

/-- One object gets a new value. -/
def write (dict : ObjectDictionary) (index : UInt16) (sub : UInt8) (value : Nat) :
    ObjectDictionary :=
  fun i s => if i = index ∧ s = sub then value else dict i s

@[simp]
theorem write_self (dict : ObjectDictionary) (index : UInt16) (sub : UInt8) (value : Nat) :
    dict.write index sub value index sub = value := by
  simp [write]

theorem write_other {dict : ObjectDictionary} {index i : UInt16} {sub s : UInt8} {value : Nat}
    (h : ¬ (i = index ∧ s = sub)) : dict.write index sub value i s = dict i s := if_neg h

/-- The values that the list at `index` holds. -/
def list (dict : ObjectDictionary) (index : UInt16) : List Nat :=
  (List.range (dict index 0)).map fun i => dict index (UInt8.ofNat (i + 1))

end ObjectDictionary

/-- An entry of a PDO, read from its word. -/
def PdoEntry.ofPacked (word : Nat) : PdoEntry where
  index := UInt16.ofNat (word / 2 ^ 16)
  subindex := UInt8.ofNat (word / 2 ^ 8)
  bitLength := UInt8.ofNat word

/-- The entries that a PDO decodes to. -/
def pdoEntries (dict : ObjectDictionary) (pdo : UInt16) : List PdoEntry :=
  (dict.list pdo).map PdoEntry.ofPacked

/-- The PDOs that are assigned to the Sync-Manager of `assignIndex`. -/
def assignedPdos (dict : ObjectDictionary) (assignIndex : UInt16) : List UInt16 :=
  (dict.list assignIndex).map UInt16.ofNat

/-- The slave: a list is written only while its count is zero, and an object other than the
assignment only while the assignment is empty. It stores the bytes of the download. -/
def slaveDevice (assignIndex : UInt16) : SdoDevice ObjectDictionary := fun dict d =>
  if d.index ≠ assignIndex ∧ dict assignIndex 0 ≠ 0 then
    .error (.abort "the PDO is assigned")
  else if d.sub ≠ 0 ∧ dict d.index 0 ≠ 0 then
    .error (.abort "sub-index 0 must be 0 for write access")
  else .ok (dict.write d.index d.sub (d.value % 2 ^ (8 * d.width)))

end ViamEthercat
