import ViamEthercat.Ethercat.SlaveDictionary
import ViamEthercat.Lib.Checked

/-!
# `ViamEthercat.Proofs.PdoProgram`: a PDO map is programmed as it is written

A drive that enforces the order of the mapping downloads takes every download of
`apply_pdo_map`, and holds exactly the map at the end:

* a list of values goes to the sub-indices 1, 2, … of an object, in order (`fill_run`), and with
  its count behind it the object holds that list (`list_of_filled`);
* one turn of the loop over the PDOs, run while the assignment is empty, leaves the PDO with its
  entries and every other object as it was (`applyPdoTo_run`);
* through the loop the assignment stays empty and every PDO done so far has its entries
  (`Programmed`), a PDO named twice too, since it has one entry list.

`applyPdoMapTo` is the sequence that `applyPdoMap` sends to a port: on a device without a state
they have one outcome (`applyPdoMapTo_stateless`).
-/

set_option autoImplicit false

namespace ViamEthercat

open Lib Lib.Fallible

/-! ### The same sequence of downloads -/

/-- A port as a device: it answers and remembers nothing. -/
def SdoPort.device {σ : Type} (port : SdoPort) : SdoDevice σ := fun s d =>
  match port d with
  | none => .ok s
  | some failure => .error failure

section
variable {σ : Type} (port : SdoPort)

theorem sdoWriteScalarTo_stateless (d : SdoDownload) (s : σ) :
    sdoWriteScalarTo port.device d s = (sdoWriteScalar port d, s) := by
  unfold sdoWriteScalarTo sdoWriteScalar SdoPort.device
  cases port d with
  | none => rfl
  | some failure => cases failure <;> rfl

theorem applyPdoTo_stateless (slave : UInt16) (m : PdoMap) (assignIndex pdo : UInt16) (s : σ) :
    applyPdoTo port.device slave m assignIndex pdo s =
      ((match m.entries.lookup pdo with
        | none => .error (.pdoMapping ("slave " ++ toString slave ++ ": PDO " ++ hex16 pdo ++
            " assigned to SM " ++ hex16 assignIndex ++ " has no entry list"))
        | some list =>
            if 0xFF < list.length then
              .error (.pdoMapping ("slave " ++ toString slave ++ ": PDO " ++ hex16 pdo ++ " has " ++
                toString list.length ++ " entries (max 255)"))
            else applyEntries port slave pdo list), s) := by
  unfold applyPdoTo
  cases m.entries.lookup pdo with
  | none => rfl
  | some list =>
      dsimp only
      split
      · rfl
      · refine bind_of_stateless (sdoWriteScalarTo_stateless port _ s) fun _ => ?_
        refine bind_of_stateless (forM_of_stateless fun _ => ?_) fun _ => ?_
        · exact sdoWriteScalarTo_stateless port _ s
        · exact sdoWriteScalarTo_stateless port _ s

/-- A port gets from `applyPdoMapTo` what it gets from `applyPdoMap`. -/
theorem applyPdoMapTo_stateless (slave : UInt16) (m : PdoMap) (dir : PdoDirection) (s : σ) :
    applyPdoMapTo port.device slave m dir s = (applyPdoMap port slave m dir, s) := by
  refine bind_of_stateless (sdoWriteScalarTo_stateless port _ s) fun _ => ?_
  refine bind_of_stateless (forM_of_stateless fun pdo => ?_) fun _ => ?_
  · exact applyPdoTo_stateless port slave m _ pdo s
  · dsimp only
    split
    · rfl
    · refine bind_of_stateless (forM_of_stateless fun _ => ?_) fun _ => ?_
      · exact sdoWriteScalarTo_stateless port _ s
      · exact sdoWriteScalarTo_stateless port _ s

end

/-! ### The maps that are refused before they reach the drive -/

/-- `apply_pdo_map` throws by itself only for a PDO without an entry list, or too long a list. -/
theorem applyPdoMap_accepts {slave : UInt16} {m : PdoMap} {dir : PdoDirection}
    (h : applyPdoMap (fun _ => none) slave m dir = .ok ()) :
    (∀ pdo ∈ m.pdoIndices, ∃ list, m.entries.lookup pdo = some list ∧ list.length ≤ 255) ∧
      m.pdoIndices.length ≤ 255 := by
  obtain ⟨_, -, h⟩ := bind_eq_ok.mp h
  obtain ⟨_, hpdos, h⟩ := bind_eq_ok.mp h
  constructor
  · intro pdo hpdo
    have hturn := forM_eq_ok.mp hpdos pdo hpdo
    cases hlookup : m.entries.lookup pdo with
    | none => simp [hlookup] at hturn
    | some list =>
        refine ⟨list, rfl, ?_⟩
        by_contra hlong
        simp [hlookup, show 0xFF < list.length from by omega] at hturn
  · by_contra hlong
    rw [if_pos (by omega)] at h
    cases h

/-! ### A list written to an object -/

/-- The slave takes a download that its order allows. -/
theorem slaveDevice_run {assignIndex : UInt16} {dict : ObjectDictionary} (d : SdoDownload)
    (hassign : d.index = assignIndex ∨ dict assignIndex 0 = 0)
    (hcount : d.sub = 0 ∨ dict d.index 0 = 0) (hvalue : d.value < 2 ^ (8 * d.width)) :
    sdoWriteScalarTo (slaveDevice assignIndex) d dict =
      (.ok (), dict.write d.index d.sub d.value) := by
  have hopen : ¬ (d.index ≠ assignIndex ∧ dict assignIndex 0 ≠ 0) := by
    rcases hassign with h | h <;> simp [h]
  have hzero : ¬ (d.sub ≠ 0 ∧ dict d.index 0 ≠ 0) := by
    rcases hcount with h | h <;> simp [h]
  simp only [sdoWriteScalarTo, slaveDevice, if_neg hopen, if_neg hzero, Nat.mod_eq_of_lt hvalue]

/-- `dict'` is `dict` with `values` at the sub-indices of `index` from 1 on. -/
structure Filled (dict dict' : ObjectDictionary) (index : UInt16) (values : List Nat) : Prop where
  inside : ∀ i v, values[i]? = some v → dict' index (UInt8.ofNat (i + 1)) = v
  outside : ∀ idx sub, idx ≠ index ∨ sub = 0 → dict' idx sub = dict idx sub

section
variable {dict dict' : ObjectDictionary} {index : UInt16} {values : List Nat}

/-- The sub-index counter does not wrap up to 255. -/
theorem subindex_toNat {i : Nat} (hi : i < 255) : (UInt8.ofNat (i + 1)).toNat = i + 1 := by
  rw [UInt8.toNat_ofNat']
  omega

theorem subindex_ne_zero {i : Nat} (hi : i < 255) : UInt8.ofNat (i + 1) ≠ 0 := by
  intro h
  have hnat := congrArg UInt8.toNat h
  rw [subindex_toNat hi] at hnat
  simp at hnat

theorem Filled.concat {v : Nat} (h : Filled dict dict' index values)
    (hlen : values.length < 255) :
    Filled dict (dict'.write index (UInt8.ofNat (values.length + 1)) v) index (values ++ [v]) := by
  constructor
  · intro i w hw
    rcases Nat.lt_trichotomy i values.length with hi | rfl | hi
    · rw [List.getElem?_append_left hi] at hw
      have hother : ¬ (index = index ∧ UInt8.ofNat (i + 1) = UInt8.ofNat (values.length + 1)) := by
        rintro ⟨-, heq⟩
        have hnat := congrArg UInt8.toNat heq
        rw [subindex_toNat (by omega), subindex_toNat hlen] at hnat
        omega
      rw [ObjectDictionary.write_other hother]
      exact h.inside i w hw
    · rw [ObjectDictionary.write_self]
      simpa using hw
    · rw [List.getElem?_eq_none (by simp; omega)] at hw
      cases hw
  · intro idx sub hout
    have hother : ¬ (idx = index ∧ sub = UInt8.ofNat (values.length + 1)) := by
      rintro ⟨rfl, rfl⟩
      rcases hout with hne | hzero
      · exact hne rfl
      · exact subindex_ne_zero hlen hzero
    rw [ObjectDictionary.write_other hother]
    exact h.outside idx sub hout

/-- A filled object lists the values once the count is set. -/
theorem list_of_filled (h : Filled dict dict' index values) (hlen : values.length ≤ 255) :
    (dict'.write index 0 values.length).list index = values := by
  apply List.ext_getElem?
  intro i
  rw [ObjectDictionary.list, ObjectDictionary.write_self, List.getElem?_map]
  by_cases hi : i < values.length
  · have hv := List.getElem?_eq_getElem hi
    have hother : ¬ (index = index ∧ UInt8.ofNat (i + 1) = 0) := by
      rintro ⟨-, hzero⟩
      exact subindex_ne_zero (by omega) hzero
    rw [List.getElem?_range hi, hv, Option.map_some, ObjectDictionary.write_other hother,
      h.inside i _ hv]
  · rw [List.getElem?_eq_none (by simpa using hi), List.getElem?_eq_none (by omega)]
    rfl

/-- A list depends on its own object only. -/
theorem list_congr (h : ∀ sub, dict' index sub = dict index sub) :
    dict'.list index = dict.list index := by
  simp only [ObjectDictionary.list, h]

end

/-- The position in `zipIdx` counts the elements before. -/
theorem zipIdx_split {α : Type} {xs : List α} {done rest : List (α × Nat)} {x : α} {i : Nat}
    (h : xs.zipIdx = done ++ (x, i) :: rest) : i = done.length ∧ x ∈ xs ∧ i < xs.length := by
  have hget : xs.zipIdx[done.length]? = some (x, i) := by simp [h]
  rw [List.getElem?_zipIdx, Option.map_eq_some_iff] at hget
  obtain ⟨y, hy, hpair⟩ := hget
  obtain ⟨rfl, rfl⟩ := Prod.mk.injEq .. ▸ hpair
  refine ⟨Nat.zero_add _, List.mem_of_getElem? hy, ?_⟩
  have := (List.getElem?_eq_some_iff.mp hy).1
  omega

/-- The loop over the values of a list, on an object whose count is zero. -/
theorem fill_run {α : Type} {assignIndex index : UInt16} {dict : ObjectDictionary}
    {width : Nat} (slave : UInt16) (xs : List α) (value : α → Nat)
    (hassign : index = assignIndex ∨ dict assignIndex 0 = 0) (hcount : dict index 0 = 0)
    (hlen : xs.length ≤ 255) (hvalue : ∀ x, value x < 2 ^ (8 * width)) :
    ∃ dict', (xs.zipIdx.forM fun (x, i) => sdoWriteScalarTo (slaveDevice assignIndex)
        ⟨slave, index, UInt8.ofNat (i + 1), width, value x⟩) dict = (.ok (), dict') ∧
      Filled dict dict' index (xs.map value) := by
  have hrun := forM_returns xs.zipIdx (s := dict)
    (f := fun (x, i) => sdoWriteScalarTo (slaveDevice assignIndex)
      ⟨slave, index, UInt8.ofNat (i + 1), width, value x⟩)
    (I := fun done d => Filled dict d index (done.map fun p => value p.1))
  obtain ⟨dict', hrun, hfilled⟩ := hrun ⟨by simp, fun _ _ _ => rfl⟩ (by
    rintro done ⟨x, i⟩ rest d hsplit hd
    obtain ⟨rfl, -, hi⟩ := zipIdx_split hsplit
    -- The counts are at sub-index 0, which the values leave alone.
    have hzero : ∀ idx, d idx 0 = dict idx 0 := fun idx => hd.outside idx 0 (.inr rfl)
    refine ⟨_, slaveDevice_run ⟨slave, index, _, width, value x⟩ ?_ (.inr ?_) (hvalue x), ?_⟩
    · rwa [hzero]
    · rwa [hzero]
    · have hstep := hd.concat (v := value x) (by rw [List.length_map]; omega)
      rw [List.length_map] at hstep
      simpa only [List.map_append, List.map_cons, List.map_nil] using hstep)
  refine ⟨dict', hrun, ?_⟩
  have hmap : (xs.zipIdx.map fun p => value p.1) = xs.map value := by
    rw [← Function.comp_def value, ← List.map_map, List.zipIdx_map_fst]
  rwa [hmap] at hfilled

/-- A list goes to an object whose count is zero: its values, and its count behind them. Every
other object keeps its values. -/
theorem fill_and_count_run {α : Type} {assignIndex index : UInt16} {dict : ObjectDictionary}
    {width : Nat} (slave : UInt16) (xs : List α) (value : α → Nat)
    (hassign : index = assignIndex ∨ dict assignIndex 0 = 0) (hcount : dict index 0 = 0)
    (hlen : xs.length ≤ 255) (hvalue : ∀ x, value x < 2 ^ (8 * width)) :
    ∃ dict', (do
        xs.zipIdx.forM fun (x, i) => sdoWriteScalarTo (slaveDevice assignIndex)
          ⟨slave, index, UInt8.ofNat (i + 1), width, value x⟩
        sdoWriteScalarTo (slaveDevice assignIndex) ⟨slave, index, 0, 1, xs.length⟩ :
          Fallible BusError ObjectDictionary Unit) dict = (.ok (), dict') ∧
      dict'.list index = xs.map value ∧
      ∀ idx sub, idx ≠ index → dict' idx sub = dict idx sub := by
  obtain ⟨d, hfill, hd⟩ := fill_run slave xs value hassign hcount hlen hvalue
  refine ⟨d.write index 0 xs.length, ?_, ?_, ?_⟩
  · rw [bind_of_ok hfill]
    apply slaveDevice_run ⟨slave, index, 0, 1, xs.length⟩ ?_ (.inl rfl) (by dsimp only; omega)
    rwa [hd.outside _ 0 (.inr rfl)]
  · rw [← List.length_map value]
    exact list_of_filled hd (by rwa [List.length_map])
  · intro idx sub hne
    rw [ObjectDictionary.write_other fun h => hne h.1]
    exact hd.outside idx sub (.inl hne)

/-! ### The map -/

/-- The word of an entry is 32 bits wide. -/
theorem packed_lt (e : PdoEntry) : e.packed < 2 ^ (8 * 4) := by
  have hindex := e.index.toNat_lt
  have hsub := e.subindex.toNat_lt
  have hbits := e.bitLength.toNat_lt
  unfold PdoEntry.packed
  omega

/-- An entry is read back from its word. -/
theorem ofPacked_packed (e : PdoEntry) : PdoEntry.ofPacked e.packed = e := by
  have hsub := e.subindex.toNat_lt
  have hbits := e.bitLength.toNat_lt
  have hindex : UInt16.ofNat (e.packed / 2 ^ 16) = e.index := by
    apply UInt16.toNat_inj.mp
    have := e.index.toNat_lt
    rw [UInt16.toNat_ofNat']
    unfold PdoEntry.packed
    omega
  have hsubindex : UInt8.ofNat (e.packed / 2 ^ 8) = e.subindex := by
    apply UInt8.toNat_inj.mp
    rw [UInt8.toNat_ofNat']
    unfold PdoEntry.packed
    omega
  have hlength : UInt8.ofNat e.packed = e.bitLength := by
    apply UInt8.toNat_inj.mp
    rw [UInt8.toNat_ofNat']
    unfold PdoEntry.packed
    omega
  rw [PdoEntry.ofPacked, hindex, hsubindex, hlength]

/-- The entry list of a PDO goes to it while no PDO is assigned. -/
theorem applyEntriesTo_run {assignIndex pdo : UInt16} {dict : ObjectDictionary}
    {list : List PdoEntry} (slave : UInt16) (hne : pdo ≠ assignIndex)
    (hassign : dict assignIndex 0 = 0) (hlen : list.length ≤ 255) :
    ∃ dict', applyEntriesTo (slaveDevice assignIndex) slave pdo list dict = (.ok (), dict') ∧
      pdoEntries dict' pdo = list ∧ ∀ idx sub, idx ≠ pdo → dict' idx sub = dict idx sub := by
  have hzero := slaveDevice_run ⟨slave, pdo, 0, 1, 0⟩ (.inr hassign) (.inl rfl)
    (Nat.two_pow_pos _)
  have hother : ∀ idx sub, idx ≠ pdo → dict.write pdo 0 0 idx sub = dict idx sub :=
    fun idx sub h => ObjectDictionary.write_other fun heq => h heq.1
  obtain ⟨dict', hrun, hlist, hframe⟩ := fill_and_count_run slave list PdoEntry.packed
    (.inr ((hother _ _ hne.symm).trans hassign)) (dict.write_self pdo 0 0) hlen packed_lt
  refine ⟨dict', ?_, ?_, ?_⟩
  · unfold applyEntriesTo
    rw [bind_of_ok hzero]
    exact hrun
  · rw [pdoEntries, hlist, List.map_map]
    simp [Function.comp_def, ofPacked_packed]
  · intro idx sub h
    rw [hframe idx sub h, hother idx sub h]

/-- The invariant of the loop: no PDO is assigned, and the PDOs done so far have their entries. -/
structure Programmed (m : PdoMap) (assignIndex : UInt16) (done : List UInt16)
    (dict : ObjectDictionary) : Prop where
  unassigned : dict assignIndex 0 = 0
  entries : ∀ pdo ∈ done, m.entries.lookup pdo = some (pdoEntries dict pdo)

/-- One turn of the loop keeps the PDOs that are done, the same PDO named before among them. -/
theorem applyPdoTo_run {m : PdoMap} {assignIndex pdo : UInt16} {done : List UInt16}
    {dict : ObjectDictionary} (slave : UInt16) (hne : pdo ≠ assignIndex)
    (hdone : Programmed m assignIndex done dict)
    (hlist : ∃ list, m.entries.lookup pdo = some list ∧ list.length ≤ 255) :
    ∃ dict', applyPdoTo (slaveDevice assignIndex) slave m assignIndex pdo dict = (.ok (), dict') ∧
      Programmed m assignIndex (done ++ [pdo]) dict' := by
  obtain ⟨list, hlookup, hlen⟩ := hlist
  obtain ⟨dict', hrun, hentries, hframe⟩ := applyEntriesTo_run slave hne hdone.unassigned hlen
  refine ⟨dict', ?_, ?_, ?_⟩
  · rw [applyPdoTo, hlookup]
    dsimp only
    rwa [if_neg (by omega)]
  · rw [hframe _ _ hne.symm, hdone.unassigned]
  · intro pdo' hpdo'
    by_cases heq : pdo' = pdo
    · rw [heq, hentries, hlookup]
    · have hold : pdo' ∈ done := by simpa [heq] using hpdo'
      rw [hdone.entries pdo' hold, pdoEntries, pdoEntries, list_congr (hframe pdo' · heq)]

/-- From any dictionary the slave takes the whole sequence, and holds the map at its end. -/
theorem pdo_map_programmed {slave : UInt16} {m : PdoMap} {dir : PdoDirection}
    (hassign : m.assignIndex dir ∉ m.pdoIndices)
    (haccept : applyPdoMap (fun _ => none) slave m dir = .ok ()) (dict : ObjectDictionary) :
    ∃ dict', applyPdoMapTo (slaveDevice (m.assignIndex dir)) slave m dir dict = (.ok (), dict') ∧
      assignedPdos dict' (m.assignIndex dir) = m.pdoIndices ∧
      ∀ pdo ∈ m.pdoIndices, m.entries.lookup pdo = some (pdoEntries dict' pdo) := by
  obtain ⟨hlists, hlen⟩ := applyPdoMap_accepts haccept
  have hne : ∀ pdo ∈ m.pdoIndices, pdo ≠ m.assignIndex dir := by
    rintro pdo hpdo rfl
    exact hassign hpdo
  have hzero : sdoWriteScalarTo (slaveDevice (m.assignIndex dir))
      ⟨slave, m.assignIndex dir, 0, 1, 0⟩ dict = (.ok (), dict.write (m.assignIndex dir) 0 0) :=
    slaveDevice_run _ (.inl rfl) (.inl rfl) (Nat.two_pow_pos _)
  obtain ⟨d, hloop, hd⟩ := forM_returns m.pdoIndices (I := Programmed m (m.assignIndex dir))
    (f := applyPdoTo (slaveDevice (m.assignIndex dir)) slave m (m.assignIndex dir))
    ⟨dict.write_self (m.assignIndex dir) 0 0, fun _ h => by cases h⟩ (by
      intro done pdo rest d hsplit hd
      have hpdo : pdo ∈ m.pdoIndices := by simp [hsplit]
      exact applyPdoTo_run slave (hne pdo hpdo) hd (hlists pdo hpdo))
  obtain ⟨dict', hrun, hlist, hframe⟩ := fill_and_count_run slave m.pdoIndices UInt16.toNat
    (.inl rfl) hd.unassigned hlen fun pdo => show pdo.toNat < 2 ^ (8 * 2) from pdo.toNat_lt
  refine ⟨dict', ?_, ?_, ?_⟩
  · unfold applyPdoMapTo
    rw [bind_of_ok hzero, bind_of_ok hloop]
    dsimp only
    rw [if_neg (by omega)]
    exact hrun
  · rw [assignedPdos, hlist, List.map_map]
    simp [Function.comp_def]
  · intro pdo hpdo
    rw [hd.entries pdo hpdo, pdoEntries, pdoEntries, list_congr (hframe pdo · (hne pdo hpdo))]

/-- Two PDOs, one of them assigned twice, on a slave whose lists are not empty. -/
theorem pdo_map_programmed_twice :
    let m : PdoMap := ⟨0, [0x1600, 0x1601, 0x1600],
      ⟨[⟨0x1600, [⟨0x6040, 0, 16⟩, ⟨0x607A, 0, 32⟩]⟩, ⟨0x1601, [⟨0x60FF, 0, 32⟩]⟩], by
        simp [List.NodupKeys, List.keys]⟩⟩
    m.assignIndex .rx ∉ m.pdoIndices ∧ applyPdoMap (fun _ => none) 1 m .rx = .ok () ∧
      ∃ dict', applyPdoMapTo (slaveDevice (m.assignIndex .rx)) 1 m .rx (fun _ _ => 3) =
          (.ok (), dict') ∧
        assignedPdos dict' (m.assignIndex .rx) = m.pdoIndices ∧
        ∀ pdo ∈ m.pdoIndices, m.entries.lookup pdo = some (pdoEntries dict' pdo) :=
  ⟨by decide, rfl, pdo_map_programmed (by decide) rfl _⟩

end ViamEthercat
