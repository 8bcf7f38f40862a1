import ViamEthercat.Ethercat.PdoMapping
import ViamEthercat.Lib.Checked
import Mathlib.Algebra.Order.BigOperators.Group.List
import Mathlib.Algebra.Order.Ring.Nat
import Mathlib.Data.List.DropRight

/-!
# `ViamEthercat.Proofs.Images`: the field tables, the images and the buffers

The accessors of the loop make no bounds checks. They rely on `configure`, which compares the
applied image with `byte_size` and gives out the offsets of the field table.

* `fields_inside_iff`: the fields lie inside the image if and only if the bits of the assigned
  entries, up to the last object, fit into the bits of the entry lists. A PDO that is assigned
  twice has its entries counted once by `byte_size` and twice by the table
  (`field_outside_image`). Without such a PDO they fit.
* `images_fit_iff`: the images of an accepted configuration fit the buffers of the context if and
  only if every command map does. The feedback map is checked by `PdoCache`, the command map is
  not (`command_image_too_long`).
-/

set_option autoImplicit false

namespace ViamEthercat

open Lib

/-! ### Bits -/

@[simp] theorem mapBits_nil : mapBits [] = 0 := rfl

theorem mapBits_append (xs ys : List PdoEntry) : mapBits (xs ++ ys) = mapBits xs + mapBits ys := by
  simp [mapBits]

@[simp] theorem mapBits_singleton (e : PdoEntry) : mapBits [e] = e.bitLength.toNat := by
  simp [mapBits]

/-- A list of entries up to its last object: the gaps behind it are dropped. -/
def upToLastObject (list : List PdoEntry) : List PdoEntry :=
  list.rdropWhile fun e => e.index = 0

theorem mapBits_upToLastObject_le (list : List PdoEntry) :
    mapBits (upToLastObject list) ≤ mapBits list := by
  induction list using List.reverseRecOn with
  | nil => simp [upToLastObject]
  | append_singleton list e ih =>
      unfold upToLastObject at ih ⊢
      rw [List.rdropWhile_concat]
      split_ifs
      · rw [mapBits_append]
        omega
      · exact le_rfl

namespace PdoMap

variable (m : PdoMap)

/-- The entries of the assigned PDOs in their order, once for each assignment. -/
def assigned : List PdoEntry := m.pdoIndices.flatMap fun pdo => (m.entries.lookup pdo).getD []

/-- The condition on a map: the assigned entries up to the last object have no more bits than the
entry lists. -/
def ObjectsFit : Prop := mapBits (upToLastObject m.assigned) ≤ m.totalBits

instance : Decidable m.ObjectsFit := inferInstanceAs (Decidable (_ ≤ _))

end PdoMap

/-! ### The table -/

/-- Where the field ends in its image, in bits. -/
def MappedField.endBit (f : MappedField) : Nat := f.byteOffset * 8 + f.bitLength

/-- The table of a list of entries: no field ends behind the last object, and some field ends with
it. -/
structure Tabled (list : List PdoEntry) (b : FieldBuild) : Prop where
  bit : b.bit = mapBits list
  whole : ∀ key f, b.fields.lookup key = some f → f.bitLength % 8 = 0
  ends : ∀ key f, b.fields.lookup key = some f → f.endBit ≤ mapBits (upToLastObject list)
  reached : upToLastObject list ≠ [] →
    ∃ key f, b.fields.lookup key = some f ∧ f.endBit = mapBits (upToLastObject list)

theorem tabled_nil : Tabled [] {} where
  bit := rfl
  whole := fun key f h => by simp at h
  ends := fun key f h => by simp at h
  reached := fun h => absurd rfl h

/-- One entry keeps the table of the entries before it. -/
theorem tabled_concat {slave : UInt16} {list : List PdoEntry} {e : PdoEntry} {b b' : FieldBuild}
    (h : Tabled list b) (hadd : b.addEntry slave e = .ok b') : Tabled (list ++ [e]) b' := by
  unfold FieldBuild.addEntry at hadd
  by_cases hgap : e.index = 0
  · -- A gap: the last object stays where it is.
    rw [if_neg (by simpa using hgap)] at hadd
    obtain rfl := Except.ok.inj hadd
    have hlast : upToLastObject (list ++ [e]) = upToLastObject list :=
      List.rdropWhile_concat_pos _ _ _ (by simpa using hgap)
    refine ⟨?_, h.whole, ?_, ?_⟩
    · rw [mapBits_append, mapBits_singleton, ← h.bit]
    · rw [hlast]
      exact h.ends
    · rw [hlast]
      exact h.reached
  · rw [if_pos hgap] at hadd
    by_cases haligned : b.bit % 8 = 0
    · rw [if_neg (by simpa using haligned)] at hadd
      by_cases hwidth : e.bitLength.toNat % 8 = 0
      · rw [if_neg (by simpa using hwidth)] at hadd
        obtain rfl := Except.ok.inj hadd
        have hlast : upToLastObject (list ++ [e]) = list ++ [e] :=
          List.rdropWhile_concat_neg _ _ _ (by simpa using hgap)
        have hbits : mapBits (list ++ [e]) = b.bit + e.bitLength.toNat := by
          rw [mapBits_append, mapBits_singleton, h.bit]
        -- The new field ends with the entry, the others before it.
        have hnew : b.bit / 8 * 8 + e.bitLength.toNat = mapBits (list ++ [e]) := by omega
        have hold := mapBits_upToLastObject_le list
        refine ⟨hbits.symm, ?_, ?_, ?_⟩
        · intro key f hf
          by_cases hkey : key = fieldKey e.index e.subindex
          · subst hkey
            rw [AList.lookup_insert] at hf
            obtain rfl := Option.some.inj hf
            exact hwidth
          · rw [AList.lookup_insert_ne hkey] at hf
            exact h.whole key f hf
        · intro key f hf
          rw [hlast]
          by_cases hkey : key = fieldKey e.index e.subindex
          · subst hkey
            rw [AList.lookup_insert] at hf
            obtain rfl := Option.some.inj hf
            exact hnew.le
          · rw [AList.lookup_insert_ne hkey] at hf
            have hend := h.ends key f hf
            have hbit := h.bit
            omega
        · intro _
          rw [hlast]
          exact ⟨_, _, AList.lookup_insert _, hnew⟩
      · rw [if_pos (by simpa using hwidth)] at hadd
        cases hadd
    · rw [if_pos (by simpa using haligned)] at hadd
      cases hadd

/-- A loop over entries, from the table of those before them. -/
theorem tabled_entries {slave : UInt16} {before list : List PdoEntry} {b b' : FieldBuild}
    (h : Tabled before b) (hadd : list.foldlM (FieldBuild.addEntry slave) b = .ok b') :
    Tabled (before ++ list) b' := by
  induction list using List.reverseRecOn generalizing b' with
  | nil =>
      obtain rfl : b = b' := by simpa [pure, Except.pure] using hadd
      simpa using h
  | append_singleton list e ih =>
      obtain ⟨a, ha, hlast⟩ := foldlM_concat_eq_ok.mp hadd
      rw [← List.append_assoc]
      exact tabled_concat (ih ha) hlast

/-- A loop over assigned PDOs walks their entry lists, which all exist. -/
theorem tabled_pdos {slave : UInt16} {m : PdoMap} {pdos : List UInt16} {b : FieldBuild}
    (hadd : pdos.foldlM (FieldBuild.addPdo slave m) {} = .ok b) :
    (∀ pdo ∈ pdos, pdo ∈ m.entries) ∧
      Tabled (pdos.flatMap fun pdo => (m.entries.lookup pdo).getD []) b := by
  induction pdos using List.reverseRecOn generalizing b with
  | nil =>
      obtain rfl : ({} : FieldBuild) = b := by simpa [pure, Except.pure] using hadd
      exact ⟨by simp, tabled_nil⟩
  | append_singleton pdos pdo ih =>
      obtain ⟨a, ha, hlast⟩ := foldlM_concat_eq_ok.mp hadd
      obtain ⟨hmem, htabled⟩ := ih ha
      unfold FieldBuild.addPdo at hlast
      cases hlookup : m.entries.lookup pdo with
      | none =>
          rw [hlookup] at hlast
          cases hlast
      | some list =>
          rw [hlookup] at hlast
          constructor
          · intro x hx
            rcases List.mem_append.mp hx with hx | hx
            · exact hmem x hx
            · obtain rfl := List.mem_singleton.mp hx
              exact AList.lookup_isSome.mp (by simp [hlookup])
          · rw [List.flatMap_append]
            simpa [hlookup] using tabled_entries htabled hlast

theorem tabled_of_build {slave : UInt16} {m : PdoMap} {table : FieldTable}
    (h : buildFieldTable slave m = .ok table) :
    (∀ pdo ∈ m.pdoIndices, pdo ∈ m.entries) ∧ ∃ b, b.fields = table ∧ Tabled m.assigned b := by
  obtain ⟨b, hb, hfields⟩ := bind_eq_ok.mp h
  obtain ⟨hmem, htabled⟩ := tabled_pdos hb
  exact ⟨hmem, b, Except.ok.inj hfields, htabled⟩

/-- A successful `byte_size` is the bit total in bytes. -/
theorem totalBits_of_byteSize {m : PdoMap} {n : Nat} (h : m.byteSize = .ok n) :
    m.totalBits = 8 * n := by
  unfold PdoMap.byteSize at h
  split_ifs at h
  obtain rfl := Except.ok.inj h
  omega

/-- A map that assigns no PDO twice has room for its objects. -/
theorem objectsFit_of_nodup {m : PdoMap} (hmem : ∀ pdo ∈ m.pdoIndices, pdo ∈ m.entries)
    (hnodup : m.pdoIndices.Nodup) : m.ObjectsFit := by
  have hbits : mapBits m.assigned
      = (m.pdoIndices.map fun pdo => mapBits ((m.entries.lookup pdo).getD [])).sum := by
    unfold PdoMap.assigned
    induction m.pdoIndices with
    | nil => rfl
    | cons pdo pdos ih =>
        rw [List.flatMap_cons, mapBits_append, ih, List.map_cons, List.sum_cons]
  -- The assigned lists are distinct members of the entry map.
  let pairs : List (Sigma fun _ : UInt16 => List PdoEntry) :=
    m.pdoIndices.map fun pdo => ⟨pdo, (m.entries.lookup pdo).getD []⟩
  have hsub : pairs.Subperm m.entries.entries := by
    apply List.subperm_of_subset
    · exact hnodup.map fun a c h => by simpa using congrArg Sigma.fst h
    · intro x hx
      obtain ⟨pdo, hpdo, rfl⟩ := List.mem_map.mp hx
      obtain ⟨list, hlist⟩ := Option.isSome_iff_exists.mp (AList.lookup_isSome.mpr (hmem pdo hpdo))
      rw [hlist]
      exact AList.mem_lookup_iff.mp hlist
  have hsum : (pairs.map fun s => mapBits s.2).sum ≤ m.totalBits := by
    obtain ⟨list, hperm, hsublist⟩ := hsub
    rw [← (hperm.map _).sum_eq]
    exact (hsublist.map _).sum_le_sum fun n _ => Nat.zero_le n
  calc mapBits (upToLastObject m.assigned) ≤ mapBits m.assigned := mapBits_upToLastObject_le _
    _ = (pairs.map fun s => mapBits s.2).sum := by rw [hbits, List.map_map]; rfl
    _ ≤ m.totalBits := hsum

/-! ### Resolved fields -/

/-- The fields of a built table lie inside `n` bytes, if and only if the objects of the map have
room. -/
theorem fields_inside_of_build {slave : UInt16} {m : PdoMap} {n : Nat} {table : FieldTable}
    (hsize : m.byteSize = .ok n) (htable : buildFieldTable slave m = .ok table) :
    (∀ key f, table.lookup key = some f → f.byteOffset + f.bitLength / 8 ≤ n) ↔ m.ObjectsFit := by
  obtain ⟨-, b, rfl, htabled⟩ := tabled_of_build htable
  have htotal := totalBits_of_byteSize hsize
  unfold PdoMap.ObjectsFit
  constructor
  · intro hinside
    by_cases hnone : upToLastObject m.assigned = []
    · rw [hnone]
      exact Nat.zero_le _
    · -- Some field ends with the last object.
      obtain ⟨key, f, hf, hend⟩ := htabled.reached hnone
      have hin := hinside key f hf
      have hwhole := htabled.whole key f hf
      unfold MappedField.endBit at hend
      omega
  · intro hfit key f hf
    have hend := htabled.ends key f hf
    have hwhole := htabled.whole key f hf
    unfold MappedField.endBit at hend
    omega

/-- What `resolve_field` gives out is a field of the table, of the width that was asked for. -/
theorem resolveField_ok {table : FieldTable} {index : UInt16} {sub : UInt8} {width loc : Nat}
    {slave : UInt16} {isTx : Bool} (h : resolveField table index sub width slave isTx = .ok loc) :
    ∃ key f, table.lookup key = some f ∧ f.byteOffset = loc ∧ f.bitLength / 8 = width := by
  unfold resolveField at h
  cases hf : table.lookup (fieldKey index sub) with
  | none =>
      rw [hf] at h
      cases h
  | some f =>
      rw [hf] at h
      dsimp only at h
      split_ifs at h with hwidth
      exact ⟨_, f, hf, Except.ok.inj h, not_not.mp hwidth⟩

/-- What `configure` has checked of an accepted slave. -/
structure Accepted (bus : MappedBus) (sc : MappedSlave) (rt : SlaveRuntime) : Prop where
  rxSize : sc.rxpdo.byteSize = .ok rt.io.outputBytes
  txSize : sc.txpdo.byteSize = .ok rt.io.inputBytes
  feedback : rt.io.inputBytes ≤ maxPdoBytes
  rxTable : buildFieldTable sc.slaveId sc.rxpdo = .ok rt.rxFields
  txTable : buildFieldTable sc.slaveId sc.txpdo = .ok rt.txFields

theorem accepted_of_configureSlave {bus : MappedBus} {sc : MappedSlave} {rt : SlaveRuntime}
    (h : configureSlave bus sc = .ok rt) : Accepted bus sc rt := by
  unfold configureSlave at h
  obtain ⟨info, hinfo, h⟩ := bind_eq_ok.mp h
  obtain ⟨rxBytes, hrx, h⟩ := bind_eq_ok.mp h
  obtain ⟨txBytes, htx, h⟩ := bind_eq_ok.mp h
  have hio : bus.slaveIo sc.slaveId = info := by
    unfold MappedBus.slaveInfo at hinfo
    unfold MappedBus.slaveIo
    split_ifs at hinfo ⊢
    exact Except.ok.inj hinfo
  by_cases himage : info.outputBytes ≠ rxBytes ∨ info.inputBytes ≠ txBytes
  · rw [if_pos himage] at h
    cases h
  · rw [if_neg himage] at h
    obtain ⟨_, hcache, h⟩ := bind_eq_ok.mp h
    obtain ⟨rxFields, hrxFields, h⟩ := bind_eq_ok.mp h
    obtain ⟨txFields, htxFields, h⟩ := bind_eq_ok.mp h
    obtain rfl := Except.ok.inj h
    obtain ⟨hout, hin⟩ := not_or.mp himage
    unfold pdoCache at hcache
    split_ifs at hcache with hlong
    rw [← hio] at hout hin hlong
    exact ⟨hrx.trans (congrArg _ (not_not.mp hout).symm), htx.trans
      (congrArg _ (not_not.mp hin).symm), not_lt.mp hlong, hrxFields, htxFields⟩

/-- Every access of `width` bytes at an offset that `resolve_field` gives out is in range. -/
def ResolvesInside (table : FieldTable) (imageBytes : Nat) : Prop :=
  ∀ (index : UInt16) (sub : UInt8) (width : Nat) (slave : UInt16) (isTx : Bool) (loc : Nat),
    resolveField table index sub width slave isTx = .ok loc → loc + width ≤ imageBytes

/-- The fields of a table lie inside the image of the map if and only if its objects have room,
which they have if no PDO is assigned twice. In an accepted slave every access at a resolved
field is then in range. -/
theorem fields_inside_iff (slave : UInt16) (m : PdoMap) (n : Nat) (table : FieldTable)
    (hsize : m.byteSize = .ok n) (htable : buildFieldTable slave m = .ok table) :
    ((∀ key f, table.lookup key = some f → f.byteOffset + f.bitLength / 8 ≤ n) ↔ m.ObjectsFit) ∧
    (m.pdoIndices.Nodup → m.ObjectsFit) ∧
    (m.ObjectsFit → ∀ bus sc rt, configureSlave bus sc = .ok rt →
      (sc.rxpdo = m → ResolvesInside rt.rxFields rt.io.outputBytes) ∧
      (sc.txpdo = m → ResolvesInside rt.txFields rt.io.inputBytes)) := by
  refine ⟨fields_inside_of_build hsize htable,
    objectsFit_of_nodup (tabled_of_build htable).1, ?_⟩
  intro hfit bus sc rt hrt
  have haccepted := accepted_of_configureSlave hrt
  constructor
  · rintro rfl index sub width slave isTx loc hloc
    obtain ⟨key, f, hf, rfl, rfl⟩ := resolveField_ok hloc
    exact (fields_inside_of_build haccepted.rxSize haccepted.rxTable).mpr hfit key f hf
  · rintro rfl index sub width slave isTx loc hloc
    obtain ⟨key, f, hf, rfl, rfl⟩ := resolveField_ok hloc
    exact (fields_inside_of_build haccepted.txSize haccepted.txTable).mpr hfit key f hf

/-- One PDO with a controlword and a target position. -/
def commandMap : PdoMap where
  pdoIndices := [0x1600]
  entries := AList.singleton 0x1600 [⟨0x6040, 0, 16⟩, ⟨0x607A, 0, 32⟩]

theorem fields_inside_command :
    ∃ table, buildFieldTable 1 commandMap = .ok table ∧
      table.lookup (fieldKey 0x607A 0) = some ⟨2, 32⟩ ∧
      ∀ key f, table.lookup key = some f → f.byteOffset + f.bitLength / 8 ≤ 6 := by
  obtain ⟨table, htable, hfield⟩ : ∃ table, buildFieldTable 1 commandMap = .ok table ∧
      table.lookup (fieldKey 0x607A 0) = some ⟨2, 32⟩ :=
    toOption_bind_eq_some.mp (by decide)
  have hfit := fields_inside_iff 1 commandMap 6 table rfl htable
  exact ⟨table, htable, hfield, hfit.1.mpr (hfit.2.1 (by decide))⟩

/-- The controlword of a PDO that is assigned twice: its field lies behind the two bytes of the
image. -/
def twiceMap : PdoMap where
  pdoIndices := [0x1600, 0x1600]
  entries := AList.singleton 0x1600 [⟨0x6040, 0, 16⟩]

theorem field_outside_image : ¬ ∀ (slave : UInt16) (m : PdoMap) (n : Nat) (table : FieldTable),
    m.byteSize = .ok n → buildFieldTable slave m = .ok table →
    ∀ key f, table.lookup key = some f → f.byteOffset + f.bitLength / 8 ≤ n := by
  intro h
  obtain ⟨table, htable, hfield⟩ : ∃ table, buildFieldTable 1 twiceMap = .ok table ∧
      table.lookup (fieldKey 0x6040 0) = some ⟨2, 16⟩ :=
    toOption_bind_eq_some.mp (by decide)
  exact absurd (h 1 twiceMap 2 table rfl htable _ _ hfield) (by decide)

/-! ### The buffers of the context -/

/-- The copies around a hook are in range if both images fit the buffers. -/
theorem dispatchCopies_inRange {image : SlaveImage} (hin : image.inputBytes ≤ maxPdoBytes)
    (hout : image.outputBytes ≤ maxPdoBytes) : ∀ c ∈ dispatchCopies image, c.InRange := by
  intro c hc
  rcases (by simpa [dispatchCopies] using hc :
    c = ⟨image.inputBytes, image.inputBytes, maxPdoBytes⟩ ∨
      c = ⟨image.outputBytes, image.outputBytes, maxPdoBytes⟩ ∨
      c = ⟨image.outputBytes, maxPdoBytes, image.outputBytes⟩) with rfl | rfl | rfl
  · exact ⟨le_rfl, hin⟩
  · exact ⟨le_rfl, hout⟩
  · exact ⟨hout, le_rfl⟩

/-- The images of all slaves fit the buffers of the context. -/
def ImagesFit (slaves : List SlaveRuntime) : Prop :=
  ∀ rt ∈ slaves, rt.io.inputBytes ≤ maxPdoBytes ∧ rt.io.outputBytes ≤ maxPdoBytes

/-- Every copy of every dispatch is in range: the spans are those of `configure` in every hook of
every cycle. -/
def CopiesInRange (slaves : List SlaveRuntime) : Prop :=
  ∀ slave : UInt16, ∀ c ∈ dispatchCopies (slaveImage slaves slave), c.InRange

theorem copiesInRange_of_fit {slaves : List SlaveRuntime} (h : ImagesFit slaves) :
    CopiesInRange slaves := by
  intro slave
  unfold slaveImage
  cases hfind : slaves.find? fun rt => rt.slaveId = slave with
  | none => exact dispatchCopies_inRange (Nat.zero_le _) (Nat.zero_le _)
  | some rt =>
      obtain ⟨hin, hout⟩ := h rt (List.mem_of_find?_eq_some hfind)
      exact dispatchCopies_inRange hin hout

/-- The command map of an accepted slave is as long as its image. -/
theorem commandMaps_of_fit {bus : MappedBus} {config : List MappedSlave}
    {slaves : List SlaveRuntime} (h : configureSlaves bus config = .ok slaves)
    (hfit : ImagesFit slaves) : ∀ sc ∈ config, sc.rxpdo.totalBits ≤ 8 * maxPdoBytes := by
  intro sc hsc
  obtain ⟨_, -, hslaves⟩ := bind_eq_ok.mp h
  obtain ⟨rt, hrt, haccepted⟩ := (mapM_eq_ok hslaves).1 sc hsc
  have hsize := totalBits_of_byteSize (accepted_of_configureSlave haccepted).rxSize
  have hout := (hfit rt hrt).2
  omega

/-- The images of an accepted configuration fit, and with them every copy of every dispatch, if and
only if no command map is longer than the buffers. -/
theorem images_fit_iff (bus : MappedBus) (config : List MappedSlave) (slaves : List SlaveRuntime)
    (h : configureSlaves bus config = .ok slaves) :
    (ImagesFit slaves ∧ CopiesInRange slaves) ↔
      ∀ sc ∈ config, sc.rxpdo.totalBits ≤ 8 * maxPdoBytes := by
  constructor
  · intro hfit
    exact commandMaps_of_fit h hfit.1
  · intro hshort
    obtain ⟨_, -, hslaves⟩ := bind_eq_ok.mp h
    have hfit : ImagesFit slaves := by
      intro rt hrt
      obtain ⟨sc, hsc, hconfigured⟩ := (mapM_eq_ok hslaves).2 rt hrt
      have haccepted := accepted_of_configureSlave hconfigured
      have hsize := totalBits_of_byteSize haccepted.rxSize
      have hbits := hshort sc hsc
      exact ⟨haccepted.feedback, by omega⟩
    exact ⟨hfit, copiesInRange_of_fit hfit⟩

/-- A drive that takes every download, with one image. -/
def oneDrive (inputBytes outputBytes : Nat) : MappedBus where
  port := fun _ => none
  slaves := [⟨inputBytes, outputBytes⟩]

/-- One PDO with a statusword. -/
def feedbackMap : PdoMap where
  pdoIndices := [0x1A00]
  entries := AList.singleton 0x1A00 [⟨0x6041, 0, 16⟩]

/-- One PDO with 65 objects of eight bytes. -/
def longMap : PdoMap where
  pdoIndices := [0x1600]
  entries := AList.singleton 0x1600 (List.replicate 65 ⟨0x2000, 1, 64⟩)

theorem images_fit_command :
    ∃ slaves, configureSlaves (oneDrive 2 6) [⟨1, commandMap, feedbackMap⟩] = .ok slaves ∧
      ImagesFit slaves ∧ CopiesInRange slaves := by
  obtain ⟨slaves, hslaves, -⟩ : ∃ slaves, configureSlaves (oneDrive 2 6)
      [⟨1, commandMap, feedbackMap⟩] = .ok slaves ∧ some () = some () :=
    toOption_bind_eq_some.mp (by decide)
  exact ⟨slaves, hslaves, (images_fit_iff _ _ slaves hslaves).mpr (by decide)⟩

/-- A command map of 520 bytes is accepted. -/
theorem command_image_too_long : ¬ ∀ (bus : MappedBus) (config : List MappedSlave)
    (slaves : List SlaveRuntime), configureSlaves bus config = .ok slaves →
    ImagesFit slaves ∧ CopiesInRange slaves := by
  intro h
  obtain ⟨slaves, hslaves, -⟩ : ∃ slaves, configureSlaves (oneDrive 2 520)
      [⟨1, longMap, feedbackMap⟩] = .ok slaves ∧ some () = some () :=
    toOption_bind_eq_some.mp (by decide +kernel)
  have hshort := commandMaps_of_fit hslaves (h _ _ slaves hslaves).1
  revert hshort
  decide +kernel

end ViamEthercat
