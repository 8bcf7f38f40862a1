import ViamEthercat.Ethercat.PdoMapping
import ViamEthercat.Ethercat.PdoBuffer
import ViamEthercat.Lib.Checked

/-!
# `ViamEthercat.Proofs.Fields`: the process image as a record of fields

`fields_record`: at the offsets of a built field table the accessors behave as those of a record.
Two fields with different keys have no byte in common, a load returns what was stored at the same
field, and a store leaves every other field and every byte outside its own.

The invariant of the loop is `Apart`. Each entry takes the bits behind all entries before it, and
a key that comes again moves its field there.
-/

set_option autoImplicit false

namespace ViamEthercat

open Lib PdoScalar

/-- `field_key` keeps the index and the subindex apart. -/
theorem fieldKey_inj {i j : UInt16} {s t : UInt8} (h : fieldKey i s = fieldKey j t) :
    i = j ∧ s = t := by
  unfold fieldKey at h
  have hs := s.toNat_lt
  have ht := t.toNat_lt
  exact ⟨UInt16.toNat_inj.mp (by omega), UInt8.toNat_inj.mp (by omega)⟩

/-- The bytes of the two fields do not meet. -/
def MappedField.Disjoint (f g : MappedField) : Prop :=
  f.byteOffset + f.bitLength / 8 ≤ g.byteOffset ∨ g.byteOffset + g.bitLength / 8 ≤ f.byteOffset

/-! ### The loop of `build_field_table` -/

/-- The fields so far are below the next bit, and pairwise disjoint. -/
structure Apart (b : FieldBuild) : Prop where
  below : ∀ key f, b.fields.lookup key = some f → f.byteOffset * 8 + f.bitLength ≤ b.bit
  apart : ∀ key key' f g, key ≠ key' → b.fields.lookup key = some f →
    b.fields.lookup key' = some g → f.Disjoint g

theorem apart_nil : Apart {} where
  below key f h := by simp at h
  apart key key' f g _ h := by simp at h

/-- A gap moves the next bit on. -/
theorem Apart.gap {b : FieldBuild} (h : Apart b) (n : Nat) :
    Apart { b with bit := b.bit + n } where
  below key f hf := (h.below key f hf).trans (Nat.le_add_right _ _)
  apart := h.apart

/-- An object on whole bytes lies behind the fields so far. -/
theorem Apart.insert {b : FieldBuild} (h : Apart b) (key : Nat) {n : Nat}
    (haligned : b.bit % 8 = 0) :
    Apart { fields := b.fields.insert key ⟨b.bit / 8, n⟩, bit := b.bit + n } := by
  have hbehind {key' : Nat} {g : MappedField} (hg : b.fields.lookup key' = some g) :
      g.byteOffset + g.bitLength / 8 ≤ b.bit / 8 := by
    have hbelow := h.below key' g hg
    omega
  constructor
  · intro key' f hf
    by_cases hkey : key' = key
    · subst hkey
      rw [AList.lookup_insert] at hf
      obtain rfl := Option.some.inj hf
      dsimp only
      omega
    · rw [AList.lookup_insert_ne hkey] at hf
      exact (h.below key' f hf).trans (Nat.le_add_right _ _)
  · intro key₁ key₂ f g hne hf hg
    by_cases hkey₁ : key₁ = key
    · subst hkey₁
      rw [AList.lookup_insert] at hf
      rw [AList.lookup_insert_ne hne.symm] at hg
      obtain rfl := Option.some.inj hf
      exact .inr (hbehind hg)
    · rw [AList.lookup_insert_ne hkey₁] at hf
      by_cases hkey₂ : key₂ = key
      · subst hkey₂
        rw [AList.lookup_insert] at hg
        obtain rfl := Option.some.inj hg
        exact .inl (hbehind hf)
      · rw [AList.lookup_insert_ne hkey₂] at hg
        exact h.apart key₁ key₂ f g hne hf hg

theorem apart_addEntry {slave : UInt16} {b b' : FieldBuild} {e : PdoEntry} (h : Apart b)
    (hadd : b.addEntry slave e = .ok b') : Apart b' := by
  unfold FieldBuild.addEntry at hadd
  split_ifs at hadd with hobject haligned hwidth
  · obtain rfl := Except.ok.inj hadd
    exact h.insert _ (not_not.mp haligned)
  · obtain rfl := Except.ok.inj hadd
    exact h.gap _

theorem apart_addPdo {slave : UInt16} {m : PdoMap} {b b' : FieldBuild} {pdo : UInt16}
    (h : Apart b) (hadd : b.addPdo slave m pdo = .ok b') : Apart b' := by
  unfold FieldBuild.addPdo at hadd
  cases hlookup : m.entries.lookup pdo with
  | none =>
      rw [hlookup] at hadd
      cases hadd
  | some list =>
      rw [hlookup] at hadd
      exact foldlM_induction h (fun _ _ _ hb hentry => apart_addEntry hb hentry) hadd

theorem apart_of_build {slave : UInt16} {m : PdoMap} {table : FieldTable}
    (h : buildFieldTable slave m = .ok table) : ∃ b, b.fields = table ∧ Apart b := by
  obtain ⟨b, hb, hfields⟩ := bind_eq_ok.mp h
  exact ⟨b, Except.ok.inj hfields,
    foldlM_induction apart_nil (fun _ _ _ hb hpdo => apart_addPdo hb hpdo) hb⟩

/-! ### The accessors -/

/-- The image holds every field of the table. -/
def FieldTable.FitsIn (table : FieldTable) (image : List UInt8) : Prop :=
  ∀ key f, table.lookup key = some f → f.byteOffset + f.bitLength / 8 ≤ image.length

/-- The laws of a record, for the accessors at the fields of the table. `T` and `U` are scalars of
the mapped widths. -/
structure RecordOfFields (table : FieldTable) (image : List UInt8) : Prop where
  disjoint : ∀ i s j t f g, (i, s) ≠ (j, t) → table.lookup (fieldKey i s) = some f →
    table.lookup (fieldKey j t) = some g → f.Disjoint g
  load_store : ∀ i s f, table.lookup (fieldKey i s) = some f →
    ∀ (T : Type) [PdoScalar T], f.bitLength = 8 * size T → ∀ v : T,
      loadLe T (storeLe image f.byteOffset v) f.byteOffset = v
  load_store_other : ∀ i s j t f g, (i, s) ≠ (j, t) → table.lookup (fieldKey i s) = some f →
    table.lookup (fieldKey j t) = some g →
    ∀ (T U : Type) [PdoScalar T] [PdoScalar U], f.bitLength = 8 * size T →
      g.bitLength = 8 * size U → ∀ v : T,
      loadLe U (storeLe image f.byteOffset v) g.byteOffset = loadLe U image g.byteOffset
  store_outside : ∀ i s f, table.lookup (fieldKey i s) = some f →
    ∀ (T : Type) [PdoScalar T], f.bitLength = 8 * size T → ∀ v : T,
      (storeLe image f.byteOffset v).length = image.length ∧
        ∀ k, k < f.byteOffset ∨ f.byteOffset + f.bitLength / 8 ≤ k →
          (storeLe image f.byteOffset v)[k]? = image[k]?

/-- The process image behaves as a record of the fields of its table. -/
theorem fields_record (slave : UInt16) (m : PdoMap) (table : FieldTable)
    (htable : buildFieldTable slave m = .ok table) (image : List UInt8)
    (hfits : table.FitsIn image) : RecordOfFields table image := by
  obtain ⟨b, rfl, happart⟩ := apart_of_build htable
  have hdisjoint : ∀ i s j t f g, (i, s) ≠ (j, t) → b.fields.lookup (fieldKey i s) = some f →
      b.fields.lookup (fieldKey j t) = some g → f.Disjoint g := by
    intro i s j t f g hne hf hg
    refine happart.apart _ _ f g (fun hkey => hne ?_) hf hg
    obtain ⟨rfl, rfl⟩ := fieldKey_inj hkey
    rfl
  refine ⟨hdisjoint, ?_, ?_, ?_⟩
  · intro i s f hf T _ hwidth v
    have hin := hfits _ f hf
    exact loadLe_storeLe v (by omega)
  · intro i s j t f g hne hf hg T U _ _ hT hU v
    -- The bytes of the other field are outside the store.
    refine loadLe_congr fun k hk => getElem?_storeLe_outside image v ?_
    have hapart := hdisjoint i s j t f g hne hf hg
    unfold MappedField.Disjoint at hapart
    omega
  · intro i s f hf T _ hwidth v
    refine ⟨length_storeLe image f.byteOffset v, fun k hk => ?_⟩
    exact getElem?_storeLe_outside image v (by omega)

/-- A controlword, a gap of a byte and a target position. -/
def paddedMap : PdoMap where
  pdoIndices := [0x1600]
  entries := AList.singleton 0x1600 [⟨0x6040, 0, 16⟩, ⟨0, 0, 8⟩, ⟨0x607A, 0, 32⟩]

theorem fields_record_padded :
    ∃ table, buildFieldTable 1 paddedMap = .ok table ∧
      table.lookup (fieldKey 0x607A 0) = some ⟨3, 32⟩ ∧
      RecordOfFields table (List.replicate 7 0) := by
  obtain ⟨table, htable, hfield⟩ : ∃ table, buildFieldTable 1 paddedMap = .ok table ∧
      (if table.lookup (fieldKey 0x607A 0) = some ⟨3, 32⟩ ∧
        table.entries.all (fun s => decide (s.2.byteOffset + s.2.bitLength / 8 ≤ 7)) = true
        then some () else none) = some () :=
    toOption_bind_eq_some.mp (by decide)
  split_ifs at hfield with hall
  refine ⟨table, htable, hall.1, fields_record 1 paddedMap table htable _ fun key f hf => ?_⟩
  have hmem := AList.mem_lookup_iff.mp hf
  exact of_decide_eq_true (List.all_eq_true.mp hall.2 _ hmem)

end ViamEthercat
