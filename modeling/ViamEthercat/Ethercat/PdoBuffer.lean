import ViamEthercat.Lib.LittleEndian

/-!
# `ViamEthercat.Ethercat.PdoBuffer`: scalars in a process image

The model of `load_le` and `store_le` (`ethercat/pdo_buffer.hpp`, and their forms at a
`FieldLocation` in `ethercat/master.hpp`). A `PdoScalar` is any type with a `std::bit_cast` to an
unsigned word of its size. The integer types are instances. A `float` or a `double` is one by its
object representation.

An image is a list of bytes. The functions make no bounds checks, as in the source: an access is
in range when its bytes exist.
-/

set_option autoImplicit false

namespace ViamEthercat

open Lib

/-- `PdoScalar`: a type of `size` bytes, and `std::bit_cast` to its word and back. -/
class PdoScalar (T : Type) where
  size : Nat
  bits : T → BitVec (8 * size)
  ofBits : BitVec (8 * size) → T
  ofBits_bits : ∀ v, ofBits (bits v) = v
  bits_ofBits : ∀ raw, bits (ofBits raw) = raw

instance : PdoScalar UInt8 where
  size := 1
  bits := UInt8.toBitVec
  ofBits := UInt8.ofBitVec
  ofBits_bits _ := rfl
  bits_ofBits _ := rfl

instance : PdoScalar Int8 where
  size := 1
  bits := Int8.toBitVec
  ofBits := Int8.ofBitVec
  ofBits_bits _ := rfl
  bits_ofBits _ := rfl

instance : PdoScalar UInt16 where
  size := 2
  bits := UInt16.toBitVec
  ofBits := UInt16.ofBitVec
  ofBits_bits _ := rfl
  bits_ofBits _ := rfl

instance : PdoScalar Int16 where
  size := 2
  bits := Int16.toBitVec
  ofBits := Int16.ofBitVec
  ofBits_bits _ := rfl
  bits_ofBits _ := rfl

instance : PdoScalar UInt32 where
  size := 4
  bits := UInt32.toBitVec
  ofBits := UInt32.ofBitVec
  ofBits_bits _ := rfl
  bits_ofBits _ := rfl

instance : PdoScalar Int32 where
  size := 4
  bits := Int32.toBitVec
  ofBits := Int32.ofBitVec
  ofBits_bits _ := rfl
  bits_ofBits _ := rfl

instance : PdoScalar UInt64 where
  size := 8
  bits := UInt64.toBitVec
  ofBits := UInt64.ofBitVec
  ofBits_bits _ := rfl
  bits_ofBits _ := rfl

instance : PdoScalar Int64 where
  size := 8
  bits := Int64.toBitVec
  ofBits := Int64.ofBitVec
  ofBits_bits _ := rfl
  bits_ofBits _ := rfl

variable {T : Type} [PdoScalar T]

open PdoScalar

/-- `load_le` at an offset of an image. -/
def loadLe (T : Type) [PdoScalar T] (image : List UInt8) (loc : Nat) : T :=
  ofBits (assemble (8 * size T) (fun i => image.getD (loc + i) 0) (size T))

/-- `store_le` at an offset of an image. -/
def storeLe (image : List UInt8) (loc : Nat) (value : T) : List UInt8 :=
  writeAt (octet (bits value)) loc (size T) image

@[simp] theorem length_storeLe (image : List UInt8) (loc : Nat) (value : T) :
    (storeLe image loc value).length = image.length :=
  length_writeAt ..

/-- A store leaves the bytes outside its range. -/
theorem getElem?_storeLe_outside (image : List UInt8) {loc j : Nat} (value : T)
    (hj : j < loc ∨ loc + size T ≤ j) : (storeLe image loc value)[j]? = image[j]? :=
  getElem?_writeAt_outside _ _ hj

/-- A load reads the bytes of its range only. -/
theorem loadLe_congr {image image' : List UInt8} {loc : Nat}
    (h : ∀ i < size T, image[loc + i]? = image'[loc + i]?) :
    loadLe T image loc = loadLe T image' loc := by
  unfold loadLe
  rw [assemble_congr fun i hi => by rw [List.getD_eq_getElem?_getD, h i hi,
    ← List.getD_eq_getElem?_getD]]

/-- A load after a store at the same place returns the stored value. -/
theorem loadLe_storeLe {image : List UInt8} {loc : Nat} (value : T)
    (hin : loc + size T ≤ image.length) : loadLe T (storeLe image loc value) loc = value := by
  have hbytes : ∀ i < size T,
      (storeLe image loc value).getD (loc + i) 0 = octet (bits value) i := by
    intro i hi
    rw [List.getD_eq_getElem?_getD, storeLe, getElem?_writeAt _ _ hi hin]
    rfl
  unfold loadLe
  rw [assemble_congr hbytes, assemble_octet, ofBits_bits]

/-- A store of what was loaded from the same place changes nothing. -/
theorem storeLe_loadLe {image : List UInt8} {loc : Nat} (hin : loc + size T ≤ image.length) :
    storeLe image loc (loadLe T image loc) = image := by
  refine List.ext_getElem? fun j => ?_
  by_cases hj : j < loc ∨ loc + size T ≤ j
  · exact getElem?_storeLe_outside image _ hj
  · obtain ⟨i, rfl⟩ : ∃ i, j = loc + i := ⟨j - loc, by omega⟩
    have hi : i < size T := by omega
    rw [storeLe, getElem?_writeAt _ _ hi hin, loadLe, bits_ofBits, octet_assemble _ hi,
      List.getD_eq_getElem?_getD, List.getElem?_eq_getElem (by omega)]
    rfl

/-- A store that covers the image leaves nothing of it. -/
theorem storeLe_covers {image image' : List UInt8} (value : T) (h : image.length = size T)
    (h' : image'.length = size T) : storeLe image 0 value = storeLe image' 0 value := by
  refine List.ext_getElem? fun j => ?_
  by_cases hj : j < size T
  · rw [← Nat.zero_add j, storeLe, storeLe, getElem?_writeAt _ _ hj (by omega),
      getElem?_writeAt _ _ hj (by omega)]
  · rw [List.getElem?_eq_none (by rw [length_storeLe]; omega),
      List.getElem?_eq_none (by rw [length_storeLe]; omega)]

end ViamEthercat
