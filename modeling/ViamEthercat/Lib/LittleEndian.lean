import Mathlib.Data.List.Basic

/-!
# `ViamEthercat.Lib.LittleEndian`: words as octets, least significant first

A word is taken apart into octets (`octet`) and put together again from them (`assemble`), at any
width. `writeAt` puts the values of a function into a range of a list, one index at a time.

* `assemble_octet` and `octet_assemble`: the two directions undo each other when the width is a
  whole number of octets.
* `getElem?_writeAt`: what a written list holds, inside and outside the range.
-/

set_option autoImplicit false

namespace ViamEthercat.Lib

/-! ### Octets -/

section
variable {w : Nat}

/-- The octet `i` of a word. -/
def octet (raw : BitVec w) (i : Nat) : UInt8 := UInt8.ofBitVec ((raw >>> (8 * i)).setWidth 8)

/-- The word of the octets `f 0` to `f (n - 1)`. -/
def assemble (w : Nat) (f : Nat → UInt8) (n : Nat) : BitVec w :=
  (List.range n).foldl (fun raw i => raw ||| (f i).toBitVec.setWidth w <<< (8 * i)) 0#w

theorem assemble_succ (f : Nat → UInt8) (n : Nat) :
    assemble w f (n + 1) = assemble w f n ||| (f n).toBitVec.setWidth w <<< (8 * n) := by
  unfold assemble
  rw [List.range_succ, List.foldl_append, List.foldl_cons, List.foldl_nil]

theorem getLsbD_octet (raw : BitVec w) (i j : Nat) :
    (octet raw i).toBitVec.getLsbD j = (decide (j < 8) && raw.getLsbD (8 * i + j)) := by
  unfold octet
  rw [UInt8.toBitVec_ofBitVec, BitVec.getLsbD_setWidth, BitVec.getLsbD_ushiftRight]

/-- Each bit of the word comes from one octet. -/
theorem getLsbD_assemble (f : Nat → UInt8) (n j : Nat) :
    (assemble w f n).getLsbD j
      = (decide (j < w) && decide (j < 8 * n) && (f (j / 8)).toBitVec.getLsbD (j % 8)) := by
  induction n with
  | zero => simp [assemble]
  | succ n ih =>
      rw [assemble_succ, BitVec.getLsbD_or, ih, BitVec.getLsbD_shiftLeft,
        BitVec.getLsbD_setWidth]
      rcases Nat.lt_trichotomy (j / 8) n with hlt | heq | hgt
      · -- An octet below the new one.
        rw [decide_eq_true (show j < 8 * n by omega),
          decide_eq_true (show j < 8 * (n + 1) by omega)]
        simp
      · -- A bit of the new octet.
        rw [decide_eq_false (show ¬ j < 8 * n by omega),
          decide_eq_true (show j < 8 * (n + 1) by omega), heq,
          show j - 8 * n = j % 8 by omega]
        by_cases hj : j < w
        · simp [hj, show j % 8 < w by omega]
        · simp [hj]
      · have hbit : (f n).toBitVec.getLsbD (j - 8 * n) = false :=
          BitVec.getLsbD_of_ge _ _ (by omega)
        rw [hbit, decide_eq_false (show ¬ j < 8 * n by omega),
          decide_eq_false (show ¬ j < 8 * (n + 1) by omega)]
        simp

/-- The octets of a word give the word. -/
theorem assemble_octet {n : Nat} (raw : BitVec (8 * n)) :
    assemble (8 * n) (octet raw) n = raw := by
  refine BitVec.eq_of_getLsbD_eq fun j hj => ?_
  rw [getLsbD_assemble, getLsbD_octet, decide_eq_true hj,
    decide_eq_true (Nat.mod_lt j (by decide : 0 < 8)), Nat.div_add_mod]
  simp

/-- The word of the octets has these octets. -/
theorem octet_assemble {n i : Nat} (f : Nat → UInt8) (hi : i < n) :
    octet (assemble (8 * n) f n) i = f i := by
  refine UInt8.toBitVec_inj.mp (BitVec.eq_of_getLsbD_eq fun j hj => ?_)
  rw [getLsbD_octet, getLsbD_assemble, decide_eq_true hj,
    decide_eq_true (show 8 * i + j < 8 * n by omega), show (8 * i + j) / 8 = i by omega,
    show (8 * i + j) % 8 = j by omega]
  simp

/-- Only the octets that are used decide on the word. -/
theorem assemble_congr {f g : Nat → UInt8} {n : Nat} (h : ∀ i < n, f i = g i) :
    assemble w f n = assemble w g n := by
  induction n with
  | zero => rfl
  | succ n ih =>
      rw [assemble_succ, assemble_succ, ih fun i hi => h i (Nat.lt_succ_of_lt hi),
        h n (Nat.lt_succ_self n)]

end

/-! ### Writing a range -/

section
variable {α : Type}

/-- The list with `f 0` to `f (n - 1)` at the indices from `loc`. -/
def writeAt (f : Nat → α) (loc n : Nat) (xs : List α) : List α :=
  (List.range n).foldl (fun xs i => xs.set (loc + i) (f i)) xs

theorem writeAt_succ (f : Nat → α) (loc n : Nat) (xs : List α) :
    writeAt f loc (n + 1) xs = (writeAt f loc n xs).set (loc + n) (f n) := by
  unfold writeAt
  rw [List.range_succ, List.foldl_append, List.foldl_cons, List.foldl_nil]

@[simp] theorem length_writeAt (f : Nat → α) (loc n : Nat) (xs : List α) :
    (writeAt f loc n xs).length = xs.length := by
  induction n with
  | zero => rfl
  | succ n ih => rw [writeAt_succ, List.length_set, ih]

/-- A prefix is written to like the list. -/
theorem take_writeAt (f : Nat → α) (loc n : Nat) (xs : List α) (m : Nat) :
    (writeAt f loc n xs).take m = writeAt f loc n (xs.take m) := by
  induction n with
  | zero => rfl
  | succ n ih => rw [writeAt_succ, writeAt_succ, ← ih, List.take_set]

/-- Outside the range the list is as before. -/
theorem getElem?_writeAt_outside (f : Nat → α) {loc n j : Nat} (xs : List α)
    (hj : j < loc ∨ loc + n ≤ j) : (writeAt f loc n xs)[j]? = xs[j]? := by
  induction n with
  | zero => rfl
  | succ n ih =>
      rw [writeAt_succ, List.getElem?_set_ne (by omega)]
      exact ih (by omega)

/-- Inside the range it holds the written values. -/
theorem getElem?_writeAt (f : Nat → α) {loc n i : Nat} (xs : List α) (hi : i < n)
    (hin : loc + n ≤ xs.length) : (writeAt f loc n xs)[loc + i]? = some (f i) := by
  induction n with
  | zero => omega
  | succ n ih =>
      rw [writeAt_succ]
      rcases Nat.lt_succ_iff_lt_or_eq.mp hi with hlt | rfl
      · rw [List.getElem?_set_ne (by omega)]
        exact ih hlt (by omega)
      · rw [List.getElem?_set_self (by rw [length_writeAt]; omega)]

end

end ViamEthercat.Lib
