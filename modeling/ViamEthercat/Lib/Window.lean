import Mathlib.Data.List.DropRight
import Mathlib.Data.List.Rotate
import Mathlib.Algebra.Order.Group.Int

/-!
# `ViamEthercat.Lib.Window`: a ring buffer as a window, and the spread of a window

A ring buffer is a list and an index. Rotated to its index it reads from its oldest entry on:
writing at the index and moving it on drops the oldest entry and appends the new one
(`rotate_set_succ`), as a window over the entries written does (`rtake_concat`). So a ring of `n`
holds the last `n` of what was written, in some order.

`spread` is the difference of the maximum and the minimum of a list of integers. It does not
depend on the order (`spread_perm`).
-/

set_option autoImplicit false

namespace ViamEthercat.Lib

variable {α : Type}

/-- Writing into a ring at its index, and moving the index on. -/
theorem rotate_set_succ {l : List α} {i : ℕ} (hi : i < l.length) (x : α) :
    (l.set i x).rotate ((i + 1) % l.length) = (l.rotate i).tail ++ [x] := by
  have hlength : (l.take i ++ [x]).length = i + 1 := by
    rw [List.length_append, List.length_take_of_le hi.le, List.length_singleton]
  have hset : l.set i x = (l.take i ++ [x]) ++ l.drop (i + 1) := by
    rw [List.set_eq_take_append_cons_drop, if_pos hi, List.append_assoc, List.singleton_append]
  have hmod : (l.set i x).rotate ((i + 1) % l.length) = (l.set i x).rotate (i + 1) := by
    have h := (l.set i x).rotate_mod (i + 1)
    rwa [List.length_set] at h
  have hold : (l.rotate i).tail = l.drop (i + 1) ++ l.take i := by
    rw [List.rotate_eq_drop_append_take hi.le, List.drop_eq_getElem_cons hi, List.cons_append,
      List.tail_cons]
  rw [hmod, hset, hold, ← hlength, List.rotate_append_length_eq, List.append_assoc]

/-- The last `n` entries, after one more. -/
theorem rtake_concat {l : List α} {n : ℕ} (hn : 0 < n) (hl : n ≤ l.length) (x : α) :
    (l ++ [x]).rtake n = (l.rtake n).tail ++ [x] := by
  obtain ⟨m, rfl⟩ := Nat.exists_eq_succ_of_ne_zero hn.ne'
  rw [List.rtake_concat_succ]
  unfold List.rtake
  rw [List.tail_drop]
  congr 2
  omega

/-- The last `n` entries do not reach before the last `n`. -/
theorem rtake_append_of_le (l : List α) {xs : List α} {n : ℕ} (h : n ≤ xs.length) :
    (l ++ xs).rtake n = xs.rtake n := by
  unfold List.rtake
  rw [List.length_append, Nat.add_sub_assoc h, List.drop_length_add_append]

theorem length_rtake {l : List α} {n : ℕ} (h : n ≤ l.length) : (l.rtake n).length = n := by
  unfold List.rtake
  rw [List.length_drop]
  omega

/-- The maximum less the minimum. -/
def spread (xs : List Int) : Int := xs.max?.getD 0 - xs.min?.getD 0

/-- The spread of a list with entries is the difference of two of them, which bound the others. -/
theorem spread_spec {xs : List Int} (hne : xs ≠ []) :
    ∃ hi ∈ xs, ∃ lo ∈ xs, spread xs = hi - lo ∧ ∀ x ∈ xs, lo ≤ x ∧ x ≤ hi := by
  obtain ⟨x, xs, rfl⟩ := List.exists_cons_of_ne_nil hne
  have hfoldmax : (x :: xs).max? = some (xs.foldl max x) := List.max?_cons'
  have hfoldmin : (x :: xs).min? = some (xs.foldl min x) := List.min?_cons'
  obtain ⟨hmax, hle⟩ := List.max?_eq_some_iff.mp hfoldmax
  obtain ⟨hmin, hge⟩ := List.min?_eq_some_iff.mp hfoldmin
  exact ⟨_, hmax, _, hmin, rfl, fun y hy => ⟨hge y hy, hle y hy⟩⟩

theorem spread_nonneg (xs : List Int) : 0 ≤ spread xs := by
  by_cases hne : xs = []
  · rw [hne]
    decide
  · obtain ⟨hi, hhi, lo, -, hspread, hbounds⟩ := spread_spec hne
    have := (hbounds hi hhi).1
    omega

/-- The order of the entries does not matter. -/
theorem spread_perm {xs ys : List Int} (h : xs.Perm ys) : spread xs = spread ys := by
  by_cases hne : xs = []
  · subst hne
    rw [h.nil_eq]
  · obtain ⟨hi, hhi, lo, hlo, hspread, hbounds⟩ := spread_spec hne
    obtain ⟨hi', hhi', lo', hlo', hspread', hbounds'⟩ :=
      spread_spec (fun hnil : ys = [] => hne (h.trans (hnil ▸ .refl _)).eq_nil)
    have h1 := hbounds' hi (h.mem_iff.mp hhi)
    have h2 := hbounds' lo (h.mem_iff.mp hlo)
    have h3 := hbounds hi' (h.mem_iff.mpr hhi')
    have h4 := hbounds lo' (h.mem_iff.mpr hlo')
    omega

end ViamEthercat.Lib
