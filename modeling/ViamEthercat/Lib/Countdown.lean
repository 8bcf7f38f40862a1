import Mathlib.Algebra.Order.Floor.Semiring
import Mathlib.Algebra.Order.Field.Basic
import Mathlib.Logic.Function.Iterate
import Mathlib.Tactic.Linarith
import Mathlib.Tactic.FieldSimp
import ViamEthercat.Lib.Run

/-!
# `ViamEthercat.Lib.Countdown`: a step that uses up what is left

The rules for progress where the steps cannot be counted exactly.

* `exists_iterate_of_countdown`: each step either finishes or takes at least `dt` off a rest that
  was at least `dt`. Then the run finishes after at most `⌊left / dt⌋₊ + 1` steps.
* `runFrom_countdown`: the steps of one kind lower a number until the run is done, no step raises
  it, and at zero the run is done. Then a run with as many steps of that kind as the number is done.
* `exists_prefix_of_countdown`: the same along the runs whose steps all meet a condition, for a goal
  that the run may leave again.
-/

set_option autoImplicit false

namespace ViamEthercat.Lib

variable {K : Type} [Field K] [LinearOrder K] [IsStrictOrderedRing K] [FloorRing K] {σ : Type}

theorem exists_iterate_of_countdown (step : σ → σ) (left : σ → K) (Done : σ → Prop)
    {I : σ → Prop} {dt : K} (hdt : 0 < dt)
    (hstep : ∀ s, I s → Done (step s) ∨
      (I (step s) ∧ dt ≤ left s ∧ left (step s) ≤ left s - dt))
    {s : σ} (h0 : I s) :
    ∃ n, n ≤ ⌊left s / dt⌋₊ ∧ (∀ k, k ≤ n → I (step^[k] s)) ∧ Done (step^[n + 1] s) := by
  induction hn : ⌊left s / dt⌋₊ using Nat.strong_induction_on generalizing s with
  | _ m ih =>
      obtain hdone | ⟨hI, hmore, hfall⟩ := hstep s h0
      · refine ⟨0, Nat.zero_le _, fun k hk => ?_, hdone⟩
        rw [Nat.le_zero.mp hk]
        exact h0
      · -- one whole `dt` less is left
        have hone : 1 ≤ left s / dt := (one_le_div₀ hdt).mpr hmore
        have hless : ⌊left (step s) / dt⌋₊ + 1 ≤ m := by
          rw [← hn]
          have hquot : left (step s) / dt ≤ left s / dt - 1 := by
            rw [le_sub_iff_add_le, ← div_self hdt.ne', ← add_div]
            gcongr
            linarith
          calc ⌊left (step s) / dt⌋₊ + 1 ≤ ⌊left s / dt - 1⌋₊ + 1 := by gcongr
            _ = ⌊left s / dt⌋₊ := by
              rw [Nat.floor_sub_one, Nat.sub_add_cancel ((Nat.one_le_floor_iff _).mpr hone)]
        obtain ⟨n, hle, hinv, hdone⟩ := ih _ (Nat.lt_of_succ_le hless) hI rfl
        refine ⟨n + 1, (Nat.succ_le_succ hle).trans hless, fun k hk => ?_, hdone⟩
        cases k with
        | zero => exact h0
        | succ k => exact hinv k (Nat.succ_le_succ_iff.mp hk)

theorem runFrom_countdown {ι : Type} {step : σ → ι → σ} {I Done : σ → Prop} (left : σ → ℕ)
    (tick : ι → Bool) (hstep : ∀ s x, I s → I (step s x) ∧ left (step s x) ≤ left s)
    (htick : ∀ s x, I s → tick x = true → Done s ∨ left (step s x) < left s)
    (hzero : ∀ s, I s → left s = 0 → Done s) (hdone : ∀ s x, Done s → Done (step s x))
    {s : σ} {xs : List ι} (h0 : I s) (hlong : left s ≤ xs.countP tick) :
    Done (runFrom step s xs) := by
  have hstays {s : σ} (hs : Done s) {xs : List ι} : Done (runFrom step s xs) :=
    runFrom_induction hs hdone
  induction xs generalizing s with
  | nil => exact hzero s h0 (Nat.le_zero.mp hlong)
  | cons x xs ih =>
      obtain ⟨hI, hle⟩ := hstep s x h0
      rw [List.countP_cons] at hlong
      by_cases hx : tick x = true
      · rw [if_pos hx] at hlong
        obtain hs | hlt := htick s x h0 hx
        · exact hstays (hdone s x hs)
        · exact ih hI (by omega)
      · rw [if_neg hx] at hlong
        exact ih hI (by omega)

theorem exists_prefix_of_countdown {ι : Type} {step : σ → ι → σ} {C : σ → ι → Prop}
    (I Done : σ → Prop) (left : σ → ℕ) (tick : ι → Bool)
    (hstep : ∀ s x, I s → C s x → Done (step s x) ∨ (I (step s x) ∧ left (step s x) ≤ left s ∧
      (tick x = true → left (step s x) < left s)))
    {s : σ} {xs : List ι} (h0 : I s) (hC : AllSteps step C s xs)
    (hlong : left s < xs.countP tick) : ∃ pre, pre <+: xs ∧ Done (runFrom step s pre) := by
  induction xs generalizing s with
  | nil => simp at hlong
  | cons x xs ih =>
      obtain hdone | ⟨hI, hle, hlt⟩ := hstep s x h0 hC.1
      · exact ⟨[x], List.prefix_append [x] xs, hdone⟩
      · have hrest : left (step s x) < xs.countP tick := by
          rw [List.countP_cons] at hlong
          by_cases hx : tick x = true
          · have := hlt hx
            rw [if_pos hx] at hlong
            omega
          · rw [if_neg hx] at hlong
            omega
        obtain ⟨pre, hpre, hdone⟩ := ih hI hC.2 hrest
        exact ⟨x :: pre, List.cons_prefix_cons.mpr ⟨rfl, hpre⟩, hdone⟩

end ViamEthercat.Lib
