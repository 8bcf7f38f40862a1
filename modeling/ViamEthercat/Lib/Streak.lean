import Mathlib.Data.List.DropRight
import Mathlib.Data.Nat.Find

/-!
# `ViamEthercat.Lib.Streak`: consecutive elements of a list

A counter that is raised by a good element and cleared by a bad one holds the length of the
trailing streak of good elements. `Streak p xs i n` says that the `n` elements of `xs` from
index `i` on all satisfy `p`.

* `trailing_concat`: one more element raises the trailing streak or clears it.
* `le_trailing_iff`: the trailing streak is at least `n` long if and only if the last `n`
  elements are a streak.
* `exists_streak_concat`: one more element makes a streak only as its last element.
* `exists_firstStreakEnd_iff`: among the streaks that end in time there is a first one.
-/

set_option autoImplicit false

namespace ViamEthercat.Lib

variable {α : Type} {p : α → Bool} {xs : List α} {x : α} {i n : Nat}

/-- The length of the longest suffix whose elements all satisfy `p`. -/
def trailing (p : α → Bool) (xs : List α) : Nat := (xs.rtakeWhile p).length

/-- The `n` elements from index `i` on are there and all satisfy `p`. -/
def Streak (p : α → Bool) (xs : List α) (i n : Nat) : Prop :=
  i + n ≤ xs.length ∧ ∀ j x, i ≤ j → j < i + n → xs[j]? = some x → p x = true

@[simp] theorem trailing_nil : trailing p [] = 0 := by simp [trailing]

theorem trailing_concat :
    trailing p (xs ++ [x]) = if p x then trailing p xs + 1 else 0 := by
  unfold trailing
  rw [List.rtakeWhile_concat]
  split_ifs <;> simp

theorem trailing_le_length : trailing p xs ≤ xs.length :=
  (List.rtakeWhile_suffix p xs).length_le

/-- A streak of `n` elements and one more is a streak of `n + 1`. -/
theorem streak_concat_succ (h : i + n = xs.length) :
    Streak p (xs ++ [x]) i (n + 1) ↔ Streak p xs i n ∧ p x = true := by
  constructor
  · rintro ⟨-, hall⟩
    refine ⟨⟨h.le, fun j y hj hlt hy => ?_⟩, ?_⟩
    · exact hall j y hj (by omega) (by rw [List.getElem?_append_left (by omega)]; exact hy)
    · exact hall xs.length x (by omega) (by omega) (by simp)
  · rintro ⟨⟨-, hall⟩, hx⟩
    refine ⟨by simp; omega, fun j y hj hlt hy => ?_⟩
    -- The element is the new one, or one of the old streak.
    by_cases hlast : j = xs.length
    · subst hlast
      simp only [List.getElem?_concat_length, Option.some.injEq] at hy
      exact hy ▸ hx
    · rw [List.getElem?_append_left (by omega)] at hy
      exact hall j y hj (by omega) hy

/-- A streak that ends before the new element is one of the old list. -/
theorem streak_concat_of_le (h : i + n ≤ xs.length) :
    Streak p (xs ++ [x]) i n ↔ Streak p xs i n := by
  constructor
  · rintro ⟨-, hall⟩
    refine ⟨h, fun j y hj hlt hy => hall j y hj hlt ?_⟩
    rw [List.getElem?_append_left (by omega)]
    exact hy
  · rintro ⟨-, hall⟩
    refine ⟨by simp; omega, fun j y hj hlt hy => hall j y hj hlt ?_⟩
    rwa [List.getElem?_append_left (by omega)] at hy

/-- The trailing streak is at least `n` long if and only if the last `n` elements are a
streak. -/
theorem le_trailing_iff : n ≤ trailing p xs ↔ ∃ i, i + n = xs.length ∧ Streak p xs i n := by
  induction xs using List.reverseRecOn generalizing n with
  | nil =>
      rw [trailing_nil]
      constructor
      · intro h
        exact ⟨0, by simpa using h, by simpa using h, fun j x _ _ hx => by simp at hx⟩
      · rintro ⟨i, hi, -⟩
        simp only [List.length_nil] at hi
        omega
  | append_singleton xs x ih =>
      rw [trailing_concat, List.length_append, List.length_singleton]
      cases n with
      | zero =>
          refine iff_of_true (Nat.zero_le _) ⟨xs.length + 1, rfl, by simp, ?_⟩
          intro j y hj hlt
          omega
      | succ n =>
          -- The last of the `n + 1` elements is the new one.
          have hstreak : (∃ i, i + (n + 1) = xs.length + 1 ∧ Streak p (xs ++ [x]) i (n + 1)) ↔
              n ≤ trailing p xs ∧ p x = true := by
            rw [ih]
            constructor
            · rintro ⟨i, hi, hs⟩
              obtain ⟨hs, hx⟩ := (streak_concat_succ (by omega)).mp hs
              exact ⟨⟨i, by omega, hs⟩, hx⟩
            · rintro ⟨⟨i, hi, hs⟩, hx⟩
              exact ⟨i, by omega, (streak_concat_succ hi).mpr ⟨hs, hx⟩⟩
          rw [hstreak]
          cases p x <;> simp

/-- One more element makes a streak only as its last one. `Q` is about the index after the
streak. -/
theorem exists_streak_concat {Q : Nat → Prop} :
    (∃ i, Q (i + n) ∧ Streak p (xs ++ [x]) i n) ↔
      (∃ i, Q (i + n) ∧ Streak p xs i n) ∨
        (Q (xs.length + 1) ∧ n ≤ trailing p (xs ++ [x])) := by
  rw [le_trailing_iff, List.length_append, List.length_singleton]
  constructor
  · rintro ⟨i, hq, hs⟩
    have hlen : i + n ≤ xs.length + 1 := by simpa using hs.1
    by_cases hend : i + n = xs.length + 1
    · exact .inr ⟨hend ▸ hq, i, hend, hs⟩
    · exact .inl ⟨i, hq, (streak_concat_of_le (by omega)).mp hs⟩
  · rintro (⟨i, hq, hs⟩ | ⟨hq, i, hend, hs⟩)
    · exact ⟨i, hq, (streak_concat_of_le hs.1).mpr hs⟩
    · exact ⟨i, hend ▸ hq, hs⟩

/-- `j` elements are the fewest that end with `n` consecutive ones that satisfy `p`. -/
def FirstStreakEnd (p : α → Bool) (xs : List α) (n j : Nat) : Prop :=
  (∃ i, i + n = j ∧ Streak p xs i n) ∧ ∀ i, Streak p xs i n → j ≤ i + n

/-- A streak ends within a bound if and only if the first one does. -/
theorem exists_firstStreakEnd_iff {b : Nat} :
    (∃ j, j ≤ b ∧ FirstStreakEnd p xs n j) ↔ ∃ i, i + n ≤ b ∧ Streak p xs i n := by
  constructor
  · rintro ⟨j, hj, ⟨i, rfl, hs⟩, -⟩
    exact ⟨i, hj, hs⟩
  · rintro ⟨i, hi, hs⟩
    -- The least start of a streak gives the first end.
    classical
    have hex : ∃ i, Streak p xs i n := ⟨i, hs⟩
    refine ⟨Nat.find hex + n, ?_, ⟨Nat.find hex, rfl, Nat.find_spec hex⟩, fun k hk => ?_⟩
    · have := Nat.find_min' hex hs
      omega
    · have := Nat.find_min' hex hk
      omega

end ViamEthercat.Lib
