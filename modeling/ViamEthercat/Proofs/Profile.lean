import ViamEthercat.Wpilib.TrapezoidProfile
import Mathlib.Tactic.Linarith
import Mathlib.Tactic.Ring
import Mathlib.Tactic.FieldSimp

/-!
# `ViamEthercat.Proofs.Profile`: how far the profile moves in one sample

`calculate_displacement`: a sample of the trapezoid profile toward a goal at rest is the goal
itself, or differs from uniform motion by at most `a t² / 2`, plus the width of the
anti-chattering tie-break of `GetSign`.

The sample is three pieces of constant acceleration (`follow`). When the durations of the
first two are not negative, the bound is that of any motion whose acceleration stays within
`a` (`follow_displacement`). The durations are not negative, except within the tie-break: its
sign may be the wrong one, and the first piece then runs backward in time by less than the
tie-break allows.
-/

set_option autoImplicit false

namespace ViamEthercat.Wpilib

variable {K : Type} [Field K] [LinearOrder K]

/-- The three pieces of `Calculate`, with their durations and the first acceleration. -/
def follow (t t1 t2 t3 first acceleration : K) (current goal : State K) : State K :=
  let sample := advance (min t t1) first current
  if t > t1 then
    let t := t - t1
    let sample := advance (min t t2) 0 sample
    if t > t2 then
      let t := t - t2
      let sample := advance (min t t3) (-acceleration) sample
      if t > t3 then goal else sample
    else sample
  else sample

variable [IsStrictOrderedRing K]
variable {t t1 t2 t3 first acceleration a : K} {current goal : State K}

/-- The deviation of a sample from uniform motion. -/
def deviation (t : K) (current sample : State K) : K :=
  sample.position - (current.position + current.velocity * t)

/-- Two accelerations within `a`, each over its share of `b`. -/
theorem abs_shares_le {f g x y b : K} (hf : |f| ≤ a) (hg : |g| ≤ a) (hx : 0 ≤ x) (hy : 0 ≤ y)
    (hb : x + y ≤ b) : |f * x + g * y| ≤ a * b := by
  have ha : 0 ≤ a := (abs_nonneg f).trans hf
  calc |f * x + g * y| ≤ |f * x| + |g * y| := abs_add_le _ _
    _ = |f| * x + |g| * y := by rw [abs_mul, abs_mul, abs_of_nonneg hx, abs_of_nonneg hy]
    _ ≤ a * x + a * y := by gcongr
    _ = a * (x + y) := by ring
    _ ≤ a * b := by gcongr

/-- Pieces of nonnegative duration, with accelerations within `a`. -/
theorem follow_displacement (ht1 : 0 ≤ t1) (ht2 : 0 ≤ t2)
    (hfirst : |first| ≤ a) (hacc : |acceleration| ≤ a) :
    follow t t1 t2 t3 first acceleration current goal = goal ∨
      |deviation t current (follow t t1 t2 t3 first acceleration current goal)|
        ≤ a * (t ^ 2 / 2) := by
  have hneg : |-acceleration| ≤ a := by rwa [abs_neg]
  unfold follow deviation
  by_cases h1 : t > t1
  · simp only [h1, if_true, min_eq_right h1.le]
    by_cases h2 : t - t1 > t2
    · simp only [h2, if_true, min_eq_right h2.le]
      by_cases h3 : t - t1 - t2 > t3
      · exact .inl (if_pos h3)
      · -- All three pieces.
        right
        simp only [h3, if_false, min_eq_left (not_lt.mp h3), advance]
        have hrest : 0 ≤ t - t1 := by linarith
        have hτ : 0 ≤ t - t1 - t2 := by linarith
        have hle : (t - t1 - t2) ^ 2 ≤ (t - t1) ^ 2 := pow_le_pow_left₀ hτ (by linarith) 2
        have hsum : t1 ^ 2 / 2 + t1 * (t - t1) + (t - t1) ^ 2 / 2 = t ^ 2 / 2 := by ring
        have hshares := abs_shares_le (x := t1 ^ 2 / 2 + t1 * (t - t1))
          (y := (t - t1 - t2) ^ 2 / 2) (b := t ^ 2 / 2) hfirst hneg (by positivity)
          (by positivity) (by linarith)
        convert hshares using 2
        ring
    · right
      simp only [h2, if_false, min_eq_left (not_lt.mp h2), advance]
      -- The sample lies in the cruise, which adds nothing to the deviation.
      have hrest : 0 ≤ t - t1 := by linarith
      have hsq : 0 ≤ (t - t1) ^ 2 := sq_nonneg _
      have hsum : t1 ^ 2 / 2 + t1 * (t - t1) + (t - t1) ^ 2 / 2 = t ^ 2 / 2 := by ring
      have hshares := abs_shares_le (x := t1 ^ 2 / 2 + t1 * (t - t1)) (y := 0)
        (b := t ^ 2 / 2) hfirst hneg (by positivity) le_rfl (by linarith)
      convert hshares using 2
      ring
  · right
    simp only [h1, if_false, min_eq_left (not_lt.mp h1), advance]
    -- The sample lies in the first piece.
    have hshares := abs_shares_le (x := t ^ 2 / 2) (y := 0) (b := t ^ 2 / 2) hfirst hneg
      (by positivity) le_rfl (by simp)
    convert hshares using 2
    ring

/-- A first piece that runs backward in time, at the acceleration of the last one: the two
are one parabola. -/
theorem follow_back_same (ht : 0 ≤ t) (ht1 : t1 < 0) (hacc : |acceleration| ≤ a) :
    follow t t1 0 t3 (-acceleration) acceleration current goal = goal ∨
      |deviation t current (follow t t1 0 t3 (-acceleration) acceleration current goal)|
        ≤ a * (t ^ 2 / 2) := by
  have hneg : |-acceleration| ≤ a := by rwa [abs_neg]
  have h1 : t > t1 := by linarith
  have h2 : t - t1 > 0 := by linarith
  unfold follow deviation
  simp only [h1, h2, if_true, min_eq_right h1.le, min_eq_right h2.le]
  by_cases h3 : t - t1 - 0 > t3
  · exact .inl (if_pos h3)
  · right
    simp only [h3, if_false, min_eq_left (not_lt.mp h3), advance]
    have hshares := abs_shares_le (x := t ^ 2 / 2) (y := 0) (b := t ^ 2 / 2) hneg hneg
      (by positivity) le_rfl (by simp)
    convert hshares using 2
    ring

/-- A first piece that runs backward in time, against the last one. It is short: the peak
velocity `peak` of the profile is below the current one by less than the tie-break `e`. -/
theorem follow_back_tie {peak e : K} (ha : 0 < a) (ht : 0 ≤ t)
    (ht1 : t1 = (peak - current.velocity) / a) (ht3 : t3 = peak / a)
    (hlt : peak < current.velocity)
    (htie : current.velocity * current.velocity - peak * peak < a * e) :
    follow t t1 0 t3 a a current goal = goal ∨
      |deviation t current (follow t t1 0 t3 a a current goal)| ≤ a * (t ^ 2 / 2) + e := by
  -- `u` is the time that the first piece runs backward.
  obtain ⟨u, hu⟩ : ∃ u, u = -t1 := ⟨_, rfl⟩
  have hu' : a * u = current.velocity - peak := by
    rw [hu, ht1]
    field_simp
    ring
  have hu0 : 0 < u := by
    have hpos : 0 < a * u := by
      rw [hu']
      linarith
    exact (mul_pos_iff_of_pos_left ha).mp hpos
  have ht1' : t1 = -u := by rw [hu, neg_neg]
  have h1 : t > t1 := by linarith
  have h2 : t - t1 > 0 := by linarith
  unfold follow deviation
  simp only [h1, h2, if_true, min_eq_right h1.le, min_eq_right h2.le]
  by_cases h3 : t - t1 - 0 > t3
  · exact .inl (if_pos h3)
  · right
    simp only [h3, if_false, min_eq_left (not_lt.mp h3), advance]
    have hend : a * (t + u) ≤ peak := by
      have : t + u ≤ peak / a := by
        rw [ht3, ht1'] at h3
        linarith
      rwa [le_div_iff₀' ha] at this
    -- The backward piece costs `2 a u t + a u²`, at most `2 u peak`.
    have hcost : 2 * (a * u) * (t + u) ≤ e := by
      have hsplit : a * (u * (current.velocity + peak)) < a * e :=
        calc a * (u * (current.velocity + peak))
          _ = (current.velocity - peak) * (current.velocity + peak) := by rw [← mul_assoc, hu']
          _ = current.velocity * current.velocity - peak * peak := by ring
          _ < a * e := htie
      have hshort : u * (current.velocity + peak) < e := lt_of_mul_lt_mul_left hsplit ha.le
      calc 2 * (a * u) * (t + u)
        _ = 2 * u * (a * (t + u)) := by ring
        _ ≤ 2 * u * peak := by gcongr
        _ = u * (peak + peak) := by ring
        _ ≤ u * (current.velocity + peak) := by gcongr
        _ ≤ e := hshort.le
    have hdev : current.position + (current.velocity * t1 + a / 2 * t1 * t1) +
        ((current.velocity + a * t1) * 0 + 0 / 2 * 0 * 0) +
        ((current.velocity + a * t1 + 0 * 0) * (t - t1 - 0) +
          -a / 2 * (t - t1 - 0) * (t - t1 - 0)) - (current.position + current.velocity * t)
        = -(a * (t ^ 2 / 2) + 2 * (a * u) * t + a * u * u) := by
      rw [ht1']
      ring
    have hback : 0 ≤ a * u * u := by positivity
    rw [hdev, abs_neg, abs_of_nonneg (by positivity)]
    linarith

/-! ### The timing of a profile toward a goal at rest -/

section
variable {sqrt : K → K} (hnonneg : ∀ x, 0 ≤ sqrt x) (hsquare : ∀ x, 0 ≤ x → sqrt x * sqrt x = x)
variable {c : Constraints K} (hv : 0 < c.maxVelocity) (ha : 0 < c.maxAcceleration)

theorem getSign_cases (c : Constraints K) (current goal : State K) :
    getSign c current goal = 1 ∨ getSign c current goal = -1 := by
  unfold getSign copysign
  dsimp only
  split_ifs <;> simp

/-- The sign is that of the way to the stopping point, except within the tie-break, where it
is positive for a goal at rest. -/
theorem getSign_tie {x : K} (hlt : getSign c current ⟨x, 0⟩ * (x - current.position)
      < getSign c current ⟨x, 0⟩ *
        (|current.velocity| * current.velocity / (2 * c.maxAcceleration))) :
    getSign c current ⟨x, 0⟩ = 1 ∧
      |current.velocity| * current.velocity / (2 * c.maxAcceleration) - (x - current.position)
        < 1 / 10 ^ 12 := by
  have hd : |0 - current.velocity| * (0 + current.velocity) / (2 * c.maxAcceleration)
      = |current.velocity| * current.velocity / (2 * c.maxAcceleration) := by
    rw [zero_sub, abs_neg, zero_add]
  unfold getSign copysign at hlt ⊢
  simp only [hd] at hlt ⊢
  split_ifs at hlt ⊢ with htie hzero hgt
  · exact absurd hzero (lt_irrefl 0)
  · exact ⟨by simp, by linarith [(abs_lt.mp htie).1]⟩
  · linarith
  · linarith

include hnonneg hsquare hv ha in
/-- The durations of a profile from a state within the constraints: a cruise with
nonnegative durations, or none, with the peak velocity `peak`. -/
theorem generateProfile_cases {sign x : K} (hsign : sign = 1 ∨ sign = -1)
    (hcurrent : |current.velocity| ≤ c.maxVelocity) :
    let timing := generateProfile sqrt c sign current ⟨x, 0⟩
    (0 ≤ timing.t1 ∧ 0 ≤ timing.t2) ∨
      (∃ peak, 0 ≤ peak ∧
        peak * peak = max (sign * c.maxAcceleration * (x - current.position)
          + current.velocity * current.velocity / 2) 0 ∧
        timing = ⟨(peak - sign * current.velocity) / c.maxAcceleration, 0,
          peak / c.maxAcceleration⟩) := by
  obtain ⟨peak, hpeak⟩ : ∃ peak, peak = sqrt (max (sign * c.maxAcceleration *
    (x - current.position) + (0 * 0 + current.velocity * current.velocity) / 2) 0) := ⟨_, rfl⟩
  have hpeak0 : 0 ≤ peak := hpeak ▸ hnonneg _
  have hpeaksq : peak * peak = max (sign * c.maxAcceleration * (x - current.position)
      + current.velocity * current.velocity / 2) 0 := by
    rw [hpeak, hsquare _ (le_max_right _ _)]
    congr 2
    ring
  have hsq : sign * sign = 1 := by rcases hsign with rfl | rfl <;> ring
  obtain ⟨hlo, hhi⟩ := abs_le.mp hcurrent
  intro timing
  by_cases hcruise : sign * (sign * peak) > c.maxVelocity
  · left
    have htiming : timing = ⟨(sign * c.maxVelocity - current.velocity)
          / (sign * c.maxAcceleration),
        (x - current.position
          - (sign * c.maxVelocity * (sign * c.maxVelocity)
            - current.velocity * current.velocity) / (2 * (sign * c.maxAcceleration))
          - (sign * c.maxVelocity * (sign * c.maxVelocity) - 0 * 0)
            / (2 * (sign * c.maxAcceleration))) / (sign * c.maxVelocity),
        (sign * c.maxVelocity - 0) / (sign * c.maxAcceleration)⟩ := if_pos (hpeak ▸ hcruise)
    -- Above the limit the way left for the cruise is positive.
    have hgt : c.maxVelocity < peak := by
      rw [← mul_assoc, hsq, one_mul] at hcruise
      exact hcruise
    -- The maximum with zero is not the zero, since the peak is positive.
    have hX : c.maxVelocity * c.maxVelocity < sign * c.maxAcceleration *
        (x - current.position) + current.velocity * current.velocity / 2 := by
      have hpos : 0 < peak := hv.trans hgt
      rcases max_choice (sign * c.maxAcceleration * (x - current.position)
        + current.velocity * current.velocity / 2) 0 with h | h
      · rw [h] at hpeaksq
        rw [← hpeaksq]
        exact mul_self_lt_mul_self hv.le hgt
      · rw [h] at hpeaksq
        exact absurd hpeaksq (mul_pos hpos hpos).ne'
    -- With the sign multiplied out, the two durations are visibly not negative.
    have ht1 : timing.t1 = (c.maxVelocity - sign * current.velocity) / c.maxAcceleration := by
      rw [htiming]
      rcases hsign with rfl | rfl
      · simp
      · field_simp
        ring
    have ht2 : timing.t2 = (sign * c.maxAcceleration * (x - current.position)
        + current.velocity * current.velocity / 2 - c.maxVelocity * c.maxVelocity)
        / (c.maxAcceleration * c.maxVelocity) := by
      rw [htiming]
      rcases hsign with rfl | rfl <;> field_simp <;> ring
    rw [ht1, ht2]
    refine ⟨div_nonneg ?_ ha.le, div_nonneg (by linarith) (by positivity)⟩
    rcases hsign with rfl | rfl <;> linarith
  · right
    refine ⟨peak, hpeak0, hpeaksq, ?_⟩
    have htiming : timing = ⟨(sign * peak - current.velocity) / (sign * c.maxAcceleration), 0,
        (sign * peak - 0) / (sign * c.maxAcceleration)⟩ := by
      rw [hpeak]
      exact if_neg (hpeak ▸ hcruise)
    rw [htiming]
    rcases hsign with rfl | rfl
    · simp
    · simp [div_neg, ← neg_div, sub_eq_add_neg, add_comm]

include ha in
/-- A profile without cruise whose peak is below the current velocity is within the
tie-break. -/
theorem peak_tie {peak x : K} (hpeak : 0 ≤ peak)
    (hsq : peak * peak = max (getSign c current ⟨x, 0⟩ * c.maxAcceleration *
      (x - current.position) + current.velocity * current.velocity / 2) 0)
    (hlt : peak < getSign c current ⟨x, 0⟩ * current.velocity) :
    getSign c current ⟨x, 0⟩ = 1 ∧
      current.velocity * current.velocity - peak * peak
        < c.maxAcceleration * (1 / 10 ^ 12) := by
  have hX := hsq ▸ le_max_left (getSign c current ⟨x, 0⟩ * c.maxAcceleration *
    (x - current.position) + current.velocity * current.velocity / 2) 0
  have hsign := getSign_cases c current ⟨x, 0⟩
  -- The peak is not negative, so the motion is in the direction of the sign.
  have habs : getSign c current ⟨x, 0⟩ * current.velocity = |current.velocity| := by
    rcases hsign with h | h <;> rw [h] at hlt ⊢
    · rw [one_mul] at hlt ⊢
      exact (abs_of_pos (by linarith)).symm
    · rw [neg_one_mul] at hlt ⊢
      exact (abs_of_neg (by linarith)).symm
  have hvv : |current.velocity| * |current.velocity| = current.velocity * current.velocity :=
    abs_mul_abs_self _
  -- The way left is shorter than the stopping distance: only the tie-break allows it.
  have hway : getSign c current ⟨x, 0⟩ * (x - current.position) < getSign c current ⟨x, 0⟩ *
      (|current.velocity| * current.velocity / (2 * c.maxAcceleration)) := by
    have hd : getSign c current ⟨x, 0⟩ *
        (|current.velocity| * current.velocity / (2 * c.maxAcceleration))
        = current.velocity * current.velocity / (2 * c.maxAcceleration) := by
      rw [← hvv, ← habs]
      ring
    rw [hd, lt_div_iff₀ (by positivity)]
    rw [habs] at hlt
    nlinarith
  obtain ⟨hone, hclose⟩ := getSign_tie hway
  refine ⟨hone, ?_⟩
  rw [hone] at hX habs
  rw [← habs, one_mul] at hclose
  have : current.velocity * current.velocity / 2 - c.maxAcceleration * (x - current.position)
      = c.maxAcceleration * (current.velocity * current.velocity / (2 * c.maxAcceleration)
        - (x - current.position)) := by
    field_simp
  nlinarith

include hv in
/-- From a state within the constraints there is no recovery. -/
theorem calculate_within (x : K) (h : |current.velocity| ≤ c.maxVelocity) :
    calculate sqrt c t current ⟨x, 0⟩ =
      let sign := getSign c current ⟨x, 0⟩
      let timing := generateProfile sqrt c sign current ⟨x, 0⟩
      follow t timing.t1 timing.t2 timing.t3 (sign * c.maxAcceleration)
        (sign * c.maxAcceleration) current ⟨x, 0⟩ := by
  have hadjust : adjustStates c current ⟨x, 0⟩ = (0, current, ⟨x, 0⟩) := by
    have hgoal : ¬ |(0 : K)| > c.maxVelocity := by
      rw [abs_zero]
      exact not_lt.mpr hv.le
    simp only [adjustStates, hgoal, if_false, gt_iff_lt, sub_pos, not_lt.mpr h]
  unfold calculate follow
  simp only [hadjust, gt_iff_lt, lt_irrefl, false_and, if_false, add_zero]

include hv in
/-- From a state beyond the velocity limit the first piece is longer by the recovery. -/
theorem calculate_beyond (sqrt : K → K) (x : K) (h : c.maxVelocity < |current.velocity|) :
    ∃ y, calculate sqrt c t current ⟨x, 0⟩ =
      let recoveryTime := (|current.velocity| - c.maxVelocity) / c.maxAcceleration
      let adjusted : State K := ⟨y, copysign c.maxVelocity current.velocity⟩
      let sign := getSign c adjusted ⟨x, 0⟩
      let timing := generateProfile sqrt c sign adjusted ⟨x, 0⟩
      follow t (timing.t1 + recoveryTime) timing.t2 timing.t3
        (if recoveryTime > 0 ∧ current.velocity * sign > 0 then -(sign * c.maxAcceleration)
          else sign * c.maxAcceleration)
        (sign * c.maxAcceleration) current ⟨x, 0⟩ := by
  have hgoal : ¬ |(0 : K)| > c.maxVelocity := by
    rw [abs_zero]
    exact not_lt.mpr hv.le
  let recoveryTime := (|current.velocity| - c.maxVelocity) / c.maxAcceleration
  refine ⟨current.position + (current.velocity * recoveryTime
    + copysign c.maxAcceleration (-current.velocity) * recoveryTime * recoveryTime / 2), ?_⟩
  unfold calculate follow
  simp only [adjustStates, hgoal, if_false, gt_iff_lt, sub_pos, h, if_true, recoveryTime]

include hnonneg hsquare hv ha in
/-- A sample toward a goal at rest is the goal, or differs from uniform motion by at most
`a t² / 2` and the width of the tie-break. -/
theorem calculate_displacement (ht : 0 ≤ t) (x : K) :
    calculate sqrt c t current ⟨x, 0⟩ = ⟨x, 0⟩ ∨
      |deviation t current (calculate sqrt c t current ⟨x, 0⟩)|
        ≤ c.maxAcceleration * (t ^ 2 / 2) + 1 / 10 ^ 12 := by
  have hwiden {s : State K} (h : s = ⟨x, 0⟩ ∨
      |deviation t current s| ≤ c.maxAcceleration * (t ^ 2 / 2)) :
      s = ⟨x, 0⟩ ∨
        |deviation t current s| ≤ c.maxAcceleration * (t ^ 2 / 2) + 1 / 10 ^ 12 :=
    h.imp_right fun h => h.trans (le_add_of_nonneg_right (by positivity))
  -- Both accelerations of a profile are the limit, in one direction or the other.
  have hacc {sign : K} (h : sign = 1 ∨ sign = -1) :
      |sign * c.maxAcceleration| ≤ c.maxAcceleration := by
    rcases h with rfl | rfl <;> simp [abs_of_pos ha]
  by_cases hwithin : |current.velocity| ≤ c.maxVelocity
  · rw [calculate_within hv x hwithin]
    dsimp only
    have hsign := getSign_cases c current ⟨x, 0⟩
    rcases generateProfile_cases hnonneg hsquare hv ha (x := x) hsign hwithin with
      ⟨ht1, ht2⟩ | ⟨peak, hpeak, hsq, htiming⟩
    · exact hwiden (follow_displacement ht1 ht2 (hacc hsign) (hacc hsign))
    · rw [htiming]
      dsimp only
      by_cases hlt : peak < getSign c current ⟨x, 0⟩ * current.velocity
      · obtain ⟨hone, htie⟩ := peak_tie ha hpeak hsq hlt
        rw [hone, one_mul] at hlt
        rw [hone, one_mul, one_mul]
        exact follow_back_tie ha ht rfl rfl hlt htie
      · exact hwiden (follow_displacement (div_nonneg (by linarith) ha.le) le_rfl
          (hacc hsign) (hacc hsign))
  · obtain ⟨y, hy⟩ := calculate_beyond (t := t) hv sqrt x (not_le.mp hwithin)
    have hrec : 0 < (|current.velocity| - c.maxVelocity) / c.maxAcceleration :=
      div_pos (by linarith) ha
    have hadjusted : |(⟨y, copysign c.maxVelocity current.velocity⟩ : State K).velocity|
        ≤ c.maxVelocity := by
      unfold copysign
      split_ifs <;> simp [abs_of_pos hv]
    have hsign := getSign_cases c ⟨y, copysign c.maxVelocity current.velocity⟩ ⟨x, 0⟩
    rw [hy]
    dsimp only
    -- Beyond the limit the sign is not needed, only that it is one.
    generalize getSign c ⟨y, copysign c.maxVelocity current.velocity⟩ ⟨x, 0⟩ = sign at hsign
    refine hwiden ?_
    have hfirst : |if (|current.velocity| - c.maxVelocity) / c.maxAcceleration > 0 ∧
        current.velocity * sign > 0 then -(sign * c.maxAcceleration)
        else sign * c.maxAcceleration| ≤ c.maxAcceleration := by
      split_ifs
      · rw [abs_neg]
        exact hacc hsign
      · exact hacc hsign
    rcases generateProfile_cases hnonneg hsquare hv ha (x := x) hsign hadjusted with
      ⟨ht1, ht2⟩ | ⟨peak, hpeak, -, htiming⟩
    · exact follow_displacement (by linarith) ht2 hfirst (hacc hsign)
    · rw [htiming]
      dsimp only
      by_cases hback : (peak - sign * copysign c.maxVelocity current.velocity)
          / c.maxAcceleration + (|current.velocity| - c.maxVelocity) / c.maxAcceleration < 0
      · -- Only a profile in the direction of the motion is shorter than the recovery.
        have hdir : current.velocity * sign > 0 := by
          have hneg : peak - sign * copysign c.maxVelocity current.velocity < 0 := by
            by_contra h
            linarith [div_nonneg (not_lt.mp h) ha.le]
          unfold copysign at hneg
          rw [abs_of_pos hv] at hneg
          split_ifs at hneg with hv0 <;> rcases hsign with rfl | rfl
          · linarith
          · linarith
          · have : current.velocity ≠ 0 := by
              intro h0
              rw [h0, abs_zero] at hwithin
              exact hwithin hv.le
            simpa using lt_of_le_of_ne (not_lt.mp hv0) this.symm
          · linarith
        rw [if_pos ⟨hrec, hdir⟩]
        exact follow_back_same ht hback (hacc hsign)
      · exact follow_displacement (not_lt.mp hback) le_rfl hfirst (hacc hsign)

end

end ViamEthercat.Wpilib
