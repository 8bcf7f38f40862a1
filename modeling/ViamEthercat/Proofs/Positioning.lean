import ViamEthercat.Lib.Approach
import ViamEthercat.Proofs.Profile

/-!
# `ViamEthercat.Proofs.Positioning`: the profile, planned anew every cycle, still lands

`Calculate` plans from the state that it is given. A generator calls it once a cycle, from the state
that the last call returned, so the profile that it follows is planned anew each time.

* `calculate_lands`: one call gives the goal itself when the planned time is over, and else a state
  from which no more time is planned than what was left. The speed does not pass the limit.
* `calculate_approaching`: from a state that can still stop on the goal, a call goes nearer, not past
  it, within both limits, to such a state.

The state, seen from the goal in the direction of the profile (`toward`), is an `Approach`, and a
call takes it along its way. The one exception is the tie-break of `GetSign`: there the profile
toward a goal at rest is planned in the positive direction, which may be the wrong one. It then only
brakes, and what the state is ahead of the goal, less than the tie-break, is kept (`Tie`).
-/

set_option autoImplicit false

namespace ViamEthercat.Wpilib

open Lib

variable {K : Type} [Field K] [LinearOrder K]

/-- A state, seen from the goal `x` in the direction `sign`. -/
def toward (sign x : K) (s : State K) : Approach K := ⟨sign * (x - s.position), sign * s.velocity⟩

/-- The width of the tie-break. -/
def tieWidth : K := 1 / 10 ^ 12

/-- `d` of `GetSign`: the way that the state needs to stop in. -/
def stopWay (c : Constraints K) (s : State K) : K :=
  |s.velocity| * s.velocity / (2 * c.maxAcceleration)

variable [IsStrictOrderedRing K]

theorem getSign_eq (c : Constraints K) (s : State K) (x : K) :
    getSign c s ⟨x, 0⟩ = if |x - s.position - stopWay c s| < tieWidth then 1
      else if x - s.position > stopWay c s then 1 else -1 := by
  have hd : |0 - s.velocity| * (0 + s.velocity) / (2 * c.maxAcceleration) = stopWay c s := by
    rw [zero_sub, abs_neg, zero_add, stopWay]
  simp only [getSign, copysign, hd, lt_irrefl, if_false, abs_one]
  rfl

section
variable {sign x f t : K} {s : State K}

theorem toward_advance (hsign : sign = 1 ∨ sign = -1) :
    toward sign x (advance t (sign * f) s) = (toward sign x s).move f t := by
  simp only [toward, advance, Approach.move, Approach.mk.injEq]
  obtain rfl | rfl := hsign
  · exact ⟨by ring, by ring⟩
  · exact ⟨by ring, by ring⟩

omit [IsStrictOrderedRing K] in
theorem toward_abs_speed (hsign : sign = 1 ∨ sign = -1) :
    |(toward sign x s).speed| = |s.velocity| := by
  obtain rfl | rfl := hsign <;> simp [toward]

end

/-! ### The plan -/

section
variable {sqrt : K → K} (hnonneg : ∀ x, 0 ≤ sqrt x) (hsquare : ∀ x, 0 ≤ x → sqrt x * sqrt x = x)
variable {c : Constraints K} (hv : 0 < c.maxVelocity) (ha : 0 < c.maxAcceleration)
variable {sign x t : K} {s : State K}

include hnonneg hsquare hv ha in
/-- `GenerateProfile` plans the way with the top speed. -/
theorem generateProfile_top (hsign : sign = 1 ∨ sign = -1) :
    let m := toward sign x s
    ∃ p, m.Top c.maxAcceleration c.maxVelocity p ∧
      generateProfile sqrt c sign s ⟨x, 0⟩ = ⟨(p - m.speed) / c.maxAcceleration,
        (max (m.turnSq c.maxAcceleration) 0 - p * p) / (c.maxAcceleration * p),
        p / c.maxAcceleration⟩ := by
  intro m
  have hturn : max (sign * c.maxAcceleration * (x - s.position) +
      (0 * 0 + s.velocity * s.velocity) / 2) 0 = max (m.turnSq c.maxAcceleration) 0 := by
    simp only [m, toward, Approach.turnSq]
    congr 1
    obtain rfl | rfl := hsign <;> ring
  obtain ⟨q, hq⟩ : ∃ q, q = sqrt (max (m.turnSq c.maxAcceleration) 0) := ⟨_, rfl⟩
  have hq0 : 0 ≤ q := hq ▸ hnonneg _
  have hqsq : q * q = max (m.turnSq c.maxAcceleration) 0 := hq ▸ hsquare _ (le_max_right _ _)
  have hpeak : sign * (sign * q) = q := by
    obtain rfl | rfl := hsign <;> ring
  unfold generateProfile
  simp only [hturn, ← hq, hpeak]
  split_ifs with hcruise
  · -- The limit is below the turn.
    have hlt : c.maxVelocity * c.maxVelocity < max (m.turnSq c.maxAcceleration) 0 := by
      rw [← hqsq]
      exact mul_self_lt_mul_self hv.le hcruise
    have hpos : max (m.turnSq c.maxAcceleration) 0 = m.turnSq c.maxAcceleration := by
      refine max_eq_left (le_of_lt ?_)
      by_contra hneg
      rw [max_eq_right (not_lt.mp hneg)] at hlt
      exact absurd hlt (mul_self_nonneg _).not_gt
    refine ⟨c.maxVelocity, ⟨hv.le, le_rfl, hlt.le, .inl rfl⟩, ?_⟩
    rw [hpos]
    simp only [m, toward, Approach.turnSq, ProfileTiming.mk.injEq]
    obtain rfl | rfl := hsign
    · refine ⟨by simp, ?_, by simp⟩
      field_simp
      ring
    · refine ⟨?_, ?_, ?_⟩ <;> field_simp <;> ring
  · refine ⟨q, ⟨hq0, not_lt.mp hcruise, hqsq.le, .inr hqsq⟩, ?_⟩
    rw [← hqsq, sub_self, zero_div]
    simp only [m, toward, ProfileTiming.mk.injEq]
    obtain rfl | rfl := hsign
    · simp
    · refine ⟨?_, trivial, ?_⟩ <;> field_simp <;> ring

/-- After its time the profile gives the goal. -/
theorem follow_past {t1 t2 t3 first acceleration : K} {goal : State K} (h2 : 0 ≤ t2) (h3 : 0 ≤ t3)
    (ht : t1 + t2 + t3 < t) : follow t t1 t2 t3 first acceleration s goal = goal := by
  have hfirst : t > t1 := by linarith
  have hcruise : t - t1 > t2 := by linarith
  have hlast : t - t1 - t2 > t3 := by linarith
  unfold follow
  simp only [hfirst, hcruise, hlast, if_true]

/-- Within its time a sample of the profile is the way. -/
theorem follow_toward {a t1 t2 t3 : K} {goal : State K} (hsign : sign = 1 ∨ sign = -1)
    (ht : t ≤ t1 + t2 + t3) :
    let m := toward sign x s
    toward sign x (follow t t1 t2 t3 (sign * a) (sign * a) s goal) =
      if t ≤ t1 then m.move a t
      else if t - t1 ≤ t2 then (m.move a t1).move 0 (t - t1)
      else ((m.move a t1).move 0 t2).move (-a) (t - t1 - t2) := by
  intro m
  have hcoast (u : K) (s : State K) : toward sign x (advance u 0 s) = (toward sign x s).move 0 u := by
    have h := toward_advance (f := 0) (t := u) (x := x) (s := s) hsign
    rwa [mul_zero] at h
  unfold follow
  by_cases h1 : t ≤ t1
  · simp only [gt_iff_lt, not_lt.mpr h1, h1, if_false, if_true, min_eq_left h1]
    exact toward_advance hsign
  · simp only [gt_iff_lt, not_le.mp h1, h1, if_false, if_true, min_eq_right (not_le.mp h1).le]
    by_cases h2 : t - t1 ≤ t2
    · simp only [not_lt.mpr h2, h2, if_false, if_true, min_eq_left h2, hcoast]
      rw [toward_advance hsign]
    · have h3 : t - t1 - t2 ≤ t3 := by linarith
      simp only [not_le.mp h2, h2, if_false, if_true, min_eq_right (not_le.mp h2).le,
        not_lt.mpr h3, min_eq_left h3]
      rw [← mul_neg, toward_advance hsign, hcoast, toward_advance hsign]

include hnonneg hsquare hv ha in
/-- A call from a state within the limit follows the plan. -/
theorem calculate_follow (x : K) (hs : |s.velocity| ≤ c.maxVelocity) :
    let sign := getSign c s ⟨x, 0⟩
    let m := toward sign x s
    ∃ p, m.Top c.maxAcceleration c.maxVelocity p ∧
      timeLeftUntil sqrt c s ⟨x, 0⟩ = m.duration c.maxAcceleration p ∧
      ∀ t, calculate sqrt c t s ⟨x, 0⟩ =
        follow t ((p - m.speed) / c.maxAcceleration)
          ((max (m.turnSq c.maxAcceleration) 0 - p * p) / (c.maxAcceleration * p))
          (p / c.maxAcceleration) (sign * c.maxAcceleration) (sign * c.maxAcceleration) s
          ⟨x, 0⟩ := by
  intro sign m
  have hsign : sign = 1 ∨ sign = -1 := getSign_cases c s ⟨x, 0⟩
  obtain ⟨p, htop, htiming⟩ :=
    generateProfile_top (x := x) (s := s) hnonneg hsquare hv ha hsign
  have hadjust : adjustStates c s ⟨x, 0⟩ = (0, s, ⟨x, 0⟩) := by
    have hgoal : ¬ |(0 : K)| > c.maxVelocity := by
      rw [abs_zero]
      exact not_lt.mpr hv.le
    simp only [adjustStates, hgoal, if_false, gt_iff_lt, sub_pos, not_lt.mpr hs]
  refine ⟨p, htop, ?_, fun t => ?_⟩
  · simp only [timeLeftUntil, hadjust]
    rw [show generateProfile sqrt c (getSign c s ⟨x, 0⟩) s ⟨x, 0⟩ = _ from htiming]
    simp only [add_zero, Approach.duration, m, sign]
  · have hcalc : calculate sqrt c t s ⟨x, 0⟩ = _ := calculate_within hv x hs
    dsimp only at hcalc
    rwa [show generateProfile sqrt c (getSign c s ⟨x, 0⟩) s ⟨x, 0⟩ = _ from htiming] at hcalc

include hnonneg hsquare hv ha in
/-- The call gives the goal, or takes the state along its way. -/
theorem calculate_plan (hs : |s.velocity| ≤ c.maxVelocity) :
    let sign := getSign c s ⟨x, 0⟩
    let m := toward sign x s
    ∃ p, m.Top c.maxAcceleration c.maxVelocity p ∧
      timeLeftUntil sqrt c s ⟨x, 0⟩ = m.duration c.maxAcceleration p ∧
      ∀ t, (m.duration c.maxAcceleration p < t → calculate sqrt c t s ⟨x, 0⟩ = ⟨x, 0⟩) ∧
        (t ≤ m.duration c.maxAcceleration p →
          toward sign x (calculate sqrt c t s ⟨x, 0⟩) = m.way c.maxAcceleration t p) := by
  intro sign m
  obtain ⟨p, htop, htime, hcalc⟩ := calculate_follow hnonneg hsquare hv ha x hs
  refine ⟨p, htop, htime, fun t => ?_⟩
  rw [hcalc]
  refine ⟨fun ht => follow_past ?_ ?_ ht, fun ht => follow_toward (getSign_cases c s ⟨x, 0⟩) ht⟩
  · exact div_nonneg (sub_nonneg.mpr htop.sq_le) (mul_nonneg ha.le htop.nonneg)
  · exact div_nonneg htop.nonneg ha.le

/-- What the state is ahead of its goal, in the direction of the profile. -/
theorem ahead_toward (ha : 0 < c.maxAcceleration) (hsign : sign = 1 ∨ sign = -1) :
    (toward sign x s).ahead c.maxAcceleration =
      c.maxAcceleration * (sign * (x - s.position - stopWay c s)) := by
  rw [Approach.ahead, toward_abs_speed hsign, stopWay, toward]
  dsimp only
  field_simp

/-! ### The tie-break -/

/-- The state is within the tie-break, and not ahead. -/
def Tie (c : Constraints K) (x : K) (s : State K) : Prop :=
  x - s.position - stopWay c s ≤ 0 ∧ -tieWidth < x - s.position - stopWay c s

theorem Tie.getSign_eq (h : Tie c x s) : getSign c s ⟨x, 0⟩ = 1 := by
  have hwidth : (0 : K) < tieWidth := by
    unfold tieWidth
    positivity
  rw [Wpilib.getSign_eq, if_pos]
  exact abs_lt.mpr ⟨h.2, h.1.trans_lt hwidth⟩

/-- A state that the profile cannot stop on the goal is within the tie-break. -/
theorem ahead_or_tie (c : Constraints K) (x : K) (s : State K) :
    0 ≤ getSign c s ⟨x, 0⟩ * (x - s.position - stopWay c s) ∨ Tie c x s := by
  rw [getSign_eq]
  split_ifs with htie hpos
  · obtain hle | hlt := le_or_gt 0 (x - s.position - stopWay c s)
    · left
      linarith
    · exact .inr ⟨hlt.le, (abs_lt.mp htie).1⟩
  · left
    linarith
  · left
    linarith

include hnonneg hsquare hv ha in
/-- Within the tie-break the top speed is no more than the speed. -/
theorem Tie.plan (h : Tie c x s) (hs : |s.velocity| ≤ c.maxVelocity) :
    ∃ p, 0 ≤ p ∧ p ≤ max s.velocity 0 ∧
      p * p = max ((toward 1 x s).turnSq c.maxAcceleration) 0 ∧
      timeLeftUntil sqrt c s ⟨x, 0⟩ = (p + p - s.velocity) / c.maxAcceleration ∧
      ∀ t, (timeLeftUntil sqrt c s ⟨x, 0⟩ < t → calculate sqrt c t s ⟨x, 0⟩ = ⟨x, 0⟩) ∧
        (t ≤ timeLeftUntil sqrt c s ⟨x, 0⟩ → toward 1 x (calculate sqrt c t s ⟨x, 0⟩) =
          (toward 1 x s).way c.maxAcceleration t p) := by
  obtain ⟨p, htop, htime, hcalc⟩ :=
    calculate_plan (x := x) (s := s) hnonneg hsquare hv ha hs
  rw [h.getSign_eq] at htop htime hcalc
  have hahead : (toward 1 x s).ahead c.maxAcceleration ≤ 0 := by
    rw [ahead_toward ha (.inl rfl), one_mul]
    exact mul_nonpos_of_nonneg_of_nonpos ha.le h.1
  have hspeed : |(toward 1 x s).speed| ≤ c.maxVelocity := by rwa [toward_abs_speed (.inl rfl)]
  obtain ⟨hsq, hle, hduration⟩ := htop.duration_passed hspeed hahead
  have hv1 : (toward 1 x s).speed = s.velocity := one_mul _
  rw [hv1] at hle hduration
  rw [htime]
  exact ⟨p, htop.nonneg, hle, hsq.symm, hduration, hcalc⟩

include hnonneg hsquare hv ha in
/-- Within the tie-break no more time is planned than to stop. -/
theorem Tie.timeLeft_le (h : Tie c x s) (hs : |s.velocity| ≤ c.maxVelocity) :
    timeLeftUntil sqrt c s ⟨x, 0⟩ ≤ |s.velocity| / c.maxAcceleration := by
  obtain ⟨p, hp, hle, -, htime, -⟩ := h.plan hnonneg hsquare hv ha hs
  rw [htime]
  gcongr
  obtain hneg | hpos := le_total s.velocity 0
  · rw [max_eq_right hneg] at hle
    rw [abs_of_nonpos hneg]
    linarith
  · rw [max_eq_left hpos] at hle
    rw [abs_of_nonneg hpos]
    linarith

include hnonneg hsquare hv ha in
/-- On its way in either direction, no more time is planned for the state than the way takes. -/
theorem timeLeft_le_of_onWay {p : K} (hsign : sign = 1 ∨ sign = -1)
    (hs : |s.velocity| ≤ c.maxVelocity)
    (h : (toward sign x s).OnWay c.maxAcceleration c.maxVelocity p) :
    timeLeftUntil sqrt c s ⟨x, 0⟩ ≤ (toward sign x s).duration c.maxAcceleration p := by
  obtain hsame | hother := eq_or_ne (getSign c s ⟨x, 0⟩) sign
  · obtain ⟨q, htop, htime, -⟩ := calculate_plan (x := x) (s := s) hnonneg hsquare hv ha hs
    rw [hsame] at htop htime
    rw [htime, htop.unique h.toTop]
  · -- The other direction is planned within the tie-break only.
    have hahead : 0 ≤ sign * (x - s.position - stopWay c s) := by
      have hway := h.ahead_nonneg
      rw [ahead_toward ha hsign] at hway
      exact nonneg_of_mul_nonneg_right hway ha
    have htie : Tie c x s := by
      obtain hgo | htie := ahead_or_tie c x s
      · have hzero : x - s.position - stopWay c s = 0 := by
          obtain hone | hminus := getSign_cases c s ⟨x, 0⟩ <;> obtain rfl | rfl := hsign
          · exact absurd hone hother
          · rw [hone] at hgo
            linarith
          · rw [hminus] at hgo
            linarith
          · exact absurd hminus hother
        refine ⟨hzero.le, ?_⟩
        rw [hzero, neg_lt_zero, tieWidth]
        positivity
      · exact htie
    calc timeLeftUntil sqrt c s ⟨x, 0⟩ ≤ |s.velocity| / c.maxAcceleration :=
          htie.timeLeft_le hnonneg hsquare hv ha hs
      _ = |(toward sign x s).speed| / c.maxAcceleration := by rw [toward_abs_speed hsign]
      _ ≤ (toward sign x s).duration c.maxAcceleration p := h.duration_ge ha

/-- A state as far ahead of the goal as one within the tie-break. -/
theorem Tie.of_ahead {s' : State K} (ha : 0 < c.maxAcceleration) (h : Tie c x s)
    (heq : (toward 1 x s').ahead c.maxAcceleration = (toward 1 x s).ahead c.maxAcceleration) :
    Tie c x s' := by
  rw [ahead_toward ha (.inl rfl), ahead_toward ha (.inl rfl), one_mul, one_mul] at heq
  have hgap := mul_left_cancel₀ ha.ne' heq
  exact ⟨hgap ▸ h.1, hgap ▸ h.2⟩

theorem tie_of_ahead_zero (ha : 0 < c.maxAcceleration)
    (h : (toward 1 x s).ahead c.maxAcceleration = 0) : Tie c x s := by
  rw [ahead_toward ha (.inl rfl), one_mul, mul_eq_zero] at h
  have hgap := h.resolve_left ha.ne'
  refine ⟨hgap.le, ?_⟩
  rw [hgap, neg_lt_zero, tieWidth]
  positivity

include hnonneg hsquare hv ha in
/-- Within the tie-break and not moving in the direction of the profile, the state brakes. -/
theorem Tie.brake (h : Tie c x s) (hs : |s.velocity| ≤ c.maxVelocity) (hneg : s.velocity ≤ 0) :
    timeLeftUntil sqrt c s ⟨x, 0⟩ = -s.velocity / c.maxAcceleration ∧
      (t ≤ timeLeftUntil sqrt c s ⟨x, 0⟩ → toward 1 x (calculate sqrt c t s ⟨x, 0⟩) =
        (toward 1 x s).move c.maxAcceleration t) := by
  obtain ⟨p, hp, hle, -, htime, hcalc⟩ := h.plan hnonneg hsquare hv ha hs
  rw [max_eq_right hneg] at hle
  obtain rfl : p = 0 := le_antisymm hle hp
  rw [zero_add, zero_sub] at htime
  refine ⟨htime, fun ht => ?_⟩
  have hfirst : (0 - (toward 1 x s).speed) / c.maxAcceleration =
      timeLeftUntil sqrt c s ⟨x, 0⟩ := by
    rw [htime, zero_sub, show (toward 1 x s).speed = s.velocity from one_mul _]
  rw [(hcalc t).2 ht, Approach.way, hfirst, if_pos ht]

include hnonneg hsquare hv ha in
/-- One call within the tie-break. -/
theorem Tie.step (h : Tie c x s) (hs : |s.velocity| ≤ c.maxVelocity) (h0 : 0 < t)
    (ht : t ≤ timeLeftUntil sqrt c s ⟨x, 0⟩) :
    let s' := calculate sqrt c t s ⟨x, 0⟩
    timeLeftUntil sqrt c s' ⟨x, 0⟩ ≤ timeLeftUntil sqrt c s ⟨x, 0⟩ - t ∧
      |s'.velocity| ≤ c.maxVelocity := by
  intro s'
  have hspeed (s : State K) : (toward 1 x s).speed = s.velocity := one_mul _
  obtain hneg | hpos := le_or_gt s.velocity 0
  · obtain ⟨htime, hmove⟩ := h.brake (t := t) hnonneg hsquare hv ha hs hneg
    have hs' := hmove ht
    have hvelocity : s'.velocity = s.velocity + c.maxAcceleration * t := by
      rw [← hspeed s', hs', Approach.move_speed, hspeed]
    rw [htime, le_div_iff₀' ha] at ht
    have hslower : s'.velocity ≤ 0 := by
      rw [hvelocity]
      linarith
    have hwithin : |s'.velocity| ≤ c.maxVelocity := by
      have hgain : 0 ≤ c.maxAcceleration * t := by positivity
      rw [abs_of_nonpos hneg] at hs
      rw [abs_of_nonpos hslower, hvelocity]
      linarith
    have htie : Tie c x s' := by
      refine h.of_ahead ha ?_
      rw [Approach.ahead_of_nonpos ((hspeed s').trans_le hslower),
        Approach.ahead_of_nonpos ((hspeed s).trans_le hneg), hs', Approach.turnSq_speedUp]
    refine ⟨(htie.timeLeft_le hnonneg hsquare hv ha hwithin).trans_eq ?_, hwithin⟩
    rw [htime, abs_of_nonpos hslower, hvelocity]
    field_simp
    ring
  · obtain ⟨p, hp, hle, hsq, htime, hcalc⟩ := h.plan hnonneg hsquare hv ha hs
    have hs' := (hcalc t).2 ht
    rw [max_eq_left hpos.le] at hle
    have ht' := ht
    rw [htime, le_div_iff₀' ha] at ht'
    have hgain : 0 < c.maxAcceleration * t := by positivity
    have hp0 : 0 < p := by linarith
    -- The first piece runs backward in time, to the turn. From there the state brakes.
    obtain ⟨turn, hturn⟩ : ∃ m, m = (toward 1 x s).move c.maxAcceleration
      ((p - s.velocity) / c.maxAcceleration) := ⟨_, rfl⟩
    have hback : (p - s.velocity) / c.maxAcceleration ≤ 0 :=
      div_nonpos_of_nonpos_of_nonneg (by linarith) ha.le
    have hway : toward 1 x s' = turn.move (-c.maxAcceleration)
        (t - (p - s.velocity) / c.maxAcceleration) := by
      rw [hs', Approach.way, ← hsq, hspeed, sub_self, zero_div, if_neg (by linarith),
        if_neg (by linarith), Approach.move_zero_time, sub_zero, hturn]
    have hturnSpeed : turn.speed = p := by
      rw [hturn, ← hspeed s]
      exact Approach.speed_turn ha
    have hturnSq : turn.turnSq c.maxAcceleration = p * p := by
      rw [hturn, Approach.turnSq_speedUp, hsq]
      refine (max_eq_left (le_of_lt ?_)).symm
      by_contra hnot
      rw [max_eq_right (not_lt.mp hnot)] at hsq
      exact absurd hsq (mul_pos hp0 hp0).ne'
    have hvelocity : s'.velocity = p + p - s.velocity - c.maxAcceleration * t := by
      rw [← hspeed s', hway, Approach.move_speed, hturnSpeed]
      field_simp
      ring
    have hforward : 0 ≤ s'.velocity := by
      rw [hvelocity]
      linarith
    have htie : Tie c x s' := by
      have hforward' : 0 ≤ (turn.move (-c.maxAcceleration)
          (t - (p - s.velocity) / c.maxAcceleration)).speed := by
        rw [← hway, hspeed]
        exact hforward
      refine tie_of_ahead_zero ha ?_
      rw [hway, Approach.ahead_brake (hturnSpeed ▸ hp) hforward',
        Approach.ahead_of_nonneg (hturnSpeed ▸ hp), hturnSq, hturnSpeed, sub_self]
    have hwithin : |s'.velocity| ≤ c.maxVelocity := by
      rw [abs_of_pos hpos] at hs
      rw [abs_of_nonneg hforward, hvelocity]
      linarith
    refine ⟨(htie.timeLeft_le hnonneg hsquare hv ha hwithin).trans_eq ?_, hwithin⟩
    rw [htime, abs_of_nonneg hforward, hvelocity]
    field_simp

include hnonneg hsquare hv ha in
/-- One call from a state within the limit: the goal once its time is over, else less time left. -/
theorem calculate_step_within (hs : |s.velocity| ≤ c.maxVelocity) (h0 : 0 < t) :
    let s' := calculate sqrt c t s ⟨x, 0⟩
    let timeLeft := timeLeftUntil sqrt c s ⟨x, 0⟩
    (timeLeft < t → s' = ⟨x, 0⟩) ∧
      (t ≤ timeLeft → timeLeftUntil sqrt c s' ⟨x, 0⟩ ≤ timeLeft - t ∧
        |s'.velocity| ≤ c.maxVelocity) := by
  intro s' timeLeft
  obtain ⟨p, htop, htime, hcalc⟩ := calculate_plan (x := x) (s := s) hnonneg hsquare hv ha hs
  have hsign := getSign_cases c s ⟨x, 0⟩
  refine ⟨fun ht => (hcalc t).1 (htime ▸ ht), fun ht => ?_⟩
  obtain hahead | htie := ahead_or_tie c x s
  · have hway : (toward (getSign c s ⟨x, 0⟩) x s).OnWay c.maxAcceleration c.maxVelocity p := by
      refine htop.onWay (by rwa [toward_abs_speed hsign]) ?_
      rw [ahead_toward ha hsign]
      exact mul_nonneg ha.le hahead
    have hs' := (hcalc t).2 (htime ▸ ht)
    obtain ⟨⟨q, hnext, hnextTime⟩, hsmooth⟩ := Approach.way_onWay ha hway hv h0.le (htime ▸ ht)
    rw [← hs'] at hnext hnextTime hsmooth
    have hwithin : |s'.velocity| ≤ c.maxVelocity := by
      rw [← toward_abs_speed (x := x) hsign]
      exact hsmooth.abs_speed_le hv.le (by rwa [toward_abs_speed hsign])
    refine ⟨?_, hwithin⟩
    calc timeLeftUntil sqrt c s' ⟨x, 0⟩
      _ ≤ _ := timeLeft_le_of_onWay hnonneg hsquare hv ha hsign hwithin hnext
      _ = timeLeft - t := by rw [hnextTime, ← htime]
  · exact htie.step hnonneg hsquare hv ha hs h0 ht

/-! ### Recovery from a speed beyond the limit -/

theorem advance_advance {u f : K} : advance u f (advance t f s) = advance (t + u) f s := by
  simp only [advance, State.mk.injEq]
  exact ⟨by ring, by ring⟩

/-- The acceleration of the recovery: against the velocity. -/
def brakeOf (c : Constraints K) (s : State K) : K := copysign c.maxAcceleration (-s.velocity)

def recoveryTime (c : Constraints K) (s : State K) : K :=
  (|s.velocity| - c.maxVelocity) / c.maxAcceleration

/-- The state at the end of the recovery. -/
def recovered (c : Constraints K) (s : State K) : State K :=
  advance (recoveryTime c s) (brakeOf c s) s

/-- A direction of motion, with the acceleration that brakes it. -/
theorem moving_cases (ha : 0 < c.maxAcceleration) (hne : s.velocity ≠ 0) :
    ∃ d : K, (d = 1 ∨ d = -1) ∧ s.velocity = d * |s.velocity| ∧
      brakeOf c s = -(d * c.maxAcceleration) ∧
      ∀ y, copysign y s.velocity = d * |y| := by
  obtain hneg | hpos := hne.lt_or_gt
  · refine ⟨-1, .inr rfl, ?_, ?_, fun y => ?_⟩
    · rw [abs_of_neg hneg]
      ring
    · rw [brakeOf, copysign, if_neg (by linarith), abs_of_pos ha]
      ring
    · rw [copysign, if_pos hneg]
      ring
  · refine ⟨1, .inl rfl, ?_, ?_, fun y => ?_⟩
    · rw [abs_of_pos hpos]
      ring
    · rw [brakeOf, copysign, if_pos (by linarith), abs_of_pos ha]
      ring
    · rw [copysign, if_neg (by linarith)]
      ring

omit [IsStrictOrderedRing K] in
theorem recovered_velocity {d : K} (ha : 0 < c.maxAcceleration)
    (hdir : s.velocity = d * |s.velocity|) (hbrake : brakeOf c s = -(d * c.maxAcceleration)) :
    (recovered c s).velocity = d * c.maxVelocity := by
  rw [recovered, advance, hbrake, recoveryTime]
  dsimp only
  nth_rewrite 1 [hdir]
  field_simp
  ring

section
variable (hbeyond : c.maxVelocity < |s.velocity|)
include hv ha hbeyond

theorem adjustStates_beyond (x : K) :
    adjustStates c s ⟨x, 0⟩ = (recoveryTime c s, recovered c s, ⟨x, 0⟩) ∧
      |(recovered c s).velocity| = c.maxVelocity := by
  have hne : s.velocity ≠ 0 := abs_pos.mp (hv.trans hbeyond)
  have hgoal : ¬ |(0 : K)| > c.maxVelocity := by
    rw [abs_zero]
    exact not_lt.mpr hv.le
  obtain ⟨d, hd, hdir, hbrake, hcopy⟩ := moving_cases (c := c) ha hne
  have hvelocity := recovered_velocity ha hdir hbrake
  constructor
  · have hposition : (recovered c s).position = s.position + (s.velocity * recoveryTime c s +
        copysign c.maxAcceleration (-s.velocity) * recoveryTime c s * recoveryTime c s / 2) := by
      rw [recovered, advance, brakeOf]
      dsimp only
      ring
    have hrecovered : recovered c s = ⟨s.position + (s.velocity * recoveryTime c s +
        copysign c.maxAcceleration (-s.velocity) * recoveryTime c s * recoveryTime c s / 2),
        copysign c.maxVelocity s.velocity⟩ := by
      rw [hcopy, abs_of_pos hv, ← hvelocity, ← hposition]
    rw [hrecovered]
    simp only [adjustStates, hgoal, if_false, gt_iff_lt, sub_pos, hbeyond, if_true, recoveryTime]
  · rw [hvelocity]
    obtain rfl | rfl := hd <;> simp [abs_of_pos hv]

include hnonneg hsquare in
theorem timeLeft_beyond (x : K) : timeLeftUntil sqrt c s ⟨x, 0⟩ =
    recoveryTime c s + timeLeftUntil sqrt c (recovered c s) ⟨x, 0⟩ := by
  obtain ⟨hadjust, hlimit⟩ := adjustStates_beyond hv ha hbeyond x
  obtain ⟨p, -, htime, -⟩ :=
    calculate_plan (x := x) (s := recovered c s) hnonneg hsquare hv ha hlimit.le
  have hwithin : adjustStates c (recovered c s) ⟨x, 0⟩ = (0, recovered c s, ⟨x, 0⟩) := by
    have hgoal : ¬ |(0 : K)| > c.maxVelocity := by
      rw [abs_zero]
      exact not_lt.mpr hv.le
    simp only [adjustStates, hgoal, if_false, gt_iff_lt, hlimit, sub_self, lt_irrefl]
  simp only [timeLeftUntil, hadjust, hwithin]
  ring

include hnonneg hsquare in
/-- During the recovery the planned time passes. -/
theorem timeLeft_recovering (x : K) (ht : t ≤ recoveryTime c s) :
    timeLeftUntil sqrt c (advance t (brakeOf c s) s) ⟨x, 0⟩ =
        timeLeftUntil sqrt c s ⟨x, 0⟩ - t ∧
      |(advance t (brakeOf c s) s).velocity| = |s.velocity| - c.maxAcceleration * t := by
  have hne : s.velocity ≠ 0 := abs_pos.mp (hv.trans hbeyond)
  obtain ⟨d, hd, hdir, hbrake, -⟩ := moving_cases (c := c) ha hne
  obtain ⟨s', hs'⟩ : ∃ s', s' = advance t (brakeOf c s) s := ⟨_, rfl⟩
  have hslow : c.maxAcceleration * t ≤ |s.velocity| - c.maxVelocity := by
    rwa [recoveryTime, le_div_iff₀' ha] at ht
  have hvelocity : s'.velocity = d * (|s.velocity| - c.maxAcceleration * t) := by
    rw [hs', advance, hbrake]
    dsimp only
    nth_rewrite 1 [hdir]
    ring
  have habs : |s'.velocity| = |s.velocity| - c.maxAcceleration * t := by
    rw [hvelocity, abs_mul, abs_of_nonneg (by linarith : 0 ≤ |s.velocity| - c.maxAcceleration * t)]
    obtain rfl | rfl := hd <;> simp
  rw [← hs']
  refine ⟨?_, habs⟩
  have hrest : recoveryTime c s' = recoveryTime c s - t := by
    rw [recoveryTime, recoveryTime, habs]
    field_simp
    ring
  obtain hend | hmore := hslow.eq_or_lt
  · have hlast : t = recoveryTime c s := by
      rw [recoveryTime, ← hend]
      field_simp
    rw [timeLeft_beyond hnonneg hsquare hv ha hbeyond x, ← hlast, hs', hlast, recovered]
    ring
  · have hstill : c.maxVelocity < |s'.velocity| := by
      rw [habs]
      linarith
    have hsame : brakeOf c s' = brakeOf c s := by
      obtain ⟨d', hd', hdir', hbrake', -⟩ :=
        moving_cases (c := c) ha (abs_pos.mp (hv.trans hstill))
      have heq : d' = d := by
        rw [hdir', habs] at hvelocity
        exact mul_right_cancel₀ (by linarith) hvelocity
      rw [hbrake', hbrake, heq]
    have hrecovered : recovered c s' = recovered c s := by
      rw [recovered, hrest, hsame, hs', advance_advance, recovered, add_sub_cancel]
    rw [timeLeft_beyond hnonneg hsquare hv ha hstill x, hrest, hrecovered,
      timeLeft_beyond hnonneg hsquare hv ha hbeyond x]
    ring

include hnonneg hsquare in
/-- A call from beyond the limit: the first piece is longer by the recovery, and brakes. -/
theorem calculate_recovery (x : K) :
    let r := recovered c s
    let sign := getSign c r ⟨x, 0⟩
    let m := toward sign x r
    ∃ p, m.Top c.maxAcceleration c.maxVelocity p ∧
      timeLeftUntil sqrt c r ⟨x, 0⟩ = m.duration c.maxAcceleration p ∧
      ∀ t, calculate sqrt c t s ⟨x, 0⟩ =
          follow t ((p - m.speed) / c.maxAcceleration + recoveryTime c s)
            ((max (m.turnSq c.maxAcceleration) 0 - p * p) / (c.maxAcceleration * p))
            (p / c.maxAcceleration) (brakeOf c s) (sign * c.maxAcceleration) s ⟨x, 0⟩ ∧
        calculate sqrt c t r ⟨x, 0⟩ =
          follow t ((p - m.speed) / c.maxAcceleration)
            ((max (m.turnSq c.maxAcceleration) 0 - p * p) / (c.maxAcceleration * p))
            (p / c.maxAcceleration) (sign * c.maxAcceleration) (sign * c.maxAcceleration) r
            ⟨x, 0⟩ := by
  intro r sign m
  obtain ⟨hadjust, hlimit⟩ := adjustStates_beyond hv ha hbeyond x
  have hsign : sign = 1 ∨ sign = -1 := getSign_cases c r ⟨x, 0⟩
  obtain ⟨p, htop, htiming⟩ :=
    generateProfile_top (x := x) (s := r) hnonneg hsquare hv ha hsign
  obtain ⟨q, hq, htime, hcalc⟩ := calculate_follow (s := r) hnonneg hsquare hv ha x hlimit.le
  obtain rfl := htop.unique hq
  refine ⟨p, htop, htime, fun t => ⟨?_, hcalc t⟩⟩
  have hrecovery : recoveryTime c s > 0 := div_pos (by linarith) ha
  obtain ⟨d, hd, hdir, hbrake, -⟩ := moving_cases (c := c) ha (abs_pos.mp (hv.trans hbeyond))
  -- The branch of the first piece takes the acceleration against the velocity.
  have hfirst : (if recoveryTime c s > 0 ∧ s.velocity * sign > 0 then
      -(sign * c.maxAcceleration) else sign * c.maxAcceleration) = brakeOf c s := by
    have habs : 0 < |s.velocity| := hv.trans hbeyond
    rw [hbrake]
    obtain hd | hd := hd <;> obtain hs | hs := hsign <;> rw [hd] at hdir ⊢ <;> rw [hs]
    · rw [if_pos ⟨hrecovery, by linarith⟩]
    · rw [if_neg (by rintro ⟨-, h⟩; linarith)]
      ring
    · rw [if_neg (by rintro ⟨-, h⟩; linarith)]
      ring
    · rw [if_pos ⟨hrecovery, by linarith⟩]
  unfold calculate follow
  simp only [hadjust]
  rw [show generateProfile sqrt c (getSign c (recovered c s) ⟨x, 0⟩) (recovered c s) ⟨x, 0⟩ = _
    from htiming]
  dsimp only
  rw [show (if recoveryTime c s > 0 ∧ s.velocity * getSign c (recovered c s) ⟨x, 0⟩ > 0 then
    -(getSign c (recovered c s) ⟨x, 0⟩ * c.maxAcceleration) else
      getSign c (recovered c s) ⟨x, 0⟩ * c.maxAcceleration) = _ from hfirst]

end

/-- A longer first piece is the same motion from its end. -/
theorem follow_prepend {r t1 t2 t3 first acceleration : K} {goal : State K}
    (h : first = acceleration ∨ t1 = 0) (hr : r < t) :
    follow t (t1 + r) t2 t3 first acceleration s goal =
      follow (t - r) t1 t2 t3 acceleration acceleration (advance r first s) goal := by
  have hstart : advance (min t (t1 + r)) first s =
      advance (min (t - r) t1) acceleration (advance r first s) := by
    obtain rfl | rfl := h
    · rw [advance_advance, ← min_add_add_left, add_sub_cancel, add_comm r]
    · rw [zero_add, min_eq_right hr.le, min_eq_right (sub_pos.mpr hr).le]
      simp [advance]
  have hrest : t - (t1 + r) = t - r - t1 := by ring
  have hiff : t > t1 + r ↔ t - r > t1 := by
    rw [gt_iff_lt, gt_iff_lt, lt_sub_iff_add_lt]
  simp only [follow, hstart, hrest, hiff]

/-- Two pieces with the same acceleration, and nothing between them. -/
theorem follow_straight {t1 t3 f : K} {goal : State K} (ht : t ≤ t1 + t3) :
    follow t t1 0 t3 f (-f) s goal = advance t f s := by
  unfold follow
  by_cases h1 : t > t1
  · have hpos : t - t1 > 0 := by linarith
    have hlast : ¬ t - t1 - 0 > t3 := by
      rw [sub_zero]
      linarith
    have hcoast : advance 0 0 (advance t1 f s) = advance t1 f s := by simp [advance]
    simp only [h1, hpos, hlast, if_true, if_false, min_eq_right h1.le, min_eq_right hpos.le,
      min_eq_left (not_lt.mp hlast), neg_neg, hcoast]
    rw [advance_advance, sub_zero, add_sub_cancel]
  · simp only [h1, if_false, min_eq_left (not_lt.mp h1)]

include hnonneg hsquare hv ha in
/-- Braking within the tie-break, from the limit. The planned time falls no slower. -/
theorem Tie.timeLeft_braking {p : K} (h : Tie c x s) (hs : s.velocity = c.maxVelocity)
    (htop : (toward 1 x s).Top c.maxAcceleration c.maxVelocity p) (h0 : 0 < t)
    (ht : t ≤ (p + p - c.maxVelocity) / c.maxAcceleration) :
    let s' := advance t (-c.maxAcceleration) s
    timeLeftUntil sqrt c s' ⟨x, 0⟩ ≤ (p + p - c.maxVelocity) / c.maxAcceleration - t ∧
      |s'.velocity| ≤ c.maxVelocity := by
  intro s'
  have hspeed (s : State K) : (toward 1 x s).speed = s.velocity := one_mul _
  rw [le_div_iff₀' ha] at ht
  have hgain : 0 < c.maxAcceleration * t := by positivity
  have hp : 0 < p := by linarith
  have hle : p ≤ c.maxVelocity := htop.le
  have hvelocity : s'.velocity = c.maxVelocity - c.maxAcceleration * t := by
    simp only [s', advance, hs]
    ring
  have hforward : 0 ≤ s'.velocity := by
    rw [hvelocity]
    linarith
  have hwithin : |s'.velocity| ≤ c.maxVelocity := by
    rw [abs_of_nonneg hforward, hvelocity]
    linarith
  have hmove : toward 1 x s' = (toward 1 x s).move (-c.maxAcceleration) t := by
    have h := toward_advance (f := -c.maxAcceleration) (t := t) (x := x) (s := s) (.inl rfl)
    rwa [one_mul] at h
  have hahead : (toward 1 x s').ahead c.maxAcceleration =
      (toward 1 x s).ahead c.maxAcceleration := by
    rw [hmove, Approach.ahead_brake]
    · rw [hspeed, hs]
      exact hv.le
    · rw [← hmove, hspeed]
      exact hforward
  obtain ⟨q, hq, -, hqsq, htime, -⟩ :=
    (h.of_ahead ha hahead).plan hnonneg hsquare hv ha hwithin
  refine ⟨?_, hwithin⟩
  -- `lost` is by how much the turns are below the squares of the speeds.
  rw [Approach.ahead_of_nonneg ((hspeed s').symm ▸ hforward),
    Approach.ahead_of_nonneg ((hspeed s).symm ▸ hs.symm ▸ hv.le), hspeed, hspeed, hs] at hahead
  obtain ⟨lost, hlost⟩ : ∃ lost, lost =
    c.maxVelocity * c.maxVelocity - (toward 1 x s).turnSq c.maxAcceleration := ⟨_, rfl⟩
  have hpsq : p * p = c.maxVelocity * c.maxVelocity - lost := by
    have hpassed : (toward 1 x s).ahead c.maxAcceleration ≤ 0 := by
      rw [ahead_toward ha (.inl rfl), one_mul]
      exact mul_nonpos_of_nonneg_of_nonpos ha.le h.1
    obtain ⟨hturn, -, -⟩ :=
      htop.duration_passed (by rw [hspeed, hs, abs_of_pos hv]) hpassed
    obtain hleft | hright := max_choice ((toward 1 x s).turnSq c.maxAcceleration) 0
    · rw [← hturn, hleft, hlost]
      ring
    · rw [hright] at hturn
      exact absurd hturn (mul_pos hp hp).ne
  have hnext : (toward 1 x s').turnSq c.maxAcceleration = s'.velocity * s'.velocity - lost := by
    linarith
  have hsum : q + c.maxVelocity ≤ p + s'.velocity := by
    obtain hleft | hright := max_choice ((toward 1 x s').turnSq c.maxAcceleration) 0
    · rw [hleft, hnext] at hqsq
      have hslower : s'.velocity ≤ c.maxVelocity := (le_abs_self _).trans hwithin
      have hqp : q ≤ p := by
        refine (mul_self_le_mul_self_iff hq hp.le).mpr ?_
        have := mul_self_le_mul_self hforward hslower
        linarith
      by_contra hgt
      have hlt : s'.velocity - q < c.maxVelocity - p := by linarith
      have hpos : 0 < c.maxVelocity + p := by linarith
      -- Both products are `lost`.
      nlinarith [mul_lt_mul_of_pos_right hlt hpos]
    · rw [hright, mul_self_eq_zero] at hqsq
      rw [hqsq, hvelocity]
      linarith
  rw [htime]
  have hfall : (p + p - c.maxVelocity) / c.maxAcceleration - t =
      (p + p - c.maxVelocity - c.maxAcceleration * t) / c.maxAcceleration := by
    field_simp
  rw [hfall]
  gcongr ?_ / _
  linarith

include hnonneg hsquare hv ha in
/-- One call from a state beyond the limit. -/
theorem calculate_step_beyond (hbeyond : c.maxVelocity < |s.velocity|) (h0 : 0 < t) :
    let s' := calculate sqrt c t s ⟨x, 0⟩
    let timeLeft := timeLeftUntil sqrt c s ⟨x, 0⟩
    (timeLeft < t → s' = ⟨x, 0⟩) ∧
      (t ≤ timeLeft → timeLeftUntil sqrt c s' ⟨x, 0⟩ ≤ timeLeft - t ∧
        |s'.velocity| ≤ |s.velocity|) := by
  intro s' timeLeft
  obtain ⟨p, htop, htime, hcalc⟩ := calculate_recovery hnonneg hsquare hv ha hbeyond x
  obtain ⟨-, hlimit⟩ := adjustStates_beyond hv ha hbeyond x
  have hsign := getSign_cases c (recovered c s) ⟨x, 0⟩
  have hleft : timeLeft = recoveryTime c s + timeLeftUntil sqrt c (recovered c s) ⟨x, 0⟩ :=
    timeLeft_beyond hnonneg hsquare hv ha hbeyond x
  have hs' : s' = _ := (hcalc t).1
  have hgain : 0 < c.maxAcceleration * t := by positivity
  -- During the recovery the call is the recovery.
  have hrecovering (ht : t ≤ recoveryTime c s) (heq : s' = advance t (brakeOf c s) s) :
      timeLeftUntil sqrt c s' ⟨x, 0⟩ ≤ timeLeft - t ∧ |s'.velocity| ≤ |s.velocity| := by
    obtain ⟨hfall, hspeed⟩ := timeLeft_recovering hnonneg hsquare hv ha hbeyond x ht
    rw [heq, hfall, hspeed]
    exact ⟨le_rfl, by linarith⟩
  obtain ⟨d, hd, hdir, hbrake, -⟩ := moving_cases (c := c) ha (abs_pos.mp (hv.trans hbeyond))
  have hrecovered := recovered_velocity ha hdir hbrake
  refine ⟨fun ht => ?_, fun ht => ?_⟩
  · rw [hs']
    refine follow_past ?_ ?_ ?_
    · exact div_nonneg (sub_nonneg.mpr htop.sq_le) (mul_nonneg ha.le htop.nonneg)
    · exact div_nonneg htop.nonneg ha.le
    · rw [hleft, htime, Approach.duration] at ht
      linarith
  -- The recovery goes on into the first piece, or the first piece is empty.
  have hplain (h : brakeOf c s = getSign c (recovered c s) ⟨x, 0⟩ * c.maxAcceleration ∨
      (p - (toward (getSign c (recovered c s) ⟨x, 0⟩) x (recovered c s)).speed) /
        c.maxAcceleration = 0)
      (hfirst : 0 ≤ (p - (toward (getSign c (recovered c s) ⟨x, 0⟩) x (recovered c s)).speed) /
        c.maxAcceleration) :
      timeLeftUntil sqrt c s' ⟨x, 0⟩ ≤ timeLeft - t ∧ |s'.velocity| ≤ |s.velocity| := by
    obtain hearly | hlate := le_or_gt t (recoveryTime c s)
    · refine hrecovering hearly ?_
      rw [hs', follow, min_eq_left (by linarith), if_neg (by linarith)]
    · have hrest : s' = calculate sqrt c (t - recoveryTime c s) (recovered c s) ⟨x, 0⟩ := by
        rw [hs', (hcalc _).2, follow_prepend h hlate, recovered]
      obtain ⟨hfall, hspeed⟩ := (calculate_step_within (x := x) (s := recovered c s) hnonneg hsquare
        hv ha hlimit.le (sub_pos.mpr hlate)).2 (by linarith)
      rw [hrest]
      exact ⟨by linarith, hspeed.trans hbeyond.le⟩
  obtain hsame | hopposite : getSign c (recovered c s) ⟨x, 0⟩ = d ∨
      getSign c (recovered c s) ⟨x, 0⟩ = -d := by
    obtain h | h := hsign <;> obtain rfl | rfl := hd <;> simp [h]
  · have hspeed : (toward (getSign c (recovered c s) ⟨x, 0⟩) x (recovered c s)).speed =
        c.maxVelocity := by
      rw [toward, hsame, hrecovered]
      obtain rfl | rfl := hd <;> ring
    obtain hahead | htie := ahead_or_tie c x (recovered c s)
    · have hway := htop.onWay (by rw [toward_abs_speed hsign, hlimit]) (by
        rw [ahead_toward ha hsign]
        exact mul_nonneg ha.le hahead)
      have hp : p = c.maxVelocity := le_antisymm htop.le (hspeed ▸ hway.speed_le)
      have hzero : (p - (toward (getSign c (recovered c s) ⟨x, 0⟩) x (recovered c s)).speed) /
          c.maxAcceleration = 0 := by rw [hspeed, hp, sub_self, zero_div]
      exact hplain (.inr hzero) hzero.ge
    · -- The call brakes all the way.
      obtain rfl : d = 1 := by rw [← hsame, htie.getSign_eq]
      rw [hsame] at htop htime hs' hspeed
      rw [one_mul] at hrecovered
      have hpassed : (toward 1 x (recovered c s)).ahead c.maxAcceleration ≤ 0 := by
        rw [ahead_toward ha (.inl rfl), one_mul]
        exact mul_nonpos_of_nonneg_of_nonpos ha.le htie.1
      obtain ⟨hsq, -, hduration⟩ :=
        htop.duration_passed (by rw [hspeed, abs_of_pos hv]) hpassed
      rw [one_mul] at hbrake
      rw [hspeed] at hduration
      have hstraight : s' = advance t (brakeOf c s) s := by
        rw [hs', hsq, sub_self, zero_div, hspeed, hbrake, one_mul]
        rw [hleft, htime, hduration] at ht
        have hsplit : (p + p - c.maxVelocity) / c.maxAcceleration =
            (p - c.maxVelocity) / c.maxAcceleration + p / c.maxAcceleration := by
          rw [← add_div]
          ring
        have h : follow t ((p - c.maxVelocity) / c.maxAcceleration + recoveryTime c s) 0
            (p / c.maxAcceleration) (-c.maxAcceleration) (- -c.maxAcceleration) s ⟨x, 0⟩ =
            advance t (-c.maxAcceleration) s :=
          follow_straight (by linarith)
        rwa [neg_neg] at h
      obtain hearly | hlate := le_or_gt t (recoveryTime c s)
      · exact hrecovering hearly hstraight
      · have hrest : s' = advance (t - recoveryTime c s) (-c.maxAcceleration) (recovered c s) := by
          rw [hstraight, hbrake, recovered, hbrake, advance_advance, add_sub_cancel]
        rw [hleft, htime, hduration] at ht
        obtain ⟨hfall, hslow⟩ := htie.timeLeft_braking hnonneg hsquare hv ha
          hrecovered htop (sub_pos.mpr hlate) (by linarith)
        rw [hrest, hleft, htime, hduration]
        exact ⟨by linarith, hslow.trans hbeyond.le⟩
  · have hspeed : (toward (getSign c (recovered c s) ⟨x, 0⟩) x (recovered c s)).speed =
        -c.maxVelocity := by
      rw [toward, hopposite, hrecovered]
      obtain rfl | rfl := hd <;> ring
    refine hplain (.inl (by rw [hbrake, hopposite, neg_mul])) ?_
    rw [hspeed]
    exact div_nonneg (by linarith [htop.nonneg]) ha.le

include hnonneg hsquare hv ha in
/-- One call: the goal itself once the planned time is over, and before that a state for which no
more time is planned than is left, within the limit or no faster than before. -/
theorem calculate_lands (h0 : 0 < t) :
    let s' := calculate sqrt c t s ⟨x, 0⟩
    let timeLeft := timeLeftUntil sqrt c s ⟨x, 0⟩
    (timeLeft < t ∧ s' = ⟨x, 0⟩) ∨
      (t ≤ timeLeft ∧ timeLeftUntil sqrt c s' ⟨x, 0⟩ ≤ timeLeft - t ∧
        |s'.velocity| ≤ max |s.velocity| c.maxVelocity) := by
  intro s' timeLeft
  obtain hover | hmore := lt_or_ge timeLeft t
  · left
    obtain hs | hs := le_or_gt |s.velocity| c.maxVelocity
    · exact ⟨hover, (calculate_step_within hnonneg hsquare hv ha hs h0).1 hover⟩
    · exact ⟨hover, (calculate_step_beyond hnonneg hsquare hv ha hs h0).1 hover⟩
  · right
    obtain hs | hs := le_or_gt |s.velocity| c.maxVelocity
    · obtain ⟨hfall, hspeed⟩ := (calculate_step_within hnonneg hsquare hv ha hs h0).2 hmore
      exact ⟨hmore, hfall, hspeed.trans (le_max_right _ _)⟩
    · obtain ⟨hfall, hspeed⟩ := (calculate_step_beyond hnonneg hsquare hv ha hs h0).2 hmore
      exact ⟨hmore, hfall, hspeed.trans (le_max_left _ _)⟩

/-! ### An approach -/

/-- The state moves toward the goal `x`, in the direction `d`, within the limit, and can still stop
on it. -/
structure Approaching (c : Constraints K) (d x : K) (s : State K) : Prop where
  forward : 0 ≤ d * s.velocity
  within : |s.velocity| ≤ c.maxVelocity
  stops : s.velocity ^ 2 / (2 * c.maxAcceleration) ≤ d * (x - s.position)

theorem approaching_iff {d : K} (ha : 0 < c.maxAcceleration) (hd : d = 1 ∨ d = -1) :
    Approaching c d x s ↔ 0 ≤ (toward d x s).speed ∧ |s.velocity| ≤ c.maxVelocity ∧
      0 ≤ (toward d x s).ahead c.maxAcceleration := by
  have hstops (hforward : 0 ≤ d * s.velocity) :
      s.velocity ^ 2 / (2 * c.maxAcceleration) ≤ d * (x - s.position) ↔
        0 ≤ (toward d x s).ahead c.maxAcceleration := by
    have hsq : d * s.velocity * (d * s.velocity) = s.velocity ^ 2 := by
      obtain rfl | rfl := hd <;> ring
    rw [Approach.ahead, toward]
    dsimp only
    rw [abs_of_nonneg hforward, hsq, div_le_iff₀ (by positivity)]
    constructor <;> intro h <;> linarith
  constructor
  · rintro ⟨h1, h2, h3⟩
    exact ⟨h1, h2, (hstops h1).mp h3⟩
  · rintro ⟨h1, h2, h3⟩
    exact ⟨h1, h2, (hstops h1).mpr h3⟩

include hnonneg hsquare hv ha in
/-- A call on an approach is a smooth motion toward the goal, and what the state is ahead of the
goal does not go below zero. It takes at least the time to stop. -/
theorem calculate_smooth {d : K} (hd : d = 1 ∨ d = -1) (hforward : 0 ≤ (toward d x s).speed)
    (hs : |s.velocity| ≤ c.maxVelocity) (hahead : 0 ≤ (toward d x s).ahead c.maxAcceleration)
    (h0 : 0 < t) :
    |s.velocity| / c.maxAcceleration ≤ timeLeftUntil sqrt c s ⟨x, 0⟩ ∧
      (t ≤ timeLeftUntil sqrt c s ⟨x, 0⟩ →
        Approach.Smooth c.maxAcceleration c.maxVelocity t (toward d x s)
            (toward d x (calculate sqrt c t s ⟨x, 0⟩)) ∧
          0 ≤ (toward d x (calculate sqrt c t s ⟨x, 0⟩)).ahead c.maxAcceleration) := by
  have hspeed : |(toward d x s).speed| ≤ c.maxVelocity := by rwa [toward_abs_speed hd]
  obtain hsame | hother := eq_or_ne (getSign c s ⟨x, 0⟩) d
  · obtain ⟨p, htop, htime, hcalc⟩ := calculate_plan (x := x) (s := s) hnonneg hsquare hv ha hs
    rw [hsame] at htop htime hcalc
    have hway := htop.onWay hspeed hahead
    refine ⟨?_, fun ht => ?_⟩
    · rw [htime, ← toward_abs_speed (x := x) hd]
      exact hway.duration_ge ha
    · obtain ⟨⟨q, hnext, -⟩, hsmooth⟩ := Approach.way_onWay ha hway hv h0.le (htime ▸ ht)
      rw [(hcalc t).2 (htime ▸ ht)]
      exact ⟨hsmooth, hnext.ahead_nonneg⟩
  · -- The other direction: within the tie-break, and the call brakes.
    have hgap : 0 ≤ d * (x - s.position - stopWay c s) := by
      rw [ahead_toward ha hd] at hahead
      exact nonneg_of_mul_nonneg_right hahead ha
    have htie : Tie c x s := by
      obtain hgo | htie := ahead_or_tie c x s
      · have hzero : x - s.position - stopWay c s = 0 := by
          obtain hone | hminus := getSign_cases c s ⟨x, 0⟩ <;> obtain rfl | rfl := hd
          · exact absurd hone hother
          · rw [hone] at hgo
            linarith
          · rw [hminus] at hgo
            linarith
          · exact absurd hminus hother
        refine ⟨hzero.le, ?_⟩
        rw [hzero, neg_lt_zero, tieWidth]
        positivity
      · exact htie
    have hd' : d = -1 := hd.resolve_left fun h => hother (h ▸ htie.getSign_eq)
    subst hd'
    have hneg : s.velocity ≤ 0 := by
      simp only [toward] at hforward
      linarith
    obtain ⟨htime, hmove⟩ := htie.brake (t := t) hnonneg hsquare hv ha hs hneg
    refine ⟨by rw [htime, abs_of_nonpos hneg], fun ht => ?_⟩
    have hs' : toward (-1) x (calculate sqrt c t s ⟨x, 0⟩) =
        (toward (-1) x s).move (-c.maxAcceleration) t := by
      have h := hmove ht
      simp only [toward, Approach.move, Approach.mk.injEq] at h ⊢
      exact ⟨by linarith, by linarith⟩
    have hslow : 0 ≤ ((toward (-1) x s).move (-c.maxAcceleration) t).speed := by
      rw [htime, le_div_iff₀' ha] at ht
      simp only [Approach.move_speed, toward]
      linarith
    have hgain : 0 < c.maxAcceleration * t := by positivity
    rw [hs', Approach.ahead_brake hforward hslow]
    refine ⟨Approach.smooth_move ?_ h0.le ?_ ?_, hahead⟩
    · rw [abs_neg, abs_of_pos ha]
    · rw [abs_of_nonneg hforward] at hspeed
      linarith
    · exact (min_le_right _ _).trans hslow

include hnonneg hsquare hv ha in
/-- One call on an approach: an approach again, nearer to the goal and not past it, with no jump of
the velocity. -/
theorem calculate_approaching {d : K} (hd : d = 1 ∨ d = -1) (h : Approaching c d x s)
    (h0 : 0 < t) :
    let s' := calculate sqrt c t s ⟨x, 0⟩
    Approaching c d x s' ∧ d * (x - s'.position) ≤ d * (x - s.position) ∧
      |s'.velocity - s.velocity| ≤ c.maxAcceleration * t := by
  intro s'
  obtain ⟨hforward, hs, hahead⟩ := (approaching_iff ha hd).mp h
  obtain ⟨hstop, hsmooth⟩ :=
    calculate_smooth hnonneg hsquare hv ha hd hforward hs hahead h0
  obtain ⟨hover, hgoal⟩ | ⟨hmore, -, -⟩ :=
    calculate_lands (x := x) (s := s) hnonneg hsquare hv ha h0
  · have hs' : s' = ⟨x, 0⟩ := hgoal
    have hleft : 0 ≤ d * (x - s.position) :=
      (div_nonneg (sq_nonneg _) (by positivity)).trans h.stops
    rw [hs']
    refine ⟨⟨by simp, by simpa using hv.le, by simp⟩, by simpa using hleft, ?_⟩
    have hlt := hstop.trans_lt hover
    rw [div_lt_iff₀' ha] at hlt
    rw [zero_sub, abs_neg]
    exact hlt.le
  · obtain ⟨hmotion, hahead'⟩ := hsmooth hmore
    have hspeed : 0 ≤ (toward d x s').speed := by
      have hback := hmotion.le_speed
      rwa [min_eq_right hforward] at hback
    have hwithin : |s'.velocity| ≤ c.maxVelocity := by
      rw [← toward_abs_speed (x := x) hd]
      exact hmotion.abs_speed_le hv.le (by rwa [toward_abs_speed hd])
    refine ⟨(approaching_iff ha hd).mpr ⟨hspeed, hwithin, hahead'⟩, hmotion.left_le hforward, ?_⟩
    have hchange := hmotion.change_le
    have hsplit : (toward d x s').speed - (toward d x s).speed =
        d * (s'.velocity - s.velocity) := by
      simp only [toward]
      ring
    rw [hsplit, abs_mul] at hchange
    obtain rfl | rfl := hd <;> simpa using hchange

end

end ViamEthercat.Wpilib
