import Mathlib.Algebra.Order.Field.Basic
import Mathlib.Algebra.Order.Group.Abs
import Mathlib.Tactic.Linarith
import Mathlib.Tactic.FieldSimp
import Mathlib.Tactic.Ring
import ViamEthercat.Lib.Decay
import ViamEthercat.Lib.Round

/-!
# `ViamEthercat.Lib.Approach`: a point on its way to rest on a goal

`Approach` is a point seen from its goal: the distance left, and the speed toward the goal. Its way
has three pieces: it speeds up to `top`, goes on at that speed, and brakes, all at the acceleration
limit `a`. `OnWay a v top m` says that `top` is the speed of that way within the limit `v`, and that
`m` can still stop on the goal. `way` is the point a time later, and `duration` the time of the way.

* `way_onWay`: a point taken along its way is on the way planned from where it is, with that much
  less time left. Planning anew at every instant does not change the way.
* `Smooth`: what a motion within the limits does not do: it has no jump of the speed, is not faster
  than the limit, and does not turn back. Motions compose (`Smooth.trans`), and a way is smooth.
-/

set_option autoImplicit false

namespace ViamEthercat.Lib

variable {K : Type} [Field K] [LinearOrder K]

/-- The distance left to the goal, and the speed toward it. -/
structure Approach (K : Type) where
  left : K
  speed : K

namespace Approach

section
variable (a f t : K) (m : Approach K)

/-- The point after the time `t` at the constant acceleration `f`. -/
def move : Approach K := ⟨m.left - (m.speed * t + f / 2 * t * t), m.speed + f * t⟩

/-- The square of the speed at which `m`, speeding up, has to begin to brake. -/
def turnSq : K := a * m.left + m.speed * m.speed / 2

/-- The distance left, less the way that `m` needs to stop in, times `a`. -/
def ahead : K := a * m.left - |m.speed| * m.speed / 2

omit [LinearOrder K]

@[simp] theorem move_speed : (m.move f t).speed = m.speed + f * t := rfl

theorem move_zero_time : m.move f 0 = m := by simp [move]

variable [LinearOrder K] [IsStrictOrderedRing K]

theorem move_move (u : K) : (m.move f t).move f u = m.move f (t + u) := by
  simp only [move, mk.injEq]
  exact ⟨by ring, by ring⟩

/-- Speeding up does not move the turn. -/
theorem turnSq_speedUp : (m.move a t).turnSq a = m.turnSq a := by
  simp only [turnSq, move]
  ring

theorem turnSq_coast : (m.move 0 t).turnSq a = m.turnSq a - a * m.speed * t := by
  simp only [turnSq, move]
  ring

variable {a f t m}

theorem ahead_of_nonneg (h : 0 ≤ m.speed) : m.ahead a = m.turnSq a - m.speed * m.speed := by
  rw [ahead, turnSq, abs_of_nonneg h]
  ring

theorem ahead_of_nonpos (h : m.speed ≤ 0) : m.ahead a = m.turnSq a := by
  rw [ahead, turnSq, abs_of_nonpos h]
  ring

/-- Braking without turning back keeps what `m` is ahead. -/
theorem ahead_brake (h : 0 ≤ m.speed) (h' : 0 ≤ (m.move (-a) t).speed) :
    (m.move (-a) t).ahead a = m.ahead a := by
  rw [ahead_of_nonneg h, ahead_of_nonneg h']
  simp only [turnSq, move]
  ring

end

/-! ### Motions within the limits -/

section
variable [IsStrictOrderedRing K]

/-- From `m` to `m'` in the time `t`, with the acceleration limit `a` and the speed limit `v`. -/
structure Smooth (a v t : K) (m m' : Approach K) : Prop where
  change_le : |m'.speed - m.speed| ≤ a * t
  speed_le : m'.speed ≤ v
  /-- no turning back, and no faster away from the goal -/
  le_speed : min m.speed 0 ≤ m'.speed
  left_le : 0 ≤ m.speed → m'.left ≤ m.left

variable {a f t u v : K} {m m' m'' : Approach K}

theorem smooth_move (hf : |f| ≤ a) (ht : 0 ≤ t) (hle : m.speed + f * t ≤ v)
    (hback : min m.speed 0 ≤ m.speed + f * t) : Smooth a v t m (m.move f t) where
  change_le := by
    rw [move_speed, add_sub_cancel_left, abs_mul, abs_of_nonneg ht]
    gcongr
  speed_le := hle
  le_speed := hback
  left_le h := by
    rw [min_eq_right h] at hback
    -- the mean speed times the time
    have hcovered : 0 ≤ (m.speed + (m.speed + f * t)) / 2 * t := by positivity
    have hsplit : m.speed * t + f / 2 * t * t = (m.speed + (m.speed + f * t)) / 2 * t := by ring
    show m.left - (m.speed * t + f / 2 * t * t) ≤ m.left
    linarith

theorem Smooth.trans (h : Smooth a v t m m') (h' : Smooth a v u m' m'') :
    Smooth a v (t + u) m m'' where
  change_le := by
    calc |m''.speed - m.speed| ≤ |m''.speed - m'.speed| + |m'.speed - m.speed| := abs_sub_le ..
      _ ≤ a * u + a * t := add_le_add h'.change_le h.change_le
      _ = a * (t + u) := by ring
  speed_le := h'.speed_le
  le_speed := by
    have hback := h.le_speed
    calc min m.speed 0 ≤ min m'.speed 0 := le_min hback (min_le_right _ _)
      _ ≤ m''.speed := h'.le_speed
  left_le hspeed := by
    have hback := h.le_speed
    rw [min_eq_right hspeed] at hback
    exact (h'.left_le hback).trans (h.left_le hspeed)

theorem Smooth.abs_speed_le (h : Smooth a v t m m') (hv : 0 ≤ v) (hm : |m.speed| ≤ v) :
    |m'.speed| ≤ v := by
  have hback : -v ≤ min m.speed 0 := le_min (abs_le.mp hm).1 (neg_nonpos.mpr hv)
  exact abs_le.mpr ⟨hback.trans h.le_speed, h.speed_le⟩

end

/-! ### The way to the goal -/

section
variable (a t : K) (m : Approach K)

/-- The time of the way with the top speed `p`. -/
def duration (p : K) : K :=
  (p - m.speed) / a + (max (m.turnSq a) 0 - p * p) / (a * p) + p / a

/-- The point after the time `t` on its way with the top speed `p`. -/
def way (p : K) : Approach K :=
  let t1 := (p - m.speed) / a
  let t2 := (max (m.turnSq a) 0 - p * p) / (a * p)
  if t ≤ t1 then m.move a t
  else if t - t1 ≤ t2 then (m.move a t1).move 0 (t - t1)
  else ((m.move a t1).move 0 t2).move (-a) (t - t1 - t2)

/-- `p` is the top speed of the way of `m` within the limit `v`. -/
structure Top (v p : K) : Prop where
  nonneg : 0 ≤ p
  le : p ≤ v
  sq_le : p * p ≤ max (m.turnSq a) 0
  /-- the limit, or the turn -/
  tight : p = v ∨ p * p = max (m.turnSq a) 0

/-- `m` is not too fast for its way, so that it can stop on the goal. -/
structure OnWay (v p : K) : Prop extends m.Top a v p where
  speed_le : m.speed ≤ p
  turn_nonneg : 0 ≤ m.turnSq a

end

variable {a t v p : K} {m : Approach K}

/-- The top speed that the turn alone gives. -/
theorem Top.of_sq (hp : 0 ≤ p) (hle : p ≤ v) (hsq : p * p = max (m.turnSq a) 0) : m.Top a v p :=
  ⟨hp, hle, hsq.le, .inr hsq⟩

variable [IsStrictOrderedRing K]

theorem OnWay.ahead_nonneg (h : m.OnWay a v p) : 0 ≤ m.ahead a := by
  obtain hspeed | hspeed := le_total 0 m.speed
  · have hturn := h.sq_le
    rw [max_eq_left h.turn_nonneg] at hturn
    have hsq : m.speed * m.speed ≤ p * p := mul_self_le_mul_self hspeed h.speed_le
    rw [ahead_of_nonneg hspeed]
    linarith
  · rw [ahead_of_nonpos hspeed]
    exact h.turn_nonneg

/-- A point that can stop on the goal is on its way. -/
theorem Top.onWay (h : m.Top a v p) (hm : |m.speed| ≤ v) (hahead : 0 ≤ m.ahead a) :
    m.OnWay a v p := by
  obtain hspeed | hspeed := le_total 0 m.speed
  · rw [ahead_of_nonneg hspeed] at hahead
    have hnonneg : 0 ≤ m.turnSq a := by
      have hsq : 0 ≤ m.speed * m.speed := mul_self_nonneg _
      linarith
    refine ⟨h, ?_, hnonneg⟩
    obtain hlimit | hsq := h.tight
    · rw [hlimit]
      exact (le_abs_self _).trans hm
    · rw [max_eq_left hnonneg] at hsq
      exact (mul_self_le_mul_self_iff hspeed h.nonneg).mpr (by linarith)
  · rw [ahead_of_nonpos hspeed] at hahead
    exact ⟨h, hspeed.trans h.nonneg, hahead⟩

/-- There is one top speed. -/
theorem Top.unique {q : K} (hp : m.Top a v p) (hq : m.Top a v q) : p = q := by
  have hlt {p q : K} (hp : m.Top a v p) (hq : m.Top a v q) : p ≤ q := by
    obtain rfl | hsq := hq.tight
    · exact hp.le
    · exact (mul_self_le_mul_self_iff hp.nonneg hq.nonneg).mpr (hsq ▸ hp.sq_le)
  exact le_antisymm (hlt hp hq) (hlt hq hp)

variable (ha : 0 < a)
include ha

theorem OnWay.speedUp (h : m.OnWay a v p) (h0 : 0 ≤ t) (ht : t ≤ (p - m.speed) / a) :
    (m.move a t).OnWay a v p ∧ (m.move a t).duration a p = m.duration a p - t ∧
      Smooth a v t m (m.move a t) := by
  have hturn := turnSq_speedUp a t m
  have hspeed : m.speed + a * t ≤ p := by
    rw [le_div_iff₀' ha] at ht
    linarith
  have hgain : 0 ≤ a * t := by positivity
  refine ⟨⟨⟨h.nonneg, h.le, hturn ▸ h.sq_le, hturn ▸ h.tight⟩, hspeed, hturn ▸ h.turn_nonneg⟩, ?_,
    smooth_move (abs_of_pos ha).le h0 (hspeed.trans h.le) ?_⟩
  · have hfirst : (p - (m.speed + a * t)) / a = (p - m.speed) / a - t := by
      field_simp
      ring
    rw [duration, hturn, move_speed, hfirst, duration]
    ring
  · exact (min_le_left _ _).trans (by linarith)

/-- At the top speed, with the cruise still ahead. -/
theorem OnWay.coast (h : m.OnWay a v p) (hspeed : m.speed = p) (h0 : 0 ≤ t)
    (ht : t ≤ (max (m.turnSq a) 0 - p * p) / (a * p)) :
    (m.move 0 t).OnWay a v p ∧ (m.move 0 t).duration a p = m.duration a p - t ∧
      Smooth a v t m (m.move 0 t) := by
  have hsmooth : Smooth a v t m (m.move 0 t) :=
    smooth_move (by simpa using ha.le) h0 (by simpa [hspeed] using h.le) (by simp)
  rw [max_eq_left h.turn_nonneg] at ht
  have hturn := turnSq_coast a t m
  rw [hspeed] at hturn
  obtain hzero | hpos := h.nonneg.eq_or_lt
  · -- without a top speed there is no cruise
    have ht0 : t = 0 := by
      rw [← hzero] at ht
      simp only [mul_zero, div_zero] at ht
      exact le_antisymm ht h0
    rw [ht0, move_zero_time, sub_zero]
    rw [ht0, move_zero_time] at hsmooth
    exact ⟨h, rfl, hsmooth⟩
  have hap : 0 < a * p := mul_pos ha hpos
  rw [le_div_iff₀' hap] at ht
  have hleft : p * p ≤ (m.move 0 t).turnSq a := by
    rw [hturn]
    linarith
  have hnonneg : 0 ≤ (m.move 0 t).turnSq a := (mul_self_nonneg p).trans hleft
  have htight : p = v ∨ p * p = max ((m.move 0 t).turnSq a) 0 := by
    refine h.tight.imp_right fun hsq => ?_
    rw [max_eq_left h.turn_nonneg] at hsq
    rw [max_eq_left hnonneg]
    have hcovered : 0 ≤ a * p * t := by positivity
    linarith
  refine ⟨⟨⟨h.nonneg, h.le, hleft.trans (le_max_left _ _), htight⟩, ?_, hnonneg⟩, ?_, hsmooth⟩
  · simp [hspeed]
  · rw [duration, duration, max_eq_left hnonneg, max_eq_left h.turn_nonneg, hturn, move_speed,
      hspeed]
    field_simp
    ring

/-- At the turn, with nothing left but to brake. The top speed is the speed itself. -/
theorem OnWay.brake (h : m.OnWay a v p) (hspeed : m.speed = p) (hturn : m.turnSq a = p * p)
    (h0 : 0 ≤ t) (ht : t ≤ p / a) :
    (m.move (-a) t).OnWay a v (p - a * t) ∧
      (m.move (-a) t).duration a (p - a * t) = m.duration a p - t ∧
      Smooth a v t m (m.move (-a) t) := by
  rw [le_div_iff₀' ha] at ht
  have hslower : (m.move (-a) t).speed = p - a * t := by
    rw [move_speed, hspeed]
    ring
  have hahead := ahead_brake (hspeed ▸ h.nonneg) (hslower ▸ sub_nonneg.mpr ht)
  have hturn' : (m.move (-a) t).turnSq a = (p - a * t) * (p - a * t) := by
    rw [ahead_of_nonneg (hslower ▸ sub_nonneg.mpr ht), ahead_of_nonneg (hspeed ▸ h.nonneg),
      hslower, hspeed, hturn] at hahead
    linarith
  have hnonneg : 0 ≤ (m.move (-a) t).turnSq a := hturn' ▸ mul_self_nonneg _
  have hle : p - a * t ≤ v := by
    have hbraked : 0 ≤ a * t := by positivity
    linarith [h.le]
  refine ⟨⟨.of_sq (by linarith) hle ?_, hslower.le, hnonneg⟩, ?_, smooth_move ?_ h0 ?_ ?_⟩
  · rw [max_eq_left hnonneg, hturn']
  · rw [duration, duration, max_eq_left hnonneg, max_eq_left h.turn_nonneg, hturn', hturn, hslower,
      hspeed]
    simp only [sub_self, zero_div, zero_add]
    field_simp
  · rw [abs_neg, abs_of_pos ha]
  · rw [hspeed]
    linarith
  · exact (min_le_right _ _).trans (by linarith)

omit [IsStrictOrderedRing K] in
/-- The end of the first piece. -/
theorem speed_turn : (m.move a ((p - m.speed) / a)).speed = p := by
  rw [move_speed]
  field_simp
  ring

/-- A point on its way is on the way from there, for the time that is left. -/
theorem way_onWay (h : m.OnWay a v p) (hv : 0 < v) (h0 : 0 ≤ t) (ht : t ≤ m.duration a p) :
    (∃ p', (m.way a t p).OnWay a v p' ∧ (m.way a t p).duration a p' = m.duration a p - t) ∧
      Smooth a v t m (m.way a t p) := by
  have hfirst : 0 ≤ (p - m.speed) / a := div_nonneg (sub_nonneg.mpr h.speed_le) ha.le
  obtain ⟨hmid, hmidTime, hmidSmooth⟩ := h.speedUp ha hfirst le_rfl
  have htop := speed_turn (m := m) (p := p) ha
  have hturn := turnSq_speedUp a ((p - m.speed) / a) m
  unfold way
  dsimp only
  split_ifs with h1 h2
  · obtain ⟨hway, htime, hsmooth⟩ := h.speedUp ha h0 h1
    exact ⟨⟨p, hway, htime⟩, hsmooth⟩
  · rw [← hturn] at h2
    obtain ⟨hend, hendTime, hendSmooth⟩ := hmid.coast ha htop (by linarith) h2
    have hsmooth := hmidSmooth.trans hendSmooth
    rw [add_sub_cancel] at hsmooth
    exact ⟨⟨p, hend, by rw [hendTime, hmidTime]; ring⟩, hsmooth⟩
  · have hcruise : 0 ≤ (max (m.turnSq a) 0 - p * p) / (a * p) :=
      div_nonneg (sub_nonneg.mpr h.sq_le) (mul_nonneg ha.le h.nonneg)
    obtain ⟨hend, hendTime, hendSmooth⟩ := hmid.coast ha htop hcruise (by rw [hturn])
    have hendSpeed : ((m.move a ((p - m.speed) / a)).move 0
        ((max (m.turnSq a) 0 - p * p) / (a * p))).speed = p := by
      rw [move_speed, htop]
      ring
    have hendTurn : ((m.move a ((p - m.speed) / a)).move 0
        ((max (m.turnSq a) 0 - p * p) / (a * p))).turnSq a = p * p := by
      rw [turnSq_coast, hturn, htop, max_eq_left h.turn_nonneg]
      obtain hzero | hpos := h.nonneg.eq_or_lt
      · have htight := h.tight
        rw [max_eq_left h.turn_nonneg, ← hzero] at htight
        rw [← hzero]
        obtain hlimit | hsq := htight
        · exact absurd hlimit hv.ne
        · simp [← hsq]
      · field_simp
        ring
    have hrest : t - (p - m.speed) / a - (max (m.turnSq a) 0 - p * p) / (a * p) ≤ p / a := by
      rw [duration] at ht
      linarith
    obtain ⟨hlast, hlastTime, hlastSmooth⟩ :=
      hend.brake ha hendSpeed hendTurn (by linarith [not_le.mp h2]) hrest
    have hsmooth := (hmidSmooth.trans hendSmooth).trans hlastSmooth
    refine ⟨⟨_, hlast, by rw [hlastTime, hendTime, hmidTime]; ring⟩, ?_⟩
    convert hsmooth using 1
    ring

/-- The way takes at least the time to stop. -/
theorem OnWay.duration_ge (h : m.OnWay a v p) : |m.speed| / a ≤ m.duration a p := by
  have hcruise : 0 ≤ (max (m.turnSq a) 0 - p * p) / (a * p) :=
    div_nonneg (sub_nonneg.mpr h.sq_le) (mul_nonneg ha.le h.nonneg)
  have hbrake : |m.speed| ≤ p - m.speed + p :=
    abs_le.mpr ⟨by linarith [h.nonneg, h.speed_le], by linarith [h.nonneg, h.speed_le]⟩
  calc |m.speed| / a ≤ (p - m.speed + p) / a := by gcongr
    _ = (p - m.speed) / a + p / a := add_div ..
    _ ≤ m.duration a p := by
      rw [duration]
      linarith

omit ha in
/-- A point that has to brake at once, or cannot stop on the goal at all. -/
theorem Top.duration_passed (h : m.Top a v p) (hm : |m.speed| ≤ v) (hahead : m.ahead a ≤ 0) :
    max (m.turnSq a) 0 = p * p ∧ p ≤ max m.speed 0 ∧ m.duration a p = (p + p - m.speed) / a := by
  have hsq : max (m.turnSq a) 0 = p * p ∧ p ≤ max m.speed 0 := by
    obtain hspeed | hspeed := le_total 0 m.speed
    · rw [ahead_of_nonneg hspeed] at hahead
      have hturn : max (m.turnSq a) 0 ≤ m.speed * m.speed :=
        max_le (by linarith) (mul_self_nonneg _)
      rw [max_eq_left hspeed]
      have hle := (mul_self_le_mul_self_iff h.nonneg hspeed).mpr (h.sq_le.trans hturn)
      refine ⟨?_, hle⟩
      obtain hlimit | hsq := h.tight
      · -- at the limit already
        have heq : p = m.speed := le_antisymm hle (hlimit ▸ (le_abs_self _).trans hm)
        exact le_antisymm (heq ▸ hturn) h.sq_le
      · exact hsq.symm
    · rw [ahead_of_nonpos hspeed] at hahead
      have hturn : max (m.turnSq a) 0 = 0 := max_eq_right hahead
      have hzero : p = 0 := by
        have hsq := h.sq_le
        rw [hturn] at hsq
        exact mul_self_eq_zero.mp (le_antisymm hsq (mul_self_nonneg _))
      rw [hturn, hzero, mul_zero]
      exact ⟨rfl, le_max_right _ _⟩
  refine ⟨hsq.1, hsq.2, ?_⟩
  rw [duration, hsq.1, sub_self, zero_div, add_zero, ← add_div]
  ring

end Approach

end ViamEthercat.Lib
