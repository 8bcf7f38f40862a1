import ViamEthercat.Lib.Round
import Mathlib.Algebra.Order.Field.Basic
import Mathlib.Algebra.Order.Group.Abs

/-!
# `ViamEthercat.Wpilib.TrapezoidProfile`: the vendored trapezoid profile

The model of `third_party/wpilib/trapezoid_profile.hpp`, equation by equation. A `double`
is an element of an ordered field `K`, so that the arithmetic is exact. `std::sqrt` is the
one operation of the file that no ordered field need have: it is the parameter `sqrt`, and
a proof that relies on it states what it needs.

The source threads the timing of the last profile through the member `m_profile`. Only
`Calculate` reads it within one call, so the model returns the sample alone. `Duration` and
`IsFinished`, which read it after a call, have no caller and are left out.
-/

set_option autoImplicit false

namespace ViamEthercat.Wpilib

variable {K : Type} [Field K] [LinearOrder K]

/-- `std::copysign`, for a sign argument whose zero is the positive one. -/
def copysign (x y : K) : K := if y < 0 then -|x| else |x|

/-- Profile constraints, both positive. -/
structure Constraints (K : Type) where
  maxVelocity : K
  maxAcceleration : K
deriving DecidableEq, Repr

/-- Profile state. -/
structure State (K : Type) where
  position : K
  velocity : K
deriving DecidableEq, Repr

/-- Profile timing: the time spent accelerating, at the limit, and decelerating. -/
structure ProfileTiming (K : Type) where
  t1 : K
  t2 : K
  t3 : K
deriving DecidableEq, Repr

/-- `TrapezoidProfile::AdjustStates`: the time to bring the current state back within the
constraints, and the two states there. -/
def adjustStates (c : Constraints K) (current goal : State K) : K × State K × State K :=
  let goal :=
    if |goal.velocity| > c.maxVelocity then
      { goal with velocity := copysign c.maxVelocity goal.velocity }
    else goal
  -- Too fast for the constraints: first brake to the limit.
  let violationAmount := |current.velocity| - c.maxVelocity
  if violationAmount > 0 then
    let recoveryTime := violationAmount / c.maxAcceleration
    (recoveryTime,
      ⟨current.position + (current.velocity * recoveryTime
          + copysign c.maxAcceleration (-current.velocity) * recoveryTime * recoveryTime / 2),
        copysign c.maxVelocity current.velocity⟩,
      goal)
  else (0, current, goal)

/-- `TrapezoidProfile::GetSign`: the direction of the profile, with the anti-chattering
tie-break. -/
def getSign (c : Constraints K) (current goal : State K) : K :=
  let dx := goal.position - current.position
  let d := |goal.velocity - current.velocity| * (goal.velocity + current.velocity)
    / (2 * c.maxAcceleration)
  -- `d` is the distance covered while the velocity changes to that of the goal.
  if |dx - d| < 1 / 10 ^ 12 then copysign 1 goal.velocity
  else if dx > d then 1 else -1

/-- `TrapezoidProfile::GenerateProfile`: the timings from valid states. -/
def generateProfile (sqrt : K → K) (c : Constraints K) (sign : K) (current goal : State K) :
    ProfileTiming K :=
  let acceleration := sign * c.maxAcceleration
  let velocityLimit := sign * c.maxVelocity
  let dx := goal.position - current.position
  let peakVelocity := sign * sqrt (max (acceleration * dx
    + (goal.velocity * goal.velocity + current.velocity * current.velocity) / 2) 0)
  -- A trapezoid when the peak would pass the limit, else a triangle.
  if sign * peakVelocity > c.maxVelocity then
    let x1 := (velocityLimit * velocityLimit - current.velocity * current.velocity)
      / (2 * acceleration)
    let x3 := (velocityLimit * velocityLimit - goal.velocity * goal.velocity)
      / (2 * acceleration)
    let x2 := dx - x1 - x3
    ⟨(velocityLimit - current.velocity) / acceleration, x2 / velocityLimit,
      (velocityLimit - goal.velocity) / acceleration⟩
  else
    ⟨(peakVelocity - current.velocity) / acceleration, 0,
      (peakVelocity - goal.velocity) / acceleration⟩

/-- The `advance` lambda of `Calculate`: constant acceleration for `time`. -/
def advance (time acceleration : K) (s : State K) : State K :=
  ⟨s.position + (s.velocity * time + acceleration / 2 * time * time),
    s.velocity + acceleration * time⟩

/-- `TrapezoidProfile::Calculate`: the state `t` ahead of `current` on the profile toward
`goal`. -/
def calculate (sqrt : K → K) (c : Constraints K) (t : K) (current goal : State K) : State K :=
  let sample := current
  let (recoveryTime, current, goal) := adjustStates c current goal
  let sign := getSign c current goal
  let profile := generateProfile sqrt c sign current goal
  let t1 := profile.t1 + recoveryTime
  let acceleration := sign * c.maxAcceleration
  -- A recovery in the direction of the profile brakes instead of accelerating.
  let first := if recoveryTime > 0 ∧ sample.velocity * sign > 0 then -acceleration
    else acceleration
  let sample := advance (min t t1) first sample
  if t > t1 then
    let t := t - t1
    let sample := advance (min t profile.t2) 0 sample
    if t > profile.t2 then
      let t := t - profile.t2
      let sample := advance (min t profile.t3) (-acceleration) sample
      if t > profile.t3 then goal else sample
    else sample
  else sample

/-- `TrapezoidProfile::TimeLeftUntil`: the time to get between two states. -/
def timeLeftUntil (sqrt : K → K) (c : Constraints K) (current goal : State K) : K :=
  let (recoveryTime, current, goal) := adjustStates c current goal
  let sign := getSign c current goal
  let profile := generateProfile sqrt c sign current goal
  profile.t1 + recoveryTime + profile.t2 + profile.t3

end ViamEthercat.Wpilib
