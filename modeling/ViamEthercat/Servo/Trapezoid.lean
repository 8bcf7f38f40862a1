import ViamEthercat.Ethercat.Util
import ViamEthercat.Wpilib.TrapezoidProfile
import Mathlib.Algebra.Order.Ring.Defs

/-!
# `ViamEthercat.Servo.Trapezoid`: the per-cycle set-point source of a cyclic drive

The model of `viam/lib/trapezoid.hpp`. The generator runs toward a goal on the vendored
profile (`Positioning`), or ramps to and holds a velocity (`Velocity`), or holds its
position (`Idle`). It commands in counts of the ordered field `K`. The wire value is the
rounded count as a two's-complement `int32_t`, which `Int32.ofInt` is.

The two limits are stored only after `valid_limit` accepted them and start at 1, so they
are positive in every generator: the structure carries that, and `stop` needs it.
-/

set_option autoImplicit false

namespace ViamEthercat.Servo

open Lib

variable {K : Type} [Field K] [LinearOrder K] [IsStrictOrderedRing K] [FloorRing K]

/-- What the generator is doing. -/
inductive Phase where
  /-- holding position -/
  | idle
  /-- following the profile toward the goal -/
  | positioning
  /-- ramping to or running at the target velocity -/
  | velocity
deriving DecidableEq, Repr

/-- `TrapezoidGenerator`. -/
structure TrapezoidGenerator (K : Type) [Zero K] [LT K] where
  state : Wpilib.State K
  vMax : {v : K // 0 < v}
  accel : {a : K // 0 < a}
  vTarget : K
  goal : Int32
  phase : Phase
deriving DecidableEq

namespace TrapezoidGenerator

/-- A freshly constructed generator. -/
def new : TrapezoidGenerator K :=
  ⟨⟨0, 0⟩, ⟨1, zero_lt_one⟩, ⟨1, zero_lt_one⟩, 0, 0, .idle⟩

/-- `to_wire`: the nearest count as a two's-complement `int32_t`. -/
def toWire (p : K) : Int32 := Int32.ofInt (llround p)

/-- The streamed position, `position()`. -/
def position (g : TrapezoidGenerator K) : Int32 := toWire g.state.position

/-- Reseed to a known position at rest. -/
def reseed (g : TrapezoidGenerator K) (p : Int32) : TrapezoidGenerator K :=
  { g with state := ⟨(p.toInt : K), 0⟩, goal := p, vTarget := 0, phase := .idle }

/-- Move to an absolute goal. Refused, with no change, unless both limits are positive. -/
def setGoal (g : TrapezoidGenerator K) (goal : Int32) (vMax accel : K) :
    TrapezoidGenerator K × Bool :=
  if h : 0 < vMax ∧ 0 < accel then
    ({ g with goal := goal, vMax := ⟨vMax, h.1⟩, accel := ⟨accel, h.2⟩, phase := .positioning },
      true)
  else (g, false)

/-- Velocity run: ramp to `vTarget` and hold it, or to rest and hold position. Refused, with
no change, unless the acceleration is positive. -/
def setVelocity (g : TrapezoidGenerator K) (vTarget accel : K) : TrapezoidGenerator K × Bool :=
  if h : 0 < accel then
    let g := { g with vTarget := vTarget, accel := ⟨accel, h⟩ }
    -- Already at rest: there is nothing to ramp.
    if vTarget = 0 ∧ g.state.velocity = 0 then
      ({ g with goal := toWire g.state.position, phase := .idle }, true)
    else ({ g with phase := .velocity }, true)
  else (g, false)

/-- Decelerate to rest, at the last valid acceleration when `accel` is not one, and hold. -/
def stop (g : TrapezoidGenerator K) (accel : K) : TrapezoidGenerator K :=
  let (g', ok) := g.setVelocity 0 accel
  if ok then g' else (g.setVelocity 0 g.accel.1).1

/-- The velocity change of one cycle of a velocity run. -/
def rampDv (g : TrapezoidGenerator K) (dt : K) : K :=
  let dvMax := g.accel.1 * dt
  let dv := g.vTarget - g.state.velocity
  if dv > dvMax then dvMax else if dv < -dvMax then -dvMax else dv

/-- One cycle of a velocity run: a constant-acceleration ramp, and a hold once at rest. -/
def stepVelocity (g : TrapezoidGenerator K) (dt : K) : TrapezoidGenerator K :=
  let dv := g.rampDv dt
  let g := { g with state := ⟨g.state.position + (g.state.velocity * dt + 1 / 2 * dv * dt),
    g.state.velocity + dv⟩ }
  -- At rest the wire count becomes the goal, modulo 2^32.
  if g.vTarget = 0 ∧ g.state.velocity = 0 then
    { g with goal := toWire g.state.position, phase := .idle }
  else g

/-- One cycle toward the goal, on the profile recomputed from the commanded state. -/
def stepPositioning (sqrt : K → K) (g : TrapezoidGenerator K) (dt : K) :
    TrapezoidGenerator K :=
  let goal : Wpilib.State K := ⟨(g.goal.toInt : K), 0⟩
  let g := { g with state := Wpilib.calculate sqrt ⟨g.vMax.1, g.accel.1⟩ dt g.state goal }
  -- Past its end the profile gives the goal itself, so the test is exact.
  if g.state = goal then { g with phase := .idle } else g

/-- `step`: advance one cycle of `dt` seconds. The commanded position is `position` of the
result. -/
def step (sqrt : K → K) (g : TrapezoidGenerator K) (dt : K) : TrapezoidGenerator K :=
  if g.phase = .idle ∨ ¬ 0 < dt then g
  else if g.phase = .positioning then g.stepPositioning sqrt dt
  else g.stepVelocity dt

/-- `idle()`. -/
def idle (g : TrapezoidGenerator K) : Bool := decide (g.phase = .idle)

end TrapezoidGenerator

end ViamEthercat.Servo
