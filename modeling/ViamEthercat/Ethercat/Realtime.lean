import Mathlib.Algebra.Group.Int.Defs
import Mathlib.Algebra.Order.Group.Int

/-!
# `ViamEthercat.Ethercat.Realtime`: the phase lock and the pacer

The model of `dc_phase_correction` (`ethercat/dc_sync.hpp`) and of `DcPacer`
(`ethercat/realtime.hpp`). `std::int64_t` and `long` are integers, `std::uint64_t` is a natural
number: no 64-bit arithmetic overflows here. `/` and `%` truncate, as in the source.

The clock is a stream of readings. The catch-up loop runs on fuel, one unit for each reading.
-/

set_option autoImplicit false

namespace ViamEthercat

/-- The signed distance from the phase of the DC time to its target, in
`(-cycle / 2, cycle / 2]`. -/
def phaseError (dcTime cycle shift : Int) : Int :=
  let delta := (((dcTime - shift).tmod cycle) + cycle).tmod cycle
  if delta > cycle.tdiv 2 then delta - cycle else delta

/-- The integral after one more sample of the sign of the error, inside the correction range. -/
def windIntegral (delta integral maxCorrection : Int) : Int :=
  let wound := if delta > 0 then integral + 1 else if delta < 0 then integral - 1 else integral
  let limit := maxCorrection * 20
  if wound > limit then limit else if wound < -limit then -limit else wound

/-- `dc_phase_correction`: the nanoseconds to add to the deadline, and the integral. -/
def dcPhaseCorrection (dcTime cycle integral shift : Int) (maxCorrection : Int := 50000) :
    Int × Int :=
  if dcTime = 0 ∨ cycle = 0 then (0, integral)
  else
    let delta := phaseError dcTime cycle shift
    let integral := windIntegral delta integral maxCorrection
    let corr := -(delta.tdiv 100) - integral.tdiv 20
    (if corr > maxCorrection then maxCorrection
      else if corr < -maxCorrection then -maxCorrection else corr, integral)

/-- `realtime::DcPacer`. -/
structure DcPacer where
  period : Nat
  shift : Int
  next : Nat
  integral : Int := 0
deriving DecidableEq, Repr

namespace DcPacer

/-- `DcPacer::DcPacer`: the first deadline is one period from now. -/
def new (period : Nat) (shift : Int) (now : Nat) : DcPacer :=
  { period := period, shift := shift, next := now + period }

/-- `DcPacer::reset`. -/
def reset (p : DcPacer) (firstDeadline : Nat) : DcPacer :=
  { p with next := firstDeadline, integral := 0 }

/-- `DcPacer::advance`: one corrected period, and at least 1 ns. -/
def advance (p : DcPacer) (dcTime : Int) : DcPacer :=
  let (corr, integral) := dcPhaseCorrection dcTime p.period p.integral p.shift
  { p with next := p.next + (max (p.period + corr) 1).toNat, integral := integral }

/-- The loop of `advance_to_deadline`, from the reading `i` of the clock: the deadline, and how
many periods were skipped. -/
def skipMissed (period : Nat) (now : Nat → Nat) : Nat → Nat → Nat → UInt32 → Option (Nat × UInt32)
  | 0, _, _, _ => none
  | fuel + 1, i, next, skipped =>
      if next ≤ now i then skipMissed period now fuel (i + 1) (next + period) (skipped + 1)
      else some (next, skipped)

/-- `DcPacer::advance_to_deadline`. -/
def advanceToDeadline (fuel : Nat) (p : DcPacer) (dcTime : Int) (now : Nat → Nat) :
    Option (DcPacer × UInt32) :=
  let p := p.advance dcTime
  (skipMissed p.period now fuel 0 p.next 0).map fun (next, skipped) =>
    ({ p with next := next }, skipped)

/-- `DcPacer::step`: the clock is fixed. The loop reads it at most `now + 1` times. -/
def step (p : DcPacer) (dcTime : Int) (now : Nat) : Option DcPacer :=
  (advanceToDeadline (now + 1) p dcTime fun _ => now).map Prod.fst

end DcPacer

end ViamEthercat
