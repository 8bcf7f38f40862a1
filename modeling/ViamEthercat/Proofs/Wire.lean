import ViamEthercat.Proofs.Profile
import ViamEthercat.Servo.MotionMode
import ViamEthercat.Lib.Run
import Mathlib.Analysis.Real.Sqrt

/-!
# `ViamEthercat.Proofs.Wire`: the commanded position and its wire value

The generator commands an unbounded position and the wire carries it modulo 2^32. While the
commanded position rounds to an `int32_t` the two are the same integer, and a goal is the
displacement from the wire value that the caller sees. Past the range they differ by a
multiple of 2^32, and the next goal plans a full-range move.

`generator_wire_exact`: in every state of a run of generator calls the two agree, when every
`step` of the run starts with headroom (`Headroom`): the position that the cycle leads to lies
within the `int32_t` range. And a relative move from rest plans its displacement if and only
if its goal lies in that range, since `go_for` adds in 32 bits.

A `double` is a real number here, and `std::sqrt` is the real root.
-/

set_option autoImplicit false

namespace ViamEthercat.Servo

open Lib

section
variable {K : Type} [Field K] [LinearOrder K] [IsStrictOrderedRing K] [FloorRing K]

/-! ### Rounding to the wire -/

/-- The count rounds to an `int32_t`. -/
def FitsWire (x : K) : Prop := -2 ^ 31 - 1 / 2 < x ∧ x < 2 ^ 31 - 1 / 2

/-- A count fits if and only if its rounded value is an `int32_t`. -/
theorem fitsWire_iff (x : K) : FitsWire x ↔ -2 ^ 31 ≤ llround x ∧ llround x < 2 ^ 31 := by
  -- The two halves go away from zero, so the range is open at both ends.
  have hlow := llround_le_iff (x := x) (n := -2 ^ 31 - 1) (by norm_num)
  have hhigh := le_llround_iff (x := x) (n := 2 ^ 31) (by norm_num)
  push_cast at hlow hhigh
  unfold FitsWire
  constructor
  · rintro ⟨hlo, hhi⟩
    have hge : ¬ llround x ≤ -2 ^ 31 - 1 := fun h => by linarith [hlow.mp h]
    have hlt : ¬ 2 ^ 31 ≤ llround x := fun h => by linarith [hhigh.mp h]
    omega
  · rintro ⟨hlo, hhi⟩
    have hge : ¬ x ≤ -2 ^ 31 - 1 / 2 := fun h => by
      have := hlow.mpr (by linarith)
      omega
    have hlt : ¬ 2 ^ 31 - 1 / 2 ≤ x := fun h => by
      have := hhigh.mpr (by linarith)
      omega
    exact ⟨not_le.mp hge, not_le.mp hlt⟩

/-- An integer is the wire value of itself if and only if it is an `int32_t`. -/
theorem toInt_ofInt_iff (n : Int) :
    (Int32.ofInt n).toInt = n ↔ -2 ^ 31 ≤ n ∧ n < 2 ^ 31 := by
  constructor
  · intro h
    have hlo := (Int32.ofInt n).le_toInt
    have hhi := (Int32.ofInt n).toInt_lt
    omega
  · rintro ⟨hlo, hhi⟩
    exact Int32.toInt_ofInt_of_le hlo hhi

theorem fitsWire_toInt (x : Int32) : FitsWire (x.toInt : K) := by
  have hlo : (-2 ^ 31 : K) ≤ x.toInt := by exact_mod_cast x.le_toInt
  have hhi : (x.toInt : K) ≤ 2 ^ 31 - 1 := by exact_mod_cast Int.le_sub_one_of_lt x.toInt_lt
  exact ⟨by linarith, by linarith⟩

/-- A count near one that fits with that margin fits. -/
theorem fitsWire_of_near {x y e : K} (hlo : FitsWire (y - e)) (hhi : FitsWire (y + e))
    (h : |x - y| ≤ e) : FitsWire x := by
  rw [abs_le] at h
  exact ⟨by linarith [hlo.1], by linarith [hhi.2]⟩

namespace TrapezoidGenerator

/-- The commanded position is the wire value, as an integer. -/
def WireExact (g : TrapezoidGenerator K) : Prop := llround g.state.position = g.position.toInt

theorem wireExact_iff (g : TrapezoidGenerator K) :
    g.WireExact ↔ FitsWire g.state.position := by
  rw [fitsWire_iff, ← toInt_ofInt_iff]
  exact eq_comm

/-- The displacement that the generator plans: from the commanded position to the goal. -/
def planned (g : TrapezoidGenerator K) : K := (g.goal.toInt : K) - g.state.position

/-- Every accepted goal is planned as its displacement from the wire value, up to the
fraction of a count that the wire does not carry. -/
def PlansFromWire (g : TrapezoidGenerator K) : Prop :=
  ∀ (goal : Int32) (vMax accel : K), (g.setGoal goal vMax accel).2 = true →
    |(g.setGoal goal vMax accel).1.planned - ((goal.toInt : K) - g.position.toInt)| ≤ 1 / 2

theorem plansFromWire_of_wireExact {g : TrapezoidGenerator K} (h : g.WireExact) :
    g.PlansFromWire := by
  intro goal vMax accel hok
  unfold setGoal at hok ⊢
  split_ifs at hok ⊢ with hlimits
  have hround := abs_llround_sub_le g.state.position
  rw [← h]
  convert hround using 2
  simp only [planned]
  ring

/-! ### Runs of the generator -/

/-- One call of the generator. -/
inductive Call (K : Type) where
  | reseed (p : Int32)
  | setGoal (goal : Int32) (vMax accel : K)
  | setVelocity (vTarget accel : K)
  | stop (accel : K)
  | step (dt : K)

/-- The generator after a call. -/
def call (sqrt : K → K) (g : TrapezoidGenerator K) : Call K → TrapezoidGenerator K
  | .reseed p => g.reseed p
  | .setGoal goal vMax accel => (g.setGoal goal vMax accel).1
  | .setVelocity vTarget accel => (g.setVelocity vTarget accel).1
  | .stop accel => g.stop accel
  | .step dt => g.step sqrt dt

/-- The width of what one cycle can add to uniform motion: half the acceleration times the
square of the cycle, and the tie-break of the profile. -/
def reach (g : TrapezoidGenerator K) (dt : K) : K := g.accel.1 * (dt ^ 2 / 2) + 1 / 10 ^ 12

/-- A moving generator has headroom for a step of `dt` seconds: the position that its
velocity leads to lies within the range of the wire by more than the acceleration can add. -/
def Headroom (g : TrapezoidGenerator K) : Call K → Prop
  | .step dt => 0 < dt → g.phase ≠ .idle →
      FitsWire (g.state.position + g.state.velocity * dt - g.reach dt) ∧
        FitsWire (g.state.position + g.state.velocity * dt + g.reach dt)
  | _ => True

omit [IsStrictOrderedRing K] in
/-- Setting a velocity does not move the commanded position. -/
theorem setVelocity_state (g : TrapezoidGenerator K) (vTarget accel : K) :
    (g.setVelocity vTarget accel).1.state = g.state := by
  unfold setVelocity
  split_ifs
  · dsimp only
    split_ifs <;> rfl
  · rfl

omit [IsStrictOrderedRing K] in
theorem stop_state (g : TrapezoidGenerator K) (accel : K) :
    (g.stop accel).state = g.state := by
  unfold stop
  dsimp only
  split_ifs
  · exact g.setVelocity_state 0 accel
  · exact g.setVelocity_state 0 g.accel.1

/-- One cycle of a velocity run stays near uniform motion. -/
theorem stepVelocity_position (g : TrapezoidGenerator K) {dt : K} (hdt : 0 < dt) :
    |(g.stepVelocity dt).state.position - (g.state.position + g.state.velocity * dt)|
      ≤ g.reach dt := by
  have hposition : (g.stepVelocity dt).state.position
      = g.state.position + (g.state.velocity * dt + 1 / 2 * g.rampDv dt * dt) := by
    unfold stepVelocity
    dsimp only
    split_ifs <;> rfl
  -- The ramp is clamped to what the acceleration gives in one cycle.
  have hramp : |g.rampDv dt| ≤ g.accel.1 * dt := by
    have ha : 0 < g.accel.1 * dt := mul_pos g.accel.2 hdt
    unfold rampDv
    dsimp only
    split_ifs with hup hdown
    · rw [abs_of_pos ha]
    · rw [abs_neg, abs_of_pos ha]
    · exact abs_le.mpr ⟨not_lt.mp hdown, not_lt.mp hup⟩
  calc |(g.stepVelocity dt).state.position - (g.state.position + g.state.velocity * dt)|
      = |g.rampDv dt| * (dt / 2) := by
        rw [hposition, ← abs_of_pos (half_pos hdt), ← abs_mul]
        congr 1
        ring
    _ ≤ g.accel.1 * dt * (dt / 2) := by gcongr
    _ = g.accel.1 * (dt ^ 2 / 2) := by ring
    _ ≤ g.reach dt := le_add_of_nonneg_right (by positivity)

omit [FloorRing K] in
/-- One cycle toward the goal lands on it, or stays near uniform motion. -/
theorem stepPositioning_position {sqrt : K → K} (hnonneg : ∀ x, 0 ≤ sqrt x)
    (hsquare : ∀ x, 0 ≤ x → sqrt x * sqrt x = x) (g : TrapezoidGenerator K) {dt : K}
    (hdt : 0 < dt) :
    (g.stepPositioning sqrt dt).state.position = (g.goal.toInt : K) ∨
      |(g.stepPositioning sqrt dt).state.position
        - (g.state.position + g.state.velocity * dt)| ≤ g.reach dt := by
  have hstate : (g.stepPositioning sqrt dt).state
      = Wpilib.calculate sqrt ⟨g.vMax.1, g.accel.1⟩ dt g.state ⟨(g.goal.toInt : K), 0⟩ := by
    unfold stepPositioning
    dsimp only
    split_ifs <;> rfl
  rw [hstate]
  exact (Wpilib.calculate_displacement hnonneg hsquare g.vMax.2 g.accel.2 hdt.le _).imp_left
    (congrArg Wpilib.State.position)

/-- A call with headroom keeps the commanded position within the range of the wire. -/
theorem fitsWire_call {sqrt : K → K} (hnonneg : ∀ x, 0 ≤ sqrt x)
    (hsquare : ∀ x, 0 ≤ x → sqrt x * sqrt x = x) (g : TrapezoidGenerator K) (c : Call K)
    (h : FitsWire g.state.position) (hroom : g.Headroom c) :
    FitsWire (g.call sqrt c).state.position := by
  cases c with
  | reseed p => exact fitsWire_toInt p
  | setGoal goal vMax accel =>
      simp only [call, setGoal]
      split_ifs <;> exact h
  | setVelocity vTarget accel =>
      rw [call, setVelocity_state]
      exact h
  | stop accel =>
      rw [call, stop_state]
      exact h
  | step dt =>
      simp only [call, step]
      split_ifs with hhold hpos
      · exact h
      all_goals
        -- A moving generator: the condition gives the margin for both kinds of step.
        push Not at hhold
        obtain ⟨hlo, hhi⟩ := hroom hhold.2 hhold.1
      · rcases g.stepPositioning_position hnonneg hsquare hhold.2 with hgoal | hnear
        · rw [hgoal]
          exact fitsWire_toInt g.goal
        · exact fitsWire_of_near hlo hhi hnear
      · exact fitsWire_of_near hlo hhi (g.stepVelocity_position hhold.2)

end TrapezoidGenerator

end

/-- The relative move from rest that `go_for` plans: its 32-bit sum is the integer sum if and
only if that is an `int32_t`. -/
theorem goFor_planned_iff {m : CyclicPositionMode ℝ} {actual delta : Int32}
    {velocityCps : UInt32} (hrest : m.generator.state = ⟨(actual.toInt : ℝ), 0⟩)
    (hv : 0 < velocityCps.toNat) (ha : 0 < m.accel) :
    (∃ m', (MotionMode.cyclic m).goFor delta velocityCps actual = .cyclic m' ∧
        m'.generator.planned = delta.toInt) ↔
      -2 ^ 31 ≤ actual.toInt + delta.toInt ∧ actual.toInt + delta.toInt < 2 ^ 31 := by
  have hlimits : 0 < (velocityCps.toNat : ℝ) ∧ 0 < m.accel := ⟨by exact_mod_cast hv, ha⟩
  have hgo : ∃ m', (MotionMode.cyclic m).goFor delta velocityCps actual = .cyclic m' ∧
      m'.generator.planned = ((actual + delta).toInt : ℝ) - actual.toInt := by
    refine ⟨_, rfl, ?_⟩
    simp only [CyclicPositionMode.goTo, TrapezoidGenerator.setGoal, hlimits, and_self, dif_pos,
      TrapezoidGenerator.planned, hrest]
  obtain ⟨m', hm', hplanned⟩ := hgo
  -- The sum of `go_for` is taken modulo 2^32.
  have hsum : (actual + delta).toInt = (Int32.ofInt (actual.toInt + delta.toInt)).toInt := by
    rw [Int32.ofInt_add, Int32.ofInt_toInt, Int32.ofInt_toInt]
  rw [← toInt_ofInt_iff, ← hsum]
  constructor
  · rintro ⟨m'', hm'', h⟩
    cases hm'.symm.trans hm''
    rw [hplanned, sub_eq_iff_eq_add'] at h
    exact_mod_cast h
  · intro h
    exact ⟨m', hm', by rw [hplanned, h]; push_cast; ring⟩

open TrapezoidGenerator in
/-- In every state of a run of generator calls that all have headroom, the commanded position
is the wire value and every goal is planned from it. A relative move from rest plans its
displacement if and only if its goal is an `int32_t`. -/
theorem generator_wire_exact (calls : List (Call ℝ))
    (hroom : AllSteps (call Real.sqrt) Headroom TrapezoidGenerator.new calls)
    (m : CyclicPositionMode ℝ) (actual delta : Int32) (velocityCps : UInt32)
    (hrest : m.generator.state = ⟨(actual.toInt : ℝ), 0⟩) (hv : 0 < velocityCps.toNat)
    (ha : 0 < m.accel) :
    let g := runFrom (call Real.sqrt) TrapezoidGenerator.new calls
    (g.WireExact ∧ g.PlansFromWire) ∧
      ((∃ m', (MotionMode.cyclic m).goFor delta velocityCps actual = .cyclic m' ∧
          m'.generator.planned = delta.toInt) ↔
        -2 ^ 31 ≤ actual.toInt + delta.toInt ∧ actual.toInt + delta.toInt < 2 ^ 31) := by
  intro g
  -- The range of the wire is the invariant of the run.
  have hfits : FitsWire g.state.position := by
    refine runFrom_of_allSteps (I := fun g => FitsWire g.state.position) ?_ ?_ hroom
    · exact ⟨by norm_num [TrapezoidGenerator.new], by norm_num [TrapezoidGenerator.new]⟩
    · exact fun g c => g.fitsWire_call Real.sqrt_nonneg (fun _ => Real.mul_self_sqrt) c
  have hexact : g.WireExact := g.wireExact_iff.mpr hfits
  exact ⟨⟨hexact, plansFromWire_of_wireExact hexact⟩, goFor_planned_iff hrest hv ha⟩

open TrapezoidGenerator in
/-- A velocity run that ramps up from the count 5, and a relative move of 3 counts from 7. -/
theorem generator_wire_exact_short :
    let g := runFrom (call Real.sqrt) TrapezoidGenerator.new
      [.reseed 5, .setVelocity 1000 1000, .step 1]
    let m : CyclicPositionMode ℝ :=
      { dt := 1 / 1000, accel := 1000, generator := TrapezoidGenerator.new.reseed 7 }
    (g.WireExact ∧ g.PlansFromWire) ∧
      ((∃ m', (MotionMode.cyclic m).goFor 3 500 7 = .cyclic m' ∧
          m'.generator.planned = (3 : Int32).toInt) ↔
        -2 ^ 31 ≤ (7 : Int32).toInt + (3 : Int32).toInt ∧
          (7 : Int32).toInt + (3 : Int32).toInt < 2 ^ 31) := by
  have hfive : (5 : Int32).toInt = 5 := by decide
  refine generator_wire_exact _ ?_ _ 7 3 500 rfl (by decide) (by norm_num)
  simp only [allSteps_cons, allSteps_nil, and_true, Headroom, true_and, call, setVelocity,
    reseed, TrapezoidGenerator.new, reach, FitsWire, hfive]
  norm_num

open TrapezoidGenerator in
/-- A velocity run from the largest `int32_t` commands 2147483648, which is -2147483648 on the
wire. -/
theorem generator_wire_wraps : ¬ ∀ (calls : List (Call ℝ)),
    (runFrom (call Real.sqrt) TrapezoidGenerator.new calls).WireExact := by
  intro h
  have hmax : (2147483647 : Int32).toInt = 2147483647 := by decide
  have hrun := h [.reseed 2147483647, .setVelocity 2 2, .step 1]
  rw [wireExact_iff] at hrun
  have hstart : ((TrapezoidGenerator.new.reseed 2147483647).setVelocity 2 2).1
      = (⟨⟨2147483647, 0⟩, ⟨1, one_pos⟩, ⟨2, two_pos⟩, 2, 2147483647, .velocity⟩ :
        TrapezoidGenerator ℝ) := by
    simp [setVelocity, reseed, TrapezoidGenerator.new, hmax]
  simp only [runFrom_cons, runFrom_nil, call, hstart, step, one_pos, not_true_eq_false, or_false,
    reduceCtorEq, if_false, stepVelocity, rampDv] at hrun
  norm_num [FitsWire] at hrun

end ViamEthercat.Servo
