import ViamEthercat.Lib.Countdown
import ViamEthercat.Proofs.Positioning
import ViamEthercat.Proofs.VelocityRun
import ViamEthercat.Proofs.Wire

/-!
# `ViamEthercat.Proofs.PositioningRun`: a cyclic move lands on its goal

A move of the cyclic mode is one `go_to` and then one `step` a cycle.

* `cyclic_move_lands`: from any state of the generator, moving or not, within its limit or not, the
  move is over after the cycles of the planned time and one more. The streamed position is then the
  goal itself, and it stays there.
* `cyclic_move_approaches`: from a state that can still stop on the goal, at rest for one, the
  streamed positions go toward the goal, never past it and never back, within both limits.

The profile is planned anew in every cycle. `Wpilib.calculate_lands` says that this loses no time,
and `Lib.exists_iterate_of_countdown` counts the cycles. Both hold of exact numbers: the doubles of
the source round, and a move may take a cycle more there, or pass its limit by the last bit.
-/

set_option autoImplicit false

namespace ViamEthercat.Servo

open Lib Wpilib

variable {K : Type} [Field K] [LinearOrder K] [IsStrictOrderedRing K] [FloorRing K]

namespace TrapezoidGenerator

/-- The limits of a positioning move. -/
def limits (g : TrapezoidGenerator K) : Constraints K := ⟨g.vMax.1, g.accel.1⟩

/-- The goal, at rest. -/
def goalState (g : TrapezoidGenerator K) : Wpilib.State K := ⟨(g.goal.toInt : K), 0⟩

/-- The time that the profile takes from here. -/
def timeLeft (sqrt : K → K) (g : TrapezoidGenerator K) : K :=
  timeLeftUntil sqrt g.limits g.state g.goalState

/-- A positioning move, or one that is over, with its goal and its limits. -/
structure Positioning (goal : Int32) (c : Constraints K) (g : TrapezoidGenerator K) : Prop where
  goal_eq : g.goal = goal
  limits_eq : g.limits = c
  phase : g.phase ≠ .velocity
  landed : g.phase = .idle → g.state = g.goalState

variable {g : TrapezoidGenerator K} {goal : Int32} {c : Constraints K} {dt : K}

omit [IsStrictOrderedRing K] [FloorRing K] in
theorem setGoal_positioning (g : TrapezoidGenerator K) (goal : Int32) {vMax accel : K}
    (hv : 0 < vMax) (ha : 0 < accel) :
    (g.setGoal goal vMax accel).1.Positioning goal ⟨vMax, accel⟩ ∧
      (g.setGoal goal vMax accel).1.state = g.state ∧
      (g.setGoal goal vMax accel).1.phase = .positioning ∧
      (g.setGoal goal vMax accel).2 = true := by
  rw [setGoal, dif_pos ⟨hv, ha⟩]
  exact ⟨⟨rfl, rfl, by simp, by simp⟩, rfl, rfl, rfl⟩

omit [IsStrictOrderedRing K] in
theorem step_of_idle (hidle : g.phase = .idle) (sqrt : K → K) : g.step sqrt dt = g := by
  simp [step, hidle]

omit [IsStrictOrderedRing K] [FloorRing K] in
theorem Positioning.phase_cases (h : g.Positioning goal c) :
    g.phase = .idle ∨ g.phase = .positioning := by
  cases hp : g.phase with
  | idle => exact .inl rfl
  | positioning => exact .inr rfl
  | velocity => exact absurd hp h.phase

omit [IsStrictOrderedRing K] in
/-- The step lemma: one call of the profile, and the end of the move when it gives the goal. -/
theorem Positioning.step (h : g.Positioning goal c) (sqrt : K → K) (hdt : 0 < dt) :
    (g.step sqrt dt).Positioning goal c ∧
      (g.phase = .positioning →
        (g.step sqrt dt).state = calculate sqrt c dt g.state g.goalState ∧
          ((g.step sqrt dt).phase = .idle ↔ (g.step sqrt dt).state = g.goalState)) := by
  obtain hidle | hphase := h.phase_cases
  · rw [step_of_idle hidle]
    exact ⟨h, fun hp => by simp [hp] at hidle⟩
  · have hstep : g.step sqrt dt = g.stepPositioning sqrt dt := by
      simp [TrapezoidGenerator.step, hphase, hdt]
    have hstate : (g.stepPositioning sqrt dt).state = calculate sqrt c dt g.state g.goalState := by
      rw [← h.limits_eq]
      unfold stepPositioning
      dsimp only
      split_ifs <;> rfl
    have hgoal : (g.stepPositioning sqrt dt).goal = g.goal := by
      unfold stepPositioning
      dsimp only
      split_ifs <;> rfl
    have hlimits : (g.stepPositioning sqrt dt).limits = g.limits := by
      unfold stepPositioning
      dsimp only
      split_ifs <;> rfl
    have hend : (g.stepPositioning sqrt dt).phase = .idle ↔
        (g.stepPositioning sqrt dt).state = g.goalState := by
      unfold stepPositioning goalState
      dsimp only
      split_ifs with hlanded
      · exact iff_of_true rfl hlanded
      · exact iff_of_false (by simp [hphase]) hlanded
    have hvelocity : (g.stepPositioning sqrt dt).phase ≠ .velocity := by
      unfold stepPositioning
      dsimp only
      split_ifs <;> simp [hphase]
    have hsame : (g.stepPositioning sqrt dt).goalState = g.goalState := by
      rw [goalState, hgoal, goalState]
    rw [hstep]
    exact ⟨⟨hgoal.trans h.goal_eq, hlimits.trans h.limits_eq, hvelocity,
      fun hi => hsame ▸ hend.mp hi⟩, fun _ => ⟨hstate, hend⟩⟩

omit [IsStrictOrderedRing K] in
theorem Positioning.steps (h : g.Positioning goal c) (sqrt : K → K) (hdt : 0 < dt) (n : ℕ) :
    (g.steps sqrt dt n).Positioning goal c := by
  induction n with
  | zero => exact h
  | succ n ih =>
      rw [steps_succ']
      exact (ih.step sqrt hdt).1

section
variable {sqrt : K → K} (hnonneg : ∀ x, 0 ≤ sqrt x) (hsquare : ∀ x, 0 ≤ x → sqrt x * sqrt x = x)
include hnonneg hsquare

/-- The speed of a move does not pass its limit, or does not grow. -/
theorem Positioning.speed_le (h : g.Positioning goal c) (hdt : 0 < dt) (n : ℕ) :
    |(g.steps sqrt dt n).state.velocity| ≤ max |g.state.velocity| c.maxVelocity := by
  have hv : 0 < c.maxVelocity := h.limits_eq ▸ g.vMax.2
  have ha : 0 < c.maxAcceleration := h.limits_eq ▸ g.accel.2
  induction n with
  | zero => exact le_max_left _ _
  | succ n ih =>
      have hn := h.steps sqrt hdt n
      rw [steps_succ']
      obtain hidle | hphase := hn.phase_cases
      · rwa [step_of_idle hidle]
      · rw [((hn.step sqrt hdt).2 hphase).1]
        obtain ⟨-, hgoal⟩ | ⟨-, -, hspeed⟩ := calculate_lands
          (x := ((g.steps sqrt dt n).goal.toInt : K)) (s := (g.steps sqrt dt n).state)
          hnonneg hsquare hv ha hdt
        · rw [show calculate sqrt c dt (g.steps sqrt dt n).state (g.steps sqrt dt n).goalState = _
            from hgoal]
          simp
        · exact hspeed.trans (max_le ih (le_max_right _ _))

/-- A move is over after the cycles of its planned time, and one more. -/
theorem Positioning.lands (h : g.Positioning goal c) (hphase : g.phase = .positioning)
    (hdt : 0 < dt) :
    ∃ n, n ≤ ⌊g.timeLeft sqrt / dt⌋₊ + 1 ∧
      ∀ k, (g.steps sqrt dt k).phase = .idle ↔ n ≤ k := by
  have hv : 0 < c.maxVelocity := h.limits_eq ▸ g.vMax.2
  have ha : 0 < c.maxAcceleration := h.limits_eq ▸ g.accel.2
  let Moving (g : TrapezoidGenerator K) : Prop := g.Positioning goal c ∧ g.phase = .positioning
  have hstep (g : TrapezoidGenerator K) (hg : Moving g) :
      (g.step sqrt dt).phase = .idle ∨ (Moving (g.step sqrt dt) ∧ dt ≤ g.timeLeft sqrt ∧
        (g.step sqrt dt).timeLeft sqrt ≤ g.timeLeft sqrt - dt) := by
    obtain ⟨hpos, hp⟩ := hg
    obtain ⟨hnext, hmove⟩ := hpos.step sqrt hdt
    obtain ⟨hstate, hend⟩ := hmove hp
    obtain hidle | hstill := hnext.phase_cases
    · exact .inl hidle
    · right
      have hleft : (g.step sqrt dt).timeLeft sqrt =
          timeLeftUntil sqrt c (calculate sqrt c dt g.state g.goalState) g.goalState := by
        rw [timeLeft, hnext.limits_eq, hstate]
        rw [goalState, goalState, hnext.goal_eq, hpos.goal_eq]
      obtain ⟨-, hgoal⟩ | ⟨hmore, hfall, -⟩ := calculate_lands
        (x := (g.goal.toInt : K)) (s := g.state) hnonneg hsquare hv ha hdt
      · have hidle := hend.mpr (hstate.trans hgoal)
        simp [hstill] at hidle
      · refine ⟨⟨hnext, hstill⟩, ?_, ?_⟩
        · rw [timeLeft, hpos.limits_eq]
          exact hmore
        · rw [hleft, timeLeft, hpos.limits_eq]
          exact hfall
  obtain ⟨n, hle, hmoving, hidle⟩ :=
    exists_iterate_of_countdown (fun g : TrapezoidGenerator K => g.step sqrt dt) (timeLeft sqrt)
      (fun g => g.phase = .idle) hdt hstep ⟨h, hphase⟩
  refine ⟨n + 1, Nat.succ_le_succ hle, fun k => ⟨fun hk => ?_, fun hk => ?_⟩⟩
  · by_contra hlt
    have := (hmoving k (by omega)).2
    rw [show (fun g : TrapezoidGenerator K => g.step sqrt dt)^[k] g = g.steps sqrt dt k from rfl,
      hk] at this
    exact absurd this (by simp)
  · -- An idle generator holds.
    induction k, hk using Nat.le_induction with
    | base => exact hidle
    | succ k _ ih => rwa [steps_succ', step_of_idle ih]

end

section
variable {sqrt : K → K} (hnonneg : ∀ x, 0 ≤ sqrt x) (hsquare : ∀ x, 0 ≤ x → sqrt x * sqrt x = x)
include hnonneg hsquare

/-- A step of a move on an approach. -/
theorem Positioning.approaches {d : K} (hd : d = 1 ∨ d = -1) (h : g.Positioning goal c)
    (happroach : Approaching c d (goal.toInt : K) g.state) (hdt : 0 < dt) :
    let s' := (g.step sqrt dt).state
    Approaching c d (goal.toInt : K) s' ∧
      d * ((goal.toInt : K) - s'.position) ≤ d * ((goal.toInt : K) - g.state.position) ∧
      |s'.velocity - g.state.velocity| ≤ c.maxAcceleration * dt := by
  intro s'
  have hv : 0 < c.maxVelocity := h.limits_eq ▸ g.vMax.2
  have ha : 0 < c.maxAcceleration := h.limits_eq ▸ g.accel.2
  obtain hidle | hphase := h.phase_cases
  · have hs' : s' = g.state := by rw [show s' = (g.step sqrt dt).state from rfl, step_of_idle hidle]
    rw [hs', sub_self, abs_zero]
    exact ⟨happroach, le_rfl, by positivity⟩
  · have hs' : s' = calculate sqrt c dt g.state ⟨(goal.toInt : K), 0⟩ := by
      rw [show s' = (g.step sqrt dt).state from rfl, ((h.step sqrt hdt).2 hphase).1, goalState,
        h.goal_eq]
    rw [hs']
    exact calculate_approaching hnonneg hsquare hv ha hd happroach hdt

theorem Positioning.approaching {d : K} (hd : d = 1 ∨ d = -1) (h : g.Positioning goal c)
    (happroach : Approaching c d (goal.toInt : K) g.state) (hdt : 0 < dt) (n : ℕ) :
    Approaching c d (goal.toInt : K) (g.steps sqrt dt n).state := by
  induction n with
  | zero => exact happroach
  | succ n ih =>
      rw [steps_succ']
      exact ((h.steps sqrt hdt n).approaches hnonneg hsquare hd ih hdt).1

end

/-- Nearer to the goal, on the same side of it: so is the wire value, which does not wrap. -/
theorem wire_approaches {σ : ℤ} (hσ : σ = 1 ∨ σ = -1) {x y : K} (hy : FitsWire y)
    (hside : 0 ≤ (σ : K) * (goal.toInt - x))
    (hnear : (σ : K) * (goal.toInt - x) ≤ (σ : K) * (goal.toInt - y)) :
    FitsWire x ∧ 0 ≤ σ * (goal.toInt - (toWire x).toInt) ∧
      σ * (goal.toInt - (toWire x).toInt) ≤ σ * (goal.toInt - (toWire y).toInt) := by
  have hgoal := fitsWire_toInt (K := K) goal
  have hwire {z : K} (hz : FitsWire z) : (toWire z).toInt = llround z :=
    (toInt_ofInt_iff _).mpr ((fitsWire_iff z).mp hz)
  obtain rfl | rfl := hσ
  · have hlo : y ≤ x := by
      push_cast at hnear
      linarith
    have hhi : x ≤ goal.toInt := by
      push_cast at hside
      linarith
    have hx : FitsWire x := ⟨hy.1.trans_le hlo, hhi.trans_lt hgoal.2⟩
    have hnearer := llround_mono hlo
    have hbefore := llround_mono hhi
    rw [llround_intCast] at hbefore
    rw [hwire hx, hwire hy]
    exact ⟨hx, by omega, by omega⟩
  · have hlo : (goal.toInt : K) ≤ x := by
      push_cast at hside
      linarith
    have hhi : x ≤ y := by
      push_cast at hnear
      linarith
    have hx : FitsWire x := ⟨hgoal.1.trans_le hlo, hhi.trans_lt hy.2⟩
    have hnearer := llround_mono hhi
    have hbefore := llround_mono hlo
    rw [llround_intCast] at hbefore
    rw [hwire hx, hwire hy]
    exact ⟨hx, by omega, by omega⟩

end TrapezoidGenerator

namespace CyclicPositionMode

open TrapezoidGenerator

/-- `n` cycles of the mode, with the output image. -/
def cycles (sqrt : K → K) (f : Fields) (n : ℕ) (m : CyclicPositionMode K × Outputs) :
    CyclicPositionMode K × Outputs :=
  (fun m => ((m.1.step sqrt f m.2).next, (m.1.step sqrt f m.2).outputs))^[n] m

omit [IsStrictOrderedRing K] in
/-- The cycles of the mode are the steps of its generator, and each streams the position. -/
theorem cycles_eq (sqrt : K → K) (f : Fields) (m : CyclicPositionMode K) (out : Outputs) (n : ℕ) :
    (cycles sqrt f n (m, out)).1 = { m with generator := m.generator.steps sqrt m.dt n } ∧
      (0 < n → f.targetPosition = true →
        (cycles sqrt f n (m, out)).2.targetPosition = (m.generator.steps sqrt m.dt n).position) := by
  induction n with
  | zero => exact ⟨rfl, fun h => absurd h (lt_irrefl 0)⟩
  | succ n ih =>
      have hcycle : cycles sqrt f (n + 1) (m, out) =
          (((cycles sqrt f n (m, out)).1.step sqrt f (cycles sqrt f n (m, out)).2).next,
            ((cycles sqrt f n (m, out)).1.step sqrt f (cycles sqrt f n (m, out)).2).outputs) :=
        Function.iterate_succ_apply' ..
      rw [hcycle, steps_succ', ih.1]
      refine ⟨rfl, fun _ hf => ?_⟩
      simp [CyclicPositionMode.step, Outputs.storeTargetPosition, hf]

omit [IsStrictOrderedRing K] in
/-- The cycles after an accepted `go_to`, by the generator that it arms. -/
theorem goTo_cycles (sqrt : K → K) (f : Fields) (m : CyclicPositionMode K) (out : Outputs)
    (target : Int32) {velocityCps : UInt32} (hv : (0 : K) < velocityCps.toNat)
    (ha : 0 < m.accel) :
    ∃ g : TrapezoidGenerator K,
      g.Positioning target ⟨(velocityCps.toNat : K), m.accel⟩ ∧ g.state = m.generator.state ∧
      g.phase = .positioning ∧
      ∀ k, (cycles sqrt f k (m.goTo target velocityCps, out)).1 =
          { m with generator := g.steps sqrt m.dt k, positioning := true } ∧
        (0 < k → f.targetPosition = true →
          (cycles sqrt f k (m.goTo target velocityCps, out)).2.targetPosition =
            (g.steps sqrt m.dt k).position) := by
  obtain ⟨hmove, hstate, hphase, hok⟩ :=
    setGoal_positioning m.generator target hv ha
  refine ⟨_, hmove, hstate, hphase, fun k => ?_⟩
  rw [CyclicPositionMode.goTo, show m.generator.setGoal target (velocityCps.toNat : K) m.accel =
    ((m.generator.setGoal target (velocityCps.toNat : K) m.accel).1, true) from Prod.ext rfl hok]
  exact cycles_eq sqrt f _ out k

end CyclicPositionMode

open TrapezoidGenerator CyclicPositionMode

section
variable {sqrt : K → K} (hnonneg : ∀ x, 0 ≤ sqrt x) (hsquare : ∀ x, 0 ≤ x → sqrt x * sqrt x = x)
variable (f : Fields) (hf : f.targetPosition = true)
variable (m : CyclicPositionMode K) (hdt : 0 < m.dt) (ha : 0 < m.accel)
include hnonneg hsquare hf hdt ha

/-- With doubles as exact reals, from any state of the mode a `go_to` with a positive speed is over
after the cycles of the time that the profile takes and at most one more. The speed never passes
the limit of the move, or does not grow. From that cycle on the mode streams the goal, and reports
the target reached exactly when the shaft is near it and at rest. -/
theorem cyclic_move_lands (out : Outputs) (target : Int32) (velocityCps : UInt32)
    (hv : 0 < velocityCps.toNat) :
    let after n := CyclicPositionMode.cycles sqrt f n (m.goTo target velocityCps, out)
    let time := timeLeftUntil sqrt ⟨(velocityCps.toNat : K), m.accel⟩ m.generator.state
      ⟨(target.toInt : K), 0⟩
    ∃ n, n ≤ ⌊time / m.dt⌋₊ + 1 ∧
      (∀ k, n ≤ k → (after k).1.generator.state = ⟨(target.toInt : K), 0⟩ ∧
        (after k).2.targetPosition = target) ∧
      (∀ k fb, (after k).1.isTargetReached fb = true ↔
        n ≤ k ∧ fb.nearTarget = true ∧ fb.atRest = true) ∧
      ∀ k, |(after k).1.generator.state.velocity| ≤
        max |m.generator.state.velocity| velocityCps.toNat := by
  intro after time
  have hv' : (0 : K) < velocityCps.toNat := by exact_mod_cast hv
  obtain ⟨g, hmove, hstate, hphase, hcycles⟩ := goTo_cycles sqrt f m out target hv' ha
  obtain ⟨n, hle, hidle⟩ := hmove.lands hnonneg hsquare hphase hdt
  have htime : g.timeLeft sqrt = time := by
    rw [timeLeft, hmove.limits_eq, hstate, goalState, hmove.goal_eq]
  refine ⟨n, htime ▸ hle, fun k hk => ?_, fun k fb => ?_, fun k => ?_⟩
  · have hk' := hmove.steps sqrt hdt k
    have hgoal : (g.steps sqrt m.dt k).state = ⟨(target.toInt : K), 0⟩ := by
      rw [hk'.landed ((hidle k).mpr hk), goalState, hk'.goal_eq]
    have hpos : 0 < k := by
      by_contra hzero
      have h0 := (hidle 0).mpr (by omega)
      rw [steps_zero, hphase] at h0
      exact absurd h0 (by simp)
    refine ⟨by rw [(hcycles k).1, hgoal], ?_⟩
    rw [(hcycles k).2 hpos hf]
    show toWire (g.steps sqrt m.dt k).state.position = target
    rw [hgoal, toWire, llround_intCast, Int32.ofInt_toInt]
  · rw [(hcycles k).1, CyclicPositionMode.isTargetReached]
    simp only [Bool.true_and, Bool.and_eq_true, TrapezoidGenerator.idle, decide_eq_true_eq, hidle,
      and_assoc]
  · have hspeed := hmove.speed_le hnonneg hsquare hdt k
    rwa [(hcycles k).1, ← hstate]

/-- With doubles as exact reals, from a state that can still stop on the goal within the limits of
the move, on the side `σ`, and whose position fits the `int32_t` of the wire, the streamed
positions go toward the goal, never past it and never back, on the wire too. In no cycle is the
speed above the limit, or the change of speed above the ramp. -/
theorem cyclic_move_approaches (out : Outputs) (target : Int32) (velocityCps : UInt32)
    (hv : 0 < velocityCps.toNat) {σ : ℤ} (hσ : σ = 1 ∨ σ = -1)
    (hstart : Approaching ⟨(velocityCps.toNat : K), m.accel⟩ (σ : K) (target.toInt : K)
      m.generator.state)
    (hfits : FitsWire m.generator.state.position) (k : ℕ) :
    let after n := CyclicPositionMode.cycles sqrt f n (m.goTo target velocityCps, out)
    let s := (after k).1.generator.state
    let s' := (after (k + 1)).1.generator.state
    |s.velocity| ≤ velocityCps.toNat ∧ 0 ≤ (σ : K) * s.velocity ∧
      |s'.velocity - s.velocity| ≤ m.accel * m.dt ∧
      0 ≤ (σ : K) * (target.toInt - s'.position) ∧
      (σ : K) * (target.toInt - s'.position) ≤ (σ : K) * (target.toInt - s.position) ∧
      0 ≤ σ * (target.toInt - (after (k + 1)).2.targetPosition.toInt) ∧
      σ * (target.toInt - (after (k + 1)).2.targetPosition.toInt) ≤
        σ * (target.toInt - (toWire s.position).toInt) := by
  intro after s s'
  have hv' : (0 : K) < velocityCps.toNat := by exact_mod_cast hv
  have hd : (σ : K) = 1 ∨ (σ : K) = -1 := by
    obtain rfl | rfl := hσ <;> simp
  obtain ⟨g, hmove, hstate, -, hcycles⟩ := goTo_cycles sqrt f m out target hv' ha
  rw [← hstate] at hstart hfits
  have hs : s = (g.steps sqrt m.dt k).state :=
    congrArg (fun m : CyclicPositionMode K => m.generator.state) (hcycles k).1
  have hs' : s' = ((g.steps sqrt m.dt k).step sqrt m.dt).state := by
    rw [← steps_succ']
    exact congrArg (fun m : CyclicPositionMode K => m.generator.state) (hcycles (k + 1)).1
  have hk := hmove.approaching hnonneg hsquare hd hstart hdt k
  obtain ⟨hnext, hnear, hchange⟩ :=
    (hmove.steps sqrt hdt k).approaches hnonneg hsquare hd hk hdt
  have hside {s : Wpilib.State K} (h : Approaching ⟨(velocityCps.toNat : K), m.accel⟩ (σ : K)
      (target.toInt : K) s) : 0 ≤ (σ : K) * (target.toInt - s.position) :=
    (div_nonneg (sq_nonneg _) (mul_nonneg two_pos.le ha.le)).trans h.stops
  -- Every position is between the start and the goal.
  have hfit (k : ℕ) : FitsWire (g.steps sqrt m.dt k).state.position := by
    induction k with
    | zero => exact hfits
    | succ k ih =>
        have hk := hmove.approaching hnonneg hsquare hd hstart hdt k
        obtain ⟨hnext, hnear, -⟩ := (hmove.steps sqrt hdt k).approaches hnonneg hsquare hd hk hdt
        rw [steps_succ']
        exact (wire_approaches hσ ih (hside hnext) hnear).1
  have hwire := wire_approaches hσ (hfit k) (hside hnext) hnear
  rw [(hcycles (k + 1)).2 (Nat.succ_pos k) hf, steps_succ', hs, hs']
  exact ⟨hk.within, hk.forward, hchange, hside hnext, hnear, hwire.2⟩

end

/-- The mode of the witnesses: 1 ms cycles, 1000 counts/s², at rest at the count 7. -/
def benchMode : CyclicPositionMode K :=
  { dt := 1 / 1000, accel := 1000, generator := TrapezoidGenerator.new.reseed 7 }

/-- The fields of the map of the cyclic mode. -/
def benchFields : Fields where
  modeOfOperation := false
  modeDisplay := true
  faultCode := true
  velocityActual := true
  targetPosition := true
  profileVelocity := false
  targetVelocity := false

/-- A move from 7 to 500 at 200 counts/s: its end is within the limit. -/
theorem cyclic_move_lands_bench :
    ∃ n : ℕ, ∀ k, n ≤ k →
      (CyclicPositionMode.cycles Real.sqrt benchFields k
        ((benchMode (K := ℝ)).goTo 500 200, Outputs.zero)).2.targetPosition = 500 := by
  obtain ⟨n, -, hgoal, -⟩ := cyclic_move_lands Real.sqrt_nonneg (fun _ => Real.mul_self_sqrt)
    benchFields rfl (benchMode (K := ℝ)) (by norm_num [benchMode]) (by norm_num [benchMode])
    Outputs.zero 500 200 (by decide)
  exact ⟨n, fun k hk => (hgoal k hk).2⟩

/-- The third cycle of that move is not past 500. -/
theorem cyclic_move_approaches_bench :
    0 ≤ (1 : ℤ) * ((500 : Int32).toInt - (CyclicPositionMode.cycles Real.sqrt benchFields 3
      ((benchMode (K := ℝ)).goTo 500 200, Outputs.zero)).2.targetPosition.toInt) := by
  have hseven : (7 : Int32).toInt = 7 := by decide
  have hgoal : (500 : Int32).toInt = 500 := by decide
  have hrate : (200 : UInt32).toNat = 200 := by decide
  have hstart : Approaching ⟨((200 : UInt32).toNat : ℝ), (benchMode (K := ℝ)).accel⟩ ((1 : ℤ) : ℝ)
      ((500 : Int32).toInt : ℝ) (benchMode (K := ℝ)).generator.state := by
    constructor <;> norm_num [benchMode, TrapezoidGenerator.reseed, hseven, hgoal, hrate]
  have hfits : FitsWire (benchMode (K := ℝ)).generator.state.position := by
    norm_num [benchMode, TrapezoidGenerator.reseed, hseven, FitsWire]
  exact (cyclic_move_approaches Real.sqrt_nonneg (fun _ => Real.mul_self_sqrt) benchFields rfl
    benchMode (by norm_num [benchMode]) (by norm_num [benchMode]) Outputs.zero 500 200 (by decide)
    (.inl rfl) hstart hfits 2).2.2.2.2.2.1

end ViamEthercat.Servo
