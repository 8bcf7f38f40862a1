import ViamEthercat.Servo.Gantry
import ViamEthercat.Proofs.Homing
import ViamEthercat.Proofs.Requests
import Mathlib.Tactic.FieldSimp
import Mathlib.Tactic.LinearCombination

/-!
# `ViamEthercat.Proofs.GantryHome`: millimetres and the home reference

The reference of an axis is kept twice. The motor has its home position and a software zero, the
axis has the revolutions that its own `home` brought. A home run of the motor alone, a software
zero and a new axis change one of the copies.

`gantry_reference`: in every run where no step leaves the copies apart (`StaleCopy`), an accepted
move goes to the millimetres it names, from the current home.

* `Session.step_reference`: what one atomic step of the motor can do to the reference.
* `Agrees`: the two copies are one reference.
-/

set_option autoImplicit false

namespace ViamEthercat.Servo

open Double Lib

/-! ### The reference of the motor -/

namespace Session

variable {s : Session}

theorem sameReference_of_reference {s' : Session} (hconfig : s'.config = s.config)
    (h : s'.rt.reference = s.rt.reference) : s.SameReference s' := by
  simp only [Controller.reference, Prod.mk.injEq] at h
  exact ⟨hconfig, h.1, h.2.1, h.2.2⟩

theorem released_config (g : Nat) : (s.released g).config = s.config := by
  unfold released
  split_ifs <;> rfl

/-- An operation of a blocking call leaves the reference. -/
theorem advance_sameReference (i : Nat) (c : Call) : s.SameReference (s.advance i c) := by
  have hconfig : (s.advance i c).config = s.config := by
    cases hpc : c.pc <;> simp only [advance, hpc] <;> (try split) <;>
      simp [atPc, failed, pushed, released_config]
  have hreference : (s.advance i c).rt.reference = s.rt.reference := by
    cases hpc : c.pc <;> simp only [advance, hpc] <;> (try split) <;>
      simp [atPc, failed, pushed, Controller.reference]
  exact sameReference_of_reference hconfig hreference

/-- A restart forgets the home position. -/
theorem spawned_homed (p : RtParams) (rt : Controller) (frames : List CycleInput) :
    (spawned p rt frames).homed = false :=
  spawned_induction (P := fun s => s.homed = false) rfl fun _ _ h => h

/-- One atomic step of the motor leaves the reference, or forgets it, or it is the cycle in which
a run is attained. -/
theorem step_reference (s : Session) {e : Event} (hzero : ∀ offset, e ≠ .setZero offset) :
    s.SameReference (s.step e) ∨ (s.step e).rt.homed = false ∨
      ∃ actual, (s.referenced actual).SameReference (s.step e) := by
  have hsame : s.SameReference s := ⟨rfl, rfl, rfl, rfl⟩
  cases e with
  | setRpm rpm =>
      simp only [step]
      split <;> exact .inl ⟨rfl, rfl, rfl, rfl⟩
  | halt => exact .inl ⟨rfl, rfl, rfl, rfl⟩
  | enable => exact .inl ⟨rfl, rfl, rfl, rfl⟩
  | disable => exact .inl ⟨rfl, rfl, rfl, rfl⟩
  | requestFaultReset => exact .inl ⟨rfl, rfl, rfl, rfl⟩
  | setZero offset => exact absurd rfl (hzero offset)
  | goTo rpm position =>
      simp only [step]
      split <;> exact .inl ⟨rfl, rfl, rfl, rfl⟩
  | goFor rpm revs =>
      simp only [step]
      split <;> exact .inl ⟨rfl, rfl, rfl, rfl⟩
  | home =>
      simp only [step]
      split <;> exact .inl ⟨rfl, rfl, rfl, rfl⟩
  | advance i =>
      simp only [step]
      split
      · exact .inl (advance_sameReference _ _)
      · exact .inl hsame
  | homeFails i text =>
      simp only [step]
      split
      · split_ifs
        · simp only [failed, released, atPc]
          split_ifs <;> exact .inl ⟨rfl, rfl, rfl, rfl⟩
        · exact .inl hsame
      · exact .inl hsame
  | dispatch inp =>
      simp only [step, dispatched]
      by_cases hrunning : s.running = true
      · rw [if_pos hrunning]
        have hcycle := cycle_reference (p := s.params) (s := s.rt) (t := ⟨inp, s.queue⟩)
        split_ifs at hcycle with hattains
        · simp only [Controller.reference, Prod.mk.injEq] at hcycle
          exact .inr (.inr ⟨inp.actual, rfl, hcycle.1, hcycle.2.1, hcycle.2.2⟩)
        · exact .inl (sameReference_of_reference rfl hcycle)
      · rw [if_neg hrunning]
        exact .inl hsame
  | exit reason => cases reason <;> exact .inl ⟨rfl, rfl, rfl, rfl⟩
  | stop => exact .inl ⟨rfl, rfl, rfl, rfl⟩
  | restart b => exact .inr (.inl (spawned_homed _ _ _))

end Session

/-! ### Exact conversions -/

/-- Counts in revolutions, by a scale that is not zero. -/
theorem countsToRevs_fin {countsPerRev gearRatio : ℚ} (hscale : countsPerRev * gearRatio ≠ 0)
    (counts : Int32) : countsToRevs counts (.fin countsPerRev) (.fin gearRatio) =
      .fin (counts.toInt / (countsPerRev * gearRatio)) := by
  simp [countsToRevs, mul, div, hscale]

/-- Revolutions in counts. -/
theorem revsToCounts_fin (q countsPerRev gearRatio : ℚ) :
    revsToCounts (.fin q) (.fin countsPerRev) (.fin gearRatio) =
      clampToI32 (.fin (q * (countsPerRev * gearRatio))) := by
  simp [revsToCounts_eq, mul, mul_assoc]

/-! ### The two copies -/

namespace GantrySystem

variable {y : GantrySystem}

/-- Each atomic step of the motor is one or two of the operations. -/
theorem motor_step (y : GantrySystem) (e : Event) :
    ∃ events, runFrom GantrySystem.step y events = { y with motor := y.motor.step e } := by
  have helsewhere {y : GantrySystem} {motor : Session}
      (h : y.motor.SameReference motor ∨ motor.rt.homed = false) :
      y.step (.elsewhere motor) = { y with motor := motor } := if_pos h
  by_cases hzero : ∃ offset, e = .setZero offset
  · obtain ⟨offset, rfl⟩ := hzero
    exact ⟨[.resetZero offset], rfl⟩
  · rcases y.motor.step_reference fun offset heq => hzero ⟨offset, heq⟩ with h | h | ⟨actual, h⟩
    · exact ⟨[.elsewhere (y.motor.step e)], helsewhere (.inl h)⟩
    · exact ⟨[.elsewhere (y.motor.step e)], helsewhere (.inr h)⟩
    · exact ⟨[.motorHome (.attained actual), .elsewhere (y.motor.step e)],
        helsewhere (y := y.step (.motorHome (.attained actual))) (.inl h)⟩

/-- The copy of the axis is the reference of the motor, and no software zero is between them. -/
def Agrees (y : GantrySystem) : Prop :=
  y.motor.rt.homed = true →
    y.motor.rt.zeroOffsetCounts = 0 ∧ y.axis.homeRevs = y.motor.homePositionRevs

/-- A run of `home` that the axis does not hear of is attained away from the copy of the axis. -/
def MissedHome (y : GantrySystem) (run : HomeRun) : Prop :=
  ∃ actual, run.actual? = some actual ∧
    y.axis.homeRevs ≠ countsToRevs actual y.motor.config.countsPerRev y.motor.config.gearRatio

/-- The operation changes one copy and not the other: a home run that is attained without an
answer to the axis, a software zero on a homed motor, or a new axis on one. -/
def StaleCopy (y : GantrySystem) : GantryEvent → Prop
  | .home (.attainedThrew actual) => y.MissedHome (.attainedThrew actual)
  | .home (.attained _) | .home .threw | .home .notAttained => False
  | .motorHome run => y.MissedHome run
  | .resetZero offset =>
      y.motor.rt.homed = true ∧ (y.motor.setZero offset).rt.zeroOffsetCounts ≠ 0
  | .construct _ => y.motor.rt.homed = true ∧ y.motor.homePositionRevs ≠ .fin 0
  | .elsewhere _ => False

/-- A run that the axis does not hear of, at the position of its copy or not attained. -/
theorem agrees_afterRun {run : HomeRun} (h : y.Agrees) (hrun : ¬ y.MissedHome run) :
    Agrees { y with motor := y.motor.afterRun run } := by
  unfold Session.afterRun
  cases hactual : run.actual? with
  | none => exact h
  | some actual => exact fun _ => ⟨rfl, not_not.mp fun hne => hrun ⟨actual, hactual, hne⟩⟩

/-- What leaves the copies together. -/
theorem agrees_step {e : GantryEvent} (h : y.Agrees) (hfresh : ¬ y.StaleCopy e) :
    (y.step e).Agrees := by
  cases e with
  | home run =>
      cases run with
      | threw => exact h
      | notAttained => exact h
      | attained actual => exact fun _ => ⟨rfl, rfl⟩
      | attainedThrew actual => exact agrees_afterRun h hfresh
  | motorHome run => exact agrees_afterRun h hfresh
  | resetZero offset =>
      intro hhomed
      exact ⟨not_not.mp fun hne => hfresh ⟨hhomed, hne⟩, (h hhomed).2⟩
  | construct attrs =>
      intro hhomed
      exact ⟨(h hhomed).1, (not_not.mp fun hne => hfresh ⟨hhomed, hne⟩).symm⟩
  | elsewhere motor =>
      by_cases hsame : y.motor.SameReference motor ∨ motor.rt.homed = false
      · rw [show y.step (.elsewhere motor) = { y with motor := motor } from if_pos hsame]
        intro hhomed
        rcases hsame with ⟨hconfig, hhomed', hcounts, hzero⟩ | hforgotten
        · obtain ⟨hz, hrevs⟩ := h (hhomed'.symm.trans hhomed)
          refine ⟨hzero.trans hz, hrevs.trans ?_⟩
          simp only [Session.homePositionRevs, hconfig, hcounts]
        · rw [hforgotten] at hhomed
          cases hhomed
      · rwa [show y.step (.elsewhere motor) = y from if_neg hsame]

/-! ### The target of a move -/

/-- The numbers of the configuration are rationals: the arithmetic is exact. -/
structure Exact (y : GantrySystem) (countsPerRev gearRatio mmPerRev : ℚ) : Prop where
  countsPerRev : y.motor.config.countsPerRev = .fin countsPerRev
  gearRatio : y.motor.config.gearRatio = .fin gearRatio
  mmPerRev : y.axis.attrs.mmPerRev = .fin mmPerRev

/-- The direction in which the revolutions run away from the home end. -/
def direction (y : GantrySystem) : ℚ := if y.axis.attrs.travelPositive then 1 else -1

/-- The counts of the position `p` in mm from the current home. -/
def countsOf (y : GantrySystem) (countsPerRev gearRatio mmPerRev p : ℚ) : ℚ :=
  y.motor.rt.homeCounts.toInt + y.direction * p / mmPerRev * (countsPerRev * gearRatio)

/-- The motor stands at the position. -/
def standingAt (y : GantrySystem) (counts : Int32) : GantrySystem :=
  { y with motor := { y.motor with rt := { y.motor.rt with
      telemetry := { y.motor.rt.telemetry with positionCounts := counts } } } }

/-- Millimetres refer to the current home: every accepted move to `p` whose counts are an
`int32_t` goes to the count nearest to `p` mm from the home position, and at that count the axis
reads `p` up to half a count. -/
def RefersToHome (y : GantrySystem) : Prop :=
  ∀ countsPerRev gearRatio mmPerRev p absolute speed command,
    y.motor.config.validate = .ok () → y.Exact countsPerRev gearRatio mmPerRev →
    y.motor.rt.homed = true →
    y.moveToPosition absolute [⟨.fin p, speed⟩] = .ok command →
    -2 ^ 31 ≤ y.countsOf countsPerRev gearRatio mmPerRev p →
    y.countsOf countsPerRev gearRatio mmPerRev p ≤ 2 ^ 31 - 1 →
    ∃ target position, command = .setTarget target ∧ target.relative = false ∧
      target.counts.toInt = llround (y.countsOf countsPerRev gearRatio mmPerRev p) ∧
      (y.standingAt target.counts).getPosition absolute = .ok (.fin position) ∧
      |position - p| ≤ mmPerRev / |countsPerRev * gearRatio| / 2

theorem direction_mul_self : y.direction * y.direction = 1 := by
  unfold direction
  split <;> norm_num

theorem abs_direction : |y.direction| = 1 := by
  unfold direction
  split <;> norm_num

theorem sign_eq : y.axis.sign = .fin y.direction := by
  unfold GantryAxis.sign direction
  split <;> rfl

/-- An accepted move is an accepted `go_to` of the motor. -/
theorem goTo_of_moveToPosition {absolute : Bool} {c : MovementCoordinate} {command : Command}
    (h : y.moveToPosition absolute [c] = .ok command) :
    ∃ rpm, y.motor.goTo rpm (y.axis.mmToRevs c.positionMm) = .ok command := by
  unfold moveToPosition GantryAxis.moveArguments at h
  simp only [bind_assoc, pure_bind, require_bind_ok_iff] at h
  exact ⟨_, h.2.2.2⟩

section
variable {countsPerRev gearRatio mmPerRev : ℚ} (hexact : y.Exact countsPerRev gearRatio mmPerRev)
include hexact

theorem mmPerRev_pos : 0 < mmPerRev := by
  have hpos := y.axis.attrs.mmPerRev_pos
  rw [hexact.mmPerRev] at hpos
  exact of_decide_eq_true hpos

theorem scale_ne_zero (hcfg : y.motor.config.validate = .ok ()) :
    countsPerRev * gearRatio ≠ 0 := by
  obtain ⟨-, hgear, hcounts⟩ := ServoConfig.limits_of_validate hcfg
  rw [hexact.gearRatio] at hgear
  rw [hexact.countsPerRev] at hcounts
  have hpos : 0 < countsPerRev := of_decide_eq_true hcounts
  exact mul_ne_zero hpos.ne' fun hzero => hgear (congrArg Double.fin hzero)

/-- Counts of the motor in revolutions. -/
theorem countsToRevs_exact (hscale : countsPerRev * gearRatio ≠ 0) (counts : Int32) :
    countsToRevs counts y.motor.config.countsPerRev y.motor.config.gearRatio =
      .fin (counts.toInt / (countsPerRev * gearRatio)) := by
  rw [hexact.countsPerRev, hexact.gearRatio, countsToRevs_fin hscale]

/-- The target of the motor in counts. -/
theorem revsToCounts_exact (q : ℚ) :
    revsToCounts (.fin q) y.motor.config.countsPerRev y.motor.config.gearRatio =
      clampToI32 (.fin (q * (countsPerRev * gearRatio))) := by
  rw [hexact.countsPerRev, hexact.gearRatio, revsToCounts_fin]

end

/-- The nearest integer of a rational in the range is in the range. -/
theorem clampToI32_of_range {q : ℚ} (hlo : -2 ^ 31 ≤ q) (hhi : q ≤ 2 ^ 31 - 1) :
    (clampToI32 (.fin q)).toInt = llround q := by
  have hround := abs_le.mp (abs_llround_sub_le q)
  have hlower : -2 ^ 31 ≤ llround q := by
    have hreal : ((-2 ^ 31 - 1 : Int) : ℚ) < llround q := by push_cast; linarith
    have hint : -2 ^ 31 - 1 < llround q := by exact_mod_cast hreal
    omega
  have hupper : llround q ≤ 2 ^ 31 - 1 := by
    have hreal : (llround q : ℚ) < ((2 ^ 31 : Int) : ℚ) := by push_cast; linarith
    exact Int.le_sub_one_of_lt (by exact_mod_cast hreal)
  rw [toInt_clampToI32_fin]
  omega

/-- What the axis reads where the motor stands. -/
theorem getPosition_standingAt (absolute : Bool) {countsPerRev gearRatio mmPerRev : ℚ}
    (hhomed : y.motor.rt.homed = true) (hexact : y.Exact countsPerRev gearRatio mmPerRev)
    (hscale : countsPerRev * gearRatio ≠ 0) (hzero : y.motor.rt.zeroOffsetCounts = 0)
    (hrevs : y.axis.homeRevs =
      .fin (y.motor.rt.homeCounts.toInt / (countsPerRev * gearRatio))) (counts : Int32) :
    (y.standingAt counts).getPosition absolute =
      .ok (.fin (y.direction * (counts.toInt / (countsPerRev * gearRatio) -
        y.motor.rt.homeCounts.toInt / (countsPerRev * gearRatio)) * mmPerRev)) := by
  have hhomed' : (y.standingAt counts).homed absolute = true := by
    simp [homed, standingAt, hhomed]
  have hmotor : (y.standingAt counts).motor.positionRevs =
      .fin (counts.toInt / (countsPerRev * gearRatio)) := by
    show countsToRevs (counts - y.motor.rt.zeroOffsetCounts) _ _ = _
    rw [hzero, Int32.sub_zero]
    exact countsToRevs_exact hexact hscale counts
  have haxis : (y.standingAt counts).axis = y.axis := rfl
  unfold getPosition
  rw [hhomed', hmotor, haxis, GantryAxis.revsToMm, hrevs, sign_eq, hexact.mmPerRev]
  simp [require, sub, neg, add, mul, sub_eq_add_neg]

/-- The position at a count is the one it was computed from, but for the rounding. -/
theorem readsBack {direction home mmPerRev p scale : ℚ} (hdirection : direction * direction = 1)
    (hscale : scale ≠ 0) (hmm : mmPerRev ≠ 0) (n : ℚ) :
    direction * (n / scale - home / scale) * mmPerRev =
      p + direction * mmPerRev / scale * (n - (home + direction * p / mmPerRev * scale)) := by
  field_simp
  linear_combination (scale * p) * hdirection

/-- When the copies agree, millimetres refer to the current home. -/
theorem refersToHome_of_agrees (h : y.Agrees) : y.RefersToHome := by
  intro countsPerRev gearRatio mmPerRev p absolute speed command hcfg hexact hhomed hmove hlo hhi
  obtain ⟨hzero, hrevs⟩ := h hhomed
  have hscale := scale_ne_zero hexact hcfg
  have hmm := mmPerRev_pos hexact
  obtain ⟨rpm, hgo⟩ := goTo_of_moveToPosition hmove
  obtain ⟨-, -, rfl⟩ := (y.motor.goTo_ok_iff rpm _ command).mp hgo
  rw [Session.homePositionRevs, countsToRevs_exact hexact hscale] at hrevs
  -- The axis adds its copy of the reference to the revolutions of the position.
  have hmove : y.axis.mmToRevs (.fin p) =
      .fin (y.motor.rt.homeCounts.toInt / (countsPerRev * gearRatio) +
        y.direction * p / mmPerRev) := by
    simp [GantryAxis.mmToRevs, hrevs, sign_eq, hexact.mmPerRev, add, mul, div, hmm.ne']
  have htarget : revsToCounts (y.axis.mmToRevs (.fin p)) y.motor.config.countsPerRev
      y.motor.config.gearRatio + y.motor.rt.zeroOffsetCounts =
        clampToI32 (.fin (y.countsOf countsPerRev gearRatio mmPerRev p)) := by
    rw [hmove, revsToCounts_exact hexact, hzero, Int32.add_zero, countsOf, add_mul,
      div_mul_cancel₀ _ hscale]
  have hcounts := clampToI32_of_range hlo hhi
  refine ⟨_, p + y.direction * mmPerRev / (countsPerRev * gearRatio) *
    (llround (y.countsOf countsPerRev gearRatio mmPerRev p) -
      y.countsOf countsPerRev gearRatio mmPerRev p), rfl, rfl, ?_, ?_, ?_⟩
  · dsimp only
    rw [htarget, hcounts]
  · dsimp only
    rw [htarget]
    have hposition := getPosition_standingAt absolute hhomed hexact hscale hzero hrevs
      (clampToI32 (.fin (y.countsOf countsPerRev gearRatio mmPerRev p)))
    rw [hposition, hcounts]
    exact congrArg (Except.ok ∘ Double.fin) (readsBack direction_mul_self hscale hmm.ne' _)
  · rw [add_sub_cancel_left, abs_mul, abs_div, abs_mul, abs_direction, one_mul, abs_of_pos hmm,
      div_eq_mul_inv _ (2 : ℚ)]
    refine mul_le_mul_of_nonneg_left ?_ (by positivity)
    simpa using abs_llround_sub_le (y.countsOf countsPerRev gearRatio mmPerRev p)

/-- In every run that starts before a home run and in which no operation leaves the copies apart,
millimetres refer to the current home. -/
theorem gantry_reference (start : GantrySystem) (hstart : start.motor.rt.homed = false)
    (events : List GantryEvent)
    (hfresh : AllSteps GantrySystem.step (fun y e => ¬ y.StaleCopy e) start events) :
    (runFrom GantrySystem.step start events).RefersToHome := by
  refine refersToHome_of_agrees (runFrom_of_allSteps (I := Agrees) ?_ ?_ hfresh)
  · intro hhomed
    rw [hstart] at hhomed
    cases hhomed
  · exact fun y e h hkept => agrees_step h hkept

end GantrySystem

/-! ### A stale copy -/

/-- An axis of 500 mm with 40 mm per revolution. -/
def benchAxis : GantryAttributes where
  motor := "x-motor"
  lengthMm := .fin 500
  mmPerRev := .fin 40
  mmPerSec := .fin 50
  length_pos := by decide
  mmPerRev_pos := by decide

/-- The axis on a motor that was never homed. -/
def benchSystem : GantrySystem := ⟨profileSession, { attrs := benchAxis }⟩

/-- After a home at count 1000 the position 10 mm is 2500 counts on. -/
theorem gantry_reference_bench :
    let y := runFrom GantrySystem.step benchSystem [.home (.attained 1000)]
    y.RefersToHome ∧ y.moveToPosition false [⟨.fin 10, .fin 0⟩]
      = .ok (.setTarget ⟨3500, 12500, false, 1⟩) :=
  ⟨GantrySystem.gantry_reference benchSystem rfl [.home (.attained 1000)] ⟨id, trivial⟩,
    by decide +kernel⟩

/-- The axis homes at count 1000, and then the motor is homed at count 5000. -/
def rehomedMotor : List GantryEvent :=
  [.home (.attained 1000), .motorHome (.attained 5000)]

/-- A move to 0 mm goes to count 1000. -/
theorem gantry_rehomed : ¬ (runFrom GantrySystem.step benchSystem rehomedMotor).RefersToHome := by
  intro h
  obtain ⟨target, position, hcommand, -, htarget, -⟩ := h 10000 1 40 0 false (.fin 0)
    (.setTarget ⟨1000, 12500, false, 1⟩) (by decide +kernel) ⟨rfl, rfl, rfl⟩ rfl
    (by decide +kernel) (by decide +kernel) (by decide +kernel)
  obtain rfl := (Command.setTarget.inj hcommand).symm
  exact absurd htarget (by decide +kernel)

end ViamEthercat.Servo
