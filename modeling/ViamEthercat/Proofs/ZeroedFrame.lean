import ViamEthercat.Proofs.GantryHome

/-!
# `ViamEthercat.Proofs.ZeroedFrame`: the zeroed frame of the position

`set_zero` stores the count at which the position reads zero. `position_revs` subtracts it and
`go_to` adds it. The conversions saturate, but the three sums are taken in `int32_t` and wrap.

`zeroed_frame_saturates_iff`: the stored zero, the difference and the target are the saturated
values of the integer ones, and what is read back is what was set up to half a count, if and only
if each of the three integer values is an `int32_t` already.
-/

set_option autoImplicit false

namespace ViamEthercat.Servo

open Double Lib

/-- The `int32_t` nearest to an integer. -/
def saturate (z : Int) : Int := max (-2 ^ 31) (min z (2 ^ 31 - 1))

/-- The integer is an `int32_t`. -/
def InI32 (z : Int) : Prop := -2 ^ 31 ≤ z ∧ z < 2 ^ 31

instance (z : Int) : Decidable (InI32 z) := inferInstanceAs (Decidable (_ ∧ _))

theorem saturate_of_inI32 {z : Int} (h : InI32 z) : saturate z = z := by
  unfold InI32 at h
  unfold saturate
  omega

/-- A sum or a difference of two `int32_t` wraps to the saturated value only where it does not
wrap. -/
theorem bmod_eq_saturate_iff {z : Int} (hlo : -2 ^ 32 ≤ z) (hhi : z < 2 ^ 32) :
    z.bmod (2 ^ 32) = saturate z ↔ InI32 z := by
  unfold InI32 saturate
  rw [Int.bmod_def]
  split_ifs <;> omega

section
variable (a b : Int32)

theorem toInt_sub_eq_saturate_iff :
    (a - b).toInt = saturate (a.toInt - b.toInt) ↔ InI32 (a.toInt - b.toInt) := by
  have := a.le_toInt
  have := a.toInt_lt
  have := b.le_toInt
  have := b.toInt_lt
  rw [Int32.toInt_sub]
  exact bmod_eq_saturate_iff (by omega) (by omega)

theorem toInt_add_eq_saturate_iff :
    (a + b).toInt = saturate (a.toInt + b.toInt) ↔ InI32 (a.toInt + b.toInt) := by
  have := a.le_toInt
  have := a.toInt_lt
  have := b.le_toInt
  have := b.toInt_lt
  rw [Int32.toInt_add]
  exact bmod_eq_saturate_iff (by omega) (by omega)

end

namespace Session

/-- The session at another position. -/
def standingAt (s : Session) (counts : Int32) : Session :=
  { s with rt := { s.rt with telemetry := { s.rt.telemetry with positionCounts := counts } } }

/-- A state of the same configuration in which the zero is where it was. -/
def SameFrame (s s' : Session) : Prop :=
  s'.config = s.config ∧ s'.rt.zeroOffsetCounts = s.rt.zeroOffsetCounts

/-- A run whose steps keep the reference of the motor keeps the frame. `step_reference` says which
steps do not: `set_zero`, a restart, and the cycle in which a homing run is attained. -/
theorem sameFrame_run {s : Session} {events : List Event}
    (h : AllSteps Session.step (fun s e => s.SameReference (s.step e)) s events) :
    s.SameFrame (runFrom Session.step s events) := by
  refine runFrom_of_allSteps (I := s.SameFrame) ⟨rfl, rfl⟩ ?_ h
  rintro q e ⟨hconfig, hzero⟩ ⟨hconfig', -, -, hzero'⟩
  exact ⟨hconfig'.trans hconfig, hzero'.trans hzero⟩

variable (s later : Session) (countsPerRev gearRatio o x : ℚ)

/-- Revolutions in whole counts, before they are saturated. -/
def wholeCounts (q : ℚ) : Int := llround (q * (countsPerRev * gearRatio))

/-- The converted revolutions of the session. -/
def counts (q : ℚ) : Int32 := revsToCounts (.fin q) s.config.countsPerRev s.config.gearRatio

/-- The three integer values: the zero that `set_zero` computes, the difference that
`position_revs` converts, and the target of `go_to`. -/
def zeroSum : Int := s.rt.telemetry.positionCounts.toInt - (s.counts o).toInt

def readSum : Int := s.rt.telemetry.positionCounts.toInt - s.rt.zeroOffsetCounts.toInt

def targetSum : Int := (s.counts x).toInt + s.rt.zeroOffsetCounts.toInt

/-- None of the conversions and none of the sums saturates. -/
def Unsaturated : Prop :=
  InI32 (wholeCounts countsPerRev gearRatio o) ∧ InI32 (wholeCounts countsPerRev gearRatio x) ∧
    InI32 (s.zeroSum o) ∧ InI32 later.readSum ∧ InI32 (later.targetSum x)

/-- A position in revolutions that is `q` up to half a count. -/
def ReadsAs (position : Double) (q : ℚ) : Prop :=
  ∃ r, position = .fin r ∧ |r - q| ≤ 1 / 2 / |countsPerRev * gearRatio|

/-- The frame of a `set_zero` of `o` in the state `s`, read and moved in the state `later`: the
three sums saturate; and where nothing does, the position then reads `o`, and every accepted
`go_to` of `x` goes to a count where it reads `x`. -/
structure ZeroedFrame : Prop where
  stored : (s.setZero (.fin o)).rt.zeroOffsetCounts.toInt = saturate (s.zeroSum o)
  read : (later.rt.telemetry.positionCounts - later.rt.zeroOffsetCounts).toInt =
    saturate later.readSum
  moved : ∀ rpm t, later.goTo rpm (.fin x) = .ok (.setTarget t) →
    t.counts.toInt = saturate (later.targetSum x)
  readsBack : Unsaturated s later countsPerRev gearRatio o x →
    ReadsAs countsPerRev gearRatio (s.setZero (.fin o)).positionRevs o
  movesTo : Unsaturated s later countsPerRev gearRatio o x →
    ∀ rpm t, later.goTo rpm (.fin x) = .ok (.setTarget t) →
      ReadsAs countsPerRev gearRatio (later.standingAt t.counts).positionRevs x

variable {s later} {countsPerRev gearRatio}

section
variable (hcounts : s.config.countsPerRev = .fin countsPerRev)
  (hgear : s.config.gearRatio = .fin gearRatio)
include hcounts hgear

/-- A conversion saturates the whole counts. -/
theorem toInt_counts (q : ℚ) :
    (s.counts q).toInt = saturate (wholeCounts countsPerRev gearRatio q) := by
  rw [counts, hcounts, hgear, revsToCounts_fin, toInt_clampToI32_fin]
  rfl

/-- `set_zero` stores the difference, also for an offset of 0. -/
theorem setZero_stored (o : ℚ) : (s.setZero (.fin o)).rt.zeroOffsetCounts =
    s.rt.telemetry.positionCounts - s.counts o := by
  have hzero : s.counts 0 = 0 := by
    rw [counts, hcounts, hgear, revsToCounts_fin, zero_mul]
    decide +kernel
  unfold setZero
  dsimp only
  split_ifs with ho
  · obtain rfl : o = 0 := by simpa using ho
    rw [hzero]
  · rfl

theorem scale_ne_zero (hcfg : s.config.validate = .ok ()) : countsPerRev * gearRatio ≠ 0 := by
  obtain ⟨-, hne, hpos⟩ := ServoConfig.limits_of_validate hcfg
  rw [hgear] at hne
  rw [hcounts] at hpos
  exact mul_ne_zero (of_decide_eq_true hpos).ne' fun hzero => hne (congrArg Double.fin hzero)

/-- A difference of as many counts as `q` comes to reads as `q`. -/
theorem readsAs_of_diff (hcfg : s.config.validate = .ok ()) {diff : Int32} {q : ℚ}
    (hdiff : diff.toInt = wholeCounts countsPerRev gearRatio q) :
    ReadsAs countsPerRev gearRatio
      (countsToRevs diff s.config.countsPerRev s.config.gearRatio) q := by
  have hscale := scale_ne_zero hcounts hgear hcfg
  rw [hcounts, hgear, countsToRevs_fin hscale, hdiff]
  refine ⟨_, rfl, ?_⟩
  have hround := abs_llround_sub_le (q * (countsPerRev * gearRatio))
  have hquotient : (wholeCounts countsPerRev gearRatio q : ℚ) / (countsPerRev * gearRatio) - q =
      (llround (q * (countsPerRev * gearRatio)) - q * (countsPerRev * gearRatio)) /
        (countsPerRev * gearRatio) := by
    rw [sub_div, mul_div_cancel_right₀ _ hscale]
    rfl
  rw [hquotient, abs_div]
  exact div_le_div_of_nonneg_right hround (abs_nonneg _)

end

end Session

open Session

/-- In the frame of every `set_zero`: the stored zero, the difference that is read and the target
of an accepted `go_to` are the saturated values of the integer ones, and without saturation the
position is read and reached up to half a count; if and only if the zero and the difference are
`int32_t` values, and the target is or every `go_to` is refused. -/
theorem zeroed_frame_saturates_iff (s later : Session) (hcfg : s.config.validate = .ok ())
    (countsPerRev gearRatio o x : ℚ) (hcounts : s.config.countsPerRev = .fin countsPerRev)
    (hgear : s.config.gearRatio = .fin gearRatio)
    (hlater : (s.setZero (.fin o)).SameFrame later) :
    ZeroedFrame s later countsPerRev gearRatio o x ↔
      InI32 (s.zeroSum o) ∧ InI32 later.readSum ∧
        (later.Refuses .position ∨ InI32 (later.targetSum x)) := by
  obtain ⟨hconfig, hzero⟩ := hlater
  have hconfig : later.config = s.config := hconfig
  have hstored := setZero_stored hcounts hgear o
  have hiff := toInt_sub_eq_saturate_iff s.rt.telemetry.positionCounts (s.counts o)
  have hcountsLater : later.config.countsPerRev = .fin countsPerRev := by rw [hconfig, hcounts]
  have hgearLater : later.config.gearRatio = .fin gearRatio := by rw [hconfig, hgear]
  have hmoved : ∀ rpm t, later.goTo rpm (.fin x) = .ok (.setTarget t) →
      ¬ later.Refuses .position ∧ t.counts = later.counts x + later.rt.zeroOffsetCounts := by
    intro rpm t ht
    obtain ⟨hrefuses, -, heq⟩ := (later.goTo_ok_iff rpm _ _).mp ht
    cases heq
    exact ⟨hrefuses, rfl⟩
  constructor
  · intro h
    refine ⟨hiff.mp (by rw [← hstored]; exact h.stored),
      (toInt_sub_eq_saturate_iff _ _).mp h.read, or_iff_not_imp_left.mpr fun hrefuses => ?_⟩
    have htarget := h.moved (.fin 1) _
      ((later.goTo_ok_iff (.fin 1) _ _).mpr ⟨hrefuses, by decide, rfl⟩)
    exact (toInt_add_eq_saturate_iff _ _).mp htarget
  · rintro ⟨hset, hread, htarget⟩
    refine ⟨by rw [hstored]; exact hiff.mpr hset, (toInt_sub_eq_saturate_iff _ _).mpr hread,
      fun rpm t ht => ?_, fun hnone => ?_, fun hnone rpm t ht => ?_⟩
    · obtain ⟨hrefuses, hcount⟩ := hmoved rpm t ht
      rw [hcount]
      exact (toInt_add_eq_saturate_iff _ _).mpr (htarget.resolve_left hrefuses)
    · -- Reading at once takes the stored zero off the position again.
      have hwhole := toInt_counts hcounts hgear o
      rw [saturate_of_inI32 hnone.1] at hwhole
      refine readsAs_of_diff hcounts hgear hcfg ?_
      rw [hstored, ← hwhole]
      have hback : s.rt.telemetry.positionCounts -
          (s.rt.telemetry.positionCounts - s.counts o) = s.counts o := by grind
      exact congrArg Int32.toInt hback
    · -- The target less the zero is the conversion again.
      obtain ⟨hrefuses, hcount⟩ := hmoved rpm t ht
      have hwhole := toInt_counts hcountsLater hgearLater x
      rw [saturate_of_inI32 hnone.2.1] at hwhole
      refine readsAs_of_diff hcountsLater hgearLater (hconfig ▸ hcfg) ?_
      rw [← hwhole, hcount]
      exact congrArg Int32.toInt (Int32.add_sub_cancel _ _)

/-- A session zeroed at the count 1000, and halted and enabled since. -/
theorem zeroed_frame_saturates_bench :
    ZeroedFrame (profileSession.standingAt 1000)
      (runFrom Session.step ((profileSession.standingAt 1000).setZero (.fin 0)) [.halt, .enable])
      10000 1 0 2 :=
  (zeroed_frame_saturates_iff (profileSession.standingAt 1000)
    (runFrom Session.step ((profileSession.standingAt 1000).setZero (.fin 0)) [.halt, .enable])
    (by decide +kernel) 10000 1 0 2 (by rfl) (by rfl) (sameFrame_run (by decide +kernel))).mpr
    ⟨by decide +kernel, by decide +kernel, .inr (by decide +kernel)⟩

/-- A session zeroed at the count 1000 is sent to 10^6 revolutions: the conversion saturates at the
largest count, and the target wraps to the other end. -/
theorem zeroed_frame_wraps : ¬ ∀ (s later : Session) (countsPerRev gearRatio o x : ℚ),
    s.config.validate = .ok () → s.config.countsPerRev = .fin countsPerRev →
    s.config.gearRatio = .fin gearRatio → (s.setZero (.fin o)).SameFrame later →
    ZeroedFrame s later countsPerRev gearRatio o x := by
  intro h
  have hmoved := (h (profileSession.standingAt 1000)
    ((profileSession.standingAt 1000).setZero (.fin 0)) 10000 1 0 1000000 (by decide +kernel)
    (by rfl) (by rfl) ⟨rfl, rfl⟩).moved (.fin 60) ⟨-2147482649, 10000, false, 1⟩
    (by decide +kernel)
  revert hmoved
  decide +kernel

end ViamEthercat.Servo
