import ViamEthercat.Proofs.Step
import ViamEthercat.Proofs.Motion
import ViamEthercat.Lib.Run

/-!
# `ViamEthercat.Proofs.StopWins`: a stop drained after a motion command

`stop_wins_iff`: in Operational without a fault, a stop that comes after every motion command
of its drain wins, if and only if the drain holds no target, and its velocities are undone by
a Disable or a homing request, or go to a cyclic mode that is told to stop anyway.

`drain` remembers the order of a Halt and the motion commands, but `step_lifecycle` applies
the halt first and the coalesced target and velocity after it. So the target is adopted past
the halt that superseded it: it clears the halt latch, and its move is not among the ones the
halt failed.
-/

set_option autoImplicit false

namespace ViamEthercat.Servo

open Lib Controller

variable {p : RtParams} {s : Controller} {t : Tick}

/-- The last stop of a drained list, a Halt or a Disable, comes after its motion commands. -/
def StopLast (cs : List Command) : Prop :=
  ∃ pre c post, cs = pre ++ c :: post ∧ (c = .halt ∨ c = .disable) ∧
    ∀ c' ∈ post, c'.isMotion = false

/-- The mode commands no motion: a profile mode is halted or reset, a cyclic generator holds
or ramps to rest. A set-point that still waits in a halted mode cannot start, since every
controlword carries Halt, and a reset drops it. -/
def NoMotion : MotionMode ℚ → Prop
  | .profile m => m.halted = true ∨ m = m.reset
  | .cyclic m => m.generator.AtRestOrStopping

instance (m : MotionMode ℚ) : Decidable (NoMotion m) :=
  match m with
  | .profile _ => inferInstanceAs (Decidable (_ ∨ _))
  | .cyclic _ => inferInstanceAs (Decidable (_ ∨ _))

/-- The stop of this cycle wins: the mode commands no motion when it ends, and every target
drained in it is failed. -/
def StopWins (p : RtParams) (s : Controller) (t : Tick) : Prop :=
  NoMotion (cycle p s t).motion ∧
    ∀ u ∈ targets t.drained, (cycle p s t).failedGeneration = u.generation

instance : Decidable (StopWins p s t) := inferInstanceAs (Decidable (_ ∧ _))

/-- The cyclic mode ignores the velocity, or is told zero. -/
def VelocityHarmless (m : MotionMode ℚ) (v : Int32) : Prop :=
  match m with
  | .profile _ => False
  | .cyclic m => v = 0 ∨ ¬ 0 < m.accel

instance (m : MotionMode ℚ) (v : Int32) : Decidable (VelocityHarmless m v) :=
  match m with
  | .profile _ => inferInstanceAs (Decidable False)
  | .cyclic _ => inferInstanceAs (Decidable (_ ∨ _))

/-- No target is drained, and no velocity outlives the stop. -/
def StopObeyed (s : Controller) (cs : List Command) : Prop :=
  targets cs = [] ∧
    (Command.disable ∈ cs ∨ homings cs ≠ [] ∨
      ∀ v, (velocities cs).getLast? = some v → VelocityHarmless s.motion v)

/-! ### A mode that was told to stop -/

/-- The mode was told to stop: the halt latch, or a generator that holds or ramps to rest. -/
def ToldToStop : MotionMode ℚ → Prop
  | .profile m => m.halted = true
  | .cyclic m => m.generator.AtRestOrStopping

theorem ToldToStop.noMotion {m : MotionMode ℚ} (h : ToldToStop m) : NoMotion m := by
  cases m with
  | profile m => exact .inl h
  | cyclic m => exact h

theorem noMotion_tracked_reset (actual : Int32) (m : MotionMode ℚ) :
    NoMotion (m.reset.tracked actual) := by
  cases m with
  | profile m => exact .inr rfl
  | cyclic m => exact .inl rfl

theorem toldToStop_halt (m : MotionMode ℚ) : ToldToStop m.halt := by
  cases m with
  | profile m => exact rfl
  | cyclic m => exact TrapezoidGenerator.atRestOrStopping_stop _

/-- A harmless velocity leaves a stopped mode stopped. -/
theorem toldToStop_setVelocity {m : MotionMode ℚ} {v : Int32} (h : VelocityHarmless m v)
    (hm : ToldToStop m) : ToldToStop (m.setVelocity v) := by
  cases m with
  | profile m => exact absurd h id
  | cyclic m =>
      show TrapezoidGenerator.AtRestOrStopping (CyclicPositionMode.setVelocity m v).generator
      rw [m.setVelocity_generator]
      rcases h with rfl | hacc
      · rw [Int32.toInt_zero, Int.cast_zero]
        exact TrapezoidGenerator.atRestOrStopping_setVelocity_zero m.accel hm
      · rw [TrapezoidGenerator.setVelocity_refused hacc]
        exact hm

theorem toldToStop_step {m : MotionMode ℚ} (sqrt : ℚ → ℚ) (f : Fields) (inp : CycleInput)
    (out : Outputs) (fb : MotionFeedback) (hm : ToldToStop m) :
    ToldToStop (m.step sqrt f inp out fb).next := by
  cases m with
  | profile m => exact (ProfilePositionMode.step_halted f inp out).trans hm
  | cyclic m => exact TrapezoidGenerator.atRestOrStopping_step sqrt m.dt hm

/-! ### A mode that was told to move -/

/-- The mode was told to move: a profile mode with a new command and no halt, or a cyclic
velocity run. -/
def ToldToMove : MotionMode ℚ → Prop
  | .profile m => m.halted = false ∧ m.intent = .profileVelocity
  | .cyclic m => m.generator.phase = .velocity ∧ m.generator.vTarget ≠ 0

theorem ToldToMove.not_noMotion {m : MotionMode ℚ} (h : ToldToMove m) : ¬ NoMotion m := by
  cases m with
  | profile m =>
      obtain ⟨hhalt, hintent⟩ := h
      rintro (hh | hr)
      · rw [hhalt] at hh
        cases hh
      · rw [hr] at hintent
        cases hintent
  | cyclic m =>
      obtain ⟨hphase, hv⟩ := h
      -- A velocity run toward a nonzero velocity is neither of the two.
      rintro (hidle | ⟨-, hzero⟩)
      · rw [hphase] at hidle
        cases hidle
      · exact hv hzero

theorem toldToMove_setVelocity {m : MotionMode ℚ} {v : Int32} (h : ¬ VelocityHarmless m v) :
    ToldToMove (m.setVelocity v) := by
  cases m with
  | profile m => exact ⟨rfl, rfl⟩
  | cyclic m =>
      -- Not harmless: the velocity is not zero and the acceleration is positive.
      have hv : (v.toInt : ℚ) ≠ 0 := by
        intro hz
        exact h (.inl (Int32.toInt_inj.mp (by exact_mod_cast hz)))
      have ha : 0 < m.accel := by
        by_contra ha
        exact h (.inr ha)
      show (m.setVelocity v).generator.phase = .velocity ∧ (m.setVelocity v).generator.vTarget ≠ 0
      rw [m.setVelocity_generator]
      obtain ⟨hphase, htarget⟩ := TrapezoidGenerator.setVelocity_run (g := m.generator) hv ha
      exact ⟨hphase, htarget.trans_ne hv⟩

theorem toldToMove_step {m : MotionMode ℚ} (sqrt : ℚ → ℚ) (f : Fields) (inp : CycleInput)
    (out : Outputs) (fb : MotionFeedback) (hm : ToldToMove m) :
    ¬ NoMotion (m.step sqrt f inp out fb).next := by
  cases m with
  | profile m =>
      obtain ⟨hhalt, hintent⟩ := hm
      rintro (hh | hr)
      · rw [ProfilePositionMode.step_halted, hhalt] at hh
        cases hh
      · -- A reset mode reports no failure, so the step kept the velocity intent.
        have hadopted : (m.step f inp out fb).next.modeNotAdopted = false := by
          rw [hr]
          rfl
        have hkept := ProfilePositionMode.step_intent f inp out hadopted
        rw [hr, hintent] at hkept
        cases hkept
  | cyclic m =>
      obtain ⟨hphase, hv⟩ := hm
      obtain ⟨hphase', hv'⟩ := TrapezoidGenerator.step_run sqrt m.dt hphase hv
      exact ToldToMove.not_noMotion (m := .cyclic _) ⟨hphase', hv'.trans_ne hv⟩

/-- A step that reports a failure leaves a mode that is not halted neither halted nor
reset. -/
theorem not_noMotion_of_fault {m : ProfilePositionMode} (f : Fields) (inp : CycleInput)
    (out : Outputs) (fb : MotionFeedback) (hm : m.halted = false)
    (hfault : (m.step f inp out fb).next.fault ≠ .none) :
    ¬ NoMotion (.profile (m.step f inp out fb).next) := by
  rintro (hh | hr)
  · rw [ProfilePositionMode.step_halted, hm] at hh
    cases hh
  · rw [hr] at hfault
    exact hfault rfl

/-! ### The routed batch -/

/-- A halt that comes after every motion command stops the mode before the target and the
velocity are routed. -/
theorem stopLast_cases {cs : List Command} (h : StopLast cs) :
    ((drain cs).halt = true ∧ (drain cs).haltSupersedes = true) ∨ (drain cs).disable = true := by
  obtain ⟨pre, c, post, rfl, rfl | rfl, hpost⟩ := h
  · exact .inl ⟨by simp [drain_halt], drain_haltSupersedes rfl hpost⟩
  · exact .inr (by simp [drain_disable])

/-- Without a target, the mode is stopped and then told the last velocity. -/
theorem routedMotion_of_no_target {b : CommandBatch} {inp : CycleInput}
    (h : b.setTarget = none) :
    s.routedMotion inp b = velocityMotion b (stoppedMotion b s.motion) := by
  simp [routedMotion, targetedMotion, h]

theorem velocityHarmless_stopped {b : CommandBatch} {m : MotionMode ℚ} {v : Int32} :
    VelocityHarmless (stoppedMotion b m) v ↔ VelocityHarmless m v := by
  unfold stoppedMotion
  split_ifs
  · cases m <;> rfl
  · rfl

/-- A superseding halt stops the mode, when no velocity undoes it. -/
theorem toldToStop_routed {b : CommandBatch} {inp : CycleInput} (ht : b.setTarget = none)
    (hh : b.halt = true ∧ b.haltSupersedes = true)
    (hv : ∀ v, b.setVelocity = some v → VelocityHarmless s.motion v) :
    ToldToStop (s.routedMotion inp b) := by
  -- The halt is routed first. The velocity of the same drain comes after it.
  have hstopped : stoppedMotion b s.motion = s.motion.halt := if_pos hh
  rw [routedMotion_of_no_target ht, velocityMotion, hstopped]
  cases hb : b.setVelocity with
  | none => exact toldToStop_halt s.motion
  | some v =>
      refine toldToStop_setVelocity ?_ (toldToStop_halt s.motion)
      rw [← hstopped, velocityHarmless_stopped]
      exact hv v hb

/-- A velocity that is not harmless moves the mode, halted before or not. -/
theorem toldToMove_routed {b : CommandBatch} {inp : CycleInput} {v : Int32}
    (ht : b.setTarget = none) (hb : b.setVelocity = some v)
    (hv : ¬ VelocityHarmless s.motion v) : ToldToMove (s.routedMotion inp b) := by
  rw [routedMotion_of_no_target ht, velocityMotion, hb]
  exact toldToMove_setVelocity (velocityHarmless_stopped.not.mpr hv)

/-- A routed target un-halts a profile mode. -/
theorem routedProfile_halted {b : CommandBatch} {inp : CycleInput} {m : ProfilePositionMode}
    {u : SetTarget} (hu : b.setTarget = some u) (hne : u.generation ≠ s.activeGeneration) :
    (routedProfile inp b s.activeGeneration m).halted = false := by
  unfold routedProfile
  simp only [hu, hne, ne_eq, not_false_eq_true, if_true]
  cases b.setVelocity <;> rfl

/-! ### One cycle -/

/-- The mode of an Operational cycle that sees no fault: reset by a Disable or a homing
request, else the routed mode, or its step. -/
theorem operational_motion_cases (hl : s.lifecycle = .operational) (hf : ¬ Faulted t.inp)
    (hsteady : t.inp.stopping = false) :
    let b := drain t.drained
    (((b.disable = true ∨ b.startHoming.isSome = true) ∧
        (cycle p s t).motion = (s.routedMotion t.inp b).reset.tracked t.inp.actual ∧
        (cycle p s t).failedGeneration = s.routedFailed b) ∨
      (b.disable = false ∧ b.startHoming = none ∧
        (cycle p s t).motion = s.routedMotion t.inp b ∧
        (cycle p s t).failedGeneration = s.routedFailed b) ∨
      (b.disable = false ∧ b.startHoming = none ∧ ∃ q : Controller,
        q.motion = s.routedMotion t.inp b ∧ (cycle p s t).motion = (motionStep p q t.inp).next ∧
        (cycle p s t).failedGeneration =
          if (motionStep p q t.inp).next.fault ≠ .none ∧ s.routedActive b ≠ 0 ∧
            s.completedGeneration ≠ s.routedActive b
          then s.routedActive b else s.routedFailed b)) := by
  intro b
  obtain ⟨te, ph, ar, w, out, -, hc⟩ := cycle_steady (p := p) (s := s) hsteady
  rw [hc]
  dsimp only
  -- Each outcome says from which state it starts, and only three start in Operational.
  cases stepLifecycle_outcome p (s.sample t.inp) t.inp b with
  | kept hmotion hfailed hwhere =>
      rcases hwhere with ⟨hfrom, -⟩ | ⟨hfrom, -⟩ | ⟨-, hto, -, -, -, hdis, hhom⟩
      · exact absurd hl hfrom
      · cases hl.symm.trans hfrom
      · refine .inr (.inl ⟨hdis, hhom, ?_, hfailed⟩)
        rw [settledMotion, if_neg (not_not.mpr hto), hmotion]
        rfl
  | reset hmotion hfailed hto hwhere =>
      rcases hwhere with ⟨hfrom | hfrom, -⟩ | ⟨-, -, hreq⟩ | ⟨hfrom, -⟩
      · cases hl.symm.trans hfrom
      · cases hl.symm.trans hfrom
      · refine .inl ⟨hreq, ?_, hfailed⟩
        rw [settledMotion, if_pos hto, hmotion]
        rfl
      · cases hl.symm.trans hfrom
  | faulted _ _ _ _ hfault => exact absurd hfault hf
  | stepped q hq hmotion _ hfailed _ hto _ hdis hhom =>
      refine .inr (.inr ⟨hdis, hhom, q, hq, ?_, hfailed⟩)
      rw [settledMotion, if_neg (not_not.mpr hto), hmotion]

/-- A drain with a target does not let its stop win: the target's move is not failed, or the
mode that failed it is left un-halted. -/
theorem not_stopWins_of_target (hl : s.lifecycle = .operational) (hf : ¬ Faulted t.inp)
    (hsteady : t.inp.stopping = false)
    (hfresh : ∀ u ∈ targets t.drained,
      u.generation ≠ s.activeGeneration ∧ u.generation ≠ s.failedGeneration)
    (htargets : targets t.drained ≠ []) : ¬ StopWins p s t := by
  have hlast := drain_setTarget t.drained
  rw [List.getLast?_eq_some_getLast htargets] at hlast
  set u := (targets t.drained).getLast htargets with hu
  obtain ⟨hactive, hfailed⟩ := hfresh u (List.getLast_mem htargets)
  -- The stops of the drain fail the move that was active before, never this one.
  have hrouted : s.routedFailed (drain t.drained) ≠ u.generation := by
    unfold routedFailed
    split_ifs
    · exact hactive.symm
    · exact hfailed.symm
  rintro ⟨hstill, hall⟩
  have hgen := hall u (List.getLast_mem htargets)
  rcases operational_motion_cases (p := p) hl hf hsteady with
    ⟨-, -, hfail⟩ | ⟨-, -, -, hfail⟩ | ⟨-, -, q, hq, hmotion, hfail⟩
  · exact hrouted (hfail.symm.trans hgen)
  · exact hrouted (hfail.symm.trans hgen)
  · rw [hgen] at hfail
    split_ifs at hfail with hfault
    · -- Only a failure of the profile mode fails the new move.
      cases hm : s.motion with
      | cyclic m =>
          rw [motionStep, hq, routedMotion_cyclic _ _ hm] at hfault
          exact hfault.1 rfl
      | profile m =>
          rw [hmotion, motionStep, hq, routedMotion_profile _ _ hm] at hstill
          rw [motionStep, hq, routedMotion_profile _ _ hm] at hfault
          exact not_noMotion_of_fault p.fields t.inp _ _
            (routedProfile_halted hlast hactive) hfault.1 hstill
    · exact hrouted hfail.symm

/-- A stop drained after every motion command of its cycle wins if and only if no target is
drained with it and no velocity outlives it. The ids of drained targets are new ones, as
`next_generation_` hands them out. -/
theorem stop_wins_iff (p : RtParams) (s : Controller) (t : Tick)
    (hl : s.lifecycle = .operational) (hf : ¬ Faulted t.inp) (hsteady : t.inp.stopping = false)
    (hstop : StopLast t.drained)
    (hfresh : ∀ u ∈ targets t.drained,
      u.generation ≠ s.activeGeneration ∧ u.generation ≠ s.failedGeneration) :
    StopWins p s t ↔ StopObeyed s t.drained := by
  by_cases htargets : targets t.drained = []
  -- A drained target is adopted past the stop.
  swap
  · exact iff_of_false (not_stopWins_of_target hl hf hsteady hfresh htargets)
      fun h => htargets h.1
  have hnone : (drain t.drained).setTarget = none := by simp [drain_setTarget, htargets]
  have hhom : (drain t.drained).startHoming.isSome = true ↔ homings t.drained ≠ [] := by
    simp [drain_startHoming]
  simp only [StopWins, StopObeyed, htargets, List.not_mem_nil, false_implies, implies_true,
    and_true, true_and, ← hhom, ← drain_setVelocity]
  rw [← show (drain t.drained).disable = true ↔ Command.disable ∈ t.drained by
    simp [drain_disable]]
  rcases operational_motion_cases (p := p) hl hf hsteady with
    ⟨hreset, hmotion, -⟩ | ⟨hdis, hnohom, hmotion, -⟩ | ⟨hdis, hnohom, q, hq, hmotion, -⟩
  · rw [hmotion]
    exact iff_of_true (noMotion_tracked_reset ..) (hreset.imp id .inl)
  all_goals
    -- No Disable was drained, so the stop is a Halt that supersedes.
    have hhalt := (stopLast_cases hstop).resolve_right (by simp [hdis])
    rw [hmotion]
    simp only [hdis, hnohom, Bool.false_eq_true, Option.isSome_none, false_or]
    constructor
  · intro hstill v hb
    by_contra hv
    exact (toldToMove_routed hnone hb hv).not_noMotion hstill
  · exact fun hv => (toldToStop_routed hnone hhalt hv).noMotion
  · intro hstill v hb
    by_contra hv
    exact toldToMove_step _ _ _ _ _ (hq ▸ toldToMove_routed hnone hb hv) hstill
  · exact fun hv => (toldToStop_step _ _ _ _ _ (hq ▸ toldToStop_routed hnone hhalt hv)).noMotion

/-- A profile mode in Operational. -/
def stopBench : Controller :=
  runFrom (cycle profileBench) (spawned profileBench profileController []) (climb 1 0)

/-- A cyclic mode in Operational. -/
def cyclicStopBench : Controller :=
  runFrom (cycle cyclicBench) (spawned cyclicBench cyclicController []) (climb 8 0)

/-- A Disable after a velocity wins, and so does a Halt after the velocity zero of a cyclic mode. -/
theorem stop_wins_over_velocity :
    StopWins profileBench stopBench (tick 0x0027#16 1 0 [.setVelocity 200, .disable]) ∧
    StopWins cyclicBench cyclicStopBench (tick 0x0027#16 8 0 [.setVelocity 0, .halt]) := by
  constructor
  · refine (stop_wins_iff profileBench stopBench _ (by decide +kernel) (by decide) rfl
      ⟨[_], .disable, [], rfl, .inr rfl, by simp⟩
      (by simp [tick, targets, Command.target?])).mpr ⟨rfl, .inl ?_⟩
    simp [tick]
  · refine (stop_wins_iff cyclicBench cyclicStopBench _ (by decide +kernel) (by decide) rfl
      ⟨[_], .halt, [], rfl, .inl rfl, by simp⟩
      (by simp [tick, targets, Command.target?])).mpr ⟨rfl, .inr (.inr fun v hv => ?_)⟩
    obtain rfl : 0 = v := Option.some.inj hv
    decide +kernel

/-- A Halt after a target in one drain loses: the target is adopted past it, un-halts the
mode, and its move is not failed. -/
theorem stop_loses_to_target : ¬ ∀ (p : RtParams) (s₀ : Controller)
    (bringup : List CycleInput) (history : List Tick) (t : Tick),
    let s := runFrom (cycle p) (spawned p s₀ bringup) history
    s.lifecycle = .operational → ¬ Faulted t.inp → t.inp.stopping = false →
    StopLast t.drained → StopWins p s t := by
  intro h
  have hwins := h profileBench profileController [] (climb 1 0)
    (tick 0x0027#16 1 0 [.setTarget ⟨1000, 500, false, 1⟩, .halt]) (by decide +kernel)
    (by decide) rfl ⟨[_], .halt, [], rfl, .inl rfl, by simp⟩
  revert hwins
  decide +kernel

end ViamEthercat.Servo
