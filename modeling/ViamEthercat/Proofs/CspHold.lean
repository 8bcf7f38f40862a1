import ViamEthercat.Proofs.Step

/-!
# `ViamEthercat.Proofs.CspHold`: the cyclic mode on a drive that left OperationEnabled

Outside Operational the cyclic mode tracks the shaft: 0x607A is the actual position, so a drive
that is energized finds no step to follow. In Operational the mode streams its generator and
gives enable-operation, whatever the statusword says. A drive that leaves OperationEnabled
without a fault (a quick-stop, safe torque off, a switch on its panel) leaves the controller in
Operational, with a trajectory that runs on and a controlword off the ladder. The profile mode
has the ladder in its sequencer.

`csp_holds_off_ladder`: along every run whose cycles meet `HoldReady`, every cycle whose
statusword is neither OperationEnabled nor Fault writes the actual position, and in Operational
the controlword of the ladder.
-/

set_option autoImplicit false

namespace ViamEthercat.Servo

open Lib Controller

section
variable (p : RtParams) (s : Controller) (t : Tick)

/-- The drive is neither enabled nor in Fault. -/
def OffLadderTop (inp : CycleInput) : Prop :=
  inp.status.decode ≠ .operationEnabled ∧ inp.status.decode ≠ .fault

/-- A steady cycle that finds the drive off the top of its ladder holds the actual position. A
cycle that ends in Operational gives the controlword of the ladder. -/
def HoldsOffLadder : Prop :=
  t.inp.stopping = false → OffLadderTop t.inp →
    (cycle p s t).outputs.targetPosition = t.inp.actual ∧
    ((cycle p s t).lifecycle = .operational →
      (cycle p s t).outputs.controlword = fsmStep t.inp.status .operationEnabled)

/-- The generator holds the position `actual`. -/
def HoldsAt (actual : Int32) : MotionMode ℚ → Prop
  | .profile _ => False
  | .cyclic m => m.generator.phase = .idle ∧ m.generator.position = actual

instance (actual : Int32) : (m : MotionMode ℚ) → Decidable (HoldsAt actual m)
  | .profile _ => isFalse id
  | .cyclic _ => inferInstanceAs (Decidable (_ ∧ _))

/-- Nothing takes the controller out of Operational in this cycle: no bus fault, no Disable and
no homing request. -/
def StaysOperational : Prop :=
  s.lifecycle = .operational ∧ t.inp.fault = false ∧ (drain t.drained).disable = false ∧
    (drain t.drained).startHoming = none

/-- A steady cycle that stays in Operational on a drive off the top of its ladder: the drive is
one enable-operation below it, no quick-stop is drained, and the routed generator holds the
actual position. -/
def HoldReady : Prop :=
  t.inp.stopping = false → OffLadderTop t.inp → StaysOperational s t →
    (t.inp.status.decode = .switchedOn ∨ t.inp.status.decode = .quickStopActive) ∧
    (drain t.drained).quickStop = false ∧
    HoldsAt t.inp.actual (s.routedMotion t.inp (drain t.drained))

instance (inp : CycleInput) : Decidable (OffLadderTop inp) := inferInstanceAs (Decidable (_ ∧ _))

instance : Decidable (StaysOperational s t) := inferInstanceAs (Decidable (_ ∧ _))

instance : Decidable (HoldReady s t) := inferInstanceAs (Decidable (_ → _))

instance : Decidable (HoldsOffLadder p s t) := inferInstanceAs (Decidable (_ → _))

end

section
variable {p : RtParams} {s : Controller} {t : Tick}

/-- The ladder gives enable-operation from its last rung, and from a quick-stop. -/
theorem fsmStep_last_rung {status : Status}
    (h : status.decode = .switchedOn ∨ status.decode = .quickStopActive) :
    fsmStep status .operationEnabled = ControlWord.enableOperation := by
  unfold fsmStep
  rcases h with h | h <;> rw [h] <;> rfl

/-- Outside Operational a mapped 0x607A follows the shaft. -/
theorem targetPosition_tracked {inp : CycleInput} {m : CyclicPositionMode ℚ}
    (hm : s.motion = .cyclic m) (hmapped : p.fields.targetPosition = true)
    (hl : s.lifecycle ≠ .operational) :
    (s.trackUnlessOperational p inp).outputs.targetPosition = inp.actual := by
  unfold trackUnlessOperational
  rw [if_pos hl, track, hm]
  show (s.outputs.storeTargetPosition p.fields inp.actual).targetPosition = inp.actual
  simp only [Outputs.storeTargetPosition, hmapped, if_true]

theorem trackUnlessOperational_operational {inp : CycleInput} (h : s.lifecycle = .operational) :
    s.trackUnlessOperational p inp = s :=
  if_neg (not_not.mpr h)

/-- An Operational cycle that nothing interrupts is a step of the mode. -/
theorem stepLifecycle_motion {inp : CycleInput} {b : CommandBatch}
    (hl : s.lifecycle = .operational) (hfault : ¬ Faulted inp) (hdisable : b.disable = false)
    (hhoming : b.startHoming = none) (hquick : b.quickStop = false) :
    s.stepLifecycle p inp b = (s.routeCommands inp b).stepMotion p inp := by
  rw [stepLifecycle_operational hl, stepOperational]
  simp only [hfault, hdisable, hhoming, hquick, Bool.false_eq_true, if_false]

/-- Such a cycle of a generator at rest streams the position it holds. -/
theorem held_outputs {inp : CycleInput} {b : CommandBatch} (hl : s.lifecycle = .operational)
    (hmapped : p.fields.targetPosition = true) (hfault : ¬ Faulted inp)
    (hdisable : b.disable = false) (hhoming : b.startHoming = none)
    (hquick : b.quickStop = false) (hholds : HoldsAt inp.actual (s.routedMotion inp b)) :
    (s.stepLifecycle p inp b).1.outputs.targetPosition = inp.actual ∧
      (s.stepLifecycle p inp b).2 = ControlWord.enableOperation := by
  cases hm : s.routedMotion inp b with
  | profile m => rw [hm] at hholds; exact hholds.elim
  | cyclic m =>
      rw [hm] at hholds
      obtain ⟨hidle, hposition⟩ := hholds
      obtain ⟨le, te, w, sr, -, hstep⟩ := (s.routeCommands inp b).stepMotion_eq p inp
      have hheld : m.generator.step p.sqrt m.dt = m.generator := by
        unfold TrapezoidGenerator.step
        rw [if_pos (.inl hidle)]
      rw [stepLifecycle_motion hl hfault hdisable hhoming hquick, hstep]
      dsimp only [motionStep]
      rw [routeCommands_motion, hm]
      refine ⟨?_, rfl⟩
      show (Outputs.storeTargetPosition p.fields _
        (m.generator.step p.sqrt m.dt).position).targetPosition = inp.actual
      rw [hheld, hposition]
      simp only [Outputs.storeTargetPosition, hmapped, if_true]

/-- One cycle of a cyclic mode. -/
theorem holdsOffLadder_of_ready (hcyclic : ∃ m, s.motion = .cyclic m)
    (hmapped : p.fields.targetPosition = true) (hready : HoldReady s t) :
    HoldsOffLadder p s t := by
  intro hsteady hoff
  obtain ⟨te, ph, ar, w, out, -, hc⟩ := cycle_steady (p := p) (s := s) hsteady
  have hlifecycle : (cycle p s t).lifecycle
      = (lifecycleStep p s t.inp (drain t.drained)).1.lifecycle := by rw [hc]
  rw [hlifecycle, cycle_outputs hsteady]
  by_cases hto : (lifecycleStep p s t.inp (drain t.drained)).1.lifecycle = .operational
  swap
  · -- The controller is outside Operational, so the mode tracks the shaft.
    refine ⟨?_, fun h => absurd h hto⟩
    obtain ⟨m, hm⟩ := hcyclic
    have hafter : ∃ m', settledMotion (lifecycleStep p s t.inp (drain t.drained)).1 t.inp.actual
        = .cyclic m' := cyclic_lifecycle (s := s.sample t.inp) hm
    obtain ⟨m', hm'⟩ := hafter
    cases hmotion : (lifecycleStep p s t.inp (drain t.drained)).1.motion with
    | profile q =>
        unfold settledMotion at hm'
        rw [if_pos hto, hmotion] at hm'
        cases hm'
    | cyclic q => exact targetPosition_tracked (m := q) hmotion hmapped hto
  -- A cycle ends in Operational only from there, since the ladder is not at its top.
  have hstays : StaysOperational s t ∧ ¬ Faulted t.inp := by
    cases stepLifecycle_outcome p (s.sample t.inp) t.inp (drain t.drained) with
    | kept _ _ hwhere =>
        rcases hwhere with ⟨-, hno, -⟩ | ⟨-, -, htop, -⟩ |
          ⟨hfrom, -, -, -, hfault, hdisable, hhoming⟩
        · exact absurd hto hno
        · exact absurd htop.1 hoff.1
        · exact ⟨⟨hfrom, by simpa using fun h => hfault (.inr h), hdisable, hhoming⟩, hfault⟩
    | reset _ _ hno _ => exact absurd hto hno
    | faulted _ _ _ hres _ => cases hto.symm.trans hres
    | stepped _ _ _ _ _ hfrom _ hfault hdisable hhoming _ =>
        exact ⟨⟨hfrom, by simpa using fun h => hfault (.inr h), hdisable, hhoming⟩, hfault⟩
  obtain ⟨⟨hl, hbus, hdisable, hhoming⟩, hfault⟩ := hstays
  obtain ⟨hrung, hquick, hholds⟩ := hready hsteady hoff ⟨hl, hbus, hdisable, hhoming⟩
  obtain ⟨htarget, hcw⟩ := held_outputs (s := s.sample t.inp) hl hmapped hfault hdisable hhoming
    hquick hholds
  -- The image is left as the mode wrote it, with the controlword.
  rw [trackUnlessOperational_operational (s := Controller.storeControlword _ _) hto]
  exact ⟨htarget, fun _ => hcw.trans (fsmStep_last_rung hrung).symm⟩

end

/-- Along every run of the cyclic mode whose cycles meet `HoldReady`, a drive that is neither
enabled nor in Fault is given its actual position, and in Operational the controlword of the
ladder. -/
theorem csp_holds_off_ladder (p : RtParams) (s₀ : Controller) (m₀ : CyclicPositionMode ℚ)
    (hcsp : s₀.motion = .cyclic m₀) (hmapped : p.fields.targetPosition = true)
    (bringup : List CycleInput) (ticks : List Tick)
    (hready : AllSteps (cycle p) HoldReady (spawned p s₀ bringup) ticks) :
    AllSteps (cycle p) (HoldsOffLadder p) (spawned p s₀ bringup) ticks :=
  allSteps_of_invariant (I := fun s => ∃ m, s.motion = .cyclic m) (spawned_cyclic hcsp bringup)
    (fun _ _ hcyclic hx => ⟨cyclic_cycle hcyclic, holdsOffLadder_of_ready hcyclic hmapped hx⟩)
    hready

/-- A run whose drive is switched off and on again while the axis rests. -/
def restingRun : List Tick :=
  climb 8 0 ++ [tick 0x0027#16 8 0 [], tick 0x0023#16 8 0 [], tick 0x0027#16 8 0 []]

/-- A drive that drops to SwitchedOn at rest is enabled again from a hold. -/
theorem csp_holds_at_rest :
    AllSteps (cycle cyclicBench) (HoldsOffLadder cyclicBench)
      (spawned cyclicBench cyclicController []) restingRun :=
  csp_holds_off_ladder cyclicBench cyclicController _ rfl rfl [] restingRun (by decide +kernel)

/-- A drive that loses its torque on a velocity run: the target runs on, and enable-operation
does not climb the ladder from SwitchOnDisabled. -/
theorem csp_runs_off_ladder : ¬ ∀ (p : RtParams) (s₀ : Controller) (m₀ : CyclicPositionMode ℚ),
    s₀.motion = .cyclic m₀ → p.fields.targetPosition = true →
    ∀ (bringup : List CycleInput) (ticks : List Tick),
      AllSteps (cycle p) (HoldsOffLadder p) (spawned p s₀ bringup) ticks := by
  intro h
  have hholds := h cyclicBench cyclicController _ rfl rfl []
    (climb 8 0 ++ tick 0x0027#16 8 0 [.setVelocity 2000] ::
      List.replicate 30 (tick 0x0027#16 8 0 []) ++ [tick 0x0040#16 8 0 []])
  revert hholds
  decide +kernel

end ViamEthercat.Servo
