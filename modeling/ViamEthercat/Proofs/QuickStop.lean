import ViamEthercat.Proofs.Handshake
import ViamEthercat.Proofs.Step
import ViamEthercat.Lib.Run

/-!
# `ViamEthercat.Proofs.QuickStop`: the configured quick-stop

In profile mode with a quick-stop deceleration, the stopping window writes the quick-stop word
only for a sequencer that has announced an energized drive. `quick_stop_iff`: the word of the
window is right for the drive if and only if the statusword itself calls for disable-voltage,
or the mode has driven an energized drive in this run and was not reset since.

The flag `announced_op_` is set by the drive branch of the sequencer (`Drives`) and cleared by
every reset of the mode (`DropsMode`): on a fault, on a disable, and at the start and the end of
a homing run. A stop during a homing run, or in the first cycles after a re-enable, therefore
finds the flag clear with the drive energized, and coasts.
-/

set_option autoImplicit false

namespace ViamEthercat

/-- An energized drive is announced, unless the mode check refused it. Nothing but a reset
takes the announcement back. -/
theorem Sequencer.step_announcedOp (f : Fields) (q : Sequencer) {inp : CycleInput}
    (out : Outputs) {cmd : SequencerCommand} (hsteady : inp.stopping = false)
    (hdec : inp.status.decode ≠ .fault) (hen : cmd.enable = true) :
    (q.step f inp out cmd).next.announcedOp =
      (q.announcedOp || (!q.state.modeMismatch && inp.status.operationEnabled)) := by
  obtain ⟨hmatch, hannounced, -, -⟩ := taken_frame f q inp cmd
  rw [step_eq, if_neg (by simp [hsteady]), ← hannounced, ← hmatch]
  generalize q.taken f inp cmd = q
  have hcheck : (q.checkMode inp cmd).announcedOp = q.announcedOp := by
    unfold checkMode
    split_ifs <;> rfl
  unfold stepSteady
  simp only [hdec, if_false, hen, Bool.true_and, Bool.not_true, Bool.false_eq_true]
  cases hon : inp.status.operationEnabled with
  | false =>
      simp only [Bool.and_false, Bool.false_eq_true, if_false, Bool.or_false]
      exact hcheck
  | true =>
      rw [checkMode_of_operationEnabled q cmd hon]
      cases hmis : q.state.modeMismatch with
      | true => simp
      | false =>
          simp only [Bool.not_false, Bool.and_self, if_true, Bool.or_true]
          unfold driveOperational stepHandshake
          cases q.handshake <;> dsimp only <;> split_ifs <;> rfl

namespace Servo

open Lib Controller

namespace MotionMode

/-- The sequencer has announced an energized drive. -/
def announced : MotionMode ℚ → Bool
  | .profile m => m.sequencer.announcedOp
  | .cyclic _ => false

/-- The mode check of the sequencer has refused to enable. -/
def refused : MotionMode ℚ → Bool
  | .profile m => m.sequencer.state.modeMismatch
  | .cyclic _ => true

end MotionMode

section
variable (p : RtParams) (s : Controller) (t : Tick)

/-- The cycle drives the mode with the drive energized. -/
def Drives : Prop :=
  t.inp.stopping = false ∧ s.lifecycle = .operational ∧ ¬ Faulted t.inp ∧
    (drain t.drained).disable = false ∧ (drain t.drained).startHoming = none ∧
    (drain t.drained).quickStop = false ∧ t.inp.status.operationEnabled = true ∧
    s.motion.refused = false

/-- The cycle resets the mode. -/
def DropsMode : Prop :=
  t.inp.stopping = false ∧ (ResetsMode p s t.inp (drain t.drained) ∨
    (s.lifecycle = .operational ∧ Faulted t.inp))

instance : Decidable (Drives s t) := inferInstanceAs (Decidable (_ ∧ _))

instance : Decidable (DropsMode p s t) := inferInstanceAs (Decidable (_ ∧ _))

/-- The statusword calls for disable-voltage: a fault, at rest, or not energized. -/
def NotToRamp (inp : CycleInput) : Prop :=
  inp.status.fault = true ∨ inp.status.switchOnDisabled = true ∨
    inp.status.operationEnabled = false

instance (inp : CycleInput) : Decidable (NotToRamp inp) := inferInstanceAs (Decidable (_ ∨ _))

/-- The word of the window is the quick-stop word, or disable-voltage for a drive that has
nothing to ramp. -/
def QuickStops : Prop :=
  (cycle p s t).outputs.controlword = quickStopCw ∨
    ((cycle p s t).outputs.controlword = ControlWord.disableVoltage ∧ NotToRamp t.inp)

instance : Decidable (QuickStops p s t) := inferInstanceAs (Decidable (_ ∨ _))

end

variable {p : RtParams} {s : Controller} {t : Tick}

/-! ### The announcement along a run -/

/-- A step of the profile mode announces an energized drive that it does not refuse. -/
theorem MotionMode.step_announced (sqrt : ℚ → ℚ) (f : Fields) (m : ProfilePositionMode)
    {inp : CycleInput} (out : Outputs) (fb : MotionFeedback) (hsteady : inp.stopping = false)
    (hdec : inp.status.decode ≠ .fault) :
    ((MotionMode.profile m).step sqrt f inp out fb).next.announced =
      (m.sequencer.announcedOp ||
        (!m.sequencer.state.modeMismatch && inp.status.operationEnabled)) := by
  show (m.step f inp out fb).next.sequencer.announcedOp = _
  rw [(m.step_sequencer f inp out fb).1]
  exact m.sequencer.step_announcedOp f out hsteady hdec (m.issued_enable fb)

/-- The stopping window leaves the announcement. -/
theorem MotionMode.stepShutdown_announced (sqrt : ℚ → ℚ) (f : Fields) (m : MotionMode ℚ)
    {inp : CycleInput} (out : Outputs) (fb : MotionFeedback) (hstop : inp.stopping = true) :
    (m.stepShutdown sqrt f inp out fb).next.announced = m.announced := by
  cases m with
  | cyclic m => rfl
  | profile m =>
      simp only [MotionMode.stepShutdown, ProfilePositionMode.stepShutdown]
      split_ifs
      · show (m.sequencer.step f inp out _).next.announcedOp = m.sequencer.announcedOp
        rw [Sequencer.step_eq, if_pos hstop]
        rfl
      · rfl

/-- Tracking leaves the announcement. -/
theorem settledMotion_announced (r : Controller) (actual : Int32) :
    (settledMotion r actual).announced = r.motion.announced := by
  unfold settledMotion
  split_ifs
  · cases r.motion <;> rfl
  · rfl

theorem reset_announced (m : MotionMode ℚ) : m.reset.announced = false := by
  cases m <;> rfl

/-- Routing leaves the announcement and the verdict of the mode check. -/
theorem routedMotion_announced (inp : CycleInput) (b : CommandBatch) :
    (s.routedMotion inp b).announced = s.motion.announced ∧
      (s.routedMotion inp b).refused = s.motion.refused := by
  cases hm : s.motion with
  | profile m =>
      rw [routedMotion_profile inp b hm]
      have hseq := routedProfile_sequencer inp b s.activeGeneration m
      simp only [MotionMode.announced, MotionMode.refused, hseq, and_self]
  | cyclic m =>
      rw [routedMotion_cyclic inp b hm]
      exact ⟨rfl, rfl⟩

/-- One steady cycle of a profile mode: it announces, keeps the announcement, or drops it. -/
theorem announced_lifecycle {m : ProfilePositionMode} (hm : s.motion = .profile m)
    (hsteady : t.inp.stopping = false) :
    (s.stepLifecycle p t.inp (drain t.drained)).1.motion.announced = true ↔
      Drives s t ∨ (s.motion.announced = true ∧ ¬ DropsMode p s t) := by
  obtain ⟨hkeep, hrefuse⟩ := routedMotion_announced (s := s) t.inp (drain t.drained)
  unfold Drives DropsMode
  simp only [hsteady, true_and]
  cases stepLifecycle_outcome p s t.inp (drain t.drained) with
  | kept hmotion _ hwhere =>
      -- Neither driven nor reset: outside Operational, at the top of the ladder, or quick-stopped.
      rw [hmotion, hkeep]
      rcases hwhere with ⟨hfrom, -, -, hnot⟩ | ⟨hfrom, -, ⟨hdec, -⟩, -⟩ |
        ⟨hfrom, -, hquick, -, hfault, hdis, hhom⟩
      · simp [hfrom, hnot]
      · simp [hfrom, ResetsMode, hdec]
      · simp [hfrom, ResetsMode, hquick, hfault, hdis, hhom]
  | reset hmotion _ _ hwhere =>
      rw [hmotion, reset_announced]
      refine iff_of_false Bool.false_ne_true ?_
      rintro (⟨hop, hfault, hdis, hhom, -⟩ | ⟨-, hnot⟩)
      · rcases hwhere with ⟨hl | hl, -⟩ | ⟨-, -, hd | hh⟩ | ⟨hl, -⟩
        · exact absurd (hop.symm.trans hl) (by decide)
        · exact absurd (hop.symm.trans hl) (by decide)
        · exact absurd (hd.symm.trans hdis) (by decide)
        · simp [hhom] at hh
        · exact absurd (hop.symm.trans hl) (by decide)
      · exact hnot (.inl hwhere)
  | faulted hmotion _ hfrom _ hfault =>
      rw [hmotion, reset_announced]
      refine iff_of_false Bool.false_ne_true ?_
      rintro (⟨-, hno, -⟩ | ⟨-, hnot⟩)
      · exact hno hfault
      · exact hnot (.inr ⟨hfrom, hfault⟩)
  | stepped q hq hmotion _ _ hfrom _ hfault hdis hhom hquick =>
      have hrouted := routedMotion_profile t.inp (drain t.drained) hm
      rw [hrouted] at hkeep hrefuse
      rw [hmotion, motionStep, hq, hrouted,
        MotionMode.step_announced _ _ _ _ _ hsteady fun h => hfault (.inl h)]
      rw [show (routedProfile t.inp (drain t.drained) s.activeGeneration m).sequencer.announcedOp
          = s.motion.announced from hkeep,
        show (routedProfile t.inp (drain t.drained)
          s.activeGeneration m).sequencer.state.modeMismatch = s.motion.refused from hrefuse]
      simp only [ResetsMode, hfrom, hfault, hdis, hhom, hquick]
      simp [or_comm, and_comm]

/-- One cycle of a profile mode. -/
theorem announced_cycle {m : ProfilePositionMode} (hm : s.motion = .profile m) :
    (cycle p s t).motion.announced = true ↔
      Drives s t ∨ (s.motion.announced = true ∧ ¬ DropsMode p s t) := by
  cases hstop : t.inp.stopping with
  | true =>
      rw [cycle_motion_stopping hstop, shutdownStep,
        MotionMode.stepShutdown_announced _ _ _ _ _ hstop]
      simp [Drives, DropsMode, hstop]
  | false =>
      rw [cycle_motion_steady hstop, settledMotion_announced]
      exact announced_lifecycle (s := s.sample t.inp) hm hstop

/-! ### The word of the stopping window -/

theorem profile_of_constants {m : MotionMode ℚ} {d : UInt32} (h : m.constants = .profile d) :
    ∃ q, m = .profile q ∧ q.quickStopDecel = d := by
  cases m with
  | profile q => exact ⟨q, rfl, by simpa [MotionMode.constants] using h⟩
  | cyclic q => cases h

/-- A profile mode with a deceleration quick-stops what it has announced, unless the drive is
in fault or at rest already. -/
theorem shutdown_word {m : ProfilePositionMode} (hm : s.motion = .profile m)
    (hdec : 0 < m.quickStopDecel) (hstop : t.inp.stopping = true) :
    (cycle p s t).outputs.controlword =
      if s.motion.announced = true ∧ t.inp.status.fault = false ∧
        t.inp.status.switchOnDisabled = false then quickStopCw
      else ControlWord.disableVoltage := by
  have hword : (cycle p s t).outputs.controlword = (shutdownStep p s t.inp).controlword := by
    simp only [cycle, hstop, if_true, stepStopping]
    rfl
  rw [hword, shutdownStep, hm]
  show (m.stepShutdown p.fields t.inp s.outputs).controlword = _
  rw [ProfilePositionMode.stepShutdown, if_pos hdec]
  show (m.sequencer.step p.fields t.inp s.outputs _).controlword = _
  rw [Sequencer.step_eq, if_pos hstop]
  show (if (!m.sequencer.announcedOp || t.inp.status.fault || t.inp.status.switchOnDisabled) = true
    then ControlWord.disableVoltage else quickStopCw) = _
  by_cases hramp : (MotionMode.profile m).announced = true ∧ t.inp.status.fault = false ∧
      t.inp.status.switchOnDisabled = false
  · have hon : m.sequencer.announcedOp = true := hramp.1
    rw [if_pos hramp, if_neg (by simp [hon, hramp.2.1, hramp.2.2])]
  · rw [if_neg hramp, if_pos]
    by_contra hoff
    exact hramp (by simpa [and_assoc, MotionMode.announced] using hoff)

/-- In the stopping window the word is right if the statusword calls for disable-voltage, or if
the drive was announced. -/
theorem quickStops_iff {m : ProfilePositionMode} (hm : s.motion = .profile m)
    (hdec : 0 < m.quickStopDecel) (hstop : t.inp.stopping = true) :
    QuickStops p s t ↔ s.motion.announced = true ∨ NotToRamp t.inp := by
  unfold QuickStops NotToRamp
  rw [shutdown_word hm hdec hstop]
  cases s.motion.announced <;> cases t.inp.status.fault <;>
    cases t.inp.status.switchOnDisabled <;> cases t.inp.status.operationEnabled <;> decide

/-- A run starts without an announcement. -/
theorem spawned_announced (bringup : List CycleInput) :
    (spawned p s bringup).motion.announced = false := by
  refine spawned_induction (P := fun q => q.motion.announced = false) (reset_announced _) ?_
  intro q inp hlow
  rw [stageBringupOutputs_motion]
  cases hm : q.motion with
  | profile m => rw [hm] at hlow; exact hlow
  | cyclic m => rfl

/-- In every run of a profile mode with a quick-stop deceleration, and for every statusword in
the stopping window, the word is right for the drive if and only if the statusword calls for
disable-voltage, or the run has driven the mode with the drive energized and has not reset the
mode since. -/
theorem quick_stop_iff (p : RtParams) (s₀ : Controller) (m : ProfilePositionMode)
    (hm : s₀.motion = .profile m) (hdec : 0 < m.quickStopDecel) (bringup : List CycleInput)
    (history : List Tick) (t : Tick) (hstop : t.inp.stopping = true) :
    QuickStops p (runFrom (cycle p) (spawned p s₀ bringup) history) t ↔
      NotToRamp t.inp ∨
        Since (cycle p) Drives (DropsMode p) (spawned p s₀ bringup) history := by
  have hlow := spawned_announced (p := p) (s := s₀) bringup
  have hconst := constants_spawned (p := p) (s := s₀) bringup
  rw [hm] at hconst
  have hkeep (s : Controller) (t : Tick) (h : s.motion.constants = .profile m.quickStopDecel) :
      (cycle p s t).motion.constants = .profile m.quickStopDecel := constants_cycle.trans h
  have hsince : (runFrom (cycle p) (spawned p s₀ bringup) history).motion.announced = true ↔
      Since (cycle p) Drives (DropsMode p) (spawned p s₀ bringup) history := by
    refine runFrom_iff_since
      (I := fun s : Controller => s.motion.constants = .profile m.quickStopDecel)
      (P := fun s : Controller => s.motion.announced = true) hconst hkeep (by simp [hlow])
      fun s t h => ?_
    obtain ⟨q, hq, -⟩ := profile_of_constants h
    exact announced_cycle hq
  have hend : (runFrom (cycle p) (spawned p s₀ bringup) history).motion.constants
      = .profile m.quickStopDecel :=
    runFrom_induction
      (I := fun s : Controller => s.motion.constants = .profile m.quickStopDecel) hconst hkeep
  obtain ⟨q, hq, hqd⟩ := profile_of_constants hend
  rw [quickStops_iff hq (hqd ▸ hdec) hstop, hsince, or_comm]

/-- The profile drive with a quick-stop deceleration. -/
def quickStopController : Controller :=
  { profileController with motion := .profile { quickStopDecel := 100000 } }

/-- A cycle of the stopping window. -/
def stopTick (status : BitVec 16) : Tick :=
  { tick status 1 0 [] with inp := { (tick status 1 0 []).inp with stopping := true } }

/-- A stop in Operational, one cycle after the drive was energized, ramps. -/
theorem quick_stop_operational :
    QuickStops profileBench (runFrom (cycle profileBench)
      (spawned profileBench quickStopController []) (climb 1 0 ++ [tick 0x0027#16 1 0 []]))
      (stopTick 0x0027#16) :=
  (quick_stop_iff profileBench quickStopController { quickStopDecel := 100000 } rfl (by decide) []
    (climb 1 0 ++ [tick 0x0027#16 1 0 []]) (stopTick 0x0027#16) rfl).mpr
    (.inr ⟨climb 1 0, tick 0x0027#16 1 0 [], [], rfl, by decide +kernel, trivial⟩)

/-- A stop during a homing run finds the mode reset: the energized drive coasts. -/
theorem quick_stop_lost_in_homing : ¬ ∀ (p : RtParams) (s₀ : Controller)
    (m : ProfilePositionMode), s₀.motion = .profile m → 0 < m.quickStopDecel →
    ∀ (bringup : List CycleInput) (history : List Tick) (t : Tick), t.inp.stopping = true →
      QuickStops p (runFrom (cycle p) (spawned p s₀ bringup) history) t := by
  intro h
  have hrun := h profileBench quickStopController { quickStopDecel := 100000 } rfl (by decide) []
    (climb 1 0 ++ [tick 0x0027#16 1 0 [], tick 0x0027#16 1 0 [.startHoming ⟨1, 120000⟩],
      tick 0x0027#16 6 0 []]) (stopTick 0x0027#16) rfl
  revert hrun
  decide +kernel

end Servo

end ViamEthercat
