import ViamEthercat.Proofs.Step
import ViamEthercat.Lib.Run

/-!
# `ViamEthercat.Proofs.Disable`: an operator's disable

`disable_kept_iff`: a drained Disable de-energizes the drive and keeps it so until an Enable
is drained, if and only if it is drained in Resetting or Disabled, or in Operational or Homing
in a cycle without a fault. Init and Enabling do not look at it, and the fault branches of
Operational and Homing return before it: the ladder, or the recovery through Resetting, then
energizes the drive again.

The invariant behind the positive direction is `Quiet`. Outside Operational the mode never
drives the shaft: the sequencer has not announced an energized drive, and the generator is
idle. So the stopping window, too, writes disable-voltage.
-/

set_option autoImplicit false

namespace ViamEthercat.Servo

open Lib Controller

variable {p : RtParams} {s : Controller} {inp : CycleInput} {b : CommandBatch} {t : Tick}

/-! ### The mode outside Operational -/

namespace MotionMode

/-- The mode cannot make the stopping window energize the drive. -/
def Quiet : MotionMode ℚ → Prop
  | .profile m => m.sequencer.announcedOp = false
  | .cyclic m => m.generator.phase = .idle

theorem quiet_reset (m : MotionMode ℚ) : m.reset.Quiet := by
  cases m <;> rfl

/-- In the stopping window a sequencer that has not announced an energized drive disables. -/
theorem step_stopping_disables (f : Fields) {q : Sequencer} {inp : CycleInput} (out : Outputs)
    {cmd : SequencerCommand} (hstop : inp.stopping = true) (hnew : cmd.newSetpoint = false)
    (h : q.announcedOp = false) :
    (q.step f inp out cmd).next.announcedOp = false ∧
      (q.step f inp out cmd).controlword = ControlWord.disableVoltage := by
  have hobserve : (q.observe f inp).announcedOp = false := h
  simp [Sequencer.step, Sequencer.stepStopping, hstop, hnew, hobserve]

/-- A quiet shutdown step writes disable-voltage and stays quiet. -/
theorem quiet_stepShutdown (sqrt : ℚ → ℚ) (f : Fields) {m : MotionMode ℚ} {inp : CycleInput}
    (out : Outputs) (fb : MotionFeedback) (hstop : inp.stopping = true) (h : m.Quiet) :
    (m.stepShutdown sqrt f inp out fb).next.Quiet ∧
      (m.stepShutdown sqrt f inp out fb).controlword = ControlWord.disableVoltage := by
  cases m with
  | profile m =>
      -- The sequencer quick-stops only a drive that it has announced as operational.
      dsimp only [stepShutdown, ProfilePositionMode.stepShutdown]
      by_cases hdecel : 0 < m.quickStopDecel
      · rw [if_pos hdecel]
        exact step_stopping_disables f out hstop rfl h
      · rw [if_neg hdecel]
        exact ⟨h, rfl⟩
  | cyclic m =>
      -- An idle generator has nothing to ramp, so the window disables at once.
      have hphase : m.generator.phase = .idle := h
      have hidle : ¬ (!m.generator.idle) = true := by simp [TrapezoidGenerator.idle, hphase]
      dsimp only [stepShutdown, CyclicPositionMode.stepShutdown]
      by_cases hoff : (!fb.status.operationEnabled || fb.status.fault) = true
      · rw [if_pos hoff]
        exact ⟨rfl, rfl⟩
      · rw [if_neg hoff, if_neg hidle]
        exact ⟨h, rfl⟩

/-- The mode of a drive that is not energized: quiet once it tracks the shaft. -/
theorem quiet_tracked_routed (actual : Int32) (hq : s.motion.Quiet) :
    ((s.routedMotion inp b).tracked actual).Quiet := by
  cases hm : s.motion with
  | cyclic m =>
      rw [routedMotion_cyclic inp b hm]
      rfl
  | profile m =>
      rw [hm] at hq
      rw [routedMotion_profile inp b hm]
      exact (congrArg Sequencer.announcedOp (routedProfile_sequencer inp b _ m)).trans hq

/-- A reset mode that tracks the shaft is quiet. -/
theorem quiet_tracked_reset (actual : Int32) (m : MotionMode ℚ) :
    (m.reset.tracked actual).Quiet := by
  cases m <;> rfl

end MotionMode

/-- Outside Operational the mode is quiet. -/
def QuietUnlessOperational (s : Controller) : Prop :=
  s.lifecycle ≠ .operational → s.motion.Quiet

theorem quiet_spawned (bringup : List CycleInput) :
    QuietUnlessOperational (spawned p s bringup) := by
  refine fun _ => spawned_induction (P := fun s => s.motion.Quiet) s.motion.quiet_reset ?_
  intro s inp hs
  -- The bring-up only tracks the shaft: a cyclic mode holds, a profile mode is as it was.
  rw [stageBringupOutputs_motion]
  cases hm : s.motion with
  | profile m => rw [hm] at hs; exact hs
  | cyclic m => rfl

/-- Every cycle keeps the mode quiet outside Operational. -/
theorem quiet_step (s : Controller) (t : Tick) (h : QuietUnlessOperational s) :
    QuietUnlessOperational (cycle p s t) := by
  cases hstop : t.inp.stopping with
  | true =>
      obtain ⟨te, ph, ar, w, out, sr, -, hc⟩ := cycle_stopping (p := p) (s := s) hstop
      rw [hc]
      exact fun hl => (MotionMode.quiet_stepShutdown p.sqrt p.fields s.outputs
        (s.feedback p t.inp) hstop (h hl)).1
  | false =>
      obtain ⟨te, ph, ar, w, out, -, hc⟩ := cycle_steady (p := p) (s := s) hstop
      rw [hc]
      intro hl
      -- The cycle ends outside Operational, so the mode that is left tracks the shaft.
      have hl' : (lifecycleStep p s t.inp (drain t.drained)).1.lifecycle ≠ .operational := hl
      show (settledMotion _ t.inp.actual).Quiet
      rw [settledMotion, if_pos hl']
      cases stepLifecycle_outcome p (s.sample t.inp) t.inp (drain t.drained) with
      | kept hmotion _ hwhere =>
          rw [hmotion]
          rcases hwhere with ⟨hfrom, -⟩ | ⟨-, hto, -⟩ | ⟨-, hto, -⟩
          · exact MotionMode.quiet_tracked_routed t.inp.actual (h hfrom)
          · exact absurd hto hl'
          · exact absurd hto hl'
      | reset hmotion => rw [hmotion]; exact MotionMode.quiet_tracked_reset ..
      | faulted hmotion => rw [hmotion]; exact MotionMode.quiet_tracked_reset ..
      | stepped q hq hmotion hcw hfailed hfrom hto => exact absurd hto hl'

/-! ### A disable that is kept -/

/-- No Enable is drained in this cycle. -/
def NoEnable (t : Tick) : Prop := t.inp.stopping = true ∨ Command.enable ∉ t.drained

/-- The cycle writes a controlword without the enable-operation bit. -/
def NotEnergized (p : RtParams) (s : Controller) (t : Tick) : Prop :=
  (cycle p s t).lastCw.enableBit = false

instance : Decidable (NotEnergized p s t) := inferInstanceAs (Decidable (_ = _))

/-- The disable of this cycle is kept: the cycle writes disable-voltage, or a reset level
while the drive is in Fault, and no later cycle writes the enable-operation bit before an
Enable is drained. -/
def DisableKept (p : RtParams) (s : Controller) (t : Tick) : Prop :=
  ((cycle p s t).lastCw = ControlWord.disableVoltage ∨
    (t.inp.status.decode = .fault ∧ (cycle p s t).lastCw = ControlWord.faultReset)) ∧
  ∀ ticks : List Tick, (∀ t' ∈ ticks, NoEnable t') →
    AllSteps (cycle p) (NotEnergized p) (cycle p s t) ticks

/-- A Disabled controller stays Disabled and writes disable-voltage until an Enable. -/
theorem disabled_step (hl : s.lifecycle = .disabled) (hq : QuietUnlessOperational s)
    (hn : NoEnable t) :
    (cycle p s t).lifecycle = .disabled ∧
      (cycle p s t).lastCw = ControlWord.disableVoltage := by
  cases hstop : t.inp.stopping with
  | true =>
      obtain ⟨te, ph, ar, w, out, sr, -, hc⟩ := cycle_stopping (p := p) (s := s) hstop
      rw [hc]
      exact ⟨hl, (MotionMode.quiet_stepShutdown p.sqrt p.fields s.outputs (s.feedback p t.inp)
        hstop (hq (by simp [hl]))).2⟩
  | false =>
      have hen : (drain t.drained).enable = false := by
        rw [drain_enable]
        simpa [NoEnable, hstop] using hn
      obtain ⟨hlife, hcw⟩ := cycle_lifecycle_lastCw (p := p) (s := s) hstop
      rw [hlife, hcw, lifecycleStep, stepLifecycle_disabled (s := s.sample t.inp) hl]
      simp [stepDisabled, hen, sample, hl]

/-- A Disabled controller is not energized until an Enable. -/
theorem disabled_run (hl : s.lifecycle = .disabled) (hq : QuietUnlessOperational s)
    {ticks : List Tick} (hn : ∀ t ∈ ticks, NoEnable t) :
    AllSteps (cycle p) (NotEnergized p) s ticks := by
  -- Quietness rides along: the stopping window could else energize the drive.
  refine allSteps_of_invariant
    (I := fun s => s.lifecycle = .disabled ∧ QuietUnlessOperational s) ⟨hl, hq⟩ ?_
    (allSteps_of_forall hn)
  rintro s t ⟨hl, hq⟩ hn
  obtain ⟨hl', hcw⟩ := disabled_step (p := p) hl hq hn
  refine ⟨⟨hl', quiet_step s t hq⟩, ?_⟩
  rw [NotEnergized, hcw]
  decide

/-- Where a Disable is looked at: in Resetting and Disabled, and in Operational and Homing
when no fault is seen in the same cycle. -/
def DisableHeard (s : Controller) (inp : CycleInput) : Prop :=
  s.lifecycle = .resetting ∨ s.lifecycle = .disabled ∨
    ((s.lifecycle = .operational ∨ s.lifecycle = .homing) ∧ ¬ Faulted inp)

instance : Decidable (DisableHeard s inp) := inferInstanceAs (Decidable (_ ∨ _))

/-- A Disable that is heard leads to Disabled with disable-voltage. -/
theorem stepLifecycle_disable_heard (h : DisableHeard s inp) (hd : b.disable = true)
    (he : b.enable = false) :
    (s.stepLifecycle p inp b).1.lifecycle = .disabled ∧
      (s.stepLifecycle p inp b).2 = ControlWord.disableVoltage := by
  rcases h with hl | hl | ⟨hl | hl, hf⟩
  · rw [stepLifecycle_resetting hl]
    simp [stepResetting, hd]
  · rw [stepLifecycle_disabled hl]
    simp [stepDisabled, he, hl]
  · rw [stepLifecycle_operational hl, stepOperational]
    simp [hf, hd]
  · rw [stepLifecycle_homing hl, stepHoming]
    simp [hf, hd]

/-! ### A disable that is lost -/

/-- The tick that energizes the mode `m`: the drive is in OperationEnabled and echoes it. -/
def energizing (m : Cia402Mode) : Tick := tick 0x0027#16 m.code 0 []

theorem noEnable_energizing (m : Cia402Mode) : NoEnable (energizing m) :=
  .inr (by simp [energizing, tick])

/-- At the top of the ladder Enabling writes enable-operation. -/
theorem stepLifecycle_enabling_top (hl : s.lifecycle = .enabling)
    (htop : LadderTop p inp (s.routedMotion inp b)) :
    (s.stepLifecycle p inp b).2 = ControlWord.enableOperation := by
  obtain ⟨hdec, hecho⟩ := htop
  rw [stepLifecycle_enabling hl, stepEnabling, if_neg (by simp [hdec])]
  simp [hecho, hdec, fsmStep]

/-- Enabling without a fault stays on the ladder or reaches its top. -/
theorem stepLifecycle_enabling_cases (hl : s.lifecycle = .enabling)
    (hf : inp.status.decode ≠ .fault) :
    (s.stepLifecycle p inp b).1.lifecycle = .enabling ∨
      LadderTop p inp (s.routedMotion inp b) := by
  rw [stepLifecycle_enabling hl, stepEnabling, if_neg hf]
  dsimp only
  split
  · exact .inl (by simp [hl])
  · rename_i hlag
    by_cases hop : inp.status.decode = .operationEnabled
    · exact .inr ⟨hop, by simpa [hop] using hlag⟩
    · exact .inl (by simp [hl, hop])

/-- Enabling writes the enable-operation bit once the drive echoes the mode. -/
theorem enabling_energizes (hl : s.lifecycle = .enabling) :
    ∃ ticks : List Tick, (∀ t ∈ ticks, NoEnable t) ∧
      ¬ AllSteps (cycle p) (NotEnergized p) s ticks := by
  -- One cycle is enough: a drive in OperationEnabled that echoes the mode.
  refine ⟨[energizing s.motion.commandedMode], by simp [noEnable_energizing], ?_⟩
  have htop : LadderTop p (energizing s.motion.commandedMode).inp s.motion :=
    ⟨show (⟨0x0027#16⟩ : Status).decode = _ by decide, by simp [modeEchoed, energizing, tick]⟩
  obtain ⟨-, hcw⟩ := cycle_lifecycle_lastCw (p := p) (s := s)
    (t := energizing s.motion.commandedMode) rfl
  rintro ⟨h, -⟩
  rw [NotEnergized, hcw, lifecycleStep, stepLifecycle_enabling_top (s := s.sample _) hl htop] at h
  exact absurd h (by decide)

/-- Resetting on a drive that left Fault re-enters the ladder once the streak is confirmed,
and else counts the cycle. -/
theorem stepLifecycle_resetting_clear (inp : CycleInput) (hl : s.lifecycle = .resetting)
    (hd : b.disable = false) (hdec : inp.status.decode ≠ .fault) :
    (p.faultResetClearConfirmCycles ≤ s.clearStreak + 1 →
      (s.stepLifecycle p inp b).2 = fsmStep inp.status .operationEnabled) ∧
    (¬ p.faultResetClearConfirmCycles ≤ s.clearStreak + 1 →
      (s.stepLifecycle p inp b).1.lifecycle = .resetting ∧
        (s.stepLifecycle p inp b).1.clearStreak = s.clearStreak + 1) := by
  rw [stepLifecycle_resetting hl]
  unfold stepResetting
  simp only [hd, hdec, Bool.false_eq_true, ne_eq, not_false_eq_true, if_true, if_false,
    routeCommands_clearStreak, ge_iff_le]
  refine ⟨fun hconf => by simp [hconf], fun hconf => ?_⟩
  simp only [hconf, if_false]
  split_ifs <;> simp [hl]

/-- The recovery energizes a drive that left Fault, by itself. -/
theorem resetting_energizes (n : Nat) (hl : s.lifecycle = .resetting)
    (hn : p.faultResetClearConfirmCycles ≤ s.clearStreak + n + 1) :
    ∃ ticks : List Tick, (∀ t ∈ ticks, NoEnable t) ∧
      ¬ AllSteps (cycle p) (NotEnergized p) s ticks := by
  -- By induction on the cycles that the streak still lacks.
  induction n generalizing s with
  | zero =>
      refine ⟨[energizing .none], by simp [noEnable_energizing], fun h => ?_⟩
      obtain ⟨-, hcw⟩ := cycle_lifecycle_lastCw (p := p) (s := s) (t := energizing .none) rfl
      have hon := (stepLifecycle_resetting_clear (energizing .none).inp (p := p)
        (s := s.sample (energizing .none).inp) (b := drain (energizing .none).drained) hl rfl
        (by decide)).1 hn
      have hbit : (cycle p s (energizing .none)).lastCw.enableBit = false := h.1
      rw [hcw, hon] at hbit
      exact absurd hbit (by decide)
  | succ n ih =>
      -- Either the streak is longer than the bound says, or the cycle adds one to it.
      by_cases hconf : p.faultResetClearConfirmCycles ≤ s.clearStreak + n + 1
      · exact ih hl hconf
      · obtain ⟨te, ph, ar, w, out, -, hc⟩ :=
          cycle_steady (p := p) (s := s) (t := energizing .none) rfl
        obtain ⟨hl', hstreak⟩ := (stepLifecycle_resetting_clear (energizing .none).inp (p := p)
          (s := s.sample (energizing .none).inp) (b := drain (energizing .none).drained) hl rfl
          (by decide)).2 (fun h => hconf (h.trans (by simp [sample])))
        have hstreak' : (cycle p s (energizing .none)).clearStreak = s.clearStreak + 1 := by
          rw [hc]
          exact hstreak
        obtain ⟨ticks, hno, hnot⟩ := ih (s := cycle p s (energizing .none))
          (by rw [hc]; exact hl') (by omega)
        refine ⟨energizing .none :: ticks, ?_, fun h => hnot h.2⟩
        simpa [noEnable_energizing] using hno

/-- A Disable that is not heard leaves the controller on a path back to an energized drive. -/
theorem not_disableKept (hsteady : t.inp.stopping = false) (h : ¬ DisableHeard s t.inp) :
    ¬ DisableKept p s t := by
  rintro ⟨hnow, hlater⟩
  obtain ⟨hlife, hcw⟩ := cycle_lifecycle_lastCw (p := p) (s := s) hsteady
  -- The ladder and the recovery both lead back to an energized drive.
  have henabling (hto : (cycle p s t).lifecycle = .enabling) : False := by
    obtain ⟨ticks, hno, hnot⟩ := enabling_energizes (p := p) hto
    exact hnot (hlater ticks hno)
  have hresetting (hto : (cycle p s t).lifecycle = .resetting) : False := by
    obtain ⟨ticks, hno, hnot⟩ := resetting_energizes (p := p)
      p.faultResetClearConfirmCycles hto (by omega)
    exact hnot (hlater ticks hno)
  unfold DisableHeard at h
  cases hl : s.lifecycle with
  | init =>
      rw [lifecycleStep, stepLifecycle_init (s := s.sample _) hl, stepInit] at hlife
      split_ifs at hlife
      · exact hresetting hlife
      · exact henabling hlife
  | enabling =>
      by_cases hf : t.inp.status.decode = .fault
      · rw [lifecycleStep, stepLifecycle_enabling (s := s.sample _) hl, stepEnabling,
          if_pos hf] at hlife
        exact hresetting hlife
      · rcases stepLifecycle_enabling_cases (p := p) (s := s.sample t.inp)
          (b := drain t.drained) hl hf with hto | htop
        · exact henabling (hlife.trans hto)
        · -- The cycle itself energizes the drive.
          rw [hcw, lifecycleStep, stepLifecycle_enabling_top (s := s.sample _) hl htop] at hnow
          rcases hnow with hnow | ⟨hnow, -⟩
          · exact absurd hnow (by decide)
          · exact hf hnow
  | operational =>
      have hf : Faulted t.inp := by simpa [hl] using h
      rw [lifecycleStep, stepLifecycle_operational (s := s.sample _) hl, stepOperational,
        if_pos hf] at hlife
      exact hresetting hlife
  | homing =>
      have hf : Faulted t.inp := by simpa [hl] using h
      rw [lifecycleStep, stepLifecycle_homing (s := s.sample _) hl, stepHoming,
        if_pos hf] at hlife
      exact hresetting hlife
  | resetting => simp [hl] at h
  | disabled => simp [hl] at h

/-- In every reachable state, a Disable drained without an Enable is kept if and only if it
is heard. -/
theorem disable_kept_iff (p : RtParams) (s₀ : Controller) (bringup : List CycleInput)
    (history : List Tick) (t : Tick) (hsteady : t.inp.stopping = false)
    (hdisable : Command.disable ∈ t.drained) (henable : Command.enable ∉ t.drained) :
    let s := runFrom (cycle p) (spawned p s₀ bringup) history
    DisableKept p s t ↔ DisableHeard s t.inp := by
  intro s
  refine ⟨fun h => by_contra fun hn => not_disableKept hsteady hn h, fun h => ?_⟩
  -- A heard Disable ends in Disabled, whose quiet mode is an invariant of the run.
  have hquiet : QuietUnlessOperational s :=
    runFrom_induction (quiet_spawned bringup) (fun s t => quiet_step s t)
  obtain ⟨hlife, hcw⟩ := cycle_lifecycle_lastCw (p := p) (s := s) hsteady
  obtain ⟨hl, hoff⟩ := stepLifecycle_disable_heard (p := p) (s := s.sample t.inp)
    (b := drain t.drained) h (by simpa [drain_disable] using hdisable)
    (by simpa [drain_enable] using henable)
  exact ⟨.inl (hcw.trans hoff),
    fun ticks hno => disabled_run (hlife.trans hl) (quiet_step s t hquiet) hno⟩

/-- A Disable in Operational is kept. -/
theorem disable_kept_operational :
    DisableKept profileBench
      (runFrom (cycle profileBench) (spawned profileBench profileController []) (climb 1 0))
      (tick 0x0027#16 1 0 [.disable]) :=
  (disable_kept_iff profileBench profileController [] (climb 1 0) (tick 0x0027#16 1 0 [.disable])
    rfl (by decide) (by decide)).mpr (by decide +kernel)

/-- A Disable drained on the enable ladder is lost: the drive is energized two cycles
later. -/
theorem disable_lost_on_ladder : ¬ ∀ (p : RtParams) (s₀ : Controller)
    (bringup : List CycleInput) (history : List Tick) (t : Tick), t.inp.stopping = false →
    Command.disable ∈ t.drained → Command.enable ∉ t.drained →
    DisableKept p (runFrom (cycle p) (spawned p s₀ bringup) history) t := by
  intro h
  obtain ⟨-, hlater⟩ := h profileBench profileController [] [tick 0x0040#16 1 0 []]
    (tick 0x0040#16 1 0 [.disable]) rfl (by decide) (by decide)
  have hrun := hlater [tick 0x0021#16 1 0 [], tick 0x0023#16 1 0 []]
    (by simp [NoEnable, tick])
  revert hrun
  decide +kernel

end ViamEthercat.Servo
