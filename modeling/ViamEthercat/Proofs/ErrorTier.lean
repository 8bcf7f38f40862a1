import ViamEthercat.Proofs.Step
import ViamEthercat.Lib.Run

/-!
# `ViamEthercat.Proofs.ErrorTier`: the controller error that `last_error` reports

The loop latches a controller error when it aborts a move, and publishes the latch every cycle.
But `abort_active_move` latches its reason also when no move is live, and no branch of the loop
clears the latch on a fault reset: a new target does, and the mode echo in the enable ladder.

`error_truthful_iff`: along every run the error tier is truthful (`Truthful`) if and only if

* each Halt and each disable finds a live move, or its own reason latched (`StopFindsMove`),
* each fault reset finds no error latched, or comes in a cycle that clears the latch anyway
  (`FindsClear`),
* from a fault reset on, up to the next abort or mode mismatch, nothing fails while no move is
  live (`FailsIdle`).
-/

set_option autoImplicit false

namespace ViamEthercat.Servo

open Lib Controller

namespace Controller

variable (p : RtParams) (s : Controller) (inp : CycleInput) (b : CommandBatch)

/-! ### The latch in one step of the state machine -/

/-- The batch carries a target of another move than the active one. -/
def AdoptsTarget : Prop := ∃ u ∈ b.setTarget, u.generation ≠ s.activeGeneration

instance : Decidable (AdoptsTarget s b) :=
  inferInstanceAs (Decidable (∃ u ∈ b.setTarget, u.generation ≠ s.activeGeneration))

/-- The latch after the stops of the batch, whether a move is live or not. -/
def stoppedError : RtError :=
  if b.disable then .motorDisabled
  else if b.halt then .motorStopped
  else s.latchedCtrlError

/-- The latch after the batch was routed. -/
def routedError : RtError := if AdoptsTarget s b then .none else s.stoppedError b

/-- The enable ladder sees the commanded mode echoed. -/
def LadderEchoes : Prop :=
  s.lifecycle = .enabling ∧ inp.status.decode ≠ .fault ∧
    modeEchoed p inp (s.routedMotion inp b).commandedMode = true

/-- The enable ladder reports a mode mismatch: the echo has lagged for the last cycle allowed. -/
def LadderGivesUp : Prop :=
  s.lifecycle = .enabling ∧ inp.status.decode ≠ .fault ∧
    (modeEchoed p inp (s.routedMotion inp b).commandedMode = false ∧
      (inp.status.decode = .switchedOn ∨ inp.status.decode = .operationEnabled)) ∧
    s.modeEchoWait + 1 = modeEchoCycles

/-- Operational steps the mode. -/
def StepsMode : Prop :=
  s.lifecycle = .operational ∧ ¬ Faulted inp ∧ b.disable = false ∧ b.startHoming = none ∧
    b.quickStop = false

/-- What the mode reports when it is stepped. -/
def modeFault : MotionFault := (motionStep p (s.routeCommands inp b) inp).next.fault

/-- A mode mismatch is latched, in the ladder or by the mode. -/
def LatchesMismatch : Prop :=
  LadderGivesUp p s inp b ∨ (StepsMode s inp b ∧ modeFault p s inp b = .modeNotAdopted)

/-- A fault in Operational, or an expired handshake, fails the active move. -/
def FailsActive : Prop :=
  (s.lifecycle = .operational ∧ Faulted inp) ∨
    (StepsMode s inp b ∧ modeFault p s inp b = .setpointNotAcknowledged)

instance : Decidable (LadderEchoes p s inp b) := inferInstanceAs (Decidable (_ ∧ _))

instance : Decidable (LadderGivesUp p s inp b) := inferInstanceAs (Decidable (_ ∧ _))

instance : Decidable (StepsMode s inp b) := inferInstanceAs (Decidable (_ ∧ _))

instance : Decidable (LatchesMismatch p s inp b) := inferInstanceAs (Decidable (_ ∨ _))

instance : Decidable (FailsActive p s inp b) := inferInstanceAs (Decidable (_ ∨ _))

section
variable {p s inp b}

theorem routeStops_latched : (s.routeStops b).latchedCtrlError = s.stoppedError b := by
  unfold routeStops stoppedError abortActiveMove
  cases b.disable <;> cases b.halt <;> rfl

/-- A stop publishes its reason at once. -/
theorem routeStops_rtError (hstop : b.halt = true ∨ b.disable = true) :
    (s.routeStops b).telemetry.rtError = s.stoppedError b := by
  unfold routeStops stoppedError abortActiveMove
  cases hdis : b.disable with
  | true => rfl
  | false =>
      have hhalt : b.halt = true := hstop.resolve_right (by simp [hdis])
      simp [hhalt]

/-- A new target starts with no error. -/
theorem routeMotion_latched : (s.routeMotion inp b).latchedCtrlError =
    if AdoptsTarget s b then .none else s.latchedCtrlError := by
  unfold routeMotion AdoptsTarget
  obtain ht | ⟨u, ht⟩ := Option.eq_none_or_eq_some b.setTarget
  · cases b.setVelocity <;> simp [ht]
  · have hadopt : (s.adoptTarget inp u).latchedCtrlError =
        if u.generation ≠ s.activeGeneration then .none else s.latchedCtrlError := by
      unfold adoptTarget
      split_ifs <;> rfl
    cases b.setVelocity <;> simp [ht, hadopt]

theorem routeCommands_latched : (s.routeCommands inp b).latchedCtrlError = s.routedError b := by
  have hhoming (q : Controller) : (q.routeHoming b).latchedCtrlError = q.latchedCtrlError := by
    unfold routeHoming
    split_ifs <;> rfl
  have hadopts : AdoptsTarget (s.routeStops b) b ↔ AdoptsTarget s b := by
    obtain ⟨le, te, w, -, h⟩ := s.routeStops_eq b
    rw [h]
    exact Iff.rfl
  rw [routeCommands, hhoming, routeMotion_latched, routeStops_latched, routedError]
  exact if_congr hadopts rfl rfl

/-- The routing of the commands leaves the echo wait of the ladder. -/
theorem routeCommands_modeEchoWait : (s.routeCommands inp b).modeEchoWait = s.modeEchoWait := by
  obtain ⟨le, te, w, hf, -, -, h⟩ := s.routeCommands_eq inp b
  rw [h]

/-- The ladder without a mode mismatch: an echo takes a mismatch back. -/
theorem stepEnabling_error (hl : s.lifecycle = .enabling) (hgives : ¬ LadderGivesUp p s inp b) :
    (s.stepLifecycle p inp b).1.latchedCtrlError =
      if LadderEchoes p s inp b ∧ s.routedError b = .modeMismatch then .none
      else s.routedError b := by
  unfold LadderGivesUp at hgives
  unfold LadderEchoes
  rw [stepLifecycle_enabling hl, stepEnabling]
  simp only [routeCommands_motion, routeCommands_modeEchoWait, routeCommands_latched, hl,
    true_and] at hgives ⊢
  by_cases hfault : inp.status.decode = .fault
  · simp [hfault, enterResetting, routeCommands_latched]
  simp only [hfault, if_false, not_false_eq_true, ne_eq, true_and] at hgives ⊢
  cases hecho : modeEchoed p inp (s.routedMotion inp b).commandedMode with
  | true => simp
  | false =>
      by_cases hlag : inp.status.decode = .switchedOn ∨ inp.status.decode = .operationEnabled
      · have hwait : s.modeEchoWait + 1 ≠ modeEchoCycles :=
          fun h => hgives ⟨⟨hecho, hlag⟩, h⟩
        simp [hlag, hwait]
      · simp [hlag]

/-- Operational without a mode mismatch: every failure is latched, of a live move or not. -/
theorem stepOperational_error (hl : s.lifecycle = .operational)
    (hmismatch : ¬ (StepsMode s inp b ∧ modeFault p s inp b = .modeNotAdopted)) :
    (s.stepLifecycle p inp b).1.latchedCtrlError =
      if Faulted inp then .notOperational
      else if FailsActive p s inp b then .handshakeTimeout
      else s.routedError b := by
  rw [stepLifecycle_operational hl, stepOperational]
  by_cases hfault : Faulted inp
  · rw [if_pos hfault, if_pos hfault]
    rfl
  rw [if_neg hfault, if_neg hfault]
  -- The mode is stepped only without a disable, a homing request and a quick-stop.
  have hfails : FailsActive p s inp b ↔
      StepsMode s inp b ∧ modeFault p s inp b = .setpointNotAcknowledged := by
    unfold FailsActive
    simp [hfault]
  simp only [if_congr hfails rfl rfl]
  unfold StepsMode at hmismatch ⊢
  simp only [hl, hfault, not_false_eq_true, true_and] at hmismatch ⊢
  cases hdis : b.disable with
  | true => simp [routeCommands_latched]
  | false =>
      cases hhom : b.startHoming with
      | some h => simp [routeCommands_latched]
      | none =>
          cases hquick : b.quickStop with
          | true => simp [routeCommands_latched]
          | false =>
              simp only [hdis, hhom, hquick, Bool.false_eq_true, if_false, true_and,
                and_self] at hmismatch ⊢
              unfold stepMotion
              unfold modeFault at hmismatch ⊢
              dsimp only
              cases hf : (motionStep p (s.routeCommands inp b) inp).next.fault with
              | none => simp [routeCommands_latched]
              | setpointNotAcknowledged => simp [abortActiveMove]
              | modeNotAdopted => exact absurd hf hmismatch

/-- Every other state keeps the latch as it was routed. -/
theorem stepElsewhere_error (hl : s.lifecycle ≠ .enabling ∧ s.lifecycle ≠ .operational) :
    (s.stepLifecycle p inp b).1.latchedCtrlError = s.routedError b := by
  have hrouted : (s.routeCommands inp b).latchedCtrlError = s.routedError b :=
    routeCommands_latched
  rw [← hrouted]
  cases hlc : s.lifecycle with
  | enabling => exact absurd hlc hl.1
  | operational => exact absurd hlc hl.2
  | init =>
      rw [stepLifecycle_init hlc, stepInit]
      split_ifs <;> rfl
  | homing =>
      rw [stepLifecycle_homing hlc, stepHoming]
      dsimp only
      split_ifs <;> rfl
  | resetting =>
      rw [stepLifecycle_resetting hlc, stepResetting]
      dsimp only
      split_ifs <;> rfl
  | disabled =>
      rw [stepLifecycle_disabled hlc, stepDisabled]
      split_ifs <;> rfl

/-- Without a mode mismatch the state machine leaves no error if and only if it fails no move,
and the batch leaves none or the ladder takes a mismatch back. -/
theorem stepLifecycle_clear_iff (hmismatch : ¬ LatchesMismatch p s inp b) :
    (s.stepLifecycle p inp b).1.latchedCtrlError = .none ↔
      ¬ FailsActive p s inp b ∧ (s.routedError b = .none ∨
        (LadderEchoes p s inp b ∧ s.routedError b = .modeMismatch)) := by
  obtain ⟨hgives, hmode⟩ := not_or.mp hmismatch
  by_cases hen : s.lifecycle = .enabling
  · have hfails : ¬ FailsActive p s inp b := by simp [FailsActive, StepsMode, hen]
    rw [stepEnabling_error hen hgives]
    by_cases hecho : LadderEchoes p s inp b ∧ s.routedError b = .modeMismatch
    · simp [hecho, hfails]
    · simp [hecho, hfails]
  have hladder : ¬ LadderEchoes p s inp b := fun h => hen h.1
  by_cases hop : s.lifecycle = .operational
  · rw [stepOperational_error hop hmode]
    by_cases hfault : Faulted inp
    · simp [hfault, FailsActive, hop]
    · by_cases hfails : FailsActive p s inp b
      · simp [hfault, hfails]
      · simp [hfault, hfails, hladder]
  · have hfails : ¬ FailsActive p s inp b := by simp [FailsActive, StepsMode, hop]
    rw [stepElsewhere_error ⟨hen, hop⟩]
    simp [hfails, hladder]

end

end Controller

/-! ### What the tier is to report -/

section
variable (p : RtParams) (s : Controller) (t : Tick)

/-- A steady cycle drains a Halt or a disable. -/
def StopDrained : Prop :=
  t.inp.stopping = false ∧ ((drain t.drained).halt = true ∨ (drain t.drained).disable = true)

/-- The reason that the stops of a batch give. The disable is routed last. -/
def stopReason (b : CommandBatch) : RtError :=
  if b.disable then .motorDisabled else .motorStopped

/-- Stops drained while no move is live leave the published error, when they are routed. -/
def StopKeepsError : Prop :=
  StopDrained t → s.moveActive = false →
    ((s.sample t.inp).routeStops (drain t.drained)).telemetry.rtError = s.telemetry.rtError

/-- The cycle aborts a live move: a stop does, or a failure behind the routing. -/
def AbortsMove : Prop :=
  (s.moveActive = true ∧ ((drain t.drained).halt = true ∨ (drain t.drained).disable = true)) ∨
    (FailsActive p (s.sample t.inp) t.inp (drain t.drained) ∧
      ((s.sample t.inp).routeCommands t.inp (drain t.drained)).moveActive = true)

/-- A steady cycle aborts a move, or latches a mode mismatch. -/
def Blames : Prop :=
  t.inp.stopping = false ∧
    (AbortsMove p s t ∨ LatchesMismatch p (s.sample t.inp) t.inp (drain t.drained))

/-- A steady cycle drains a fault reset, and nothing is aborted and no mismatch latched in it. -/
def ResetDrained : Prop :=
  t.inp.stopping = false ∧ (drain t.drained).faultReset = true ∧ ¬ Blames p s t

/-- The controller error is truthful along a run: no stop changes it without a live move, and
from a fault reset on it is none, up to the next abort or mode mismatch. -/
def Truthful (ticks : List Tick) : Prop :=
  AllSteps (cycle p) StopKeepsError s ticks ∧
    ∀ pre, pre <+: ticks → Since (cycle p) (ResetDrained p) (Blames p) s pre →
      (runFrom (cycle p) s pre).telemetry.rtError = .none

/-! ### When it does -/

/-- The stops of a cycle find a live move, or their reason latched already. -/
def StopFindsMove : Prop :=
  StopDrained t → s.moveActive = true ∨ s.latchedCtrlError = stopReason (drain t.drained)

/-- The cycle finds no error latched, or clears the latch: with a target, or with the mode echo
in the ladder. -/
def FindsClear : Prop :=
  s.latchedCtrlError = .none ∨ AdoptsTarget s (drain t.drained) ∨
    (LadderEchoes p (s.sample t.inp) t.inp (drain t.drained) ∧
      s.latchedCtrlError = .modeMismatch)

/-- A fault in Operational or an expired handshake, while no move is live. -/
def FailsIdle : Prop :=
  t.inp.stopping = false ∧ FailsActive p (s.sample t.inp) t.inp (drain t.drained) ∧
    ((s.sample t.inp).routeCommands t.inp (drain t.drained)).moveActive = false

instance : Decidable (StopDrained t) := inferInstanceAs (Decidable (_ ∧ _))

instance : Decidable (StopKeepsError s t) := inferInstanceAs (Decidable (_ → _ → _))

instance : Decidable (AbortsMove p s t) := inferInstanceAs (Decidable (_ ∨ _))

instance : Decidable (Blames p s t) := inferInstanceAs (Decidable (_ ∧ _))

instance : Decidable (ResetDrained p s t) := inferInstanceAs (Decidable (_ ∧ _))

instance : Decidable (StopFindsMove s t) := inferInstanceAs (Decidable (_ → _))

instance : Decidable (FindsClear p s t) := inferInstanceAs (Decidable (_ ∨ _))

instance : Decidable (FailsIdle p s t) := inferInstanceAs (Decidable (_ ∧ _))

end

section
variable {p : RtParams} {s : Controller} {t : Tick}

/-- Every cycle publishes the latch. -/
theorem cycle_rtError :
    (cycle p s t).telemetry.rtError = (cycle p s t).latchedCtrlError := by
  unfold cycle
  split_ifs <;> rfl

theorem cycle_latched_steady (h : t.inp.stopping = false) : (cycle p s t).latchedCtrlError =
    (lifecycleStep p s t.inp (drain t.drained)).1.latchedCtrlError := by
  obtain ⟨te, ph, ar, w, out, -, hc⟩ := cycle_steady (p := p) (s := s) h
  rw [hc]

/-- The stopping window leaves the latch. -/
theorem cycle_latched_stopping (h : t.inp.stopping = true) :
    (cycle p s t).latchedCtrlError = s.latchedCtrlError := by
  obtain ⟨te, ph, ar, w, out, sr, -, hc⟩ := cycle_stopping (p := p) (s := s) h
  rw [hc]

/-- A run starts with the latch published. -/
theorem spawned_rtError (bringup : List CycleInput) :
    (spawned p s bringup).telemetry.rtError = (spawned p s bringup).latchedCtrlError :=
  spawned_induction (P := fun s => s.telemetry.rtError = s.latchedCtrlError) rfl fun _ _ h => h

/-- A stop latches its reason, whatever was latched. -/
theorem stopKeepsError_iff (hpublished : s.telemetry.rtError = s.latchedCtrlError) :
    StopKeepsError s t ↔ StopFindsMove s t := by
  refine forall_congr' fun hdrained => ?_
  have hreason : (s.sample t.inp).stoppedError (drain t.drained)
      = stopReason (drain t.drained) := by
    unfold stoppedError stopReason
    obtain ⟨-, hhalt | hdis⟩ := hdrained
    · simp [hhalt]
    · simp [hdis]
  rw [routeStops_rtError hdrained.2, hreason, hpublished]
  cases s.moveActive with
  | true => simp
  | false => simp [eq_comm]

/-- In a cycle that aborts no move, such stops leave the latch. -/
theorem stoppedError_kept (hfinds : StopFindsMove s t) (hsteady : t.inp.stopping = false)
    (haborts : ¬ AbortsMove p s t) :
    (s.sample t.inp).stoppedError (drain t.drained) = s.latchedCtrlError := by
  by_cases hstop : (drain t.drained).halt = true ∨ (drain t.drained).disable = true
  · rcases hfinds ⟨hsteady, hstop⟩ with hlive | hlatched
    · exact absurd (.inl ⟨hlive, hstop⟩) haborts
    · rw [hlatched, stoppedError, stopReason]
      rcases hstop with h | h <;> simp [h]
  · obtain ⟨hhalt, hdis⟩ := not_or.mp hstop
    simp [stoppedError, hhalt, hdis, sample]

/-- A steady cycle that aborts no move and latches no mismatch publishes no error if and only if
it finds the latch clear, or clears it, and nothing fails while no move is live. -/
theorem cycle_clear_iff (hfinds : StopFindsMove s t) (hsteady : t.inp.stopping = false)
    (hblames : ¬ Blames p s t) :
    (cycle p s t).telemetry.rtError = .none ↔ FindsClear p s t ∧ ¬ FailsIdle p s t := by
  obtain ⟨haborts, hmismatch⟩ := not_or.mp fun h => hblames ⟨hsteady, h⟩
  have hidle : FailsIdle p s t ↔ FailsActive p (s.sample t.inp) t.inp (drain t.drained) := by
    refine ⟨fun h => h.2.1, fun h => ⟨hsteady, h, ?_⟩⟩
    exact Bool.eq_false_iff.mpr fun hlive => haborts (.inr ⟨h, hlive⟩)
  rw [cycle_rtError, cycle_latched_steady hsteady, lifecycleStep,
    stepLifecycle_clear_iff hmismatch, hidle, and_comm]
  refine and_congr_left fun _ => ?_
  rw [routedError, stoppedError_kept hfinds hsteady haborts]
  have hadopts : AdoptsTarget (s.sample t.inp) (drain t.drained) ↔
      AdoptsTarget s (drain t.drained) := Iff.rfl
  unfold FindsClear
  by_cases h : AdoptsTarget s (drain t.drained)
  · simp [hadopts, h]
  · simp [hadopts, h]

end

/-- Along every run the controller error is truthful if and only if each stop finds a live move
or its own reason latched, each fault reset finds the latch clear or clears it, and nothing fails
without a live move from a fault reset on, up to the next abort or mode mismatch. -/
theorem error_truthful_iff (p : RtParams) (s₀ : Controller) (bringup : List CycleInput)
    (ticks : List Tick) :
    Truthful p (spawned p s₀ bringup) ticks ↔
      AllSteps (cycle p) StopFindsMove (spawned p s₀ bringup) ticks ∧
      AllSteps (cycle p) (fun s t => ResetDrained p s t → FindsClear p s t)
        (spawned p s₀ bringup) ticks ∧
      ∀ pre t, pre ++ [t] <+: ticks →
        Since (cycle p) (ResetDrained p) (Blames p) (spawned p s₀ bringup) (pre ++ [t]) →
          ¬ FailsIdle p (runFrom (cycle p) (spawned p s₀ bringup) pre) t := by
  have hstops : AllSteps (cycle p) StopKeepsError (spawned p s₀ bringup) ticks ↔
      AllSteps (cycle p) StopFindsMove (spawned p s₀ bringup) ticks :=
    allSteps_congr (I := fun s => s.telemetry.rtError = s.latchedCtrlError)
      (spawned_rtError bringup) (fun _ _ _ _ => cycle_rtError) fun _ _ => stopKeepsError_iff
  unfold Truthful
  rw [hstops]
  refine and_congr_right fun hfinds => ?_
  have hknown : AllSteps (cycle p)
      (fun s t => s.telemetry.rtError = s.latchedCtrlError ∧ StopFindsMove s t)
      (spawned p s₀ bringup) ticks :=
    allSteps_of_invariant (I := fun s => s.telemetry.rtError = s.latchedCtrlError)
      (spawned_rtError bringup) (fun _ _ h hf => ⟨cycle_rtError, h, hf⟩) hfinds
  refine forall_since_iff (P := fun s => s.telemetry.rtError = .none) (C := FindsClear p)
    (D := fun s t => ¬ FailsIdle p s t) hknown ?_ ?_
  · rintro s t ⟨-, hf⟩ ⟨hsteady, -, hblames⟩
    exact cycle_clear_iff hf hsteady hblames
  · rintro s t ⟨hpublished, hf⟩ hnone hblames
    have hlatched : s.latchedCtrlError = .none := hpublished ▸ hnone
    cases hstop : t.inp.stopping with
    | true =>
        rw [cycle_rtError, cycle_latched_stopping hstop]
        refine iff_of_true hlatched fun h => ?_
        exact Bool.false_ne_true (h.1.symm.trans hstop)
    | false =>
        rw [cycle_clear_iff hf hstop hblames]
        exact and_iff_right (.inl hlatched)

/-- A move, a Halt that aborts it, and a fault reset drained with the next move. -/
def resetTicks : List Tick :=
  climb 1 0 ++ [tick 0x0027#16 1 0 [.setTarget ⟨1000, 500, false, 1⟩], tick 0x0027#16 1 0 [.halt],
    tick 0x0027#16 1 0 [.faultReset, .setTarget ⟨2000, 500, false, 2⟩], tick 0x0027#16 1 0 []]

/-- The error of the Halt is reported up to the reset. -/
theorem error_truthful_reset :
    Truthful profileBench (spawned profileBench profileController []) resetTicks := by
  have hquiet : AllSteps (cycle profileBench) (fun s t => ¬ FailsIdle profileBench s t)
      (spawned profileBench profileController []) resetTicks := by decide +kernel
  refine (error_truthful_iff profileBench profileController [] resetTicks).mpr
    ⟨by decide +kernel, by decide +kernel, fun pre t hpre _ => ?_⟩
  exact forall_prefix_concat_iff_allSteps.mpr hquiet pre t hpre

/-- A Halt without a move is reported as a cancelled move, and still after a fault reset. -/
theorem error_untruthful_halt : ¬ ∀ (p : RtParams) (s₀ : Controller)
    (bringup : List CycleInput) (ticks : List Tick),
    Truthful p (spawned p s₀ bringup) ticks := by
  intro h
  have hrun := (h profileBench profileController []
    (climb 1 0 ++ [tick 0x0027#16 1 0 [.halt], tick 0x0027#16 1 0 [.faultReset]])).1
  revert hrun
  decide +kernel

end ViamEthercat.Servo
