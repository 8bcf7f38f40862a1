import ViamEthercat.Proofs.ControlWords
import ViamEthercat.Proofs.HandshakeTiming

/-!
# `ViamEthercat.Proofs.HaltHolds`: a stop holds the axis energized

`stop()` queues a Halt, which is to bring the axis to rest and hold it with the drive enabled.
`halt_holds_iff`: along every run of either mode, each cycle that drains a Halt on an enabled
drive keeps the enable bits of the controlword, if and only if each such cycle starts in
Operational, with a mode that the sequencer has not refused or with a homing request behind the
Halt.

A Halt drained in Homing cancels the run with disable-voltage, so the axis coasts. This is the
only failure a run of the Runner can reach: a refused mode has asked for a stop
(`refusalStops_run`), after which every dispatch is one of the stopping window.
-/

set_option autoImplicit false

namespace ViamEthercat

/-- Bits 0 to 3 of the controlword: switch on, enable voltage, no quick-stop, enable operation. -/
def ControlWord.KeepsEnabled (cw : ControlWord) : Prop :=
  cw &&& ControlWord.enableOperation = ControlWord.enableOperation

instance (cw : ControlWord) : Decidable cw.KeepsEnabled := inferInstanceAs (Decidable (_ = _))

/-- Neither the set-point bit nor the Halt bit takes the drive out of OperationEnabled. -/
theorem ControlWord.keepsEnabled_operation (n h : Bool) :
    ((ControlWord.enableOperation.withNewSetpoint n).withHalt h).KeepsEnabled := by
  cases n <;> cases h <;> decide

/-- The enabled drive states carry bit 2 of the statusword. -/
theorem Status.operationEnabled_of_decode {st : Status} (h : st.decode = .operationEnabled) :
    st.operationEnabled = true := by
  unfold Status.decode at h
  split_ifs at h with _ _ _ _ hrow
  have hbit : (st.raw &&& Status.stateMaskFull).getLsbD 2 = true := by
    rw [hrow]
    decide
  have hmask : Status.stateMaskFull.getLsbD 2 = true := by decide
  rwa [BitVec.getLsbD_and, hmask, Bool.and_true] at hbit

namespace Sequencer

variable {f : Fields} {q : Sequencer} {inp : CycleInput} {out : Outputs} {cmd : SequencerCommand}

/-- On an enabled drive a steady cycle keeps the enable bits, unless the mode was refused. -/
theorem step_keepsEnabled_iff (hsteady : inp.stopping = false)
    (hdec : inp.status.decode = .operationEnabled) (hen : cmd.enable = true) :
    (q.step f inp out cmd).controlword.KeepsEnabled ↔ q.state.modeMismatch = false := by
  have hon := Status.operationEnabled_of_decode hdec
  rw [step_eq, if_neg (by simp [hsteady]), ← (taken_frame f q inp cmd).1]
  generalize q.taken f inp cmd = q
  unfold stepSteady
  simp only [checkMode_of_operationEnabled q cmd hon, hdec, hen, hon, reduceCtorEq, if_false,
    Bool.true_and, Bool.and_true, Bool.not_true, Bool.false_eq_true]
  cases q.state.modeMismatch with
  | true =>
      refine iff_of_false ?_ (by decide)
      show ¬ (fsmStep inp.status .readyToSwitchOn).KeepsEnabled
      simp only [fsmStep, hdec, reduceCtorEq, if_false]
      decide
  | false =>
      refine iff_of_true ?_ rfl
      obtain ⟨n, h, hword⟩ :=
        driveOperational_word f { q with announcedOp := true } (out.storeMode f cmd.mode) cmd
          inp.status
      show ((driveOperational _ _ _ _ _).2.2).KeepsEnabled
      rw [hword]
      exact ControlWord.keepsEnabled_operation n h

theorem driveOperational_modeMismatch (st : Status) :
    (q.driveOperational f out cmd st).1.state.modeMismatch = q.state.modeMismatch := by
  unfold driveOperational
  by_cases hmode : cmd.mode = .profileVelocity
  · rw [if_pos hmode]
  · rw [if_neg hmode]
    exact q.stepHandshake_modeMismatch st

/-- The mode check alone writes its verdict. -/
theorem stepSteady_modeMismatch :
    (q.stepSteady f inp out cmd).next.state.modeMismatch
      = (q.checkMode inp cmd).state.modeMismatch := by
  unfold stepSteady
  by_cases hfault : inp.status.decode = .fault
  · simp only [if_pos hfault]
  simp only [if_neg hfault]
  by_cases hdrive : (cmd.enable && !(q.checkMode inp cmd).state.modeMismatch &&
      inp.status.operationEnabled) = true
  · simp only [if_pos hdrive]
    exact driveOperational_modeMismatch ..
  · simp only [if_neg hdrive]
    split_ifs <;> rfl

/-- A refusal comes with a request to stop. -/
theorem step_modeMismatch_stops (h : (q.step f inp out cmd).next.state.modeMismatch = true) :
    q.state.modeMismatch = true ∨ (q.step f inp out cmd).requestStop = true := by
  rw [← (taken_frame f q inp cmd).1]
  rw [step_eq] at h ⊢
  generalize q.taken f inp cmd = q at h ⊢
  cases hstop : inp.stopping with
  | true =>
      rw [if_pos hstop] at h
      exact .inl h
  | false =>
      rw [if_neg (by simp [hstop])] at h ⊢
      rw [stepSteady_modeMismatch] at h
      show _ ∨ q.modeCheckFails inp cmd = true
      unfold checkMode at h
      split_ifs at h with hdue hmode
      · exact .inl h
      · exact .inr (by simp [modeCheckFails, hdue, hmode])
      · exact .inl h

end Sequencer

namespace Servo

open Lib Controller

namespace MotionMode

/-- The sequencer of a profile mode has found that the drive is in another mode. -/
def ModeRefused : MotionMode ℚ → Prop
  | .profile m => m.sequencer.state.modeMismatch = true
  | .cyclic _ => False

instance : (m : MotionMode ℚ) → Decidable m.ModeRefused
  | .profile _ => inferInstanceAs (Decidable (_ = _))
  | .cyclic _ => isFalse id

/-- On an enabled drive either mode keeps the enable bits, halted or not, unless it was
refused. -/
theorem step_keepsEnabled_iff (sqrt : ℚ → ℚ) (f : Fields) {m : MotionMode ℚ} {inp : CycleInput}
    (out : Outputs) (fb : MotionFeedback) (hsteady : inp.stopping = false)
    (hdec : inp.status.decode = .operationEnabled) :
    (m.step sqrt f inp out fb).controlword.KeepsEnabled ↔ ¬ m.ModeRefused := by
  cases m with
  | cyclic m =>
      refine iff_of_true ?_ id
      show ControlWord.enableOperation.KeepsEnabled
      decide
  | profile m =>
      show (m.step f inp out fb).controlword.KeepsEnabled ↔ _
      rw [(m.step_sequencer f inp out fb).2,
        Sequencer.step_keepsEnabled_iff hsteady hdec (m.issued_enable fb)]
      unfold ModeRefused
      exact (Bool.not_eq_true _).symm ▸ Iff.rfl

theorem not_modeRefused_reset (m : MotionMode ℚ) : ¬ m.reset.ModeRefused := by
  cases m with
  | profile m => exact Bool.false_ne_true
  | cyclic m => exact id

/-- A step that refuses the mode asks for a stop. -/
theorem modeRefused_step {sqrt : ℚ → ℚ} {f : Fields} {m : MotionMode ℚ} {inp : CycleInput}
    {out : Outputs} {fb : MotionFeedback} (h : (m.step sqrt f inp out fb).next.ModeRefused) :
    m.ModeRefused ∨ (m.step sqrt f inp out fb).requestStop = true := by
  cases m with
  | cyclic m => exact .inl h
  | profile m =>
      change (m.step f inp out fb).next.sequencer.state.modeMismatch = true at h
      show _ ∨ (m.step f inp out fb).requestStop = true
      have hstop : (m.step f inp out fb).requestStop
          = (m.sequencer.step f inp out (m.issued fb)).requestStop := by
        unfold ProfilePositionMode.issued
        cases hecho : m.echoed fb with
        | true =>
            rw [ProfilePositionMode.step_echoed f inp out hecho]
            rfl
        | false =>
            rw [ProfilePositionMode.step_lagging f inp out hecho]
            rfl
      rw [hstop]
      rw [(m.step_sequencer f inp out fb).1] at h
      exact Sequencer.step_modeMismatch_stops h

theorem modeRefused_stepShutdown {sqrt : ℚ → ℚ} {f : Fields} {m : MotionMode ℚ}
    {inp : CycleInput} {out : Outputs} {fb : MotionFeedback} (hstop : inp.stopping = true)
    (h : (m.stepShutdown sqrt f inp out fb).next.ModeRefused) : m.ModeRefused := by
  cases m with
  | cyclic m => exact h
  | profile m =>
      change (m.stepShutdown f inp out).next.sequencer.state.modeMismatch = true at h
      unfold ProfilePositionMode.stepShutdown at h
      split_ifs at h
      · rw [StepResult.map, Sequencer.step_eq, if_pos hstop] at h
        exact h
      · exact h

theorem modeRefused_settled {r : Controller} {actual : Int32}
    (h : (settledMotion r actual).ModeRefused) : r.motion.ModeRefused := by
  unfold settledMotion at h
  split_ifs at h
  · cases hm : r.motion with
    | profile m => rwa [hm] at h
    | cyclic m => rw [hm] at h; exact h
  · exact h

end MotionMode

section
variable (p : RtParams) (s : Controller) (t : Tick)

/-- A steady cycle drains a Halt, with neither a disable nor a quick-stop, in Operational or in
Homing, and the drive is enabled. -/
structure HaltDrained : Prop where
  steady : t.inp.stopping = false
  lifecycle : s.lifecycle = .operational ∨ s.lifecycle = .homing
  enabled : t.inp.status.decode = .operationEnabled
  bus : t.inp.fault = false
  halt : (drain t.drained).halt = true
  notDisable : (drain t.drained).disable = false
  notQuickStop : (drain t.drained).quickStop = false

theorem haltDrained_iff : HaltDrained s t ↔
    t.inp.stopping = false ∧ (s.lifecycle = .operational ∨ s.lifecycle = .homing) ∧
      t.inp.status.decode = .operationEnabled ∧ t.inp.fault = false ∧
      (drain t.drained).halt = true ∧ (drain t.drained).disable = false ∧
      (drain t.drained).quickStop = false :=
  ⟨fun h => ⟨h.steady, h.lifecycle, h.enabled, h.bus, h.halt, h.notDisable, h.notQuickStop⟩,
    fun ⟨h₁, h₂, h₃, h₄, h₅, h₆, h₇⟩ => ⟨h₁, h₂, h₃, h₄, h₅, h₆, h₇⟩⟩

/-- Such a cycle writes a controlword that keeps the drive enabled. -/
def HaltHolds : Prop := HaltDrained s t → (cycle p s t).outputs.controlword.KeepsEnabled

/-- The mode is stepped and not refused, or a homing run starts. -/
def HoldsOperational : Prop :=
  s.lifecycle = .operational ∧
    ((drain t.drained).startHoming.isSome = true ∨ ¬ s.motion.ModeRefused)

/-- Such a cycle starts in Operational, and its mode is not refused. -/
def HaltedOperational : Prop := HaltDrained s t → HoldsOperational s t

instance : Decidable (HaltDrained s t) := decidable_of_iff' _ (haltDrained_iff s t)

instance : Decidable (HaltHolds p s t) := inferInstanceAs (Decidable (_ → _))

instance : Decidable (HoldsOperational s t) := inferInstanceAs (Decidable (_ ∧ _))

instance : Decidable (HaltedOperational s t) := inferInstanceAs (Decidable (_ → _))

end

section
variable {p : RtParams} {s : Controller} {t : Tick} {inp : CycleInput} {b : CommandBatch}

/-- Routing leaves the verdict of the mode check. -/
theorem modeRefused_routed : (s.routedMotion inp b).ModeRefused ↔ s.motion.ModeRefused := by
  cases hm : s.motion with
  | cyclic m => rw [routedMotion_cyclic inp b hm]; exact Iff.rfl
  | profile m =>
      rw [routedMotion_profile inp b hm]
      unfold MotionMode.ModeRefused
      simp only [routedProfile_sequencer]

/-- A Halt in Homing cancels the run, and the word of the cycle disables the drive. -/
theorem stepLifecycle_homing_halted (hl : s.lifecycle = .homing) (hfault : ¬ Faulted inp)
    (hhalt : b.halt = true) :
    (s.stepLifecycle p inp b).2 = ControlWord.disableVoltage := by
  rw [stepLifecycle_homing hl, stepHoming, if_neg hfault, if_pos (.inr (.inl hhalt))]

/-- The start of a homing run keeps the drive enabled. -/
theorem stepLifecycle_operational_homing (hl : s.lifecycle = .operational)
    (hfault : ¬ Faulted inp) (hdis : b.disable = false) (hhom : b.startHoming.isSome = true) :
    (s.stepLifecycle p inp b).2 = ControlWord.enableOperation := by
  obtain ⟨h, hh⟩ := Option.isSome_iff_exists.mp hhom
  rw [stepLifecycle_operational hl, stepOperational, if_neg hfault]
  simp [hdis, hh]

/-- Any other cycle of Operational writes the word of the mode. -/
theorem stepLifecycle_operational_word (hl : s.lifecycle = .operational)
    (hfault : ¬ Faulted inp) (hdis : b.disable = false) (hhom : b.startHoming = none)
    (hquick : b.quickStop = false) :
    (s.stepLifecycle p inp b).2 = (motionStep p (s.routeCommands inp b) inp).controlword := by
  obtain ⟨le, te, w, sr, -, hm⟩ := (s.routeCommands inp b).stepMotion_eq p inp
  rw [stepLifecycle_operational hl, stepOperational, if_neg hfault]
  simp [hdis, hhom, hquick, hm]

/-- One cycle, on each path that a Halt can take. -/
theorem haltHolds_iff : HaltHolds p s t ↔ HaltedOperational s t := by
  refine forall_congr' fun h => ?_
  have hfault : ¬ Faulted t.inp := by
    simp [Faulted, h.enabled, h.bus]
  rw [written_eq_lastCw, (cycle_lifecycle_lastCw h.steady).2]
  unfold HoldsOperational
  rcases h.lifecycle with hl | hl
  · simp only [hl, true_and]
    cases hhom : (drain t.drained).startHoming.isSome with
    | true =>
        rw [stepLifecycle_operational_homing (s := s.sample t.inp) hl hfault h.notDisable hhom]
        exact iff_of_true (by decide) (.inl rfl)
    | false =>
        rw [stepLifecycle_operational_word (s := s.sample t.inp) hl hfault h.notDisable
          (Option.isSome_eq_false_iff.mp hhom |> Option.isNone_iff_eq_none.mp) h.notQuickStop,
          motionStep, MotionMode.step_keepsEnabled_iff _ _ _ _ h.steady h.enabled,
          routeCommands_motion, modeRefused_routed]
        exact ⟨.inr, fun h => h.resolve_left Bool.false_ne_true⟩
  · rw [stepLifecycle_homing_halted (s := s.sample t.inp) hl hfault h.halt]
    refine iff_of_false (by decide) fun hop => ?_
    exact absurd (hop.1.symm.trans hl) (by decide)

/-! ### A refused mode has asked for a stop -/

/-- From one state to the next the request to stop stays, and a mode is refused only along with
it. -/
def RefusesWithStop (s s' : Controller) : Prop :=
  (s.stopRequested = true → s'.stopRequested = true) ∧
    (s'.motion.ModeRefused → s.motion.ModeRefused ∨ s'.stopRequested = true)

theorem RefusesWithStop.kept {s' : Controller} (hsame : s'.stopRequested = s.stopRequested)
    (hmotion : s'.motion = s.motion ∨ s'.motion = s.motion.reset) : RefusesWithStop s s' := by
  refine ⟨fun h => hsame.trans h, fun h => ?_⟩
  rcases hmotion with hm | hm <;> rw [hm] at h
  · exact .inl h
  · exact absurd h (MotionMode.not_modeRefused_reset _)

theorem refusesWithStop_stepMotion : RefusesWithStop s (s.stepMotion p inp).1 := by
  have hstep : (s.stepMotion p inp).1.motion = (motionStep p s inp).next ∧
      (s.stepMotion p inp).1.stopRequested
        = (s.stopRequested || (motionStep p s inp).requestStop) := by
    unfold stepMotion
    dsimp only
    cases (motionStep p s inp).next.fault <;> exact ⟨rfl, rfl⟩
  rw [RefusesWithStop, hstep.1, hstep.2]
  refine ⟨fun h => by rw [h, Bool.true_or], fun h => ?_⟩
  exact (MotionMode.modeRefused_step h).imp_right fun h => by rw [h, Bool.or_true]

theorem refusesWithStop_routed (inp : CycleInput) (b : CommandBatch) {s' : Controller}
    (h : RefusesWithStop (s.routeCommands inp b) s') : RefusesWithStop s s' := by
  obtain ⟨le, te, w, hf, -, -, hr⟩ := s.routeCommands_eq inp b
  have hsame : (s.routeCommands inp b).stopRequested = s.stopRequested := by rw [hr]
  refine ⟨fun hs => h.1 (hsame.trans hs), fun hm => (h.2 hm).imp_left fun hm => ?_⟩
  rwa [routeCommands_motion, modeRefused_routed] at hm

theorem refusesWithStop_stepLifecycle (inp : CycleInput) (b : CommandBatch) :
    RefusesWithStop s (s.stepLifecycle p inp b).1 := by
  refine refusesWithStop_routed inp b ?_
  cases hl : s.lifecycle with
  | init =>
      rw [stepLifecycle_init hl, stepInit]
      split_ifs
      · exact .kept rfl (.inr rfl)
      · exact .kept rfl (.inl rfl)
  | enabling =>
      rw [stepLifecycle_enabling hl, stepEnabling]
      dsimp only
      split_ifs
      · exact .kept rfl (.inr rfl)
      all_goals exact .kept rfl (.inl rfl)
  | operational =>
      rw [stepLifecycle_operational hl, stepOperational]
      cases b.startHoming with
      | some h =>
          dsimp only
          split_ifs <;> exact .kept rfl (.inr rfl)
      | none =>
          dsimp only
          split_ifs
          · exact .kept rfl (.inr rfl)
          · exact .kept rfl (.inr rfl)
          · exact .kept rfl (.inl rfl)
          · exact refusesWithStop_stepMotion
  | homing =>
      -- Every end of the run resets the mode.
      rw [stepLifecycle_homing hl, stepHoming]
      dsimp only
      split_ifs
      · exact .kept rfl (.inr (MotionMode.reset_reset _))
      · exact .kept rfl (.inr rfl)
      · exact .kept rfl (.inr rfl)
      · exact .kept rfl (.inr rfl)
      · exact .kept rfl (.inl rfl)
      · exact .kept rfl (.inr rfl)
      · exact .kept rfl (.inr rfl)
      · exact .kept rfl (.inr rfl)
      · exact .kept rfl (.inl rfl)
  | resetting =>
      rw [stepLifecycle_resetting hl, stepResetting]
      dsimp only
      split_ifs <;> exact .kept rfl (.inl rfl)
  | disabled =>
      rw [stepLifecycle_disabled hl, stepDisabled]
      split_ifs <;> exact .kept rfl (.inl rfl)

theorem refusesWithStop_cycle : RefusesWithStop s (cycle p s t) := by
  cases hstop : t.inp.stopping with
  | true =>
      obtain ⟨te, ph, ar, w, out, sr, -, hc⟩ := cycle_stopping (p := p) (s := s) hstop
      rw [hc]
      exact ⟨id, fun h => .inl (MotionMode.modeRefused_stepShutdown hstop h)⟩
  | false =>
      obtain ⟨hkeep, hrefuse⟩ := refusesWithStop_stepLifecycle (p := p) (s := s.sample t.inp)
        t.inp (drain t.drained)
      obtain ⟨te, ph, ar, w, out, -, hc⟩ := cycle_steady (p := p) (s := s) hstop
      rw [hc]
      exact ⟨hkeep, fun h => hrefuse (MotionMode.modeRefused_settled h)⟩

/-- In every run a refused mode has asked the Runner to stop. -/
theorem refusalStops_run (bringup : List CycleInput) (ticks : List Tick) :
    (runFrom (cycle p) (spawned p s bringup) ticks).motion.ModeRefused →
      (runFrom (cycle p) (spawned p s bringup) ticks).stopRequested = true := by
  refine runFrom_induction
    (I := fun s : Controller => s.motion.ModeRefused → s.stopRequested = true) ?_ ?_
  · refine spawned_induction (P := fun s => s.motion.ModeRefused → s.stopRequested = true)
      (fun h => absurd h (MotionMode.not_modeRefused_reset _)) fun s inp h htracked => ?_
    rw [stageBringupOutputs_motion] at htracked
    refine h ?_
    cases hm : s.motion with
    | profile m => rwa [hm] at htracked
    | cyclic m => rw [hm] at htracked; exact htracked
  · intro s t h hrefused
    obtain ⟨hkeep, hrefuse⟩ := refusesWithStop_cycle (p := p) (s := s) (t := t)
    exact (hrefuse hrefused).elim (fun h' => hkeep (h h')) id

end

/-- Along every run, of either mode: each cycle that drains a Halt on an enabled drive keeps it
enabled, if and only if each such cycle starts in Operational, and starts a homing run or steps a
mode that was not refused. -/
theorem halt_holds_iff (p : RtParams) (s₀ : Controller) (bringup : List CycleInput)
    (ticks : List Tick) :
    AllSteps (cycle p) (HaltHolds p) (spawned p s₀ bringup) ticks ↔
      AllSteps (cycle p) HaltedOperational (spawned p s₀ bringup) ticks :=
  allSteps_congr (I := fun _ => True) trivial (fun _ _ _ _ => trivial) fun _ _ _ => haltHolds_iff

/-- A Halt in Operational, drained in the middle of a handshake, keeps the drive enabled. -/
theorem halt_holds_operational :
    AllSteps (cycle profileBench) (HaltHolds profileBench)
      (spawned profileBench profileController [])
      (climb 1 0 ++ [tick 0x0027#16 1 0 [.setTarget ⟨1000, 500, false, 1⟩],
        tick 0x0027#16 1 0 [.halt]]) :=
  (halt_holds_iff profileBench profileController []
    (climb 1 0 ++ [tick 0x0027#16 1 0 [.setTarget ⟨1000, 500, false, 1⟩],
      tick 0x0027#16 1 0 [.halt]])).mpr (by decide +kernel)

/-- A Halt drained while the drive runs its homing procedure disables the drive. -/
theorem halt_coasts_homing : ¬ ∀ (p : RtParams) (s₀ : Controller) (bringup : List CycleInput)
    (ticks : List Tick), AllSteps (cycle p) (HaltHolds p) (spawned p s₀ bringup) ticks := by
  intro h
  have hrun := h profileBench profileController []
    (climb 1 0 ++ [tick 0x0027#16 1 0 [.startHoming ⟨1, 120000⟩], tick 0x0027#16 6 0 [],
      tick 0x0027#16 6 0 [.halt]])
  revert hrun
  decide +kernel

end Servo

end ViamEthercat
