import ViamEthercat.Proofs.Step

/-!
# `ViamEthercat.Proofs.Recovery`: two runs after a fault or a disable

Every entry into Resetting, and every entry into Disabled from Operational or Homing, resets the
motion mode. So two runs that were told different things before, and that make the same
transition in one cycle, do the same from the next cycle on.

`Alike` is the relation between the two controllers. The modes are equal, but for the limits of
an idle generator: `reseed` keeps the limits of the last command, which the next command
replaces. The counters of Resetting and of Homing are compared only there, since every entry
sets them. The move ids differ, and only a target whose id is not one of them is routed to both.

`no_command_survives`: from the cycle after the transition on, both runs write the same
controlword and the same values to the same objects.
-/

set_option autoImplicit false

namespace ViamEthercat.Servo

open Lib Controller

/-! ### Two modes -/

namespace TrapezoidGenerator

/-- Two generators that stream the same points. The limits of a command that has ended are not
compared. -/
structure Alike (g g' : TrapezoidGenerator ℚ) : Prop where
  state : g.state = g'.state
  vTarget : g.vTarget = g'.vTarget
  goal : g.goal = g'.goal
  phase : g.phase = g'.phase
  accel : g.phase ≠ .idle → g.accel = g'.accel
  vMax : g.phase = .positioning → g.vMax = g'.vMax

variable {g g' : TrapezoidGenerator ℚ}

/-- Equal up to the limits. -/
theorem alike_reseed (g g' : TrapezoidGenerator ℚ) (x : Int32) :
    (g.reseed x).Alike (g'.reseed x) :=
  ⟨rfl, rfl, rfl, rfl, fun h => absurd rfl h, fun h => by cases h⟩

/-- Two alike generators that are not idle accelerate alike, and a goal fixes the rest. -/
theorem Alike.cases (h : g.Alike g') :
    g = g' ∨ (g.phase = .velocity ∧ g' = { g with vMax := g'.vMax }) ∨
      (g.phase = .idle ∧ g' = { g with vMax := g'.vMax, accel := g'.accel }) := by
  obtain ⟨hs, hv, hg, hp, ha, hm⟩ := h
  cases g with
  | mk state vMax accel vTarget goal phase =>
      cases g' with
      | mk state' vMax' accel' vTarget' goal' phase' =>
          simp only at hs hv hg hp ha hm
          subst hs hv hg hp
          cases phase with
          | idle => exact .inr (.inr ⟨rfl, rfl⟩)
          | positioning => exact .inl (by rw [ha (by simp), hm rfl])
          | velocity => exact .inr (.inl ⟨rfl, by rw [ha (by simp)]⟩)

/-- A step keeps two generators alike. -/
theorem alike_step (h : g.Alike g') (sqrt : ℚ → ℚ) (dt : ℚ) :
    (g.step sqrt dt).Alike (g'.step sqrt dt) := by
  rcases h.cases with rfl | ⟨hp, heq⟩ | ⟨hp, heq⟩
  · exact ⟨rfl, rfl, rfl, rfl, fun _ => rfl, fun _ => rfl⟩
  · -- A velocity run does not read the velocity limit.
    have hp' : g'.phase = .velocity := h.phase ▸ hp
    by_cases hdt : 0 < dt
    · have hstep : ∀ q : TrapezoidGenerator ℚ, q.phase = .velocity →
          q.step sqrt dt = q.stepVelocity dt := by
        intro q hq
        simp [step, hq, hdt]
      rw [hstep g hp, hstep g' hp', heq]
      unfold stepVelocity rampDv
      dsimp only
      split_ifs <;> exact ⟨rfl, rfl, rfl, rfl, fun _ => rfl, fun h => by simp [hp] at h⟩
    · have hstep : ∀ q : TrapezoidGenerator ℚ, q.step sqrt dt = q := by
        intro q
        simp [step, hdt]
      rw [hstep, hstep]
      exact h
  · have hidle : g.step sqrt dt = g := by
      unfold step
      rw [if_pos (.inl hp)]
    have hidle' : g'.step sqrt dt = g' := by
      unfold step
      rw [if_pos (.inl (h.phase ▸ hp))]
    rw [hidle, hidle']
    exact h

/-- A goal is refused or accepted by both. -/
theorem alike_setGoal (h : g.Alike g') (goal : Int32) (v a : ℚ) :
    (g.setGoal goal v a).1.Alike (g'.setGoal goal v a).1 ∧
      (g.setGoal goal v a).2 = (g'.setGoal goal v a).2 := by
  unfold setGoal
  split_ifs with hlimits
  · exact ⟨⟨h.state, h.vTarget, rfl, rfl, fun _ => rfl, fun _ => rfl⟩, rfl⟩
  · exact ⟨h, rfl⟩

/-- A velocity is refused or accepted by both. -/
theorem alike_setVelocity (h : g.Alike g') (v a : ℚ) :
    (g.setVelocity v a).1.Alike (g'.setVelocity v a).1 ∧
      (g.setVelocity v a).2 = (g'.setVelocity v a).2 := by
  unfold setVelocity
  split_ifs with ha
  · dsimp only
    rw [h.state]
    split_ifs
    · exact ⟨⟨rfl, rfl, rfl, rfl, fun h => absurd rfl h, fun h => by cases h⟩, rfl⟩
    · exact ⟨⟨rfl, rfl, h.goal, rfl, fun _ => rfl, fun h => by cases h⟩, rfl⟩
  · exact ⟨h, rfl⟩

end TrapezoidGenerator

/-- Two cyclic modes that stream the same points. One without a positive acceleration takes no
command, so its generator rests. -/
structure CyclicPositionMode.Alike (m m' : CyclicPositionMode ℚ) : Prop where
  dt : m.dt = m'.dt
  accel : m.accel = m'.accel
  positioning : m.positioning = m'.positioning
  generator : m.generator.Alike m'.generator
  atRest : ¬ 0 < m.accel → m.generator.phase = .idle ∧ m.generator.state.velocity = 0

namespace MotionMode

/-- Two modes that do the same from now on. -/
def Alike : MotionMode ℚ → MotionMode ℚ → Prop
  | .profile m, .profile m' => m = m'
  | .cyclic m, .cyclic m' => m.Alike m'
  | _, _ => False

variable {m m' : MotionMode ℚ}

/-- Two alike modes are equal profile modes, or alike cyclic ones. -/
theorem Alike.cases (h : m.Alike m') :
    (∃ q, m = .profile q ∧ m' = .profile q) ∨
      ∃ q q', m = .cyclic q ∧ m' = .cyclic q' ∧ q.Alike q' := by
  cases m <;> cases m' <;> simp_all [Alike]

theorem Alike.commandedMode (h : m.Alike m') : m.commandedMode = m'.commandedMode := by
  rcases h.cases with ⟨q, rfl, rfl⟩ | ⟨q, q', rfl, rfl, -⟩ <;> rfl

/-- A reset leaves only the constants of a mode. -/
theorem alike_reset_tracked (h : m'.constants = m.constants) (x : Int32) :
    (m.reset.tracked x).Alike (m'.reset.tracked x) := by
  cases m with
  | profile q =>
      cases m' with
      | profile q' =>
          show q.reset = q'.reset
          have hdecel : q'.quickStopDecel = q.quickStopDecel := by
            simpa [constants] using h
          simp only [ProfilePositionMode.reset, Sequencer.reset, hdecel]
      | cyclic q' => cases h
  | cyclic q =>
      cases m' with
      | profile q' => cases h
      | cyclic q' =>
          have hconst : q'.dt = q.dt ∧ q'.accel = q.accel := by simpa [constants] using h
          exact ⟨hconst.1.symm, hconst.2.symm, rfl, TrapezoidGenerator.alike_reseed _ _ x,
            fun _ => ⟨rfl, rfl⟩⟩

theorem alike_reset (h : m.Alike m') : m.reset.Alike m'.reset := by
  rcases h.cases with ⟨q, rfl, rfl⟩ | ⟨q, q', rfl, rfl, hq⟩
  · exact rfl
  · exact ⟨hq.dt, hq.accel, rfl, TrapezoidGenerator.alike_reseed _ _ 0, fun _ => ⟨rfl, rfl⟩⟩

theorem alike_tracked (h : m.Alike m') (x : Int32) : (m.tracked x).Alike (m'.tracked x) := by
  rcases h.cases with ⟨q, rfl, rfl⟩ | ⟨q, q', rfl, rfl, hq⟩
  · exact rfl
  · exact ⟨hq.dt, hq.accel, hq.positioning, TrapezoidGenerator.alike_reseed _ _ x,
      fun _ => ⟨rfl, rfl⟩⟩

theorem alike_goTo (h : m.Alike m') (counts : Int32) (v : UInt32) :
    (m.goTo counts v).Alike (m'.goTo counts v) := by
  rcases h.cases with ⟨q, rfl, rfl⟩ | ⟨q, q', rfl, rfl, hq⟩
  · exact rfl
  · simp only [goTo, CyclicPositionMode.goTo_eq, ← hq.accel]
    obtain ⟨hgen, hok⟩ :=
      TrapezoidGenerator.alike_setGoal hq.generator counts (v.toNat : ℚ) q.accel
    refine ⟨hq.dt, rfl, by rw [hok, hq.positioning], hgen, fun hno => ?_⟩
    have hrefused : q.generator.setGoal counts (v.toNat : ℚ) q.accel = (q.generator, false) :=
      dif_neg fun hlimits => hno hlimits.2
    rw [hrefused]
    exact hq.atRest hno

theorem alike_setVelocity (h : m.Alike m') (v : Int32) :
    (m.setVelocity v).Alike (m'.setVelocity v) := by
  rcases h.cases with ⟨q, rfl, rfl⟩ | ⟨q, q', rfl, rfl, hq⟩
  · exact rfl
  · simp only [setVelocity, CyclicPositionMode.setVelocity_eq, ← hq.accel]
    obtain ⟨hgen, hok⟩ := TrapezoidGenerator.alike_setVelocity hq.generator (v.toInt : ℚ) q.accel
    refine ⟨hq.dt, rfl, by rw [hok, hq.positioning], hgen, fun hno => ?_⟩
    rw [TrapezoidGenerator.setVelocity_refused hno]
    exact hq.atRest hno

theorem alike_halt (h : m.Alike m') : m.halt.Alike m'.halt := by
  rcases h.cases with ⟨q, rfl, rfl⟩ | ⟨q, q', rfl, rfl, hq⟩
  · exact rfl
  · show CyclicPositionMode.Alike _ _
    unfold CyclicPositionMode.halt TrapezoidGenerator.stop
    by_cases ha : 0 < q.accel
    · obtain ⟨hgen, -⟩ := TrapezoidGenerator.alike_setVelocity hq.generator 0 q.accel
      have hok := TrapezoidGenerator.setVelocity_accepted (g := q.generator) (v := 0) ha
      have hok' := TrapezoidGenerator.setVelocity_accepted (g := q'.generator) (v := 0) ha
      simp only [← hq.accel, hok, hok', if_true]
      exact ⟨hq.dt, rfl, hq.positioning, hgen, fun hno => absurd ha hno⟩
    · -- Refused, so the stop falls back to the last limit: at rest it changes nothing else.
      obtain ⟨hidle, hzero⟩ := hq.atRest ha
      have hzero' : q'.generator.state.velocity = 0 := hq.generator.state ▸ hzero
      have hstop : ∀ g : TrapezoidGenerator ℚ, g.state.velocity = 0 →
          (g.setVelocity 0 g.accel.1).1 =
            { g with vTarget := 0, goal := g.position, phase := .idle } := by
        intro g hg
        simp [TrapezoidGenerator.setVelocity, TrapezoidGenerator.position, g.accel.2, hg]
      rw [← hq.accel]
      simp only [TrapezoidGenerator.setVelocity_refused ha, Bool.false_eq_true, if_false]
      rw [hstop _ hzero, hstop _ hzero']
      have hposition : q.generator.position = q'.generator.position := by
        simp only [TrapezoidGenerator.position, hq.generator.state]
      exact ⟨hq.dt, rfl, hq.positioning, ⟨hq.generator.state, rfl, hposition, rfl,
        fun hne => absurd rfl hne, fun h => by cases h⟩, fun _ => ⟨rfl, hzero⟩⟩

/-- What an enabled drive is sent does not depend on the output image. -/
theorem driveOperational_image (f : Fields) (q : Sequencer) (out out' : Outputs)
    (cmd : SequencerCommand) (status : Status) :
    (q.driveOperational f out cmd status).1 = (q.driveOperational f out' cmd status).1 ∧
      (q.driveOperational f out cmd status).2.2 = (q.driveOperational f out' cmd status).2.2 := by
  unfold Sequencer.driveOperational
  dsimp only
  by_cases hmode : cmd.mode = .profileVelocity
  · rw [if_pos hmode, if_pos hmode]
    exact ⟨rfl, rfl⟩
  · rw [if_neg hmode, if_neg hmode]
    exact ⟨rfl, rfl⟩

/-- Nor do what a sequencer does next and its controlword. -/
theorem sequencer_step_image (f : Fields) (q : Sequencer) (inp : CycleInput)
    (out out' : Outputs) (cmd : SequencerCommand) :
    (q.step f inp out cmd).next = (q.step f inp out' cmd).next ∧
      (q.step f inp out cmd).controlword = (q.step f inp out' cmd).controlword := by
  unfold Sequencer.step
  dsimp only
  generalize (if cmd.newSetpoint then (q.observe f inp).arm else q.observe f inp) = q
  by_cases hstop : inp.stopping = true
  · rw [if_pos hstop, if_pos hstop]
    exact ⟨rfl, rfl⟩
  · rw [if_neg hstop, if_neg hstop]
    unfold Sequencer.stepSteady
    dsimp only
    generalize q.checkMode inp cmd = q
    by_cases hfault : inp.status.decode = .fault
    · simp only [if_pos hfault, and_self]
    · by_cases henable : (cmd.enable && !q.state.modeMismatch && inp.status.operationEnabled) = true
      · obtain ⟨hnext, hword⟩ := driveOperational_image f { q with announcedOp := true }
          (out.storeMode f cmd.mode) (out'.storeMode f cmd.mode) cmd inp.status
        simp only [if_neg hfault, if_pos henable, hnext, hword, and_self]
      · simp only [if_neg hfault, if_neg henable]
        split_ifs <;> exact ⟨rfl, rfl⟩

/-- A step of two alike modes writes the same, and leaves them alike. What the mode reads of the
feedback is the echo. -/
theorem alike_step (h : m.Alike m') (sqrt : ℚ → ℚ) (f : Fields) (inp : CycleInput)
    (out out' : Outputs) {fb fb' : MotionFeedback} (hecho : fb.modeEcho = fb'.modeEcho) :
    (m.step sqrt f inp out fb).next.Alike (m'.step sqrt f inp out' fb').next ∧
      (m.step sqrt f inp out fb).controlword = (m'.step sqrt f inp out' fb').controlword ∧
      (out = out' →
        (m.step sqrt f inp out fb).outputs = (m'.step sqrt f inp out' fb').outputs) := by
  rcases h.cases with ⟨q, rfl, rfl⟩ | ⟨q, q', rfl, rfl, hq⟩
  · have hfb : ∀ out, q.step f inp out fb = q.step f inp out fb' := by
      intro out
      simp only [ProfilePositionMode.step, ProfilePositionMode.echoed,
        ProfilePositionMode.waitEcho, hecho]
    have himage : (q.step f inp out fb').next = (q.step f inp out' fb').next ∧
        (q.step f inp out fb').controlword = (q.step f inp out' fb').controlword := by
      cases he : q.echoed fb' with
      | true =>
          obtain ⟨hnext, hcw⟩ := sequencer_step_image f q.sequencer inp out out' q.echoedCommand
          simp only [ProfilePositionMode.step_echoed f inp _ he, StepResult.map_next,
            StepResult.map_controlword, hnext, hcw, and_self]
      | false =>
          obtain ⟨hnext, hcw⟩ := sequencer_step_image f q.sequencer inp out out' q.laggingCommand
          simp only [ProfilePositionMode.step_lagging f inp _ he, StepResult.map_next,
            StepResult.map_controlword, hnext, hcw, and_self]
    refine ⟨?_, ?_, ?_⟩
    · show (q.step f inp out fb).next = (q.step f inp out' fb').next
      rw [hfb, himage.1]
    · show (q.step f inp out fb).controlword = (q.step f inp out' fb').controlword
      rw [hfb, himage.2]
    · rintro rfl
      show (q.step f inp out fb).outputs = (q.step f inp out fb').outputs
      rw [hfb]
  · have hgen := TrapezoidGenerator.alike_step hq.generator sqrt q.dt
    refine ⟨?_, rfl, ?_⟩
    · refine ⟨hq.dt, hq.accel, hq.positioning, ?_, fun hno => ?_⟩
      · show (q.generator.step sqrt q.dt).Alike (q'.generator.step sqrt q'.dt)
        rwa [← hq.dt]
      · have hidle : q.generator.step sqrt q.dt = q.generator := by
          unfold TrapezoidGenerator.step
          rw [if_pos (.inl (hq.atRest hno).1)]
        show (q.generator.step sqrt q.dt).phase = .idle ∧
          (q.generator.step sqrt q.dt).state.velocity = 0
        rw [hidle]
        exact hq.atRest hno
    · rintro rfl
      show out.storeTargetPosition f (q.generator.step sqrt q.dt).position
        = out.storeTargetPosition f (q'.generator.step sqrt q'.dt).position
      rw [← hq.dt, TrapezoidGenerator.position, TrapezoidGenerator.position, hgen.state]

end MotionMode

/-! ### Two controllers -/

/-- Two controllers that do the same from now on, when every later target has an id that is
`fresh`. -/
structure Alike (fresh : Nat → Prop) (a b : Controller) : Prop where
  lifecycle : a.lifecycle = b.lifecycle
  motion : a.motion.Alike b.motion
  active : a.activeGeneration = b.activeGeneration ∨
    (¬ fresh a.activeGeneration ∧ ¬ fresh b.activeGeneration)
  resetting : a.lifecycle = .resetting →
    a.resetCycles = b.resetCycles ∧ a.clearStreak = b.clearStreak
  homing : a.lifecycle = .homing → a.homingCycles = b.homingCycles ∧
    a.homingTimeoutCycles = b.homingTimeoutCycles ∧ a.homingEchoWait = b.homingEchoWait

/-- Outside Resetting and Homing no counter is compared. -/
theorem Alike.plain {fresh : Nat → Prop} {a b : Controller} (hl : a.lifecycle = b.lifecycle)
    (hmotion : a.motion.Alike b.motion)
    (hactive : a.activeGeneration = b.activeGeneration ∨
      (¬ fresh a.activeGeneration ∧ ¬ fresh b.activeGeneration))
    (hres : a.lifecycle ≠ .resetting) (hhom : a.lifecycle ≠ .homing) : Alike fresh a b :=
  ⟨hl, hmotion, hactive, fun h => absurd h hres, fun h => absurd h hhom⟩

/-- What two steps of the state machine from alike controllers have in common: the controllers
after them are alike, the controlwords are equal, and from one image they lead to one image. -/
structure AlikeStep (fresh : Nat → Prop) (o o' : Outputs) (r r' : Controller × ControlWord) :
    Prop where
  alike : Alike fresh r.1 r'.1
  controlword : r.2 = r'.2
  outputs : o = o' → r.1.outputs = r'.1.outputs

section
variable {p : RtParams} {inp : CycleInput} {batch : CommandBatch} {fresh : Nat → Prop}
  {a b : Controller}

variable (inp) in
/-- A batch whose target is fresh is routed to both. -/
theorem alike_routeCommands (h : Alike fresh a b)
    (hfresh : ∀ u, batch.setTarget = some u → fresh u.generation) :
    Alike fresh (a.routeCommands inp batch) (b.routeCommands inp batch) := by
  have hstopped : (stoppedMotion batch a.motion).Alike (stoppedMotion batch b.motion) := by
    unfold stoppedMotion
    split_ifs
    · exact MotionMode.alike_halt h.motion
    · exact h.motion
  -- The target is adopted by both or by none.
  have htargeted : (targetedMotion inp batch (stoppedMotion batch a.motion)
      a.activeGeneration).Alike (targetedMotion inp batch (stoppedMotion batch b.motion)
        b.activeGeneration) := by
    unfold targetedMotion
    cases ht : batch.setTarget with
    | none => exact hstopped
    | some u =>
        have hiff : u.generation ≠ a.activeGeneration ↔ u.generation ≠ b.activeGeneration := by
          rcases h.active with heq | ⟨ha, hb⟩
          · rw [heq]
          · have hu := hfresh u ht
            exact iff_of_true (fun he => ha (he ▸ hu)) (fun he => hb (he ▸ hu))
        dsimp only
        by_cases hne : u.generation ≠ a.activeGeneration
        · rw [if_pos hne, if_pos (hiff.mp hne)]
          exact MotionMode.alike_goTo hstopped _ _
        · rw [if_neg hne, if_neg (hiff.not.mp hne)]
          exact hstopped
  have hmotion : (a.routedMotion inp batch).Alike (b.routedMotion inp batch) := by
    unfold routedMotion velocityMotion
    cases batch.setVelocity with
    | none => exact htargeted
    | some v => exact MotionMode.alike_setVelocity htargeted v
  have hactive : a.routedActive batch = b.routedActive batch ∨
      (¬ fresh (a.routedActive batch) ∧ ¬ fresh (b.routedActive batch)) := by
    unfold routedActive
    cases batch.setTarget with
    | none => exact h.active
    | some u => exact .inl rfl
  obtain ⟨le, te, w, hf, -, -, ha⟩ := a.routeCommands_eq inp batch
  obtain ⟨le', te', w', hf', -, -, hb⟩ := b.routeCommands_eq inp batch
  rw [ha, hb]
  exact ⟨h.lifecycle, hmotion, hactive, h.resetting, h.homing⟩

theorem alike_enterResetting (h : Alike fresh a b) :
    AlikeStep fresh a.outputs b.outputs (a.enterResetting p inp) (b.enterResetting p inp) where
  alike := ⟨rfl, MotionMode.alike_reset h.motion, h.active, fun _ => ⟨rfl, rfl⟩, nofun⟩
  controlword := rfl
  outputs := id

theorem alike_stepInit (h : Alike fresh a b) :
    AlikeStep fresh a.outputs b.outputs (a.stepInit p inp) (b.stepInit p inp) := by
  unfold stepInit
  split_ifs
  · exact alike_enterResetting h
  · exact ⟨⟨rfl, h.motion, h.active, nofun, nofun⟩, rfl, id⟩

theorem alike_stepEnabling (h : Alike fresh a b) (hl : a.lifecycle = .enabling) :
    AlikeStep fresh a.outputs b.outputs (a.stepEnabling p inp) (b.stepEnabling p inp) := by
  have hl' : b.lifecycle = .enabling := h.lifecycle ▸ hl
  unfold stepEnabling
  by_cases hfault : inp.status.decode = .fault
  · rw [if_pos hfault, if_pos hfault]
    exact alike_enterResetting h
  -- The ladder looks at the drive and at the commanded mode, which is the same.
  rw [if_neg hfault, if_neg hfault, h.motion.commandedMode]
  dsimp only
  split
  · refine ⟨.plain h.lifecycle h.motion h.active (by simp [hl]) (by simp [hl]), rfl, ?_⟩
    intro ho
    simp only [ho]
  · refine ⟨.plain ?_ h.motion h.active ?_ ?_, rfl, ?_⟩
    · simp only [hl, hl']
    · simp only [hl]
      split_ifs <;> simp
    · simp only [hl]
      split_ifs <;> simp
    · intro ho
      simp only [ho]

theorem alike_stepMotion (h : Alike fresh a b) (hl : a.lifecycle = .operational) :
    AlikeStep fresh a.outputs b.outputs (a.stepMotion p inp) (b.stepMotion p inp) := by
  obtain ⟨le, te, w, sr, -, ha⟩ := a.stepMotion_eq p inp
  obtain ⟨le', te', w', sr', -, hb⟩ := b.stepMotion_eq p inp
  have hecho : (a.feedback p inp).modeEcho = (b.feedback p inp).modeEcho := rfl
  obtain ⟨hnext, hcw, hout⟩ := MotionMode.alike_step h.motion p.sqrt p.fields inp a.outputs
    b.outputs hecho
  rw [ha, hb]
  exact ⟨⟨h.lifecycle, hnext, h.active, fun hr => by simp [hl] at hr,
    fun hh => by simp [hl] at hh⟩, hcw, hout⟩

theorem alike_stepOperational (h : Alike fresh a b) (hl : a.lifecycle = .operational) :
    AlikeStep fresh a.outputs b.outputs (a.stepOperational p inp batch)
      (b.stepOperational p inp batch) := by
  unfold stepOperational
  by_cases hfault : Faulted inp
  · rw [if_pos hfault, if_pos hfault]
    exact alike_enterResetting (a := a.abortActiveMove .notOperational)
      (b := b.abortActiveMove .notOperational)
      ⟨h.lifecycle, h.motion, h.active, h.resetting, h.homing⟩
  rw [if_neg hfault, if_neg hfault]
  by_cases hdisable : batch.disable = true
  · rw [if_pos hdisable, if_pos hdisable]
    exact ⟨⟨rfl, MotionMode.alike_reset h.motion, h.active, nofun, nofun⟩, rfl, id⟩
  rw [if_neg hdisable, if_neg hdisable]
  cases batch.startHoming with
  | some r =>
      -- Every counter of the homing stay is set here.
      exact ⟨⟨rfl, MotionMode.alike_reset h.motion, h.active, nofun, fun _ => ⟨rfl, rfl, rfl⟩⟩,
        rfl, id⟩
  | none =>
      dsimp only
      split_ifs
      · exact ⟨h, rfl, id⟩
      · exact alike_stepMotion h hl

/-- A homing stay that ends leaves both on the ladder, with their modes reset. -/
theorem alike_finishHoming (hmotion : a.motion.Alike b.motion)
    (hactive : a.activeGeneration = b.activeGeneration ∨
      (¬ fresh a.activeGeneration ∧ ¬ fresh b.activeGeneration)) (fail : HomingFail) :
    Alike fresh (a.finishHoming fail) (b.finishHoming fail) :=
  .plain rfl (MotionMode.alike_reset hmotion) hactive nofun nofun

/-- Both homing stays end in the same cycle. -/
theorem alike_stepHoming (h : Alike fresh a b) (hl : a.lifecycle = .homing) :
    AlikeStep fresh a.outputs b.outputs (a.stepHoming p inp batch)
      (b.stepHoming p inp batch) := by
  obtain ⟨hcycles, htimeout, hecho⟩ := h.homing hl
  have hl' : b.lifecycle = .homing := h.lifecycle ▸ hl
  have hreset := MotionMode.alike_reset h.motion
  unfold stepHoming
  by_cases hfault : Faulted inp
  · rw [if_pos hfault, if_pos hfault]
    exact alike_enterResetting (alike_finishHoming h.motion h.active .driveFault)
  rw [if_neg hfault, if_neg hfault]
  by_cases hstop : batch.disable = true ∨ batch.halt = true ∨ batch.quickStop = true
  · rw [if_pos hstop, if_pos hstop]
    refine ⟨.plain rfl hreset h.active ?_ ?_, rfl, id⟩ <;>
      simp only [finishHoming] <;> split_ifs <;> simp
  rw [if_neg hstop, if_neg hstop]
  dsimp only
  rw [hcycles, htimeout, hecho]
  have hmode : ∀ {o o' : Outputs}, o = o' →
      o.storeMode p.fields .homing = o'.storeMode p.fields .homing := fun ho => by rw [ho]
  -- The stay ends, for one reason or another, or goes on with the same counters.
  split_ifs
  · refine ⟨alike_finishHoming ?_ ?_ _, rfl, hmode⟩
    exacts [h.motion, h.active]
  · exact ⟨⟨h.lifecycle, h.motion, h.active, h.resetting, fun _ => ⟨rfl, rfl, rfl⟩⟩, rfl, hmode⟩
  · refine ⟨alike_finishHoming ?_ ?_ _, rfl, hmode⟩
    exacts [h.motion, h.active]
  · refine ⟨alike_finishHoming ?_ ?_ _, rfl, hmode⟩
    exacts [h.motion, h.active]
  · refine ⟨alike_finishHoming ?_ ?_ _, rfl, hmode⟩
    exacts [h.motion, h.active]
  · exact ⟨⟨h.lifecycle, h.motion, h.active, h.resetting, fun _ => ⟨rfl, rfl, rfl⟩⟩, rfl, hmode⟩

theorem alike_stepResetting (h : Alike fresh a b) (hl : a.lifecycle = .resetting) :
    AlikeStep fresh a.outputs b.outputs (a.stepResetting p inp batch)
      (b.stepResetting p inp batch) := by
  obtain ⟨hcycles, hstreak⟩ := h.resetting hl
  have hstays : a.lifecycle ≠ .homing := by simp [hl]
  unfold stepResetting
  dsimp only
  rw [hcycles, hstreak]
  generalize (if inp.status.decode ≠ .fault then b.clearStreak + 1 else 0) = streak
  split_ifs
  · exact ⟨⟨rfl, h.motion, h.active, nofun, nofun⟩, rfl, id⟩
  · exact ⟨⟨rfl, h.motion, h.active, nofun, nofun⟩, rfl, id⟩
  -- The recovery goes on, with an edge of the operator, a scheduled one, or none.
  all_goals
    exact ⟨⟨h.lifecycle, h.motion, h.active, fun _ => ⟨rfl, rfl⟩, fun hh => absurd hh hstays⟩,
      rfl, id⟩

theorem alike_stepDisabled (h : Alike fresh a b) :
    AlikeStep fresh a.outputs b.outputs (a.stepDisabled batch) (b.stepDisabled batch) := by
  unfold stepDisabled
  split_ifs
  · exact ⟨⟨rfl, h.motion, h.active, nofun, nofun⟩, rfl, id⟩
  · exact ⟨h, rfl, id⟩

variable (p inp) in
/-- One step of the state machine. -/
theorem alike_stepLifecycle (h : Alike fresh a b)
    (hfresh : ∀ u, batch.setTarget = some u → fresh u.generation) :
    AlikeStep fresh a.outputs b.outputs (a.stepLifecycle p inp batch)
      (b.stepLifecycle p inp batch) := by
  have hrouted := alike_routeCommands inp h hfresh
  have hout : ∀ s : Controller, (s.routeCommands inp batch).outputs = s.outputs := by
    intro s
    obtain ⟨le, te, w, hf, -, -, hs⟩ := s.routeCommands_eq inp batch
    rw [hs]
  have hl := h.lifecycle
  rw [← hout a, ← hout b]
  cases hb : b.lifecycle with
  | init =>
      rw [stepLifecycle_init (hl.trans hb), stepLifecycle_init hb]
      exact alike_stepInit hrouted
  | enabling =>
      rw [stepLifecycle_enabling (hl.trans hb), stepLifecycle_enabling hb]
      exact alike_stepEnabling hrouted (by simp [hl.trans hb])
  | operational =>
      rw [stepLifecycle_operational (hl.trans hb), stepLifecycle_operational hb]
      exact alike_stepOperational hrouted (by simp [hl.trans hb])
  | resetting =>
      rw [stepLifecycle_resetting (hl.trans hb), stepLifecycle_resetting hb]
      exact alike_stepResetting hrouted (by simp [hl.trans hb])
  | homing =>
      rw [stepLifecycle_homing (hl.trans hb), stepLifecycle_homing hb]
      exact alike_stepHoming hrouted (by simp [hl.trans hb])
  | disabled =>
      rw [stepLifecycle_disabled (hl.trans hb), stepLifecycle_disabled hb]
      exact alike_stepDisabled hrouted

end

/-! ### Two runs -/

/-- The two cycles write the same values to the same objects: from one output image they lead
to one image. -/
def SameWrites (p : RtParams) (a b : Controller) (t : Tick) : Prop :=
  ∀ o : Outputs,
    (cycle p { a with outputs := o } t).outputs = (cycle p { b with outputs := o } t).outputs

section
variable {p : RtParams} {fresh : Nat → Prop} {a b : Controller} {t : Tick}

/-- Tracking writes the same, and leaves the modes alike. -/
theorem alike_settled (h : Alike fresh a b) (actual : Int32) :
    (settledMotion a actual).Alike (settledMotion b actual) := by
  unfold settledMotion
  rw [h.lifecycle]
  split_ifs
  · exact MotionMode.alike_tracked h.motion actual
  · exact h.motion

theorem alike_trackUnlessOperational {inp : CycleInput} (h : Alike fresh a b)
    (hout : a.outputs = b.outputs) :
    (a.trackUnlessOperational p inp).outputs = (b.trackUnlessOperational p inp).outputs := by
  unfold trackUnlessOperational
  rw [h.lifecycle]
  split_ifs
  · unfold track
    rw [hout]
    rcases h.motion.cases with ⟨q, ha, hb⟩ | ⟨q, q', ha, hb, -⟩ <;> rw [ha, hb] <;> rfl
  · exact hout

/-- A steady cycle keeps two controllers alike. It gives the same controlword, and from one image
it leads to one image. -/
theorem alike_cycle (h : Alike fresh a b) (hsteady : t.inp.stopping = false)
    (hfresh : ∀ u ∈ targets t.drained, fresh u.generation) :
    Alike fresh (cycle p a t) (cycle p b t) ∧ (cycle p a t).lastCw = (cycle p b t).lastCw ∧
      (a.outputs = b.outputs → (cycle p a t).outputs = (cycle p b t).outputs) := by
  have hsample : Alike fresh (a.sample t.inp) (b.sample t.inp) :=
    ⟨h.lifecycle, h.motion, h.active, h.resetting, h.homing⟩
  have htarget : ∀ u, (drain t.drained).setTarget = some u → fresh u.generation := by
    intro u hu
    rw [drain_setTarget] at hu
    exact hfresh u (List.mem_of_getLast? hu)
  obtain ⟨halike, hcw, hout⟩ := alike_stepLifecycle p t.inp hsample htarget
  refine ⟨?_, ?_, fun ho => ?_⟩
  · obtain ⟨te, ph, ar, w, out, -, ha⟩ := cycle_steady (p := p) (s := a) hsteady
    obtain ⟨te', ph', ar', w', out', -, hb⟩ := cycle_steady (p := p) (s := b) hsteady
    rw [ha, hb]
    exact ⟨halike.lifecycle, alike_settled halike t.inp.actual, halike.active, halike.resetting,
      halike.homing⟩
  · obtain ⟨te, ph, ar, w, out, -, ha⟩ := cycle_steady (p := p) (s := a) hsteady
    obtain ⟨te', ph', ar', w', out', -, hb⟩ := cycle_steady (p := p) (s := b) hsteady
    rw [ha, hb]
    exact hcw
  · rw [cycle_outputs hsteady, cycle_outputs hsteady]
    have hstored : Alike fresh
        ((lifecycleStep p a t.inp (drain t.drained)).1.storeControlword
          (lifecycleStep p a t.inp (drain t.drained)).2)
        ((lifecycleStep p b t.inp (drain t.drained)).1.storeControlword
          (lifecycleStep p b t.inp (drain t.drained)).2) :=
      ⟨halike.lifecycle, halike.motion, halike.active, halike.resetting, halike.homing⟩
    refine alike_trackUnlessOperational hstored ?_
    simp only [Controller.storeControlword]
    rw [hout ho, hcw]

/-- Both controllers after a cycle on the same tick. -/
def sideBySide (p : RtParams) (ab : Controller × Controller) (t : Tick) :
    Controller × Controller :=
  (cycle p ab.1 t, cycle p ab.2 t)

/-- What a controller has left of its commands when it entered Resetting or Disabled: the mode is
reset, and so are the counters of the recovery. -/
structure Cleared (m : MotionMode ℚ) (r : Controller) : Prop where
  motion : r.motion = m.reset
  counters : r.lifecycle = .resetting → r.resetCycles = 0 ∧ r.clearStreak = 0
  lifecycle : r.lifecycle = .resetting ∨ r.lifecycle = .disabled

/-- The transitions that drop every command: into Resetting from elsewhere, and into Disabled
from Operational or Homing. -/
def Drops (before after : Lifecycle) : Prop :=
  (after = .resetting ∧ before ≠ .resetting) ∨
    (after = .disabled ∧ (before = .operational ∨ before = .homing))

instance (before after : Lifecycle) : Decidable (Drops before after) :=
  inferInstanceAs (Decidable (_ ∨ _))

theorem cleared_enterResetting (s : Controller) (inp : CycleInput) :
    Cleared s.motion (s.enterResetting p inp).1 :=
  ⟨rfl, fun _ => ⟨rfl, rfl⟩, .inl rfl⟩

section
variable {q : Controller} {inp : CycleInput} {batch : CommandBatch}

theorem cleared_stepInit (h : Drops .init (q.stepInit p inp).1.lifecycle) :
    Cleared q.motion (q.stepInit p inp).1 := by
  unfold stepInit at h ⊢
  split_ifs at h ⊢
  · exact cleared_enterResetting q inp
  · simp [Drops] at h

theorem cleared_stepEnabling (hl : q.lifecycle = .enabling)
    (h : Drops .enabling (q.stepEnabling p inp).1.lifecycle) :
    Cleared q.motion (q.stepEnabling p inp).1 := by
  unfold stepEnabling at h ⊢
  by_cases hfault : inp.status.decode = .fault
  · rw [if_pos hfault]
    exact cleared_enterResetting q inp
  -- Without a fault the ladder ends in Enabling or in Operational.
  rw [if_neg hfault] at h
  dsimp only at h
  split at h
  · simp [Drops, hl] at h
  · simp only [hl] at h
    split_ifs at h <;> simp [Drops] at h

theorem cleared_stepOperational (hl : q.lifecycle = .operational)
    (h : Drops .operational (q.stepOperational p inp batch).1.lifecycle) :
    Cleared q.motion (q.stepOperational p inp batch).1 := by
  unfold stepOperational at h ⊢
  by_cases hfault : Faulted inp
  · rw [if_pos hfault]
    exact cleared_enterResetting (q.abortActiveMove .notOperational) inp
  rw [if_neg hfault] at h ⊢
  by_cases hdisable : batch.disable = true
  · rw [if_pos hdisable]
    exact ⟨rfl, nofun, .inr rfl⟩
  rw [if_neg hdisable] at h
  obtain ⟨le, te, w, sr, -, hstep⟩ := q.stepMotion_eq p inp
  cases hhoming : batch.startHoming with
  | some r =>
      rw [hhoming] at h
      simp [Drops] at h
  | none =>
      rw [hhoming] at h
      dsimp only at h
      split_ifs at h
      · simp [Drops, hl] at h
      · simp [Drops, hl, hstep] at h

theorem cleared_stepHoming (hl : q.lifecycle = .homing)
    (h : Drops .homing (q.stepHoming p inp batch).1.lifecycle) :
    Cleared q.motion (q.stepHoming p inp batch).1 := by
  unfold stepHoming at h ⊢
  by_cases hfault : Faulted inp
  · rw [if_pos hfault]
    obtain ⟨hmotion, hcounters, hto⟩ := cleared_enterResetting (p := p)
      (q.finishHoming .driveFault) inp
    exact ⟨hmotion.trans (MotionMode.reset_reset q.motion), hcounters, hto⟩
  rw [if_neg hfault] at h ⊢
  by_cases hstop : batch.disable = true ∨ batch.halt = true ∨ batch.quickStop = true
  · rw [if_pos hstop] at h ⊢
    dsimp only at h ⊢
    split_ifs at h ⊢
    · exact ⟨rfl, nofun, .inr rfl⟩
    · simp [Drops, finishHoming] at h
  -- Any other end of the stay leads to the ladder.
  rw [if_neg hstop] at h
  dsimp only at h
  split_ifs at h <;> simp [Drops, finishHoming, hl] at h

end

/-- Such a transition clears the controller. -/
theorem cleared_of_drops {s : Controller} {inp : CycleInput} {batch : CommandBatch}
    (h : Drops s.lifecycle (s.stepLifecycle p inp batch).1.lifecycle) :
    Cleared (s.routedMotion inp batch) (s.stepLifecycle p inp batch).1 := by
  rw [← routeCommands_motion]
  cases hl : s.lifecycle with
  | init =>
      rw [hl, stepLifecycle_init hl] at h
      rw [stepLifecycle_init hl]
      exact cleared_stepInit h
  | enabling =>
      rw [hl, stepLifecycle_enabling hl] at h
      rw [stepLifecycle_enabling hl]
      exact cleared_stepEnabling (by simp [hl]) h
  | operational =>
      rw [hl, stepLifecycle_operational hl] at h
      rw [stepLifecycle_operational hl]
      exact cleared_stepOperational (by simp [hl]) h
  | homing =>
      rw [hl, stepLifecycle_homing hl] at h
      rw [stepLifecycle_homing hl]
      exact cleared_stepHoming (by simp [hl]) h
  | resetting => simp [Drops, hl] at h
  | disabled =>
      rw [hl, stepLifecycle_disabled hl, stepDisabled] at h
      split_ifs at h <;> simp [Drops, hl] at h

/-- Two runs that make the same such transition on the same feedback are alike after it. -/
theorem alike_of_drops {t' : Tick} (hconst : b.motion.constants = a.motion.constants)
    (hinp : t'.inp = t.inp) (hsteady : t.inp.stopping = false)
    (hsame : (cycle p a t).lifecycle = (cycle p b t').lifecycle)
    (ha : Drops a.lifecycle (cycle p a t).lifecycle)
    (hb : Drops b.lifecycle (cycle p b t').lifecycle)
    (hfresh : ¬ fresh (cycle p a t).activeGeneration ∧ ¬ fresh (cycle p b t').activeGeneration) :
    Alike fresh (cycle p a t) (cycle p b t') := by
  obtain ⟨te, ph, ar, w, out, -, hca⟩ := cycle_steady (p := p) (s := a) hsteady
  obtain ⟨te', ph', ar', w', out', -, hcb⟩ := cycle_steady (p := p) (s := b) (t := t')
    (hinp ▸ hsteady)
  have hclra : Cleared ((a.sample t.inp).routedMotion t.inp (drain t.drained))
      (lifecycleStep p a t.inp (drain t.drained)).1 := by
    rw [hca] at ha
    exact cleared_of_drops ha
  have hclrb : Cleared ((b.sample t'.inp).routedMotion t'.inp (drain t'.drained))
      (lifecycleStep p b t'.inp (drain t'.drained)).1 := by
    rw [hcb] at hb
    exact cleared_of_drops hb
  -- Both modes were reset and track the shaft.
  have hmotion : (settledMotion (lifecycleStep p a t.inp (drain t.drained)).1 t.inp.actual).Alike
      (settledMotion (lifecycleStep p b t'.inp (drain t'.drained)).1 t'.inp.actual) := by
    have hout : ∀ {m : MotionMode ℚ} {r : Controller}, Cleared m r →
        r.lifecycle ≠ .operational := by
      intro m r hr
      rcases hr.lifecycle with h | h <;> simp [h]
    unfold settledMotion
    rw [if_pos (hout hclra), if_pos (hout hclrb), hclra.motion, hclrb.motion, hinp]
    refine MotionMode.alike_reset_tracked ?_ _
    rw [constants_routedMotion, constants_routedMotion]
    exact hconst
  have hcounters : (lifecycleStep p a t.inp (drain t.drained)).1.lifecycle = .resetting →
      (lifecycleStep p a t.inp (drain t.drained)).1.resetCycles
        = (lifecycleStep p b t'.inp (drain t'.drained)).1.resetCycles ∧
      (lifecycleStep p a t.inp (drain t.drained)).1.clearStreak
        = (lifecycleStep p b t'.inp (drain t'.drained)).1.clearStreak := by
    intro hl
    obtain ⟨h1, h2⟩ := hclra.counters hl
    have hl' : (lifecycleStep p b t'.inp (drain t'.drained)).1.lifecycle = .resetting := by
      rw [hca, hcb] at hsame
      exact hsame ▸ hl
    obtain ⟨h1', h2'⟩ := hclrb.counters hl'
    exact ⟨h1.trans h1'.symm, h2.trans h2'.symm⟩
  have hnothoming : (cycle p a t).lifecycle ≠ .homing := by
    rw [hca]
    rcases hclra.lifecycle with h | h <;> simp [h]
  refine ⟨hsame, ?_, .inr hfresh, ?_, fun h => absurd h hnothoming⟩
  · rw [hca, hcb]
    exact hmotion
  · rw [hca, hcb]
    exact hcounters

end

/-- The two runs make the same transition in these cycles, on the same feedback, and it drops
every command. -/
structure SameDrop (p : RtParams) (a b : Controller) (t t' : Tick) : Prop where
  feedback : t'.inp = t.inp
  steady : t.inp.stopping = false
  before : a.lifecycle = b.lifecycle
  after : (cycle p a t).lifecycle = (cycle p b t').lifecycle
  drops : Drops a.lifecycle (cycle p a t).lifecycle

/-- Two runs of one controller, with whatever commands and feedback, that make the same
transition into Resetting, or into Disabled from Operational or Homing. From then on, with the
same feedback and commands and with targets of new moves, both write the same controlword and the
same values to the same objects. -/
theorem no_command_survives (p : RtParams) (s₀ : Controller) (bringup : List CycleInput)
    (history history' : List Tick) (t t' : Tick) (later : List Tick)
    (hdrop : SameDrop p (runFrom (cycle p) (spawned p s₀ bringup) history)
      (runFrom (cycle p) (spawned p s₀ bringup) history') t t')
    (hsteady : ∀ x ∈ later, x.inp.stopping = false)
    (hfresh : ∀ x ∈ later, ∀ u ∈ targets x.drained,
      u.generation ≠
        (runFrom (cycle p) (spawned p s₀ bringup) (history ++ [t])).activeGeneration ∧
      u.generation ≠
        (runFrom (cycle p) (spawned p s₀ bringup) (history' ++ [t'])).activeGeneration) :
    AllSteps (sideBySide p)
      (fun ab x => (cycle p ab.1 x).outputs.controlword = (cycle p ab.2 x).outputs.controlword ∧
        SameWrites p ab.1 ab.2 x)
      (runFrom (cycle p) (spawned p s₀ bringup) (history ++ [t]),
        runFrom (cycle p) (spawned p s₀ bringup) (history' ++ [t'])) later := by
  -- Ids that neither run has in use when it drops its commands.
  set fresh : Nat → Prop := fun g =>
    g ≠ (runFrom (cycle p) (spawned p s₀ bringup) (history ++ [t])).activeGeneration ∧
    g ≠ (runFrom (cycle p) (spawned p s₀ bringup) (history' ++ [t'])).activeGeneration
    with hdef
  have hconst : ∀ xs, (runFrom (cycle p) (spawned p s₀ bringup) xs).motion.constants
      = (spawned p s₀ bringup).motion.constants := fun xs =>
    runFrom_induction
      (I := fun s : Controller =>
        s.motion.constants = (spawned p s₀ bringup).motion.constants)
      rfl fun _ _ h => constants_cycle.trans h
  have hstart : Alike fresh (runFrom (cycle p) (spawned p s₀ bringup) (history ++ [t]))
      (runFrom (cycle p) (spawned p s₀ bringup) (history' ++ [t'])) := by
    simp only [hdef, runFrom_concat]
    refine alike_of_drops ?_ hdrop.feedback hdrop.steady hdrop.after hdrop.drops ?_ ?_
    · rw [hconst, hconst]
    · rw [← hdrop.before, ← hdrop.after]
      exact hdrop.drops
    · exact ⟨fun h => h.1 rfl, fun h => h.2 rfl⟩
  refine allSteps_of_invariant (I := fun ab => Alike fresh ab.1 ab.2)
    (C := fun _ x => x.inp.stopping = false ∧ ∀ u ∈ targets x.drained, fresh u.generation)
    hstart ?_ (allSteps_of_forall fun x hx => ⟨hsteady x hx, hfresh x hx⟩)
  rintro ⟨a, b⟩ x halike ⟨hx, hu⟩
  obtain ⟨hnext, hcw, -⟩ := alike_cycle (p := p) halike hx hu
  refine ⟨hnext, ?_, fun o => ?_⟩
  · rw [cycle_controlword hx, cycle_controlword hx]
    exact hcw
  · have hover : Alike fresh { a with outputs := o } { b with outputs := o } :=
      ⟨halike.lifecycle, halike.motion, halike.active, halike.resetting, halike.homing⟩
    exact (alike_cycle hover hx hu).2.2 rfl

/-- The recovery of a drive from a fault, with a new move at its end. -/
def recoveryRun : List Tick :=
  [tick 0x0040#16 1 0 [], tick 0x0040#16 1 0 [], tick 0x0040#16 1 0 [], tick 0x0021#16 1 0 [],
    tick 0x0023#16 1 0 [], tick 0x0027#16 1 0 [],
    tick 0x0027#16 1 0 [.setTarget ⟨2000, 500, false, 3⟩]]

/-- A run with a move and a run with a velocity recover alike from a drive fault. -/
theorem recovery_forgets :
    AllSteps (sideBySide profileBench)
      (fun ab x => (cycle profileBench ab.1 x).outputs.controlword
          = (cycle profileBench ab.2 x).outputs.controlword ∧
        SameWrites profileBench ab.1 ab.2 x)
      (runFrom (cycle profileBench) (spawned profileBench profileController [])
          ((climb 1 0 ++ [tick 0x0027#16 1 0 [.setTarget ⟨1000, 500, false, 1⟩]])
            ++ [tick 0x0008#16 1 0 []]),
        runFrom (cycle profileBench) (spawned profileBench profileController [])
          ((climb 1 0 ++ [tick 0x0027#16 1 0 [.setVelocity 200]]) ++ [tick 0x0008#16 1 0 []]))
      recoveryRun :=
  no_command_survives profileBench profileController []
    (climb 1 0 ++ [tick 0x0027#16 1 0 [.setTarget ⟨1000, 500, false, 1⟩]])
    (climb 1 0 ++ [tick 0x0027#16 1 0 [.setVelocity 200]])
    (tick 0x0008#16 1 0 []) (tick 0x0008#16 1 0 []) recoveryRun
    ⟨rfl, rfl, by decide +kernel, by decide +kernel, by decide +kernel⟩
    (by decide +kernel) (by decide +kernel)

end ViamEthercat.Servo
