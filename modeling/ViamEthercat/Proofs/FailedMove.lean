import ViamEthercat.Proofs.Session
import ViamEthercat.Proofs.Handshake

/-!
# `ViamEthercat.Proofs.FailedMove`: a move reported as failed

A call of `go_to` or `go_for` throws out of `await_move` on what the RT loop published: the
loop stopped, the move failed, or the drive is faulted. Its `SetTarget` goes another way. It
waits in the queue, and the loop adopts it in whatever lifecycle state it is. A target that is
adopted in Resetting, or while the drive reacts to a fault and the controller still is in
Operational, moves the drive after the call has thrown.

`MoveWatch` records whose target the mode took last (`owner`) and which calls have thrown. A call
is named by its place in `calls`, since the move ids start again with every run, and the name is
that of the call whose target is queued (`namesPusher_run`).

`failed_move_stays_failed`: along every run whose steps meet `MoveSound`, no cycle raises an
edge for the target of a call that has thrown, or runs the generator toward it. The condition
has two parts: when the call throws, the mode does not work on its target any more, and a
target that is still queued then is not adopted later into a mode that keeps it.
-/

set_option autoImplicit false

namespace ViamEthercat.Servo

open Lib Controller

/-! ### The target of a mode -/

namespace TrapezoidGenerator

variable {g : TrapezoidGenerator ℚ}

theorem AtRestOrStopping.not_positioning (h : g.AtRestOrStopping) : g.phase ≠ .positioning := by
  rcases h with h | ⟨h, -⟩ <;> simp [h]

/-- A step takes no goal up. -/
theorem step_not_positioning (sqrt : ℚ → ℚ) (dt : ℚ) (h : g.phase ≠ .positioning) :
    (g.step sqrt dt).phase ≠ .positioning := by
  unfold step
  split_ifs
  · exact h
  · unfold stepVelocity
    dsimp only
    split_ifs
    · simp
    · exact h

end TrapezoidGenerator

namespace MotionMode

/-- The mode works on the target it took last: the set-point waits, or its handshake has bit 4
to raise or to hold; the generator is on its way. -/
def OnTarget : MotionMode ℚ → Prop
  | .profile m => m.pendingNewSetpoint = true ∨ m.sequencer.Armed
  | .cyclic m => m.generator.phase = .positioning

instance : (m : MotionMode ℚ) → Decidable m.OnTarget
  | .profile _ => inferInstanceAs (Decidable (_ ∨ _))
  | .cyclic _ => inferInstanceAs (Decidable (_ = _))

/-- The mode streams positions from a generator. -/
def isCyclic : MotionMode ℚ → Bool
  | .profile _ => false
  | .cyclic _ => true

/-- Nothing survives a reset. -/
theorem not_onTarget_reset (m : MotionMode ℚ) : ¬ m.reset.OnTarget := by
  cases m with
  | profile m =>
      simp [reset, OnTarget, ProfilePositionMode.reset, Sequencer.reset, Sequencer.Armed]
  | cyclic m => simp [reset, OnTarget, CyclicPositionMode.reset, TrapezoidGenerator.reseed]

/-- Tracking the shaft drops the target of a generator, and keeps that of a profile mode. -/
theorem onTarget_tracked {m : MotionMode ℚ} {actual : Int32} (h : (m.tracked actual).OnTarget) :
    m.OnTarget ∧ m.isCyclic = false := by
  cases m with
  | profile m => exact ⟨h, rfl⟩
  | cyclic m => cases h

/-- A velocity takes no target up. -/
theorem onTarget_setVelocity {m : MotionMode ℚ} {v : Int32} (h : (m.setVelocity v).OnTarget) :
    m.OnTarget := by
  cases m with
  | profile m => exact h
  | cyclic m =>
      change (m.setVelocity v).generator.phase = .positioning at h
      rw [m.setVelocity_generator] at h
      unfold TrapezoidGenerator.setVelocity at h
      dsimp only at h
      split_ifs at h
      exact h

/-- A halt takes no target up. -/
theorem onTarget_halt {m : MotionMode ℚ} (h : m.halt.OnTarget) : m.OnTarget := by
  cases m with
  | profile m => exact h
  | cyclic m =>
      have hstop : (m.generator.stop m.accel).AtRestOrStopping :=
        TrapezoidGenerator.atRestOrStopping_stop m.accel
      exact absurd h hstop.not_positioning

section
variable {sqrt : ℚ → ℚ} {f : Fields} {inp : CycleInput} {out : Outputs} {fb : MotionFeedback}

/-- The sequencer takes a set-point over from the mode only. -/
theorem armed_taken {m : ProfilePositionMode}
    (h : (m.sequencer.taken f inp (m.issued fb)).Armed) :
    (MotionMode.profile m).OnTarget := by
  unfold Sequencer.Armed at h
  -- Armed by the set-point of this cycle, or by an earlier one.
  rw [Sequencer.taken_handshake, ProfilePositionMode.issued_newSetpoint] at h
  split_ifs at h with hpending
  · exact .inl (Bool.and_eq_true_iff.mp hpending).2
  · exact .inr h

/-- A step takes no target up. -/
theorem onTarget_step {m : MotionMode ℚ} (h : (m.step sqrt f inp out fb).next.OnTarget) :
    m.OnTarget := by
  cases m with
  | profile m =>
      rcases h with hpending | harmed
      · left
        cases he : m.echoed fb with
        | true =>
            rw [ProfilePositionMode.step_echoed f inp out he] at hpending
            cases hpending
        | false =>
            rw [ProfilePositionMode.step_lagging f inp out he] at hpending
            simp only [StepResult.map_next, ProfilePositionMode.waitEcho] at hpending
            split_ifs at hpending
            exact hpending
      · exact armed_taken ((m.step_handshake f inp out fb).armed_before harmed)
  | cyclic m =>
      change (m.generator.step sqrt m.dt).phase = .positioning at h
      show m.generator.phase = .positioning
      by_contra hphase
      exact TrapezoidGenerator.step_not_positioning sqrt m.dt hphase h

/-- Bit 4 is raised for the target of the mode only. -/
theorem onTarget_of_bit4 {m : MotionMode ℚ}
    (h : (m.step sqrt f inp out fb).controlword.bit4 = true) : m.OnTarget := by
  cases m with
  | profile m =>
      have hstep := m.step_handshake f inp out fb
      rw [show (m.step f inp out fb).controlword.bit4 = true from h] at hstep
      exact armed_taken hstep.armed_of_high
  | cyclic m =>
      have hlow : ControlWord.enableOperation.bit4 = false := by decide
      exact absurd (hlow.symm.trans h) (by decide)

/-- The stopping window takes no target up. -/
theorem onTarget_stepShutdown {m : MotionMode ℚ} (hstop : inp.stopping = true)
    (h : (m.stepShutdown sqrt f inp out fb).next.OnTarget) : m.OnTarget := by
  cases m with
  | profile m =>
      obtain ⟨hphase, hpending, -⟩ := m.stepShutdown_frame f inp out hstop
      rcases h with h | h
      · exact .inl (hpending ▸ h)
      · refine .inr ?_
        unfold Sequencer.Armed at h ⊢
        rwa [← hphase]
  | cyclic m =>
      simp only [stepShutdown, CyclicPositionMode.stepShutdown, StepResult.map_next] at h
      -- Reseeded, ramped down, ramping already, or idle.
      split_ifs at h with _ _ hramp
      · cases h
      · have hstopped := TrapezoidGenerator.atRestOrStopping_stop (g := m.generator) m.accel
        exact absurd h (TrapezoidGenerator.step_not_positioning _ _ hstopped.not_positioning)
      · have hvelocity : m.generator.phase ≠ .positioning := by
          simp [not_not.mp (not_or.mp hramp).1]
        exact absurd h (TrapezoidGenerator.step_not_positioning _ _ hvelocity)
      · exact h

end

end MotionMode

/-! ### One cycle -/

section
variable (p : RtParams) (s : Controller) (inp : CycleInput) (b : CommandBatch)

/-- The batch carries a target that the mode takes. -/
def TakesTarget (u : SetTarget) : Prop :=
  Adopts b s.activeGeneration u ∧ s.motion.Takes u

/-- The cycle keeps the target of the routed mode: nothing resets the mode, and a generator is
in Operational or gets there in this cycle. -/
structure KeepsTarget : Prop where
  onTarget : (s.routedMotion inp b).OnTarget
  notReset : ¬ ResetsMode p s inp b
  notFaulted : ¬ (s.lifecycle = .operational ∧ Faulted inp)
  notTracked : (s.routedMotion inp b).isCyclic = true → s.lifecycle = .operational ∨
    (s.lifecycle = .enabling ∧ LadderTop p inp (s.routedMotion inp b))

instance : Decidable (KeepsTarget p s inp b) :=
  decidable_of_iff
    ((s.routedMotion inp b).OnTarget ∧ ¬ ResetsMode p s inp b ∧
      ¬ (s.lifecycle = .operational ∧ Faulted inp) ∧
      ((s.routedMotion inp b).isCyclic = true → s.lifecycle = .operational ∨
        (s.lifecycle = .enabling ∧ LadderTop p inp (s.routedMotion inp b))))
    ⟨fun h => ⟨h.1, h.2.1, h.2.2.1, h.2.2.2⟩,
      fun h => ⟨h.onTarget, h.notReset, h.notFaulted, h.notTracked⟩⟩

instance (u : SetTarget) : Decidable (TakesTarget s b u) :=
  inferInstanceAs (Decidable ((_ ∧ _) ∧ _))

variable {p s inp b}

/-- The routed mode works on a target that the batch carries, or that it had. -/
theorem onTarget_routed (h : (s.routedMotion inp b).OnTarget) :
    (∃ u, TakesTarget s b u) ∨ s.motion.OnTarget := by
  -- The routing backwards: what works on a target after it did so before the velocity.
  have hvelocity :
      (targetedMotion inp b (stoppedMotion b s.motion) s.activeGeneration).OnTarget := by
    unfold routedMotion velocityMotion at h
    cases hv : b.setVelocity with
    | none => rwa [hv] at h
    | some v =>
        rw [hv] at h
        exact MotionMode.onTarget_setVelocity h
  have hstopped : (stoppedMotion b s.motion).OnTarget → s.motion.OnTarget := by
    unfold stoppedMotion
    split_ifs
    · exact MotionMode.onTarget_halt
    · exact id
  have htakes : ∀ u, (stoppedMotion b s.motion).Takes u ↔ s.motion.Takes u := by
    intro u
    unfold stoppedMotion
    split_ifs
    · cases s.motion <;> rfl
    · rfl
  unfold targetedMotion at hvelocity
  cases ht : b.setTarget with
  | none =>
      rw [ht] at hvelocity
      exact .inr (hstopped hvelocity)
  | some u =>
      rw [ht] at hvelocity
      dsimp only at hvelocity
      -- A target is taken when it is of another move and the generator accepts it.
      by_cases hnew : u.generation ≠ s.activeGeneration
      · by_cases htake : s.motion.Takes u
        · exact .inl ⟨u, ⟨ht, hnew⟩, htake⟩
        · rw [if_pos hnew, MotionMode.goTo_of_not_takes ((htakes u).not.mpr htake)] at hvelocity
          exact .inr (hstopped hvelocity)
      · rw [if_neg hnew] at hvelocity
        exact .inr (hstopped hvelocity)

/-- A step of the state machine that carries the routed mode on. -/
structure Carried (p : RtParams) (s : Controller) (inp : CycleInput) (b : CommandBatch)
    (r : Controller × ControlWord) : Prop where
  notReset : ¬ ResetsMode p s inp b
  notFaulted : ¬ (s.lifecycle = .operational ∧ Faulted inp)
  ladder : r.1.lifecycle = .operational → s.lifecycle = .operational ∨
    (s.lifecycle = .enabling ∧ LadderTop p inp (s.routedMotion inp b))
  kept : r.1.lifecycle ≠ .operational → r.1.motion = s.routedMotion inp b
  onTarget : r.1.motion.OnTarget → (s.routedMotion inp b).OnTarget
  edge : r.1.lifecycle = .operational → r.2.bit4 = true → (s.routedMotion inp b).OnTarget

/-- A step of the state machine resets the mode, or carries it on. -/
theorem reset_or_carried {r : Controller × ControlWord} (h : Outcome p s inp b r) :
    (r.1.motion = (s.routedMotion inp b).reset ∧ r.1.lifecycle ≠ .operational) ∨
      Carried p s inp b r := by
  cases h with
  | kept hmotion _ hwhere =>
      right
      rcases hwhere with ⟨hfrom, hto, -, hreset⟩ | ⟨hfrom, -, htop, hcw⟩ |
        ⟨hfrom, -, -, hcw, hfault, hdisable, hhoming⟩
      · exact ⟨hreset, fun h => hfrom h.1, fun h => absurd h hto, fun _ => hmotion,
          fun h => hmotion ▸ h, fun h => absurd h hto⟩
      · exact ⟨by simp [ResetsMode, hfrom, htop.1], by simp [hfrom], fun _ => .inr ⟨hfrom, htop⟩,
          fun _ => hmotion, fun h => hmotion ▸ h, fun _ h => by simp [hcw, fsmStep_bit4] at h⟩
      · exact ⟨by simp [ResetsMode, hfrom, hdisable, hhoming], fun h => hfault h.2,
          fun _ => .inl hfrom, fun _ => hmotion, fun h => hmotion ▸ h,
          fun _ h => absurd (hcw ▸ h) (by decide)⟩
  | reset hmotion _ hto => exact .inl ⟨hmotion, hto⟩
  | faulted hmotion _ _ hto => exact .inl ⟨hmotion, by simp [hto]⟩
  | stepped q hq hmotion hcw _ hfrom hto hfault hdisable hhoming =>
      right
      -- A step neither takes a target up nor raises bit 4 for another one.
      refine ⟨by simp [ResetsMode, hfrom, hdisable, hhoming], fun h => hfault h.2,
        fun _ => .inl hfrom, fun h => absurd hto h, fun h => ?_, fun _ h => ?_⟩
      · rw [hmotion, motionStep, hq] at h
        exact MotionMode.onTarget_step h
      · rw [hcw, motionStep, hq] at h
        exact MotionMode.onTarget_of_bit4 h

end

/-- What a cycle that ends in Operational does for the target of its routed mode: a rising edge
of bit 4, or a step of the positioning generator. -/
def EdgesOrRuns (p : RtParams) (s : Controller) (t : Tick) : MotionMode ℚ → Prop
  | .profile _ => s.lastCw.bit4 = false ∧ (cycle p s t).lastCw.bit4 = true
  | .cyclic m => s.lifecycle = .operational ∧ m.generator.phase = .positioning

instance (p : RtParams) (s : Controller) (t : Tick) :
    (m : MotionMode ℚ) → Decidable (EdgesOrRuns p s t m)
  | .profile _ => inferInstanceAs (Decidable (_ ∧ _))
  | .cyclic _ => inferInstanceAs (Decidable (_ ∧ _))

/-- The cycle works on the target of the mode. -/
def WorksOnTarget (p : RtParams) (s : Controller) (t : Tick) : Prop :=
  t.inp.stopping = false ∧ (cycle p s t).lifecycle = .operational ∧
    EdgesOrRuns p s t (s.routedMotion t.inp (drain t.drained))

section
variable {p : RtParams} {s : Controller} {t : Tick}

instance : Decidable (WorksOnTarget p s t) := inferInstanceAs (Decidable (_ ∧ _))

/-- A mode that works on a target after a steady cycle was kept on it. -/
theorem keepsTarget_of_onTarget (hsteady : t.inp.stopping = false)
    (h : (cycle p s t).motion.OnTarget) : KeepsTarget p s t.inp (drain t.drained) := by
  obtain ⟨te, ph, ar, w, out, -, hc⟩ := cycle_steady (p := p) (s := s) hsteady
  have houtcome := stepLifecycle_outcome p (s.sample t.inp) t.inp (drain t.drained)
  rw [hc] at h
  simp only [settledMotion] at h
  -- Outside Operational the mode tracks the shaft, which a generator does not survive.
  rcases reset_or_carried houtcome with ⟨hmotion, hto⟩ | hcarried
  · rw [if_pos hto, hmotion] at h
    exact absurd (MotionMode.onTarget_tracked h).1 (MotionMode.not_onTarget_reset _)
  · split_ifs at h with hto
    · rw [hcarried.kept hto] at h
      obtain ⟨hrouted, hprofile⟩ := MotionMode.onTarget_tracked h
      exact ⟨hrouted, hcarried.notReset, hcarried.notFaulted,
        fun hcyclic => absurd (hprofile.symm.trans hcyclic) (by decide)⟩
    · exact ⟨hcarried.onTarget h, hcarried.notReset, hcarried.notFaulted,
        fun _ => hcarried.ladder (not_not.mp hto)⟩

/-- A cycle works on a target only when it keeps it. -/
theorem keepsTarget_of_worksOnTarget (h : WorksOnTarget p s t) :
    KeepsTarget p s t.inp (drain t.drained) := by
  obtain ⟨hsteady, hto, hworks⟩ := h
  obtain ⟨te, ph, ar, w, out, -, hc⟩ := cycle_steady (p := p) (s := s) hsteady
  have houtcome := stepLifecycle_outcome p (s.sample t.inp) t.inp (drain t.drained)
  rw [hc] at hto
  rcases reset_or_carried houtcome with ⟨-, hne⟩ | hcarried
  · exact absurd hto hne
  · refine ⟨?_, hcarried.notReset, hcarried.notFaulted, fun _ => hcarried.ladder hto⟩
    cases hm : s.routedMotion t.inp (drain t.drained) with
    | profile m =>
        rw [hm] at hworks
        have hedge := hworks.2
        rw [hc] at hedge
        exact hm ▸ hcarried.edge hto hedge
    | cyclic m =>
        rw [hm] at hworks
        exact hworks.2

end

/-! ### The calls -/

/-- Inside `await_move`. -/
def CallPc.inAwaitMove : CallPc → Bool
  | .loadCompleted | .loadActive | .loadStopping | .loadExited | .loadFailed | .loadFaulted => true
  | _ => false

def CallPc.hasThrown : CallPc → Bool
  | .threw _ => true
  | _ => false

/-- The next operation of the call `i` throws out of `await_move`. -/
def Session.throwsMove (s : Session) (i : Nat) : Bool :=
  s.calls[i]?.any (·.pc.inAwaitMove) && (s.step (.advance i)).calls[i]?.any (·.pc.hasThrown)

/-- The next operation of the call `i` pushes its target, and the queue has room. -/
def Session.pushesTarget (s : Session) (i : Nat) : Bool :=
  s.calls[i]?.any (fun c => decide (c.pc = .push) && c.command.target?.isSome) &&
    decide (s.queue.length < s.queueCapacity)

/-- Whose target the mode took last, whose target went into the queue last, and which calls have
thrown in this run. -/
structure MoveWatch where
  owner : Option Nat := none
  pushed : Option Nat := none
  thrown : List Nat := []
deriving DecidableEq, Repr

/-- The call has thrown. -/
def MoveWatch.HasThrown (w : MoveWatch) (call : Option Nat) : Prop := ∃ i ∈ w.thrown, call = some i

instance (w : MoveWatch) (call : Option Nat) : Decidable (w.HasThrown call) :=
  inferInstanceAs (Decidable (∃ i ∈ _, _))

/-- The owner after a cycle. A target that the mode takes is the last one of the queue. -/
def MoveWatch.nextOwner (w : MoveWatch) (s : Controller) (t : Tick) : Option Nat :=
  if t.inp.stopping then w.owner
  else match (drain t.drained).setTarget with
    | some u => if u.generation ≠ s.activeGeneration ∧ s.motion.Takes u then w.pushed else w.owner
    | none => w.owner

/-- The watch after a step. A restart begins another run, and keeps the queue. -/
def MoveWatch.next (w : MoveWatch) (s : Session) : Event → MoveWatch
  | .dispatch inp =>
      if s.running then { w with owner := w.nextOwner s.rt ⟨inp, s.queue⟩ } else w
  | .advance i =>
      if s.throwsMove i then { w with thrown := i :: w.thrown }
      else if s.pushesTarget i then { w with pushed := some i }
      else w
  | .restart _ => { pushed := w.pushed }
  | _ => w

/-- The session with its observer. -/
def observeMoves (st : Session × MoveWatch) (e : Event) : Session × MoveWatch :=
  (st.1.step e, st.2.next st.1 e)

/-- The watch names the call that the last target of the queue comes from. -/
def NamesPusher (st : Session × MoveWatch) : Prop :=
  ∀ u, (targets st.1.queue).getLast? = some u →
    ∃ i c, st.2.pushed = some i ∧ st.1.calls[i]? = some c ∧ c.command = .setTarget u

/-- A dispatch does not work on the target of a call that has thrown. -/
def NoLateMove (st : Session × MoveWatch) : Event → Prop
  | .dispatch inp => st.1.running = true →
      WorksOnTarget st.1.params st.1.rt ⟨inp, st.1.queue⟩ →
      ¬ st.2.HasThrown (st.2.nextOwner st.1.rt ⟨inp, st.1.queue⟩)
  | _ => True

instance (st : Session × MoveWatch) : (e : Event) → Decidable (NoLateMove st e)
  | .dispatch _ => inferInstanceAs (Decidable (_ → _))
  | .setRpm _ | .halt | .enable | .disable | .requestFaultReset | .setZero _ | .goTo _ _
  | .goFor _ _ | .home | .advance _ | .homeFails _ _ | .exit _ | .stop | .restart _ =>
      isTrue trivial

/-- The condition on one step. A call that throws while the loop runs leaves no mode on its
target, and a cycle that takes the target of a call that has thrown does not keep it. -/
def MoveSound (st : Session × MoveWatch) : Event → Prop
  | .advance i => st.1.throwsMove i = true → st.1.running = true → st.2.owner = some i →
      ¬ st.1.rt.motion.OnTarget
  | .dispatch inp => st.1.running = true → inp.stopping = false →
      ∀ u ∈ (drain st.1.queue).setTarget, TakesTarget st.1.rt (drain st.1.queue) u →
        st.2.HasThrown st.2.pushed →
        ¬ KeepsTarget st.1.params st.1.rt inp (drain st.1.queue)
  | _ => True

instance (st : Session × MoveWatch) : (e : Event) → Decidable (MoveSound st e)
  | .advance _ => inferInstanceAs (Decidable (_ → _))
  | .dispatch _ => inferInstanceAs (Decidable (_ → _))
  | .setRpm _ | .halt | .enable | .disable | .requestFaultReset | .setZero _ | .goTo _ _
  | .goFor _ _ | .home | .homeFails _ _ | .exit _ | .stop | .restart _ => isTrue trivial

/-- No mode of a live run works on the target of a call that has thrown. -/
def ThrownDropped (st : Session × MoveWatch) : Prop :=
  st.1.running = true → st.2.HasThrown st.2.owner → ¬ st.1.rt.motion.OnTarget

section
variable {w : MoveWatch} {s : Controller} {t : Tick}

theorem nextOwner_of_takes {u : SetTarget} (hsteady : t.inp.stopping = false)
    (h : TakesTarget s (drain t.drained) u) : w.nextOwner s t = w.pushed := by
  simp [MoveWatch.nextOwner, hsteady, h.1.1, h.1.2, h.2]

theorem nextOwner_of_not_takes (h : ∀ u, ¬ TakesTarget s (drain t.drained) u) :
    w.nextOwner s t = w.owner := by
  unfold MoveWatch.nextOwner
  split_ifs with hstop
  · rfl
  · cases ht : (drain t.drained).setTarget with
    | none => rfl
    | some u => exact if_neg fun hu => h u ⟨⟨ht, hu.1⟩, hu.2⟩

end

section
variable {st : Session × MoveWatch}

/-- With no new target in the queue the watch names the same call. -/
theorem NamesPusher.of_same (h : NamesPusher st) {e : Event}
    (hqueue : targets (st.1.step e).queue = targets st.1.queue ∨
      targets (st.1.step e).queue = [])
    (hpushed : (st.2.next st.1 e).pushed = st.2.pushed) : NamesPusher (observeMoves st e) := by
  intro u hu
  change (targets (st.1.step e).queue).getLast? = some u at hu
  rcases hqueue with hsame | hempty
  · rw [hsame] at hu
    obtain ⟨i, c, hname, hi, hcommand⟩ := h u hu
    obtain ⟨c', hi', hkept⟩ := st.1.step_keepsCalls e i c hi
    exact ⟨i, c', hpushed.trans hname, hi', hkept.trans hcommand⟩
  · rw [hempty] at hu
    cases hu

/-- The operation of a call that is not its push. -/
theorem NamesPusher.advance_of_ne (h : NamesPusher st) {i : Nat}
    (hpush : ∀ c, st.1.calls[i]? = some c → c.pc ≠ .push) :
    NamesPusher (observeMoves st (.advance i)) := by
  have hnot : st.1.pushesTarget i = false := by
    unfold Session.pushesTarget
    cases hi : st.1.calls[i]? with
    | none => rfl
    | some c => simp [hpush c hi]
  refine h.of_same (.inl ?_) ?_
  · simp only [Session.step]
    split
    · rw [Session.advance_queue_of_ne i (hpush _ ‹_›)]
    · rfl
  · simp only [MoveWatch.next, hnot, Bool.false_eq_true, if_false]
    split_ifs <;> rfl

/-- The push of a call. -/
theorem NamesPusher.advance_of_push (h : NamesPusher st) {i : Nat} {c : Call}
    (hi : st.1.calls[i]? = some c) (hpc : c.pc = .push) :
    NamesPusher (observeMoves st (.advance i)) := by
  have hqueue : (st.1.step (.advance i)).queue = (st.1.pushed c.command).queue := by
    simp only [Session.step, hi]
    exact Session.advance_queue_of_push i hpc
  have hthrows : st.1.throwsMove i = false := by
    simp [Session.throwsMove, hi, hpc, CallPc.inAwaitMove]
  have hpushes : st.1.pushesTarget i = true ↔
      st.1.queue.length < st.1.queueCapacity ∧ ∃ u, c.command = .setTarget u := by
    cases hcommand : c.command <;>
      simp [Session.pushesTarget, hi, hpc, hcommand, Command.target?]
  by_cases hroom : st.1.queue.length < st.1.queueCapacity ∧ ∃ u, c.command = .setTarget u
  · obtain ⟨hroom, u, hcommand⟩ := id hroom
    intro v hv
    change (targets (st.1.step (.advance i)).queue).getLast? = some v at hv
    rw [hqueue, Session.targets_pushed, if_pos hroom, hcommand] at hv
    obtain rfl : u = v := Option.some.inj (List.getLast?_concat.symm.trans hv)
    obtain ⟨c', hi', hkept⟩ := st.1.step_keepsCalls (.advance i) i c hi
    refine ⟨i, c', ?_, hi', hkept.trans hcommand⟩
    simp [observeMoves, MoveWatch.next, hthrows, hpushes.mpr ⟨hroom, u, hcommand⟩]
  · refine h.of_same (.inl ?_) ?_
    · rw [hqueue, Session.targets_pushed]
      split_ifs with hlt
      · cases hcommand : c.command with
        | setTarget u => exact absurd ⟨hlt, u, hcommand⟩ hroom
        | _ => exact List.append_nil _
      · exact List.append_nil _
    · simp [MoveWatch.next, hthrows, mt hpushes.mp hroom]

/-- Every step keeps what the watch names. -/
theorem NamesPusher.step (h : NamesPusher st) (e : Event) : NamesPusher (observeMoves st e) := by
  have hpush (c : Command) (hc : c.target? = none) :
      targets (st.1.pushed c).queue = targets st.1.queue := by
    rw [Session.targets_pushed, hc]
    split_ifs <;> exact List.append_nil _
  cases e with
  | advance i =>
      by_cases hpc : ∃ c, st.1.calls[i]? = some c ∧ c.pc = .push
      · obtain ⟨c, hi, hpc⟩ := hpc
        exact h.advance_of_push hi hpc
      · exact h.advance_of_ne fun c hi hat => hpc ⟨c, hi, hat⟩
  | dispatch inp =>
      refine h.of_same ?_ ?_
      · simp only [Session.step, Session.dispatched]
        split_ifs
        · exact .inl rfl
        · exact .inr rfl
        · exact .inl rfl
      · simp only [MoveWatch.next]
        split_ifs <;> rfl
  | setRpm rpm =>
      refine h.of_same (.inl ?_) rfl
      simp only [Session.step]
      split
      · exact hpush _ (Session.target_of_setRpm ‹_›)
      · rfl
  | halt | enable | disable | requestFaultReset => exact h.of_same (.inl (hpush _ rfl)) rfl
  | exit reason => exact h.of_same (.inl (by simp only [Session.step, Session.exited_queue])) rfl
  | homeFails i text =>
      refine h.of_same (.inl ?_) rfl
      simp only [Session.step]
      split
      · split_ifs
        · simp [Session.failed, Session.atPc]
        · rfl
      · rfl
  | goTo rpm position =>
      refine h.of_same (.inl ?_) rfl
      simp only [Session.step]
      split <;> rfl
  | goFor rpm revs =>
      refine h.of_same (.inl ?_) rfl
      simp only [Session.step]
      split <;> rfl
  | home =>
      refine h.of_same (.inl ?_) rfl
      simp only [Session.step]
      split <;> rfl
  | _ => exact h.of_same (.inl rfl) rfl

end

/-- Along every history the watch names the call that the last queued target comes from. -/
theorem namesPusher_run (config : ServoConfig) (params : RtParams) (text : Controller → String)
    (rt : Controller) (es : List Event) :
    NamesPusher (runFrom observeMoves (.new config params text rt, {}) es) := by
  refine runFrom_induction (I := NamesPusher) ?_ fun st e h => h.step e
  intro u hu
  cases hu

/-- A steady cycle keeps no target of a call that has thrown. -/
theorem owner_not_thrown {st : Session × MoveWatch} {inp : CycleInput} (hinv : ThrownDropped st)
    (hsound : MoveSound st (.dispatch inp)) (hrunning : st.1.running = true)
    (hsteady : inp.stopping = false)
    (hkeeps : KeepsTarget st.1.params st.1.rt inp (drain st.1.queue)) :
    ¬ st.2.HasThrown (st.2.nextOwner st.1.rt ⟨inp, st.1.queue⟩) := by
  intro hthrown
  rcases exists_or_forall_not (TakesTarget st.1.rt (drain st.1.queue)) with ⟨u, hu⟩ | hnone
  · -- The target is taken in this cycle, which the condition excludes.
    rw [nextOwner_of_takes (t := ⟨inp, st.1.queue⟩) hsteady hu] at hthrown
    exact hsound hrunning hsteady u hu.1.1 hu hthrown hkeeps
  · -- The mode was on the target before, which the invariant excludes.
    rw [nextOwner_of_not_takes (t := ⟨inp, st.1.queue⟩) hnone] at hthrown
    rcases onTarget_routed hkeeps.onTarget with ⟨u, hu⟩ | hbefore
    · exact hnone u hu
    · exact hinv hrunning hthrown hbefore

/-- A dispatch that meets the condition keeps the invariant. -/
theorem thrownDropped_dispatch {st : Session × MoveWatch} {inp : CycleInput}
    (hinv : ThrownDropped st) (hsound : MoveSound st (.dispatch inp)) :
    ThrownDropped (observeMoves st (.dispatch inp)) := by
  by_cases hrunning : st.1.running = true
  · have hnext : observeMoves st (.dispatch inp) =
        ({ st.1 with
            rt := cycle st.1.params st.1.rt ⟨inp, st.1.queue⟩
            queue := if inp.stopping then st.1.queue else [] },
          { st.2 with owner := st.2.nextOwner st.1.rt ⟨inp, st.1.queue⟩ }) := by
      simp only [observeMoves, Session.step, Session.dispatched, MoveWatch.next, hrunning, if_true]
    rw [hnext]
    intro _ hthrown honTarget
    change st.2.HasThrown (st.2.nextOwner st.1.rt ⟨inp, st.1.queue⟩) at hthrown
    cases hstop : inp.stopping with
    | true =>
        obtain ⟨te, ph, ar, w, out, sr, -, hc⟩ :=
          cycle_stopping (p := st.1.params) (s := st.1.rt) (t := ⟨inp, st.1.queue⟩) hstop
        rw [show st.2.nextOwner st.1.rt ⟨inp, st.1.queue⟩ = st.2.owner from if_pos hstop]
          at hthrown
        rw [hc] at honTarget
        exact hinv hrunning hthrown (MotionMode.onTarget_stepShutdown hstop honTarget)
    | false =>
        have hkeeps := keepsTarget_of_onTarget (t := ⟨inp, st.1.queue⟩) hstop honTarget
        exact owner_not_thrown hinv hsound hrunning hstop hkeeps hthrown
  · have hnext : observeMoves st (.dispatch inp) = st := by
      simp [observeMoves, Session.step, Session.dispatched, MoveWatch.next, hrunning]
    rwa [hnext]

/-- An operation of a call that meets the condition keeps the invariant. -/
theorem thrownDropped_advance {st : Session × MoveWatch} {i : Nat}
    (hinv : ThrownDropped st) (hsound : MoveSound st (.advance i)) :
    ThrownDropped (observeMoves st (.advance i)) := by
  -- The operation leaves the mode: the condition is on the mode before it.
  obtain ⟨hmotion, hbefore⟩ := st.1.step_sameLoop (e := .advance i) (by simp) (by simp)
  intro hrunning hthrown
  rw [show (observeMoves st (.advance i)).1.rt.motion = st.1.rt.motion from hmotion]
  by_cases hthrows : st.1.throwsMove i = true
  · have hnext : (observeMoves st (.advance i)).2 = { st.2 with thrown := i :: st.2.thrown } :=
      if_pos hthrows
    rw [hnext] at hthrown
    obtain ⟨j, hj, howner⟩ := hthrown
    rcases List.mem_cons.mp hj with rfl | hj
    · exact hsound hthrows (hbefore hrunning) howner
    · exact hinv (hbefore hrunning) ⟨j, hj, howner⟩
  · -- A push names the call of the queued target, and leaves the owner.
    have hnext : (observeMoves st (.advance i)).2.HasThrown (observeMoves st (.advance i)).2.owner ↔
        st.2.HasThrown st.2.owner := by
      simp only [observeMoves, MoveWatch.next, if_neg hthrows]
      split_ifs <;> rfl
    exact hinv (hbefore hrunning) (hnext.mp hthrown)

/-- Every step that meets the condition keeps the invariant. -/
theorem thrownDropped_step {st : Session × MoveWatch} {e : Event} (hinv : ThrownDropped st)
    (hsound : MoveSound st e) : ThrownDropped (observeMoves st e) := by
  -- What neither dispatches nor throws leaves both the mode and the watch.
  have hsame : (∀ inp, e ≠ .dispatch inp) → (∀ b, e ≠ .restart b) →
      st.2.next st.1 e = st.2 → ThrownDropped (observeMoves st e) := by
    intro hdispatch hrestart hwatch hrunning hthrown
    obtain ⟨hmotion, hbefore⟩ := st.1.step_sameLoop hdispatch hrestart
    have hnext : (observeMoves st e).2 = st.2 := hwatch
    rw [hnext] at hthrown
    exact hmotion ▸ hinv (hbefore hrunning) hthrown
  cases e with
  | dispatch inp => exact thrownDropped_dispatch hinv hsound
  -- Another run begins, in which no call has thrown.
  | restart b =>
      rintro - ⟨i, hi, -⟩
      cases hi
  | advance i => exact thrownDropped_advance hinv hsound
  | _ => exact hsame (by simp) (by simp) rfl

/-- A move that is reported as failed never happens later: along every run whose steps meet
the condition, no cycle works on the target of a call that has thrown. -/
theorem failed_move_stays_failed (config : ServoConfig) (params : RtParams)
    (text : Controller → String) (rt : Controller) (es : List Event)
    (hsound : AllSteps observeMoves MoveSound (.new config params text rt, {}) es) :
    AllSteps observeMoves NoLateMove (.new config params text rt, {}) es := by
  refine allSteps_of_invariant (I := ThrownDropped) ?_ ?_ hsound
  · rintro hrunning -
    cases hrunning
  · intro st e hinv hstep
    refine ⟨thrownDropped_step hinv hstep, ?_⟩
    cases e with
    | dispatch inp =>
        intro hrunning hworks
        exact owner_not_thrown hinv hstep hrunning hworks.1 (keepsTarget_of_worksOnTarget hworks)
    | _ => trivial

/-- The cycles of a drive in profile position: statuswords, mode echo 1, at rest at 0. -/
def profileCycles (status : List (BitVec 16)) : List Event :=
  status.map fun w => .dispatch (tick w 1 0 []).inp

/-- The drive faults in a move, which aborts it. `go_to` throws, and the drive recovers. -/
def abortedMoveRun : List Event :=
  .restart profileBringup ::
    profileCycles [0x0040#16, 0x0040#16, 0x0021#16, 0x0023#16, 0x0027#16] ++
    .goTo (.fin 100) (.fin 1) :: List.replicate 2 (.advance 0) ++
    profileCycles [0x0027#16, 0x0008#16] ++ List.replicate 5 (.advance 0) ++
    profileCycles [0x0040#16, 0x0040#16, 0x0040#16, 0x0021#16, 0x0023#16, 0x0027#16, 0x0027#16]

/-- The aborted move does not come back. -/
theorem aborted_move_stays_failed :
    AllSteps observeMoves NoLateMove
      (.new profileConfig profileBench (fun _ => "") profileController, {}) abortedMoveRun :=
  failed_move_stays_failed _ _ _ _ abortedMoveRun (by decide +kernel)

/-- The drive faults, `go_to` throws on it, and the drive recovers. -/
def faultedMoveRun : List Event :=
  .restart profileBringup ::
    profileCycles [0x0040#16, 0x0040#16, 0x0021#16, 0x0023#16, 0x0027#16, 0x0008#16] ++
    .goTo (.fin 100) (.fin 1) :: List.replicate 8 (.advance 0) ++
    profileCycles [0x0040#16, 0x0040#16, 0x0040#16, 0x0021#16, 0x0023#16, 0x0027#16, 0x0027#16]

/-- The target of the call that has thrown is edged after the recovery. -/
theorem failed_move_happens : ¬ ∀ (config : ServoConfig) (params : RtParams)
    (text : Controller → String) (rt : Controller) (es : List Event),
    AllSteps observeMoves NoLateMove (.new config params text rt, {}) es := by
  intro h
  have hlate := h profileConfig profileBench (fun _ => "") profileController faultedMoveRun
  revert hlate
  decide +kernel

end ViamEthercat.Servo
