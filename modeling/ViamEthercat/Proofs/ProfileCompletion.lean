import ViamEthercat.Proofs.Step
import ViamEthercat.Proofs.Handshake
import ViamEthercat.Lib.Run

/-!
# `ViamEthercat.Proofs.ProfileCompletion`: completion of a profile-position move

`profile_completion_sound`: in profile mode, on a drive whose statusword bit 10 is usable, a
run completes a move only after the sequencer raised bit 4 for its set-point, saw the
acknowledge, and brought the handshake back to Idle. It holds of the runs whose cycles all
meet `SetpointSound`:

* no cycle reports bit 10 on an energized drive while the set-point of the live move still
  waits to be handed to the sequencer. `is_target_reached` tests the handshake, which is Idle
  then, and not the pending set-point;
* no cycle resets the mode under a live move: the set-point is dropped, and the handshake is
  Idle;
* no set-point is handed over while bit 4 of the previous one is still high on the wire, as
  the word then has no rising edge.

`profile_completes_unsent` is a run in which bit 10 of the drive at rest completes a move
that was never sent.

`SetpointWatch` is the observer: the move that was adopted last and how far its set-point
got. `SetpointInv` is the invariant.
-/

set_option autoImplicit false

namespace ViamEthercat.Servo

open Lib Controller

/-! ### The set-point of a mode -/

namespace MotionMode

/-- A set-point waits to be handed to the sequencer. A cyclic mode has none. -/
def setpointPending : MotionMode ℚ → Bool
  | .profile m => m.pendingNewSetpoint
  | .cyclic _ => false

/-- The phase of the handshake. -/
def handshake : MotionMode ℚ → Handshake
  | .profile m => m.sequencer.handshake
  | .cyclic _ => .idle

/-- The written Halt bit has been clear long enough for bit 4 to be raised this cycle. -/
def haltSettled (f : Fields) (inp : CycleInput) : MotionMode ℚ → Bool
  | .profile m =>
      decide (setpointHaltSettleCycles ≤ (m.sequencer.observe f inp).haltClearCycles)
  | .cyclic _ => false

end MotionMode

/-- How far the set-point of a move got. -/
inductive SetpointPhase where
  | waiting
  | edged
  | acknowledged
  | settled
deriving DecidableEq, Repr

/-- The move adopted last, and how far its set-point got. -/
structure SetpointWatch where
  generation : Nat
  phase : SetpointPhase
deriving DecidableEq, Repr

/-- What a cycle from `s` to `s'` with the statusword `status` shows of a set-point: the
rising edge on the wire once the sequencer has the set-point, then bit 12 seen by the
sequencer, then the handshake back to Idle. -/
def SetpointPhase.next (s s' : Controller) (status : Status) : SetpointPhase → SetpointPhase
  | .waiting =>
      if s'.lifecycle = .operational ∧ s'.motion.setpointPending = false ∧
        s.lastCw.bit4 = false ∧ s'.lastCw.bit4 = true then .edged else .waiting
  | .edged =>
      if s.motion.handshake = .awaitAck ∧ s'.motion.handshake = .clearBit4 ∧
        status.setpointAcknowledged = true then .acknowledged else .edged
  | .acknowledged =>
      if s.motion.handshake = .awaitAckClear ∧ s'.motion.handshake = .idle ∧
        status.setpointAcknowledged = false then .settled else .acknowledged
  | .settled => .settled

/-- The watch when a cycle starts: a drained target of another move replaces it. -/
def adoptedWatch (s : Controller) (t : Tick) (w : SetpointWatch) : SetpointWatch :=
  if t.inp.stopping then w
  else match (drain t.drained).setTarget with
    | some u => if u.generation ≠ s.activeGeneration then ⟨u.generation, .waiting⟩ else w
    | none => w

/-- The watch after a cycle. -/
def nextWatch (p : RtParams) (s : Controller) (t : Tick) (w : SetpointWatch) : SetpointWatch :=
  let w := adoptedWatch s t w
  { w with phase := w.phase.next s (cycle p s t) t.inp.status }

/-- The run with its observer. -/
def observeSetpoint (p : RtParams) (st : Controller × SetpointWatch) (t : Tick) :
    Controller × SetpointWatch :=
  (cycle p st.1 t, nextWatch p st.1 t st.2)

/-- A move completed in this cycle is the watched one, and its set-point was edged,
acknowledged and settled. -/
def CompletesAcknowledged (p : RtParams) (st : Controller × SetpointWatch) (t : Tick) : Prop :=
  (cycle p st.1 t).completedGeneration ≠ st.1.completedGeneration →
    nextWatch p st.1 t st.2 = ⟨(cycle p st.1 t).completedGeneration, .settled⟩

instance (p : RtParams) (st : Controller × SetpointWatch) (t : Tick) :
    Decidable (CompletesAcknowledged p st t) := inferInstanceAs (Decidable (_ → _))

/-! ### The condition of a cycle -/

section
variable (p : RtParams) (s : Controller) (inp : CycleInput) (b : CommandBatch)

/-- A set-point waits once the batch is routed: an earlier one, or that of a new target. -/
def SetpointWaits : Prop :=
  s.motion.setpointPending = true ∨ ∃ u ∈ b.setTarget, u.generation ≠ s.activeGeneration

instance : Decidable (SetpointWaits s b) := inferInstanceAs (Decidable (_ ∨ _))

/-- A move is live once the batch is routed: a new one, or the active one without a stop. -/
def StillLive : Prop :=
  (∃ u ∈ b.setTarget, u.generation ≠ s.activeGeneration) ∨
    (s.moveActive = true ∧ b.halt = false ∧ b.disable = false)

instance : Decidable (StillLive s b) := inferInstanceAs (Decidable (_ ∨ _))

/-- The mode steps this cycle and the drive echoes the commanded mode, so that a waiting
set-point goes to the sequencer. -/
def HandsOver : Prop :=
  s.lifecycle = .operational ∧ ¬ Faulted inp ∧ b.disable = false ∧
    b.startHoming.isNone = true ∧ b.quickStop = false ∧
    modeEchoed p inp (s.routedMotion inp b).commandedMode = true

instance : Decidable (HandsOver p s inp b) := inferInstanceAs (Decidable (_ ∧ _))

/-- The energized drive reports its target reached. -/
def ReportsReached : Prop :=
  inp.status.operationEnabled = true ∧ inp.status.targetReached = true

instance : Decidable (ReportsReached inp) := inferInstanceAs (Decidable (_ ∧ _))

/-- A set-point that is handed over is edged: bit 4 is low on the wire, or held low this
cycle. -/
def EdgeFree : Prop :=
  s.lastCw.bit4 = false ∨ inp.status.operationEnabled = false ∨
    (s.routedMotion inp b).commandedMode = .profileVelocity ∨
    s.motion.haltSettled p.fields inp = false

instance : Decidable (EdgeFree p s inp b) := inferInstanceAs (Decidable (_ ∨ _))

/-- The condition on one steady cycle: no reset under a live move, no bit 10 while its
set-point waits, and a rising edge when it is handed over. -/
structure SteadySound : Prop where
  kept : StillLive s b → ¬ ResetsMode p s inp b
  unreported : StillLive s b → SetpointWaits s b →
    (s.routedMotion inp b).commandedMode = .profilePosition → ¬ HandsOver p s inp b →
    ¬ (s.lifecycle = .operational ∧ Faulted inp) → ¬ ReportsReached inp
  edged : StillLive s b → SetpointWaits s b → HandsOver p s inp b → EdgeFree p s inp b

instance : Decidable (SteadySound p s inp b) :=
  decidable_of_iff
    ((StillLive s b → ¬ ResetsMode p s inp b) ∧
      (StillLive s b → SetpointWaits s b →
        (s.routedMotion inp b).commandedMode = .profilePosition → ¬ HandsOver p s inp b →
        ¬ (s.lifecycle = .operational ∧ Faulted inp) → ¬ ReportsReached inp) ∧
      (StillLive s b → SetpointWaits s b → HandsOver p s inp b → EdgeFree p s inp b))
    ⟨fun h => ⟨h.1, h.2.1, h.2.2⟩, fun h => ⟨h.kept, h.unreported, h.edged⟩⟩

end

/-- The condition on one cycle. -/
def SetpointSound (p : RtParams) (s : Controller) (t : Tick) : Prop :=
  if t.inp.stopping then
    s.moveActive = true → s.motion.setpointPending = true →
      s.motion.commandedMode = .profilePosition → ¬ ReportsReached t.inp
  else SteadySound p s t.inp (drain t.drained)

instance (p : RtParams) (s : Controller) (t : Tick) : Decidable (SetpointSound p s t) :=
  inferInstanceAs (Decidable (ite _ _ _))

/-! ### The phase of a set-point, cycle by cycle -/

/-- The mode is where the watch says: a waiting set-point is pending or armed, an edged one
awaits its acknowledge, an acknowledged one its release. -/
def Tracks (m : MotionMode ℚ) : SetpointPhase → Prop
  | .waiting => m.setpointPending = true ∨ m.handshake = .writeTarget
  | .edged => m.setpointPending = false ∧ m.handshake = .awaitAck
  | .acknowledged =>
      m.setpointPending = false ∧ (m.handshake = .clearBit4 ∨ m.handshake = .awaitAckClear)
  | .settled => True

theorem tracks_congr {m m' : MotionMode ℚ} {ph : SetpointPhase}
    (hpend : m'.setpointPending = m.setpointPending) (hphase : m'.handshake = m.handshake)
    (h : Tracks m ph) : Tracks m' ph := by
  cases ph <;> simp only [Tracks, hpend, hphase] at h ⊢ <;> exact h

/-- A cycle that leaves the handshake alone and keeps bit 4 low shows nothing. -/
theorem next_of_held {s s' : Controller} (status : Status)
    (hphase : s'.motion.handshake = s.motion.handshake)
    (hlow : s'.lifecycle = .operational → s'.lastCw.bit4 = false) (ph : SetpointPhase) :
    ph.next s s' status = ph := by
  cases ph with
  | waiting =>
      rw [SetpointPhase.next, if_neg]
      rintro ⟨hop, -, -, hhigh⟩
      rw [hlow hop] at hhigh
      cases hhigh
  | edged =>
      rw [SetpointPhase.next, if_neg]
      rintro ⟨hs, hs', -⟩
      rw [hphase, hs] at hs'
      cases hs'
  | acknowledged =>
      rw [SetpointPhase.next, if_neg]
      rintro ⟨hs, hs', -⟩
      rw [hphase, hs] at hs'
      cases hs'
  | settled => rfl

/-- What the wire and the mode show of a step in Operational. -/
structure Stepped (f : Fields) (inp : CycleInput) (out : Outputs) (fb : MotionFeedback)
    (m : ProfilePositionMode) (s s' : Controller) : Prop where
  before : s.motion.handshake = m.sequencer.handshake
  after : s'.motion = .profile (m.step f inp out fb).next
  wire : s'.lastCw = (m.step f inp out fb).controlword
  operational : s'.lifecycle = .operational
  steady : inp.stopping = false
  healthy : inp.status.decode ≠ .fault
  sound : (m.step f inp out fb).next.fault = .none

section
variable {f : Fields} {inp : CycleInput} {out : Outputs} {fb : MotionFeedback}
  {m : ProfilePositionMode} {s s' : Controller}

theorem Stepped.adopted (h : Stepped f inp out fb m s s') :
    (m.step f inp out fb).next.modeNotAdopted = false := by
  have := h.sound
  unfold ProfilePositionMode.fault at this
  split_ifs at this with hna
  simpa using hna

/-- A step without a failure keeps a pending set-point until the drive echoes the mode. -/
theorem Stepped.pending (h : Stepped f inp out fb m s s') :
    s'.motion.setpointPending = (!m.echoed fb && m.pendingNewSetpoint) := by
  rw [h.after]
  exact m.step_pending f inp out fb h.adopted

/-- A step without a failure is one cycle of the handshake, and no wait expires. -/
theorem Stepped.handshakeStep (h : Stepped f inp out fb m s s') :
    Sequencer.HandshakeStep inp (m.issued fb) (m.sequencer.taken f inp (m.issued fb))
      s'.motion.handshake s'.lastCw.bit4 false := by
  have htimed : (m.step f inp out fb).next.sequencer.state.handshakeTimedOut = false := by
    have := h.sound
    unfold ProfilePositionMode.fault at this
    split_ifs at this with hna hto
    simpa using hto
  rw [h.after, h.wire, ← htimed]
  exact m.step_handshake f inp out fb

/-- The phase that the sequencer starts its cycle from. -/
theorem Stepped.taken (h : Stepped f inp out fb m s s') :
    (m.sequencer.taken f inp (m.issued fb)).handshake =
      if m.echoed fb && m.pendingNewSetpoint then .writeTarget else s.motion.handshake := by
  rw [Sequencer.taken_handshake, m.issued_newSetpoint, h.before]

/-- A waiting set-point stays waiting, or is edged. -/
theorem tracks_step_waiting (h : Stepped f inp out fb m s s')
    (htrack : m.pendingNewSetpoint = true ∨ m.sequencer.handshake = .writeTarget)
    (hedge : s.motion.handshake = .writeTarget ∨
      (m.pendingNewSetpoint = true ∧ m.echoed fb = true) →
      inp.status.operationEnabled = true → m.intent ≠ .profileVelocity →
      setpointHaltSettleCycles ≤ (m.sequencer.observe f inp).haltClearCycles →
      s.lastCw.bit4 = false) :
    Tracks s'.motion (SetpointPhase.waiting.next s s' inp.status) := by
  have hpend := h.pending
  by_cases hstay : s'.motion.setpointPending = true
  · -- The echo lags: whatever the sequencer does, the set-point still waits.
    rw [SetpointPhase.next, if_neg (by simp [hstay])]
    exact .inl hstay
  · -- The sequencer has the set-point, of this cycle or of an earlier one.
    have htaken : (m.sequencer.taken f inp (m.issued fb)).handshake = .writeTarget := by
      rw [h.taken]
      split_ifs with hgo
      · rfl
      · rw [h.before]
        refine htrack.resolve_left fun hp => ?_
        cases he : m.echoed fb <;> simp_all
    have hgo : s.motion.handshake = .writeTarget ∨
        (m.pendingNewSetpoint = true ∧ m.echoed fb = true) := by
      rw [h.taken] at htaken
      split_ifs at htaken with hgo
      · exact .inr (by simpa [and_comm] using hgo)
      · exact .inl htaken
    have hnopend : s'.motion.setpointPending = false := by simpa using hstay
    rcases h.handshakeStep.of_writeTarget htaken with ⟨hph, hlow⟩ |
      ⟨hph, hhigh, hsettled, hmode, hon⟩
    · rw [SetpointPhase.next, if_neg (by simp [hlow])]
      exact .inr hph
    · rw [m.issued_mode] at hmode
      -- Arming does not touch the halt-settle count.
      have hcount : (m.sequencer.taken f inp (m.issued fb)).haltClearCycles
          = (m.sequencer.observe f inp).haltClearCycles := by
        unfold Sequencer.taken
        split_ifs <;> rfl
      rw [hcount] at hsettled
      rw [SetpointPhase.next,
        if_pos ⟨h.operational, hnopend, hedge hgo hon hmode hsettled, hhigh⟩]
      exact ⟨hnopend, hph⟩

/-- A set-point that was handed over moves through the handshake with the watch. -/
theorem tracks_step_handed (h : Stepped f inp out fb m s s') {ph : SetpointPhase}
    (hne : ph ≠ .waiting) (htrack : Tracks (.profile m) ph) :
    Tracks s'.motion (ph.next s s' inp.status) := by
  -- With nothing pending, the sequencer goes on from the phase it was in.
  have hhanded (hpending : m.pendingNewSetpoint = false) :
      s'.motion.setpointPending = false ∧
        (m.sequencer.taken f inp (m.issued fb)).handshake = s.motion.handshake := by
    simp [h.pending, h.taken, hpending]
  cases ph with
  | waiting => exact absurd rfl hne
  | edged =>
      obtain ⟨hpend, htaken⟩ := hhanded htrack.1
      -- Bit 12 is looked at while the acknowledge is awaited, and nowhere else.
      have hs : s.motion.handshake = .awaitAck := h.before.trans htrack.2
      rcases h.handshakeStep.of_awaitAck (htaken.trans hs) with hph | ⟨hph, hack⟩
      · rw [SetpointPhase.next, if_neg (by simp [hph])]
        exact ⟨hpend, hph⟩
      · rw [SetpointPhase.next, if_pos ⟨hs, hph, hack⟩]
        exact ⟨hpend, .inl hph⟩
  | acknowledged =>
      obtain ⟨hpend, htaken⟩ := hhanded htrack.1
      rcases htrack.2 with hq | hq
      · have hs : s.motion.handshake = .clearBit4 := h.before.trans hq
        rw [SetpointPhase.next, if_neg (by simp [hs])]
        exact ⟨hpend, h.handshakeStep.of_clearBit4 (htaken.trans hs)⟩
      · have hs : s.motion.handshake = .awaitAckClear := h.before.trans hq
        rcases h.handshakeStep.of_awaitAckClear (htaken.trans hs) with hph | ⟨hph, hack⟩
        · rw [SetpointPhase.next, if_neg (by simp [hph])]
          exact ⟨hpend, .inr hph⟩
        · rw [SetpointPhase.next, if_pos ⟨hs, hph, hack⟩]
          trivial
  | settled => trivial

end

/-! ### Routing a batch -/

variable {p : RtParams} {s : Controller} {inp : CycleInput} {b : CommandBatch} {t : Tick}

theorem setpointPending_routed (inp : CycleInput) {m : ProfilePositionMode}
    (hm : s.motion = .profile m) :
    (s.routedMotion inp b).setpointPending = true ↔ SetpointWaits s b := by
  rw [routedMotion_profile inp b hm, SetpointWaits, hm]
  unfold routedProfile MotionMode.setpointPending
  -- A target sets the flag. A velocity and a halt leave it, so it can outlive them.
  cases ht : b.setTarget with
  | none => cases b.setVelocity <;> dsimp only <;> split_ifs <;> simp <;> rfl
  | some u =>
      cases b.setVelocity <;> dsimp only <;> split_ifs <;>
        simp_all [ProfilePositionMode.goTo, ProfilePositionMode.setVelocity,
          ProfilePositionMode.halt]

theorem handshake_routed {m : ProfilePositionMode} (hm : s.motion = .profile m) :
    (s.routedMotion inp b).handshake = s.motion.handshake := by
  rw [routedMotion_profile inp b hm, hm]
  exact congrArg Sequencer.handshake (routedProfile_sequencer ..)

/-- A move that is live after a step is live once the batch is routed. -/
theorem stillLive_of_live (hlive : (s.stepLifecycle p inp b).1.moveActive = true) :
    StillLive s b := by
  rcases exists_or_forall_not (Adopts b s.activeGeneration) with ⟨u, hu⟩ | hno
  · exact .inl ⟨u, hu.1, hu.2⟩
  · exact .inr (live_before_of_live_after hno hlive)

theorem adoptedWatch_of_adopts {w : SetpointWatch} {u : SetTarget}
    (hsteady : t.inp.stopping = false) (hu : Adopts (drain t.drained) s.activeGeneration u) :
    adoptedWatch s t w = ⟨u.generation, .waiting⟩ := by
  simp [adoptedWatch, hsteady, hu.1, hu.2]

theorem adoptedWatch_of_not_adopts {w : SetpointWatch} (hsteady : t.inp.stopping = false)
    (hno : ∀ u, ¬ Adopts (drain t.drained) s.activeGeneration u) : adoptedWatch s t w = w := by
  unfold adoptedWatch
  simp only [hsteady, Bool.false_eq_true, if_false]
  cases ht : (drain t.drained).setTarget with
  | none => rfl
  | some u =>
      have : u.generation = s.activeGeneration := not_not.mp fun hne => hno u ⟨ht, hne⟩
      simp [this]

/-! ### The invariant -/

/-- The watched move is the active one, bit 4 is high in Operational only for a set-point in
the handshake, and the mode of a live move is where the watch says. -/
structure SetpointInv (st : Controller × SetpointWatch) : Prop where
  profile : ∃ m, st.1.motion = .profile m ∧ m.sequencer.FlagSound
  active : st.1.activeGeneration = st.2.generation
  wire : st.1.lifecycle = .operational → st.1.lastCw.bit4 = true →
    st.1.motion.handshake = .awaitAck ∨ st.1.motion.handshake = .clearBit4
  phase : st.1.moveActive = true → Tracks st.1.motion st.2.phase

theorem setpointInv_spawned {m : ProfilePositionMode} (hm : s.motion = .profile m)
    (bringup : List CycleInput) : SetpointInv (spawned p s bringup, ⟨0, .waiting⟩) := by
  have hspawned : (spawned p s bringup).motion = .profile m.reset ∧
      (spawned p s bringup).activeGeneration = 0 := by
    refine spawned_induction
      (P := fun s => s.motion = .profile m.reset ∧ s.activeGeneration = 0) ?_ ?_
    · exact ⟨by simp only [resetRunState, hm]; rfl, rfl⟩
    · rintro s inp ⟨hm, hactive⟩
      exact ⟨by rw [stageBringupOutputs_motion, hm]; rfl, hactive⟩
  obtain ⟨hmotion, hactive⟩ := hspawned
  refine ⟨⟨_, hmotion, m.flagSound_reset⟩, hactive, ?_, ?_⟩
  · intro hop
    rw [spawned_lifecycle] at hop
    cases hop
  · intro hlive
    simp [moveActive, hactive] at hlive

/-- A profile mode stays one, with a sound flag. -/
theorem profile_lifecycle (p : RtParams) (inp : CycleInput) (b : CommandBatch)
    (h : ∃ m, s.motion = .profile m ∧ m.sequencer.FlagSound) :
    ∃ m, (s.stepLifecycle p inp b).1.motion = .profile m ∧ m.sequencer.FlagSound := by
  obtain ⟨m, hm, hflag⟩ := h
  have hrouted := routedMotion_profile inp b hm
  have hsound : (routedProfile inp b s.activeGeneration m).sequencer.FlagSound := by
    rw [routedProfile_sequencer]
    exact hflag
  cases stepLifecycle_outcome p s inp b with
  | kept hmotion => exact ⟨_, hmotion.trans hrouted, hsound⟩
  | reset hmotion =>
      exact ⟨_, by rw [hmotion, hrouted]; rfl, ProfilePositionMode.flagSound_reset _⟩
  | faulted hmotion =>
      exact ⟨_, by rw [hmotion, hrouted]; rfl, ProfilePositionMode.flagSound_reset _⟩
  | stepped q hq hmotion =>
      exact ⟨_, by rw [hmotion, motionStep, hq, hrouted]; rfl,
        ProfilePositionMode.flagSound_step _ _ _ _ _ hsound⟩

/-- Outside a cyclic mode, the mode that a cycle publishes is that of the state machine. -/
theorem settledMotion_profile {r : Controller} {m : ProfilePositionMode} (actual : Int32)
    (hm : r.motion = .profile m) : settledMotion r actual = r.motion := by
  unfold settledMotion
  split_ifs
  · rw [hm]
    rfl
  · rfl

/-- The state machine writes bit 4 in Operational only for a set-point in the handshake. -/
theorem wire_lifecycle {m : ProfilePositionMode} (hm : s.motion = .profile m)
    (hop : (s.stepLifecycle p inp b).1.lifecycle = .operational)
    (hhigh : (s.stepLifecycle p inp b).2.bit4 = true) :
    (s.stepLifecycle p inp b).1.motion.handshake = .awaitAck ∨
      (s.stepLifecycle p inp b).1.motion.handshake = .clearBit4 := by
  cases stepLifecycle_outcome p s inp b with
  | kept _ _ hwhere =>
      rcases hwhere with ⟨-, hto, -⟩ | ⟨-, -, -, hcw⟩ | ⟨-, -, -, hcw, -⟩
      · exact absurd hop hto
      · rw [hcw, fsmStep_bit4] at hhigh
        cases hhigh
      · rw [hcw] at hhigh
        exact absurd hhigh (by decide)
  | reset _ _ hto => exact absurd hop hto
  | faulted _ _ _ hto => rw [hop] at hto; cases hto
  | stepped q hq hmotion hcw =>
      -- Only the handshake raises bit 4, and it is then in one of the two phases.
      have hstep := ProfilePositionMode.step_handshake p.fields inp q.outputs
        (q.feedback p inp) (routedProfile inp b s.activeGeneration m)
      rw [hmotion, motionStep, hq, routedMotion_profile inp b hm]
      rw [hcw, motionStep, hq, routedMotion_profile inp b hm] at hhigh
      rw [show (ProfilePositionMode.step p.fields (routedProfile inp b s.activeGeneration m) inp
        q.outputs (q.feedback p inp)).controlword.bit4 = true from hhigh] at hstep
      exact hstep.phase_of_high

/-- The mode's echo test is the controller's. -/
theorem echoed_feedback (q : Controller) (m : ProfilePositionMode) :
    m.echoed (q.feedback p inp) = modeEchoed p inp m.intent := by
  unfold ProfilePositionMode.echoed modeEchoed feedback
  cases p.fields.modeDisplay <;> rfl

/-- Once the batch is routed, the mode of a live move is where the watch says. -/
theorem tracks_routed {w : SetpointWatch} (hinv : SetpointInv (s, w))
    (hsteady : t.inp.stopping = false)
    (hlive : (s.stepLifecycle p t.inp (drain t.drained)).1.moveActive = true) :
    Tracks (s.routedMotion t.inp (drain t.drained)) (adoptedWatch s t w).phase := by
  obtain ⟨m, hm, -⟩ : ∃ m, s.motion = .profile m ∧ m.sequencer.FlagSound := hinv.profile
  rcases exists_or_forall_not (Adopts (drain t.drained) s.activeGeneration) with
    ⟨u, hu⟩ | hno
  · rw [adoptedWatch_of_adopts hsteady hu]
    exact .inl ((setpointPending_routed _ hm).mpr (.inr ⟨u, hu.1, hu.2⟩))
  · -- Routing without a new target neither adds a set-point nor touches the handshake.
    have hpend : (s.routedMotion t.inp (drain t.drained)).setpointPending
        = s.motion.setpointPending := by
      rw [Bool.eq_iff_iff, setpointPending_routed _ hm, SetpointWaits, or_iff_left]
      rintro ⟨u, hu⟩
      exact hno u hu
    have hbefore := hinv.phase (live_before_of_live_after hno hlive).1
    rw [adoptedWatch_of_not_adopts hsteady hno]
    exact tracks_congr hpend (handshake_routed hm) hbefore

/-- `s'` has the mode, the lifecycle state and the controlword of a step. -/
structure Written (r : Controller × ControlWord) (s' : Controller) : Prop where
  motion : s'.motion = r.1.motion
  lifecycle : s'.lifecycle = r.1.lifecycle
  lastCw : s'.lastCw = r.2

/-- Under the condition, a step that leaves a move live keeps the routed mode, without
handing a set-point over, or steps it. -/
theorem live_cases {m : ProfilePositionMode} {s' : Controller} (hm : s.motion = .profile m)
    (hsteady : inp.stopping = false) (hkept : StillLive s b → ¬ ResetsMode p s inp b)
    (hlive : (s.stepLifecycle p inp b).1.moveActive = true)
    (hw : Written (s.stepLifecycle p inp b) s') :
    ¬ (s.lifecycle = .operational ∧ Faulted inp) ∧
    ((s'.motion = s.routedMotion inp b ∧ ¬ HandsOver p s inp b ∧
        (s'.lifecycle = .operational → s'.lastCw.bit4 = false)) ∨
      (∃ q : Controller, s.lifecycle = .operational ∧
        Stepped p.fields inp q.outputs (q.feedback p inp)
          (routedProfile inp b s.activeGeneration m) s s' ∧
        (HandsOver p s inp b ↔ (routedProfile inp b s.activeGeneration m).echoed
          (q.feedback p inp) = true))) := by
  obtain ⟨hzero, hcompleted, hnotfailed⟩ := live_after_iff.mp hlive
  cases stepLifecycle_outcome p s inp b with
  | kept hmotion _ hwhere =>
      rw [hw.motion, hw.lifecycle, hw.lastCw]
      rcases hwhere with ⟨hfrom, hto, -⟩ | ⟨hfrom, -, -, hcw⟩ | ⟨-, -, hquick, hcw, hnf, -⟩
      · exact ⟨fun h => hfrom h.1, .inl ⟨hmotion, fun h => hfrom h.1, fun h => absurd h hto⟩⟩
      · refine ⟨fun h => ?_, .inl ⟨hmotion, fun h => ?_, fun _ => ?_⟩⟩
        · simp [hfrom] at h
        · simp [HandsOver, hfrom] at h
        · rw [hcw, fsmStep_bit4]
      · refine ⟨fun h => hnf h.2, .inl ⟨hmotion, fun h => ?_, fun _ => ?_⟩⟩
        · simp [HandsOver, hquick] at h
        · rw [hcw]
          decide
  | reset _ _ _ hwhere => exact absurd hwhere (hkept (stillLive_of_live hlive))
  | faulted _ hfailed =>
      rw [hfailed, if_pos ⟨hzero, hcompleted⟩] at hnotfailed
      exact absurd rfl hnotfailed
  | stepped q hq hmotion hcw hfailed hfrom hto hfault hdis hhom hquick =>
      rw [motionStep, hq, routedMotion_profile _ _ hm] at hmotion hcw hfailed
      refine ⟨fun h => hfault h.2, .inr ⟨q, hfrom, ?_, ?_⟩⟩
      · refine ⟨?_, hw.motion.trans hmotion, hw.lastCw.trans hcw, hw.lifecycle.trans hto,
          hsteady, fun h => hfault (.inl h), ?_⟩
        · rw [routedProfile_sequencer, hm]
          rfl
        · -- A failure of the step would have failed the live move.
          by_contra hne
          rw [hfailed, if_pos ⟨hne, hzero, hcompleted⟩] at hnotfailed
          exact absurd rfl hnotfailed
      · rw [echoed_feedback]
        simp [HandsOver, hfrom, hfault, hdis, hhom, hquick, routedMotion_profile _ _ hm,
          MotionMode.commandedMode]

/-- Under the condition, the mode of a live move is where the watch says after a step. -/
theorem tracks_lifecycle {w : SetpointWatch} {s' : Controller} (hinv : SetpointInv (s, w))
    (hsteady : t.inp.stopping = false) (hsound : SteadySound p s t.inp (drain t.drained))
    (hlive : (s.stepLifecycle p t.inp (drain t.drained)).1.moveActive = true)
    (hw : Written (s.stepLifecycle p t.inp (drain t.drained)) s') :
    Tracks s'.motion ((adoptedWatch s t w).phase.next s s' t.inp.status) := by
  obtain ⟨m, hm, -⟩ : ∃ m, s.motion = .profile m ∧ m.sequencer.FlagSound := hinv.profile
  have hrouted := tracks_routed hinv hsteady hlive
  obtain ⟨-, ⟨hmotion, -, hlow⟩ | ⟨q, hfrom, hstep, hover⟩⟩ :=
    live_cases hm hsteady hsound.kept hlive hw
  · rw [next_of_held _ (by rw [hmotion, handshake_routed hm]) hlow, hmotion]
    exact hrouted
  · rw [routedMotion_profile _ _ hm] at hrouted
    by_cases hwait : (adoptedWatch s t w).phase = .waiting
    · rw [hwait] at hrouted ⊢
      refine tracks_step_waiting hstep hrouted ?_
      rintro (hwt | ⟨hpend, hecho⟩) hon hmode hsettled
      · -- An armed set-point is alone on the wire.
        by_contra hhigh
        rcases hinv.wire hfrom (by simpa using hhigh) with h | h <;> rw [hwt] at h <;> cases h
      · -- The set-point is handed over in this cycle: the condition gives the edge.
        have hwaits : SetpointWaits s (drain t.drained) := by
          rw [← setpointPending_routed t.inp hm, routedMotion_profile _ _ hm]
          exact hpend
        rcases hsound.edged (stillLive_of_live hlive) hwaits (hover.mpr hecho) with
          h | h | h | h
        · exact h
        · rw [hon] at h
          cases h
        · rw [routedMotion_profile _ _ hm] at h
          exact absurd h hmode
        · rw [hm, MotionMode.haltSettled, decide_eq_false_iff_not] at h
          rw [routedProfile_sequencer] at hsettled
          exact absurd hsettled h
    · exact tracks_step_handed hstep hwait hrouted

/-- Under the condition, the drive does not report its target reached while the set-point of
a live move is pending. -/
theorem unreported_lifecycle {m : ProfilePositionMode} {s' : Controller}
    (hm : s.motion = .profile m) (hsteady : inp.stopping = false)
    (hsound : SteadySound p s inp b) (hlive : (s.stepLifecycle p inp b).1.moveActive = true)
    (hw : Written (s.stepLifecycle p inp b) s') (hpend : s'.motion.setpointPending = true)
    (hmode : s'.motion.commandedMode = .profilePosition) : ¬ ReportsReached inp := by
  have hstill := stillLive_of_live hlive
  obtain ⟨hfault, ⟨hmotion, hover, -⟩ | ⟨q, -, hstep, hover⟩⟩ :=
    live_cases hm hsteady hsound.kept hlive hw
  · rw [hmotion] at hpend hmode
    exact hsound.unreported hstill ((setpointPending_routed inp hm).mp hpend) hmode hover hfault
  · -- Still pending after a step, so the echo lagged and nothing was handed over.
    rw [hstep.pending, Bool.and_eq_true, Bool.not_eq_true'] at hpend
    refine hsound.unreported hstill ?_ ?_ ?_ hfault
    · rw [← setpointPending_routed inp hm, routedMotion_profile _ _ hm]
      exact hpend.2
    · rw [routedMotion_profile _ _ hm, ← hmode, hstep.after]
      exact (ProfilePositionMode.step_intent _ _ _ hstep.adopted).symm
    · rw [hover, hpend.1]
      decide

/-- A mode that reports its target reached on bit 10 runs in profile position with the
handshake Idle. -/
theorem idle_of_reached {q : Controller} {m : ProfilePositionMode} (hm : q.motion = .profile m)
    (hflag : m.sequencer.FlagSound) (husable : p.targetReachedBitUsable = true)
    (h : q.motion.isTargetReached (q.feedback p inp) = true) :
    q.motion.handshake = .idle ∧ q.motion.commandedMode = .profilePosition ∧
      inp.status.targetReached = true := by
  rw [hm] at h ⊢
  simp only [MotionMode.isTargetReached, ProfilePositionMode.isTargetReached, feedback,
    husable, if_true] at h
  split_ifs at h with hnot
  push Not at hnot
  refine ⟨?_, hnot.1, h⟩
  have hidle : m.sequencer.state.handshakeIdle = true := by simpa using hnot.2
  rw [hflag, decide_eq_true_eq] at hidle
  exact hidle

/-- A live move whose mode reports its target reached has a settled set-point, when none is
pending. -/
theorem settled_of_reached {q : Controller} {ar : Bool} {ph : SetpointPhase}
    (hprofile : ∃ m, q.motion = .profile m ∧ m.sequencer.FlagSound)
    (husable : p.targetReachedBitUsable = true) (htrack : Tracks q.motion ph)
    (hon : inp.status.operationEnabled = true)
    (hpending : q.motion.setpointPending = true →
      q.motion.commandedMode = .profilePosition → ¬ ReportsReached inp)
    (h : q.motion.isTargetReached ({ q with atRest := ar }.feedback p inp) = true) :
    ph = .settled := by
  obtain ⟨m, hm, hflag⟩ := hprofile
  obtain ⟨hidle, hmode, hreached⟩ :=
    idle_of_reached (q := { q with atRest := ar }) hm hflag husable h
  cases ph with
  | waiting =>
      rcases htrack with hp | hwt
      · exact absurd ⟨hon, hreached⟩ (hpending hp hmode)
      · exact absurd (hwt.symm.trans hidle) (by decide)
  | edged => exact absurd (htrack.2.symm.trans hidle) (by decide)
  | acknowledged =>
      rcases htrack.2 with h | h <;> exact absurd (h.symm.trans hidle) (by decide)
  | settled => rfl

/-- Publishing keeps the invariant of the state that it publishes, and completes only a
settled set-point. -/
theorem setpointInv_publish (s' : Controller) (inp : CycleInput) (ar : Bool) {q : Controller}
    {w : SetpointWatch}
    (hinv : SetpointInv (q, w)) (husable : p.targetReachedBitUsable = true)
    (hpending : q.moveActive = true → q.motion.setpointPending = true →
      q.motion.commandedMode = .profilePosition → ¬ ReportsReached inp)
    (hmotion : s'.motion = q.motion) (hactive : s'.activeGeneration = q.activeGeneration)
    (hfailed : s'.failedGeneration = q.failedGeneration) (hlife : s'.lifecycle = q.lifecycle)
    (hcw : s'.lastCw = q.lastCw)
    (hdef : s'.completedGeneration = if inp.status.operationEnabled && q.moveActive &&
      q.motion.isTargetReached ({ q with atRest := ar }.feedback p inp)
      then q.activeGeneration else q.completedGeneration) :
    SetpointInv (s', w) ∧ (s'.completedGeneration ≠ q.completedGeneration →
      w = ⟨s'.completedGeneration, .settled⟩) := by
  have hlive : s'.moveActive = true → q.moveActive = true := by
    refine moveActive_of_publish hactive hfailed ?_
    rw [hdef]
    split_ifs <;> simp
  refine ⟨⟨?_, hactive.trans hinv.active, ?_, ?_⟩, fun hne => ?_⟩
  · rw [hmotion]
    exact hinv.profile
  · rw [hlife, hcw, hmotion]
    exact hinv.wire
  · intro h
    rw [hmotion]
    exact hinv.phase (hlive h)
  · split_ifs at hdef with hc
    · simp only [Bool.and_eq_true] at hc
      have hsettled := settled_of_reached hinv.profile husable (hinv.phase hc.1.2) hc.1.1
        (hpending hc.1.2) hc.2
      have hgen : w.generation = s'.completedGeneration := hinv.active.symm.trans hdef.symm
      rw [← hgen, ← hsettled]
    · exact absurd hdef hne

/-- A cycle of the stopping window that meets the condition keeps the invariant. -/
theorem setpointInv_stopping {w : SetpointWatch} (husable : p.targetReachedBitUsable = true)
    (hinv : SetpointInv (s, w)) (hstop : t.inp.stopping = true) (hsound : SetpointSound p s t) :
    SetpointInv (observeSetpoint p (s, w) t) ∧ CompletesAcknowledged p (s, w) t := by
  obtain ⟨m, hm, hflag⟩ : ∃ m, s.motion = .profile m ∧ m.sequencer.FlagSound := hinv.profile
  obtain ⟨te, ph, ar, wk, out, sr, -, hc⟩ := cycle_stopping (p := p) (s := s) hstop
  have hnext : (shutdownStep p s t.inp).next =
      .profile (m.stepShutdown p.fields t.inp s.outputs).next := by
    unfold shutdownStep
    rw [hm]
    rfl
  obtain ⟨hphase, hpend, hintent⟩ := m.stepShutdown_frame p.fields t.inp s.outputs hstop
  have hlow : (shutdownStep p s t.inp).controlword.bit4 = false := shutdownStep_bit4 hstop
  have hhand : (shutdownStep p s t.inp).next.handshake = s.motion.handshake := by
    rw [hnext, hm]
    exact hphase
  -- Nothing that the watch looks at moves.
  have hwatch : nextWatch p s t w = w := by
    have hadopted : adoptedWatch s t w = w := by simp [adoptedWatch, hstop]
    have hmotion' : (cycle p s t).motion = (shutdownStep p s t.inp).next :=
      cycle_motion_stopping hstop
    have hcw' : (cycle p s t).lastCw = (shutdownStep p s t.inp).controlword := by rw [hc]
    have hheld := next_of_held t.inp.status (hmotion' ▸ hhand) (fun _ => hcw' ▸ hlow) w.phase
    simp only [nextWatch, hadopted, hheld]
  have hq : SetpointInv ({ s with
      motion := (shutdownStep p s t.inp).next
      lastCw := (shutdownStep p s t.inp).controlword }, w) := by
    refine ⟨⟨_, hnext, ?_⟩, hinv.active, ?_, ?_⟩
    · exact m.flagSound_stepShutdown p.fields t.inp s.outputs hflag
    · intro _ hhigh
      exact absurd (hlow.symm.trans hhigh) (by decide)
    · intro hlive
      refine tracks_congr ?_ hhand (hinv.phase hlive)
      rw [hnext, hm]
      exact hpend
  have hpending : s.moveActive = true → (shutdownStep p s t.inp).next.setpointPending = true →
      (shutdownStep p s t.inp).next.commandedMode = .profilePosition →
      ¬ ReportsReached t.inp := by
    intro hlive hp hmode
    rw [hnext] at hp hmode
    simp only [SetpointSound, hstop, if_true, hm] at hsound
    exact hsound hlive (hpend.symm.trans hp) (hintent.symm.trans hmode)
  have := setpointInv_publish (p := p) (cycle p s t) t.inp ar hq husable
    hpending (by rw [hc]) (by rw [hc]) (by rw [hc]) (by rw [hc]) (by rw [hc]) (by rw [hc]; rfl)
  simpa only [observeSetpoint, CompletesAcknowledged, hwatch] using this

/-- A steady cycle that meets the condition keeps the invariant. -/
theorem setpointInv_steady {w : SetpointWatch} (husable : p.targetReachedBitUsable = true)
    (hinv : SetpointInv (s, w)) (hsteady : t.inp.stopping = false)
    (hsound : SteadySound p s t.inp (drain t.drained)) :
    SetpointInv (observeSetpoint p (s, w) t) ∧ CompletesAcknowledged p (s, w) t := by
  obtain ⟨te, ph, ar, wk, out, -, hc⟩ := cycle_steady (p := p) (s := s) hsteady
  have hinv' : SetpointInv (s.sample t.inp, w) :=
    ⟨hinv.profile, hinv.active, hinv.wire, hinv.phase⟩
  have hsound' : SteadySound p (s.sample t.inp) t.inp (drain t.drained) :=
    ⟨hsound.kept, hsound.unreported, hsound.edged⟩
  obtain ⟨m, hm, -⟩ : ∃ m, s.motion = .profile m ∧ m.sequencer.FlagSound := hinv.profile
  obtain ⟨m', hm', hflag⟩ := profile_lifecycle p t.inp (drain t.drained) hinv'.profile
  have hsettled := settledMotion_profile t.inp.actual hm'
  -- A profile mode has nothing to track, so the published mode is the stepped one.
  have hw : Written (lifecycleStep p s t.inp (drain t.drained)) (cycle p s t) :=
    ⟨by rw [hc, ← hsettled], by rw [hc], by rw [hc]⟩
  have hq : SetpointInv ({ (lifecycleStep p s t.inp (drain t.drained)).1 with
      motion := settledMotion (lifecycleStep p s t.inp (drain t.drained)).1 t.inp.actual
      lastCw := (lifecycleStep p s t.inp (drain t.drained)).2 }, nextWatch p s t w) := by
    refine ⟨⟨m', hsettled.trans hm', hflag⟩, ?_, ?_, ?_⟩
    · refine (stepLifecycle_ids ..).1.trans ?_
      rcases exists_or_forall_not (Adopts (drain t.drained) s.activeGeneration) with
        ⟨u, hu⟩ | hno
      · have hgen : (nextWatch p s t w).generation = u.generation := by
          simp only [nextWatch, adoptedWatch_of_adopts hsteady hu]
        exact (routedActive_of_adopts (s := s.sample t.inp) hu).trans hgen.symm
      · have hgen : (nextWatch p s t w).generation = w.generation := by
          simp only [nextWatch, adoptedWatch_of_not_adopts hsteady hno]
        exact ((routedActive_of_not_adopts (s := s.sample t.inp) hno).trans hinv.active).trans
          hgen.symm
    · intro hop hhigh
      simp only [hsettled]
      exact wire_lifecycle (s := s.sample t.inp) hm hop hhigh
    · intro hlive
      have htrack := tracks_lifecycle hinv' hsteady hsound' hlive hw
      rw [hw.motion, ← hsettled] at htrack
      exact htrack
  have := setpointInv_publish (p := p) (cycle p s t) t.inp ar hq husable
    (fun hlive hpend hmode => unreported_lifecycle (s := s.sample t.inp) hm hsteady hsound'
      hlive hw (by rw [hc]; exact hpend) (by rw [hc]; exact hmode))
    (by rw [hc]) (by rw [hc]) (by rw [hc]) (by rw [hc]) (by rw [hc]) (by rw [hc]; rfl)
  have hcompleted : (lifecycleStep p s t.inp (drain t.drained)).1.completedGeneration
      = s.completedGeneration := (stepLifecycle_ids ..).2
  simpa only [observeSetpoint, CompletesAcknowledged, hcompleted] using this

/-- In profile mode on a drive whose bit 10 is usable, a run whose cycles all meet
`SetpointSound` completes a move only after its own set-point was edged, acknowledged and
settled. -/
theorem profile_completion_sound (p : RtParams) (husable : p.targetReachedBitUsable = true)
    (s₀ : Controller) (m₀ : ProfilePositionMode) (hprofile : s₀.motion = .profile m₀)
    (bringup : List CycleInput) (ticks : List Tick)
    (hsound : AllSteps (cycle p) (SetpointSound p) (spawned p s₀ bringup) ticks) :
    AllSteps (observeSetpoint p) (CompletesAcknowledged p)
      (spawned p s₀ bringup, ⟨0, .waiting⟩) ticks := by
  have hproj : ∀ st t, (observeSetpoint p st t).1 = cycle p st.1 t := fun _ _ => rfl
  refine allSteps_of_invariant (setpointInv_spawned hprofile bringup) ?_
    ((allSteps_proj (x := (spawned p s₀ bringup, (⟨0, .waiting⟩ : SetpointWatch))) hproj).mpr
      hsound)
  rintro ⟨s, w⟩ t hinv hs
  cases hstop : t.inp.stopping with
  | true => exact setpointInv_stopping husable hinv hstop hs
  | false =>
      refine setpointInv_steady husable hinv hstop ?_
      simpa only [SetpointSound, hstop, Bool.false_eq_true, if_false] using hs

/-- A run that sends a move, acknowledges it and completes it. -/
def profileRun : List Tick :=
  climb 1 7 ++ [tick 0x0027#16 1 7 [.setTarget ⟨100, 500, false, 1⟩], tick 0x1027#16 1 7 [],
    tick 0x1027#16 1 7 [], tick 0x0027#16 1 7 [], tick 0x0427#16 1 100 []]

/-- The condition is met by a run that completes its move. -/
theorem profile_completion_acknowledged :
    (runFrom (cycle profileBench) (spawned profileBench profileController [])
        profileRun).completedGeneration = 1 ∧
      AllSteps (observeSetpoint profileBench) (CompletesAcknowledged profileBench)
        (spawned profileBench profileController [], ⟨0, .waiting⟩) profileRun :=
  ⟨by decide +kernel, profile_completion_sound profileBench rfl profileController _ rfl []
    profileRun (by decide +kernel)⟩

/-- A target adopted while the drive still runs and echoes profile velocity completes in the
same cycle on the bit 10 of the velocity run, with no set-point sent. -/
theorem profile_completes_unsent : ¬ ∀ (p : RtParams), p.targetReachedBitUsable = true →
    ∀ (s₀ : Controller) (m₀ : ProfilePositionMode), s₀.motion = .profile m₀ →
    ∀ (bringup : List CycleInput) (ticks : List Tick),
    AllSteps (observeSetpoint p) (CompletesAcknowledged p)
      (spawned p s₀ bringup, ⟨0, .waiting⟩) ticks := by
  intro h
  have hrun := h profileBench rfl profileController _ rfl []
    (climb 1 7 ++ [tick 0x0027#16 1 7 [.setVelocity 500], tick 0x0427#16 3 7 [],
      tick 0x0427#16 3 7 [.setTarget ⟨100000, 500, false, 1⟩]])
  revert hrun
  decide +kernel

end ViamEthercat.Servo
