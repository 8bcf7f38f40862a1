import ViamEthercat.Proofs.Step
import ViamEthercat.Proofs.Motion
import ViamEthercat.Lib.Run

/-!
# `ViamEthercat.Proofs.CspCompletion`: completion of a cyclic move

`csp_completion_sound`: in cyclic mode, a run completes a move only within the position
tolerance of the count its target asked for, when every cycle of it meets `SoundCycle`:

* a target is adopted where the loop keeps its goal: in Operational without a Disable or a
  homing request in the same drain, in the cycle in which the ladder reaches Operational, or
  in an Operational cycle that sees a fault and so fails the move at once. The generator
  accepts the goal, and the count fits the wire;
* a homing request does not reset the generator under a live move;
* the stopping window does not stop or reseed the generator under a live move.

Outside these cycles the goal is lost and the move stays live. Outside Operational `track`
reseeds the generator to the shaft every cycle, so the generator is idle at the actual
position, and the move completes there. `csp_completes_far` is such a run.

`Request` is the observer: the move that was adopted last, and the absolute count its target
asked for. `CspInv` is the invariant: outside Operational no move is live, and the goal of a
live move is the requested count.
-/

set_option autoImplicit false

namespace ViamEthercat.Servo

open Lib Controller

variable {p : RtParams} {s : Controller} {inp : CycleInput} {b : CommandBatch} {t : Tick}

/-! ### The requested count -/

/-- The move adopted last, and the absolute count that its target asked for. -/
structure Request where
  generation : Nat
  count : Int
deriving DecidableEq, Repr

/-- The count a target asks for, as an integer: a relative one adds to the actual position. -/
def requestedCount (actual : Int32) (u : SetTarget) : Int :=
  if u.relative then actual.toInt + u.counts.toInt else u.counts.toInt

/-- The request after a cycle: a drained target of another move replaces it. -/
def nextRequest (s : Controller) (t : Tick) (r : Request) : Request :=
  if t.inp.stopping then r
  else match (drain t.drained).setTarget with
    | some u =>
        if u.generation ≠ s.activeGeneration then
          ⟨u.generation, requestedCount t.inp.actual u⟩
        else r
    | none => r

/-- The run with its observer. -/
def observeRequest (p : RtParams) (st : Controller × Request) (t : Tick) :
    Controller × Request :=
  (cycle p st.1 t, nextRequest st.1 t st.2)

/-- A move completed in this cycle is the requested one, and the actual position is within
the tolerance of its count. -/
def CompletesNear (p : RtParams) (st : Controller × Request) (t : Tick) : Prop :=
  (cycle p st.1 t).completedGeneration ≠ st.1.completedGeneration →
    (cycle p st.1 t).completedGeneration = (nextRequest st.1 t st.2).generation ∧
      |t.inp.actual.toInt - (nextRequest st.1 t st.2).count| ≤ p.positionToleranceCounts.toInt

instance (st : Controller × Request) : Decidable (CompletesNear p st t) :=
  inferInstanceAs (Decidable (_ → _))

/-! ### The condition of a cycle -/

/-- The generator accepts the target, and its count fits the wire. -/
def GoalAccepted (m : MotionMode ℚ) (actual : Int32) (u : SetTarget) : Prop :=
  match m with
  | .profile _ => True
  | .cyclic m => 0 < u.profileVelocity.toNat ∧ 0 < m.accel ∧
      (requested actual u).toInt = requestedCount actual u

instance (m : MotionMode ℚ) (actual : Int32) (u : SetTarget) :
    Decidable (GoalAccepted m actual u) :=
  match m with
  | .profile _ => isTrue trivial
  | .cyclic _ => inferInstanceAs (Decidable (_ ∧ _))

/-- The target is adopted where its goal is kept, or where its move is failed at once. -/
def AdoptionHolds (p : RtParams) (s : Controller) (t : Tick) (u : SetTarget) : Prop :=
  (s.lifecycle = .operational ∧ Faulted t.inp) ∨
    (((s.lifecycle = .operational ∧ (drain t.drained).disable = false ∧
        (drain t.drained).startHoming.isNone = true) ∨
      (s.lifecycle = .enabling ∧ LadderTop p t.inp s.motion)) ∧
    GoalAccepted s.motion t.inp.actual u)

instance (u : SetTarget) : Decidable (AdoptionHolds p s t u) :=
  inferInstanceAs (Decidable (_ ∨ _))

/-- The stopping window leaves the goal of the mode alone. -/
def GoalLeftAlone (m : MotionMode ℚ) (inp : CycleInput) : Prop :=
  match m with
  | .profile _ => True
  | .cyclic m => m.positioning = true →
      m.generator.phase = .idle ∧ inp.status.operationEnabled = true ∧ inp.status.fault = false

instance (m : MotionMode ℚ) : Decidable (GoalLeftAlone m inp) :=
  match m with
  | .profile _ => isTrue trivial
  | .cyclic _ => inferInstanceAs (Decidable (_ → _))

/-- The condition on one cycle: a target is adopted where its goal is kept, and neither a
homing request nor the stopping window takes the goal from a live move. -/
def SoundCycle (p : RtParams) (s : Controller) (t : Tick) : Prop :=
  if t.inp.stopping then s.moveActive = true → GoalLeftAlone s.motion t.inp
  else
    (∀ u ∈ (drain t.drained).setTarget, u.generation ≠ s.activeGeneration →
      AdoptionHolds p s t u) ∧
    (s.lifecycle = .operational → ¬ Faulted t.inp →
      (drain t.drained).startHoming.isSome = true → s.moveActive = true →
      (drain t.drained).halt = true ∨ (drain t.drained).disable = true)

instance : Decidable (SoundCycle p s t) := inferInstanceAs (Decidable (ite _ _ _))

/-! ### The goal of a routed batch -/

/-- The goal of a positioning generator is the requested count. -/
def HoldsGoal (m : CyclicPositionMode ℚ) (count : Int) : Prop :=
  m.positioning = true → m.generator.phase ≠ .velocity ∧ m.generator.goal.toInt = count

/-- A velocity that is accepted makes the mode a velocity run, one that is refused changes
nothing. -/
theorem holdsGoal_setVelocity {m : CyclicPositionMode ℚ} {count : Int} (v : Int32)
    (h : HoldsGoal m count) : HoldsGoal (m.setVelocity v) count := by
  unfold CyclicPositionMode.setVelocity
  -- Accepted, the mode is no longer positioning and the statement is void.
  by_cases ha : 0 < m.accel
  · have hok : (m.generator.setVelocity (v.toInt : ℚ) m.accel).2 = true :=
      TrapezoidGenerator.setVelocity_accepted ha
    split
    · intro hp
      cases hp
    · simp_all
  · rw [TrapezoidGenerator.setVelocity_refused ha]
    exact h

/-- An accepted target becomes the goal. -/
theorem holdsGoal_goTo {m : CyclicPositionMode ℚ} {x : Int32} {v : UInt32}
    (hv : 0 < v.toNat) (ha : 0 < m.accel) : HoldsGoal (m.goTo x v) x.toInt := by
  have hok : 0 < (v.toNat : ℚ) ∧ 0 < m.accel := ⟨by exact_mod_cast hv, ha⟩
  unfold CyclicPositionMode.goTo TrapezoidGenerator.setGoal
  simp only [hok, and_self, dif_pos]
  exact fun _ => ⟨by simp, rfl⟩

/-- After an adopted target that the generator accepts, the mode holds its count. -/
theorem holdsGoal_routed_adopts {m : CyclicPositionMode ℚ} {u : SetTarget} {active : Nat}
    (hu : Adopts b active u) (hacc : GoalAccepted (.cyclic m) inp.actual u) :
    HoldsGoal (routedCyclic inp b active m) (requestedCount inp.actual u) := by
  obtain ⟨hv, ha, hfits⟩ := hacc
  have hgo (m' : CyclicPositionMode ℚ) (ha : 0 < m'.accel) :
      HoldsGoal (m'.goTo (requested inp.actual u) u.profileVelocity)
        (requestedCount inp.actual u) := by
    -- The wire count is the requested one, so no wrap hides a far goal.
    rw [← hfits]
    exact holdsGoal_goTo hv ha
  unfold routedCyclic
  simp only [hu.1, hu.2, ne_eq, not_false_eq_true, if_true]
  split_ifs <;> cases b.setVelocity <;>
    first
    | exact hgo _ ha
    | exact holdsGoal_setVelocity _ (hgo _ ha)

/-- Without an adopted target or a halt, the mode keeps what it holds. -/
theorem holdsGoal_routed_kept {m : CyclicPositionMode ℚ} {active : Nat} {count : Int}
    (hno : ∀ u, ¬ Adopts b active u) (hhalt : b.halt = false) (h : HoldsGoal m count) :
    HoldsGoal (routedCyclic inp b active m) count := by
  unfold routedCyclic
  simp only [hhalt, Bool.false_eq_true, false_and, if_false]
  cases ht : b.setTarget with
  | none =>
      cases b.setVelocity with
      | none => exact h
      | some v => exact holdsGoal_setVelocity v h
  | some u =>
      have hsame : u.generation = active := not_not.mp fun hne => hno u ⟨ht, hne⟩
      simp only [hsame, ne_eq, not_true_eq_false, if_false]
      cases b.setVelocity with
      | none => exact h
      | some v => exact holdsGoal_setVelocity v h

/-- A step toward the goal keeps it. -/
theorem holdsGoal_step {m : CyclicPositionMode ℚ} {count : Int} (sqrt : ℚ → ℚ) (f : Fields)
    (out : Outputs) (h : HoldsGoal m count) : HoldsGoal (m.step sqrt f out).next count := by
  intro hp
  obtain ⟨hphase, hgoal⟩ := h hp
  unfold CyclicPositionMode.step TrapezoidGenerator.step
  dsimp only
  split_ifs
  · exact ⟨hphase, hgoal⟩
  · unfold TrapezoidGenerator.stepPositioning
    dsimp only
    split_ifs <;> simp_all
  · cases hph : m.generator.phase <;> simp_all

/-! ### The invariant -/

/-- The request is the active move's. Outside Operational no move is live, and a live move
has its goal. -/
structure CspInv (st : Controller × Request) : Prop where
  cyclic : ∃ m, st.1.motion = .cyclic m
  active : st.1.activeGeneration = st.2.generation
  outside : st.1.lifecycle ≠ .operational → st.1.moveActive = false
  goal : st.1.moveActive = true → ∀ m, st.1.motion = .cyclic m → HoldsGoal m st.2.count

theorem cspInv_spawned {m : CyclicPositionMode ℚ} (hm : s.motion = .cyclic m)
    (bringup : List CycleInput) : CspInv (spawned p s bringup, ⟨0, 0⟩) := by
  have hcyclic : ∃ m, (spawned p s bringup).motion = .cyclic m := spawned_cyclic hm bringup
  have hactive : (spawned p s bringup).activeGeneration = 0 :=
    spawned_induction (P := fun s => s.activeGeneration = 0) rfl fun _ _ h => h
  have hzero : (spawned p s bringup).moveActive = false := by
    simp [moveActive, hactive]
  exact ⟨hcyclic, hactive, fun _ => hzero, fun hlive => by simp [hzero] at hlive⟩

/-- The request of a steady cycle. -/
theorem nextRequest_of_adopts {r : Request} {u : SetTarget} (hsteady : t.inp.stopping = false)
    (hu : Adopts (drain t.drained) s.activeGeneration u) :
    nextRequest s t r = ⟨u.generation, requestedCount t.inp.actual u⟩ := by
  simp [nextRequest, hsteady, hu.1, hu.2]

theorem nextRequest_of_not_adopts {r : Request} (hsteady : t.inp.stopping = false)
    (hno : ∀ u, ¬ Adopts (drain t.drained) s.activeGeneration u) : nextRequest s t r = r := by
  unfold nextRequest
  simp only [hsteady, Bool.false_eq_true, if_false]
  cases ht : (drain t.drained).setTarget with
  | none => rfl
  | some u =>
      have : u.generation = s.activeGeneration := not_not.mp fun hne => hno u ⟨ht, hne⟩
      simp [this]

/-- The commanded mode of a cyclic drive does not depend on its commands. -/
theorem ladderTop_routed {m : CyclicPositionMode ℚ} (hm : s.motion = .cyclic m) :
    LadderTop p inp (s.routedMotion inp b) ↔ LadderTop p inp s.motion := by
  rw [routedMotion_cyclic inp b hm, hm]
  rfl

/-- Under the condition, the move that is live after a step is in Operational. -/
theorem operational_of_live {r : Request} (hinv : CspInv (s, r))
    (hsteady : t.inp.stopping = false) (hsound : SoundCycle p s t)
    (hlive : (s.stepLifecycle p t.inp (drain t.drained)).1.moveActive = true) :
    (s.stepLifecycle p t.inp (drain t.drained)).1.lifecycle = .operational ∧
      ¬ (s.lifecycle = .operational ∧ Faulted t.inp) := by
  obtain ⟨m, hm⟩ := hinv.cyclic
  simp only [SoundCycle, hsteady, Bool.false_eq_true, if_false, Option.mem_def] at hsound
  obtain ⟨hadopt, hhoming⟩ := hsound
  obtain ⟨hzero, hcompleted, hnotfailed⟩ := live_after_iff.mp hlive
  -- Where the step may come from, for a live move.
  have hfrom : (s.lifecycle = .operational ∧ (drain t.drained).disable = false ∧
        ((drain t.drained).startHoming.isSome = true → Faulted t.inp)) ∨
      (s.lifecycle = .operational ∧ Faulted t.inp) ∨
      (s.lifecycle = .enabling ∧ LadderTop p t.inp s.motion) := by
    rcases exists_or_forall_not (Adopts (drain t.drained) s.activeGeneration) with
      ⟨u, hu⟩ | hno
    · rcases hadopt u hu.1 hu.2 with h | ⟨⟨hl, hd, hh⟩ | h, -⟩
      · exact .inr (.inl h)
      · exact .inl ⟨hl, hd, fun h => by simp_all⟩
      · exact .inr (.inr h)
    · -- Not adopted here, so the move was live before, which means in Operational.
      obtain ⟨hbefore, hhalt, hdis⟩ := live_before_of_live_after hno hlive
      have hl : s.lifecycle = .operational := by
        by_contra hl
        rw [hinv.outside hl] at hbefore
        cases hbefore
      refine .inl ⟨hl, hdis, fun hreq => ?_⟩
      by_contra hf
      simpa [hhalt, hdis] using hhoming hl hf hreq hbefore
  cases stepLifecycle_outcome p s t.inp (drain t.drained) with
  | kept _ _ hwhere =>
      rcases hwhere with ⟨hnl, -, htop, -⟩ | ⟨hl, hto, -⟩ | ⟨-, hto, -, -, hf, -⟩
      · rcases hfrom with ⟨hl, -⟩ | ⟨hl, -⟩ | ⟨hl, ht⟩
        · exact absurd hl hnl
        · exact absurd hl hnl
        · exact absurd ((ladderTop_routed hm).mpr ht) (htop hl)
      · exact ⟨hto, fun h => by simp [hl] at h⟩
      · exact ⟨hto, fun h => hf h.2⟩
  | reset _ _ _ hwhere =>
      -- Each reset is excluded by where a live move can come from.
      exfalso
      rcases hwhere with ⟨hl, hdec⟩ | ⟨hl, hf, hreq⟩ | ⟨hl, -⟩
      · rcases hfrom with ⟨hl', -⟩ | ⟨hl', -⟩ | ⟨-, ht⟩
        · simp [hl'] at hl
        · simp [hl'] at hl
        · rw [ht.1] at hdec
          cases hdec
      · rcases hfrom with ⟨-, hd, hh⟩ | ⟨-, hf'⟩ | ⟨hl', -⟩
        · rcases hreq with hreq | hreq
          · rw [hd] at hreq
            cases hreq
          · exact hf (hh hreq)
        · exact hf hf'
        · simp [hl'] at hl
      · rcases hfrom with ⟨hl', -⟩ | ⟨hl', -⟩ | ⟨hl', -⟩ <;> simp [hl'] at hl
  | faulted _ hfailed =>
      rw [hfailed, if_pos ⟨hzero, hcompleted⟩] at hnotfailed
      exact absurd rfl hnotfailed
  | stepped _ _ _ _ _ _ hto hf => exact ⟨hto, fun h => hf h.2⟩

/-- Under the condition, the mode of a live move holds the requested count after a step. -/
theorem holdsGoal_lifecycle {r : Request} (hinv : CspInv (s, r))
    (hsteady : t.inp.stopping = false) (hsound : SoundCycle p s t)
    (hlive : (s.stepLifecycle p t.inp (drain t.drained)).1.moveActive = true)
    {m : CyclicPositionMode ℚ}
    (hm' : (s.stepLifecycle p t.inp (drain t.drained)).1.motion = .cyclic m) :
    HoldsGoal m (nextRequest s t r).count := by
  obtain ⟨m₀, hm⟩ : ∃ m₀, s.motion = .cyclic m₀ := hinv.cyclic
  obtain ⟨hto, hnf⟩ := operational_of_live hinv hsteady hsound hlive
  -- The routed mode holds the count.
  have hrouted : HoldsGoal (routedCyclic t.inp (drain t.drained) s.activeGeneration m₀)
      (nextRequest s t r).count := by
    rcases exists_or_forall_not (Adopts (drain t.drained) s.activeGeneration) with
      ⟨u, hu⟩ | hno
    · rw [nextRequest_of_adopts hsteady hu]
      simp only [SoundCycle, hsteady, Bool.false_eq_true, if_false, Option.mem_def] at hsound
      rcases hsound.1 u hu.1 hu.2 with h | ⟨-, hacc⟩
      · exact absurd h hnf
      · exact holdsGoal_routed_adopts hu (hm ▸ hacc)
    · obtain ⟨hbefore, hhalt, -⟩ := live_before_of_live_after hno hlive
      rw [nextRequest_of_not_adopts hsteady hno]
      exact holdsGoal_routed_kept hno hhalt (hinv.goal hbefore m₀ hm)
  cases stepLifecycle_outcome p s t.inp (drain t.drained) with
  | kept hmotion =>
      rw [hm', routedMotion_cyclic _ _ hm] at hmotion
      cases hmotion
      exact hrouted
  | reset _ _ hne => exact absurd hto hne
  | faulted _ _ _ hne => rw [hto] at hne; cases hne
  | stepped q hq hmotion =>
      rw [hm', motionStep, hq, routedMotion_cyclic _ _ hm] at hmotion
      cases hmotion
      exact holdsGoal_step _ _ _ hrouted

/-- The stopping window leaves the mode of a live move as it is. -/
theorem holdsGoal_shutdown {m : CyclicPositionMode ℚ} {count : Int} (f : Fields) (out : Outputs)
    (hm : s.motion = .cyclic m) (h : GoalLeftAlone s.motion inp) (hgoal : HoldsGoal m count) :
    HoldsGoal (m.stepShutdown p.sqrt f out (s.feedback p inp)).next count := by
  intro hpos
  rw [CyclicPositionMode.stepShutdown_positioning] at hpos
  rw [hm] at h
  obtain ⟨hidle, hon, hfault⟩ := h hpos
  -- An idle generator on an energized drive has nothing to ramp in the window.
  have hsame : (m.stepShutdown p.sqrt f out (s.feedback p inp)).next = m := by
    simp [CyclicPositionMode.stepShutdown, feedback, hon, hfault, TrapezoidGenerator.idle, hidle]
  rw [hsame]
  exact hgoal hpos

/-- What a cyclic mode that reports its target reached shows: it is positioning, its
generator is idle and the actual position is within the tolerance of its goal. -/
theorem near_goal_of_reached {q : Controller} {m : CyclicPositionMode ℚ}
    (hm : q.motion = .cyclic m)
    (h : q.motion.isTargetReached (q.feedback p inp) = true) :
    m.positioning = true ∧
      |inp.actual.toInt - m.generator.goal.toInt| ≤ p.positionToleranceCounts.toInt := by
  rw [hm] at h
  simp only [MotionMode.isTargetReached, CyclicPositionMode.isTargetReached, feedback, hm,
    MotionMode.target, Bool.and_eq_true, decide_eq_true_eq] at h
  exact ⟨h.1.1.1, h.1.2⟩

/-- The move that is live when a cycle publishes completes near its count. -/
theorem near_of_completes {q : Controller} {count : Int} {ar : Bool}
    {completed : Nat} (hcyclic : ∃ m, q.motion = .cyclic m)
    (hgoal : q.moveActive = true → ∀ m, q.motion = .cyclic m → HoldsGoal m count)
    (hdef : completed = if inp.status.operationEnabled && q.moveActive &&
      q.motion.isTargetReached ({ q with atRest := ar }.feedback p inp)
      then q.activeGeneration else q.completedGeneration)
    (hne : completed ≠ q.completedGeneration) :
    completed = q.activeGeneration ∧
      |inp.actual.toInt - count| ≤ p.positionToleranceCounts.toInt := by
  split_ifs at hdef with hc
  · obtain ⟨m, hm⟩ := hcyclic
    simp only [Bool.and_eq_true] at hc
    obtain ⟨hpos, hnear⟩ := near_goal_of_reached (p := p)
      (q := { q with atRest := ar }) hm hc.2
    obtain ⟨-, hcount⟩ := hgoal hc.1.2 m hm hpos
    rw [hcount] at hnear
    exact ⟨hdef, hnear⟩
  · exact absurd hdef hne

/-- Publishing keeps the invariant of the state that it publishes, and completes near the
count. -/
theorem cspInv_publish (s' : Controller) (inp : CycleInput) (ar : Bool) {q : Controller}
    {r : Request} (hinv : CspInv (q, r))
    (hmotion : s'.motion = q.motion) (hactive : s'.activeGeneration = q.activeGeneration)
    (hfailed : s'.failedGeneration = q.failedGeneration) (hlife : s'.lifecycle = q.lifecycle)
    (hdef : s'.completedGeneration = if inp.status.operationEnabled && q.moveActive &&
      q.motion.isTargetReached ({ q with atRest := ar }.feedback p inp)
      then q.activeGeneration else q.completedGeneration) :
    CspInv (s', r) ∧ (s'.completedGeneration ≠ q.completedGeneration →
      s'.completedGeneration = r.generation ∧
        |inp.actual.toInt - r.count| ≤ p.positionToleranceCounts.toInt) := by
  have hlive : s'.moveActive = true → q.moveActive = true := by
    refine moveActive_of_publish hactive hfailed ?_
    rw [hdef]
    split_ifs <;> simp
  -- Only the completed move is written, which makes fewer moves live, not more.
  refine ⟨⟨?_, hactive.trans hinv.active, ?_, ?_⟩, fun hne => ?_⟩
  · obtain ⟨m, hm⟩ := hinv.cyclic
    exact ⟨m, hmotion.trans hm⟩
  · intro hl
    have hq : q.moveActive = false := hinv.outside fun h => hl (hlife.trans h)
    by_contra h
    simp [hlive (by simpa using h)] at hq
  · exact fun h m hm => hinv.goal (hlive h) m (hmotion.symm.trans hm)
  · obtain ⟨hgen, hnear⟩ := near_of_completes hinv.cyclic hinv.goal hdef hne
    exact ⟨hgen.trans hinv.active, hnear⟩

/-- A cycle that meets the condition keeps the invariant and completes near the count. -/
theorem cspInv_step (st : Controller × Request) (t : Tick) (hinv : CspInv st)
    (hsound : SoundCycle p st.1 t) :
    CspInv (observeRequest p st t) ∧ CompletesNear p st t := by
  obtain ⟨s, r⟩ := st
  obtain ⟨m, hm⟩ : ∃ m, s.motion = .cyclic m := hinv.cyclic
  cases hstop : t.inp.stopping with
  | true =>
      obtain ⟨te, ph, ar, w, out, sr, -, hc⟩ := cycle_stopping (p := p) (s := s) hstop
      have hreq : nextRequest s t r = r := by simp [nextRequest, hstop]
      have hshut : (shutdownStep p s t.inp).next =
          .cyclic (m.stepShutdown p.sqrt p.fields s.outputs (s.feedback p t.inp)).next := by
        unfold shutdownStep
        rw [hm]
        rfl
      have hq : CspInv ({ s with motion := (shutdownStep p s t.inp).next }, r) := by
        refine ⟨⟨_, hshut⟩, hinv.active, hinv.outside, fun hlive m' hm' => ?_⟩
        simp only [SoundCycle, hstop, if_true] at hsound
        -- The window keeps the lifecycle and the ids, so only the goal is at stake.
        cases hshut.symm.trans hm'
        exact holdsGoal_shutdown _ _ hm (hsound hlive) (hinv.goal hlive m hm)
      have := cspInv_publish (p := p) (cycle p s t) t.inp ar hq
        (by rw [hc]) (by rw [hc]) (by rw [hc]) (by rw [hc]) (by rw [hc]; rfl)
      simpa only [observeRequest, CompletesNear, hreq] using this
  | false =>
      obtain ⟨te, ph, ar, w, out, -, hc⟩ := cycle_steady (p := p) (s := s) hstop
      have hinv' : CspInv (s.sample t.inp, r) :=
        ⟨hinv.cyclic, hinv.active, hinv.outside, hinv.goal⟩
      have hsound' : SoundCycle p (s.sample t.inp) t := hsound
      have hq : CspInv ({ (lifecycleStep p s t.inp (drain t.drained)).1 with
          motion := settledMotion (lifecycleStep p s t.inp (drain t.drained)).1 t.inp.actual },
          nextRequest s t r) := by
        refine ⟨cyclic_lifecycle (s := s.sample t.inp) hm, ?_, ?_, ?_⟩
        · refine (stepLifecycle_ids ..).1.trans ?_
          rcases exists_or_forall_not (Adopts (drain t.drained) s.activeGeneration) with
            ⟨u, hu⟩ | hno
          · rw [nextRequest_of_adopts hstop hu]
            exact routedActive_of_adopts (s := s.sample t.inp) hu
          · rw [nextRequest_of_not_adopts hstop hno]
            exact (routedActive_of_not_adopts (s := s.sample t.inp) hno).trans hinv.active
        · intro hl
          refine Bool.eq_false_of_not_eq_true fun hlive => hl ?_
          exact (operational_of_live hinv' hstop hsound' hlive).1
        · intro hlive m' hm'
          have hto := (operational_of_live hinv' hstop hsound' hlive).1
          -- A live move is in Operational, where the mode does not track the shaft.
          rw [settledMotion, if_neg (not_not.mpr hto)] at hm'
          exact holdsGoal_lifecycle hinv' hstop hsound' hlive hm'
      have := cspInv_publish (p := p) (cycle p s t) t.inp ar hq
        (by rw [hc]) (by rw [hc]) (by rw [hc]) (by rw [hc]) (by rw [hc]; rfl)
      have hcompleted : (lifecycleStep p s t.inp (drain t.drained)).1.completedGeneration
          = s.completedGeneration := (stepLifecycle_ids ..).2
      simpa only [observeRequest, CompletesNear, hcompleted] using this

/-- In cyclic mode, a run whose cycles all meet `SoundCycle` completes every move within the
position tolerance of the count that its target asked for. -/
theorem csp_completion_sound (p : RtParams) (s₀ : Controller) (m₀ : CyclicPositionMode ℚ)
    (hcsp : s₀.motion = .cyclic m₀) (bringup : List CycleInput) (ticks : List Tick)
    (hsound : AllSteps (cycle p) (SoundCycle p) (spawned p s₀ bringup) ticks) :
    AllSteps (observeRequest p) (CompletesNear p) (spawned p s₀ bringup, ⟨0, 0⟩) ticks := by
  have hproj : ∀ st t, (observeRequest p st t).1 = cycle p st.1 t := fun _ _ => rfl
  exact allSteps_of_invariant (cspInv_spawned hcsp bringup) cspInv_step
    ((allSteps_proj (x := (spawned p s₀ bringup, (⟨0, 0⟩ : Request))) hproj).mpr hsound)

/-- A run at rest at the count 7 that is sent there again once the window of the rest verdict
is full, and completes. -/
def cspRun : List Tick :=
  List.replicate 20 (tick 0x0040#16 8 7 []) ++ climb 8 7 ++
    [tick 0x0027#16 8 7 [.setTarget ⟨7, 500, false, 1⟩]]

/-- The condition is met by a run that completes its move. -/
theorem csp_completion_at_rest :
    (runFrom (cycle cyclicBench) (spawned cyclicBench cyclicController [])
        cspRun).completedGeneration = 1 ∧
      AllSteps (observeRequest cyclicBench) (CompletesNear cyclicBench)
        (spawned cyclicBench cyclicController [], ⟨0, 0⟩) cspRun :=
  ⟨by decide +kernel, csp_completion_sound cyclicBench cyclicController _ rfl [] cspRun
    (by decide +kernel)⟩

/-- A target of 100000 counts adopted on the enable ladder completes at the count 0: the
generator is reseeded to the shaft until the drive is energized. -/
theorem csp_completes_far : ¬ ∀ (p : RtParams) (s₀ : Controller) (m₀ : CyclicPositionMode ℚ),
    s₀.motion = .cyclic m₀ → ∀ (bringup : List CycleInput) (ticks : List Tick),
    AllSteps (observeRequest p) (CompletesNear p) (spawned p s₀ bringup, ⟨0, 0⟩) ticks := by
  intro h
  have hrun := h cyclicBench cyclicController _ rfl []
    (List.replicate 20 (tick 0x0040#16 8 0 []) ++
      [tick 0x0021#16 8 0 [.setTarget ⟨100000, 500, false, 1⟩], tick 0x0023#16 8 0 [],
        tick 0x0027#16 8 0 []])
  revert hrun
  decide +kernel

end ViamEthercat.Servo
