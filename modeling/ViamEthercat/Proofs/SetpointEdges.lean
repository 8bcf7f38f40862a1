import ViamEthercat.Proofs.Handshake
import ViamEthercat.Lib.Run

/-!
# `ViamEthercat.Proofs.SetpointEdges`: the edges of bit 4 and the set-points

A drive takes a set-point on a rising edge of bit 4. The sequencer has a phase of its own for
that, which is not the level of the wire: a drive fault, a de-energized drive, an excursion to
profile velocity and the stopping window write bit 4 low and keep the phase, and a new
set-point restarts the phase while bit 4 may still be high.

`EdgeWatch` runs the sequencer beside an observer of the written words. `RaisesBit4` says in
which steps bit 4 is written high, `step_bit4_iff` that there are no others.

* `setpoint_edges`: along every run whose steps are all `EdgeKept`, an edge is followed by
  another one only after a new set-point, and every acknowledged set-point has had an edge of
  its own with its target in 0x607A.
* `setpoint_edges_lost`: both fail without the condition.
-/

set_option autoImplicit false

namespace ViamEthercat

open Lib

namespace Sequencer

section
variable (f : Fields) (q : Sequencer) (inp : CycleInput) (cmd : SequencerCommand)

/-- The step reaches the handshake: a steady step of an energized drive, in another mode than
profile velocity. -/
def ReachesHandshake : Prop :=
  inp.stopping = false ∧ inp.status.decode ≠ .fault ∧ cmd.enable = true ∧
    q.state.modeMismatch = false ∧ inp.status.operationEnabled = true ∧
    cmd.mode ≠ .profileVelocity

/-- The step writes bit 4 high: a set-point whose Halt has settled, or one whose acknowledge is
still awaited. -/
def RaisesBit4 : Prop :=
  q.ReachesHandshake inp cmd ∧
    if cmd.newSetpoint = true ∨ q.handshake = .writeTarget then
      setpointHaltSettleCycles ≤ (q.observe f inp).haltClearCycles
    else
      q.handshake = .awaitAck ∧
        (inp.status.setpointAcknowledged = true ∨ q.handshakeCyclesRemaining ≠ 0)

instance : Decidable (q.ReachesHandshake inp cmd) := inferInstanceAs (Decidable (_ ∧ _))

instance : Decidable (q.RaisesBit4 f inp cmd) := inferInstanceAs (Decidable (_ ∧ _))

end

variable {f : Fields} {q : Sequencer} {inp : CycleInput} {out : Outputs}
  {cmd : SequencerCommand}

/-! ### The steps with bit 4 -/

/-- The handshake raises bit 4 in WriteTarget once Halt has settled, and holds it in AwaitAck
until the wait expires. -/
theorem stepHandshake_bit4_iff (q : Sequencer) (st : Status) :
    (q.stepHandshake st).2.bit4 = true ↔
      (q.handshake = .writeTarget ∧ setpointHaltSettleCycles ≤ q.haltClearCycles) ∨
        (q.handshake = .awaitAck ∧
          (st.setpointAcknowledged = true ∨ q.handshakeCyclesRemaining ≠ 0)) := by
  have hlow : ControlWord.enableOperation.bit4 = false := by decide
  have hhigh : (ControlWord.enableOperation.withNewSetpoint true).bit4 = true := by decide
  unfold stepHandshake
  cases q.handshake with
  | idle => simp [hlow]
  | writeTarget =>
      by_cases hsettled : q.haltClearCycles < setpointHaltSettleCycles
      · simp [hsettled, hlow]
      · simp [hsettled, hhigh, not_lt.mp hsettled]
  | awaitAck =>
      by_cases hack : st.setpointAcknowledged = true
      · simp [hack, hhigh]
      · by_cases hzero : q.handshakeCyclesRemaining = 0
        · simp [hack, hzero, hlow]
        · simp [hack, hzero, hhigh]
  | clearBit4 => simp [hlow]
  | awaitAckClear =>
      by_cases hack : st.setpointAcknowledged = true
      · by_cases hzero : q.handshakeCyclesRemaining = 0
        · simp [hack, hzero, hlow]
        · simp [hack, hzero, hlow]
      · simp [hack, hlow]

/-- An energized drive writes the bit 4 of its handshake, in profile velocity a low one. -/
theorem driveOperational_bit4 (f : Fields) (q : Sequencer) (out : Outputs)
    (cmd : SequencerCommand) (st : Status) :
    (driveOperational f q out cmd st).2.2.bit4
      = (!decide (cmd.mode = .profileVelocity) && (q.stepHandshake st).2.bit4) := by
  have hlow : ControlWord.enableOperation.bit4 = false := by decide
  unfold driveOperational
  by_cases hmode : cmd.mode = .profileVelocity
  · cases hhalt : cmd.halt <;> simp [hmode, ControlWord.bit4_withHalt, hlow]
  · cases hhalt : cmd.halt <;> simp [hmode, ControlWord.bit4_withHalt]

/-- A step that reaches the handshake drives it from the phase that it took. -/
theorem step_of_reaches (h : q.ReachesHandshake inp cmd) :
    (q.step f inp out cmd).controlword
        = (driveOperational f { q.taken f inp cmd with announcedOp := true }
            (out.storeMode f cmd.mode) cmd inp.status).2.2 ∧
      (q.step f inp out cmd).outputs.targetPosition
        = (driveOperational f { q.taken f inp cmd with announcedOp := true }
            (out.storeMode f cmd.mode) cmd inp.status).2.1.targetPosition := by
  obtain ⟨hsteady, hdec, henable, hmatch, hon, -⟩ := h
  have hsame := checkMode_of_operationEnabled (q.taken f inp cmd) cmd hon
  have hmatch' : (q.taken f inp cmd).state.modeMismatch = false :=
    (taken_frame f q inp cmd).1.trans hmatch
  rw [step_eq, if_neg (by simp [hsteady])]
  unfold stepSteady
  simp only [hdec, if_false, hsame, henable, hmatch', hon, Bool.not_false, Bool.and_self, if_true]
  exact ⟨trivial, rfl⟩

/-- Only a step that reaches the handshake writes bit 4 high. -/
theorem reaches_of_bit4 (h : (q.step f inp out cmd).controlword.bit4 = true) :
    q.ReachesHandshake inp cmd := by
  have hcheck : ((q.taken f inp cmd).checkMode inp cmd).state.modeMismatch = false →
      q.state.modeMismatch = false := by
    intro hmatch
    rw [← (taken_frame f q inp cmd).1]
    unfold checkMode at hmatch
    split_ifs at hmatch <;> exact hmatch
  rw [step_eq] at h
  split_ifs at h with hstop
  · unfold stepStopping at h
    dsimp only at h
    split_ifs at h <;> exact absurd h (by decide)
  · unfold stepSteady at h
    dsimp only at h
    split_ifs at h with hdec hbit hon henable henable
    · exact absurd (show ControlWord.bit4 0#16 = true from h) (by decide)
    · exact absurd (show ControlWord.faultReset.bit4 = true from h) (by decide)
    · -- The energized drive: what is left is that the mode is not profile velocity.
      rw [driveOperational_bit4] at h
      simp only [Bool.and_eq_true, Bool.not_eq_true', decide_eq_false_iff_not] at h hon
      exact ⟨by simpa using hstop, hdec, hon.1.1, hcheck hon.1.2, hon.2, h.1⟩
    · exact absurd (show ControlWord.shutdown.bit4 = true from h) (by decide)
    · rw [fsmStep_bit4] at h
      cases h
    · rw [fsmStep_bit4] at h
      cases h

/-- The steps that write bit 4 high. -/
theorem step_bit4_iff :
    (q.step f inp out cmd).controlword.bit4 = true ↔ q.RaisesBit4 f inp cmd := by
  by_cases hreach : q.ReachesHandshake inp cmd
  · obtain ⟨-, -, hremaining, hcount⟩ := taken_frame f q inp cmd
    have hmode : cmd.mode ≠ .profileVelocity := hreach.2.2.2.2.2
    rw [(step_of_reaches hreach).1, driveOperational_bit4, RaisesBit4, and_iff_right hreach]
    simp only [hmode, decide_false, Bool.not_false, Bool.true_and]
    rw [stepHandshake_bit4_iff]
    dsimp only
    rw [hremaining, hcount, taken_handshake]
    -- A new set-point is in WriteTarget whatever the phase was.
    cases cmd.newSetpoint with
    | true => simp
    | false => cases q.handshake <;> simp
  · constructor
    · intro h
      exact absurd (reaches_of_bit4 h) hreach
    · intro h
      exact absurd h.1 hreach

/-- A step that writes bit 4 high has its target in a mapped 0x607A. -/
theorem step_targetPosition (h : q.ReachesHandshake inp cmd) (hmapped : f.targetPosition = true) :
    (q.step f inp out cmd).outputs.targetPosition = cmd.targetCounts := by
  have hmode : cmd.mode ≠ .profileVelocity := h.2.2.2.2.2
  rw [(step_of_reaches h).2]
  simp only [driveOperational, hmode, if_false, Outputs.storeProfileVelocity,
    Outputs.storeTargetPosition, hmapped, if_true]
  split_ifs <;> rfl

/-- The phases that a step leads to: the taken one with bit 4 low, WriteTarget to AwaitAck with
its edge, AwaitAck to itself or on, and everything else out of the two. -/
theorem step_phase (f : Fields) (q : Sequencer) (inp : CycleInput) (out : Outputs)
    (cmd : SequencerCommand) :
    ((q.step f inp out cmd).controlword.bit4 = false ∧
        ((q.step f inp out cmd).next.handshake = (q.taken f inp cmd).handshake ∨
          ((q.step f inp out cmd).next.handshake ≠ .writeTarget ∧
            (q.step f inp out cmd).next.handshake ≠ .awaitAck))) ∨
      ((q.step f inp out cmd).controlword.bit4 = true ∧
        (((q.taken f inp cmd).handshake = .writeTarget ∧
            (q.step f inp out cmd).next.handshake = .awaitAck) ∨
          ((q.taken f inp cmd).handshake = .awaitAck ∧
            (q.step f inp out cmd).next.handshake ≠ .writeTarget))) := by
  have hstep : HandshakeStep inp cmd (q.taken f inp cmd) (q.step f inp out cmd).next.handshake
      (q.step f inp out cmd).controlword.bit4 _ := q.step_handshake
  revert hstep
  generalize (q.step f inp out cmd).next.handshake = h
  generalize (q.step f inp out cmd).controlword.bit4 = bit4
  generalize (q.step f inp out cmd).next.state.handshakeTimedOut = timedOut
  intro hstep
  cases hstep with
  | held => exact .inl ⟨rfl, .inl rfl⟩
  | raised hq => exact .inr ⟨rfl, .inl ⟨hq, rfl⟩⟩
  | waiting hq => exact .inr ⟨rfl, .inr ⟨hq, by decide⟩⟩
  | acknowledged hq => exact .inr ⟨rfl, .inr ⟨hq, by decide⟩⟩
  | cleared => exact .inl ⟨rfl, .inr ⟨by decide, by decide⟩⟩
  | released => exact .inl ⟨rfl, .inr ⟨by decide, by decide⟩⟩
  | expired => exact .inl ⟨rfl, .inr ⟨by decide, by decide⟩⟩

end Sequencer

/-! ### The wire -/

/-- One call of `step`: the feedback of the cycle, the output image it finds and the command. -/
structure SequencerCall where
  inp : CycleInput
  out : Outputs
  cmd : SequencerCommand

/-- The sequencer with an observer of the words that it has written. -/
structure EdgeWatch where
  sequencer : Sequencer
  /-- bit 4 of the last word -/
  high : Bool := false
  /-- bit 4 has risen, and no set-point was given since -/
  stale : Bool := false
  /-- the target of the last set-point -/
  given : Option Int32 := none
  /-- since the last set-point was given, bit 4 rose in a cycle with its target in 0x607A -/
  shown : Bool := false
  /-- `target_counts` of the last command -/
  last : Option Int32 := none
  /-- `target_counts` has changed only together with a new set-point -/
  steady : Bool := true

namespace EdgeWatch

variable (f : Fields) (w : EdgeWatch) (x : SequencerCall)

/-- The call of `step` itself. -/
def result : StepResult Sequencer := w.sequencer.step f x.inp x.out x.cmd

/-- The word of the call is a 0-to-1 transition of bit 4. -/
def rises : Bool := (w.result f x).controlword.bit4 && !w.high

/-- The target of the last set-point, that of the call included. -/
def givenAfter : Option Int32 := if x.cmd.newSetpoint then some x.cmd.targetCounts else w.given

/-- One call, observed. -/
def step : EdgeWatch where
  sequencer := (w.result f x).next
  high := (w.result f x).controlword.bit4
  stale := w.rises f x || (w.stale && !x.cmd.newSetpoint)
  given := w.givenAfter x
  shown := (!x.cmd.newSetpoint && w.shown) ||
    (w.rises f x && decide (w.givenAfter x = some (w.result f x).outputs.targetPosition))
  last := some x.cmd.targetCounts
  steady := w.steady &&
    (x.cmd.newSetpoint || decide (w.last = none) || decide (w.last = some x.cmd.targetCounts))

/-- A transition of bit 4 after another one has a new set-point, after the other one or with
it. -/
def NoRetrigger : Prop := w.rises f x = true → w.stale = true → x.cmd.newSetpoint = true

/-- A set-point that is taken as acknowledged has had a transition of its own, with its target
in 0x607A, if the target changes only with the set-points. -/
def OwnEdge : Prop :=
  w.steady = true → x.cmd.newSetpoint = false → w.sequencer.handshake = .awaitAck →
    (w.result f x).next.handshake = .clearBit4 → w.shown = true

/-- Set-points and transitions correspond. -/
def OneToOne : Prop := w.NoRetrigger f x ∧ w.OwnEdge f x

/-- The condition on a call that writes bit 4 high: 0x607A is mapped, a new set-point finds bit 4
low on the wire, and a set-point whose acknowledge is awaited finds it high. -/
def EdgeKept : Prop :=
  w.sequencer.RaisesBit4 f x.inp x.cmd → f.targetPosition = true ∧
    (if x.cmd.newSetpoint then w.high = false
      else w.sequencer.handshake = .awaitAck → w.high = true)

instance : Decidable (w.NoRetrigger f x) := inferInstanceAs (Decidable (_ → _))

instance : Decidable (w.OwnEdge f x) := inferInstanceAs (Decidable (_ → _))

instance : Decidable (w.OneToOne f x) := inferInstanceAs (Decidable (_ ∧ _))

instance : Decidable (w.EdgeKept f x) := inferInstanceAs (Decidable (_ → _))

/-- What the phase says about the wire under the condition. -/
structure EdgeInv : Prop where
  /-- WriteTarget has had no edge yet, and its set-point is newer than the last one. -/
  fresh : w.sequencer.handshake = .writeTarget → w.stale = false ∧ w.high = false
  shown : w.sequencer.handshake = .awaitAck → w.steady = true → w.shown = true
  /-- An armed handshake is that of the last set-point. -/
  target : w.sequencer.Armed →
    ∃ counts, w.given = some counts ∧ (w.steady = true → w.last = some counts)

section
variable {f w x}

theorem rises_eq_false (h : (w.result f x).controlword.bit4 = false) : w.rises f x = false := by
  rw [rises, h, Bool.false_and]

/-- The phase that a call starts from. -/
theorem taken_phase :
    (w.sequencer.taken f x.inp x.cmd).handshake
      = if x.cmd.newSetpoint then .writeTarget else w.sequencer.handshake :=
  Sequencer.taken_handshake ..

/-- Under the condition, the edge of WriteTarget is a transition on the wire. -/
theorem low_before_edge (hinv : w.EdgeInv) (hkept : w.EdgeKept f x)
    (hbit : (w.result f x).controlword.bit4 = true)
    (hphase : (w.sequencer.taken f x.inp x.cmd).handshake = .writeTarget) : w.high = false := by
  have hwire := (hkept (Sequencer.step_bit4_iff.mp hbit)).2
  rw [taken_phase] at hphase
  cases hnew : x.cmd.newSetpoint with
  | true => simpa [hnew] using hwire
  | false =>
      simp only [hnew, Bool.false_eq_true, if_false] at hphase
      exact (hinv.fresh hphase).2

/-- Under the condition, the target in 0x607A is that of the last set-point while its handshake
is armed. -/
theorem given_after (hinv : w.EdgeInv) (hsteady : (w.step f x).steady = true)
    (harmed : x.cmd.newSetpoint = true ∨ w.sequencer.Armed) :
    w.givenAfter x = some x.cmd.targetCounts := by
  unfold givenAfter
  split_ifs with hnew
  · rfl
  · obtain ⟨counts, hgiven, hlast⟩ := hinv.target (harmed.resolve_left hnew)
    simp only [step, Bool.and_eq_true, Bool.or_eq_true, hnew, decide_eq_true_eq] at hsteady
    -- The run was steady before, so the last command carried the target of the set-point.
    rw [hlast hsteady.1] at hsteady
    obtain rfl : counts = x.cmd.targetCounts := by simpa using hsteady.2
    exact hgiven

/-- A call that ends in WriteTarget leaves no edge behind. -/
theorem fresh_step (hinv : w.EdgeInv) (hnext : (w.result f x).next.handshake = .writeTarget) :
    (w.step f x).stale = false ∧ (w.step f x).high = false := by
  rcases Sequencer.step_phase f w.sequencer x.inp x.out x.cmd with
    ⟨hlow, hsame | hleft⟩ | ⟨-, hedge | hwait⟩
  · refine ⟨?_, hlow⟩
    have hphase : (w.sequencer.taken f x.inp x.cmd).handshake = .writeTarget :=
      hsame.symm.trans hnext
    rw [taken_phase] at hphase
    show (w.rises f x || (w.stale && !x.cmd.newSetpoint)) = false
    rw [rises_eq_false hlow, Bool.false_or]
    cases hnew : x.cmd.newSetpoint with
    | true => exact Bool.and_false _
    | false =>
        simp only [hnew, Bool.false_eq_true, if_false] at hphase
        rw [(hinv.fresh hphase).1]
        rfl
  · exact absurd hnext hleft.1
  · exact absurd (hedge.2.symm.trans hnext) (by decide)
  · exact absurd hnext hwait.2

/-- A call that ends in AwaitAck has the edge of its set-point behind it. -/
theorem shown_step (hinv : w.EdgeInv) (hkept : w.EdgeKept f x)
    (hnext : (w.result f x).next.handshake = .awaitAck)
    (hsteady : (w.step f x).steady = true) : (w.step f x).shown = true := by
  have hbefore : w.steady = true := (Bool.and_eq_true_iff.mp hsteady).1
  -- A call from AwaitAck carries no set-point, and keeps what was shown.
  have hawait (hphase : (w.sequencer.taken f x.inp x.cmd).handshake = .awaitAck) :
      (w.step f x).shown = true := by
    rw [taken_phase] at hphase
    split_ifs at hphase with hnew
    show ((!x.cmd.newSetpoint && w.shown) || _) = true
    rw [hinv.shown hphase hbefore]
    simp [hnew]
  rcases Sequencer.step_phase f w.sequencer x.inp x.out x.cmd with
    ⟨-, hsame | hleft⟩ | ⟨hbit, hedge | hwait⟩
  · exact hawait (hsame.symm.trans hnext)
  · exact absurd hnext hleft.2
  · have hraises := Sequencer.step_bit4_iff.mp hbit
    have hmapped := (hkept hraises).1
    have harmed : x.cmd.newSetpoint = true ∨ w.sequencer.Armed := by
      have hphase := hedge.1
      rw [taken_phase] at hphase
      split_ifs at hphase with hnew
      · exact .inl hnew
      · exact .inr (.inl hphase)
    have htarget : (w.result f x).outputs.targetPosition = x.cmd.targetCounts :=
      Sequencer.step_targetPosition hraises.1 hmapped
    have hrises : w.rises f x = true := by
      rw [rises, show (w.result f x).controlword.bit4 = true from hbit,
        low_before_edge hinv hkept hbit hedge.1]
      rfl
    show (_ || (w.rises f x && decide _)) = true
    rw [hrises, htarget, given_after hinv hsteady harmed]
    simp
  · exact hawait hwait.1

/-- An armed handshake is that of the last set-point, after a call too. -/
theorem target_step (hinv : w.EdgeInv) (hnext : (w.result f x).next.Armed) :
    ∃ counts, (w.step f x).given = some counts ∧
      ((w.step f x).steady = true → (w.step f x).last = some counts) := by
  have htaken : (w.sequencer.taken f x.inp x.cmd).Armed :=
    w.sequencer.step_handshake.armed_before hnext
  have harmed : x.cmd.newSetpoint = true ∨ w.sequencer.Armed := by
    unfold Sequencer.Armed at htaken ⊢
    rw [taken_phase] at htaken
    split_ifs at htaken with hnew
    · exact .inl hnew
    · exact .inr htaken
  have hgiven : ∃ counts, w.givenAfter x = some counts := by
    unfold givenAfter
    split_ifs with hnew
    · exact ⟨_, rfl⟩
    · obtain ⟨counts, h, -⟩ := hinv.target (harmed.resolve_left hnew)
      exact ⟨counts, h⟩
  obtain ⟨counts, hcounts⟩ := hgiven
  refine ⟨counts, hcounts, fun hsteady => ?_⟩
  rw [← hcounts, given_after hinv hsteady harmed]
  rfl

/-- A call under the condition keeps the invariant. -/
theorem edgeInv_step (hinv : w.EdgeInv) (hkept : w.EdgeKept f x) : (w.step f x).EdgeInv where
  fresh := fresh_step hinv
  shown := shown_step hinv hkept
  target := target_step hinv

/-- A call under the condition and the invariant writes no spurious edge, and takes no
acknowledge for a set-point without one. -/
theorem oneToOne_of_inv (hinv : w.EdgeInv) (hkept : w.EdgeKept f x) : w.OneToOne f x := by
  refine ⟨fun hrises hstale => ?_, fun hsteady _ hphase _ => hinv.shown hphase hsteady⟩
  obtain ⟨hbit, hhigh⟩ := Bool.and_eq_true_iff.mp hrises
  have hraises := Sequencer.step_bit4_iff.mp hbit
  by_contra hnew
  -- Without a set-point the phase was WriteTarget, whose set-point is newer than the last
  -- edge, or AwaitAck, whose bit 4 is high already.
  have harmed := hraises.2
  split_ifs at harmed with hwrite
  · have hfresh := hinv.fresh (hwrite.resolve_left hnew)
    rw [hfresh.1] at hstale
    cases hstale
  · have hwire := (hkept hraises).2
    simp only [hnew, if_false] at hwire
    rw [hwire harmed.1] at hhigh
    cases hhigh

end

end EdgeWatch

/-- Along every run of `step` calls since `reset` whose steps are all `EdgeKept`, set-points and
edges correspond. -/
theorem setpoint_edges (f : Fields) (q : Sequencer) (xs : List SequencerCall)
    (hkept : AllSteps (EdgeWatch.step f) (EdgeWatch.EdgeKept f) { sequencer := q.reset } xs) :
    AllSteps (EdgeWatch.step f) (EdgeWatch.OneToOne f) { sequencer := q.reset } xs := by
  refine allSteps_of_invariant (I := EdgeWatch.EdgeInv) ⟨?_, ?_, ?_⟩ ?_ hkept
  · intro h
    cases h
  · intro h
    cases h
  · rintro (h | h) <;> cases h
  · intro w x hinv hx
    exact ⟨EdgeWatch.edgeInv_step hinv hx, EdgeWatch.oneToOne_of_inv hinv hx⟩

/-- A PDO map with every object. -/
def allMapped : Fields := ⟨true, true, true, true, true, true, true⟩

/-- A call on a healthy drive with statusword `sw`. -/
def energizedCall (sw : BitVec 16) (cmd : SequencerCommand) : SequencerCall :=
  ⟨⟨⟨sw⟩, 0, 1, 0#16, 0, false, 3, false⟩, Outputs.zero, { cmd with enable := true }⟩

/-- Two set-points, the second after the handshake of the first: each has its edge. -/
theorem setpoint_edges_two_moves :
    AllSteps (EdgeWatch.step allMapped) (EdgeWatch.OneToOne allMapped)
      { sequencer := Sequencer.reset {} }
      [energizedCall 0x0027#16 { targetCounts := 5, newSetpoint := true },
        energizedCall 0x1027#16 { targetCounts := 5 },
        energizedCall 0x1027#16 { targetCounts := 5 },
        energizedCall 0x0027#16 { targetCounts := 5 },
        energizedCall 0x0027#16 { targetCounts := 9, newSetpoint := true },
        energizedCall 0x1027#16 { targetCounts := 9 }] :=
  setpoint_edges allMapped {} _ (by decide)

/-- Both halves fail. An excursion to profile velocity while the acknowledge is awaited drops bit
4, and the return raises it again for the old target. And a second set-point while bit 4 is high
has no edge: the acknowledge of the first is taken for its own. -/
theorem setpoint_edges_lost :
    (¬ ∀ (f : Fields) (q : Sequencer) (xs : List SequencerCall),
      AllSteps (EdgeWatch.step f) (EdgeWatch.NoRetrigger f) { sequencer := q.reset } xs) ∧
    (¬ ∀ (f : Fields) (q : Sequencer) (xs : List SequencerCall),
      AllSteps (EdgeWatch.step f) (EdgeWatch.OwnEdge f) { sequencer := q.reset } xs) := by
  constructor
  · intro h
    exact absurd (h allMapped {}
      [energizedCall 0x0027#16 { targetCounts := 5, newSetpoint := true },
        energizedCall 0x0027#16 { targetCounts := 5, mode := .profileVelocity },
        energizedCall 0x0027#16 { targetCounts := 5 }]) (by decide)
  · intro h
    exact absurd (h allMapped {}
      [energizedCall 0x0027#16 { targetCounts := 5, newSetpoint := true },
        energizedCall 0x0027#16 { targetCounts := 9, newSetpoint := true },
        energizedCall 0x1027#16 { targetCounts := 9 }]) (by decide)

end ViamEthercat
