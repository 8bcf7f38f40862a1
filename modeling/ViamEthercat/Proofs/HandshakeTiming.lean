import ViamEthercat.Proofs.ControlWords
import ViamEthercat.Proofs.SetpointEdges

/-!
# `ViamEthercat.Proofs.HandshakeTiming`: when a handshake starts and when it ends

Some drives ignore a rising edge of bit 4 that comes with the release of Halt, so the sequencer
counts the words it has written with Halt clear and raises bit 4 only at a count of two. The
count is taken at the head of a step from the word of the step before, and the word of the step
itself is chosen later.

* `setpoint_settled`: a step that leaves WriteTarget finds Halt clear in the last two words.
* `handshake_bounded`: an undisturbed handshake ends after at most 205 further steps, and it
  reports a timeout exactly when the drive missed one of its two answers.
* `handshake_unbounded_stopping`: the stopping window does not run the handshake.
-/

set_option autoImplicit false

namespace ViamEthercat

open Lib

namespace Sequencer

variable {f : Fields} {q : Sequencer} {inp : CycleInput} {out : Outputs}
  {cmd : SequencerCommand}

/-! ### What a steady step keeps -/

/-- The handshake only reads the halt-settle count. -/
theorem stepHandshake_haltClearCycles (q : Sequencer) (st : Status) :
    (q.stepHandshake st).1.haltClearCycles = q.haltClearCycles := by
  unfold stepHandshake
  cases q.handshake with
  | idle => rfl
  | clearBit4 => rfl
  | writeTarget => dsimp only; split_ifs <;> rfl
  | awaitAck => dsimp only; split_ifs <;> rfl
  | awaitAckClear => dsimp only; split_ifs <;> rfl

/-- A step leaves the halt-settle count as its head counted it. -/
theorem step_haltClearCycles (f : Fields) (q : Sequencer) (inp : CycleInput) (out : Outputs)
    (cmd : SequencerCommand) :
    (q.step f inp out cmd).next.haltClearCycles = (q.observe f inp).haltClearCycles := by
  rw [step_eq, ← (taken_frame f q inp cmd).2.2.2]
  generalize q.taken f inp cmd = q
  have hcheck := (checkMode_frame inp cmd q).2.1
  split_ifs
  · rfl
  unfold stepSteady
  dsimp only
  split_ifs with hdec hbit hon
  · exact hcheck
  · exact hcheck
  · unfold driveOperational
    by_cases hmode : cmd.mode = .profileVelocity
    · rw [if_pos hmode]
      exact hcheck
    · rw [if_neg hmode]
      exact (stepHandshake_haltClearCycles _ _).trans hcheck
  · exact hcheck
  · exact hcheck
  · exact hcheck

/-- Outside the stopping window the written word is remembered. -/
theorem step_lastCw (hsteady : inp.stopping = false) :
    (q.step f inp out cmd).next.lastCw = (q.step f inp out cmd).controlword := by
  rw [step_eq, if_neg (by simp [hsteady])]
  rfl

/-- WriteTarget is left only by the rising edge, at a settled count. -/
theorem settled_of_leaves (htaken : (q.taken f inp cmd).handshake = .writeTarget)
    (hleft : (q.step f inp out cmd).next.handshake ≠ .writeTarget) :
    setpointHaltSettleCycles ≤ (q.observe f inp).haltClearCycles := by
  rw [← (taken_frame f q inp cmd).2.2.2]
  have hstep : HandshakeStep inp cmd (q.taken f inp cmd) (q.step f inp out cmd).next.handshake
      (q.step f inp out cmd).controlword.bit4 _ := q.step_handshake
  revert hstep hleft
  generalize (q.step f inp out cmd).next.handshake = h
  generalize (q.step f inp out cmd).controlword.bit4 = bit4
  generalize (q.step f inp out cmd).next.state.handshakeTimedOut = timedOut
  intro hleft hstep
  cases hstep with
  | held => exact absurd htaken hleft
  | raised _ hsettled => exact hsettled
  | waiting hq => simp [htaken] at hq
  | acknowledged hq => simp [htaken] at hq
  | cleared hq => simp [htaken] at hq
  | released hq => simp [htaken] at hq
  | expired hq => simp [htaken] at hq

end Sequencer

/-! ### The settled halt -/

/-- The sequencer with the controlwords that it has written since its reset, the last one
first. -/
structure HaltWatch where
  sequencer : Sequencer
  written : List ControlWord := []

namespace HaltWatch

variable (f : Fields) (w : HaltWatch) (x : SequencerCall)

/-- The call of `step` itself. -/
def result : StepResult Sequencer := w.sequencer.step f x.inp x.out x.cmd

/-- One call, observed. -/
def step : HaltWatch where
  sequencer := (w.result f x).next
  written := (w.result f x).controlword :: w.written

/-- The call is in WriteTarget, its own new set-point included, and leaves it. -/
def LeavesWriteTarget : Prop :=
  (w.sequencer.taken f x.inp x.cmd).handshake = .writeTarget ∧
    (w.result f x).next.handshake ≠ .writeTarget

/-- The last two words, or all of them if there are fewer, have Halt clear. -/
def HaltSettled : Prop := ∀ cw ∈ w.written.take 2, cw.halt = false

instance : Decidable (w.LeavesWriteTarget f x) := inferInstanceAs (Decidable (_ ∧ _))

instance : Decidable w.HaltSettled := inferInstanceAs (Decidable (∀ cw ∈ _, _))

/-- What the counter knows of the words: it lags them by one. -/
structure CountInv : Prop where
  lastCw : ∀ cw ∈ w.written.head?, w.sequencer.lastCw = cw
  counted : 0 < w.sequencer.haltClearCycles → ∀ cw ∈ w.written.tail.head?, cw.halt = false

variable {f w x}

theorem countInv_step (hinv : w.CountInv) (hsteady : x.inp.stopping = false) :
    (w.step f x).CountInv where
  lastCw := by
    intro cw hcw
    obtain rfl : (w.result f x).controlword = cw := by simpa [step] using hcw
    exact Sequencer.step_lastCw hsteady
  counted := by
    intro hcount cw hcw
    have hlast : w.sequencer.lastCw = cw := hinv.lastCw cw hcw
    rw [show (w.step f x).sequencer.haltClearCycles = (w.result f x).next.haltClearCycles from rfl,
      result, Sequencer.step_haltClearCycles] at hcount
    -- A word with Halt has the head of the step count from zero.
    cases hhalt : cw.halt with
    | false => rfl
    | true => simp [Sequencer.observe, hlast, hhalt] at hcount

theorem haltSettled_of_inv (hinv : w.CountInv) (hleaves : w.LeavesWriteTarget f x) :
    w.HaltSettled := by
  have hsettled := Sequencer.settled_of_leaves hleaves.1 hleaves.2
  -- A count of two after the head of the step is a clear last word and a count of one before.
  have hlast : w.sequencer.lastCw.halt = false := by
    cases hhalt : w.sequencer.lastCw.halt with
    | false => rfl
    | true => simp [Sequencer.observe, hhalt, setpointHaltSettleCycles] at hsettled
  have hcount : 0 < w.sequencer.haltClearCycles := by
    by_contra hzero
    have hzero : w.sequencer.haltClearCycles = 0 := by omega
    simp [Sequencer.observe, hlast, hzero, setpointHaltSettleCycles] at hsettled
  intro cw hcw
  have hhead := hinv.lastCw
  have htail := hinv.counted hcount
  cases hw : w.written with
  | nil => simp [hw] at hcw
  | cons a rest =>
      rw [hw] at hcw hhead htail
      have ha : a.halt = false := by rw [← hhead a rfl, hlast]
      cases rest with
      | nil =>
          obtain rfl : cw = a := by simpa using hcw
          exact ha
      | cons b rest =>
          rcases (by simpa using hcw : cw = a ∨ cw = b) with rfl | rfl
          · exact ha
          · exact htail cw rfl

end HaltWatch

/-- Along every run of steady `step` calls since `reset`, WriteTarget is left only with Halt clear
in the last two words. -/
theorem setpoint_settled (f : Fields) (q : Sequencer) (xs : List SequencerCall)
    (hsteady : ∀ x ∈ xs, x.inp.stopping = false) :
    AllSteps (HaltWatch.step f) (fun w x => w.LeavesWriteTarget f x → w.HaltSettled)
      { sequencer := q.reset } xs := by
  refine allSteps_of_invariant (I := HaltWatch.CountInv)
    (C := fun _ x => x.inp.stopping = false) ⟨?_, ?_⟩ ?_ (allSteps_of_forall hsteady)
  · intro cw hcw
    cases hcw
  · intro _ cw hcw
    cases hcw
  · intro w x hinv hx
    exact ⟨HaltWatch.countInv_step hinv hx, HaltWatch.haltSettled_of_inv hinv⟩

/-- A set-point given with the release of Halt: bit 4 rises with the third clear word. -/
theorem setpoint_settled_release :
    (runFrom (HaltWatch.step allMapped) { sequencer := Sequencer.reset {} }
      [energizedCall 0x0027#16 { halt := true }, energizedCall 0x0027#16 { newSetpoint := true },
        energizedCall 0x0027#16 {}, energizedCall 0x0027#16 {}]).written
      = [0x001F#16, 0x000F#16, 0x000F#16, 0x010F#16] ∧
    AllSteps (HaltWatch.step allMapped)
      (fun w x => w.LeavesWriteTarget allMapped x → w.HaltSettled)
      { sequencer := Sequencer.reset {} }
      [energizedCall 0x0027#16 { halt := true }, energizedCall 0x0027#16 { newSetpoint := true },
        energizedCall 0x0027#16 {}, energizedCall 0x0027#16 {}] :=
  ⟨by decide, setpoint_settled allMapped {} _ (by decide)⟩

/-! ### One step of an undisturbed handshake -/

namespace Sequencer

variable {f : Fields} {q : Sequencer} {inp : CycleInput} {out : Outputs}
  {cmd : SequencerCommand}

/-- A step that reaches the handshake is one cycle of it from the taken phase. -/
theorem step_next_of_reaches (h : q.ReachesHandshake inp cmd) :
    (q.step f inp out cmd).next =
      let r := stepHandshake { q.taken f inp cmd with announcedOp := true } inp.status
      { r.1 with
        state := { r.1.state with handshakeIdle := decide (r.1.handshake = .idle) }
        lastCw := if cmd.halt then r.2.withHalt true else r.2 } := by
  obtain ⟨hsteady, hdec, henable, hmatch, hon, hmode⟩ := h
  have hsame := checkMode_of_operationEnabled (q.taken f inp cmd) cmd hon
  have hmatch' : (q.taken f inp cmd).state.modeMismatch = false :=
    (taken_frame f q inp cmd).1.trans hmatch
  rw [step_eq, if_neg (by simp [hsteady])]
  unfold stepSteady
  simp only [hdec, if_false, hsame, henable, hmatch', hon, Bool.not_false, Bool.and_self, if_true,
    driveOperational, hmode]

end Sequencer

/-- The level of the acknowledge that a waiting phase waits for. -/
def Handshake.awaits : Handshake → Option Bool
  | .awaitAck => some true
  | .awaitAckClear => some false
  | _ => none

namespace Sequencer

section
variable {f : Fields} {q : Sequencer} {inp : CycleInput} {out : Outputs}
  {cmd : SequencerCommand}

theorem taken_of_once (honce : cmd.newSetpoint = false) : q.taken f inp cmd = q.observe f inp := by
  simp [taken, honce]

/-- The edge: a taken WriteTarget is left at a settled count, with a fresh countdown. -/
theorem step_of_settled (h : q.ReachesHandshake inp cmd)
    (hq : (q.taken f inp cmd).handshake = .writeTarget)
    (hsettled : setpointHaltSettleCycles ≤ (q.observe f inp).haltClearCycles) :
    (q.step f inp out cmd).next.handshake = .awaitAck ∧
      (q.step f inp out cmd).next.handshakeCyclesRemaining = handshakeTimeoutCycles := by
  rw [← (taken_frame f q inp cmd).2.2.2] at hsettled
  rw [step_next_of_reaches h]
  simp [stepHandshake, hq, not_lt.mpr hsettled]

theorem step_of_unsettled (h : q.ReachesHandshake inp cmd)
    (hq : (q.taken f inp cmd).handshake = .writeTarget)
    (hsettled : (q.observe f inp).haltClearCycles < setpointHaltSettleCycles) :
    (q.step f inp out cmd).next.handshake = .writeTarget := by
  rw [← (taken_frame f q inp cmd).2.2.2] at hsettled
  rw [step_next_of_reaches h]
  simp [stepHandshake, hq, hsettled]

theorem step_of_clearBit4 (f : Fields) (out : Outputs) (h : q.ReachesHandshake inp cmd)
    (honce : cmd.newSetpoint = false) (hq : q.handshake = .clearBit4) :
    (q.step f inp out cmd).next.handshake = .awaitAckClear ∧
      (q.step f inp out cmd).next.handshakeCyclesRemaining = handshakeTimeoutCycles := by
  rw [step_next_of_reaches h, taken_of_once honce]
  simp [stepHandshake, observe, hq]

/-- A wait that is answered moves on, without a timeout. -/
theorem step_of_answered (h : q.ReachesHandshake inp cmd) (honce : cmd.newSetpoint = false)
    (hwaits : q.handshake.awaits = some inp.status.setpointAcknowledged) :
    (q.step f inp out cmd).next.handshake
        = (if q.handshake = .awaitAck then .clearBit4 else .idle) ∧
      (q.step f inp out cmd).next.state.handshakeTimedOut = false := by
  rw [step_next_of_reaches h, taken_of_once honce]
  cases hq : q.handshake <;> simp [Handshake.awaits, hq] at hwaits <;>
    simp [stepHandshake, observe, hq, ← hwaits]

/-- A wait that is not answered counts down, and expires at zero. -/
theorem step_of_unanswered (f : Fields) (out : Outputs) (h : q.ReachesHandshake inp cmd)
    (honce : cmd.newSetpoint = false)
    (hwaits : q.handshake.awaits = some (!inp.status.setpointAcknowledged)) :
    if q.handshakeCyclesRemaining = 0 then
      (q.step f inp out cmd).next.handshake = .idle ∧
        (q.step f inp out cmd).next.state.handshakeTimedOut = true
    else
      (q.step f inp out cmd).next.handshake = q.handshake ∧
        (q.step f inp out cmd).next.handshakeCyclesRemaining
          = q.handshakeCyclesRemaining - 1 := by
  rw [step_next_of_reaches h, taken_of_once honce]
  by_cases hzero : q.handshakeCyclesRemaining = 0
  · rw [if_pos hzero]
    cases hq : q.handshake <;> simp [Handshake.awaits, hq] at hwaits <;>
      simp [stepHandshake, observe, hq, hwaits, hzero]
  · rw [if_neg hzero]
    cases hq : q.handshake <;> simp [Handshake.awaits, hq] at hwaits <;>
      simp [stepHandshake, observe, hq, hwaits, hzero]

theorem stepHandshake_modeMismatch (q : Sequencer) (st : Status) :
    (q.stepHandshake st).1.state.modeMismatch = q.state.modeMismatch := by
  unfold stepHandshake
  cases q.handshake with
  | idle => rfl
  | clearBit4 => rfl
  | writeTarget => dsimp only; split_ifs <;> rfl
  | awaitAck => dsimp only; split_ifs <;> rfl
  | awaitAckClear => dsimp only; split_ifs <;> rfl

theorem step_modeMismatch (h : q.ReachesHandshake inp cmd) :
    (q.step f inp out cmd).next.state.modeMismatch = false := by
  rw [step_next_of_reaches h]
  dsimp only
  rw [stepHandshake_modeMismatch]
  exact (taken_frame f q inp cmd).1.trans h.2.2.2.1

theorem step_handshakeIdle (h : q.ReachesHandshake inp cmd) :
    (q.step f inp out cmd).next.state.handshakeIdle
      = decide ((q.step f inp out cmd).next.handshake = .idle) := by
  rw [step_next_of_reaches h]

theorem step_lastCw_halt (h : q.ReachesHandshake inp cmd) (hhalt : cmd.halt = false) :
    (q.step f inp out cmd).next.lastCw.halt = false := by
  rw [step_next_of_reaches h]
  obtain ⟨n, hword⟩ := stepHandshake_word { q.taken f inp cmd with announcedOp := true } inp.status
  simp only [hhalt, Bool.false_eq_true, if_false, hword]
  cases n <;> decide

end

/-! ### An undisturbed handshake -/

/-- The sequencer before the call `k` of a sequence of calls. -/
def before (f : Fields) (q : Sequencer) (xs : Nat → SequencerCall) : Nat → Sequencer
  | 0 => q
  | k + 1 => ((before f q xs k).step f (xs k).inp (xs k).out (xs k).cmd).next

/-- The phase that the call `k` is made in, its own new set-point included. -/
def phaseAt (f : Fields) (q : Sequencer) (xs : Nat → SequencerCall) (k : Nat) : Handshake :=
  ((before f q xs k).taken f (xs k).inp (xs k).cmd).handshake

/-- The call 0 gives a set-point, and from then on nothing disturbs it. -/
structure Undisturbed (q : Sequencer) (xs : Nat → SequencerCall) : Prop where
  given : (xs 0).cmd.newSetpoint = true
  once : ∀ k, (xs (k + 1)).cmd.newSetpoint = false
  mode : ∀ k, (xs k).cmd.mode = .profilePosition
  enable : ∀ k, (xs k).cmd.enable = true
  halt : ∀ k, (xs k).cmd.halt = false
  matched : q.state.modeMismatch = false
  energized : ∀ k, (xs k).inp.status.operationEnabled = true
  healthy : ∀ k, (xs k).inp.status.decode ≠ .fault

section
variable {f : Fields} {q : Sequencer} {xs : Nat → SequencerCall}

theorem phaseAt_succ (h : Undisturbed q xs) (k : Nat) :
    phaseAt f q xs (k + 1) = (before f q xs (k + 1)).handshake := by
  rw [phaseAt, taken_handshake, h.once k]
  rfl

theorem phaseAt_zero (h : Undisturbed q xs) : phaseAt f q xs 0 = .writeTarget := by
  rw [phaseAt, taken_handshake, h.given]
  rfl

theorem reaches_of_matched (h : Undisturbed q xs) (hsteady : ∀ k, (xs k).inp.stopping = false)
    {k : Nat} (hmatch : (before f q xs k).state.modeMismatch = false) :
    (before f q xs k).ReachesHandshake (xs k).inp (xs k).cmd := by
  refine ⟨hsteady k, h.healthy k, h.enable k, hmatch, h.energized k, ?_⟩
  rw [h.mode k]
  decide

/-- Every step of an undisturbed sequence reaches the handshake. -/
theorem before_reaches (h : Undisturbed q xs) (hsteady : ∀ k, (xs k).inp.stopping = false)
    (k : Nat) : (before f q xs k).ReachesHandshake (xs k).inp (xs k).cmd := by
  -- The flag of a mismatch is only ever raised below OperationEnabled.
  induction k with
  | zero => exact reaches_of_matched h hsteady h.matched
  | succ k ih => exact reaches_of_matched h hsteady (step_modeMismatch ih)

/-- Halt has been clear since the call 0, so that the count is settled at the call 2. -/
theorem before_settles (h : Undisturbed q xs) (hsteady : ∀ k, (xs k).inp.stopping = false)
    (k : Nat) :
    min k setpointHaltSettleCycles
      ≤ ((before f q xs k).observe f (xs k).inp).haltClearCycles := by
  induction k with
  | zero => exact Nat.min_le_left _ _ |>.trans (Nat.zero_le _)
  | succ k ih =>
      have hclear : (before f q xs (k + 1)).lastCw.halt = false :=
        step_lastCw_halt (before_reaches h hsteady k) (h.halt k)
      have hcount : (before f q xs (k + 1)).haltClearCycles
          = ((before f q xs k).observe f (xs k).inp).haltClearCycles :=
        step_haltClearCycles f _ _ _ _
      rw [← hcount] at ih
      simp only [observe, hclear, Bool.false_eq_true, if_false]
      split_ifs <;> omega

/-- Bit 4 rises with the call 2 at the latest. -/
theorem exists_edge (h : Undisturbed q xs) (hsteady : ∀ k, (xs k).inp.stopping = false) :
    ∃ r ≤ 2, (∀ k ≤ r, phaseAt f q xs k = .writeTarget) ∧
      (before f q xs (r + 1)).handshake = .awaitAck ∧
      (before f q xs (r + 1)).handshakeCyclesRemaining = handshakeTimeoutCycles := by
  have hreach := before_reaches (f := f) h hsteady
  have hsettles := before_settles (f := f) h hsteady 2
  have hex : ∃ k, setpointHaltSettleCycles
      ≤ ((before f q xs k).observe f (xs k).inp).haltClearCycles := ⟨2, hsettles⟩
  -- The first settled call raises bit 4, and those before it stay in WriteTarget.
  have hphase : ∀ k ≤ Nat.find hex, phaseAt f q xs k = .writeTarget := by
    intro k
    induction k with
    | zero => exact fun _ => phaseAt_zero h
    | succ k ih =>
        intro hk
        rw [phaseAt_succ h]
        exact step_of_unsettled (hreach k) (ih (by omega)) (not_le.mp (Nat.find_min hex hk))
  exact ⟨Nat.find hex, Nat.find_min' hex hsettles, hphase,
    step_of_settled (hreach _) (hphase _ le_rfl) (Nat.find_spec hex)⟩

/-- A wait that starts at `m` and is not answered in the calls before `m + j` still waits. -/
theorem wait_holds (h : Undisturbed q xs) (hsteady : ∀ k, (xs k).inp.stopping = false)
    {m : Nat} {level : Bool} (hwaits : (before f q xs (m + 1)).handshake.awaits = some level)
    (hfresh : (before f q xs (m + 1)).handshakeCyclesRemaining = handshakeTimeoutCycles)
    {j : Nat} (hj : j ≤ handshakeTimeoutCycles)
    (hno : ∀ i < j, (xs (m + 1 + i)).inp.status.setpointAcknowledged = !level) :
    (before f q xs (m + 1 + j)).handshake = (before f q xs (m + 1)).handshake ∧
      (before f q xs (m + 1 + j)).handshakeCyclesRemaining = handshakeTimeoutCycles - j := by
  induction j with
  | zero => exact ⟨rfl, hfresh⟩
  | succ j ih =>
      obtain ⟨hphase, hleft⟩ := ih (by omega) fun i hi => hno i (by omega)
      have honce : (xs (m + 1 + j)).cmd.newSetpoint = false := by
        rw [show m + 1 + j = m + j + 1 from by omega]
        exact h.once (m + j)
      have hstep := step_of_unanswered f (xs (m + 1 + j)).out
        (before_reaches h hsteady (m + 1 + j)) honce
        (by rw [hphase, hwaits, hno j (by omega), Bool.not_not])
      rw [if_neg (by omega)] at hstep
      exact ⟨hstep.1.trans hphase, hstep.2.trans (by omega)⟩

/-- A wait that is never answered expires with its last call. -/
theorem wait_expires (h : Undisturbed q xs) (hsteady : ∀ k, (xs k).inp.stopping = false)
    {m : Nat} {level : Bool} (hwaits : (before f q xs (m + 1)).handshake.awaits = some level)
    (hfresh : (before f q xs (m + 1)).handshakeCyclesRemaining = handshakeTimeoutCycles)
    (hno : ∀ i ≤ handshakeTimeoutCycles,
      (xs (m + 1 + i)).inp.status.setpointAcknowledged = !level) :
    (before f q xs (m + 1 + handshakeTimeoutCycles + 1)).handshake = .idle ∧
      (before f q xs (m + 1 + handshakeTimeoutCycles + 1)).state.handshakeTimedOut = true := by
  obtain ⟨hphase, hleft⟩ := wait_holds h hsteady hwaits hfresh le_rfl
    fun i hi => hno i (by omega)
  have honce : (xs (m + 1 + handshakeTimeoutCycles)).cmd.newSetpoint = false := by
    rw [show m + 1 + handshakeTimeoutCycles = m + handshakeTimeoutCycles + 1 from by omega]
    exact h.once _
  have hstep := step_of_unanswered f (xs (m + 1 + handshakeTimeoutCycles)).out
    (before_reaches h hsteady _) honce
    (by rw [hphase, hwaits, hno _ le_rfl, Bool.not_not])
  rw [if_pos (by omega)] at hstep
  exact hstep

/-- A wait moves on with the first answer. -/
theorem wait_answered (h : Undisturbed q xs) (hsteady : ∀ k, (xs k).inp.stopping = false)
    {m : Nat} {level : Bool} (hwaits : (before f q xs (m + 1)).handshake.awaits = some level)
    (hfresh : (before f q xs (m + 1)).handshakeCyclesRemaining = handshakeTimeoutCycles)
    {j : Nat} (hj : j ≤ handshakeTimeoutCycles)
    (hno : ∀ i < j, (xs (m + 1 + i)).inp.status.setpointAcknowledged = !level)
    (hyes : (xs (m + 1 + j)).inp.status.setpointAcknowledged = level) :
    (before f q xs (m + 1 + j + 1)).handshake
        = (if (before f q xs (m + 1)).handshake = .awaitAck then .clearBit4 else .idle) ∧
      (before f q xs (m + 1 + j + 1)).state.handshakeTimedOut = false := by
  obtain ⟨hphase, -⟩ := wait_holds h hsteady hwaits hfresh hj hno
  have honce : (xs (m + 1 + j)).cmd.newSetpoint = false := by
    rw [show m + 1 + j = m + j + 1 from by omega]
    exact h.once (m + j)
  rw [← hphase]
  exact step_of_answered (before_reaches h hsteady _) honce (by rw [hphase, hwaits, hyes])

/-- The calls of a wait are made in its phase. -/
theorem phaseAt_wait (h : Undisturbed q xs) (hsteady : ∀ k, (xs k).inp.stopping = false)
    {m : Nat} {level : Bool} (hwaits : (before f q xs (m + 1)).handshake.awaits = some level)
    (hfresh : (before f q xs (m + 1)).handshakeCyclesRemaining = handshakeTimeoutCycles)
    {j : Nat} (hj : j ≤ handshakeTimeoutCycles)
    (hno : ∀ i < j, (xs (m + 1 + i)).inp.status.setpointAcknowledged = !level)
    {k : Nat} (hlo : m + 1 ≤ k) (hhi : k ≤ m + 1 + j) :
    phaseAt f q xs k = (before f q xs (m + 1)).handshake := by
  obtain ⟨i, rfl⟩ := Nat.exists_eq_add_of_le hlo
  rw [show m + 1 + i = m + i + 1 from by omega, phaseAt_succ h,
    show m + i + 1 = m + 1 + i from by omega]
  exact (wait_holds h hsteady hwaits hfresh (by omega) fun n hn => hno n (by omega)).1

/-- The flag follows the phase that the next call is made in. -/
theorem handshakeIdle_eq (h : Undisturbed q xs) (hsteady : ∀ k, (xs k).inp.stopping = false)
    (k : Nat) :
    (before f q xs (k + 1)).state.handshakeIdle = decide (phaseAt f q xs (k + 1) = .idle) := by
  rw [phaseAt_succ h]
  exact step_handshakeIdle (before_reaches h hsteady k)

end

/-- The drive missed its answers: bit 12 was not seen in AwaitAck, or the last 100 calls and the
one before them were all in AwaitAckClear with bit 12 still set. -/
def Unanswered (f : Fields) (q : Sequencer) (xs : Nat → SequencerCall) (n : Nat) : Prop :=
  (∀ k ≤ n, phaseAt f q xs k = .awaitAck → (xs k).inp.status.setpointAcknowledged = false) ∨
    (handshakeTimeoutCycles ≤ n ∧ ∀ k, n - handshakeTimeoutCycles ≤ k → k ≤ n →
      phaseAt f q xs k = .awaitAckClear ∧ (xs k).inp.status.setpointAcknowledged = true)

/-- The call `n` ends the handshake: `handshake_idle` is true again for the first time, and a
timeout is reported exactly when the drive missed one of its answers. -/
structure Ends (f : Fields) (q : Sequencer) (xs : Nat → SequencerCall) (n : Nat) : Prop where
  idle : (before f q xs (n + 1)).state.handshakeIdle = true
  first : ∀ k < n, (before f q xs (k + 1)).state.handshakeIdle = false
  timedOut : (before f q xs (n + 1)).state.handshakeTimedOut = true ↔ Unanswered f q xs n

section
variable {f : Fields} {q : Sequencer} {xs : Nat → SequencerCall} {r : Nat}

/-- The drive never acknowledges: the handshake ends with the wait for the acknowledge. -/
theorem ends_unacknowledged (h : Undisturbed q xs) (hsteady : ∀ k, (xs k).inp.stopping = false)
    (hwrite : ∀ k ≤ r, phaseAt f q xs k = .writeTarget)
    (hawait : (before f q xs (r + 1)).handshake = .awaitAck)
    (hfresh : (before f q xs (r + 1)).handshakeCyclesRemaining = handshakeTimeoutCycles)
    (hno : ∀ i ≤ handshakeTimeoutCycles,
      (xs (r + 1 + i)).inp.status.setpointAcknowledged = false) :
    Ends f q xs (r + 1 + handshakeTimeoutCycles) := by
  have hwaits : (before f q xs (r + 1)).handshake.awaits = some true := by rw [hawait]; rfl
  obtain ⟨hidle, htimed⟩ := wait_expires h hsteady hwaits hfresh hno
  have hphase {k : Nat} (hlo : r + 1 ≤ k) (hhi : k ≤ r + 1 + handshakeTimeoutCycles) :
      phaseAt f q xs k = .awaitAck :=
    (phaseAt_wait h hsteady hwaits hfresh le_rfl (fun i hi => hno i (by omega)) hlo hhi).trans
      hawait
  refine ⟨?_, ?_, ?_⟩
  · rw [handshakeIdle_eq h hsteady, phaseAt_succ h, hidle]
    rfl
  · intro k hk
    rw [handshakeIdle_eq h hsteady]
    by_cases hr : k + 1 ≤ r
    · rw [hwrite _ hr]
      rfl
    · rw [hphase (by omega) (by omega)]
      rfl
  · refine iff_of_true htimed (.inl fun k hk hq => ?_)
    by_cases hr : k ≤ r
    · rw [hwrite k hr] at hq
      cases hq
    · obtain ⟨i, rfl⟩ := Nat.exists_eq_add_of_le (show r + 1 ≤ k by omega)
      exact hno i (by omega)

/-- The drive has acknowledged, and the wait for the release of the acknowledge starts after the
call `m`: the handshake ends with that wait. -/
theorem ends_acknowledged (h : Undisturbed q xs) (hsteady : ∀ k, (xs k).inp.stopping = false)
    {m : Nat} (hbusy : ∀ k ≤ m, phaseAt f q xs k ≠ .idle)
    (hseen : ∃ k ≤ m, phaseAt f q xs k = .awaitAck ∧
      (xs k).inp.status.setpointAcknowledged = true)
    (hawait : (before f q xs (m + 1)).handshake = .awaitAckClear)
    (hfresh : (before f q xs (m + 1)).handshakeCyclesRemaining = handshakeTimeoutCycles) :
    ∃ n ≤ m + 1 + handshakeTimeoutCycles, Ends f q xs n := by
  have hwaits : (before f q xs (m + 1)).handshake.awaits = some false := by rw [hawait]; rfl
  -- Up to the call `m + 1 + j` the wait has not been answered.
  have hphase {j : Nat} (hj : j ≤ handshakeTimeoutCycles)
      (hno : ∀ i < j, (xs (m + 1 + i)).inp.status.setpointAcknowledged = true) {k : Nat}
      (hlo : m + 1 ≤ k) (hhi : k ≤ m + 1 + j) : phaseAt f q xs k = .awaitAckClear :=
    (phaseAt_wait h hsteady hwaits hfresh hj hno hlo hhi).trans hawait
  have hfirst {j : Nat} (hj : j ≤ handshakeTimeoutCycles)
      (hno : ∀ i < j, (xs (m + 1 + i)).inp.status.setpointAcknowledged = true) :
      ∀ k < m + 1 + j, (before f q xs (k + 1)).state.handshakeIdle = false := by
    intro k hk
    rw [handshakeIdle_eq h hsteady]
    by_cases hm : k + 1 ≤ m
    · exact decide_eq_false (hbusy _ hm)
    · rw [hphase hj hno (by omega) (by omega)]
      rfl
  by_cases hdrop : ∃ j, j ≤ handshakeTimeoutCycles ∧
      (xs (m + 1 + j)).inp.status.setpointAcknowledged = false
  · -- The drive takes the acknowledge back, for the first time in the call `m + 1 + j`.
    obtain ⟨hj, hyes⟩ := Nat.find_spec hdrop
    have hno : ∀ i < Nat.find hdrop,
        (xs (m + 1 + i)).inp.status.setpointAcknowledged = true := by
      intro i hi
      have hmin := Nat.find_min hdrop hi
      exact Bool.eq_true_of_not_eq_false fun hfalse => hmin ⟨by omega, hfalse⟩
    obtain ⟨hidle, htimed⟩ := wait_answered h hsteady hwaits hfresh hj hno hyes
    rw [hawait] at hidle
    refine ⟨m + 1 + Nat.find hdrop, by omega, ?_, hfirst hj hno, ?_⟩
    · rw [handshakeIdle_eq h hsteady, phaseAt_succ h, hidle]
      rfl
    · refine iff_of_false (by simp [htimed]) ?_
      rintro (hnever | ⟨-, hheld⟩)
      · obtain ⟨k, hk, hq, hack⟩ := hseen
        rw [hnever k (by omega) hq] at hack
        cases hack
      · have hlast := (hheld _ (Nat.sub_le _ _) le_rfl).2
        rw [hyes] at hlast
        cases hlast
  · -- The acknowledge stays, and the wait expires.
    have hno : ∀ i ≤ handshakeTimeoutCycles,
        (xs (m + 1 + i)).inp.status.setpointAcknowledged = true := by
      intro i hi
      exact Bool.eq_true_of_not_eq_false fun hfalse => hdrop ⟨i, hi, hfalse⟩
    obtain ⟨hidle, htimed⟩ := wait_expires h hsteady hwaits hfresh hno
    refine ⟨m + 1 + handshakeTimeoutCycles, le_rfl, ?_,
      hfirst le_rfl fun i hi => hno i (by omega), ?_⟩
    · rw [handshakeIdle_eq h hsteady, phaseAt_succ h, hidle]
      rfl
    · refine iff_of_true htimed (.inr ⟨by omega, fun k hlo hhi => ?_⟩)
      obtain ⟨i, rfl⟩ := Nat.exists_eq_add_of_le (show m + 1 ≤ k by omega)
      exact ⟨hphase le_rfl (fun i hi => hno i (by omega)) (by omega) hhi, hno i (by omega)⟩

end

end Sequencer

/-- An undisturbed handshake outside the stopping window ends after at most 205 further steps, with
a timeout exactly when the drive missed one of its answers. -/
theorem handshake_bounded (f : Fields) (q : Sequencer) (xs : Nat → SequencerCall)
    (h : Sequencer.Undisturbed q xs) (hsteady : ∀ k, (xs k).inp.stopping = false) :
    ∃ n ≤ 205, Sequencer.Ends f q xs n := by
  obtain ⟨r, hr, hwrite, hawait, hfresh⟩ := Sequencer.exists_edge (f := f) h hsteady
  have hwaits : (Sequencer.before f q xs (r + 1)).handshake.awaits = some true := by
    rw [hawait]
    rfl
  have htimeout : handshakeTimeoutCycles = 100 := rfl
  by_cases hack : ∃ j, j ≤ handshakeTimeoutCycles ∧
      (xs (r + 1 + j)).inp.status.setpointAcknowledged = true
  · -- The first acknowledge is in the call `r + 1 + j`, and the next call drops bit 4.
    obtain ⟨hj, hyes⟩ := Nat.find_spec hack
    have hno : ∀ i < Nat.find hack,
        (xs (r + 1 + i)).inp.status.setpointAcknowledged = false := by
      intro i hi
      have hmin := Nat.find_min hack hi
      exact Bool.eq_false_of_not_eq_true fun htrue => hmin ⟨by omega, htrue⟩
    revert hj hyes hno
    generalize Nat.find hack = j
    intro hj hyes hno
    have hphase {k : Nat} (hlo : r + 1 ≤ k) (hhi : k ≤ r + 1 + j) :
        Sequencer.phaseAt f q xs k = .awaitAck :=
      (Sequencer.phaseAt_wait h hsteady hwaits hfresh hj hno hlo hhi).trans hawait
    have hclear := (Sequencer.wait_answered h hsteady hwaits hfresh hj hno hyes).1
    rw [hawait, if_pos rfl] at hclear
    obtain ⟨hwait, hagain⟩ := Sequencer.step_of_clearBit4 f (xs (r + 1 + j + 1)).out
      (Sequencer.before_reaches h hsteady (r + 1 + j + 1)) (h.once _) hclear
    have hbusy : ∀ k ≤ r + 1 + j + 1, Sequencer.phaseAt f q xs k ≠ .idle := by
      intro k hk
      by_cases hkr : k ≤ r
      · simp [hwrite k hkr]
      by_cases hkj : k ≤ r + 1 + j
      · simp [hphase (by omega) hkj]
      · rw [show k = r + 1 + j + 1 by omega, Sequencer.phaseAt_succ h, hclear]
        decide
    obtain ⟨n, hn, hends⟩ := Sequencer.ends_acknowledged h hsteady hbusy
      ⟨r + 1 + j, by omega, hphase (by omega) le_rfl, hyes⟩ hwait hagain
    exact ⟨n, by omega, hends⟩
  · have hno : ∀ i ≤ handshakeTimeoutCycles,
        (xs (r + 1 + i)).inp.status.setpointAcknowledged = false := by
      intro i hi
      exact Bool.eq_false_of_not_eq_true fun htrue => hack ⟨i, hi, htrue⟩
    exact ⟨_, by omega, Sequencer.ends_unacknowledged h hsteady hwrite hawait hfresh hno⟩

/-- A drive that acknowledges in the call after the edge and takes the acknowledge back in the
next one. -/
def promptCalls (k : Nat) : SequencerCall :=
  energizedCall (if k = 1 then 0x1027#16 else 0x0027#16) { newSetpoint := decide (k = 0) }

theorem handshake_bounded_prompt :
    Sequencer.Undisturbed {} promptCalls ∧
      ∃ n ≤ 205, Sequencer.Ends allMapped {} promptCalls n := by
  have hsw (k : Nat) : (promptCalls k).inp.status.raw = 0x1027#16 ∨
      (promptCalls k).inp.status.raw = 0x0027#16 := by
    unfold promptCalls
    split_ifs
    · exact .inl rfl
    · exact .inr rfl
  have h : Sequencer.Undisturbed {} promptCalls := by
    refine ⟨rfl, fun k => rfl, fun k => rfl, fun k => rfl, fun k => rfl, rfl, ?_, ?_⟩
    · intro k
      rcases hsw k with hk | hk <;> simp only [Status.operationEnabled, hk] <;> decide
    · intro k
      rcases hsw k with hk | hk <;> simp only [Status.decode, hk] <;> decide
  exact ⟨h, handshake_bounded allMapped {} promptCalls h fun k => rfl⟩

/-- The same commands in the stopping window. -/
def stoppingCalls (k : Nat) : SequencerCall :=
  { promptCalls k with inp := { (promptCalls 0).inp with stopping := true } }

/-- In the stopping window the handshake never ends: the quick-stop is written before it. -/
theorem handshake_unbounded_stopping :
    ¬ ∀ (f : Fields) (q : Sequencer) (xs : Nat → SequencerCall), Sequencer.Undisturbed q xs →
      ∃ n ≤ 205, Sequencer.Ends f q xs n := by
  intro h
  have hon : (promptCalls 0).inp.status.operationEnabled = true := by decide
  have hhealthy : (promptCalls 0).inp.status.decode ≠ .fault := by decide
  have hundisturbed : Sequencer.Undisturbed {} stoppingCalls :=
    ⟨rfl, fun k => rfl, fun k => rfl, fun k => rfl, fun k => rfl, rfl, fun k => hon,
      fun k => hhealthy⟩
  obtain ⟨n, -, hends⟩ := h allMapped {} stoppingCalls hundisturbed
  have hbusy (k : Nat) :
      (Sequencer.before allMapped {} stoppingCalls (k + 1)).state.handshakeIdle = false := by
    induction k with
    | zero => rfl
    | succ k ih => exact ih
  have hidle := hends.idle
  rw [hbusy n] at hidle
  cases hidle

end ViamEthercat
