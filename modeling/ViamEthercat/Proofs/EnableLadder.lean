import ViamEthercat.Lib.Countdown
import ViamEthercat.Proofs.ControlWords

/-!
# `ViamEthercat.Proofs.EnableLadder`: the loop brings up a conformant drive

The real-time loop and a drive run against each other. `Drive` is the other side: the state machine
of a CiA402 drive, which takes its transitions on the commands of the controlword, late by any
number of cycles. `Axis` is the closed loop.

`LadderView` is what the enable ladder and the recovery work on. `cycle_ladder` says that a cycle
without a command that interferes is one `LadderView.step`. From there on `left` counts: no cycle
raises it, and a cycle in which the drive acts lowers it. So the drive is enabled after at most
`left` such cycles (`ladder_enables_drive`), also out of a fault.
-/

set_option autoImplicit false

namespace ViamEthercat.Servo

open Lib Controller

/-! ### The ladder -/

/-- What the enable ladder and the recovery work on. -/
structure LadderView where
  lifecycle : Lifecycle
  /-- 0x6040 -/
  word : ControlWord
  /-- 0x6060 -/
  mode : Int8
  /-- the mode that the motion mode commands -/
  want : Cia402Mode
  /-- the mode that it commands once it is reset -/
  base : Cia402Mode
  resetCycles : Nat
  clearStreak : Nat
deriving DecidableEq, Repr

/-- What a controller shows of the ladder. -/
def Controller.ladder (s : Controller) : LadderView where
  lifecycle := s.lifecycle
  word := s.outputs.controlword
  mode := s.outputs.modeOfOperation
  want := s.motion.commandedMode
  base := s.motion.reset.commandedMode
  resetCycles := s.resetCycles
  clearStreak := s.clearStreak

/-- The word of the ladder toward OperationEnabled. -/
def climbWord : Cia402State → ControlWord
  | .notReadyToSwitchOn | .faultReactionActive => ControlWord.disableVoltage
  | .switchOnDisabled => ControlWord.shutdown
  | .readyToSwitchOn => ControlWord.switchOn
  | .switchedOn | .operationEnabled | .quickStopActive => ControlWord.enableOperation
  | .fault => ControlWord.faultReset

theorem fsmStep_eq_climbWord (st : Status) :
    fsmStep st .operationEnabled = climbWord st.decode := by
  unfold fsmStep climbWord
  cases st.decode <;> rfl

namespace LadderView

variable (p : RtParams) (v : LadderView)

/-- A drive in Fault starts the recovery. -/
def recover : LadderView :=
  { v with lifecycle := .resetting, word := ControlWord.faultReset, want := v.base,
           resetCycles := 0, clearStreak := 0 }

/-- 0x6061 echoes the commanded mode, or is not mapped. -/
def echoed (display : Int8) : Bool := !p.fields.modeDisplay || decide (display = v.want.code)

/-- A cycle of the ladder, or of the recovery, on a drive in the state `dev`. -/
def step (dev : Cia402State) (display : Int8) : LadderView :=
  match v.lifecycle with
  | .init =>
      if dev = .fault then v.recover
      else { v with lifecycle := .enabling, word := ControlWord.disableVoltage }
  | .enabling =>
      if dev = .fault then v.recover
      else
        let w := { v with mode := if p.fields.modeOfOperation then v.want.code else v.mode }
        if v.echoed p display = false ∧ (dev = .switchedOn ∨ dev = .operationEnabled) then
          { w with word := ControlWord.switchOn }
        else
          { w with word := climbWord dev
                   lifecycle := if dev = .operationEnabled then .operational else .enabling }
  | .resetting =>
      let streak := if dev ≠ .fault then v.clearStreak + 1 else 0
      if p.faultResetClearConfirmCycles ≤ streak then
        { v with lifecycle := .enabling, word := climbWord dev, clearStreak := streak }
      else
        let n := (v.resetCycles + 1) % 2 ^ 32
        { v with
            clearStreak := streak, resetCycles := n
            word := if dev = .fault ∧ n % p.faultResetWindowCycles = 0 then ControlWord.faultReset
              else ControlWord.disableVoltage }
  | _ => v

end LadderView

/-- The batch has nothing that leads away from the ladder: no disable, no reset of its own, and no
command that could ask for another mode. -/
structure Quiet (b : CommandBatch) : Prop where
  setTarget : b.setTarget = none
  setVelocity : b.setVelocity = none
  disable : b.disable = false
  faultReset : b.faultReset = false

instance (b : CommandBatch) : Decidable (Quiet b) :=
  decidable_of_iff (b.setTarget.isNone = true ∧ b.setVelocity.isNone = true ∧
      b.disable = false ∧ b.faultReset = false) <| by
    rw [Option.isNone_iff_eq_none, Option.isNone_iff_eq_none]
    exact ⟨fun ⟨ht, hv, hd, hf⟩ => ⟨ht, hv, hd, hf⟩, fun ⟨ht, hv, hd, hf⟩ => ⟨ht, hv, hd, hf⟩⟩

section
variable {p : RtParams} {s : Controller} {inp : CycleInput} {b : CommandBatch} {t : Tick}

theorem commandedMode_tracked (m : MotionMode ℚ) (actual : Int32) :
    (m.tracked actual).commandedMode = m.commandedMode ∧
      (m.tracked actual).reset.commandedMode = m.reset.commandedMode := by
  cases m with
  | profile m => exact ⟨rfl, rfl⟩
  | cyclic m => exact ⟨rfl, rfl⟩

/-- A quiet batch leaves the mode, but for a halt. -/
theorem Quiet.commandedMode (hq : Quiet b) :
    (s.routedMotion inp b).commandedMode = s.motion.commandedMode ∧
      (s.routedMotion inp b).reset.commandedMode = s.motion.reset.commandedMode := by
  unfold routedMotion velocityMotion targetedMotion stoppedMotion
  rw [hq.setVelocity, hq.setTarget]
  dsimp only
  split_ifs
  · cases s.motion with
    | profile m => exact ⟨rfl, rfl⟩
    | cyclic m => exact ⟨rfl, rfl⟩
  · exact ⟨rfl, rfl⟩

/-- What the ladder shows of a step of the state machine. -/
def ladderOf (r : Controller × ControlWord) : LadderView :=
  { r.1.ladder with word := r.2 }

/-- What a controller shows after a quiet batch is routed. -/
theorem ladder_routeCommands (hq : Quiet b) : (s.routeCommands inp b).ladder = s.ladder := by
  obtain ⟨hwant, hbase⟩ : (s.routedMotion inp b).commandedMode = s.motion.commandedMode ∧
      (s.routedMotion inp b).reset.commandedMode = s.motion.reset.commandedMode := hq.commandedMode
  obtain ⟨le, te, w, hf, -, -, hroute⟩ := s.routeCommands_eq inp b
  rw [hroute, ladder, ladder, hwant, hbase]

/-- A drive in Fault starts the recovery. -/
theorem ladderOf_enterResetting (hestop : estopPresent p inp = false) :
    ladderOf (s.enterResetting p inp) = s.ladder.recover := by
  simp [enterResetting, hestop, ladderOf, ladder, LadderView.recover]

theorem ladderOf_stepInit (hl : s.lifecycle = .init) (hestop : estopPresent p inp = false) :
    ladderOf (s.stepInit p inp) = s.ladder.step p inp.status.decode inp.modeDisplay := by
  rw [stepInit, LadderView.step, show s.ladder.lifecycle = .init from hl]
  by_cases hdev : inp.status.decode = .fault
  · rw [if_pos hdev, ladderOf_enterResetting hestop]
    exact (if_pos hdev).symm
  · rw [if_neg hdev]
    exact (if_neg hdev).symm

theorem ladderOf_stepEnabling (hl : s.lifecycle = .enabling)
    (hestop : estopPresent p inp = false) :
    ladderOf (s.stepEnabling p inp) = s.ladder.step p inp.status.decode inp.modeDisplay := by
  rw [stepEnabling, LadderView.step, show s.ladder.lifecycle = .enabling from hl]
  by_cases hdev : inp.status.decode = .fault
  · rw [if_pos hdev, ladderOf_enterResetting hestop]
    exact (if_pos hdev).symm
  · rw [if_neg hdev]
    refine Eq.trans ?_ (if_neg hdev).symm
    have hecho : modeEchoed p inp s.motion.commandedMode = s.ladder.echoed p inp.modeDisplay := rfl
    have hmode : (s.outputs.storeMode p.fields s.motion.commandedMode).modeOfOperation =
        if p.fields.modeOfOperation then s.motion.commandedMode.code
        else s.outputs.modeOfOperation := by
      unfold Outputs.storeMode
      split <;> rfl
    dsimp only
    rw [hecho]
    by_cases hhold : s.ladder.echoed p inp.modeDisplay = false ∧
        (inp.status.decode = .switchedOn ∨ inp.status.decode = .operationEnabled)
    · have hword : fsmStep inp.status .switchedOn = ControlWord.switchOn := by
        unfold fsmStep
        obtain hdev | hdev := hhold.2
        · rw [hdev]
          rfl
        · rw [hdev]
          rfl
      rw [if_pos hhold, if_pos (by simpa using hhold), ladderOf, ladder]
      dsimp only
      rw [hmode, hl, hword]
      rfl
    · rw [if_neg hhold, if_neg (by simpa using hhold), fsmStep_eq_climbWord, ladderOf, ladder]
      dsimp only
      rw [hmode, hl]
      rfl

theorem ladderOf_stepResetting (hl : s.lifecycle = .resetting) (hq : Quiet b)
    (hestop : estopPresent p inp = false) :
    ladderOf (s.stepResetting p inp b) = s.ladder.step p inp.status.decode inp.modeDisplay := by
  rw [stepResetting, LadderView.step, show s.ladder.lifecycle = .resetting from hl]
  simp only [hq.disable, hq.faultReset, hestop, Bool.false_eq_true, if_false, ge_iff_le,
    Bool.not_false, true_and, show s.ladder.clearStreak = s.clearStreak from rfl,
    show s.ladder.resetCycles = s.resetCycles from rfl]
  generalize (if inp.status.decode ≠ .fault then s.clearStreak + 1 else 0) = streak
  by_cases hback : p.faultResetClearConfirmCycles ≤ streak
  · rw [if_pos hback, if_pos hback, fsmStep_eq_climbWord]
    rfl
  · rw [if_neg hback, if_neg hback, ladderOf, ladder]
    dsimp only
    rw [hl]
    rfl

/-- A quiet step of the state machine is a step of the ladder. -/
theorem ladderOf_stepLifecycle
    (hl : s.lifecycle = .init ∨ s.lifecycle = .enabling ∨ s.lifecycle = .resetting) (hq : Quiet b)
    (hestop : estopPresent p inp = false) : ladderOf (s.stepLifecycle p inp b) =
      s.ladder.step p inp.status.decode inp.modeDisplay := by
  have hroute : (s.routeCommands inp b).lifecycle = s.lifecycle := routeCommands_lifecycle ..
  have hladder : (s.routeCommands inp b).ladder = s.ladder := ladder_routeCommands hq
  rw [← hladder]
  obtain hl | hl | hl := hl
  · rw [stepLifecycle_init hl]
    exact ladderOf_stepInit (hroute.trans hl) hestop
  · rw [stepLifecycle_enabling hl]
    exact ladderOf_stepEnabling (hroute.trans hl) hestop
  · rw [stepLifecycle_resetting hl]
    exact ladderOf_stepResetting (hroute.trans hl) hq hestop

/-- Tracking writes 0x607A only. -/
theorem trackUnlessOperational_mode :
    (s.trackUnlessOperational p inp).outputs.modeOfOperation = s.outputs.modeOfOperation := by
  unfold trackUnlessOperational track
  split
  · cases s.motion with
    | profile m => rfl
    | cyclic m =>
        show (Outputs.storeTargetPosition _ _ _).modeOfOperation = _
        unfold Outputs.storeTargetPosition
        split <;> rfl
  · rfl

/-- A steady cycle shows what the state machine does. -/
theorem cycle_ladderOf (hsteady : t.inp.stopping = false) :
    (cycle p s t).ladder = ladderOf (lifecycleStep p s t.inp (drain t.drained)) := by
  have hmode : (cycle p s t).outputs.modeOfOperation =
      (lifecycleStep p s t.inp (drain t.drained)).1.outputs.modeOfOperation := by
    rw [cycle_outputs hsteady, trackUnlessOperational_mode]
    rfl
  have hword := cycle_controlword (p := p) (s := s) hsteady
  have hmotion := cycle_motion_steady (p := p) (s := s) hsteady
  obtain ⟨hwant, hbase⟩ : (cycle p s t).motion.commandedMode =
        (lifecycleStep p s t.inp (drain t.drained)).1.motion.commandedMode ∧
      (cycle p s t).motion.reset.commandedMode =
        (lifecycleStep p s t.inp (drain t.drained)).1.motion.reset.commandedMode := by
    rw [hmotion]
    unfold settledMotion
    split
    · exact commandedMode_tracked ..
    · exact ⟨rfl, rfl⟩
  obtain ⟨te, ph, ar, w, out, -, hc⟩ := cycle_steady (p := p) (s := s) hsteady
  rw [ladder, hmode, hword, hwant, hbase, hc]
  rfl

/-- A quiet cycle is a step of the ladder. -/
theorem cycle_ladder
    (hl : s.lifecycle = .init ∨ s.lifecycle = .enabling ∨ s.lifecycle = .resetting)
    (hsteady : t.inp.stopping = false) (hq : Quiet (drain t.drained))
    (hestop : estopPresent p t.inp = false) :
    (cycle p s t).ladder = s.ladder.step p t.inp.status.decode t.inp.modeDisplay := by
  rw [cycle_ladderOf hsteady]
  exact ladderOf_stepLifecycle (s := s.sample t.inp) hl hq hestop

end

/-! ### The drive -/

/-- The commands of the controlword. -/
inductive DriveCommand where
  | disableVoltage
  | quickStop
  | shutdown
  | switchOn
  | enableOperation
deriving DecidableEq, Repr

/-- The command that a controlword gives. While bit 7 is set it gives none. -/
def commandOf (cw : ControlWord) : Option DriveCommand :=
  if cw.bit7 then none
  else some <|
    if !cw.getLsbD 1 then .disableVoltage
    else if !cw.getLsbD 2 then .quickStop
    else if !cw.getLsbD 0 then .shutdown
    else if cw.enableBit then .enableOperation
    else .switchOn

/-- The transitions of a CiA402 drive, but for those into and out of Fault. -/
def transition : Cia402State → Option DriveCommand → Cia402State
  | .notReadyToSwitchOn, _ => .switchOnDisabled
  | .faultReactionActive, _ => .fault
  | .switchOnDisabled, some .shutdown => .readyToSwitchOn
  | .readyToSwitchOn, some .switchOn | .readyToSwitchOn, some .enableOperation => .switchedOn
  | .readyToSwitchOn, some .disableVoltage | .readyToSwitchOn, some .quickStop => .switchOnDisabled
  | .switchedOn, some .enableOperation => .operationEnabled
  | .switchedOn, some .shutdown => .readyToSwitchOn
  | .switchedOn, some .disableVoltage | .switchedOn, some .quickStop => .switchOnDisabled
  | .operationEnabled, some .switchOn => .switchedOn
  | .operationEnabled, some .shutdown => .readyToSwitchOn
  | .operationEnabled, some .disableVoltage => .switchOnDisabled
  | .operationEnabled, some .quickStop => .quickStopActive
  | .quickStopActive, some .enableOperation => .operationEnabled
  | .quickStopActive, some .disableVoltage => .switchOnDisabled
  | d, _ => d

/-- A drive: its state, the mode it runs (0x6061), whether bit 7 has risen since it is in Fault,
and the controlword of the last frame. -/
structure Drive where
  state : Cia402State
  display : Int8
  reset : Bool := false
  word : ControlWord := ControlWord.disableVoltage
deriving DecidableEq, Repr

namespace Drive

/-- A frame arrives. -/
def receive (d : Drive) (word : ControlWord) : Drive :=
  { d with reset := d.reset || (decide (d.state = .fault) && word.bit7 && !d.word.bit7)
           word := word }

/-- The drive acts on what it has: a reset edge, or the command, and the mode. -/
def act (f : Fields) (d : Drive) (mode : Int8) : Drive :=
  { d with state := if d.state = .fault ∧ d.reset then .switchOnDisabled
             else transition d.state (commandOf d.word)
           display := if f.modeOfOperation then mode else d.display
           reset := false }

/-- A frame arrives, and the drive acts on it or is late. -/
def next (f : Fields) (v : LadderView) (acts : Bool) (d : Drive) : Drive :=
  if acts then (d.receive v.word).act f v.mode else d.receive v.word

end Drive

/-! ### The countdown -/

/-- What is left to climb. -/
def rung : Cia402State → ℕ
  | .notReadyToSwitchOn => 4
  | .switchOnDisabled => 3
  | .readyToSwitchOn => 2
  | _ => 1

namespace LadderView

variable (p : RtParams) (v : LadderView) (d : Drive)

/-- The word that the ladder writes to the drive. -/
def ladderWord : ControlWord :=
  if v.echoed p d.display = false ∧ (d.state = .switchedOn ∨ d.state = .operationEnabled) then
    ControlWord.switchOn
  else climbWord d.state

/-- The last cycle was one of the ladder, on the state that the drive is in. -/
def OnLadder : Prop :=
  v.word = v.ladderWord p d ∧ (p.fields.modeOfOperation = true → v.mode = v.want.code)

instance : Decidable (v.OnLadder p d) := inferInstanceAs (Decidable (_ ∧ _))

/-- The next frame has a rising edge of bit 7. -/
def Pending : Prop := v.word.bit7 = true ∧ d.word.bit7 = false

instance : Decidable (v.Pending d) := inferInstanceAs (Decidable (_ ∧ _))

/-- What is left of the recovery and the ladder. -/
def left : ℕ :=
  let confirm := p.faultResetClearConfirmCycles
  let window := p.faultResetWindowCycles
  match v.lifecycle with
  | .init => confirm + window + 12
  | .enabling =>
      match d.state with
      | .faultReactionActive => confirm + window + 11
      | .fault => confirm + window + 10
      | state =>
          if v.OnLadder p d then if v.echoed p d.display then rung state else 5
          else 6
  | .resetting =>
      if d.state ≠ .fault then 7 + (confirm - v.clearStreak)
      else if d.reset then confirm + 8
      else if v.Pending d then confirm + 9
      else confirm + 9 + (window - v.resetCycles)
  | _ => 0

/-- The recovery runs on a drive that is in Fault or has left it. Until bit 7 rises, its counter is
inside the first window. -/
structure Recovering : Prop where
  reaction : d.state ≠ .faultReactionActive
  edge : d.state = .fault → d.reset = false → v.Pending d ∨
    (v.resetCycles < p.faultResetWindowCycles ∧ (v.resetCycles = 0 ∨ v.word.bit7 = false))

/-- The drive can echo the mode: 0x6060 is mapped, or 0x6061 is not, or the drive runs the one mode
that is commanded. -/
def CanEcho : Prop :=
  p.fields.modeOfOperation = true ∨ p.fields.modeDisplay = false ∨
    (v.want = v.base ∧ d.display = v.base.code)

/-- A controller on the way to Operational, and a drive that can echo its mode. -/
structure OnTheWay : Prop where
  lifecycle : v.lifecycle = .init ∨ v.lifecycle = .enabling ∨ v.lifecycle = .resetting
  echoes : v.CanEcho p d
  recovering : v.lifecycle = .resetting → v.Recovering p d

end LadderView

section
variable {p : RtParams} {v : LadderView} {d : Drive} {acts : Bool}

/-- A drive comes into its fault reaction by an event of its own only. -/
theorem transition_ne_reaction (s : Cia402State) (c : Option DriveCommand) :
    transition s c ≠ .faultReactionActive := by
  cases s <;> rcases c with _ | c <;> (try cases c) <;> decide

/-- And into Fault through the reaction only. -/
theorem transition_eq_fault {s : Cia402State} {c : Option DriveCommand}
    (h : transition s c = .fault) : s = .fault ∨ s = .faultReactionActive := by
  revert h
  cases s <;> rcases c with _ | c <;> (try cases c) <;> decide

/-- What the drive does on the ladder's own word. -/
theorem transition_climbWord (s : Cia402State) : transition s (commandOf (climbWord s)) =
    match s with
    | .notReadyToSwitchOn => .switchOnDisabled
    | .switchOnDisabled => .readyToSwitchOn
    | .readyToSwitchOn => .switchedOn
    | .switchedOn | .operationEnabled | .quickStopActive => .operationEnabled
    | .faultReactionActive | .fault => .fault := by
  cases s <;> rfl

theorem Drive.next_eq_reaction (h : (d.next p.fields v acts).state = .faultReactionActive) :
    d.state = .faultReactionActive ∧ acts = false := by
  unfold next at h
  cases acts with
  | false => exact ⟨h, rfl⟩
  | true =>
      rw [if_pos rfl, act] at h
      dsimp only at h
      split at h
      · cases h
      · exact absurd h (transition_ne_reaction _ _)

/-- A drive that stays in Fault: it takes no reset edge, or it is late. -/
theorem Drive.next_in_fault (hd : d.state = .fault)
    (h : (d.next p.fields v acts).state = .fault) :
    (d.next p.fields v acts).reset = (d.receive v.word).reset ∧
      (d.next p.fields v acts).word = v.word ∧
      ((d.receive v.word).reset = true → acts = false) := by
  cases acts with
  | false => exact ⟨rfl, rfl, fun _ => rfl⟩
  | true =>
      cases hedge : (d.receive v.word).reset with
      | false => exact ⟨rfl, rfl, nofun⟩
      | true =>
          have hleaves : (d.next p.fields v true).state = .switchOnDisabled := if_pos ⟨hd, hedge⟩
          rw [hleaves] at h
          cases h

theorem Drive.next_eq_fault (h : (d.next p.fields v acts).state = .fault) :
    d.state = .fault ∨ (d.state = .faultReactionActive ∧ acts = true) := by
  unfold next at h
  cases acts with
  | false => exact .inl h
  | true =>
      rw [if_pos rfl, act] at h
      dsimp only at h
      split at h
      · cases h
      · exact (transition_eq_fault h).imp_right fun h => ⟨h, rfl⟩

namespace LadderView

theorem left_recover (hd : d.state = .fault) : v.recover.left p d ≤
    p.faultResetClearConfirmCycles + p.faultResetWindowCycles + 9 := by
  show (if d.state ≠ .fault then _ else _) ≤ _
  rw [if_neg (by simp [hd])]
  split
  · omega
  · split
    · omega
    · show _ + (p.faultResetWindowCycles - 0) ≤ _
      omega

theorem recovering_recover (hwindow : 2 ≤ p.faultResetWindowCycles) (hd : d.state = .fault) :
    v.recover.Recovering p d where
  reaction := by simp [hd]
  edge _ _ := .inr ⟨by show 0 < _; omega, .inl rfl⟩

theorem rung_le (s : Cia402State) : rung s ≤ 4 := by
  cases s <;> decide

/-- What is left on the ladder. -/
theorem left_enabling (hl : v.lifecycle = .enabling) (hreaction : d.state ≠ .faultReactionActive)
    (hfault : d.state ≠ .fault) : v.left p d =
      if v.OnLadder p d then if v.echoed p d.display then rung d.state else 5 else 6 := by
  unfold left
  rw [hl]
  dsimp only
  split
  · exact absurd ‹_› hreaction
  · exact absurd ‹_› hfault
  · rfl

theorem left_enabling_le (hl : v.lifecycle = .enabling)
    (hreaction : d.state ≠ .faultReactionActive) (hfault : d.state ≠ .fault) :
    v.left p d ≤ 6 := by
  have hrung := rung_le d.state
  rw [left_enabling hl hreaction hfault]
  split
  · split <;> omega
  · omega

theorem left_onLadder (hl : v.lifecycle = .enabling) (hreaction : d.state ≠ .faultReactionActive)
    (hfault : d.state ≠ .fault) (hon : v.OnLadder p d) :
    v.left p d = if v.echoed p d.display then rung d.state else 5 := by
  rw [left_enabling hl hreaction hfault, if_pos hon]

/-- With five steps left or less it is on the ladder's own word. -/
theorem onLadder_of_left (hl : v.lifecycle = .enabling) (hleft : v.left p d ≤ 5) :
    d.state ≠ .faultReactionActive ∧ d.state ≠ .fault ∧ v.OnLadder p d := by
  have hreaction : d.state ≠ .faultReactionActive := fun hd => by
    unfold left at hleft
    rw [hl, hd] at hleft
    dsimp only at hleft
    omega
  have hfault : d.state ≠ .fault := fun hd => by
    unfold left at hleft
    rw [hl, hd] at hleft
    dsimp only at hleft
    omega
  refine ⟨hreaction, hfault, ?_⟩
  by_contra hoff
  rw [left_enabling hl hreaction hfault, if_neg hoff] at hleft
  omega

/-- A cycle on the ladder reaches Operational, or leaves the word for the next step. -/
theorem step_enabling (hl : v.lifecycle = .enabling) (hdev : d.state ≠ .fault) :
    (d.state = .operationEnabled ∧ v.echoed p d.display = true ∧
      (v.step p d.state d.display).lifecycle = .operational ∧
      (v.step p d.state d.display).word = ControlWord.enableOperation) ∨
    ((d.state = .operationEnabled → v.echoed p d.display = false) ∧
      (v.step p d.state d.display).lifecycle = .enabling ∧
      (v.step p d.state d.display).want = v.want ∧ (v.step p d.state d.display).base = v.base ∧
      (v.step p d.state d.display).OnLadder p d) := by
  have hstep : v.step p d.state d.display =
      let w := { v with mode := if p.fields.modeOfOperation then v.want.code else v.mode }
      if v.echoed p d.display = false ∧ (d.state = .switchedOn ∨ d.state = .operationEnabled) then
        { w with word := ControlWord.switchOn }
      else
        { w with
            word := climbWord d.state
            lifecycle := if d.state = .operationEnabled then .operational else .enabling } := by
    rw [step, hl]
    exact if_neg hdev
  have hmode : p.fields.modeOfOperation = true →
      (if p.fields.modeOfOperation then v.want.code else v.mode) = v.want.code := fun h => if_pos h
  rw [hstep]
  dsimp only
  by_cases hhold : v.echoed p d.display = false ∧
      (d.state = .switchedOn ∨ d.state = .operationEnabled)
  · rw [if_pos hhold]
    exact .inr ⟨fun _ => hhold.1, hl, rfl, rfl, (if_pos hhold).symm, hmode⟩
  · rw [if_neg hhold]
    by_cases htop : d.state = .operationEnabled
    · have hecho : v.echoed p d.display = true := by
        by_contra hlag
        exact hhold ⟨by simpa using hlag, .inr htop⟩
      rw [htop]
      exact .inl ⟨rfl, hecho, rfl, rfl⟩
    · exact .inr ⟨fun h => absurd h htop, if_neg htop, rfl, rfl, (if_neg hhold).symm, hmode⟩

/-- From the ladder's own word the drive takes the next rung, once the mode is echoed. -/
theorem rung_transition (hon : v.OnLadder p d) (hecho : v.echoed p d.display = true)
    (hreaction : d.state ≠ .faultReactionActive) (hfault : d.state ≠ .fault) :
    transition d.state (commandOf v.word) = .operationEnabled ∨
      (transition d.state (commandOf v.word) ≠ .faultReactionActive ∧
        transition d.state (commandOf v.word) ≠ .fault ∧
        rung (transition d.state (commandOf v.word)) < rung d.state) := by
  have hword : v.word = climbWord d.state := by
    rw [hon.1, ladderWord, hecho]
    exact if_neg (by simp)
  rw [hword, transition_climbWord]
  cases hd : d.state with
  | faultReactionActive => exact absurd hd hreaction
  | fault => exact absurd hd hfault
  | notReadyToSwitchOn | switchOnDisabled | readyToSwitchOn => exact .inr (by decide)
  | switchedOn | operationEnabled | quickStopActive => exact .inl rfl

/-- A drive that acts takes the mode that the ladder commands. -/
theorem echoed_next (hon : v.OnLadder p d) (hechoes : v.CanEcho p d) :
    v.echoed p (d.next p.fields v true).display = true := by
  show (!p.fields.modeDisplay || decide ((if p.fields.modeOfOperation then v.mode else d.display)
    = v.want.code)) = true
  obtain hmapped | hhidden | ⟨hwant, hdisplay⟩ := hechoes
  · rw [if_pos hmapped, hon.2 hmapped]
    simp
  · rw [hhidden]
    rfl
  · split
    · rw [hon.2 ‹_›]
      simp
    · rw [hwant, hdisplay]
      simp

/-- The display counts where it is mapped only. -/
theorem step_congr {dev : Cia402State} {a b : Int8} (h : p.fields.modeDisplay = true → a = b) :
    v.step p dev a = v.step p dev b := by
  have hecho : v.echoed p a = v.echoed p b := by
    cases hmapped : p.fields.modeDisplay with
    | true => rw [h hmapped]
    | false => simp [echoed, hmapped]
  unfold step
  rw [hecho]

theorem onTheWay_recover (hwindow : 2 ≤ p.faultResetWindowCycles) (hd : d.state = .fault)
    (hechoes : v.CanEcho p d) : v.recover.OnTheWay p d where
  lifecycle := .inr (.inr rfl)
  echoes := hechoes.imp_right fun h => h.imp_right fun h => ⟨rfl, h.2⟩
  recovering _ := recovering_recover hwindow hd

end LadderView

/-- What the drive shows as its mode stays possible to echo. -/
theorem LadderView.CanEcho.next (h : v.CanEcho p d) : v.CanEcho p (d.next p.fields v acts) := by
  obtain hmapped | hhidden | ⟨hwant, hdisplay⟩ := h
  · exact .inl hmapped
  · exact .inr (.inl hhidden)
  · cases hmapped : p.fields.modeOfOperation with
    | true => exact .inl hmapped
    | false =>
        refine .inr (.inr ⟨hwant, ?_⟩)
        unfold Drive.next Drive.act
        rw [hmapped]
        cases acts with
        | false => exact hdisplay
        | true => exact hdisplay

end

namespace LadderView

/-- A cycle: the frame arrives at the drive, and the controller sees what became of it. -/
def exchange (p : RtParams) (v : LadderView) (d : Drive) (acts : Bool) : LadderView :=
  v.step p (d.next p.fields v acts).state (d.next p.fields v acts).display

/-- The controller is Operational, on an enabled drive. -/
def Enabled (v : LadderView) (d : Drive) : Prop :=
  v.lifecycle = .operational ∧ d.state = .operationEnabled ∧ v.word = ControlWord.enableOperation

/-- A cycle is the last one, or it counts down, at least where the drive acts. -/
def Counts (p : RtParams) (v : LadderView) (d : Drive) (acts : Bool) : Prop :=
  (v.exchange p d acts).Enabled (d.next p.fields v acts) ∨
    ((v.exchange p d acts).OnTheWay p (d.next p.fields v acts) ∧
      (v.exchange p d acts).left p (d.next p.fields v acts) ≤ v.left p d ∧
      (acts = true → (v.exchange p d acts).left p (d.next p.fields v acts) < v.left p d))

section
variable {p : RtParams} {v : LadderView} {d : Drive} {acts : Bool}

/-- A cycle that counts down in any case. -/
theorem counts_of_lt (hway : (v.exchange p d acts).OnTheWay p (d.next p.fields v acts))
    (hlt : (v.exchange p d acts).left p (d.next p.fields v acts) < v.left p d) :
    v.Counts p d acts :=
  .inr ⟨hway, hlt.le, fun _ => hlt⟩

/-- A cycle that finds the drive in Fault starts the recovery. -/
theorem counts_recover (hwindow : 2 ≤ p.faultResetWindowCycles) (hechoes : v.CanEcho p d)
    (hl : v.lifecycle = .init ∨ v.lifecycle = .enabling)
    (hfault : (d.next p.fields v acts).state = .fault)
    (hleft : p.faultResetClearConfirmCycles + p.faultResetWindowCycles + 9 < v.left p d) :
    v.Counts p d acts := by
  have hexchange : v.exchange p d acts = v.recover := by
    unfold exchange step
    obtain hl | hl := hl
    · rw [hl]
      exact if_pos hfault
    · rw [hl]
      exact if_pos hfault
  refine counts_of_lt ?_ ?_
  · rw [hexchange]
    exact onTheWay_recover hwindow hfault hechoes.next
  · rw [hexchange]
    exact (left_recover hfault).trans_lt hleft

theorem counts_init (hwindow : 2 ≤ p.faultResetWindowCycles) (hl : v.lifecycle = .init)
    (hechoes : v.CanEcho p d) : v.Counts p d acts := by
  have hleft : v.left p d = p.faultResetClearConfirmCycles + p.faultResetWindowCycles + 12 := by
    unfold left
    rw [hl]
  by_cases hfault : (d.next p.fields v acts).state = .fault
  · exact counts_recover hwindow hechoes (.inl hl) hfault (by omega)
  · have hexchange : v.exchange p d acts =
        { v with lifecycle := .enabling, word := ControlWord.disableVoltage } := by
      unfold exchange step
      rw [hl]
      exact if_neg hfault
    refine counts_of_lt ?_ ?_
    · rw [hexchange]
      exact ⟨.inr (.inl rfl), hechoes.next, fun h => absurd h (by simp)⟩
    · rw [hexchange, hleft]
      by_cases hreaction : (d.next p.fields v acts).state = .faultReactionActive
      · unfold left
        rw [hreaction]
        dsimp only
        omega
      · exact (left_enabling_le rfl hreaction hfault).trans_lt (by omega)

/-- A cycle on the ladder that does not reach its top. -/
theorem counts_ladder (hl : v.lifecycle = .enabling) (hechoes : v.CanEcho p d)
    (hway : (v.exchange p d acts).OnTheWay p (d.next p.fields v acts))
    (hfault : (d.next p.fields v acts).state ≠ .fault)
    (htop : (d.next p.fields v acts).state = .operationEnabled →
      v.echoed p (d.next p.fields v acts).display = false)
    (hlife : (v.exchange p d acts).lifecycle = .enabling)
    (hwant : (v.exchange p d acts).want = v.want)
    (hon : (v.exchange p d acts).OnLadder p (d.next p.fields v acts)) : v.Counts p d acts := by
  by_cases hreaction : (d.next p.fields v acts).state = .faultReactionActive
  · obtain ⟨hd, hlate⟩ := Drive.next_eq_reaction hreaction
    refine .inr ⟨hway, ?_, fun h => absurd (hlate.symm.trans h) (by decide)⟩
    unfold left
    rw [hlife, hl, hreaction, hd]
  · have hnext : (v.exchange p d acts).left p (d.next p.fields v acts) =
        if v.echoed p (d.next p.fields v acts).display then rung (d.next p.fields v acts).state
        else 5 := by
      rw [left_onLadder hlife hreaction hfault hon, echoed, hwant]
      rfl
    have hrung := rung_le (d.next p.fields v acts).state
    have hfive : (v.exchange p d acts).left p (d.next p.fields v acts) ≤ 5 := by
      rw [hnext]
      split <;> omega
    by_cases hfar : 5 < v.left p d
    · exact counts_of_lt hway (by omega)
    · obtain ⟨hreaction₀, hfault₀, hon₀⟩ := onLadder_of_left hl (Nat.le_of_not_lt hfar)
      have hleft := left_onLadder hl hreaction₀ hfault₀ hon₀
      cases acts with
      | false =>
          -- A late drive shows the same state and mode.
          have hsame : (v.exchange p d false).left p (d.next p.fields v false) = v.left p d :=
            hnext.trans hleft.symm
          exact .inr ⟨hway, hsame.le, fun h => Bool.noConfusion h⟩
      | true =>
          have hecho := echoed_next hon₀ hechoes
          have hstate : (d.next p.fields v true).state = transition d.state (commandOf v.word) :=
            if_neg fun h => hfault₀ h.1
          rw [hecho, if_pos rfl] at hnext
          refine counts_of_lt hway ?_
          rw [hnext, hleft]
          split
          · rename_i hecho₀
            obtain htop' | ⟨-, -, hlt⟩ := rung_transition hon₀ hecho₀ hreaction₀ hfault₀
            · rw [htop (hstate.trans htop')] at hecho
              cases hecho
            · rwa [hstate]
          · omega

theorem counts_enabling (hwindow : 2 ≤ p.faultResetWindowCycles) (hl : v.lifecycle = .enabling)
    (hechoes : v.CanEcho p d) : v.Counts p d acts := by
  by_cases hfault : (d.next p.fields v acts).state = .fault
  · refine counts_recover hwindow hechoes (.inr hl) hfault ?_
    unfold left
    rw [hl]
    obtain hd | ⟨hd, -⟩ := Drive.next_eq_fault hfault
    · rw [hd]
      dsimp only
      omega
    · rw [hd]
      dsimp only
      omega
  · obtain ⟨hstate, hecho, hlife, hword⟩ | ⟨htop, hlife, hwant, hbase, hon⟩ :=
      step_enabling (p := p) (v := v) (d := d.next p.fields v acts) hl hfault
    · exact .inl ⟨hlife, hstate, hword⟩
    · have hway : (v.exchange p d acts).OnTheWay p (d.next p.fields v acts) := by
        refine ⟨.inr (.inl hlife), ?_, fun h => absurd (hlife.symm.trans h) (by simp)⟩
        show _ ∨ _ ∨ ((v.exchange p d acts).want = (v.exchange p d acts).base ∧ _)
        unfold exchange
        rw [hwant, hbase]
        exact hechoes.next
      exact counts_ladder hl hechoes hway hfault htop hlife hwant hon

/-- What is left in the recovery, while the drive is in Fault. -/
theorem left_fault (hl : v.lifecycle = .resetting) (hd : d.state = .fault) : v.left p d =
    if d.reset then p.faultResetClearConfirmCycles + 8
    else if v.Pending d then p.faultResetClearConfirmCycles + 9
    else p.faultResetClearConfirmCycles + 9 + (p.faultResetWindowCycles - v.resetCycles) := by
  unfold left
  rw [hl]
  exact if_neg (by simp [hd])

/-- And once it has left it. -/
theorem left_clear (hl : v.lifecycle = .resetting) (hd : d.state ≠ .fault) : v.left p d =
    7 + (p.faultResetClearConfirmCycles - v.clearStreak) := by
  unfold left
  rw [hl]
  exact if_pos hd

theorem left_fault_ge (hl : v.lifecycle = .resetting) (hd : d.state = .fault) :
    p.faultResetClearConfirmCycles + 8 ≤ v.left p d := by
  rw [left_fault hl hd]
  split
  · omega
  · split <;> omega

/-- The drive has left Fault: the confirmation counts down. -/
theorem counts_clear (hl : v.lifecycle = .resetting) (hechoes : v.CanEcho p d)
    (hfault : (d.next p.fields v acts).state ≠ .fault)
    (hreaction : (d.next p.fields v acts).state ≠ .faultReactionActive) : v.Counts p d acts := by
  have hleft : 7 + (p.faultResetClearConfirmCycles - v.clearStreak) ≤ v.left p d := by
    by_cases hd : d.state = .fault
    · have := left_fault_ge (p := p) hl hd
      omega
    · exact (left_clear hl hd).ge
  have hexchange : v.exchange p d acts =
      if p.faultResetClearConfirmCycles ≤ v.clearStreak + 1 then
        { v with lifecycle := .enabling, word := climbWord (d.next p.fields v acts).state
                 clearStreak := v.clearStreak + 1 }
      else { v with clearStreak := v.clearStreak + 1, resetCycles := (v.resetCycles + 1) % 2 ^ 32
                    word := ControlWord.disableVoltage } := by
    unfold exchange step
    rw [hl]
    simp only [ne_eq, hfault, not_false_eq_true, if_true, false_and, if_false]
  by_cases hback : p.faultResetClearConfirmCycles ≤ v.clearStreak + 1
  · rw [if_pos hback] at hexchange
    refine counts_of_lt ?_ ?_
    · rw [hexchange]
      exact ⟨.inr (.inl rfl), hechoes.next, fun h => absurd h (by simp)⟩
    · rw [hexchange]
      exact (left_enabling_le rfl hreaction hfault).trans_lt (by omega)
  · rw [if_neg hback] at hexchange
    refine counts_of_lt ?_ ?_
    · rw [hexchange]
      exact ⟨.inr (.inr hl), hechoes.next, fun _ => ⟨hreaction, fun h => absurd h hfault⟩⟩
    · rw [hexchange, left_clear (by exact hl) hfault]
      dsimp only
      omega

theorem no_edge (hd : d.state = .fault) (h : (d.receive v.word).reset = false) :
    d.reset = false ∧ ¬ v.Pending d := by
  have hor : (d.reset || (decide (d.state = .fault) && v.word.bit7 && !d.word.bit7)) = false := h
  rw [hd, Bool.or_eq_false_iff] at hor
  refine ⟨hor.1, fun hpending => ?_⟩
  rw [hpending.1, hpending.2] at hor
  exact absurd hor.2 (by decide)

/-- While the drive is in Fault the recovery counts the window, and raises bit 7 at its end. -/
theorem exchange_fault (hconfirm : 1 ≤ p.faultResetClearConfirmCycles)
    (hl : v.lifecycle = .resetting) (hfault : (d.next p.fields v acts).state = .fault) :
    v.exchange p d acts =
      { v with clearStreak := 0, resetCycles := (v.resetCycles + 1) % 2 ^ 32
               word := if (v.resetCycles + 1) % 2 ^ 32 % p.faultResetWindowCycles = 0 then
                   ControlWord.faultReset else ControlWord.disableVoltage } := by
  unfold exchange step
  rw [hl]
  simp only [ne_eq, hfault, not_true_eq_false, if_false, true_and]
  exact if_neg (by omega)

/-- A cycle that finds the drive in Fault is one of the recovery still. -/
theorem onTheWay_fault (hconfirm : 1 ≤ p.faultResetClearConfirmCycles)
    (hl : v.lifecycle = .resetting) (hechoes : v.CanEcho p d)
    (hfault : (d.next p.fields v acts).state = .fault)
    (hedge : (d.next p.fields v acts).reset = false →
      (v.exchange p d acts).Pending (d.next p.fields v acts) ∨
        ((v.exchange p d acts).resetCycles < p.faultResetWindowCycles ∧
          ((v.exchange p d acts).resetCycles = 0 ∨ (v.exchange p d acts).word.bit7 = false))) :
    (v.exchange p d acts).OnTheWay p (d.next p.fields v acts) where
  lifecycle := by
    rw [exchange_fault hconfirm hl hfault]
    exact .inr (.inr hl)
  echoes := by
    rw [exchange_fault hconfirm hl hfault]
    exact hechoes.next
  recovering _ := ⟨by simp [hfault], fun _ => hedge⟩

/-- The edge is there, and the drive is late. -/
theorem counts_late (hconfirm : 1 ≤ p.faultResetClearConfirmCycles)
    (hl : v.lifecycle = .resetting) (hechoes : v.CanEcho p d) (hd : d.state = .fault)
    (hfault : (d.next p.fields v acts).state = .fault)
    (hedge : (d.receive v.word).reset = true) : v.Counts p d acts := by
  obtain ⟨hreset, -, hlate⟩ := Drive.next_in_fault hd hfault
  rw [hedge] at hreset
  have hway := onTheWay_fault hconfirm hl hechoes hfault fun h => by
    rw [hreset] at h
    cases h
  refine .inr ⟨hway, ?_, fun hacts => ?_⟩
  · have hlife : (v.exchange p d acts).lifecycle = .resetting := by
      rw [exchange_fault hconfirm hl hfault]
      exact hl
    rw [left_fault hlife hfault, if_pos hreset]
    exact left_fault_ge hl hd
  · rw [hlate hedge] at hacts
    cases hacts

/-- There is no edge yet: the window goes on, or ends with one. -/
theorem counts_window (hwindow : 2 ≤ p.faultResetWindowCycles)
    (hword : p.faultResetWindowCycles < 2 ^ 32) (hconfirm : 1 ≤ p.faultResetClearConfirmCycles)
    (hl : v.lifecycle = .resetting) (hechoes : v.CanEcho p d) (hrec : v.Recovering p d)
    (hd : d.state = .fault) (hfault : (d.next p.fields v acts).state = .fault)
    (hedge : (d.receive v.word).reset = false) : v.Counts p d acts := by
  obtain ⟨hreset, hframe, -⟩ := Drive.next_in_fault hd hfault
  rw [hedge] at hreset
  obtain ⟨hbefore, hnone⟩ := no_edge hd hedge
  obtain ⟨hcount, hlow⟩ := (hrec.edge hd hbefore).resolve_left hnone
  have hleft : v.left p d = p.faultResetClearConfirmCycles + 9 +
      (p.faultResetWindowCycles - v.resetCycles) := by
    rw [left_fault hl hd, if_neg (by simp [hbefore]), if_neg hnone]
  -- The counter is inside the first window, so it does not wrap.
  have hmod : (v.resetCycles + 1) % 2 ^ 32 = v.resetCycles + 1 := Nat.mod_eq_of_lt (by omega)
  have hexchange := exchange_fault hconfirm hl hfault
  rw [hmod] at hexchange
  have hlife : (v.exchange p d acts).lifecycle = .resetting := by
    rw [hexchange]
    exact hl
  have hnext : (v.exchange p d acts).left p (d.next p.fields v acts) =
      if (v.exchange p d acts).Pending (d.next p.fields v acts) then
        p.faultResetClearConfirmCycles + 9
      else p.faultResetClearConfirmCycles + 9 +
        (p.faultResetWindowCycles - (v.exchange p d acts).resetCycles) := by
    rw [left_fault hlife hfault, if_neg (by simp [hreset])]
  by_cases hend : v.resetCycles + 1 = p.faultResetWindowCycles
  · -- The window ends: bit 7 rises, since it was low.
    have hlow : v.word.bit7 = false := hlow.resolve_left (by omega)
    have hhigh : (v.exchange p d acts).word = ControlWord.faultReset := by
      rw [hexchange, hend, Nat.mod_self]
      show (if (0 : ℕ) = 0 then ControlWord.faultReset else ControlWord.disableVoltage) = _
      exact if_pos rfl
    have hpending : (v.exchange p d acts).Pending (d.next p.fields v acts) :=
      ⟨by rw [hhigh]; decide, by rw [hframe, hlow]⟩
    refine counts_of_lt (onTheWay_fault hconfirm hl hechoes hfault fun _ => .inl hpending) ?_
    rw [hnext, if_pos hpending]
    omega
  · have hlt : v.resetCycles + 1 < p.faultResetWindowCycles := by omega
    have hwordLow : (v.exchange p d acts).word.bit7 = false := by
      rw [hexchange]
      dsimp only
      rw [if_neg (by rw [Nat.mod_eq_of_lt hlt]; omega)]
      decide
    have hcycles : (v.exchange p d acts).resetCycles = v.resetCycles + 1 := by rw [hexchange]
    refine counts_of_lt (onTheWay_fault hconfirm hl hechoes hfault fun _ => .inr ?_) ?_
    · exact ⟨hcycles ▸ hlt, .inr hwordLow⟩
    · rw [hnext, if_neg fun h => absurd (h.1.symm.trans hwordLow) (by decide), hcycles]
      omega

/-- The drive is still in Fault: a reset edge comes, or has come. -/
theorem counts_fault (hwindow : 2 ≤ p.faultResetWindowCycles)
    (hword : p.faultResetWindowCycles < 2 ^ 32) (hconfirm : 1 ≤ p.faultResetClearConfirmCycles)
    (hl : v.lifecycle = .resetting) (hechoes : v.CanEcho p d) (hrec : v.Recovering p d)
    (hfault : (d.next p.fields v acts).state = .fault) : v.Counts p d acts := by
  have hd : d.state = .fault :=
    (Drive.next_eq_fault hfault).resolve_right fun h => hrec.reaction h.1
  cases hedge : (d.receive v.word).reset with
  | true => exact counts_late hconfirm hl hechoes hd hfault hedge
  | false => exact counts_window hwindow hword hconfirm hl hechoes hrec hd hfault hedge

theorem counts_resetting (hwindow : 2 ≤ p.faultResetWindowCycles)
    (hword : p.faultResetWindowCycles < 2 ^ 32) (hconfirm : 1 ≤ p.faultResetClearConfirmCycles)
    (hl : v.lifecycle = .resetting) (hechoes : v.CanEcho p d) (hrec : v.Recovering p d) :
    v.Counts p d acts := by
  by_cases hfault : (d.next p.fields v acts).state = .fault
  · exact counts_fault hwindow hword hconfirm hl hechoes hrec hfault
  · exact counts_clear hl hechoes hfault fun h => hrec.reaction (Drive.next_eq_reaction h).1

end

end LadderView

/-! ### The closed loop -/

/-- The controller and its drive. -/
structure Axis where
  controller : Controller
  drive : Drive

/-- One cycle: what the controller gets, and whether the drive acts in it. -/
structure AxisEvent where
  tick : Tick
  acts : Bool

namespace Axis

variable (p : RtParams) (x : Axis) (e : AxisEvent)

/-- The frame of the last cycle arrives at the drive, and the controller does its cycle. -/
def step : Axis where
  controller := cycle p x.controller e.tick
  drive := x.drive.next p.fields x.controller.ladder e.acts

/-- The input image shows the drive, the batch is quiet, no emergency stop is engaged, and the loop
is not in its stopping window. -/
structure Conforms : Prop where
  status : e.tick.inp.status.decode =
    (x.drive.next p.fields x.controller.ladder e.acts).state
  display : p.fields.modeDisplay = true → e.tick.inp.modeDisplay =
    (x.drive.next p.fields x.controller.ladder e.acts).display
  quiet : Quiet (drain e.tick.drained)
  estop : estopPresent p e.tick.inp = false
  steady : e.tick.inp.stopping = false

instance : Decidable (x.Conforms p e) :=
  decidable_of_iff
    (e.tick.inp.status.decode = (x.drive.next p.fields x.controller.ladder e.acts).state ∧
      (p.fields.modeDisplay = true → e.tick.inp.modeDisplay =
        (x.drive.next p.fields x.controller.ladder e.acts).display) ∧
      Quiet (drain e.tick.drained) ∧ estopPresent p e.tick.inp = false ∧
      e.tick.inp.stopping = false)
    ⟨fun ⟨hs, hd, hq, he, hr⟩ => ⟨hs, hd, hq, he, hr⟩,
      fun ⟨hs, hd, hq, he, hr⟩ => ⟨hs, hd, hq, he, hr⟩⟩

/-- A controller that is on the ladder, or has just started its recovery, and a drive in any state
that can echo its mode. -/
structure Starts : Prop where
  lifecycle : x.controller.lifecycle = .init ∨ x.controller.lifecycle = .enabling ∨
    (x.controller.lifecycle = .resetting ∧ x.controller.resetCycles = 0 ∧
      x.drive.state ≠ .faultReactionActive)
  echoes : x.controller.ladder.CanEcho p x.drive

variable {p x e}

theorem Starts.onTheWay (hwindow : 2 ≤ p.faultResetWindowCycles) (h : x.Starts p) :
    x.controller.ladder.OnTheWay p x.drive where
  lifecycle := h.lifecycle.imp_right fun h => h.imp_right And.left
  echoes := h.echoes
  recovering hl := by
    obtain h | h | ⟨-, hcount, hreaction⟩ := h.lifecycle
    · exact absurd (h.symm.trans hl) (by decide)
    · exact absurd (h.symm.trans hl) (by decide)
    · refine ⟨hreaction, fun _ _ => .inr ⟨?_, .inl hcount⟩⟩
      show x.controller.resetCycles < _
      omega

/-- A cycle of the closed loop is one of the ladder. -/
theorem ladder_step (hway : x.controller.ladder.OnTheWay p x.drive) (h : x.Conforms p e) :
    (x.step p e).controller.ladder = x.controller.ladder.exchange p x.drive e.acts := by
  show (cycle p x.controller e.tick).ladder = _
  rw [cycle_ladder hway.lifecycle h.steady h.quiet h.estop, h.status]
  exact LadderView.step_congr h.display

/-- The countdown starts no higher than this. -/
theorem left_le (x : Axis) : x.controller.ladder.left p x.drive ≤
    p.faultResetClearConfirmCycles + p.faultResetWindowCycles + 12 := by
  have hrung := LadderView.rung_le x.drive.state
  unfold LadderView.left
  dsimp only
  split
  · omega
  · split
    · omega
    · omega
    · split
      · split <;> omega
      · omega
  · split
    · omega
    · split
      · omega
      · split <;> omega
  · omega

/-- One cycle of the closed loop counts down. -/
theorem counts_step (hwindow : 2 ≤ p.faultResetWindowCycles)
    (hword : p.faultResetWindowCycles < 2 ^ 32) (hconfirm : 1 ≤ p.faultResetClearConfirmCycles)
    (hway : x.controller.ladder.OnTheWay p x.drive) :
    x.controller.ladder.Counts p x.drive e.acts := by
  obtain hl | hl | hl := hway.lifecycle
  · exact LadderView.counts_init hwindow hl hway.echoes
  · exact LadderView.counts_enabling hwindow hl hway.echoes
  · exact LadderView.counts_resetting hwindow hword hconfirm hl hway.echoes (hway.recovering hl)

end Axis

open Axis

/-- A drive that follows the commands of the controlword is enabled. The controller starts on the
enable ladder or in its recovery, the drive in any state, also in Fault. Once the drive has acted in
more cycles than the window of the reset edges, the confirmation and the rungs take, the controller
has been Operational on an enabled drive, however late the drive was in between and whatever else
the feedback held. -/
theorem ladder_enables_drive (p : RtParams) (hwindow : 2 ≤ p.faultResetWindowCycles)
    (hword : p.faultResetWindowCycles < 2 ^ 32) (hconfirm : 1 ≤ p.faultResetClearConfirmCycles)
    {x : Axis} (hx : x.Starts p) {xs : List AxisEvent}
    (hconforms : AllSteps (Axis.step p) (Conforms p) x xs)
    (hlong : p.faultResetClearConfirmCycles + p.faultResetWindowCycles + 12 <
      xs.countP AxisEvent.acts) :
    ∃ pre, pre <+: xs ∧
      (runFrom (Axis.step p) x pre).controller.lifecycle = .operational ∧
      (runFrom (Axis.step p) x pre).drive.state = .operationEnabled ∧
      (runFrom (Axis.step p) x pre).controller.outputs.controlword =
        ControlWord.enableOperation := by
  refine exists_prefix_of_countdown (fun x => x.controller.ladder.OnTheWay p x.drive)
    (fun x => x.controller.ladder.Enabled x.drive)
    (fun x => x.controller.ladder.left p x.drive) AxisEvent.acts (fun x e hway hC => ?_)
    (hx.onTheWay hwindow) hconforms ((left_le x).trans_lt hlong)
  rw [ladder_step hway hC]
  exact counts_step hwindow hword hconfirm hway

/-- A window of two cycles, and one cycle to confirm. -/
def ladderBench : RtParams :=
  { profileBench with faultResetWindowCycles := 2, faultResetClearConfirmCycles := 1 }

/-- A fresh controller, and a drive that is in Fault. -/
def faultedAxis : Axis := ⟨profileController, { state := .fault, display := 0 }⟩

/-- The feedback of that drive when it is never late: it leaves Fault, climbs and stays up. -/
def recoveredFeedback : List AxisEvent :=
  ([tick 0x0008#16 0 0 [], tick 0x0040#16 0 0 [], tick 0x0021#16 0 0 [], tick 0x0023#16 1 0 []] ++
    List.replicate 12 (tick 0x0027#16 1 0 [])).map (⟨·, true⟩)

theorem ladder_enables_drive_bench : ∃ pre, pre <+: recoveredFeedback ∧
    (runFrom (Axis.step ladderBench) faultedAxis pre).controller.lifecycle = .operational ∧
    (runFrom (Axis.step ladderBench) faultedAxis pre).drive.state = .operationEnabled ∧
    (runFrom (Axis.step ladderBench) faultedAxis pre).controller.outputs.controlword =
      ControlWord.enableOperation :=
  ladder_enables_drive ladderBench (by decide) (by decide) (by decide)
    ⟨.inl rfl, .inl rfl⟩ (by decide +kernel) (by decide)

end ViamEthercat.Servo
