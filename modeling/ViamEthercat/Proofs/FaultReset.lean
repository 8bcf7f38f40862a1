import ViamEthercat.Proofs.ControlWords
import ViamEthercat.Proofs.Session
import ViamEthercat.Servo.Teardown
import ViamEthercat.Lib.Run

/-!
# `ViamEthercat.Proofs.FaultReset`: the reset bit

Bit 7 of the controlword resets a drive in Fault on its rising edge. `Presses` says in which
cycles the state machine raises it: at the entry into the recovery, from the pacing counter of
Resetting, on an operator's request there, and from the enable ladder when Resetting hands a
drive back that is in Fault. `cycle_bit7_iff` shows that there are no others.

* `estop_reset_iff`: under an engaged emergency stop, and without a request, no cycle writes
  bit 7, unless the recovery hands a drive back in Fault. A confirm streak of 0 does that, and
  `validate` accepts it.
* `reset_edges_iff`: along a run the pacing expression is defined, every bit 7 is a rising edge
  and every request that the recovery drains gives one, if and only if every step is `EdgeSafe`.
-/

set_option autoImplicit false

namespace ViamEthercat.Servo

open Lib Controller

/-! ### The cycles with bit 7 -/

section
variable (p : RtParams) (s : Controller) (inp : CycleInput) (b : CommandBatch)

/-- Resetting raises bit 7: a hand-back in Fault, an operator's request, or the pacing. -/
def RecoveryPresses : Prop :=
  b.disable = false ∧
    if HandsBack p s inp then inp.status.decode = .fault
    else b.faultReset = true ∨ (inp.status.decode = .fault ∧ estopPresent p inp = false ∧
      s.resetCyclesAfter % p.faultResetWindowCycles = 0)

/-- The state machine raises bit 7. -/
def Presses : Prop :=
  match s.lifecycle with
  | .init | .enabling => inp.status.decode = .fault ∧ estopPresent p inp = false
  | .operational | .homing => Faulted inp ∧ estopPresent p inp = false
  | .resetting => RecoveryPresses p s inp b
  | .disabled => False

end

variable {p : RtParams} {s : Controller} {inp : CycleInput} {b : CommandBatch} {t : Tick}

theorem disableVoltage_bit7 : ControlWord.disableVoltage.bit7 = false := by decide

theorem faultReset_bit7 : ControlWord.faultReset.bit7 = true := by decide

theorem enableOperation_bit7 : ControlWord.enableOperation.bit7 = false := by decide

theorem entryWord_bit7_iff : (entryWord p inp).bit7 = true ↔ estopPresent p inp = false := by
  rw [entryWord_bit7, Bool.not_eq_true']

/-- Operational raises bit 7 when a fault ends it. -/
theorem operational_bit7 (hl : s.lifecycle = .operational) :
    (s.stepLifecycle p inp b).2.bit7 = true ↔ Faulted inp ∧ estopPresent p inp = false := by
  rw [stepLifecycle_operational hl, stepOperational]
  by_cases hfault : Faulted inp
  · rw [if_pos hfault]
    simp only [hfault, true_and]
    exact entryWord_bit7_iff
  rw [if_neg hfault]
  -- Without a fault the drive is not in Fault, and no word of the state has the bit.
  have hdec : inp.status.decode ≠ .fault := fun h => hfault (.inl h)
  simp only [hfault, false_and, iff_false, Bool.not_eq_true]
  cases hdis : b.disable with
  | true => exact disableVoltage_bit7
  | false =>
      cases b.startHoming with
      | some h => exact enableOperation_bit7
      | none =>
          cases b.quickStop with
          | true =>
              show ControlWord.quickStop.bit7 = false
              decide
          | false =>
              obtain ⟨le, te, w, sr, -, hm⟩ := (s.routeCommands inp b).stepMotion_eq p inp
              simp only [Bool.false_eq_true, if_false, hm]
              exact MotionMode.step_bit7 p.sqrt p.fields _ _ _ hdec

/-- Homing raises bit 7 when a fault ends it. -/
theorem homing_bit7 (hl : s.lifecycle = .homing) :
    (s.stepLifecycle p inp b).2.bit7 = true ↔ Faulted inp ∧ estopPresent p inp = false := by
  rw [stepLifecycle_homing hl, stepHoming]
  by_cases hfault : Faulted inp
  · rw [if_pos hfault]
    simp only [hfault, true_and]
    exact entryWord_bit7_iff
  rw [if_neg hfault]
  simp only [hfault, false_and, iff_false, Bool.not_eq_true]
  have hhalt : (ControlWord.enableOperation.withHalt true).bit7 = false := by decide
  have hstart : (ControlWord.enableOperation.withNewSetpoint true).bit7 = false := by decide
  split_ifs
  · exact disableVoltage_bit7
  · exact disableVoltage_bit7
  · exact enableOperation_bit7
  · exact enableOperation_bit7
  · exact hhalt
  · exact enableOperation_bit7
  · exact hhalt
  · exact hstart

/-- Resetting raises bit 7 in the listed cases. -/
theorem resetting_bit7 (hl : s.lifecycle = .resetting) :
    (s.stepLifecycle p inp b).2.bit7 = true ↔ RecoveryPresses p s inp b := by
  unfold RecoveryPresses
  rw [stepLifecycle_resetting_word hl]
  cases b.disable with
  | true => simp [disableVoltage_bit7]
  | false =>
      simp only [Bool.false_eq_true, if_false, true_and]
      split_ifs with hback hreset
      · simp [fsmStep_bit7]
      · simp [hreset, faultReset_bit7]
      · simp [hreset, disableVoltage_bit7]

/-- The state machine raises bit 7 in the listed cases and in no other. -/
theorem stepLifecycle_bit7_iff :
    (s.stepLifecycle p inp b).2.bit7 = true ↔ Presses p s inp b := by
  unfold Presses
  cases hl : s.lifecycle with
  | init =>
      rw [stepLifecycle_init_word hl]
      split_ifs with hfault
      · simp only [hfault, true_and, entryWord_bit7_iff]
      · simp [hfault, disableVoltage_bit7]
  | enabling =>
      rw [stepLifecycle_enabling_word hl]
      split_ifs with hfault hheld
      · simp only [hfault, true_and, entryWord_bit7_iff]
      · simp [hfault, fsmStep_bit7]
      · simp [hfault, fsmStep_bit7]
  | operational => exact operational_bit7 hl
  | homing => exact homing_bit7 hl
  | resetting => exact resetting_bit7 hl
  | disabled =>
      rw [stepLifecycle_disabled_word hl, disableVoltage_bit7]
      simp

/-- The stopping window knows three words, none of them with bit 7. -/
theorem shutdownStep_bit7 (h : inp.stopping = true) :
    (shutdownStep p s inp).controlword.bit7 = false := by
  rcases MotionMode.stepShutdown_controlword p.sqrt p.fields s.motion s.outputs
    (s.feedback p inp) h with hcw | hcw | hcw <;> rw [shutdownStep, hcw] <;> decide

/-- A cycle writes bit 7 when it is steady and the state machine raises it. -/
theorem cycle_bit7_iff : (cycle p s t).lastCw.bit7 = true ↔
    t.inp.stopping = false ∧ Presses p s t.inp (drain t.drained) := by
  cases hstop : t.inp.stopping with
  | true =>
      obtain ⟨te, ph, ar, w, out, sr, -, hc⟩ := cycle_stopping (p := p) (s := s) hstop
      have hcw : (cycle p s t).lastCw = (shutdownStep p s t.inp).controlword := by rw [hc]
      rw [hcw, shutdownStep_bit7 hstop]
      simp
  | false =>
      rw [(cycle_lifecycle_lastCw hstop).2]
      simp only [true_and]
      exact stepLifecycle_bit7_iff (s := s.sample t.inp)

/-! ### Under an engaged emergency stop -/

/-- No reset without a request while the emergency stop is engaged: the cycle, steady or in the
stopping window, has the stop's code in 0x603F and drains no FaultReset, and so writes bit 7
low. -/
def EstopRespected (p : RtParams) (s : Controller) (t : Tick) : Prop :=
  t.inp.faultCode = p.estopFaultCode →
    (t.inp.stopping = false → (drain t.drained).faultReset = false) →
    (cycle p s t).outputs.controlword.bit7 = false

instance : Decidable (EstopRespected p s t) := inferInstanceAs (Decidable (_ → _ → _))

/-- The cycle hands no drive back that is in Fault with the stop's code. In Fault the streak
is 0, so that takes a confirm streak of 0. -/
def NoHandBackInFault (p : RtParams) (s : Controller) (t : Tick) : Prop :=
  p.faultResetClearConfirmCycles = 0 → t.inp.stopping = false → s.lifecycle = .resetting →
    t.inp.faultCode = p.estopFaultCode → t.inp.status.decode = .fault →
    (drain t.drained).disable = true ∨ (drain t.drained).faultReset = true

/-- With the stop's code present and no request, the hand-back is the one source of bit 7. -/
theorem presses_under_estop (hestop : estopPresent p inp = true) (hreq : b.faultReset = false) :
    Presses p s inp b ↔ s.lifecycle = .resetting ∧ b.disable = false ∧
      inp.status.decode = .fault ∧ p.faultResetClearConfirmCycles = 0 := by
  unfold Presses
  cases hl : s.lifecycle with
  | resetting =>
      simp only [RecoveryPresses, hestop, hreq, HandsBack, clearStreakAfter, true_and]
      by_cases hdec : inp.status.decode = .fault
      · by_cases hconf : p.faultResetClearConfirmCycles = 0 <;> simp [hdec, hconf]
      · simp [hdec]
  | _ => simp [hestop]

theorem estopRespected_iff (hcode : p.estopFaultCode ≠ 0#16) (hmapped : p.fields.faultCode = true) :
    EstopRespected p s t ↔ NoHandBackInFault p s t := by
  unfold EstopRespected NoHandBackInFault
  rw [written_eq_lastCw, ← Bool.not_eq_true ((cycle p s t).lastCw.bit7), cycle_bit7_iff]
  have hestop (h : t.inp.faultCode = p.estopFaultCode) : estopPresent p t.inp = true := by
    simp [estopPresent, faultCodeOf, hcode, hmapped, h]
  constructor
  · intro h hconf hsteady hl hfc hdec
    by_contra hneither
    simp only [not_or, Bool.not_eq_true] at hneither
    exact h hfc (fun _ => hneither.2) ⟨hsteady,
      (presses_under_estop (hestop hfc) hneither.2).mpr ⟨hl, hneither.1, hdec, hconf⟩⟩
  · rintro h hfc hreq ⟨hsteady, hpress⟩
    obtain ⟨hl, hdis, hdec, hconf⟩ :=
      (presses_under_estop (hestop hfc) (hreq hsteady)).mp hpress
    rcases h hconf hsteady hl hfc hdec with h' | h'
    · exact absurd (h'.symm.trans hdis) (by decide)
    · exact absurd (h'.symm.trans (hreq hsteady)) (by decide)

/-- Along every run, no reset is written under an engaged emergency stop without a request, if
and only if no cycle hands a drive back in Fault. -/
theorem estop_reset_iff (p : RtParams) (hcode : p.estopFaultCode ≠ 0#16)
    (hmapped : p.fields.faultCode = true) (s₀ : Controller) (bringup : List CycleInput)
    (ticks : List Tick) :
    AllSteps (cycle p) (EstopRespected p) (spawned p s₀ bringup) ticks ↔
      AllSteps (cycle p) (NoHandBackInFault p) (spawned p s₀ bringup) ticks :=
  allSteps_congr (I := fun _ => True) trivial (fun _ _ _ _ => trivial)
    fun _ _ _ => estopRespected_iff hcode hmapped

/-- The profile drive with an emergency stop that it reports as 0x7500. -/
def estopBench : RtParams := { profileBench with estopFaultCode := 0x7500#16 }

/-- A cycle of the drive in Fault with its emergency stop engaged. -/
def estopTick (drained : List Command) : Tick :=
  { tick 0x0008#16 1 0 drained with
      inp := { (tick 0x0008#16 1 0 drained).inp with faultCode := 0x7500#16 } }

/-- With the default confirm streak the emergency stop is respected. -/
theorem estop_respected_default : AllSteps (cycle estopBench) (EstopRespected estopBench)
    (spawned estopBench profileController []) [estopTick [], estopTick [], estopTick []] :=
  (estop_reset_iff estopBench (by decide) rfl profileController []
    [estopTick [], estopTick [], estopTick []]).mpr
    ⟨fun h => absurd h (by decide), fun h => absurd h (by decide), fun h => absurd h (by decide),
      trivial⟩

/-- With a confirm streak of 0 the second cycle of a run resets a drive whose emergency stop is
engaged. -/
theorem estop_reset_unconfirmed : ¬ ∀ p : RtParams, p.estopFaultCode ≠ 0#16 →
    p.fields.faultCode = true → ∀ (s₀ : Controller) (bringup : List CycleInput)
      (ticks : List Tick),
      AllSteps (cycle p) (EstopRespected p) (spawned p s₀ bringup) ticks := by
  intro h
  have hrun := h { estopBench with faultResetClearConfirmCycles := 0 } (by decide) rfl
    profileController [] [estopTick [], estopTick []]
  revert hrun
  decide +kernel

/-! ### Rising edges -/

section
variable (p : RtParams) (s : Controller) (inp : CycleInput) (b : CommandBatch)

/-- The recovery evaluates `reset_cycles_ % fault_reset_window_cycles`: the last operand of
its conjunction. -/
def EvaluatesPacing : Prop :=
  s.lifecycle = .resetting ∧ b.disable = false ∧ ¬ HandsBack p s inp ∧ b.faultReset = false ∧
    inp.status.decode = .fault ∧ estopPresent p inp = false

instance : Decidable (EvaluatesPacing p s inp b) := inferInstanceAs (Decidable (_ ∧ _))

/-- A request of the recovery comes without a Disable, after a word without bit 7, and not in the
cycle that hands the drive back out of Fault: that one, and a Disable, swallow it. -/
def RequestServed : Prop :=
  b.disable = false ∧ s.lastCw.bit7 = false ∧ (HandsBack p s inp → inp.status.decode = .fault)

/-- A cycle of the recovery that keeps bit 7 a sequence of edges. A paced reset needs a window,
and after a word with bit 7 one of at least two cycles, with a counter that does not wrap. After
such a word there is no hand-back in Fault. -/
def RecoveryEdgeSafe : Prop :=
  if b.faultReset then RequestServed p s inp b
  else b.disable = false →
    if HandsBack p s inp then s.lastCw.bit7 = true → inp.status.decode ≠ .fault
    else inp.status.decode = .fault → estopPresent p inp = false →
      p.faultResetWindowCycles ≠ 0 ∧
        (s.lastCw.bit7 = true → p.faultResetWindowCycles ≠ 1 ∧ s.resetCycles + 1 ≠ 2 ^ 32)

/-- A step of the state machine that keeps bit 7 a sequence of edges. Enabling follows a word
with bit 7 only after a hand-back in Fault. -/
def EdgeSafe : Prop :=
  (s.lifecycle = .resetting → RecoveryEdgeSafe p s inp b) ∧
    (s.lifecycle = .enabling → s.lastCw.bit7 = true →
      inp.status.decode = .fault → estopPresent p inp = true)

end

/-- A cycle that drains a FaultReset in Resetting raises bit 7. -/
def RequestSeen (p : RtParams) (s : Controller) (t : Tick) : Prop :=
  t.inp.stopping = false → s.lifecycle = .resetting → (drain t.drained).faultReset = true →
    (cycle p s t).outputs.controlword.bit7 = true ∧ s.lastCw.bit7 = false

instance : Decidable (RequestSeen p s t) := inferInstanceAs (Decidable (_ → _ → _ → _ ∧ _))

/-- Every reset of this cycle is a real edge: the pacing expression is defined where it is
evaluated, a word with bit 7 follows one without, and a request gives such a word. -/
def RealEdge (p : RtParams) (s : Controller) (t : Tick) : Prop :=
  (t.inp.stopping = false → EvaluatesPacing p s t.inp (drain t.drained) →
    p.faultResetWindowCycles ≠ 0) ∧
  ((cycle p s t).outputs.controlword.bit7 = true → s.lastCw.bit7 = false) ∧
  RequestSeen p s t

instance : Decidable (RealEdge p s t) := inferInstanceAs (Decidable (_ ∧ _ ∧ _))

/-- Where a word with bit 7 leaves the controller: in Resetting at a multiple of the window, or
on the ladder after a hand-back. -/
def AfterReset (p : RtParams) (s : Controller) : Prop :=
  s.lastCw.bit7 = true →
    (s.lifecycle = .resetting ∧ s.resetCycles < 2 ^ 32 ∧
      s.resetCycles % p.faultResetWindowCycles = 0) ∨ s.lifecycle = .enabling

/-- What the state machine leaves when it raises bit 7. -/
theorem presses_next (h : Presses p s inp b) :
    ((s.stepLifecycle p inp b).1.lifecycle = .resetting ∧
      (s.stepLifecycle p inp b).1.resetCycles < 2 ^ 32 ∧
      (s.stepLifecycle p inp b).1.resetCycles % p.faultResetWindowCycles = 0) ∨
    (s.stepLifecycle p inp b).1.lifecycle = .enabling := by
  unfold Presses at h
  -- Every entry into the recovery starts its counter at 0.
  have hentry (q : Controller) :
      (q.enterResetting p inp).1.lifecycle = .resetting ∧
        (q.enterResetting p inp).1.resetCycles < 2 ^ 32 ∧
        (q.enterResetting p inp).1.resetCycles % p.faultResetWindowCycles = 0 :=
    ⟨rfl, Nat.two_pow_pos 32, Nat.zero_mod _⟩
  cases hl : s.lifecycle with
  | init =>
      simp only [hl] at h
      rw [stepLifecycle_init hl, stepInit, if_pos h.1]
      exact .inl (hentry _)
  | enabling =>
      simp only [hl] at h
      rw [stepLifecycle_enabling hl, stepEnabling, if_pos h.1]
      exact .inl (hentry _)
  | operational =>
      simp only [hl] at h
      rw [stepLifecycle_operational hl, stepOperational, if_pos h.1]
      exact .inl (hentry _)
  | homing =>
      simp only [hl] at h
      rw [stepLifecycle_homing hl, stepHoming, if_pos h.1]
      exact .inl (hentry _)
  | resetting =>
      simp only [hl, RecoveryPresses] at h
      obtain ⟨hdis, h⟩ := h
      obtain ⟨henabling, hresetting⟩ : (HandsBack p s inp → _) ∧ (¬ HandsBack p s inp → _) :=
        stepLifecycle_resetting_next hl hdis
      by_cases hback : HandsBack p s inp
      · exact .inr (henabling hback)
      · obtain ⟨hto, hcount⟩ := hresetting hback
        rw [hto, hcount]
        rw [if_neg hback] at h
        cases hreq : b.faultReset with
        | true => exact .inl ⟨rfl, Nat.two_pow_pos 32, Nat.zero_mod _⟩
        | false =>
            -- A paced reset: the counter is at a multiple of the window.
            have hpaced := (h.resolve_left (by simp [hreq])).2.2
            exact .inl ⟨rfl, Nat.mod_lt _ (Nat.two_pow_pos 32), hpaced⟩
  | disabled =>
      simp only [hl] at h

theorem afterReset_cycle (s : Controller) (t : Tick) : AfterReset p (cycle p s t) := by
  intro hbit
  obtain ⟨hsteady, hpress⟩ := cycle_bit7_iff.mp hbit
  obtain ⟨te, ph, ar, w, out, -, hc⟩ := cycle_steady (p := p) (s := s) hsteady
  rw [hc]
  exact presses_next (s := s.sample t.inp) hpress

theorem afterReset_spawned (bringup : List CycleInput) :
    AfterReset p (spawned p s bringup) := by
  have hcw : (spawned p s bringup).lastCw = 0#16 :=
    spawned_induction (P := fun s => s.lastCw = 0#16) rfl fun _ _ h => h
  intro hbit
  rw [hcw] at hbit
  exact absurd hbit (by decide)

/-- The counter that follows a multiple of the window is one again when the window is one
cycle, or when the counter wraps. -/
theorem resetCyclesAfter_mod {w : Nat} (hlt : s.resetCycles < 2 ^ 32)
    (hmod : s.resetCycles % w = 0) :
    s.resetCyclesAfter % w = 0 ↔ w = 1 ∨ s.resetCycles + 1 = 2 ^ 32 := by
  unfold resetCyclesAfter
  by_cases hwrap : s.resetCycles + 1 = 2 ^ 32
  · simp [hwrap]
  · have hlt' : s.resetCycles + 1 < 2 ^ 32 := by omega
    rw [Nat.mod_eq_of_lt hlt', or_iff_left hwrap, ← Nat.dvd_iff_mod_eq_zero,
      Nat.dvd_add_right (Nat.dvd_iff_mod_eq_zero.mpr hmod), Nat.dvd_one]

/-- A cycle of the recovery without a request, that follows a word with bit 7 or not. -/
theorem recoveryEdge_unrequested (hinv : s.lastCw.bit7 = true → s.resetCycles < 2 ^ 32 ∧
      s.resetCycles % p.faultResetWindowCycles = 0) (hl : s.lifecycle = .resetting)
    (hreq : b.faultReset = false) :
    ((EvaluatesPacing p s inp b → p.faultResetWindowCycles ≠ 0) ∧
      (RecoveryPresses p s inp b → s.lastCw.bit7 = false)) ↔ RecoveryEdgeSafe p s inp b := by
  unfold EvaluatesPacing RecoveryPresses RecoveryEdgeSafe
  simp only [hl, hreq, true_and, Bool.false_eq_true, if_false, false_or]
  cases hdis : b.disable with
  | true => simp
  | false =>
      simp only [true_and, forall_true_left]
      split_ifs with hback
      · simp only [hback, not_true_eq_false, false_and, false_implies, true_and]
        exact ⟨fun h hbit hdec => absurd (hbit.symm.trans (h hdec)) (by decide),
          fun h hdec => Bool.eq_false_iff.mpr fun hbit => h hbit hdec⟩
      · simp only [hback, not_false_eq_true, true_and]
        -- What is left is the pacing, of a drive in Fault without an emergency stop.
        by_cases hdue : inp.status.decode = .fault ∧ estopPresent p inp = false
        · simp only [hdue.1, hdue.2, true_and, forall_true_left]
          refine and_congr_right fun _ => ?_
          cases hbit : s.lastCw.bit7 with
          | false => simp
          | true =>
              obtain ⟨hlt, hmod⟩ := hinv hbit
              rw [resetCyclesAfter_mod hlt hmod]
              simp [not_or]
        · rw [not_and] at hdue
          exact ⟨fun _ hdec hestop => absurd hestop (hdue hdec),
            fun _ => ⟨fun h => absurd h.2 (hdue h.1), fun h => absurd h.2.1 (hdue h.1)⟩⟩

/-- A cycle of the recovery with a request: only a Disable and a hand-back out of Fault keep bit 7
low. -/
theorem recoveryPresses_requested (hreq : b.faultReset = true) :
    RecoveryPresses p s inp b ∧ s.lastCw.bit7 = false ↔ RequestServed p s inp b := by
  unfold RecoveryPresses RequestServed
  by_cases hback : HandsBack p s inp
  · simp only [hback, if_true, forall_true_left]
    tauto
  · simp only [hback, if_false, hreq, true_or, false_implies]
    tauto

/-- A cycle of the recovery. -/
theorem recoveryEdge_iff (hinv : s.lastCw.bit7 = true → s.resetCycles < 2 ^ 32 ∧
      s.resetCycles % p.faultResetWindowCycles = 0) (hl : s.lifecycle = .resetting) :
    ((EvaluatesPacing p s inp b → p.faultResetWindowCycles ≠ 0) ∧
      (RecoveryPresses p s inp b → s.lastCw.bit7 = false) ∧
      (b.faultReset = true → RecoveryPresses p s inp b ∧ s.lastCw.bit7 = false)) ↔
        RecoveryEdgeSafe p s inp b := by
  cases hreq : b.faultReset with
  | false =>
      rw [← recoveryEdge_unrequested hinv hl hreq]
      simp
  | true =>
      -- The pacing is not evaluated, and the edge of the request is the one to show.
      have hpacing : ¬ EvaluatesPacing p s inp b := fun h =>
        absurd (hreq.symm.trans h.2.2.2.1) (by decide)
      rw [RecoveryEdgeSafe, if_pos hreq, ← recoveryPresses_requested hreq]
      simp only [hpacing, false_implies, true_and, forall_true_left]
      exact and_iff_right_of_imp fun h _ => h.2

/-- Under the invariant, the resets of a cycle are real edges if and only if its step is safe. -/
theorem realEdge_iff (hinv : AfterReset p s) :
    RealEdge p s t ↔ (t.inp.stopping = false → EdgeSafe p s t.inp (drain t.drained)) := by
  unfold RealEdge RequestSeen
  rw [written_eq_lastCw, cycle_bit7_iff]
  cases hstop : t.inp.stopping with
  | true => simp
  | false =>
      simp only [true_and, forall_true_left]
      unfold EdgeSafe Presses
      -- Only Resetting and Enabling follow a word with bit 7.
      have hlow (h : s.lifecycle ≠ .resetting ∧ s.lifecycle ≠ .enabling) :
          s.lastCw.bit7 = false := by
        refine Bool.eq_false_iff.mpr fun hbit => ?_
        rcases hinv hbit with h' | h'
        · exact h.1 h'.1
        · exact h.2 h'
      cases hl : s.lifecycle with
      | resetting =>
          have hinv' : s.lastCw.bit7 = true → s.resetCycles < 2 ^ 32 ∧
              s.resetCycles % p.faultResetWindowCycles = 0 := by
            intro hbit
            rcases hinv hbit with h | h
            · exact h.2
            · exact absurd (hl.symm.trans h) (by decide)
          rw [← recoveryEdge_iff hinv' hl]
          simp
      | enabling => cases hbit : s.lastCw.bit7 <;> simp [EvaluatesPacing, hl]
      | disabled => simp [EvaluatesPacing, hl]
      | init => simp [EvaluatesPacing, hl, hlow (by simp [hl])]
      | operational => simp [EvaluatesPacing, hl, hlow (by simp [hl])]
      | homing => simp [EvaluatesPacing, hl, hlow (by simp [hl])]

/-- Along every run of a configured controller, every reset is a real edge, and every request in
the recovery gives one, if and only if every step is safe. -/
theorem reset_edges_iff (c : ServoConfig) (fields : Fields) (usable : Bool) (sqrt : ℚ → ℚ)
    (s₀ : Controller) (bringup : List CycleInput) (ticks : List Tick) :
    let p := c.rtParams fields usable sqrt
    AllSteps (cycle p) (RealEdge p) (spawned p s₀ bringup) ticks ↔
      AllSteps (cycle p) (fun s t => t.inp.stopping = false →
        EdgeSafe p s t.inp (drain t.drained)) (spawned p s₀ bringup) ticks :=
  allSteps_congr (afterReset_spawned bringup) (fun s t _ _ => afterReset_cycle s t)
    fun _ _ hinv => realEdge_iff hinv

/-- The profile drive with the defaults of the configuration. -/
def profileParams : RtParams := profileConfig.rtParams profileBench.fields true ratSqrt

/-- A request drained right after the entry into the recovery is no edge: the word before it
has bit 7 already. -/
theorem reset_request_not_edge : ¬ ∀ c : ServoConfig, c.validate = .ok () →
    ∀ (fields : Fields) (usable : Bool) (sqrt : ℚ → ℚ) (s₀ : Controller)
      (bringup : List CycleInput) (ticks : List Tick),
      let p := c.rtParams fields usable sqrt
      AllSteps (cycle p) (RealEdge p) (spawned p s₀ bringup) ticks := by
  intro h
  have hrun : AllSteps (cycle profileParams) (RealEdge profileParams)
      (spawned profileParams profileController [])
      [tick 0x0008#16 1 0 [], tick 0x0008#16 1 0 [.faultReset]] :=
    h profileConfig (by decide +kernel) profileBench.fields true ratSqrt profileController [] _
  revert hrun
  decide +kernel

end ViamEthercat.Servo
