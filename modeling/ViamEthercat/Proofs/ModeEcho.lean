import ViamEthercat.Proofs.ControlWords
import ViamEthercat.Lib.Run

/-!
# `ViamEthercat.Proofs.ModeEcho`: the gate on 0x6061

The ladder is to energize the drive only once 0x6061 echoes the commanded mode. Enabling
writes the gate for two of the eight drive states, SwitchedOn and OperationEnabled.

`echo_gate_iff`: along a run, no cycle of Init, Enabling, Resetting or Disabled with a lagging
echo writes the enable-operation bit, if and only if no such cycle is past the gate
(`PastGate`). There are two ways past it. A drive in QuickStopActive is energized by Enabling
itself, and the hand-back out of Resetting does not look at the echo at all.
-/

set_option autoImplicit false

namespace ViamEthercat.Servo

open Lib Controller

section
variable (p : RtParams) (s : Controller) (inp : CycleInput) (b : CommandBatch)

/-- The states in which the drive is not yet, or no longer, to be energized. -/
def BelowOperational : Prop :=
  s.lifecycle = .init ∨ s.lifecycle = .enabling ∨ s.lifecycle = .resetting ∨
    s.lifecycle = .disabled

instance : Decidable (BelowOperational s) := inferInstanceAs (Decidable (_ ∨ _))

/-- 0x6061 is mapped and differs from the mode that this cycle commands. -/
def EchoLags : Prop :=
  p.fields.modeDisplay = true ∧ inp.modeDisplay ≠ (s.routedMotion inp b).commandedMode.code

instance : Decidable (EchoLags p s inp b) := inferInstanceAs (Decidable (_ ∧ _))

/-- The ways past the gate: a drive in QuickStopActive on the ladder, and the hand-back of a
drive whose next word of the ladder is enable-operation. -/
def PastGate : Prop :=
  (s.lifecycle = .enabling ∧ inp.status.decode = .quickStopActive) ∨
    (s.lifecycle = .resetting ∧ b.disable = false ∧ HandsBack p s inp ∧
      inp.status.decode.energizable)

instance : Decidable (PastGate p s inp b) := inferInstanceAs (Decidable (_ ∨ _))

end

variable {p : RtParams} {s : Controller} {inp : CycleInput} {b : CommandBatch} {t : Tick}

theorem entryWord_enableBit : (entryWord p inp).enableBit = false := by
  unfold entryWord
  split_ifs <;> decide

/-- Enabling with a lagging echo writes the enable-operation bit to a drive in QuickStopActive,
and to no other. -/
theorem enabling_enableBit (hl : s.lifecycle = .enabling) (hlag : EchoLags p s inp b) :
    (s.stepLifecycle p inp b).2.enableBit = decide (inp.status.decode = .quickStopActive) := by
  have hecho : modeEchoed p inp (s.routedMotion inp b).commandedMode = false := by
    simp [modeEchoed, hlag.1, hlag.2]
  rw [stepLifecycle_enabling_word hl]
  split_ifs with hfault hheld
  · rw [entryWord_enableBit, hfault]
    decide
  · -- The gate holds the drive at SwitchedOn.
    rw [fsmStep_switchedOn_enableBit]
    rcases hheld.2 with hdec | hdec <;> rw [hdec] <;> decide
  · -- Of the states that are energized from here, the gate has taken out two.
    have hnot : ¬ (inp.status.decode = .switchedOn ∨ inp.status.decode = .operationEnabled) :=
      fun h => hheld ⟨hecho, h⟩
    rw [fsmStep_enableBit]
    simp only [Cia402State.energizable, not_or] at hnot ⊢
    simp [hnot.1, hnot.2]

/-- Resetting writes the enable-operation bit when it hands an energizable drive back, without
a look at the echo. -/
theorem resetting_enableBit (hl : s.lifecycle = .resetting) :
    (s.stepLifecycle p inp b).2.enableBit = true ↔
      b.disable = false ∧ HandsBack p s inp ∧ inp.status.decode.energizable := by
  rw [stepLifecycle_resetting_word hl]
  cases hdis : b.disable with
  | true => simp [ControlWord.disableVoltage, ControlWord.enableBit]
  | false =>
      simp only [Bool.false_eq_true, if_false, true_and]
      split_ifs with hback hreset
      · rw [fsmStep_enableBit, decide_eq_true_iff]
        exact ⟨fun h => ⟨hback, h⟩, fun h => h.2⟩
      · exact ⟨fun h => absurd h (by decide), fun h => absurd h.1 hback⟩
      · exact ⟨fun h => absurd h (by decide), fun h => absurd h.1 hback⟩

/-- Below Operational, the enable-operation bit of a step with a lagging echo. -/
theorem below_enableBit (hbelow : BelowOperational s) (hlag : EchoLags p s inp b) :
    (s.stepLifecycle p inp b).2.enableBit = true ↔ PastGate p s inp b := by
  unfold PastGate
  rcases hbelow with hl | hl | hl | hl
  · rw [stepLifecycle_init_word hl]
    simp only [hl, reduceCtorEq, false_and, or_self, iff_false, Bool.not_eq_true]
    split_ifs
    · exact entryWord_enableBit
    · decide
  · rw [enabling_enableBit hl hlag]
    simp [hl]
  · rw [resetting_enableBit hl]
    simp [hl]
  · rw [stepLifecycle_disabled_word hl]
    simp [hl, ControlWord.disableVoltage, ControlWord.enableBit]

/-- The gate holds in this cycle: a steady cycle below Operational whose echo lags does not
write the enable-operation bit. -/
def EchoGated (p : RtParams) (s : Controller) (t : Tick) : Prop :=
  t.inp.stopping = false → BelowOperational s → EchoLags p s t.inp (drain t.drained) →
    (cycle p s t).outputs.controlword.enableBit = false

instance : Decidable (EchoGated p s t) := inferInstanceAs (Decidable (_ → _))

/-- No steady cycle whose echo lags is past the gate. -/
def NotPastGate (p : RtParams) (s : Controller) (t : Tick) : Prop :=
  t.inp.stopping = false → EchoLags p s t.inp (drain t.drained) →
    ¬ PastGate p s t.inp (drain t.drained)

theorem echoGated_iff : EchoGated p s t ↔ NotPastGate p s t := by
  unfold EchoGated NotPastGate
  refine forall_congr' fun hsteady => ?_
  have hcw : (cycle p s t).outputs.controlword
      = ((s.sample t.inp).stepLifecycle p t.inp (drain t.drained)).2 :=
    (written_eq_lastCw p s t).trans (cycle_lifecycle_lastCw hsteady).2
  constructor
  · intro h hlag hpast
    have hbelow : BelowOperational s := by
      rcases hpast with ⟨hl, -⟩ | ⟨hl, -⟩ <;> simp [BelowOperational, hl]
    have hbit := (below_enableBit (p := p) (s := s.sample t.inp) hbelow hlag).mpr hpast
    rw [← hcw, h hbelow hlag] at hbit
    exact Bool.false_ne_true hbit
  · intro h hbelow hlag
    rw [hcw, ← Bool.not_eq_true]
    exact fun hbit =>
      h hlag ((below_enableBit (p := p) (s := s.sample t.inp) hbelow hlag).mp hbit)

/-- Along every run, the gate holds in each cycle if and only if no cycle is past it. -/
theorem echo_gate_iff (p : RtParams) (s₀ : Controller) (bringup : List CycleInput)
    (ticks : List Tick) :
    AllSteps (cycle p) (EchoGated p) (spawned p s₀ bringup) ticks ↔
      AllSteps (cycle p) (NotPastGate p) (spawned p s₀ bringup) ticks :=
  allSteps_congr (I := fun _ => True) trivial (fun _ _ _ _ => trivial) fun _ _ _ => echoGated_iff

/-- A drive left in QuickStopActive by its previous master is energized by the second cycle of
a run, with mode 0 in 0x6061. -/
theorem echo_gate_bypassed : ¬ ∀ (p : RtParams) (s₀ : Controller) (bringup : List CycleInput)
    (ticks : List Tick), AllSteps (cycle p) (EchoGated p) (spawned p s₀ bringup) ticks := by
  intro h
  have hrun := h profileBench profileController [] [tick 0x0007#16 0 0 [], tick 0x0007#16 0 0 []]
  revert hrun
  decide +kernel

end ViamEthercat.Servo
