import ViamEthercat.Proofs.Step
import ViamEthercat.Lib.Run

/-!
# `ViamEthercat.Proofs.Homing`: the homing run

Two laws of the Homing state, each with the exact condition under which the loop keeps it.

* `homed_after_start_iff`: a run records a home position only after it wrote the start bit
  in the same stay, if and only if no cycle before the start bit already shows bit 12. The
  Homing branch tests bit 12 before it raises bit 4, so a bit 12 that the drive kept from an
  earlier run counts as attained in the first echoed cycle.
* `homing_request_settled_iff`: a drained homing request leads to the Homing state or to a
  published verdict, if and only if the loop is not Operational, or no fault, no Disable and
  no later stop comes with it. Outside Operational `route_commands` fails the request. In
  Operational the fault and disable branches return before the request is looked at, and a
  Halt or QuickStop after it is not looked at.

`startSeen` is the observer of the first law: whether the start bit was written in the
current stay. `homingCycles` counts exactly these cycles, which is the invariant
`StartCounted`.
-/

set_option autoImplicit false

namespace ViamEthercat.Servo

open Lib Controller

variable {p : RtParams} {s : Controller} {inp : CycleInput} {b : CommandBatch} {t : Tick}

/-! ### The cycle that records a home position -/

/-- The branch of the Homing state that records the home position. -/
def Attains (p : RtParams) (s : Controller) (inp : CycleInput) (b : CommandBatch) : Prop :=
  s.lifecycle = .homing ∧ ¬ Faulted inp ∧
    ¬ (b.disable ∨ b.halt ∨ b.quickStop) ∧ modeEchoed p inp .homing ∧
    inp.status.homingError = false ∧ inp.status.homingAttained = true

instance : Decidable (Attains p s inp b) := inferInstanceAs (Decidable (_ ∧ _))

/-- The home position, with the software zero that goes with it. -/
def Controller.reference (s : Controller) : Bool × Int32 × Int32 :=
  (s.homed, s.homeCounts, s.zeroOffsetCounts)

@[simp] theorem routeCommands_reference : (s.routeCommands inp b).reference = s.reference := by
  obtain ⟨le, te, w, hf, -, -, h⟩ := s.routeCommands_eq inp b
  rw [h]
  rfl

theorem stepHoming_reference (h : s.lifecycle = .homing) :
    (s.stepHoming p inp b).1.reference
      = if Attains p s inp b then (true, inp.actual, 0) else s.reference := by
  unfold stepHoming Attains
  by_cases hf : Faulted inp
  · simp only [h, hf, if_true, not_true_eq_false, false_and, and_false, if_false]
    rfl
  by_cases hs : b.disable ∨ b.halt ∨ b.quickStop
  · simp only [h, hf, hs, if_true, if_false, not_true_eq_false, false_and, and_false]
    rfl
  simp only [h, hf, hs, if_false, not_false_eq_true, true_and]
  -- Neither a fault nor a stop: the echo, the error and bit 12 decide.
  cases modeEchoed p inp .homing <;> cases inp.status.homingError <;>
    cases inp.status.homingAttained <;>
    simp only [finishHoming, publishHomingResult, bumpWake, Controller.reference] <;> simp <;>
    split_ifs <;> simp

/-- The other states leave the home position. -/
theorem stepLifecycle_reference_of_ne (h : s.lifecycle ≠ .homing) :
    (s.stepLifecycle p inp b).1.reference = s.reference := by
  have hroute : (s.routeCommands inp b).reference = s.reference := routeCommands_reference
  rw [← hroute]
  cases hl : s.lifecycle with
  | homing => exact absurd hl h
  | init =>
      rw [stepLifecycle_init hl]
      unfold stepInit
      split_ifs <;> rfl
  | enabling =>
      rw [stepLifecycle_enabling hl]
      unfold stepEnabling
      dsimp only
      split_ifs <;> rfl
  | operational =>
      rw [stepLifecycle_operational hl]
      obtain ⟨le, te, w, sr, -, hm⟩ := (s.routeCommands inp b).stepMotion_eq p inp
      unfold stepOperational
      by_cases hfault : Faulted inp
      · rw [if_pos hfault]
        rfl
      rw [if_neg hfault]
      cases b.disable with
      | true => rfl
      | false =>
          cases b.startHoming with
          | some r => rfl
          | none =>
              cases b.quickStop with
              | true => rfl
              | false =>
                  rw [hm]
                  rfl
  | resetting =>
      rw [stepLifecycle_resetting hl]
      unfold stepResetting
      dsimp only
      split_ifs <;> rfl
  | disabled =>
      rw [stepLifecycle_disabled hl]
      unfold stepDisabled
      split_ifs <;> rfl

/-- The home position is recorded by the attained branch, where the software zero is cleared, and
by no other step of the state machine. -/
theorem stepLifecycle_reference :
    (s.stepLifecycle p inp b).1.reference
      = if Attains p s inp b then (true, inp.actual, 0) else s.reference := by
  by_cases hl : s.lifecycle = .homing
  · rw [stepLifecycle_homing hl]
    simpa [Attains] using stepHoming_reference (p := p) (b := b)
      (s := s.routeCommands inp b) (by simp [hl])
  · rw [if_neg fun h => hl h.1]
    exact stepLifecycle_reference_of_ne hl

/-- The home position after a cycle: only a steady cycle changes it. -/
theorem cycle_reference :
    (cycle p s t).reference
      = if t.inp.stopping = false ∧ Attains p s t.inp (drain t.drained)
        then (true, t.inp.actual, 0) else s.reference := by
  cases hstop : t.inp.stopping with
  | true =>
      obtain ⟨te, ph, ar, w, out, sr, -, hc⟩ := cycle_stopping (p := p) (s := s) hstop
      have hno : ¬ (true = false ∧ Attains p s t.inp (drain t.drained)) := fun h => by cases h.1
      rw [if_neg hno, hc]
      rfl
  | false =>
      obtain ⟨te, ph, ar, w, out, -, hc⟩ := cycle_steady (p := p) (s := s) hstop
      -- The branch does not read what the sampling writes.
      have hatt : Attains p (s.sample t.inp) t.inp (drain t.drained) ↔
          Attains p s t.inp (drain t.drained) := Iff.rfl
      rw [hc]
      refine (stepLifecycle_reference (s := s.sample t.inp)).trans ?_
      simp only [hatt, true_and]
      rfl

/-- The cycle stores `homed = true`, whatever `homed` was before, or another home position. -/
def SetsHomed (p : RtParams) (s : Controller) (t : Tick) : Prop :=
  (cycle p { s with homed := false } t).homed = true ∨
    (cycle p s t).homeCounts ≠ s.homeCounts

/-- A cycle records a home position exactly in the attained branch of a steady cycle. -/
theorem setsHomed_iff :
    SetsHomed p s t ↔ t.inp.stopping = false ∧ Attains p s t.inp (drain t.drained) := by
  unfold SetsHomed
  -- The branch does not read `homed`.
  have hfresh : (cycle p { s with homed := false } t).reference
      = if t.inp.stopping = false ∧ Attains p s t.inp (drain t.drained)
        then (true, t.inp.actual, 0) else (false, s.homeCounts, s.zeroOffsetCounts) :=
    cycle_reference
  have hsame := cycle_reference (p := p) (s := s) (t := t)
  by_cases h : t.inp.stopping = false ∧ Attains p s t.inp (drain t.drained)
  · rw [if_pos h] at hfresh
    exact iff_of_true (.inl (congrArg Prod.fst hfresh)) h
  · rw [if_neg h] at hfresh hsame
    refine iff_of_false ?_ h
    rintro (hset | hcounts)
    · rw [show (cycle p { s with homed := false } t).homed = false from
        congrArg Prod.fst hfresh] at hset
      cases hset
    · exact hcounts (congrArg (fun r => r.2.1) hsame)

/-! ### The start bit of the current stay -/

/-- The run with its observer: the flag says that the start bit was written in the current
stay in Homing. A stay ends when the lifecycle leaves the state. -/
def observeStart (p : RtParams) (st : Controller × Bool) (t : Tick) : Controller × Bool :=
  let s' := cycle p st.1 t
  (s', decide (s'.lifecycle = .homing) &&
    (s'.lastCw.bit4 || (decide (st.1.lifecycle = .homing) && st.2)))

/-- `homingCycles` counts the start-bit cycles of the stay. -/
def StartCounted (st : Controller × Bool) : Prop :=
  st.1.lifecycle = .homing → (st.1.homingCycles = 0 ↔ st.2 = false)

/-- A step of the Homing state that stays there either waits for the echo with bit 4 low, or
counts one cycle and writes the start bit. -/
theorem stepHoming_stays (h : (s.stepHoming p inp b).1.lifecycle = .homing) :
    ((s.stepHoming p inp b).1.homingCycles = s.homingCycles ∧
      (s.stepHoming p inp b).2 = ControlWord.enableOperation) ∨
    ((s.stepHoming p inp b).1.homingCycles = s.homingCycles + 1 ∧
      (s.stepHoming p inp b).2 = ControlWord.enableOperation.withNewSetpoint true) := by
  unfold stepHoming at h ⊢
  by_cases hfault : Faulted inp
  · rw [if_pos hfault] at h
    cases h
  rw [if_neg hfault] at h ⊢
  by_cases hstop : b.disable ∨ b.halt ∨ b.quickStop
  · rw [if_pos hstop] at h
    dsimp only at h
    split_ifs at h
    cases h
  rw [if_neg hstop] at h ⊢
  dsimp only at h ⊢
  -- Every branch that ends the run leaves Homing.
  split_ifs at h ⊢
  · cases h
  · exact .inl ⟨rfl, rfl⟩
  · cases h
  · cases h
  · cases h
  · exact .inr ⟨rfl, rfl⟩

/-- The Homing state is entered from Operational, with the count at zero and bit 4 low, and
kept from Homing. -/
theorem stepLifecycle_homing_cases (h : (s.stepLifecycle p inp b).1.lifecycle = .homing) :
    (s.lifecycle = .operational ∧ (s.stepLifecycle p inp b).1.homingCycles = 0 ∧
      (s.stepLifecycle p inp b).2 = ControlWord.enableOperation) ∨
    (s.lifecycle = .homing ∧
      (((s.stepLifecycle p inp b).1.homingCycles = s.homingCycles ∧
        (s.stepLifecycle p inp b).2 = ControlWord.enableOperation) ∨
      ((s.stepLifecycle p inp b).1.homingCycles = s.homingCycles + 1 ∧
        (s.stepLifecycle p inp b).2 = ControlWord.enableOperation.withNewSetpoint true))) := by
  cases hl : s.lifecycle with
  | homing =>
      rw [stepLifecycle_homing hl] at h ⊢
      simpa using stepHoming_stays h
  | operational =>
      obtain ⟨le, te, w, sr, -, hm⟩ := (s.routeCommands inp b).stepMotion_eq p inp
      rw [stepLifecycle_operational hl] at h ⊢
      simp only [stepOperational, hm] at h ⊢
      cases hb : b.startHoming with
      | some r =>
          simp only [hb] at h ⊢
          split_ifs at h ⊢ <;> simp_all [enterResetting]
      | none =>
          simp only [hb] at h
          split_ifs at h <;> simp_all [enterResetting]
  | init =>
      rw [stepLifecycle_init hl] at h
      simp only [stepInit, enterResetting] at h
      split_ifs at h
  | enabling =>
      rw [stepLifecycle_enabling hl] at h
      simp only [stepEnabling, enterResetting] at h
      split_ifs at h <;> simp_all
  | resetting =>
      rw [stepLifecycle_resetting hl] at h
      simp only [stepResetting] at h
      split_ifs at h <;> simp_all
  | disabled =>
      rw [stepLifecycle_disabled hl] at h
      simp only [stepDisabled] at h
      split_ifs at h
      simp_all

theorem startCounted_step (st : Controller × Bool) (t : Tick) (h : StartCounted st) :
    StartCounted (observeStart p st t) := by
  obtain ⟨s, seen⟩ := st
  intro hhoming
  cases hstop : t.inp.stopping with
  | true =>
      obtain ⟨te, ph, ar, w, out, sr, -, hc⟩ := cycle_stopping (p := p) (s := s) hstop
      simp only [observeStart, hc] at hhoming ⊢
      -- The window keeps the lifecycle and the count, and writes bit 4 low.
      simpa [hhoming, shutdownStep_bit4 hstop] using h hhoming
  | false =>
      obtain ⟨te, ph, ar, w, out, -, hc⟩ := cycle_steady (p := p) (s := s) hstop
      simp only [observeStart, hc] at hhoming ⊢
      rcases stepLifecycle_homing_cases hhoming with ⟨hl, hn, hcw⟩ | ⟨hl, ⟨hn, hcw⟩ | ⟨hn, hcw⟩⟩
      · -- Entered: the count is zero and the start bit was not written yet.
        have hl' : s.lifecycle = .operational := hl
        have hbit : ControlWord.enableOperation.bit4 = false := by decide
        simp [hn, hcw, hl', hbit]
      · -- The echo lags: neither the count nor the flag moves.
        have hl' : s.lifecycle = .homing := hl
        have hn' : _ = s.homingCycles := hn
        have hbit : ControlWord.enableOperation.bit4 = false := by decide
        simpa [hhoming, hn', hcw, hl', hbit] using h hl'
      · -- The start bit: the count is positive and the flag is set.
        have hbit : (ControlWord.enableOperation.withNewSetpoint true).bit4 = true := by decide
        simp [hhoming, hn, hcw, hbit]

/-- The cycle takes the attained branch before the start bit of the stay was written: a
Homing cycle without fault or stop, with the mode echoed and bit 13 low, already shows
bit 12. -/
def StaleAttained (p : RtParams) (s : Controller) (t : Tick) : Prop :=
  t.inp.stopping = false ∧ s.homingCycles = 0 ∧ Attains p s t.inp (drain t.drained)

/-- A run records a home position only after a start-bit cycle of the same stay, if and only
if none of its cycles shows bit 12 in Homing before the start bit. -/
theorem homed_after_start_iff (p : RtParams) (s₀ : Controller) (bringup : List CycleInput)
    (ticks : List Tick) :
    AllSteps (observeStart p) (fun st t => SetsHomed p st.1 t → st.2 = true)
        (spawned p s₀ bringup, false) ticks ↔
      AllSteps (cycle p) (fun s t => ¬ StaleAttained p s t) (spawned p s₀ bringup) ticks := by
  have hproj : ∀ st t, (observeStart p st t).1 = cycle p st.1 t := fun _ _ => rfl
  -- The observer does not change the run, so both sides can be read along one run.
  rw [← allSteps_proj (x := (spawned p s₀ bringup, false)) hproj]
  -- The count is zero exactly before the start bit, which relates the flag to the state.
  refine allSteps_congr (I := StartCounted) ?_ (fun st t h _ => startCounted_step st t h) ?_
  · intro h
    rw [spawned_lifecycle] at h
    cases h
  · intro st t hinv
    rw [setsHomed_iff]
    unfold StaleAttained
    constructor
    · rintro h ⟨hstop, hzero, hatt⟩
      have hseen := h ⟨hstop, hatt⟩
      rw [(hinv hatt.1).mp hzero] at hseen
      cases hseen
    · rintro h ⟨hstop, hatt⟩
      by_contra hseen
      exact h ⟨hstop, (hinv hatt.1).mpr (by simpa using hseen), hatt⟩

instance : Decidable (SetsHomed p s t) := inferInstanceAs (Decidable (_ ∨ _))

/-- A homing run is requested, and the drive enters mode 6 with bit 12 still set. -/
def staleRun : List Tick :=
  climb 1 0 ++ [tick 0x0027#16 1 0 [.startHoming ⟨1, 120000⟩], tick 0x1027#16 6 5000 []]

/-- The stale bit 12 is recorded as home before any start bit. -/
theorem homed_before_start : ¬ ∀ (p : RtParams) (s₀ : Controller) (bringup : List CycleInput)
    (ticks : List Tick),
    AllSteps (observeStart p) (fun st t => SetsHomed p st.1 t → st.2 = true)
      (spawned p s₀ bringup, false) ticks := by
  intro h
  have := h profileBench profileController [] staleRun
  revert this
  decide +kernel

/-! ### A drained homing request -/

/-- The commands after the last homing request of a drained list. -/
def afterLastHoming (cs : List Command) : List Command :=
  (cs.reverse.takeWhile fun c => c.homing?.isNone).reverse

/-- A Halt, Disable or QuickStop comes after the last homing request. -/
def StopAfterHoming (cs : List Command) : Prop := ∃ c ∈ afterLastHoming cs, c.isStop = true

instance (cs : List Command) : Decidable (StopAfterHoming cs) :=
  inferInstanceAs (Decidable (∃ c ∈ afterLastHoming cs, c.isStop = true))

/-- The request is running and no stop came after it, or its verdict is published and the
waiters are woken. -/
def HomingSettled (p : RtParams) (s : Controller) (t : Tick) : Prop :=
  ((cycle p s t).lifecycle = .homing ∧ ¬ StopAfterHoming t.drained) ∨
    ((cycle p s t).homingState ≠ .running ∧ s.wakeSeq < (cycle p s t).wakeSeq)

instance : Decidable (HomingSettled p s t) := inferInstanceAs (Decidable (_ ∨ _))

/-- A batch holds a homing request when the list does. -/
theorem drain_startHoming_isSome {cs : List Command} {h : StartHoming}
    (hmem : Command.startHoming h ∈ cs) : (drain cs).startHoming.isSome = true := by
  have hne : homings cs ≠ [] := List.ne_nil_of_mem (List.mem_filterMap.mpr ⟨_, hmem, rfl⟩)
  rw [drain_startHoming, List.getLast?_eq_some_getLast hne]
  rfl

/-- The state machine never publishes `running`, and keeps every wake. -/
theorem stepHoming_verdict (inp : CycleInput) (hv : s.homingState ≠ .running) :
    (s.stepHoming p inp b).1.homingState ≠ .running ∧
      s.wakeSeq ≤ (s.stepHoming p inp b).1.wakeSeq := by
  unfold stepHoming
  dsimp only
  split_ifs <;> simp [hv, finishHoming, publishHomingResult, bumpWake, enterResetting]

/-- Outside Operational a homing request is failed and its caller woken. -/
theorem stepLifecycle_request_failed (inp : CycleInput) (hl : s.lifecycle ≠ .operational)
    (hreq : b.startHoming.isSome = true) :
    (s.stepLifecycle p inp b).1.homingState ≠ .running ∧
      s.wakeSeq < (s.stepLifecycle p inp b).1.wakeSeq := by
  -- The head of `step_lifecycle` fails the request, and no state takes that back.
  obtain ⟨le, te, w, hf, -, hw, hroute⟩ := s.routeCommands_eq inp b
  have hverdict : (s.routeCommands inp b).homingState ≠ .running := by
    rw [hroute]
    simp [routedHoming, hreq, hl]
  have hwake : s.wakeSeq < (s.routeCommands inp b).wakeSeq := by
    rw [hroute]
    exact hw ⟨hreq, hl⟩
  cases hlc : s.lifecycle with
  | operational => exact absurd hlc hl
  | homing =>
      rw [stepLifecycle_homing hlc]
      obtain ⟨hv, hle⟩ := stepHoming_verdict (p := p) (b := b) inp hverdict
      exact ⟨hv, hwake.trans_le hle⟩
  | init =>
      rw [stepLifecycle_init hlc]
      simp only [stepInit, enterResetting]
      split_ifs <;> exact ⟨hverdict, hwake⟩
  | enabling =>
      rw [stepLifecycle_enabling hlc]
      simp only [stepEnabling, enterResetting]
      split_ifs <;> exact ⟨hverdict, hwake⟩
  | resetting =>
      rw [stepLifecycle_resetting hlc]
      simp only [stepResetting]
      split_ifs <;> exact ⟨hverdict, hwake⟩
  | disabled =>
      rw [stepLifecycle_disabled hlc]
      simp only [stepDisabled]
      split_ifs <;> exact ⟨hverdict, hwake⟩

/-- In Operational the verdict stays as the API left it, and the run starts only past the
fault and the disable branch. -/
theorem stepLifecycle_request_operational (inp : CycleInput)
    (hl : s.lifecycle = .operational) (hreq : b.startHoming.isSome = true) :
    (s.stepLifecycle p inp b).1.homingState = s.homingState ∧
      ((s.stepLifecycle p inp b).1.lifecycle = .homing ↔
        ¬ Faulted inp ∧ b.disable = false) := by
  obtain ⟨r, hr⟩ := Option.isSome_iff_exists.mp hreq
  obtain ⟨le, te, w, hf, -, -, hroute⟩ := s.routeCommands_eq inp b
  have hverdict : (s.routeCommands inp b).homingState = s.homingState := by
    rw [hroute]
    simp [routedHoming, hl]
  rw [stepLifecycle_operational hl]
  -- The fault and the disable are tested before the request is looked at.
  simp only [stepOperational, hr]
  split_ifs with hfault hdis <;>
    simp [enterResetting, abortActiveMove, hverdict, hfault]
  · exact hdis
  · simpa using hdis

/-- A homing request, drained while `home()` is parked on it, is settled if and only if the
loop is not Operational, or it comes without a fault, a Disable and a later stop. -/
theorem homing_request_settled_iff (p : RtParams) (s : Controller) (t : Tick) (h : StartHoming)
    (hsteady : t.inp.stopping = false) (hrun : s.homingState = .running)
    (hreq : Command.startHoming h ∈ t.drained) :
    HomingSettled p s t ↔
      s.lifecycle ≠ .operational ∨
        (¬ Faulted t.inp ∧ Command.disable ∉ t.drained ∧
          ¬ StopAfterHoming t.drained) := by
  have hsome := drain_startHoming_isSome hreq
  obtain ⟨te, ph, ar, w, out, hw, hc⟩ := cycle_steady (p := p) (s := s) hsteady
  unfold HomingSettled
  rw [hc]
  by_cases hl : s.lifecycle = .operational
  · obtain ⟨hverdict, hlife⟩ := stepLifecycle_request_operational (p := p)
      (s := s.sample t.inp) t.inp hl hsome
    -- In Operational the verdict stays Running, so only a started run settles the request.
    have hverdict' : (lifecycleStep p s t.inp (drain t.drained)).1.homingState = .running :=
      hverdict.trans hrun
    simp only [hverdict', hlife, hl, ne_eq, not_true_eq_false, false_and, or_false, false_or,
      drain_disable, decide_eq_false_iff_not, and_assoc]
  · obtain ⟨hverdict, hwake⟩ := stepLifecycle_request_failed (p := p)
      (s := s.sample t.inp) t.inp hl hsome
    exact iff_of_true (Or.inr ⟨hverdict, hwake.trans_le hw⟩) (Or.inl hl)

/-- The Operational controller of a parked `home()`. -/
def homingCaller : Controller :=
  { runFrom (cycle profileBench) (spawned profileBench profileController []) (climb 1 0) with
      homingState := .running }

/-- The condition is met by a request alone, and the run starts. -/
theorem homing_request_settled_alone :
    HomingSettled profileBench homingCaller (tick 0x0027#16 1 0 [.startHoming ⟨1, 120000⟩]) :=
  (homing_request_settled_iff profileBench homingCaller _ ⟨1, 120000⟩ rfl rfl
    (by decide)).mpr (Or.inr (by decide +kernel))

/-- The drive faults in the cycle that drains the request: it is dropped, and its caller
stays parked on `running`. -/
theorem homing_request_dropped : ¬ ∀ (p : RtParams) (s : Controller) (t : Tick)
    (h : StartHoming), t.inp.stopping = false → s.homingState = .running →
    Command.startHoming h ∈ t.drained → HomingSettled p s t := by
  intro h
  have := h profileBench homingCaller (tick 0x0008#16 1 0 [.startHoming ⟨1, 120000⟩])
    ⟨1, 120000⟩ rfl rfl (by decide)
  revert this
  decide +kernel

end ViamEthercat.Servo
