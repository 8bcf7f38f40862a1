import ViamEthercat.Proofs.Homing

/-!
# `ViamEthercat.Proofs.HomingBound`: the length of a homing run

The Homing state has two counters. `homingEchoWait` counts the cycles without the echo of mode 6
and is not reset when the echo returns, `homingCycles` counts the others. A cycle that stays
advances one of them by one, so their sum bounds the stay however the echo comes and goes.

* `homing_bounded`: the stay lasts at most `modeEchoCycles - 1 + max 1 timeoutCycles` steady
  cycles after the one that entered it, and the cycle that ends it publishes the verdict and
  wakes the waiters.
* `homing_unbounded_stopping`: the stopping window keeps the lifecycle as it is.
-/

set_option autoImplicit false

namespace ViamEthercat.Servo

open Lib Controller

variable {p : RtParams} {s : Controller} {inp : CycleInput} {b : CommandBatch} {t : Tick}

/-! ### One step -/

/-- The counters of the Homing state after a step that entered it, for the request `h`. -/
structure HomingEntered (s : Controller) (h : StartHoming) : Prop where
  cycles : s.homingCycles = 0
  echoWait : s.homingEchoWait = 0
  timeout : s.homingTimeoutCycles = h.timeoutCycles

/-- Homing is entered for the request of the batch. -/
theorem stepLifecycle_enters_homing (houtside : s.lifecycle ≠ .homing)
    (henter : (s.stepLifecycle p inp b).1.lifecycle = .homing) :
    ∃ h, b.startHoming = some h ∧ HomingEntered (s.stepLifecycle p inp b).1 h := by
  rcases stepLifecycle_homing_cases henter with ⟨hl, -⟩ | ⟨hl, -⟩
  · obtain ⟨le, te, w, sr, -, hm⟩ := (s.routeCommands inp b).stepMotion_eq p inp
    rw [stepLifecycle_operational hl, stepOperational] at henter ⊢
    by_cases hfault : Faulted inp
    · rw [if_pos hfault] at henter
      cases henter
    rw [if_neg hfault] at henter ⊢
    by_cases hdis : b.disable = true
    · rw [if_pos hdis] at henter
      cases henter
    rw [if_neg hdis] at henter ⊢
    cases hreq : b.startHoming with
    | some h => exact ⟨h, rfl, rfl, rfl, rfl⟩
    | none =>
        -- Without a request the step stays in Operational.
        rw [hreq, hm] at henter
        dsimp only at henter
        split_ifs at henter <;> simp [hl] at henter
  · exact absurd hl houtside

/-- A step that stays in Homing counts one cycle of one kind, which had room left. -/
theorem stepHoming_counts (hstay : (s.stepHoming p inp b).1.lifecycle = .homing) :
    (s.stepHoming p inp b).1.homingTimeoutCycles = s.homingTimeoutCycles ∧
    (((s.stepHoming p inp b).1.homingEchoWait = s.homingEchoWait + 1 ∧
        (s.stepHoming p inp b).1.homingCycles = s.homingCycles ∧
        s.homingEchoWait + 1 < modeEchoCycles) ∨
      ((s.stepHoming p inp b).1.homingEchoWait = s.homingEchoWait ∧
        (s.stepHoming p inp b).1.homingCycles = s.homingCycles + 1 ∧
        s.homingCycles + 1 < s.homingTimeoutCycles)) := by
  unfold stepHoming at hstay ⊢
  by_cases hfault : Faulted inp
  · rw [if_pos hfault] at hstay
    cases hstay
  rw [if_neg hfault] at hstay ⊢
  by_cases hstop : b.disable ∨ b.halt ∨ b.quickStop
  · rw [if_pos hstop] at hstay
    dsimp only at hstay
    split_ifs at hstay
    cases hstay
  rw [if_neg hstop] at hstay ⊢
  dsimp only at hstay ⊢
  -- Every branch that ends the run leaves Homing.
  split_ifs at hstay ⊢ with hecho hwait herr hatt htime
  · cases hstay
  · exact ⟨rfl, .inl ⟨rfl, rfl, not_le.mp hwait⟩⟩
  · cases hstay
  · cases hstay
  · cases hstay
  · exact ⟨rfl, .inr ⟨rfl, rfl, not_le.mp htime⟩⟩

/-- A step that leaves Homing publishes a verdict and wakes the waiters. -/
theorem stepHoming_publishes (hl : s.lifecycle = .homing)
    (hleave : (s.stepHoming p inp b).1.lifecycle ≠ .homing) :
    (s.stepHoming p inp b).1.homingState
        = (if Attains p s inp b then .done else .failed) ∧
      s.wakeSeq < (s.stepHoming p inp b).1.wakeSeq := by
  have hwake : s.wakeSeq < s.wakeSeq + 1 := Nat.lt_succ_self _
  unfold stepHoming at hleave ⊢
  by_cases hfault : Faulted inp
  · have hno : ¬ Attains p s inp b := fun h => h.2.1 hfault
    rw [if_pos hfault, if_neg hno]
    exact ⟨rfl, hwake⟩
  rw [if_neg hfault] at hleave ⊢
  by_cases hstop : b.disable ∨ b.halt ∨ b.quickStop
  · have hno : ¬ Attains p s inp b := fun h => h.2.2.1 hstop
    rw [if_pos hstop, if_neg hno]
    exact ⟨rfl, hwake⟩
  rw [if_neg hstop] at hleave ⊢
  dsimp only at hleave ⊢
  cases hecho : modeEchoed p inp .homing with
  | false =>
      have hno : ¬ Attains p s inp b := by simp [Attains, hecho]
      simp only [hecho, Bool.not_false, if_true, if_neg hno] at hleave ⊢
      split_ifs at hleave ⊢
      · exact ⟨rfl, hwake⟩
      · exact absurd hl hleave
  | true =>
      simp only [hecho, Bool.not_true, Bool.false_eq_true, if_false] at hleave ⊢
      cases herr : inp.status.homingError with
      | true =>
          have hno : ¬ Attains p s inp b := by simp [Attains, herr]
          rw [if_pos rfl, if_neg hno]
          exact ⟨rfl, hwake⟩
      | false =>
          simp only [herr, Bool.false_eq_true, if_false] at hleave ⊢
          cases hatt : inp.status.homingAttained with
          | true =>
              have hyes : Attains p s inp b := ⟨hl, hfault, hstop, hecho, herr, hatt⟩
              rw [if_pos rfl, if_pos hyes]
              exact ⟨rfl, hwake⟩
          | false =>
              have hno : ¬ Attains p s inp b := by simp [Attains, hatt]
              simp only [hatt, Bool.false_eq_true, if_false, if_neg hno] at hleave ⊢
              split_ifs at hleave ⊢
              · exact ⟨rfl, hwake⟩
              · exact absurd hl hleave

/-! ### One cycle -/

/-- The cycle that enters Homing drains a request and zeroes the counters. -/
theorem cycle_enters_homing (houtside : s.lifecycle ≠ .homing)
    (henter : (cycle p s t).lifecycle = .homing) :
    ∃ h, (drain t.drained).startHoming = some h ∧ HomingEntered (cycle p s t) h := by
  cases hstop : t.inp.stopping with
  | true =>
      obtain ⟨te, ph, ar, w, out, sr, -, hc⟩ := cycle_stopping (p := p) (s := s) hstop
      rw [hc] at henter
      exact absurd henter houtside
  | false =>
      obtain ⟨te, ph, ar, w, out, -, hc⟩ := cycle_steady (p := p) (s := s) hstop
      rw [hc] at henter ⊢
      obtain ⟨h, hreq, hcycles, hwait, htime⟩ :=
        stepLifecycle_enters_homing (s := s.sample t.inp) houtside henter
      exact ⟨h, hreq, hcycles, hwait, htime⟩

/-- What is left of the stay: the echo cycles and the others that the counters allow. -/
def homingRoom (s : Controller) : Nat :=
  (modeEchoCycles - s.homingEchoWait) + (max 1 s.homingTimeoutCycles - s.homingCycles)

/-- Both counters are below their bounds. -/
def HomingCounted (s : Controller) : Prop :=
  s.homingEchoWait < modeEchoCycles ∧ s.homingCycles < max 1 s.homingTimeoutCycles

/-- A steady cycle that stays in Homing uses up one cycle of the room. -/
theorem cycle_stays_homing (hsteady : t.inp.stopping = false) (hl : s.lifecycle = .homing)
    (hstay : (cycle p s t).lifecycle = .homing) (hcounted : HomingCounted s) :
    HomingCounted (cycle p s t) ∧ homingRoom (cycle p s t) + 1 = homingRoom s := by
  obtain ⟨te, ph, ar, w, out, -, hc⟩ := cycle_steady (p := p) (s := s) hsteady
  rw [hc] at hstay ⊢
  dsimp only [HomingCounted, homingRoom] at hstay hcounted ⊢
  have hl' : (s.sample t.inp).lifecycle = .homing := hl
  rw [lifecycleStep, stepLifecycle_homing hl'] at hstay ⊢
  obtain ⟨htime, hcounts⟩ := stepHoming_counts hstay
  obtain ⟨hcycles, htimeout, hwait⟩ : ((s.sample t.inp).routeCommands t.inp
        (drain t.drained)).homingCycles = s.homingCycles ∧
      ((s.sample t.inp).routeCommands t.inp (drain t.drained)).homingTimeoutCycles =
        s.homingTimeoutCycles ∧
      ((s.sample t.inp).routeCommands t.inp (drain t.drained)).homingEchoWait =
        s.homingEchoWait := routeCommands_homingCounters
  simp only [sample] at htime hcounts hcycles htimeout hwait ⊢
  omega

/-- The cycle that leaves Homing publishes `Done` if it recorded the home position and `Failed`
otherwise, and wakes the waiters. -/
def SettlesHoming (p : RtParams) (s : Controller) (t : Tick) : Prop :=
  s.lifecycle = .homing → (cycle p s t).lifecycle ≠ .homing →
    (((cycle p s t).homingState = .done ∧ SetsHomed p s t) ∨
      ((cycle p s t).homingState = .failed ∧ ¬ SetsHomed p s t)) ∧
    s.wakeSeq < (cycle p s t).wakeSeq

theorem settlesHoming (p : RtParams) (s : Controller) (t : Tick) : SettlesHoming p s t := by
  intro hl hleave
  cases hstop : t.inp.stopping with
  | true =>
      obtain ⟨te, ph, ar, w, out, sr, -, hc⟩ := cycle_stopping (p := p) (s := s) hstop
      rw [hc] at hleave
      exact absurd hl hleave
  | false =>
      obtain ⟨te, ph, ar, w, out, hw, hc⟩ := cycle_steady (p := p) (s := s) hstop
      have hsets : SetsHomed p s t ↔ Attains p s t.inp (drain t.drained) := by
        rw [setsHomed_iff, and_iff_right hstop]
      rw [hsets]
      rw [hc] at hleave ⊢
      have hl' : (s.sample t.inp).lifecycle = .homing := hl
      dsimp only at hleave hw ⊢
      rw [lifecycleStep, stepLifecycle_homing hl'] at hleave hw ⊢
      obtain ⟨hstate, hwake⟩ := stepHoming_publishes (by simp [hl']) hleave
      -- Routing never takes a wake back.
      obtain ⟨le, te', wr, hf, hwr, -, hroute⟩ :=
        (s.sample t.inp).routeCommands_eq t.inp (drain t.drained)
      have hroute : s.wakeSeq
          ≤ ((s.sample t.inp).routeCommands t.inp (drain t.drained)).wakeSeq := by
        rw [hroute]
        exact hwr
      have hattains : Attains p ((s.sample t.inp).routeCommands t.inp (drain t.drained)) t.inp
          (drain t.drained) ↔ Attains p s t.inp (drain t.drained) := by
        simp [Attains, sample]
      refine ⟨?_, by omega⟩
      rw [hstate]
      by_cases hatt : Attains p s t.inp (drain t.drained)
      · exact .inl ⟨if_pos (hattains.mpr hatt), hatt⟩
      · exact .inr ⟨if_neg fun h => hatt (hattains.mp h), hatt⟩

/-! ### The stay -/

/-- A run of steady cycles that all start in Homing fits into the room. -/
theorem length_le_homingRoom {ts : List Tick} (hsteady : ∀ t ∈ ts, t.inp.stopping = false)
    (hcounted : HomingCounted s)
    (hstay : AllSteps (cycle p) (fun s _ => s.lifecycle = .homing) s ts) :
    ts.length + 1 ≤ homingRoom s := by
  induction ts generalizing s with
  | nil =>
      simp only [HomingCounted, homingRoom, List.length_nil] at hcounted ⊢
      omega
  | cons t ts ih =>
      obtain ⟨hl, hrest⟩ := hstay
      cases ts with
      | nil =>
          simp only [HomingCounted, homingRoom, List.length_singleton] at hcounted ⊢
          omega
      | cons t' ts =>
          -- The next cycle starts in Homing too, so that this one stayed.
          obtain ⟨hnext, hroom⟩ :=
            cycle_stays_homing (hsteady t List.mem_cons_self) hl hrest.1 hcounted
          have := ih (fun x hx => hsteady x (List.mem_cons_of_mem t hx)) hnext hrest
          rw [List.length_cons]
          omega

/-- A stay in Homing has at most `modeEchoCycles - 1 + max 1 timeoutCycles` steady cycles after the
one that entered it, and the cycle that leaves publishes the verdict. -/
theorem homing_bounded (p : RtParams) (s : Controller) (t₀ : Tick) (ts : List Tick)
    (houtside : s.lifecycle ≠ .homing) (henter : (cycle p s t₀).lifecycle = .homing)
    (hsteady : ∀ t ∈ ts, t.inp.stopping = false)
    (hstay : AllSteps (cycle p) (fun s _ => s.lifecycle = .homing) (cycle p s t₀) ts) :
    (∃ h, (drain t₀.drained).startHoming = some h ∧
      ts.length ≤ modeEchoCycles - 1 + max 1 h.timeoutCycles) ∧
    AllSteps (cycle p) (SettlesHoming p) (cycle p s t₀) ts := by
  obtain ⟨h, hreq, hcycles, hwait, htime⟩ := cycle_enters_homing houtside henter
  constructor
  · have hecho : modeEchoCycles = 200 := rfl
    have hcounted : HomingCounted (cycle p s t₀) := by
      unfold HomingCounted
      omega
    have hroom := length_le_homingRoom hsteady hcounted hstay
    unfold homingRoom at hroom
    exact ⟨h, hreq, by omega⟩
  · exact allSteps_of_invariant (I := fun _ => True) trivial
      (fun s t _ _ => ⟨trivial, settlesHoming p s t⟩) hstay

/-- The Operational profile drive, right after its climb. -/
def climbedController : Controller :=
  runFrom (cycle profileBench) (spawned profileBench profileController []) (climb 1 0)

/-- A request with a timeout of two cycles, an echo that comes, goes and comes back, and the
timeout. -/
theorem homing_bounded_timeout :
    (∃ h, (drain [Command.startHoming ⟨1, 2⟩]).startHoming = some h ∧
      3 ≤ modeEchoCycles - 1 + max 1 h.timeoutCycles) ∧
    AllSteps (cycle profileBench) (SettlesHoming profileBench)
      (cycle profileBench climbedController (tick 0x0027#16 1 0 [.startHoming ⟨1, 2⟩]))
      [tick 0x0027#16 6 0 [], tick 0x0027#16 1 0 [], tick 0x0027#16 6 0 []] :=
  homing_bounded profileBench climbedController (tick 0x0027#16 1 0 [.startHoming ⟨1, 2⟩])
    [tick 0x0027#16 6 0 [], tick 0x0027#16 1 0 [], tick 0x0027#16 6 0 []]
    (by decide +kernel) (by decide +kernel) (by decide) (by decide +kernel)

/-- A cycle of the stopping window. -/
def windowTick : Tick :=
  { tick 0x0027#16 6 0 [] with inp := { (tick 0x0027#16 6 0 []).inp with stopping := true } }

theorem allSteps_window {l : Lifecycle} (hl : s.lifecycle = l) (n : Nat) :
    AllSteps (cycle p) (fun s _ => s.lifecycle = l) s (List.replicate n windowTick) := by
  induction n generalizing s with
  | zero => trivial
  | succ n ih =>
      obtain ⟨te, ph, ar, w, out, sr, -, hc⟩ :=
        cycle_stopping (p := p) (s := s) (t := windowTick) rfl
      refine ⟨hl, ih ?_⟩
      rw [hc]
      exact hl

/-- The stopping window does not run the state machine: a request with a timeout of one cycle
is still in Homing after 201 cycles of it. -/
theorem homing_unbounded_stopping : ¬ ∀ (p : RtParams) (s : Controller) (t₀ : Tick)
    (ts : List Tick), s.lifecycle ≠ .homing → (cycle p s t₀).lifecycle = .homing →
    AllSteps (cycle p) (fun s _ => s.lifecycle = .homing) (cycle p s t₀) ts →
    ∃ h, (drain t₀.drained).startHoming = some h ∧
      ts.length ≤ modeEchoCycles - 1 + max 1 h.timeoutCycles := by
  intro h
  have henter : (cycle profileBench climbedController
      (tick 0x0027#16 1 0 [.startHoming ⟨1, 1⟩])).lifecycle = .homing := by
    decide +kernel
  obtain ⟨r, hreq, hlen⟩ := h profileBench climbedController _ (List.replicate 201 windowTick)
    (by decide +kernel) henter (allSteps_window henter 201)
  obtain rfl : (⟨1, 1⟩ : StartHoming) = r := Option.some_injective _ hreq
  rw [List.length_replicate] at hlen
  exact absurd hlen (by decide)

end ViamEthercat.Servo
