import ViamEthercat.Proofs.Step

/-!
# `ViamEthercat.Proofs.Discard`: a reset of the mode and the move it discards

`motion_->reset()` drops the command of the mode. It does not touch the move ids: failing the
move is a call of its own, `abort_active_move`, and only the fault branch of Operational makes
both. A fault on the ladder, a Disable or a homing request in Operational and the end of a
homing stay reset the mode and leave the move live, which a later cycle then publishes as
completed.

`discarded_move_fails_iff`: a cycle that resets the mode fails the live move, for good, if and
only if it is not one of those. A failed move is never published as completed
(`settled_run`), so failing is what the waiter relies on.
-/

set_option autoImplicit false

namespace ViamEthercat.Servo

open Lib Controller

/-- The move `id` is over, and not by a completion: it is not active, or it has failed. -/
structure Settled (id : Nat) (s : Controller) : Prop where
  failed : s.activeGeneration = id → s.failedGeneration = id
  notCompleted : s.completedGeneration ≠ id

section
variable {p : RtParams} {s : Controller} {t : Tick} {id : Nat}

/-- The active move after a cycle: that of the drained target, when the cycle drains one. -/
theorem cycle_active (p : RtParams) (s : Controller) (t : Tick) :
    (cycle p s t).activeGeneration =
      if t.inp.stopping then s.activeGeneration else s.routedActive (drain t.drained) := by
  cases hstop : t.inp.stopping with
  | true =>
      obtain ⟨te, ph, ar, w, out, sr, -, hc⟩ := cycle_stopping (p := p) (s := s) hstop
      rw [hc]
      rfl
  | false =>
      obtain ⟨te, ph, ar, w, out, -, hc⟩ := cycle_steady (p := p) (s := s) hstop
      rw [hc]
      exact (stepLifecycle_ids p (s.sample t.inp) t.inp (drain t.drained)).1

/-- A cycle publishes only a completion of the move that it leaves active and not failed. -/
theorem cycle_completed (p : RtParams) (s : Controller) (t : Tick) :
    (cycle p s t).completedGeneration = s.completedGeneration ∨
      ((cycle p s t).completedGeneration = (cycle p s t).activeGeneration ∧
        (cycle p s t).failedGeneration ≠ (cycle p s t).activeGeneration) := by
  cases hstop : t.inp.stopping with
  | true =>
      obtain ⟨te, ph, ar, w, out, sr, -, hc⟩ := cycle_stopping (p := p) (s := s) hstop
      rw [hc]
      dsimp only
      split_ifs with hcompletes
      · simp only [Bool.and_eq_true] at hcompletes
        exact .inr ⟨rfl, (moveActive_iff.mp hcompletes.1.2).2.2⟩
      · exact .inl rfl
  | false =>
      obtain ⟨te, ph, ar, w, out, -, hc⟩ := cycle_steady (p := p) (s := s) hstop
      rw [hc]
      dsimp only
      split_ifs with hcompletes
      · simp only [Bool.and_eq_true] at hcompletes
        exact .inr ⟨rfl, (moveActive_iff.mp hcompletes.1.2).2.2⟩
      · exact .inl (stepLifecycle_ids p (s.sample t.inp) t.inp (drain t.drained)).2

/-- A cycle that drains no target of `id` keeps the verdict: the active move stays failed, and
`id` does not become active again. -/
theorem settled_cycle (hfresh : ∀ u ∈ targets t.drained, u.generation ≠ id)
    (h : Settled id s) : Settled id (cycle p s t) := by
  have hfailed : (cycle p s t).activeGeneration = id → (cycle p s t).failedGeneration = id := by
    cases hstop : t.inp.stopping with
    | true =>
        obtain ⟨te, ph, ar, w, out, sr, -, hc⟩ := cycle_stopping (p := p) (s := s) hstop
        rw [hc]
        exact h.failed
    | false =>
        obtain ⟨te, ph, ar, w, out, -, hc⟩ := cycle_steady (p := p) (s := s) hstop
        rw [hc]
        dsimp only
        intro hactive
        have hids := stepLifecycle_ids p (s.sample t.inp) t.inp (drain t.drained)
        rw [hids.1] at hactive
        -- No target of `id` was drained, so `id` was the active move before.
        have hno : ∀ u, ¬ Adopts (drain t.drained) (s.sample t.inp).activeGeneration u := by
          intro u hu
          rw [routedActive_of_adopts hu] at hactive
          have hmem := hu.1
          rw [drain_setTarget] at hmem
          exact hfresh u (List.mem_of_getLast? hmem) hactive
        have hbefore : (s.sample t.inp).activeGeneration = id := by
          rw [← hactive, routedActive_of_not_adopts hno]
        have hrouted : (s.sample t.inp).routedFailed (drain t.drained) = id := by
          unfold routedFailed
          split_ifs
          · exact hbefore
          · exact h.failed hbefore
        rcases outcome_failed (stepLifecycle_outcome p (s.sample t.inp) t.inp
          (drain t.drained)) with hout | hout
        · exact hout.trans hrouted
        · exact hout.trans hactive
  refine ⟨hfailed, ?_⟩
  rcases cycle_completed p s t with hcompleted | ⟨hcompleted, hne⟩
  · rw [hcompleted]
    exact h.notCompleted
  · rw [hcompleted]
    intro hactive
    exact hne ((hfailed hactive).trans hactive.symm)

/-- No later cycle publishes the move as completed. -/
theorem settled_run {later : List Tick}
    (hfresh : ∀ t ∈ later, ∀ u ∈ targets t.drained, u.generation ≠ id) (h : Settled id s) :
    Settled id (runFrom (cycle p) s later) :=
  runFrom_of_allSteps h (fun _ _ h hx => settled_cycle hx h) (allSteps_of_forall hfresh)

end

/-! ### A cycle that resets the mode -/

section
variable (p : RtParams) (s : Controller) (t : Tick)

/-- The cycle resets the mode: on one of the edges of `ResetsMode`, or on a fault in
Operational. -/
def DiscardsMode : Prop :=
  ResetsMode p s t.inp (drain t.drained) ∨ (s.lifecycle = .operational ∧ Faulted t.inp)

instance : Decidable (DiscardsMode p s t) := inferInstanceAs (Decidable (_ ∨ _))

/-- The move that is active after the routing of the cycle is live. -/
def RoutedLive : Prop :=
  s.routedActive (drain t.drained) ≠ 0 ∧
    s.completedGeneration ≠ s.routedActive (drain t.drained) ∧
    s.routedFailed (drain t.drained) ≠ s.routedActive (drain t.drained)

instance : Decidable (RoutedLive s t) := inferInstanceAs (Decidable (_ ∧ _))

/-- A live move that the cycle discards has failed at its end, and no later cycle publishes it
as completed. Later targets are of other moves. -/
def DiscardFails : Prop :=
  DiscardsMode p s t → RoutedLive s t →
    (cycle p s t).failedGeneration = s.routedActive (drain t.drained) ∧
    ∀ later : List Tick,
      (∀ t' ∈ later, ∀ u ∈ targets t'.drained,
        u.generation ≠ s.routedActive (drain t.drained)) →
      (runFrom (cycle p) (cycle p s t) later).completedGeneration
        ≠ s.routedActive (drain t.drained)

end

section
variable {p : RtParams} {s : Controller} {t : Tick}

/-- The edges of `ResetsMode` leave the failed move as the routing left it. -/
theorem failed_of_resetsMode (hsteady : t.inp.stopping = false)
    (h : ResetsMode p s t.inp (drain t.drained)) :
    (cycle p s t).failedGeneration = s.routedFailed (drain t.drained) := by
  obtain ⟨te, ph, ar, w, out, -, hc⟩ := cycle_steady (p := p) (s := s) hsteady
  rw [hc]
  dsimp only
  have hresets : ResetsMode p (s.sample t.inp) t.inp (drain t.drained) := h
  cases stepLifecycle_outcome p (s.sample t.inp) t.inp (drain t.drained) with
  | kept _ hfailed _ => exact hfailed
  | reset _ hfailed _ _ => exact hfailed
  | faulted _ _ hfrom _ hfault => simp [ResetsMode, hfrom, hfault] at hresets
  | stepped _ _ _ _ _ hfrom _ hfault hdisable hhoming _ =>
      simp [ResetsMode, hfrom, hdisable, hhoming] at hresets

/-- A fault in Operational fails the live move. -/
theorem failed_of_fault (hsteady : t.inp.stopping = false) (hl : s.lifecycle = .operational)
    (hfault : Faulted t.inp) (hlive : RoutedLive s t) :
    (cycle p s t).failedGeneration = s.routedActive (drain t.drained) := by
  obtain ⟨te, ph, ar, w, out, -, hc⟩ := cycle_steady (p := p) (s := s) hsteady
  rw [hc]
  dsimp only
  cases stepLifecycle_outcome p (s.sample t.inp) t.inp (drain t.drained) with
  | kept _ _ hwhere =>
      rcases hwhere with ⟨hfrom, -⟩ | ⟨hfrom, -⟩ | ⟨-, -, -, -, hno, -⟩
      · exact absurd hl hfrom
      · cases hl.symm.trans hfrom
      · exact absurd hfault hno
  | reset _ _ _ hwhere =>
      have hno : ¬ ResetsMode p (s.sample t.inp) t.inp (drain t.drained) := by
        simp [ResetsMode, sample, hl, hfault]
      exact absurd hwhere hno
  | faulted _ hfailed _ _ _ => exact hfailed.trans (if_pos ⟨hlive.1, hlive.2.1⟩)
  | stepped _ _ _ _ _ _ _ hno _ _ _ => exact absurd hfault hno

end

/-- A cycle that resets the mode fails the live move if and only if it does not reset it on one
of the edges that forget the move: a fault in Init or Enabling, a Disable or a homing request in
Operational, the end of a homing stay. -/
theorem discarded_move_fails_iff (p : RtParams) (s : Controller) (t : Tick)
    (hsteady : t.inp.stopping = false) :
    DiscardFails p s t ↔
      ¬ (ResetsMode p s t.inp (drain t.drained) ∧ RoutedLive s t) := by
  constructor
  · rintro h ⟨hresets, hlive⟩
    obtain ⟨hfailed, -⟩ := h (.inl hresets) hlive
    rw [failed_of_resetsMode hsteady hresets] at hfailed
    exact hlive.2.2 hfailed
  · intro hno hdiscards hlive
    rcases hdiscards with hresets | ⟨hl, hfault⟩
    · exact absurd ⟨hresets, hlive⟩ hno
    have hfailed := failed_of_fault (p := p) hsteady hl hfault hlive
    refine ⟨hfailed, fun later hfresh => ?_⟩
    -- Failed in this cycle, and not completed before: the verdict of the move is final.
    have hsettled : Settled (s.routedActive (drain t.drained)) (cycle p s t) := by
      refine ⟨fun _ => hfailed, ?_⟩
      rcases cycle_completed p s t with hcompleted | ⟨hcompleted, hne⟩
      · rw [hcompleted]
        exact hlive.2.1
      · rw [hcompleted]
        intro hactive
        exact hne (hfailed.trans hactive.symm)
    exact (settled_run hfresh hsettled).notCompleted

/-- A profile mode in Operational with a live move. -/
def discardBench : Controller :=
  runFrom (cycle profileBench) (spawned profileBench profileController [])
    (climb 1 0 ++ [tick 0x0027#16 1 0 [.setTarget ⟨1000, 500, false, 1⟩]])

/-- A drive fault in Operational discards the live move and fails it. -/
theorem discarded_move_fails_operational :
    DiscardsMode profileBench discardBench (tick 0x0008#16 1 0 []) ∧
    RoutedLive discardBench (tick 0x0008#16 1 0 []) ∧
    DiscardFails profileBench discardBench (tick 0x0008#16 1 0 []) :=
  ⟨by decide +kernel, by decide +kernel,
    (discarded_move_fails_iff profileBench discardBench (tick 0x0008#16 1 0 []) rfl).mpr
      (by decide +kernel)⟩

/-- A drive fault on the ladder discards the move that was adopted there, and does not fail
it. -/
theorem discarded_move_lives_on : ¬ ∀ (p : RtParams) (s₀ : Controller)
    (bringup : List CycleInput) (history : List Tick) (t : Tick),
    let s := runFrom (cycle p) (spawned p s₀ bringup) history
    t.inp.stopping = false → DiscardFails p s t := by
  intro h
  have hfails := h profileBench profileController []
    [tick 0x0040#16 1 0 [], tick 0x0040#16 1 0 [.setTarget ⟨1000, 500, false, 1⟩]]
    (tick 0x0008#16 1 0 []) rfl (by decide +kernel) (by decide +kernel)
  have hfailed := hfails.1
  revert hfailed
  decide +kernel

end ViamEthercat.Servo
