import ViamEthercat.Proofs.ControlWords
import ViamEthercat.Proofs.FaultReset
import ViamEthercat.Proofs.Recovery

/-!
# `ViamEthercat.Proofs.ClearConfirm`: the end of the recovery

Resetting hands the drive back to the enable ladder once it has stayed out of Fault for the
configured number of cycles. The streak is counted on the decoded state. FaultReactionActive
has the fault bit set and decodes to a state of its own, so a drive that still runs its fault
reaction counts as recovered. And the configuration may ask for no cycle at all.

`ResetWatch` keeps the statuswords of the current stay beside the controller.

* `hand_back_confirmed`: along every run whose Resetting cycles show the fault bit only in Fault,
  and not at all if no cycle is asked for, every hand-back has the fault bit clear in the
  cycles that confirm it.
* `hand_back_in_reaction`: without the condition it does not, with the default configuration.
-/

set_option autoImplicit false

namespace ViamEthercat

namespace Status

/-- A masked statusword has the fault bit of its value, if the mask lets it through. -/
theorem fault_of_masked {st : Status} {mask value : BitVec 16} (h : st.raw &&& mask = value)
    (hmask : mask.getLsbD 3 = true) : st.fault = value.getLsbD 3 := by
  rw [← h, BitVec.getLsbD_and, hmask, Bool.and_true]
  rfl

/-- A statusword with the fault bit decodes to Fault or to FaultReactionActive. -/
theorem decode_of_fault (st : Status) (h : st.fault = true) :
    st.decode = .fault ∨ st.decode = .faultReactionActive := by
  have hlow : stateMaskLow.getLsbD 3 = true := by decide
  have hfull : stateMaskFull.getLsbD 3 = true := by decide
  have hclear {mask value : BitVec 16} (hmask : mask.getLsbD 3 = true)
      (hvalue : value.getLsbD 3 = false) : st.raw &&& mask ≠ value := by
    intro hmasked
    rw [fault_of_masked hmasked hmask, hvalue] at h
    cases h
  unfold decode
  rw [if_neg (hclear hlow (by decide)), if_neg (hclear hlow (by decide)),
    if_neg (hclear hfull (by decide)), if_neg (hclear hfull (by decide)),
    if_neg (hclear hfull (by decide)), if_neg (hclear hfull (by decide))]
  split_ifs
  · exact .inr rfl
  · exact .inl rfl
  · exact .inl rfl

end Status

namespace Servo

open Lib Controller

variable {p : RtParams} {t : Tick}

/-- The controller with the statuswords since it entered Resetting, the last one first. -/
structure ResetWatch where
  controller : Controller
  words : List Status := []

namespace ResetWatch

/-- One cycle, observed. -/
def step (p : RtParams) (w : ResetWatch) (t : Tick) : ResetWatch where
  controller := cycle p w.controller t
  words :=
    if w.controller.lifecycle = .resetting ∧ (cycle p w.controller t).lifecycle = .resetting then
      t.inp.status :: w.words
    else []

/-- A hand-back from Resetting to Enabling is confirmed: the statuswords of this cycle and of those
before it, `max 1 fault_reset_clear_confirm_cycles` in all and all since entering Resetting,
have the fault bit clear. -/
def Confirmed (p : RtParams) (w : ResetWatch) (t : Tick) : Prop :=
  w.controller.lifecycle = .resetting → (cycle p w.controller t).lifecycle = .enabling →
    max 1 p.faultResetClearConfirmCycles ≤ (t.inp.status :: w.words).length ∧
      ∀ st ∈ (t.inp.status :: w.words).take (max 1 p.faultResetClearConfirmCycles),
        st.fault = false

instance (w : ResetWatch) : Decidable (Confirmed p w t) := inferInstanceAs (Decidable (_ → _))

/-- The streak counts the last statuswords of the stay, and they have the fault bit clear. -/
def Counted (w : ResetWatch) : Prop :=
  w.controller.lifecycle = .resetting → w.controller.clearStreak ≤ w.words.length ∧
    ∀ st ∈ w.words.take w.controller.clearStreak, st.fault = false

end ResetWatch

/-- The condition on a cycle in Resetting that is not disabled: the drive is not in
FaultReactionActive, and if no cycle is asked for it does not show the fault bit. -/
def FaultShown (p : RtParams) (s : Controller) (t : Tick) : Prop :=
  s.lifecycle = .resetting → (drain t.drained).disable = false →
    t.inp.status.decode ≠ .faultReactionActive ∧
      (p.faultResetClearConfirmCycles = 0 → t.inp.status.fault = false)

instance (s : Controller) : Decidable (FaultShown p s t) := inferInstanceAs (Decidable (_ → _))

namespace ResetWatch

variable {w : ResetWatch}

/-- The words that the streak counts after a cycle in Resetting have the fault bit clear. -/
theorem counted_after (hinv : w.Counted) (hl : w.controller.lifecycle = .resetting)
    (hshown : t.inp.status.decode ≠ .faultReactionActive) :
    w.controller.clearStreakAfter t.inp ≤ (t.inp.status :: w.words).length ∧
      ∀ st ∈ (t.inp.status :: w.words).take (w.controller.clearStreakAfter t.inp),
        st.fault = false := by
  obtain ⟨hlen, hclear⟩ := hinv hl
  unfold clearStreakAfter
  by_cases hdec : t.inp.status.decode = .fault
  · simp [hdec]
  · have hbit : t.inp.status.fault = false := by
      cases hfault : t.inp.status.fault with
      | false => rfl
      | true =>
          rcases t.inp.status.decode_of_fault hfault with h | h
          · exact absurd h hdec
          · exact absurd h hshown
    rw [if_pos hdec]
    refine ⟨by simpa using hlen, ?_⟩
    intro st hst
    rcases List.mem_cons.mp (by simpa using hst) with rfl | hst
    · exact hbit
    · exact hclear st hst

/-- A hand-back comes with a full streak, and a stay counts it on. -/
theorem resetting_streak (p : RtParams) (inp : CycleInput) (b : CommandBatch) {s : Controller}
    (hl : s.lifecycle = .resetting) :
    ((s.stepLifecycle p inp b).1.lifecycle = .enabling →
      b.disable = false ∧ HandsBack p s inp) ∧
    ((s.stepLifecycle p inp b).1.lifecycle = .resetting →
      b.disable = false ∧ (s.stepLifecycle p inp b).1.clearStreak = s.clearStreakAfter inp) := by
  rw [stepLifecycle_resetting hl]
  simp only [stepResetting, routeCommands_clearStreak, HandsBack, clearStreakAfter]
  cases hdis : b.disable with
  | true => simp
  | false =>
      simp only [Bool.false_eq_true, if_false, ge_iff_le]
      generalize (if inp.status.decode ≠ .fault then s.clearStreak + 1 else 0) = streak
      by_cases hback : p.faultResetClearConfirmCycles ≤ streak
      · rw [if_pos hback]
        exact ⟨fun _ => ⟨trivial, hback⟩, fun h => by cases h⟩
      · rw [if_neg hback]
        cases b.faultReset <;> simp [hl]

theorem clear_of_take {words : List Status} {m n : Nat}
    (h : ∀ st ∈ words.take n, st.fault = false) (hmn : m ≤ n) :
    ∀ st ∈ words.take m, st.fault = false := by
  intro st hst
  exact h st (List.take_subset_take_left words hmn hst)

/-- A steady cycle under the condition keeps the count, and confirms a hand-back. -/
theorem counted_step (hinv : w.Counted) (hsteady : t.inp.stopping = false)
    (hshown : FaultShown p w.controller t) :
    (w.step p t).Counted ∧ Confirmed p w t := by
  obtain ⟨te, ph, ar, wake, out, -, hc⟩ := cycle_steady (p := p) (s := w.controller) hsteady
  have hafter : (cycle p w.controller t).lifecycle
      = (lifecycleStep p w.controller t.inp (drain t.drained)).1.lifecycle := by rw [hc]
  have hstreak : (cycle p w.controller t).clearStreak
      = (lifecycleStep p w.controller t.inp (drain t.drained)).1.clearStreak := by rw [hc]
  by_cases hl : w.controller.lifecycle = .resetting
  · obtain ⟨hback, hstay⟩ := resetting_streak p t.inp (drain t.drained)
      (s := w.controller.sample t.inp) hl
    constructor
    · intro hnext
      have hnext' : (cycle p w.controller t).lifecycle = .resetting := hnext
      obtain ⟨hdis, hcount⟩ := hstay (hafter ▸ hnext')
      have hwords : (w.step p t).words = t.inp.status :: w.words := if_pos ⟨hl, hnext'⟩
      rw [hwords, show (w.step p t).controller.clearStreak = w.controller.clearStreakAfter t.inp
        from hstreak.trans hcount]
      exact counted_after hinv hl (hshown hl hdis).1
    · intro _ hnext
      obtain ⟨hdis, hfull⟩ := hback (hafter ▸ hnext)
      obtain ⟨hreaction, hzero⟩ := hshown hl hdis
      obtain ⟨hlen, hclear⟩ := counted_after hinv hl hreaction
      have hfull' : p.faultResetClearConfirmCycles ≤ w.controller.clearStreakAfter t.inp := hfull
      by_cases hconfirm : p.faultResetClearConfirmCycles = 0
      · -- Nothing is asked for: the statusword of the cycle itself is the one.
        refine ⟨by simp [hconfirm], fun st hst => ?_⟩
        obtain rfl : st = t.inp.status := by simpa [hconfirm] using hst
        exact hzero hconfirm
      · have hone : max 1 p.faultResetClearConfirmCycles = p.faultResetClearConfirmCycles := by
          omega
        rw [hone]
        exact ⟨by omega, clear_of_take hclear hfull'⟩
  · constructor
    · intro hnext
      -- Resetting is entered with the streak at zero.
      have hnext' : (cycle p w.controller t).lifecycle = .resetting := hnext
      have hdrops : Drops (w.controller.sample t.inp).lifecycle
          (lifecycleStep p w.controller t.inp (drain t.drained)).1.lifecycle :=
        .inl ⟨hafter ▸ hnext', hl⟩
      have hzero := ((cleared_of_drops hdrops).counters (hafter ▸ hnext')).2
      rw [show (w.step p t).controller.clearStreak = 0 from hstreak.trans hzero]
      simp
    · intro h
      exact absurd h hl

/-- The stopping window hands nothing back. -/
theorem confirmed_stopping (hstop : t.inp.stopping = true) : Confirmed p w t := by
  intro hl hnext
  obtain ⟨te, ph, ar, wake, out, sr, -, hc⟩ :=
    cycle_stopping (p := p) (s := w.controller) hstop
  rw [hc] at hnext
  rw [show w.controller.lifecycle = .enabling from hnext] at hl
  cases hl

end ResetWatch

/-- Along every run whose steady cycles are all `FaultShown`, with a stopping window behind it or
without, every hand-back of the recovery is confirmed. -/
theorem hand_back_confirmed (p : RtParams) (s₀ : Controller) (bringup : List CycleInput)
    (ticks window : List Tick) (hwindow : ∀ t ∈ window, t.inp.stopping = true)
    (hshown : AllSteps (cycle p) (fun s t => t.inp.stopping = false ∧ FaultShown p s t)
      (spawned p s₀ bringup) ticks) :
    AllSteps (ResetWatch.step p) (ResetWatch.Confirmed p)
      { controller := spawned p s₀ bringup } (ticks ++ window) := by
  rw [allSteps_append]
  constructor
  · refine allSteps_of_invariant (I := ResetWatch.Counted)
      (C := fun w t => t.inp.stopping = false ∧ FaultShown p w.controller t) ?_ ?_ ?_
    · intro h
      rw [show (spawned p s₀ bringup).lifecycle = .init from spawned_lifecycle bringup] at h
      cases h
    · intro w t hinv hc
      exact ResetWatch.counted_step hinv hc.1 hc.2
    · have hproj : ∀ w t, (ResetWatch.step p w t).controller = cycle p w.controller t :=
        fun _ _ => rfl
      exact (allSteps_proj hproj (x := { controller := spawned p s₀ bringup })).mpr hshown
  · exact allSteps_of_invariant (I := fun _ => True) (C := fun _ t => t.inp.stopping = true)
      trivial (fun w t _ h => ⟨trivial, ResetWatch.confirmed_stopping h⟩)
      (allSteps_of_forall hwindow)

/-- A fault that clears: three statuswords without the fault bit, then the window. -/
theorem hand_back_confirmed_cleared :
    AllSteps (ResetWatch.step profileParams) (ResetWatch.Confirmed profileParams)
      { controller := spawned profileParams profileController [] }
      ([tick 0x0008#16 1 0 [], tick 0x0008#16 1 0 [], tick 0x0040#16 1 0 [],
          tick 0x0040#16 1 0 [], tick 0x0040#16 1 0 []] ++
        [{ tick 0x0040#16 1 0 [] with
            inp := { (tick 0x0040#16 1 0 []).inp with stopping := true } }]) :=
  hand_back_confirmed profileParams profileController [] _ _ (by decide) (by decide +kernel)

/-- The drive stays in FaultReactionActive and is handed back after three cycles, every one with
the fault bit set. -/
theorem hand_back_in_reaction : ¬ ∀ c : ServoConfig, c.validate = .ok () →
    ∀ (fields : Fields) (usable : Bool) (sqrt : ℚ → ℚ) (s₀ : Controller)
      (bringup : List CycleInput) (ticks : List Tick),
      let p := c.rtParams fields usable sqrt
      (∀ t ∈ ticks, t.inp.stopping = false) →
      AllSteps (ResetWatch.step p) (ResetWatch.Confirmed p)
        { controller := spawned p s₀ bringup } ticks := by
  intro h
  have hrun : AllSteps (ResetWatch.step profileParams) (ResetWatch.Confirmed profileParams)
      { controller := spawned profileParams profileController [] }
      [tick 0x0008#16 1 0 [], tick 0x000F#16 1 0 [], tick 0x000F#16 1 0 [],
        tick 0x000F#16 1 0 []] :=
    h profileConfig (by decide +kernel) profileBench.fields true ratSqrt profileController [] _
      (by decide)
  revert hrun
  decide +kernel

end Servo

end ViamEthercat
