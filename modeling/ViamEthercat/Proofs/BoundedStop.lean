import ViamEthercat.Lib.Countdown
import ViamEthercat.Proofs.HookProtocol
import ViamEthercat.Proofs.RunnerOwner

/-!
# `ViamEthercat.Proofs.BoundedStop`: a stop request ends the realtime loop

`stepsAt` and `exchangesAt` bound the steps and the exchanges that are left at each point of
`rt_body` once the stop flag is set. `fallsTo_rtStep` says that a step lowers them, one lemma for
each part of the loop, and `falls_rtStep` adds the two steps that move the stopping window. Nothing
else that the threads do raises them (`still_step`), so a stop request ends the loop
(`stop_ends_loop`).
-/

set_option autoImplicit false

namespace ViamEthercat

open Lib

namespace RtCore

variable (s : RtCore)

/-- The steps of one cycle of the stopping window, at most. -/
def cycleSteps : Nat := 2 * s.controls + 5

/-- The steps that a stopping window takes after its first cycle. -/
def windowSteps : Nat := (s.cfg.teardownCycles.toNat - 1) * s.cycleSteps

/-- The steps that are left of the stopping window after this cycle. -/
def restSteps : Nat := (s.windowLeft.toNat - 1) * s.cycleSteps

/-- With a stop requested, the steps that `rt_body` makes from `pc` on, at most. -/
def stepsAt : RtPc → Nat
  | .returned => 0
  | .storeStopped => 1
  | .window _ => s.restSteps + 2
  | .tornDown i _ => s.restSteps + (s.controls - i) + 3
  | .cycleEnd =>
      if s.stopping then s.restSteps + s.controls + 4 else s.windowSteps + 3 * s.controls + 12
  | .step i =>
      if s.stopping then s.restSteps + (s.controls - i) + s.controls + 5
      else s.windowSteps + (s.controls - i) + 3 * s.controls + 13
  | .process =>
      if s.stopping then s.restSteps + 2 * s.controls + 6 else s.windowSteps + 3 * s.controls + 11
  | .onStop _ i => s.restSteps + (s.controls - i) + 2 * s.controls + 6
  | .loadReason => s.restSteps + 3 * s.controls + 7
  | .loadFlag => s.windowSteps + 3 * s.controls + 8
  | .setFlag => s.windowSteps + 3 * s.controls + 9
  | .latchFault => s.windowSteps + 3 * s.controls + 10
  | .onOperational i => s.windowSteps + (s.controls - i) + 3 * s.controls + 12
  | .bringupStep _ _ => s.windowSteps + 4 * s.controls + 13
  | .bringupHooks i _ _ => s.windowSteps + (s.controls - i) + 4 * s.controls + 14
  | .setup => s.controls + 7
  | .bringup | .latchAborted => s.controls + 6
  | .endBringup => s.controls + 5
  | .latchRequested => s.controls + 4
  | .loadBringupReason | .latchSetup => s.controls + 3
  | .bringupStop _ i | .setupStop i => (s.controls - i) + 2

/-- With a stop requested, the exchanges that `rt_body` begins from `pc` on, at most. -/
def exchangesAt : RtPc → Nat
  | .window _ | .tornDown _ _ | .onStop _ _ | .loadReason => s.windowLeft.toNat - 1
  | .cycleEnd | .step _ =>
      if s.stopping then s.windowLeft.toNat - 1 else s.cfg.teardownCycles.toNat
  | .process => if s.stopping then s.windowLeft.toNat else s.cfg.teardownCycles.toNat
  | .loadFlag | .setFlag | .latchFault => s.cfg.teardownCycles.toNat - 1
  | .onOperational _ => s.cfg.teardownCycles.toNat
  | .bringupStep _ _ | .bringupHooks _ _ _ => s.cfg.teardownCycles.toNat + 1
  | _ => 0

/-- The window is open, and not over. -/
def InRange : Prop := 1 ≤ s.windowLeft.toNat ∧ s.windowLeft.toNat ≤ s.cfg.teardownCycles.toNat

/-- What the stopping window is at `pc`. -/
def PlacedAt : RtPc → Prop
  | .window _ | .tornDown _ _ | .onStop _ _ | .loadReason => s.stopping = true ∧ s.InRange
  | .cycleEnd | .step _ | .process => s.stopping = true → s.InRange
  | .storeStopped | .returned => True
  | _ => s.stopping = false

def stepsLeft : Nat := s.stepsAt s.pc

def exchangesLeft : Nat := s.exchangesAt s.pc

/-- The stopping window and where `rt_body` is. -/
def Placed : Prop := s.PlacedAt s.pc

end RtCore

/-- The step makes an exchange: `bringup_step` or `process`. -/
def RtPc.exchanges : RtPc → Bool
  | .bringupStep _ _ | .process => true
  | _ => false

namespace RtCore

/-- What a step does to what is left. -/
structure Falls (s s' : RtCore) : Prop where
  steps : s'.stepsLeft < s.stepsLeft
  exchanges : s'.exchangesLeft + (if s.pc.exchanges then 1 else 0) ≤ s.exchangesLeft

/-- From `pc` a step that leaves the window alone comes to `pc'`. -/
structure FallsTo (s : RtCore) (pc pc' : RtPc) : Prop where
  steps : s.stepsAt pc' < s.stepsAt pc
  exchanges : s.exchangesAt pc' + (if pc.exchanges then 1 else 0) ≤ s.exchangesAt pc

/-- The step leaves the window as it is. -/
structure SameWindow (s s' : RtCore) : Prop where
  cfg : s'.cfg = s.cfg
  controls : s'.controls = s.controls
  stopping : s'.stopping = s.stopping
  windowLeft : s'.windowLeft = s.windowLeft

variable {s : RtCore}

theorem SameWindow.placed {s' : RtCore} (h : s.SameWindow s') (hplaced : s.PlacedAt s'.pc) :
    s'.Placed := by
  obtain ⟨hcfg, -, hstopping, hleft⟩ := h
  unfold Placed PlacedAt InRange at *
  rwa [hcfg, hstopping, hleft]

theorem SameWindow.falls {s' : RtCore} (h : s.SameWindow s') (hfalls : s.FallsTo s.pc s'.pc) :
    s.Falls s' := by
  obtain ⟨hcfg, hcontrols, hstopping, hleft⟩ := h
  have hsteps : s'.stepsAt = s.stepsAt := by
    funext pc
    unfold stepsAt restSteps windowSteps cycleSteps
    rw [hcfg, hcontrols, hstopping, hleft]
  have hexchanges : s'.exchangesAt = s.exchangesAt := by
    funext pc
    unfold exchangesAt
    rw [hcfg, hstopping, hleft]
  constructor
  · rw [stepsLeft, hsteps]
    exact hfalls.steps
  · rw [exchangesLeft, hexchanges]
    exact hfalls.exchanges

/-- A loop over the controls. -/
theorem FallsTo.each {pc next : RtPc} {i : Nat} {body : Nat → RtPc}
    (hbody : i < s.controls → s.FallsTo pc (body i)) (hnext : s.FallsTo pc next) :
    s.FallsTo pc (s.eachControl i body next) := by
  unfold eachControl
  split
  · exact hbody ‹_›
  · exact hnext

theorem PlacedAt.each {next : RtPc} {i : Nat} {body : Nat → RtPc}
    (hbody : ∀ i, s.PlacedAt (body i)) (hnext : s.PlacedAt next) :
    s.PlacedAt (s.eachControl i body next) := by
  unfold eachControl
  split
  · exact hbody i
  · exact hnext

/-- But for the load that opens the window and the end of one of its cycles, a step moves on. -/
theorem rtStep_sameWindow (x : RtAnswer) (hload : ¬ (s.pc = .loadFlag ∧ s.stopFlag = true))
    (hwindow : ∀ all, s.pc ≠ .window all) : s.SameWindow (s.rtStep x) := by
  unfold rtStep
  cases hat : s.pc with
  | window all => exact absurd hat (hwindow all)
  | loadFlag =>
      dsimp only
      rw [if_neg fun hflag => hload ⟨hat, hflag⟩]
      exact ⟨rfl, rfl, rfl, rfl⟩
  | bringup =>
      dsimp only
      split_ifs
      · exact ⟨rfl, rfl, rfl, rfl⟩
      · exact ⟨rfl, rfl, rfl, rfl⟩
  | bringupStep f p =>
      dsimp only
      split_ifs <;> exact ⟨rfl, rfl, rfl, rfl⟩
  | process =>
      dsimp only
      split_ifs <;> exact ⟨rfl, rfl, rfl, rfl⟩
  | tornDown i all =>
      cases all with
      | true => exact ⟨rfl, rfl, rfl, rfl⟩
      | false => exact ⟨rfl, rfl, rfl, rfl⟩
  | _ => exact ⟨rfl, rfl, rfl, rfl⟩

/-- Where a step comes to that makes no exchange. -/
theorem FallsTo.quiet {pc pc' : RtPc} (hquiet : pc.exchanges = false)
    (hsteps : s.stepsAt pc' < s.stepsAt pc) (hexchanges : s.exchangesAt pc' ≤ s.exchangesAt pc) :
    s.FallsTo pc pc' := by
  refine ⟨hsteps, ?_⟩
  rw [hquiet]
  exact hexchanges

theorem stepsAt_step (i : Nat) :
    s.stepsAt (.step i) = s.stepsAt .cycleEnd + (s.controls - i) + 1 := by
  simp only [stepsAt]
  split
  · omega
  · omega

/-- The loop over the `step` hooks. -/
theorem FallsTo.stepFrom {pc : RtPc} {i : Nat} (hquiet : pc.exchanges = false)
    (hstep : i < s.controls → s.stepsAt (.step i) < s.stepsAt pc)
    (hend : s.stepsAt .cycleEnd < s.stepsAt pc)
    (hexchanges : s.exchangesAt .cycleEnd ≤ s.exchangesAt pc) : s.FallsTo pc (s.stepFrom i) :=
  .each (fun hi => .quiet hquiet (hstep hi) hexchanges) (.quiet hquiet hend hexchanges)

/-- Up to the loop of the bring-up, and when the set-up fails. -/
theorem fallsTo_setup (x : RtAnswer) (hflag : s.stopFlag = true)
    (hpc : s.pc = .setup ∨ s.pc = .latchSetup ∨ (∃ i, s.pc = .setupStop i) ∨ s.pc = .bringup) :
    s.FallsTo s.pc (s.rtStep x).pc := by
  obtain hat | hat | ⟨i, hat⟩ | hat := hpc
  · simp only [rtStep, hat]
    split
    · exact .quiet rfl (by simp only [stepsAt]; omega) le_rfl
    · exact .quiet rfl (by simp only [stepsAt]; omega) le_rfl
  · simp only [rtStep, hat]
    refine .each (fun _ => .quiet rfl ?_ le_rfl) (.quiet rfl ?_ le_rfl)
    all_goals simp only [stepsAt]
    all_goals omega
  · simp only [rtStep, hat, call]
    refine .each (fun _ => .quiet rfl ?_ le_rfl) (.quiet rfl ?_ le_rfl)
    all_goals simp only [stepsAt]
    all_goals omega
  · -- The stop request ends the bring-up.
    simp only [rtStep, hat, hflag, if_true]
    exact .quiet rfl (by simp only [stepsAt]; omega) le_rfl

/-- In the loop of the bring-up. -/
theorem fallsTo_bringup (x : RtAnswer) (hstopping : s.stopping = false)
    (hpc : (∃ i f p, s.pc = .bringupHooks i f p) ∨ (∃ f p, s.pc = .bringupStep f p) ∨
      ∃ i, s.pc = .onOperational i) : s.FallsTo s.pc (s.rtStep x).pc := by
  have hsteps : s.stepsAt .process = s.windowSteps + 3 * s.controls + 11 := by
    simp [stepsAt, hstopping]
  have hexchanges : s.exchangesAt .process = s.cfg.teardownCycles.toNat := by
    simp [exchangesAt, hstopping]
  obtain ⟨i, f, p, hat⟩ | ⟨f, p, hat⟩ | ⟨i, hat⟩ := hpc
  · simp only [rtStep, hat, call]
    refine .each (fun _ => .quiet rfl ?_ le_rfl) (.quiet rfl ?_ le_rfl)
    all_goals simp only [stepsAt]
    all_goals omega
  · -- One exchange, whatever it comes to.
    simp only [rtStep, hat, call]
    split_ifs
    · refine .each (fun _ => ⟨?_, le_rfl⟩) ⟨?_, hexchanges ▸ le_rfl⟩
      · simp only [stepsAt]
        omega
      · rw [hsteps]
        simp only [stepsAt]
        omega
    · exact ⟨by simp only [stepsAt]; omega, Nat.le_add_left ..⟩
    · exact ⟨by simp only [stepsAt]; omega, Nat.le_add_left ..⟩
  · simp only [rtStep, hat, call]
    refine .each (fun _ => .quiet rfl ?_ le_rfl) (.quiet rfl ?_ hexchanges.le)
    · simp only [stepsAt]
      omega
    · rw [hsteps]
      simp only [stepsAt]
      omega

/-- Behind the loop of the bring-up, when it did not come to OP. -/
theorem fallsTo_endBringup (x : RtAnswer)
    (hpc : s.pc = .latchAborted ∨ s.pc = .endBringup ∨ s.pc = .latchRequested ∨
      s.pc = .loadBringupReason ∨ ∃ r i, s.pc = .bringupStop r i) :
    s.FallsTo s.pc (s.rtStep x).pc := by
  obtain hat | hat | hat | hat | ⟨r, i, hat⟩ := hpc
  · simp only [rtStep, hat]
    exact .quiet rfl (by simp only [stepsAt]; omega) le_rfl
  · simp only [rtStep, hat]
    split
    · exact .quiet rfl (by simp only [stepsAt]; omega) le_rfl
    · exact .quiet rfl (by simp only [stepsAt]; omega) le_rfl
  · simp only [rtStep, hat]
    exact .quiet rfl (by simp only [stepsAt]; omega) le_rfl
  · simp only [rtStep, hat]
    refine .each (fun _ => .quiet rfl ?_ le_rfl) (.quiet rfl ?_ le_rfl)
    all_goals simp only [stepsAt]
    all_goals omega
  · simp only [rtStep, hat, call]
    refine .each (fun _ => .quiet rfl ?_ le_rfl) (.quiet rfl ?_ le_rfl)
    all_goals simp only [stepsAt]
    all_goals omega

/-- In a cycle ahead of the stopping window. -/
theorem fallsTo_running (x : RtAnswer) (hT : 1 ≤ s.cfg.teardownCycles.toNat)
    (hstopping : s.stopping = false)
    (hpc : s.pc = .process ∨ s.pc = .latchFault ∨ s.pc = .setFlag ∨ s.pc = .cycleEnd ∨
      ∃ i, s.pc = .step i) : s.FallsTo s.pc (s.rtStep x).pc := by
  have hprocess : s.stepsAt .process = s.windowSteps + 3 * s.controls + 11 := by
    simp [stepsAt, hstopping]
  have hend : s.stepsAt .cycleEnd = s.windowSteps + 3 * s.controls + 12 := by
    simp [stepsAt, hstopping]
  have hexchanges : s.exchangesAt .process = s.cfg.teardownCycles.toNat := by
    simp [exchangesAt, hstopping]
  have hlast : s.exchangesAt .cycleEnd = s.cfg.teardownCycles.toNat := by
    simp [exchangesAt, hstopping]
  obtain hat | hat | hat | hat | ⟨i, hat⟩ := hpc
  · have hone : s.cfg.teardownCycles.toNat - 1 + 1 ≤ s.exchangesAt .process := by omega
    simp only [rtStep, hat, hstopping, Bool.false_eq_true, if_false]
    split
    · exact ⟨by rw [hprocess]; simp only [stepsAt]; omega, hone⟩
    · exact ⟨by rw [hprocess]; simp only [stepsAt]; omega, hone⟩
  · simp only [rtStep, hat]
    exact .quiet rfl (by simp only [stepsAt]; omega) le_rfl
  · simp only [rtStep, hat]
    exact .quiet rfl (by simp only [stepsAt]; omega) le_rfl
  · simp only [rtStep, hat, hstopping, Bool.false_eq_true, if_false]
    exact .quiet rfl (by omega) (by omega)
  · simp only [rtStep, hat, call]
    refine .stepFrom rfl (fun hi => ?_) ?_ le_rfl
    · rw [stepsAt_step, stepsAt_step]
      omega
    · rw [stepsAt_step]
      omega

/-- In the stopping window. -/
theorem fallsTo_stopping (x : RtAnswer) (hstopping : s.stopping = true) (hrange : s.InRange)
    (hpc : s.pc = .loadReason ∨ (∃ r i, s.pc = .onStop r i) ∨ s.pc = .process ∨
      (∃ i, s.pc = .step i) ∨ s.pc = .cycleEnd ∨ ∃ i all, s.pc = .tornDown i all) :
    s.FallsTo s.pc (s.rtStep x).pc := by
  have hprocess : s.stepsAt .process = s.restSteps + 2 * s.controls + 6 := by
    simp [stepsAt, hstopping]
  have hend : s.stepsAt .cycleEnd = s.restSteps + s.controls + 4 := by
    simp [stepsAt, hstopping]
  have hexchanges : s.exchangesAt .process = s.windowLeft.toNat := by
    simp [exchangesAt, hstopping]
  have hlast : s.exchangesAt .cycleEnd = s.windowLeft.toNat - 1 := by
    simp [exchangesAt, hstopping]
  obtain hat | ⟨r, i, hat⟩ | hat | ⟨i, hat⟩ | hat | ⟨i, all, hat⟩ := hpc
  · simp only [rtStep, hat]
    refine .each (fun _ => .quiet rfl ?_ le_rfl) (.stepFrom rfl (fun _ => ?_) ?_ hlast.le)
    · simp only [stepsAt]
      omega
    · rw [stepsAt_step, hend]
      simp only [stepsAt]
      omega
    · rw [hend]
      simp only [stepsAt]
      omega
  · simp only [rtStep, hat, call]
    refine .each (fun _ => .quiet rfl ?_ le_rfl) (.stepFrom rfl (fun _ => ?_) ?_ hlast.le)
    · simp only [stepsAt]
      omega
    · rw [stepsAt_step, hend]
      simp only [stepsAt]
      omega
    · rw [hend]
      simp only [stepsAt]
      omega
  · -- The exchange of the cycle.
    have hone : s.exchangesAt .cycleEnd + 1 ≤ s.exchangesAt .process := by
      have hlow := hrange.1
      omega
    simp only [rtStep, hat, hstopping, if_true]
    refine .each (fun _ => ⟨?_, hone⟩) ⟨?_, hone⟩
    · rw [stepsAt_step]
      omega
    · omega
  · simp only [rtStep, hat, call]
    refine .stepFrom rfl (fun hi => ?_) ?_ le_rfl
    · rw [stepsAt_step, stepsAt_step]
      omega
    · rw [stepsAt_step]
      omega
  · simp only [rtStep, hat, hstopping, if_true]
    refine .each (fun _ => .quiet rfl ?_ hlast.ge) (.quiet rfl ?_ hlast.ge)
    · rw [hend]
      simp only [stepsAt]
      omega
    · rw [hend]
      simp only [stepsAt]
      omega
  · have hturn (all' : Bool) : s.FallsTo (.tornDown i all)
        (s.eachControl (i + 1) (.tornDown · all') (.window all')) := by
      refine .each (fun _ => .quiet rfl ?_ le_rfl) (.quiet rfl ?_ le_rfl)
      all_goals simp only [stepsAt]
      all_goals omega
    cases all with
    | true =>
        simp only [rtStep, hat, call]
        exact hturn _
    | false =>
        simp only [rtStep, hat]
        exact hturn _

/-- Where a step comes to that leaves the window alone, less is left. -/
theorem fallsTo_rtStep (x : RtAnswer) (hT : 1 ≤ s.cfg.teardownCycles.toNat)
    (hflag : s.stopFlag = true) (h : s.Placed)
    (hpc : s.pc ≠ .returned) (hload : s.pc ≠ .loadFlag) (hwindow : ∀ all, s.pc ≠ .window all) :
    s.FallsTo s.pc (s.rtStep x).pc := by
  unfold Placed at h
  cases hat : s.pc with
  | returned => exact absurd hat hpc
  | loadFlag => exact absurd hat hload
  | window all => exact absurd hat (hwindow all)
  | setup | latchSetup | setupStop i | bringup =>
      rw [← hat]
      exact fallsTo_setup x hflag (by simp [hat])
  | bringupHooks i f p | bringupStep f p | onOperational i =>
      rw [hat] at h
      rw [← hat]
      exact fallsTo_bringup x h (by simp [hat])
  | latchAborted | endBringup | latchRequested | loadBringupReason | bringupStop r i =>
      rw [← hat]
      exact fallsTo_endBringup x (by simp [hat])
  | latchFault | setFlag =>
      rw [hat] at h
      rw [← hat]
      exact fallsTo_running x hT h (by simp [hat])
  | loadReason | onStop r i | tornDown i all =>
      rw [hat] at h
      rw [← hat]
      exact fallsTo_stopping x h.1 h.2 (by simp [hat])
  | process | step i | cycleEnd =>
      -- A cycle is ahead of the window or in it.
      rw [hat] at h
      rw [← hat]
      cases hstopping : s.stopping with
      | false => exact fallsTo_running x hT hstopping (by simp [hat])
      | true => exact fallsTo_stopping x hstopping (h hstopping) (by simp [hat])
  | storeStopped =>
      simp only [rtStep, hat]
      exact .quiet rfl Nat.zero_lt_one le_rfl

/-- The loop over the `step` hooks keeps the window, when it is open or not. -/
theorem PlacedAt.stepFrom {i : Nat} (h : s.stopping = true → s.InRange) :
    s.PlacedAt (s.stepFrom i) :=
  PlacedAt.each (fun _ => h) h

/-- Where a step comes to that leaves the window alone, the window is what it is there. -/
theorem placedAt_rtStep (x : RtAnswer) (h : s.Placed)
    (hload : ¬ (s.pc = .loadFlag ∧ s.stopFlag = true)) (hwindow : ∀ all, s.pc ≠ .window all) :
    s.PlacedAt (s.rtStep x).pc := by
  unfold Placed at h
  have hahead (hstopping : s.stopping = false) : s.stopping = true → s.InRange := by
    rw [hstopping]
    exact nofun
  cases hat : s.pc with
  | window all => exact absurd hat (hwindow all)
  | storeStopped | returned =>
      simp only [rtStep, hat]
      trivial
  | loadFlag =>
      rw [hat] at h
      simp only [rtStep, hat, if_neg fun hflag => hload ⟨hat, hflag⟩]
      exact PlacedAt.stepFrom (hahead h)
  | setup | endBringup =>
      rw [hat] at h
      simp only [rtStep, hat]
      split
      · exact h
      · exact h
  | latchAborted | latchRequested | latchFault | setFlag =>
      rw [hat] at h
      simp only [rtStep, hat]
      exact h
  | bringup =>
      rw [hat] at h
      simp only [rtStep, hat]
      split
      · exact h
      · show s.PlacedAt (s.eachControl 0 (.bringupHooks · false true) (.bringupStep false true))
        exact PlacedAt.each (fun _ => h) h
  | bringupHooks i f p =>
      rw [hat] at h
      simp only [rtStep, hat, call]
      exact PlacedAt.each (fun _ => h) h
  | latchSetup | setupStop i | loadBringupReason | bringupStop r i =>
      rw [hat] at h
      simp only [rtStep, hat, call]
      exact PlacedAt.each (fun _ => h) trivial
  | bringupStep f p =>
      rw [hat] at h
      simp only [rtStep, hat, call]
      split_ifs
      · exact PlacedAt.each (fun _ => h) (hahead h)
      · exact h
      · exact h
  | onOperational i =>
      rw [hat] at h
      simp only [rtStep, hat, call]
      exact PlacedAt.each (fun _ => h) (hahead h)
  | process =>
      rw [hat] at h
      simp only [rtStep, hat]
      split
      · exact PlacedAt.stepFrom h
      · have hstopping := Bool.eq_false_of_not_eq_true ‹_›
        split
        · exact hstopping
        · exact hstopping
  | step i =>
      rw [hat] at h
      simp only [rtStep, hat, call]
      exact PlacedAt.stepFrom h
  | cycleEnd =>
      rw [hat] at h
      simp only [rtStep, hat]
      split
      · have hopen : s.stopping = true ∧ s.InRange := ⟨‹_›, h ‹_›⟩
        exact PlacedAt.each (fun _ => hopen) hopen
      · exact h
  | loadReason | onStop r i =>
      rw [hat] at h
      simp only [rtStep, hat, call]
      exact PlacedAt.each (fun _ => h) (PlacedAt.stepFrom fun _ => h.2)
  | tornDown i all =>
      rw [hat] at h
      cases all with
      | true =>
          simp only [rtStep, hat, call]
          exact PlacedAt.each (fun _ => h) h
      | false =>
          simp only [rtStep, hat]
          exact PlacedAt.each (fun _ => h) h

theorem windowLeft_pred (h : 1 ≤ s.windowLeft.toNat) :
    (s.windowLeft - 1).toNat = s.windowLeft.toNat - 1 :=
  UInt32.toNat_sub_of_le _ _ (UInt32.le_iff_toNat_le.mpr h)

/-- A step of `rt_body` keeps the window in its place. -/
theorem placed_rtStep (x : RtAnswer) (hT : 1 ≤ s.cfg.teardownCycles.toNat) (h : s.Placed) :
    (s.rtStep x).Placed := by
  by_cases hload : s.pc = .loadFlag ∧ s.stopFlag = true
  · obtain ⟨hat, hflag⟩ := hload
    simp only [rtStep, hat, hflag, if_true]
    exact ⟨rfl, hT, le_refl _⟩
  by_cases hwindow : ∃ all, s.pc = .window all
  · obtain ⟨all, hat⟩ := hwindow
    rw [Placed, hat] at h
    obtain ⟨-, hlow, hhigh⟩ := h
    simp only [rtStep, hat]
    split
    · trivial
    · have hmore : (s.windowLeft - 1).toNat ≠ 0 :=
        fun hzero => ‹¬ (_ ∨ _)› (.inr (UInt32.toNat_inj.mp hzero))
      intro _
      show 1 ≤ (s.windowLeft - 1).toNat ∧ (s.windowLeft - 1).toNat ≤ s.cfg.teardownCycles.toNat
      rw [windowLeft_pred hlow] at hmore ⊢
      omega
  · have hsame := rtStep_sameWindow x hload fun all hat => hwindow ⟨all, hat⟩
    exact hsame.placed (placedAt_rtStep x h hload fun all hat => hwindow ⟨all, hat⟩)

/-- A step of `rt_body` with the flag set. -/
theorem falls_rtStep (x : RtAnswer) (hT : 1 ≤ s.cfg.teardownCycles.toNat)
    (hflag : s.stopFlag = true) (h : s.Placed) (hpc : s.pc ≠ .returned) :
    s.Falls (s.rtStep x) := by
  by_cases hload : s.pc = .loadFlag
  · -- The window opens, and this cycle is its first.
    simp only [rtStep, hload, hflag, if_true]
    constructor
    · simp only [stepsLeft, hload, stepsAt, restSteps, windowSteps, cycleSteps]
      omega
    · simp [exchangesLeft, hload, exchangesAt, RtPc.exchanges]
  by_cases hwindow : ∃ all, s.pc = .window all
  · obtain ⟨all, hat⟩ := hwindow
    rw [Placed, hat] at h
    obtain ⟨hstopping, hlow, -⟩ := h
    simp only [rtStep, hat]
    split
    · constructor
      · simp only [stepsLeft, hat, stepsAt]
        omega
      · simp [exchangesLeft, hat, exchangesAt, RtPc.exchanges]
    · have hmore : (s.windowLeft - 1).toNat ≠ 0 :=
        fun hzero => ‹¬ (_ ∨ _)› (.inr (UInt32.toNat_inj.mp hzero))
      have hpred := windowLeft_pred hlow
      obtain ⟨k, hk⟩ : ∃ k, s.windowLeft.toNat = k + 2 := ⟨s.windowLeft.toNat - 2, by omega⟩
      constructor
      · simp only [stepsLeft, hat, stepsAt, hstopping, if_true, restSteps, cycleSteps, hpred, hk]
        have hmul : (k + 1) * (2 * s.controls + 5) =
            k * (2 * s.controls + 5) + (2 * s.controls + 5) := Nat.succ_mul _ _
        show k * (2 * s.controls + 5) + 2 * s.controls + 6 <
          (k + 1) * (2 * s.controls + 5) + 2
        omega
      · simp [exchangesLeft, hat, exchangesAt, RtPc.exchanges, hstopping, hpred]
  · have hsame := rtStep_sameWindow x (fun both => hload both.1) fun all hat => hwindow ⟨all, hat⟩
    exact hsame.falls (fallsTo_rtStep x hT hflag h hpc hload fun all hat => hwindow ⟨all, hat⟩)

/-- No step is left only at the end. -/
theorem returned_of_stepsLeft (h : s.stepsLeft = 0) : s.pc = .returned := by
  unfold stepsLeft at h
  cases hat : s.pc with
  | returned => rfl
  | cycleEnd | step i | process =>
      rw [hat] at h
      simp only [stepsAt] at h
      split at h
      · omega
      · omega
  | _ =>
      rw [hat] at h
      simp only [stepsAt] at h
      omega

/-- The steps that the loop still takes after a stop request, at most. -/
def stopBound (cfg : RunnerConfig) (controls : Nat) : Nat :=
  cfg.teardownCycles.toNat * (2 * controls + 5) + 3 * controls + 9

theorem rest_le (s : RtCore) (h : s.InRange) :
    s.restSteps + s.cycleSteps ≤ s.cfg.teardownCycles.toNat * (2 * s.controls + 5) := by
  obtain ⟨hlow, hhigh⟩ := h
  calc s.restSteps + s.cycleSteps = s.windowLeft.toNat * s.cycleSteps := by
        obtain ⟨k, hk⟩ : ∃ k, s.windowLeft.toNat = k + 1 := ⟨s.windowLeft.toNat - 1, by omega⟩
        rw [restSteps, hk]
        exact (Nat.succ_mul k s.cycleSteps).symm
    _ ≤ s.cfg.teardownCycles.toNat * (2 * s.controls + 5) := Nat.mul_le_mul_right _ hhigh

theorem window_le (s : RtCore) (hT : 1 ≤ s.cfg.teardownCycles.toNat) :
    s.windowSteps + s.cycleSteps = s.cfg.teardownCycles.toNat * (2 * s.controls + 5) := by
  obtain ⟨k, hk⟩ : ∃ k, s.cfg.teardownCycles.toNat = k + 1 :=
    ⟨s.cfg.teardownCycles.toNat - 1, by omega⟩
  rw [windowSteps, hk]
  exact (Nat.succ_mul k s.cycleSteps).symm

theorem stepsLeft_le (hT : 1 ≤ s.cfg.teardownCycles.toNat) (h : s.Placed) :
    s.stepsLeft ≤ stopBound s.cfg s.controls := by
  have hwindow := s.window_le hT
  have hrest := s.rest_le
  unfold stepsLeft stopBound
  unfold Placed at h
  unfold cycleSteps at hwindow hrest
  cases hat : s.pc with
  | window all | tornDown i all | onStop r i | loadReason =>
      rw [hat] at h
      have hle := hrest h.2
      simp only [stepsAt]
      omega
  | cycleEnd | step i | process =>
      rw [hat] at h
      simp only [stepsAt]
      split
      · have hle := hrest (h ‹_›)
        omega
      · omega
  | _ =>
      simp only [stepsAt]
      omega

theorem exchangesLeft_le (h : s.Placed) :
    s.exchangesLeft ≤ s.cfg.teardownCycles.toNat + 1 := by
  unfold exchangesLeft
  unfold Placed at h
  cases hat : s.pc with
  | window all | tornDown i all | onStop r i | loadReason =>
      rw [hat] at h
      have hhigh := h.2.2
      simp only [exchangesAt]
      omega
  | cycleEnd | step i | process =>
      rw [hat] at h
      simp only [exchangesAt]
      split
      · have hhigh := (h ‹_›).2
        omega
      · omega
  | _ =>
      simp only [exchangesAt]
      omega

end RtCore

/-- The use is an exchange of the realtime thread. -/
def PortUse.exchanges : PortUse → Bool
  | .rt pc => pc.exchanges
  | _ => false

/-- A step of the realtime thread. -/
def RunnerStep.isRt : RunnerStep → Bool
  | .core (.rt _) => true
  | _ => false

namespace Runner

variable {r : Runner}

/-- The step leaves the loop where it is. -/
structure Still (r r' : Runner) : Prop where
  started : r.started = true → r'.started = true
  attached : r'.attached = r.attached
  window : r.core.SameWindow r'.core
  pc : r'.core.pc = r.core.pc
  flag : r.core.stopFlag = true → r'.core.stopFlag = true
  uses : r'.uses.countP PortUse.exchanges = r.uses.countP PortUse.exchanges
  aborted : r.owner = .aborted → r'.owner = .aborted

theorem still_refl (r : Runner) : r.Still r :=
  ⟨id, rfl, ⟨rfl, rfl, rfl, rfl⟩, rfl, id, rfl, id⟩

/-- The owner only goes on in its own calls. -/
theorem still_move (pc : OwnerPc) (hgoes : r.owner ≠ .aborted) :
    r.Still { r with owner := pc } :=
  { still_refl r with aborted := fun hat => absurd hat hgoes }

theorem still_request (e : RunnerEvent) (he : ∀ x, e ≠ .rt x) :
    r.Still { r with core := r.core.step e } := by
  cases e with
  | rt x => exact absurd rfl (he x)
  | requestLatch => exact { still_refl r with window := ⟨rfl, rfl, rfl, rfl⟩, pc := rfl, flag := id }
  | requestFlag =>
      unfold RtCore.step
      by_cases hpending : r.core.pending = 0
      · rw [if_pos hpending]
        exact still_refl r
      · rw [if_neg hpending]
        exact { still_refl r with
          window := ⟨rfl, rfl, rfl, rfl⟩, pc := rfl, flag := fun _ => rfl }

theorem Still.trans {r' r'' : Runner} (h : r.Still r') (h' : r'.Still r'') : r.Still r'' where
  started := h'.started ∘ h.started
  attached := h'.attached.trans h.attached
  window :=
    ⟨h'.window.cfg.trans h.window.cfg, h'.window.controls.trans h.window.controls,
      h'.window.stopping.trans h.window.stopping, h'.window.windowLeft.trans h.window.windowLeft⟩
  pc := h'.pc.trans h.pc
  flag := h'.flag ∘ h.flag
  uses := h'.uses.trans h.uses
  aborted := h'.aborted ∘ h.aborted

theorem still_ownerStep (timeUp : Bool) : r.Still (r.ownerStep timeUp) := by
  unfold ownerStep
  cases hat : r.owner with
  | idle | configuring i blocking | gone | aborted => exact still_refl r
  | waiting =>
      dsimp only
      unfold Runner.stop
      have hgoes : r.owner ≠ .aborted := by simp [hat]
      split
      · split
        · exact still_move _ hgoes
        · exact still_move _ hgoes
      · exact still_refl r
  | stopLatch dropped =>
      have hnext := still_request (r := r) .requestLatch (by simp)
      exact hnext.trans (still_move (.stopFlag dropped) (by simp [hat]))
  | stopFlag dropped =>
      have hnext := still_request (r := r) .requestFlag (by simp)
      exact hnext.trans (still_move (.awaiting dropped) (by simp [hat]))
  | awaiting dropped =>
      dsimp only
      have hgoes : r.owner ≠ .aborted := by simp [hat]
      split_ifs
      · exact still_move _ hgoes
      · exact still_move _ hgoes
      · exact still_refl r
  | closing dropped =>
      have hnext : r.Still { r with owner := if dropped then .gone else .idle } :=
        still_move _ (by simp [hat])
      exact { hnext with uses := by simp [PortUse.exchanges] }

theorem still_configureFrom (i : Nat) (blocking : Bool) (hgoes : r.owner ≠ .aborted) :
    r.Still (r.configureFrom i blocking) := by
  unfold configureFrom
  split
  · exact still_move _ hgoes
  · exact { still_refl r with
      started := fun _ => rfl, window := ⟨rfl, rfl, rfl, rfl⟩, pc := rfl, flag := id
      uses := by simp [spawn, PortUse.exchanges], aborted := fun hat => absurd hat hgoes }

/-- A step of the thread is enabled. -/
def Runs (r : Runner) : Prop :=
  r.started = true ∧ r.owner ≠ .aborted ∧ r.core.pc ≠ .returned

/-- What neither attaches a control nor is a step of a thread that runs leaves the loop where it
is. -/
theorem still_step (e : RunnerStep) (hattach : ∀ slave, e = .attach slave → r.started = true)
    (hrt : ∀ x, e = .core (.rt x) → ¬ r.Runs) : r.Still (r.step e) := by
  cases e with
  | attach slave =>
      simp only [Runner.step]
      split
      · obtain ⟨-, hcheck⟩ := ‹_ ∧ _›
        have hnot := (checkAttach_eq_ok hcheck).1
        exact absurd (hnot.symm.trans (hattach slave rfl)) Bool.false_ne_true
      · exact still_refl r
  | start blocking =>
      simp only [Runner.step]
      split
      · obtain ⟨hidle, -⟩ := ‹_ ∧ _›
        exact still_configureFrom 0 blocking (by simp [hidle])
      · exact still_refl r
  | configured throws =>
      cases hat : r.owner with
      | configuring i blocking =>
          simp only [Runner.step, hat]
          have hnext : r.Still
              { r with uses := r.uses ++ r.attached[i]?.toList.map PortUse.configured } := by
            refine { still_refl r with uses := ?_ }
            cases r.attached[i]? <;> simp [PortUse.exchanges]
          split
          · exact hnext.trans (still_move _ (by simp [hat]))
          · rw [← hat]
            exact hnext.trans (still_configureFrom _ _ (by simp [hat]))
      | _ =>
          simp only [Runner.step, hat]
          exact still_refl r
  | owner timeUp => exact still_ownerStep timeUp
  | drop =>
      simp only [Runner.step, Runner.stop]
      split
      · have hgoes : r.owner ≠ .aborted := by simp [‹r.owner = .idle›]
        split
        · exact still_move _ hgoes
        · exact still_move _ hgoes
      · exact still_refl r
  | core e =>
      cases e with
      | rt x =>
          have hnot := hrt x rfl
          unfold Runs at hnot
          simp only [Runner.step]
          rw [if_neg hnot]
          exact still_refl r
      | requestLatch | requestFlag =>
          simp only [Runner.step]
          split
          · exact still_request _ (by simp)
          · exact still_refl r

/-- What holds after the stop request: the loop is in its place, and has `budget` exchanges. -/
structure Ending (cfg : RunnerConfig) (budget : Nat) (r : Runner) : Prop where
  started : r.started = true
  flag : r.core.stopFlag = true
  cfg : r.core.cfg = cfg.floored
  placed : r.core.Placed
  exchanges : r.uses.countP PortUse.exchanges + r.core.exchangesLeft ≤ budget

theorem one_le_floored (cfg : RunnerConfig) : 1 ≤ cfg.floored.teardownCycles.toNat := by
  rw [floored_teardownCycles]
  exact le_max_left _ _

theorem Still.left {r' : Runner} (h : r.Still r') :
    r'.core.stepsLeft = r.core.stepsLeft ∧ r'.core.exchangesLeft = r.core.exchangesLeft := by
  obtain ⟨hcfg, hcontrols, hstopping, hleft⟩ := h.window
  unfold RtCore.stepsLeft RtCore.exchangesLeft RtCore.stepsAt RtCore.exchangesAt RtCore.restSteps
    RtCore.windowSteps RtCore.cycleSteps
  rw [hcfg, hcontrols, hstopping, hleft, h.pc]
  exact ⟨rfl, rfl⟩

theorem Still.placed {r' : Runner} (h : r.Still r') (hplaced : r.core.Placed) :
    r'.core.Placed := by
  apply h.window.placed
  rw [h.pc]
  exact hplaced

variable {cfg : RunnerConfig} {budget : Nat}

theorem Ending.still {r' : Runner} (h : Ending cfg budget r) (hstill : r.Still r') :
    Ending cfg budget r' where
  started := hstill.started h.started
  flag := hstill.flag h.flag
  cfg := hstill.window.cfg.trans h.cfg
  placed := hstill.placed h.placed
  exchanges := by
    rw [hstill.uses, hstill.left.2]
    exact h.exchanges

theorem rtStep_stopFlag {s : RtCore} (x : RtAnswer) (hflag : s.stopFlag = true) :
    (s.rtStep x).stopFlag = true := by
  unfold RtCore.rtStep
  cases s.pc with
  | setFlag => rfl
  | tornDown i all => cases all <;> exact hflag
  | bringup | bringupStep f p | process | loadFlag =>
      dsimp only
      split_ifs <;> exact hflag
  | _ => exact hflag

/-- A step of the thread uses up a step, and an exchange if it makes one. -/
theorem Ending.rt_step (h : Ending cfg budget r) (x : RtAnswer) (hgoes : r.owner ≠ .aborted)
    (hpc : r.core.pc ≠ .returned) :
    Ending cfg budget (r.step (.core (.rt x))) ∧
      (r.step (.core (.rt x))).core.stepsLeft < r.core.stepsLeft := by
  have hT : 1 ≤ r.core.cfg.teardownCycles.toNat := by
    rw [h.cfg]
    exact one_le_floored cfg
  have hfalls := RtCore.falls_rtStep x hT h.flag h.placed hpc
  have hstep : r.step (.core (.rt x)) =
      { r with core := r.core.rtStep x, uses := r.uses ++ [.rt r.core.pc] } :=
    if_pos ⟨h.started, hgoes, hpc⟩
  rw [hstep]
  refine ⟨⟨h.started, rtStep_stopFlag x h.flag, ?_, RtCore.placed_rtStep x hT h.placed, ?_⟩,
    hfalls.steps⟩
  · exact (rtStep_const x).1.trans h.cfg
  · show (r.uses ++ [PortUse.rt r.core.pc]).countP PortUse.exchanges + _ ≤ budget
    have hexchanges := hfalls.exchanges
    have hbudget := h.exchanges
    rw [List.countP_append, List.countP_singleton]
    cases hmakes : r.core.pc.exchanges with
    | true =>
        simp only [PortUse.exchanges, hmakes, if_true] at hexchanges ⊢
        omega
    | false =>
        simp only [PortUse.exchanges, hmakes, Bool.false_eq_true, if_false] at hexchanges ⊢
        omega

/-- The end of the loop: the thread has returned, or an abort has taken it. -/
def Ended (r : Runner) : Prop := r.core.pc = .returned ∨ r.owner = .aborted

theorem Ended.not_runs (h : r.Ended) : ¬ r.Runs := fun ⟨_, hgoes, hpc⟩ => h.elim hpc hgoes

theorem Ended.step (h : r.started = true ∧ r.Ended) (e : RunnerStep) :
    (r.step e).started = true ∧ (r.step e).Ended := by
  obtain ⟨hstarted, hended⟩ := h
  have hstill := still_step e (fun _ _ => hstarted) fun _ _ => hended.not_runs
  exact ⟨hstill.started hstarted, hended.imp hstill.pc.trans hstill.aborted⟩

/-- A step of the system after the stop request. -/
theorem Ending.step (h : Ending cfg budget r) (e : RunnerStep) :
    (Ending cfg budget (r.step e) ∧ (r.step e).core.stepsLeft ≤ r.core.stepsLeft) ∧
      (e.isRt = true → r.Ended ∨ (r.step e).core.stepsLeft < r.core.stepsLeft) := by
  by_cases hended : r.Ended
  · have hstill := still_step e (fun _ _ => h.started) fun _ _ => hended.not_runs
    exact ⟨⟨h.still hstill, hstill.left.1.le⟩, fun _ => .inl hended⟩
  · obtain ⟨hpc, hgoes⟩ := not_or.mp hended
    by_cases he : ∃ x, e = .core (.rt x)
    · obtain ⟨x, rfl⟩ := he
      obtain ⟨hnext, hlt⟩ := h.rt_step x hgoes hpc
      exact ⟨⟨hnext, hlt.le⟩, fun _ => .inr hlt⟩
    · have hstill := still_step e (fun _ _ => h.started) fun x hx => absurd ⟨x, hx⟩ he
      refine ⟨⟨h.still hstill, hstill.left.1.le⟩, fun hrt => absurd ?_ he⟩
      cases e with
      | core e =>
          cases e with
          | rt x => exact ⟨x, rfl⟩
          | requestLatch | requestFlag => simp [RunnerStep.isRt] at hrt
      | _ => simp [RunnerStep.isRt] at hrt

/-- What holds in every state of a run. -/
structure Reached (cfg : RunnerConfig) (r : Runner) : Prop where
  cfg : r.core.cfg = cfg.floored
  controls : r.core.controls = r.attached.length
  placed : r.core.Placed

theorem reached_new (n : Nat) (cfg : RunnerConfig) : Reached cfg (Runner.new n cfg) :=
  ⟨rfl, rfl, rfl⟩

theorem Reached.step (h : Reached cfg r) (e : RunnerStep) : Reached cfg (r.step e) := by
  by_cases hattach : ∀ slave, e = .attach slave → r.started = true
  · by_cases hrt : ∀ x, e = .core (.rt x) → ¬ r.Runs
    · have hstill := still_step e hattach hrt
      refine ⟨hstill.window.cfg.trans h.cfg, ?_, hstill.placed h.placed⟩
      rw [hstill.window.controls, hstill.attached]
      exact h.controls
    · push Not at hrt
      obtain ⟨x, rfl, hruns⟩ := hrt
      have hT : 1 ≤ r.core.cfg.teardownCycles.toNat := by
        rw [h.cfg]
        exact one_le_floored cfg
      unfold Runs at hruns
      simp only [Runner.step]
      rw [if_pos hruns]
      obtain ⟨hcfg, hcontrols⟩ := rtStep_const (s := r.core) x
      exact ⟨hcfg.trans h.cfg, hcontrols.trans h.controls, RtCore.placed_rtStep x hT h.placed⟩
  · push Not at hattach
    obtain ⟨slave, rfl, -⟩ := hattach
    simp only [Runner.step]
    split
    · refine ⟨h.cfg, ?_, h.placed⟩
      show r.attached.length + 1 = (r.attached ++ [slave]).length
      simp
    · exact h

/-- Once a stop is requested the realtime loop ends, in whatever order the threads go on: it makes
no more than the teardown cycles and one exchange of the bring-up, and after `stopBound` steps of
its thread it has returned, if no abort came first. -/
theorem stop_ends_loop (n : Nat) (cfg : RunnerConfig) (es es' : List RunnerStep)
    (hstarted : (runFrom Runner.step (Runner.new n cfg) es).started = true)
    (hflag : (runFrom Runner.step (Runner.new n cfg) es).core.stopFlag = true) :
    let r := runFrom Runner.step (Runner.new n cfg) es
    let r' := runFrom Runner.step r es'
    r'.uses.countP PortUse.exchanges
        ≤ r.uses.countP PortUse.exchanges + max 1 cfg.teardownCycles.toNat + 1
      ∧ (RtCore.stopBound cfg.floored r.attached.length ≤ es'.countP RunnerStep.isRt →
        r'.Ended) := by
  intro r r'
  have hreached : Reached cfg r :=
    runFrom_induction (I := Reached cfg) (reached_new n cfg) fun _ e h => h.step e
  obtain ⟨hcfg, hcontrols, hplaced⟩ := hreached
  have hT : 1 ≤ r.core.cfg.teardownCycles.toNat := by
    rw [hcfg]
    exact one_le_floored cfg
  have hexchanges := RtCore.exchangesLeft_le hplaced
  have hsteps := RtCore.stepsLeft_le hT hplaced
  rw [hcfg] at hexchanges hsteps
  rw [hcontrols] at hsteps
  have hending : Ending cfg (r.uses.countP PortUse.exchanges + r.core.exchangesLeft) r :=
    ⟨hstarted, hflag, hcfg, hplaced, le_refl _⟩
  constructor
  · have hrun : Ending cfg (r.uses.countP PortUse.exchanges + r.core.exchangesLeft) r' :=
      runFrom_induction hending fun _ e h => (h.step e).1.1
    have hbudget := hrun.exchanges
    rw [floored_teardownCycles] at hexchanges
    omega
  · intro hlong
    have hrun := runFrom_countdown (I := Ending cfg _) (fun r => r.core.stepsLeft) RunnerStep.isRt
      (fun _ e h => (h.step e).1)
      (fun _ e h hrt => ((h.step e).2 hrt).imp_left (And.intro h.started))
      (fun _ h hzero => ⟨h.started, .inl (RtCore.returned_of_stepsLeft hzero)⟩)
      (fun _ e h => Ended.step h e) hending (hsteps.trans hlong)
    exact hrun.2

theorem stop_ends_loop_bench :
    (runFrom Runner.step
      (runFrom Runner.step (Runner.new 1 { teardownCycles := 0 })
        [.attach 1, .start false, .configured false, .core .requestLatch, .core .requestFlag])
      (List.replicate 19 (.core (.rt {})))).Ended :=
  (stop_ends_loop 1 { teardownCycles := 0 }
    [.attach 1, .start false, .configured false, .core .requestLatch, .core .requestFlag]
    (List.replicate 19 (.core (.rt {}))) rfl rfl).2 (by decide)

end Runner

end ViamEthercat
