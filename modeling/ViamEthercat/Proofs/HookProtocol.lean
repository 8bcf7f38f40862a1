import ViamEthercat.Ethercat.Runner
import ViamEthercat.Lib.Run

/-!
# `ViamEthercat.Proofs.HookProtocol`: the order of the hooks

What the calls of a run have to look like is `HookProtocol`: what has to be called before each
call, how often the controls step in the stopping window, what they are told.

Two of the exits load `reason_` and tell it to the controls. The exit after a failed realtime
setup tells them its own constant, and a stop that was requested before has already been latched.
`hooks_ordered_iff`: but for that the protocol holds in every state of every run.

* `Called`: how far the loops over the controls have come, read off the trace.
* `PcInv`: what has been called at each step of `rt_body`.
-/

set_option autoImplicit false

namespace ViamEthercat

open Lib

/-! ### The protocol -/

/-- The first reason that a call of `latch_reason` brought. -/
def firstLatch : List HookCall → Option RunnerReason
  | [] => none
  | .latched r :: _ => some r
  | _ :: rest => firstLatch rest

/-- What the calls before a call of a hook have to be. -/
def Allowed (n : Nat) (before : List HookCall) : HookCall → Prop
  | .onOperational i => i < n ∧ .operational ∈ before ∧ .onOperational i ∉ before
  | .step i stopping => i < n ∧ (∀ j < n, .onOperational j ∈ before) ∧
      if stopping then ∀ j < n, ∃ r, .onStop j r ∈ before else ∀ j r, .onStop j r ∉ before
  | .onStop i r => i < n ∧ (∀ r', .onStop i r' ∉ before) ∧ firstLatch before = some r
  | .latched _ | .operational | .bringup _ | .tornDown _ _ => True

/-- The control has reported that it is torn down, and no control has stepped since. -/
def Reported (trace : List HookCall) (i : Nat) : Prop :=
  ∃ before after, trace = before ++ .tornDown i true :: after ∧ ∀ j b, .step j b ∉ after

/-- The hook protocol for `n` controls, in one state of a run. -/
structure HookProtocol (cfg : RunnerConfig) (n : Nat) (s : RtCore) : Prop where
  /-- every call comes in order -/
  ordered : ∀ before c, before ++ [c] <+: s.trace → Allowed n before c
  /-- what the controls are told is the reason, from then on -/
  reason : ∀ i r, .onStop i r ∈ s.trace → s.reason = r
  /-- the stopping window is bounded -/
  window : ∀ i < n, s.trace.count (.step i true) ≤ max 1 cfg.teardownCycles.toNat
  /-- when `rt_body` has returned, every control was stopped, and if `Operational` was reached it
  had its stopping window, which ends early only if all are torn down -/
  ended : s.pc = .returned → ∀ i < n, (∃ r, .onStop i r ∈ s.trace) ∧
    (.operational ∈ s.trace → .onOperational i ∈ s.trace ∧
      1 ≤ s.trace.count (.step i true) ∧
      (s.trace.count (.step i true) < max 1 cfg.teardownCycles.toNat →
        ∀ j < n, Reported s.trace j))

/-- The step calls `on_stop` after a failed realtime setup, and another reason was latched
first. -/
def RtCore.StaleSetupStop (s : RtCore) : RunnerEvent → Prop
  | .rt _ => (∃ i, s.pc = .setupStop i) ∧ s.reason ≠ .rtSetupFailed
  | .requestLatch | .requestFlag => False

/-! ### What has been called -/

/-- How far the calls have come: `Operational` was reached, the first `ops` controls had their
`on_operational` and the first `stops` their `on_stop`, and the control `i` has made `steps i`
stopping steps. -/
structure Called (n : Nat) (trace : List HookCall) (up : Bool) (ops stops : Nat)
    (steps : Nat → Nat) : Prop where
  up : .operational ∈ trace ↔ up = true
  ops : ∀ j, .onOperational j ∈ trace ↔ j < ops
  stops : ∀ j, (∃ r, .onStop j r ∈ trace) ↔ j < stops
  steps : ∀ j < n, trace.count (.step j true) = steps j

/-- The calls that `Called` does not count. -/
def HookCall.quiet : HookCall → Bool
  | .latched _ | .bringup _ | .tornDown _ _ | .step _ false => true
  | .operational | .onOperational _ | .step _ true | .onStop _ _ => false

namespace Called

variable {n : Nat} {trace : List HookCall} {up : Bool} {ops stops : Nat} {steps : Nat → Nat}

theorem nil : Called n [] false 0 0 fun _ => 0 := by
  refine ⟨by simp, by simp, by simp, by simp⟩

theorem append_quiet {c : HookCall} (h : Called n trace up ops stops steps)
    (hc : c.quiet = true) : Called n (trace ++ [c]) up ops stops steps := by
  have hne {d : HookCall} (hd : d.quiet = false) : d ≠ c := by
    rintro rfl
    rw [hc] at hd
    cases hd
  refine ⟨?_, fun j => ?_, fun j => ?_, fun j hj => ?_⟩
  · simp [h.up, hne (show HookCall.operational.quiet = false from rfl)]
  · simp [h.ops, hne (show (HookCall.onOperational j).quiet = false from rfl)]
  · rw [← h.stops j]
    simp [fun r => hne (show (HookCall.onStop j r).quiet = false from rfl)]
  · rw [List.count_append, h.steps j hj]
    simp [(hne (show (HookCall.step j true).quiet = false from rfl)).symm]

theorem append_operational (h : Called n trace false ops stops steps) :
    Called n (trace ++ [.operational]) true ops stops steps := by
  refine ⟨by simp, fun j => ?_, fun j => ?_, fun j hj => ?_⟩
  · simp [h.ops]
  · simp [h.stops]
  · simp [List.count_append, h.steps j hj]

theorem append_onOperational (h : Called n trace up ops stops steps) :
    Called n (trace ++ [.onOperational ops]) up (ops + 1) stops steps := by
  refine ⟨?_, fun j => ?_, fun j => ?_, fun j hj => ?_⟩
  · simp [h.up]
  · simp [h.ops]
    omega
  · simp [h.stops]
  · simp [List.count_append, h.steps j hj]

theorem append_onStop (h : Called n trace up ops stops steps) (r : RunnerReason) :
    Called n (trace ++ [.onStop stops r]) up ops (stops + 1) steps := by
  refine ⟨?_, fun j => ?_, fun j => ?_, fun j hj => ?_⟩
  · simp [h.up]
  · simp [h.ops]
  · have hj := h.stops j
    simp only [List.mem_append, List.mem_singleton, HookCall.onStop.injEq]
    constructor
    · rintro ⟨r', hr' | ⟨rfl, -⟩⟩
      · have := hj.mp ⟨r', hr'⟩
        omega
      · exact Nat.lt_succ_self _
    · intro hlt
      rcases Nat.lt_succ_iff_lt_or_eq.mp hlt with hlt | rfl
      · obtain ⟨r', hr'⟩ := hj.mpr hlt
        exact ⟨r', .inl hr'⟩
      · exact ⟨r, .inr ⟨rfl, rfl⟩⟩
  · simp [List.count_append, h.steps j hj]

theorem append_step {i : Nat} {steps' : Nat → Nat} (h : Called n trace up ops stops steps)
    (hsteps : ∀ j < n, steps' j = steps j + if i = j then 1 else 0) :
    Called n (trace ++ [.step i true]) up ops stops steps' := by
  refine ⟨?_, fun j => ?_, fun j => ?_, fun j hj => ?_⟩
  · simp [h.up]
  · simp [h.ops]
  · simp [h.stops]
  · rw [List.count_append, h.steps j hj, hsteps j hj, List.count_singleton]
    simp

end Called

/-! ### The calls and the reason -/

/-- What holds of the calls and of `reason_` wherever `rt_body` is. -/
structure CallsInv (n : Nat) (s : RtCore) : Prop where
  ordered : ∀ before c, before ++ [c] <+: s.trace → Allowed n before c
  latch : firstLatch s.trace = if s.reason = .none then none else some s.reason
  told : ∀ i r, .onStop i r ∈ s.trace → s.reason = r ∧ r ≠ .none
  flag : s.stopFlag = true → s.reason ≠ .none
  pending : s.pending ≠ 0 → s.reason ≠ .none

theorem firstLatch_append (trace : List HookCall) (c : HookCall) :
    firstLatch (trace ++ [c]) = (firstLatch trace).or (firstLatch [c]) := by
  induction trace with
  | nil => rfl
  | cons d trace ih => cases d <;> simp [firstLatch, ih]

/-- `latch_reason` latches a reason. -/
theorem RtCore.latchReason_latched {s : RtCore} {r : RunnerReason} (hr : r ≠ .none) :
    (s.latchReason r).reason ≠ .none := by
  dsimp only [RtCore.latchReason]
  split
  · exact hr
  · assumption

namespace CallsInv

variable {n : Nat} {s s' : RtCore}

/-- A call in order keeps the order. -/
theorem ordered_append {c : HookCall} (h : CallsInv n s) (hc : Allowed n s.trace c) :
    ∀ before d, before ++ [d] <+: s.trace ++ [c] → Allowed n before d := by
  intro before d hbefore
  rcases List.prefix_concat_iff.mp hbefore with heq | hbefore
  · obtain ⟨rfl, hlast⟩ := List.append_inj' heq rfl
    obtain rfl := List.singleton_inj.mp hlast
    exact hc
  · exact h.ordered before d hbefore

/-- `latch_reason` keeps an earlier reason. -/
theorem latch_reason {r : RunnerReason} (h : CallsInv n s) (hr : r ≠ .none)
    (htrace : s'.trace = s.trace ++ [.latched r])
    (hreason : s'.reason = if s.reason = .none then r else s.reason) : CallsInv n s' := by
  have hlatched : s'.reason ≠ .none := by
    rw [hreason]
    exact RtCore.latchReason_latched hr
  refine ⟨?_, ?_, fun i r' hr' => ?_, fun _ => hlatched, fun _ => hlatched⟩
  · rw [htrace]
    exact h.ordered_append trivial
  · rw [htrace, firstLatch_append, h.latch, if_neg hlatched, hreason]
    split <;> rfl
  · -- A control that has been told a reason has been told the latched one.
    rw [htrace, List.mem_append] at hr'
    obtain ⟨htold, hne⟩ := h.told i r' (hr'.resolve_right (by simp))
    exact ⟨by rw [hreason, if_neg (by rw [htold]; exact hne), htold], hne⟩

/-- A call of a hook, in order. -/
theorem call (c : HookCall) (h : CallsInv n s) (hc : Allowed n s.trace c)
    (hsame : firstLatch [c] = none) (htrace : s'.trace = s.trace ++ [c])
    (hreason : s'.reason = s.reason) (hflag : s'.stopFlag = s.stopFlag)
    (hpending : s'.pending = s.pending) : CallsInv n s' := by
  refine ⟨?_, ?_, fun i r hr => ?_, ?_, ?_⟩
  · rw [htrace]
    exact h.ordered_append hc
  · rw [htrace, firstLatch_append, hsame, Option.or_none, hreason]
    exact h.latch
  · rw [htrace, List.mem_append, List.mem_singleton] at hr
    rw [hreason]
    rcases hr with hr | rfl
    · exact h.told i r hr
    · -- What it is told is the first reason latched.
      have hfirst := hc.2.2
      rw [h.latch] at hfirst
      by_cases hnone : s.reason = .none
      · rw [if_pos hnone] at hfirst
        cases hfirst
      · rw [if_neg hnone] at hfirst
        exact ⟨Option.some.inj hfirst, Option.some.inj hfirst ▸ hnone⟩
  · rw [hflag, hreason]
    exact h.flag
  · rw [hpending, hreason]
    exact h.pending

/-- A step that calls nothing. The stop flag is set only after the reason is latched. -/
theorem silent (h : CallsInv n s) (htrace : s'.trace = s.trace) (hreason : s'.reason = s.reason)
    (hflag : s'.stopFlag = true → s.reason ≠ .none)
    (hpending : s'.pending ≠ 0 → s.pending ≠ 0) : CallsInv n s' := by
  refine ⟨?_, ?_, ?_, ?_, ?_⟩
  · rw [htrace]
    exact h.ordered
  · rw [htrace, hreason]
    exact h.latch
  · rw [htrace, hreason]
    exact h.told
  · rw [hreason]
    exact hflag
  · rw [hreason]
    exact fun hp => h.pending (hpending hp)

end CallsInv

/-! ### Where `rt_body` is -/

namespace RtCore

variable (s : RtCore)

/-- `Operational` was not reached, and the first `stops` controls are stopped. -/
def NotUp (stops : Nat) : Prop :=
  s.stopping = false ∧ Called s.controls s.trace false 0 stops fun _ => 0

/-- `Operational` was reached, and no stop is under way. -/
def Up (ops : Nat) : Prop :=
  s.stopping = false ∧ Called s.controls s.trace true ops 0 fun _ => 0

/-- The stopping window opens, and the first `stops` controls are told. -/
def Entering (stops : Nat) : Prop :=
  s.stopping = true ∧ s.windowLeft = s.cfg.teardownCycles ∧
    Called s.controls s.trace true s.controls stops fun _ => 0

/-- In a cycle of the stopping window the first `stepped` controls have stepped. -/
def InWindow (stepped : Nat) : Prop :=
  s.stopping = true ∧ 1 ≤ s.windowLeft.toNat ∧ s.windowLeft.toNat ≤ s.cfg.teardownCycles.toNat ∧
    Called s.controls s.trace true s.controls s.controls fun j =>
      s.cfg.teardownCycles.toNat - s.windowLeft.toNat + if j < stepped then 1 else 0

/-- What the controls are told is the reason. -/
def Told (r : RunnerReason) : Prop := s.reason = r ∧ r ≠ .none

/-- The loop is over, without `Operational` or after a stopping window. -/
def Ended : Prop :=
  s.NotUp s.controls ∨ ∃ k, 1 ≤ k ∧ k ≤ s.cfg.teardownCycles.toNat ∧
    Called s.controls s.trace true s.controls s.controls (fun _ => k) ∧
    (k < s.cfg.teardownCycles.toNat → ∀ j < s.controls, Reported s.trace j)

/-- What has been called when `rt_body` is at `pc`. -/
def PcInv : RtPc → Prop
  | .setup | .latchSetup | .bringup | .bringupHooks _ _ _ | .bringupStep _ _ | .latchAborted
  | .endBringup | .latchRequested => s.NotUp 0
  | .setupStop i => s.NotUp i ∧ i < s.controls ∧ s.reason ≠ .none
  | .loadBringupReason => s.NotUp 0 ∧ s.reason ≠ .none
  | .bringupStop r i => s.NotUp i ∧ i < s.controls ∧ s.Told r
  | .onOperational i => s.Up i ∧ i < s.controls
  | .process => s.Up s.controls ∨ s.InWindow 0
  | .latchFault | .loadFlag => s.Up s.controls
  | .setFlag => s.Up s.controls ∧ s.reason ≠ .none
  | .loadReason => s.Entering 0 ∧ s.reason ≠ .none
  | .onStop r i => s.Entering i ∧ i < s.controls ∧ s.Told r
  | .step i => (s.Up s.controls ∨ s.InWindow i) ∧ i < s.controls
  | .cycleEnd => s.Up s.controls ∨ s.InWindow s.controls
  | .tornDown i all => s.InWindow s.controls ∧ i < s.controls ∧
      (all = true → ∀ j < i, Reported s.trace j)
  | .window all => s.InWindow s.controls ∧
      (all = true → ∀ j < s.controls, Reported s.trace j)
  | .storeStopped | .returned => s.Ended

end RtCore

/-- A report stands until a control steps. -/
theorem Reported.append {trace : List HookCall} {i : Nat} {c : HookCall} (h : Reported trace i)
    (hc : ∀ j b, c ≠ .step j b) : Reported (trace ++ [c]) i := by
  obtain ⟨before, after, rfl, hquiet⟩ := h
  refine ⟨before, after ++ [c], by simp, fun j b hmem => ?_⟩
  rcases List.mem_append.mp hmem with hmem | hmem
  · exact hquiet j b hmem
  · exact hc j b (List.mem_singleton.mp hmem).symm

section
variable {s : RtCore}

/-- A further call that is not counted, while a stopping window is under way or not. -/
theorem notUp_quiet {stops : Nat} {c : HookCall} (h : s.NotUp stops) (hc : c.quiet = true) :
    RtCore.NotUp { s with trace := s.trace ++ [c] } stops :=
  ⟨h.1, h.2.append_quiet hc⟩

theorem up_quiet {ops : Nat} {c : HookCall} (h : s.Up ops) (hc : c.quiet = true) :
    RtCore.Up { s with trace := s.trace ++ [c] } ops :=
  ⟨h.1, h.2.append_quiet hc⟩

theorem inWindow_quiet {stepped : Nat} {c : HookCall} (h : s.InWindow stepped)
    (hc : c.quiet = true) : RtCore.InWindow { s with trace := s.trace ++ [c] } stepped :=
  ⟨h.1, h.2.1, h.2.2.1, h.2.2.2.append_quiet hc⟩

/-- A reason is latched and keeps an earlier one. -/
theorem latchReason_reason {r : RunnerReason} (h : s.reason ≠ .none) :
    (s.latchReason r).reason = s.reason := if_neg h

theorem ended_latched {r : RunnerReason} {pending : Nat} (h : s.Ended) :
    RtCore.Ended { s.latchReason r with pending := pending } := by
  rcases h with h | ⟨k, hpos, hle, hcalls, hearly⟩
  · exact .inl (notUp_quiet h rfl)
  · refine .inr ⟨k, hpos, hle, hcalls.append_quiet rfl, fun hlt j hj => ?_⟩
    exact (hearly hlt j hj).append fun _ _ hc => by cases hc

/-- A call of `request_stop` changes nothing of what has been called. -/
theorem pcInv_latched {r : RunnerReason} {pending : Nat} {pc : RtPc} (h : s.PcInv pc) :
    RtCore.PcInv { s.latchReason r with pending := pending } pc := by
  have hreported {j : Nat} (h : Reported s.trace j) : Reported (s.trace ++ [.latched r]) j :=
    h.append fun _ _ hc => by cases hc
  have hlatched (h : s.reason ≠ .none) : (s.latchReason r).reason ≠ .none := by
    rwa [latchReason_reason h]
  have htold {r' : RunnerReason} (h : s.Told r') :
      RtCore.Told { s.latchReason r with pending := pending } r' :=
    ⟨(latchReason_reason (by rw [h.1]; exact h.2)).trans h.1, h.2⟩
  cases pc with
  | setup => exact notUp_quiet h rfl
  | latchSetup => exact notUp_quiet h rfl
  | setupStop i => exact ⟨notUp_quiet h.1 rfl, h.2.1, hlatched h.2.2⟩
  | bringup => exact notUp_quiet h rfl
  | bringupHooks i f p => exact notUp_quiet h rfl
  | bringupStep f p => exact notUp_quiet h rfl
  | latchAborted => exact notUp_quiet h rfl
  | endBringup => exact notUp_quiet h rfl
  | latchRequested => exact notUp_quiet h rfl
  | loadBringupReason => exact ⟨notUp_quiet h.1 rfl, hlatched h.2⟩
  | bringupStop r i => exact ⟨notUp_quiet h.1 rfl, h.2.1, htold h.2.2⟩
  | onOperational i => exact ⟨up_quiet h.1 rfl, h.2⟩
  | process => exact h.imp (up_quiet · rfl) (inWindow_quiet · rfl)
  | latchFault => exact up_quiet h rfl
  | setFlag => exact ⟨up_quiet h.1 rfl, hlatched h.2⟩
  | loadFlag => exact up_quiet h rfl
  | loadReason => exact ⟨⟨h.1.1, h.1.2.1, h.1.2.2.append_quiet rfl⟩, hlatched h.2⟩
  | onStop r i => exact ⟨⟨h.1.1, h.1.2.1, h.1.2.2.append_quiet rfl⟩, h.2.1, htold h.2.2⟩
  | step i => exact ⟨h.1.imp (up_quiet · rfl) (inWindow_quiet · rfl), h.2⟩
  | cycleEnd => exact h.imp (up_quiet · rfl) (inWindow_quiet · rfl)
  | tornDown i all =>
      exact ⟨inWindow_quiet h.1 rfl, h.2.1, fun hall j hj => hreported (h.2.2 hall j hj)⟩
  | window all =>
      exact ⟨inWindow_quiet h.1 rfl, fun hall j hj => hreported (h.2 hall j hj)⟩
  | storeStopped => exact ended_latched h
  | returned => exact ended_latched h

/-! ### The steps of `rt_body` -/

/-- A loop goes on, or is over. -/
theorem pcInv_each {s' : RtCore} {i : Nat} {body : Nat → RtPc} {next : RtPc}
    (hbody : i < s.controls → s'.PcInv (body i)) (hnext : s.controls ≤ i → s'.PcInv next) :
    s'.PcInv (s.eachControl i body next) := by
  unfold RtCore.eachControl
  split
  · exact hbody ‹_›
  · exact hnext (Nat.le_of_not_lt ‹_›)

/-- The loop over the `step` hooks. -/
theorem pcInv_stepFrom {i : Nat} (h : s.Up s.controls ∨ s.InWindow i) (hi : i ≤ s.controls) :
    s.PcInv (s.stepFrom i) := by
  refine pcInv_each (fun hlt => ⟨h, hlt⟩) fun hle => ?_
  obtain rfl : i = s.controls := le_antisymm hi hle
  exact h

/-- The order of the calls: what each step of `rt_body` calls is allowed. -/
theorem callsInv_rtStep (x : RtAnswer) (h : CallsInv s.controls s) (hpc : s.PcInv s.pc)
    (hfresh : ¬ s.StaleSetupStop (.rt x)) : CallsInv s.controls (s.rtStep x) := by
  have hfirst {r : RunnerReason} (hr : s.Told r) : firstLatch s.trace = some r := by
    rw [h.latch, hr.1, if_neg hr.2]
  have hstops {up : Bool} {ops stops : Nat} {steps : Nat → Nat}
      (hc : Called s.controls s.trace up ops stops steps) (r : RunnerReason) :
      .onStop stops r ∉ s.trace :=
    fun hmem => lt_irrefl stops ((hc.stops stops).mp ⟨r, hmem⟩)
  unfold RtCore.rtStep
  cases hat : s.pc with
  | setup => exact h.silent rfl rfl h.flag id
  | latchSetup => exact h.latch_reason (by decide) rfl rfl
  | setupStop i =>
      rw [hat] at hpc
      obtain ⟨⟨-, hcalled⟩, hi, hlatched⟩ := hpc
      have hreason : s.reason = .rtSetupFailed := not_not.mp fun hne => hfresh ⟨⟨i, hat⟩, hne⟩
      have htold : s.Told .rtSetupFailed := ⟨hreason, hreason ▸ hlatched⟩
      exact h.call (.onStop i .rtSetupFailed) ⟨hi, hstops hcalled, hfirst htold⟩ rfl rfl rfl rfl rfl
  | bringup =>
      dsimp only
      split
      · exact h.silent rfl rfl h.flag id
      · exact h.silent rfl rfl h.flag id
  | bringupHooks i f p => exact h.call (.bringup i) trivial rfl rfl rfl rfl rfl
  | bringupStep f p =>
      dsimp only
      split
      · exact h.call .operational trivial rfl rfl rfl rfl rfl
      · split
        · exact h.silent rfl rfl h.flag id
        · exact h.silent rfl rfl h.flag id
  | latchAborted => exact h.latch_reason (by decide) rfl rfl
  | endBringup => exact h.silent rfl rfl h.flag id
  | latchRequested => exact h.latch_reason (by decide) rfl rfl
  | loadBringupReason => exact h.silent rfl rfl h.flag id
  | bringupStop r i =>
      rw [hat] at hpc
      obtain ⟨⟨-, hcalled⟩, hi, htold⟩ := hpc
      exact h.call (.onStop i r) ⟨hi, hstops hcalled, hfirst htold⟩ rfl rfl rfl rfl rfl
  | onOperational i =>
      rw [hat] at hpc
      obtain ⟨⟨-, hcalled⟩, hi⟩ := hpc
      refine h.call (.onOperational i) ⟨hi, hcalled.up.mpr rfl, fun hmem => ?_⟩ rfl rfl rfl rfl rfl
      exact lt_irrefl i ((hcalled.ops i).mp hmem)
  | process =>
      dsimp only
      split
      · exact h.silent rfl rfl h.flag id
      · exact h.silent rfl rfl h.flag id
  | latchFault => exact h.latch_reason (by decide) rfl rfl
  | setFlag =>
      rw [hat] at hpc
      exact h.silent rfl rfl (fun _ => hpc.2) id
  | loadFlag =>
      dsimp only
      split
      · exact h.silent rfl rfl h.flag id
      · exact h.silent rfl rfl h.flag id
  | loadReason => exact h.silent rfl rfl h.flag id
  | onStop r i =>
      rw [hat] at hpc
      obtain ⟨⟨-, -, hcalled⟩, hi, htold⟩ := hpc
      exact h.call (.onStop i r) ⟨hi, hstops hcalled, hfirst htold⟩ rfl rfl rfl rfl rfl
  | step i =>
      rw [hat] at hpc
      obtain ⟨hsteady, hi⟩ := hpc
      refine h.call (.step i s.stopping) ⟨hi, ?_⟩ rfl rfl rfl rfl rfl
      -- The flag of the context is that of the loop.
      rcases hsteady with ⟨hstopping, hcalled⟩ | ⟨hstopping, -, -, hcalled⟩
      · rw [hstopping]
        refine ⟨fun j hj => (hcalled.ops j).mpr hj, fun j r hmem => ?_⟩
        exact Nat.not_lt_zero j ((hcalled.stops j).mp ⟨r, hmem⟩)
      · rw [hstopping]
        exact ⟨fun j hj => (hcalled.ops j).mpr hj, fun j hj => (hcalled.stops j).mpr hj⟩
  | cycleEnd => exact h.silent rfl rfl h.flag id
  | tornDown i all =>
      cases all with
      | false => exact h.silent rfl rfl h.flag id
      | true => exact h.call (.tornDown i x.tornDown) trivial rfl rfl rfl rfl rfl
  | window all => exact h.silent rfl rfl h.flag id
  | storeStopped => exact h.silent rfl rfl h.flag id
  | returned => exact h

/-- The loop over the hooks of a bring-up cycle. -/
theorem notUp_bringupFrom {i : Nat} {anySyncFault allPresent : Bool} (h : s.NotUp 0) :
    s.PcInv (s.eachControl i (.bringupHooks · anySyncFault allPresent)
      (.bringupStep anySyncFault allPresent)) :=
  pcInv_each (fun _ => h) fun _ => h

/-- The loops that stop the controls without `Operational`. -/
theorem notUp_stopFrom {stops : Nat} {body : Nat → RtPc} (h : s.NotUp stops)
    (hstops : stops ≤ s.controls)
    (hbody : ∀ i, s.NotUp i → i < s.controls → s.PcInv (body i)) :
    s.PcInv (s.eachControl stops body .storeStopped) := by
  refine pcInv_each (hbody stops h) fun hle => .inl ?_
  obtain rfl : stops = s.controls := le_antisymm hstops hle
  exact h

/-- The loop that tells the controls the reason when the stopping window opens. -/
theorem entering_stopFrom {r : RunnerReason} {stops : Nat} (h : s.Entering stops)
    (hstops : stops ≤ s.controls) (htold : s.Told r) (hwindow : 1 ≤ s.cfg.teardownCycles.toNat) :
    s.PcInv (s.eachControl stops (.onStop r) (s.stepFrom 0)) := by
  refine pcInv_each (fun hlt => ⟨h, hlt, htold⟩) fun hle => pcInv_stepFrom (.inr ?_) (Nat.zero_le _)
  obtain rfl : stops = s.controls := le_antisymm hstops hle
  obtain ⟨hstopping, hleft, hcalled⟩ := h
  refine ⟨hstopping, hleft ▸ hwindow, by rw [hleft], ?_⟩
  -- No control has made a stopping step.
  simpa [hleft] using hcalled

/-- The loop over the `on_operational` hooks. -/
theorem up_operationalFrom {ops : Nat} (h : s.Up ops) (hops : ops ≤ s.controls) :
    s.PcInv (s.eachControl ops .onOperational .process) := by
  refine pcInv_each (fun hlt => ⟨h, hlt⟩) fun hle => .inl ?_
  obtain rfl : ops = s.controls := le_antisymm hops hle
  exact h

/-- A step of a control before the stop. -/
theorem up_step {ops i : Nat} (h : s.Up ops) :
    RtCore.Up { s with trace := s.trace ++ [.step i s.stopping] } ops := by
  refine ⟨h.1, ?_⟩
  rw [show HookCall.step i s.stopping = .step i false by rw [h.1]]
  exact h.2.append_quiet rfl

/-- A step of a control in the stopping window. -/
theorem inWindow_step {i : Nat} (h : s.InWindow i) :
    RtCore.InWindow { s with trace := s.trace ++ [.step i s.stopping] } (i + 1) := by
  obtain ⟨hstopping, hpos, hle, hcalled⟩ := h
  refine ⟨hstopping, hpos, hle, ?_⟩
  rw [show HookCall.step i s.stopping = .step i true by rw [hstopping]]
  refine hcalled.append_step fun j _ => ?_
  rw [Nat.add_assoc, Nat.add_left_cancel_iff]
  split <;> split <;> split <;> omega

/-- The answers of the controls after a stopping cycle. -/
theorem inWindow_answersFrom {i : Nat} {all : Bool} (h : s.InWindow s.controls)
    (hi : i ≤ s.controls) (hall : all = true → ∀ j < i, Reported s.trace j) :
    s.PcInv (s.eachControl i (.tornDown · all) (.window all)) := by
  refine pcInv_each (fun hlt => ⟨h, hlt, hall⟩) fun hle => ?_
  obtain rfl : i = s.controls := le_antisymm hi hle
  exact ⟨h, hall⟩

/-- A control answers after a stopping cycle, and all before it were torn down. -/
theorem pcInv_tornDown {i : Nat} {answer : Bool} (h : s.PcInv (.tornDown i true)) :
    RtCore.PcInv { s with trace := s.trace ++ [.tornDown i answer] }
      (s.eachControl (i + 1) (.tornDown · answer) (.window answer)) := by
  obtain ⟨hin, hi, hall⟩ := h
  refine inWindow_answersFrom (inWindow_quiet (c := .tornDown i answer) hin rfl) hi ?_
  intro hanswer j hj
  rcases Nat.lt_succ_iff_lt_or_eq.mp hj with hj | rfl
  · exact (hall rfl j hj).append fun _ _ hc => by cases hc
  · rw [hanswer]
    exact ⟨s.trace, [], rfl, fun _ _ hc => by cases hc⟩

/-- A cycle of the stopping window is over. -/
theorem pcInv_window {all : Bool} (h : s.PcInv (.window all)) :
    RtCore.PcInv { s with windowLeft := s.windowLeft - 1 }
      (if all = true ∨ s.windowLeft - 1 = 0 then .storeStopped else .process) := by
  obtain ⟨⟨hstopping, hpos, hle, hcalled⟩, hall⟩ := h
  have hleft : (s.windowLeft - 1).toNat = s.windowLeft.toNat - 1 :=
    UInt32.toNat_sub_of_le _ _ (UInt32.le_iff_toNat_le.mpr hpos)
  have hcount (j : Nat) (hj : j < s.controls) :
      s.cfg.teardownCycles.toNat - s.windowLeft.toNat + (if j < s.controls then 1 else 0) =
        s.cfg.teardownCycles.toNat - (s.windowLeft - 1).toNat := by
    rw [if_pos hj]
    omega
  by_cases hend : all = true ∨ s.windowLeft - 1 = 0
  · rw [if_pos hend]
    refine .inr ⟨s.cfg.teardownCycles.toNat - (s.windowLeft - 1).toNat, by omega, Nat.sub_le _ _,
      ⟨hcalled.up, hcalled.ops, hcalled.stops, fun j hj => ?_⟩, fun hlt => ?_⟩
    · rw [hcalled.steps j hj]
      exact hcount j hj
    · -- The window was left before its last cycle.
      refine hall (hend.resolve_right fun hzero => ?_)
      rw [hzero] at hlt
      exact absurd hlt (by simp)
  · rw [if_neg hend]
    have hmore : (s.windowLeft - 1).toNat ≠ 0 := fun hzero =>
      hend (.inr (UInt32.toNat_inj.mp hzero))
    refine .inr ⟨hstopping, Nat.one_le_iff_ne_zero.mpr hmore,
      hleft.le.trans ((Nat.sub_le _ _).trans hle),
      ⟨hcalled.up, hcalled.ops, hcalled.stops, fun j hj => ?_⟩⟩
    rw [hcalled.steps j hj, hcount j hj]
    simp

/-- Where each step of `rt_body` leads. -/
theorem pcInv_rtStep (x : RtAnswer) (hwindow : 1 ≤ s.cfg.teardownCycles.toNat)
    (h : CallsInv s.controls s) (hpc : s.PcInv s.pc) : (s.rtStep x).PcInv (s.rtStep x).pc := by
  unfold RtCore.rtStep
  cases hat : s.pc with
  | setup =>
      rw [hat] at hpc
      dsimp only
      split
      · exact hpc
      · exact hpc
  | latchSetup =>
      rw [hat] at hpc
      have hlatched : (s.latchReason .rtSetupFailed).reason ≠ .none :=
        RtCore.latchReason_latched (by decide)
      refine notUp_stopFrom (notUp_quiet (c := .latched .rtSetupFailed) hpc rfl) (Nat.zero_le _) ?_
      exact fun i hi hlt => ⟨hi, hlt, hlatched⟩
  | setupStop i =>
      rw [hat] at hpc
      obtain ⟨⟨hstopping, hcalled⟩, hi, hlatched⟩ := hpc
      refine notUp_stopFrom ⟨hstopping, hcalled.append_onStop .rtSetupFailed⟩ hi ?_
      exact fun j hj hlt => ⟨hj, hlt, hlatched⟩
  | bringup =>
      rw [hat] at hpc
      dsimp only
      split
      · exact hpc
      · exact notUp_bringupFrom hpc
  | bringupHooks i f p =>
      rw [hat] at hpc
      exact notUp_bringupFrom (notUp_quiet (c := .bringup i) hpc rfl)
  | bringupStep f p =>
      rw [hat] at hpc
      dsimp only
      split
      · exact up_operationalFrom ⟨hpc.1, hpc.2.append_operational⟩ (Nat.zero_le _)
      · split
        · exact hpc
        · exact hpc
  | latchAborted =>
      rw [hat] at hpc
      exact notUp_quiet (c := .latched .bringupAborted) hpc rfl
  | endBringup =>
      rw [hat] at hpc
      dsimp only
      split
      · exact hpc
      · exact ⟨hpc, ‹_›⟩
  | latchRequested =>
      rw [hat] at hpc
      exact ⟨notUp_quiet (c := .latched .requested) hpc rfl, RtCore.latchReason_latched (by decide)⟩
  | loadBringupReason =>
      rw [hat] at hpc
      refine notUp_stopFrom hpc.1 (Nat.zero_le _) ?_
      exact fun i hi hlt => ⟨hi, hlt, rfl, hpc.2⟩
  | bringupStop r i =>
      rw [hat] at hpc
      obtain ⟨⟨hstopping, hcalled⟩, hi, htold⟩ := hpc
      refine notUp_stopFrom ⟨hstopping, hcalled.append_onStop r⟩ hi ?_
      exact fun j hj hlt => ⟨hj, hlt, htold⟩
  | onOperational i =>
      rw [hat] at hpc
      obtain ⟨⟨hstopping, hcalled⟩, hi⟩ := hpc
      exact up_operationalFrom ⟨hstopping, hcalled.append_onOperational⟩ hi
  | process =>
      rw [hat] at hpc
      dsimp only
      by_cases hstopping : s.stopping = true
      · rw [if_pos hstopping]
        exact pcInv_stepFrom hpc (Nat.zero_le _)
      · rw [if_neg hstopping]
        have hup := hpc.resolve_right fun hin => hstopping hin.1
        by_cases hfault : x.fault = true
        · rw [if_pos hfault]
          exact hup
        · rw [if_neg hfault]
          exact hup
  | latchFault =>
      rw [hat] at hpc
      exact ⟨up_quiet (c := .latched .busFault) hpc rfl, RtCore.latchReason_latched (by decide)⟩
  | setFlag =>
      rw [hat] at hpc
      exact hpc.1
  | loadFlag =>
      rw [hat] at hpc
      dsimp only
      by_cases hflag : s.stopFlag = true
      · rw [if_pos hflag]
        exact ⟨⟨rfl, rfl, hpc.2⟩, h.flag hflag⟩
      · rw [if_neg hflag]
        exact pcInv_stepFrom (.inl hpc) (Nat.zero_le _)
  | loadReason =>
      rw [hat] at hpc
      exact entering_stopFrom hpc.1 (Nat.zero_le _) ⟨rfl, hpc.2⟩ hwindow
  | onStop r i =>
      rw [hat] at hpc
      obtain ⟨⟨hstopping, hleft, hcalled⟩, hi, htold⟩ := hpc
      exact entering_stopFrom ⟨hstopping, hleft, hcalled.append_onStop r⟩ hi htold hwindow
  | step i =>
      rw [hat] at hpc
      exact pcInv_stepFrom (hpc.1.imp up_step inWindow_step) hpc.2
  | cycleEnd =>
      rw [hat] at hpc
      dsimp only
      by_cases hstopping : s.stopping = true
      · rw [if_pos hstopping]
        have hin := hpc.resolve_left fun hup => by rw [hup.1] at hstopping; cases hstopping
        exact inWindow_answersFrom hin (Nat.zero_le _) fun _ j hj => absurd hj (Nat.not_lt_zero j)
      · rw [if_neg hstopping]
        exact .inl (hpc.resolve_right fun hin => hstopping hin.1)
  | tornDown i all =>
      rw [hat] at hpc
      cases all with
      | false => exact inWindow_answersFrom hpc.1 hpc.2.1 fun hc => by cases hc
      | true => exact pcInv_tornDown hpc
  | window all =>
      rw [hat] at hpc
      exact pcInv_window hpc
  | storeStopped =>
      rw [hat] at hpc
      exact hpc
  | returned =>
      rw [hat] at hpc
      dsimp only
      rw [hat]
      exact hpc

/-! ### Runs -/

/-- The configuration and the controls stay. -/
theorem rtStep_const (x : RtAnswer) :
    (s.rtStep x).cfg = s.cfg ∧ (s.rtStep x).controls = s.controls := by
  unfold RtCore.rtStep
  cases s.pc with
  | bringup => dsimp only; split <;> exact ⟨rfl, rfl⟩
  | bringupStep f p =>
      dsimp only
      split
      · exact ⟨rfl, rfl⟩
      · split <;> exact ⟨rfl, rfl⟩
  | process => dsimp only; split <;> exact ⟨rfl, rfl⟩
  | loadFlag => dsimp only; split <;> exact ⟨rfl, rfl⟩
  | tornDown i all => cases all <;> exact ⟨rfl, rfl⟩
  | _ => exact ⟨rfl, rfl⟩

end

/-- What holds in every state of a run. -/
structure RunnerInv (cfg : RunnerConfig) (n : Nat) (s : RtCore) : Prop where
  cfg : s.cfg = cfg.floored
  controls : s.controls = n
  calls : CallsInv n s
  pc : s.PcInv s.pc

theorem floored_teardownCycles (cfg : RunnerConfig) :
    cfg.floored.teardownCycles.toNat = max 1 cfg.teardownCycles.toNat := by
  unfold RunnerConfig.floored
  split
  case isTrue hzero => rw [hzero]; rfl
  case isFalse hpos =>
      have hne : cfg.teardownCycles.toNat ≠ 0 := fun h => hpos (UInt32.toNat_inj.mp h)
      omega

theorem runnerInv_new (cfg : RunnerConfig) (n : Nat) : RunnerInv cfg n (.new cfg n) where
  cfg := rfl
  controls := rfl
  calls := by
    refine ⟨fun before c hbefore => ?_, rfl, fun i r hr => ?_, fun h => ?_, fun h => ?_⟩
    · simpa [RtCore.new] using List.eq_nil_of_prefix_nil hbefore
    · cases hr
    · cases h
    · exact absurd rfl h
  pc := ⟨rfl, Called.nil⟩

/-- One step keeps the invariant. -/
theorem runnerInv_step {cfg : RunnerConfig} {n : Nat} {s : RtCore} (e : RunnerEvent)
    (h : RunnerInv cfg n s) (hfresh : ¬ s.StaleSetupStop e) : RunnerInv cfg n (s.step e) := by
  obtain ⟨hcfg, rfl, hcalls, hpc⟩ := h
  cases e with
  | rt x =>
      have hwindow : 1 ≤ s.cfg.teardownCycles.toNat := by
        rw [hcfg, floored_teardownCycles]
        exact le_max_left _ _
      obtain ⟨hcfg', hcontrols'⟩ := rtStep_const (s := s) x
      exact ⟨hcfg'.trans hcfg, hcontrols', callsInv_rtStep x hcalls hpc hfresh,
        pcInv_rtStep x hwindow hcalls hpc⟩
  | requestLatch =>
      exact ⟨hcfg, rfl, hcalls.latch_reason (by decide) rfl rfl, pcInv_latched hpc⟩
  | requestFlag =>
      unfold RtCore.step
      by_cases hpending : s.pending = 0
      · rw [if_pos hpending]
        exact ⟨hcfg, rfl, hcalls, hpc⟩
      · rw [if_neg hpending]
        refine ⟨hcfg, rfl, ?_, hpc⟩
        exact hcalls.silent rfl rfl (fun _ => hcalls.pending hpending) fun _ => hpending

/-- The stopping steps of each control are bounded, wherever `rt_body` is. -/
theorem count_stopping_le {s : RtCore} {pc : RtPc} (h : s.PcInv pc) {i : Nat}
    (hi : i < s.controls) : s.trace.count (.step i true) ≤ s.cfg.teardownCycles.toNat := by
  have hzero {up : Bool} {ops stops : Nat}
      (hc : Called s.controls s.trace up ops stops fun _ => 0) :
      s.trace.count (.step i true) ≤ s.cfg.teardownCycles.toNat := by
    rw [hc.steps i hi]
    exact Nat.zero_le _
  have hin {stepped : Nat} (hw : s.InWindow stepped) :
      s.trace.count (.step i true) ≤ s.cfg.teardownCycles.toNat := by
    obtain ⟨-, hpos, hle, hc⟩ := hw
    rw [hc.steps i hi]
    split <;> omega
  have hended (he : s.Ended) :
      s.trace.count (.step i true) ≤ s.cfg.teardownCycles.toNat := by
    rcases he with he | ⟨k, -, hle, hc, -⟩
    · exact hzero he.2
    · rw [hc.steps i hi]
      exact hle
  cases pc with
  | setup => exact hzero h.2
  | latchSetup => exact hzero h.2
  | setupStop i => exact hzero h.1.2
  | bringup => exact hzero h.2
  | bringupHooks i f p => exact hzero h.2
  | bringupStep f p => exact hzero h.2
  | latchAborted => exact hzero h.2
  | endBringup => exact hzero h.2
  | latchRequested => exact hzero h.2
  | loadBringupReason => exact hzero h.1.2
  | bringupStop r i => exact hzero h.1.2
  | onOperational i => exact hzero h.1.2
  | process => exact h.elim (fun hup => hzero hup.2) hin
  | latchFault => exact hzero h.2
  | setFlag => exact hzero h.1.2
  | loadFlag => exact hzero h.2
  | loadReason => exact hzero h.1.2.2
  | onStop r i => exact hzero h.1.2.2
  | step i => exact h.1.elim (fun hup => hzero hup.2) hin
  | cycleEnd => exact h.elim (fun hup => hzero hup.2) hin
  | tornDown i all => exact hin h.1
  | window all => exact hin h.1
  | storeStopped => exact hended h
  | returned => exact hended h

/-- The invariant gives the protocol. -/
theorem RunnerInv.protocol {cfg : RunnerConfig} {n : Nat} {s : RtCore} (h : RunnerInv cfg n s) :
    HookProtocol cfg n s := by
  obtain ⟨hcfg, rfl, hcalls, hpc⟩ := h
  have hwindow : s.cfg.teardownCycles.toNat = max 1 cfg.teardownCycles.toNat := by
    rw [hcfg, floored_teardownCycles]
  refine ⟨hcalls.ordered, fun i r hr => (hcalls.told i r hr).1, fun i hi => ?_, ?_⟩
  · rw [← hwindow]
    exact count_stopping_le hpc hi
  · intro hreturned i hi
    rw [hreturned] at hpc
    rw [← hwindow]
    rcases hpc with ⟨-, hcalled⟩ | ⟨k, hpos, -, hcalled, hearly⟩
    · refine ⟨(hcalled.stops i).mpr hi, fun hup => ?_⟩
      cases hcalled.up.mp hup
    · refine ⟨(hcalled.stops i).mpr hi, fun _ => ⟨(hcalled.ops i).mpr hi, ?_⟩⟩
      rw [hcalled.steps i hi]
      exact ⟨hpos, hearly⟩

/-- The hook protocol holds in every state of a run if and only if the run does not call
`on_stop` after a failed realtime setup when another reason was latched before. -/
theorem hooks_ordered_iff (cfg : RunnerConfig) (n : Nat) (events : List RunnerEvent) :
    (∀ pre, pre <+: events → HookProtocol cfg n (runFrom RtCore.step (.new cfg n) pre)) ↔
      AllSteps RtCore.step (fun s e => ¬ s.StaleSetupStop e) (.new cfg n) events := by
  rw [forall_prefix_iff_allSteps]
  have hnew := runnerInv_new cfg n
  refine (and_iff_right hnew.protocol).trans ?_
  refine allSteps_congr hnew (fun s e h hfresh => runnerInv_step e h hfresh) fun s e h => ?_
  refine ⟨fun hprotocol hstale => ?_, fun hfresh => (runnerInv_step e h hfresh).protocol⟩
  -- The control is told what is not the reason.
  cases e with
  | rt x =>
      obtain ⟨⟨i, hat⟩, hother⟩ := hstale
      have hstep : s.step (.rt x) = s.call (.onStop i .rtSetupFailed)
          (s.eachControl (i + 1) .setupStop .storeStopped) := by
        show s.rtStep x = _
        unfold RtCore.rtStep
        rw [hat]
      rw [hstep] at hprotocol
      exact hother (hprotocol.reason i .rtSetupFailed (by simp [RtCore.call]))
  | requestLatch => exact hstale
  | requestFlag => exact hstale

/-- A stop is requested before the realtime setup fails. -/
def stoppedSetup : List RunnerEvent :=
  [.requestLatch, .requestFlag, .rt { realtime := false }, .rt {}, .rt {}]

/-- The control is told `RtSetupFailed`, and the reason is `Requested`. -/
theorem hooks_stoppedSetup :
    ¬ HookProtocol { requireRealtime := true } 1
      (runFrom RtCore.step (.new { requireRealtime := true } 1) stoppedSetup) := by
  intro h
  have htold := h.reason 0 .rtSetupFailed (by decide)
  exact absurd htold (by decide)

end ViamEthercat
