import ViamEthercat.Ethercat.Master
import ViamEthercat.Lib.Run
import ViamEthercat.Lib.Streak

/-!
# `ViamEthercat.Proofs.Bringup`: how a bring-up ends

`bringup_decided`: after `configure`, the first `S` calls of `bringup_step` gate, and the `S`-th
requests OP. From then on a call reports Operational as soon as `K` consecutive inputs have held
the drive, gives up at the `B`-th input if none have, and else waits. The decision is final.

The invariant is `Stage`: the phase, with its counters read off the inputs so far. The counters
are bounded by `S` and `B`, which fit into 32 bits, so they do not wrap.
-/

set_option autoImplicit false

namespace ViamEthercat.Master

open Lib

/-- The call as a step of a run. -/
def advance (m : Master) (x : BringupInput) : Master := (m.bringupStep x).next

section
variable (c : MasterConfig)

/-- The cycles before the OP request. -/
abbrev settleCycles : Nat := c.settleTarget c.useDistributedClocks

theorem settleCycles_bounds : 1 ≤ settleCycles c ∧ settleCycles c < 2 ^ 32 := by
  unfold settleCycles MasterConfig.settleTarget
  split_ifs with h
  · have hne : c.dcOpGateCycles.toNat ≠ 0 := fun h0 => h.2 (UInt32.toNat_inj.mp h0)
    have hlt := c.dcOpGateCycles.toNat_lt
    omega
  · omega

theorem holdConfirm_pos : 1 ≤ c.holdConfirm := Nat.le_max_right ..

theorem awaitBound_bounds : 1 ≤ c.awaitBound ∧ c.awaitBound < 2 ^ 32 := by
  unfold MasterConfig.awaitBound
  omega

end

/-- The inputs that hold a drive at OP, for the working counter `e`. -/
def holds (e : Nat) (x : BringupInput) : Bool :=
  decide (x.wkc = e) && !x.driveSyncFaulted && x.drivePresent

/-- The inputs after the OP request. -/
def awaited (c : MasterConfig) (xs : List BringupInput) : List BringupInput :=
  xs.drop (settleCycles c)

/-- The drive was held for the confirm streak before the give-up bound. -/
def HeldInTime (c : MasterConfig) (e : Nat) (xs : List BringupInput) : Prop :=
  ∃ i, i + c.holdConfirm ≤ c.awaitBound ∧ Streak (holds e) (awaited c xs) i c.holdConfirm

/-- Where a bring-up is after the inputs `xs`. -/
inductive Stage (c : MasterConfig) (e : Nat) (xs : List BringupInput) (m : Master) : Prop where
  | settling (hphase : m.bringupPhase = .settle) (hcount : m.bringupSettleCount = xs.length)
      (hlt : xs.length < settleCycles c)
  | awaiting (hphase : m.bringupPhase = .awaitOp) (hle : settleCycles c ≤ xs.length)
      (hcount : m.bringupAwaitCount = (awaited c xs).length)
      (hstreak : m.bringupOpHoldStreak = trailing (holds e) (awaited c xs))
      (hlt : (awaited c xs).length < c.awaitBound) (hnot : ¬ HeldInTime c e xs)
  | done (hphase : m.bringupPhase = .done) (hle : settleCycles c ≤ xs.length)
      (hheld : HeldInTime c e xs)
  | aborted (hphase : m.bringupPhase = .aborted) (hle : settleCycles c ≤ xs.length)
      (hbound : c.awaitBound ≤ (awaited c xs).length) (hnot : ¬ HeldInTime c e xs)

/-- What a bring-up keeps of the configured master: the configuration, the expected working
counter, a clear latch and clear statistics. What it opens at its end is the supervision, with
the grace of the configuration. -/
structure Configured (c : MasterConfig) (e : Nat) (m : Master) : Prop where
  config : m.config = c
  expected : m.expectedWkc = e
  dc : m.dcEnabled = c.useDistributedClocks
  fault : m.fault = false
  errors : m.consecutiveWkcErrors = 0
  statistics : m.totalCycles = 0 ∧ m.badCycles = 0
  opened : m.bringupPhase = .done → m.operational = true ∧
    m.settleRemaining = c.graceCycles c.useDistributedClocks

variable {c : MasterConfig} {e : Nat} {xs : List BringupInput} {x : BringupInput} {m : Master}

theorem configured_configure (m : Master) (e : Nat) : Configured m.config e (m.configure e) :=
  ⟨rfl, rfl, rfl, rfl, rfl, ⟨rfl, rfl⟩, fun h => by cases h⟩

/-- The hold streak after the input `x`. -/
def streakAfter (m : Master) (x : BringupInput) : Nat :=
  if m.held x then (m.bringupOpHoldStreak + 1) % 2 ^ 32 else 0

/-- The master after a Settle call that stays there. -/
def settledOnce (m : Master) (x : BringupInput) : Master :=
  { m with lastWkc := x.wkc, bringupSettleCount := (m.bringupSettleCount + 1) % 2 ^ 32 }

/-- A call in the Settle phase: it counts, and at the target it requests OP. -/
theorem bringupStep_settle (h : m.bringupPhase = .settle) :
    m.bringupStep x =
      if m.config.settleTarget m.dcEnabled ≤ (m.bringupSettleCount + 1) % 2 ^ 32 then
        ⟨{ m.settledOnce x with
            bringupAwaitCount := 0, bringupOpHoldStreak := 0, bringupPhase := .awaitOp },
          .gating, [.setStateOp]⟩
      else ⟨m.settledOnce x, .gating, []⟩ := by
  have heq : m.bringupStep x = ({ m with lastWkc := x.wkc } : Master).stepSettle := by
    simp only [bringupStep, h]
  rw [heq]
  rfl

/-- A call in the AwaitOp phase: it counts, and then confirms, gives up or waits on. It asks
for no state. -/
theorem bringupStep_awaitOp (h : m.bringupPhase = .awaitOp) :
    ∃ next status req al, m.bringupStep x = ⟨next, status, req⟩ ∧
      BusRequest.setStateOp ∉ req ∧
      let m' := { m with
        lastWkc := x.wkc, bringupAwaitCount := (m.bringupAwaitCount + 1) % 2 ^ 32
        bringupOpHoldStreak := m.streakAfter x, bringupAlCode := al }
      ((status = .operational ∧ m.config.holdConfirm ≤ m.streakAfter x ∧
          next = { m' with
            operational := true, settleRemaining := m.config.graceCycles m.dcEnabled
            fault := false, consecutiveWkcErrors := 0, bringupPhase := .done }) ∨
        (status = .aborted ∧ ¬ m.config.holdConfirm ≤ m.streakAfter x ∧
          m.config.awaitBound ≤ (m.bringupAwaitCount + 1) % 2 ^ 32 ∧
          next = { m' with bringupPhase := .aborted }) ∨
        (status = .awaitingOp ∧ ¬ m.config.holdConfirm ≤ m.streakAfter x ∧
          ¬ m.config.awaitBound ≤ (m.bringupAwaitCount + 1) % 2 ^ 32 ∧ next = m')) := by
  have hreq (n : Nat) : BusRequest.setStateOp ∉
      (if n % m.config.nudgeInterval = 0 then [BusRequest.reackOp] else []) := by
    split_ifs <;> simp
  have heq : m.bringupStep x = ({ m with lastWkc := x.wkc } : Master).stepAwaitOp x := by
    simp only [bringupStep, h]
  rw [heq]
  unfold stepAwaitOp
  by_cases hheld : m.config.holdConfirm ≤ m.streakAfter x
  · exact ⟨_, _, _, _, if_pos hheld, hreq _, .inl ⟨rfl, hheld, rfl⟩⟩
  · by_cases hbound : m.config.awaitBound ≤ (m.bringupAwaitCount + 1) % 2 ^ 32
    · exact ⟨_, _, _, _, (if_neg hheld).trans (if_pos hbound), hreq _,
        .inr (.inl ⟨rfl, hheld, hbound, rfl⟩)⟩
    · exact ⟨_, _, _, _, (if_neg hheld).trans (if_neg hbound), hreq _,
        .inr (.inr ⟨rfl, hheld, hbound, rfl⟩)⟩

theorem bringupStep_done (h : m.bringupPhase = .done) :
    m.bringupStep x = ⟨{ m with lastWkc := x.wkc }, .operational, []⟩ := by
  simp only [bringupStep, h]

theorem bringupStep_aborted (h : m.bringupPhase = .aborted) :
    m.bringupStep x = ⟨{ m with lastWkc := x.wkc }, .aborted, []⟩ := by
  simp only [bringupStep, h]

/-- No call of the bring-up touches what it was configured with, and none latches a fault. -/
theorem configured_advance (h : Configured c e m) (x : BringupInput) :
    Configured c e (m.advance x) := by
  unfold advance
  cases hphase : m.bringupPhase with
  | settle =>
      rw [bringupStep_settle hphase]
      split_ifs
      · exact ⟨h.config, h.expected, h.dc, h.fault, h.errors, h.statistics, fun hd => by cases hd⟩
      · exact ⟨h.config, h.expected, h.dc, h.fault, h.errors, h.statistics, h.opened⟩
  | awaitOp =>
      obtain ⟨next, status, req, al, heq, -,
        ⟨-, -, rfl⟩ | ⟨-, -, -, rfl⟩ | ⟨-, -, -, rfl⟩⟩ :=
        bringupStep_awaitOp (x := x) hphase <;> rw [heq]
      · refine ⟨h.config, h.expected, h.dc, rfl, rfl, h.statistics, fun _ => ⟨rfl, ?_⟩⟩
        show m.config.graceCycles m.dcEnabled = _
        rw [h.config, h.dc]
      · exact ⟨h.config, h.expected, h.dc, h.fault, h.errors, h.statistics, fun hd => by cases hd⟩
      · exact ⟨h.config, h.expected, h.dc, h.fault, h.errors, h.statistics, h.opened⟩
  | done =>
      rw [bringupStep_done hphase]
      exact ⟨h.config, h.expected, h.dc, h.fault, h.errors, h.statistics, h.opened⟩
  | aborted =>
      rw [bringupStep_aborted hphase]
      exact ⟨h.config, h.expected, h.dc, h.fault, h.errors, h.statistics, h.opened⟩

theorem awaited_concat (h : settleCycles c ≤ xs.length) :
    awaited c (xs ++ [x]) = awaited c xs ++ [x] :=
  List.drop_append_of_le_length h

theorem awaited_length : (awaited c xs).length = xs.length - settleCycles c :=
  List.length_drop ..

/-- With one more input the drive has been held in time if it was before, or if this input ends
the streak, still within the bound. -/
theorem heldInTime_concat (h : settleCycles c ≤ xs.length) :
    HeldInTime c e (xs ++ [x]) ↔ HeldInTime c e xs ∨
      ((awaited c xs).length + 1 ≤ c.awaitBound ∧
        c.holdConfirm ≤ trailing (holds e) (awaited c (xs ++ [x]))) := by
  unfold HeldInTime
  rw [awaited_concat h]
  exact exists_streak_concat (Q := fun k => k ≤ c.awaitBound)

/-- The counters of an awaiting master after one more input. -/
theorem awaiting_counters (hcfg : Configured c e m) (hle : settleCycles c ≤ xs.length)
    (hcount : m.bringupAwaitCount = (awaited c xs).length)
    (hstreak : m.bringupOpHoldStreak = trailing (holds e) (awaited c xs))
    (hlt : (awaited c xs).length < c.awaitBound) :
    (m.bringupAwaitCount + 1) % 2 ^ 32 = (awaited c (xs ++ [x])).length ∧
      m.streakAfter x = trailing (holds e) (awaited c (xs ++ [x])) := by
  have hbound := (awaitBound_bounds c).2
  have htrail : trailing (holds e) (awaited c xs) ≤ _ := trailing_le_length
  have hheld : m.held x = holds e x := by
    simp only [held, holds, hcfg.expected]
  rw [awaited_concat hle, trailing_concat, streakAfter, hheld, hcount, hstreak]
  refine ⟨?_, ?_⟩
  · rw [List.length_append, List.length_singleton]
    exact Nat.mod_eq_of_lt (by omega)
  · rw [Nat.mod_eq_of_lt (by omega)]

/-- The count of a settling master after one more input. -/
theorem settleCount_succ (hcount : m.bringupSettleCount = xs.length)
    (hlt : xs.length < settleCycles c) :
    (m.bringupSettleCount + 1) % 2 ^ 32 = xs.length + 1 := by
  have hS := (settleCycles_bounds c).2
  rw [hcount]
  exact Nat.mod_eq_of_lt (by omega)

/-- One call: the stage moves on, and what the call returns is read off the inputs. -/
theorem stage_step (hcfg : Configured c e m) (h : Stage c e xs m) (x : BringupInput) :
    Stage c e (xs ++ [x]) (m.advance x) := by
  have hlen : (xs ++ [x]).length = xs.length + 1 := by simp
  unfold advance
  cases h with
  | settling hphase hcount hlt =>
      have hwrap := settleCount_succ hcount hlt
      rw [bringupStep_settle hphase, hwrap, hcfg.config, hcfg.dc,
        show c.settleTarget c.useDistributedClocks = settleCycles c from rfl]
      split_ifs with htarget
      · -- The request: nothing was awaited yet.
        have hend : settleCycles c = xs.length + 1 := by omega
        have hnone : awaited c (xs ++ [x]) = [] := List.drop_of_length_le (by omega)
        have hB := (awaitBound_bounds c).1
        have hK := holdConfirm_pos c
        refine .awaiting rfl (by omega) (by rw [hnone]; rfl) (by rw [hnone]; simp) ?_ ?_
        · rw [hnone]
          exact hB
        · rintro ⟨i, -, hs, -⟩
          rw [hnone, List.length_nil] at hs
          omega
      · exact .settling hphase (by rw [hlen]; exact hwrap) (by omega)
  | awaiting hphase hle hcount hstreak hlt hnot =>
      obtain ⟨hcount', hstreak'⟩ := awaiting_counters (x := x) hcfg hle hcount hstreak hlt
      have hheld := heldInTime_concat (e := e) (x := x) hle
      have hlen' : (awaited c (xs ++ [x])).length = (awaited c xs).length + 1 := by
        rw [awaited_concat hle]
        simp
      obtain ⟨next, status, req, al, heq, -,
        ⟨-, hhold, rfl⟩ | ⟨-, hhold, hbound, rfl⟩ | ⟨-, hhold, hbound, rfl⟩⟩ :=
        bringupStep_awaitOp (x := x) hphase <;>
        rw [heq] <;> rw [hcfg.config, hstreak'] at hhold
      · exact .done rfl (by omega) (hheld.mpr (.inr ⟨hlt, hhold⟩))
      · rw [hcfg.config, hcount'] at hbound
        refine .aborted rfl (by omega) hbound fun h => ?_
        rcases hheld.mp h with h | h
        · exact hnot h
        · exact hhold h.2
      · rw [hcfg.config, hcount'] at hbound
        refine .awaiting hphase (by omega) hcount' hstreak' (by omega) fun h => ?_
        rcases hheld.mp h with h | h
        · exact hnot h
        · exact hhold h.2
  | done hphase hle hheld =>
      rw [bringupStep_done hphase]
      exact .done hphase (by omega) ((heldInTime_concat hle).mpr (.inl hheld))
  | aborted hphase hle hbound hnot =>
      rw [bringupStep_aborted hphase]
      refine .aborted hphase (by omega) (by rw [awaited_length] at hbound ⊢; omega) fun h => ?_
      rcases (heldInTime_concat hle).mp h with h | h
      · exact hnot h
      · omega

/-- The stage after the inputs `xs`, of a master that was just configured. -/
theorem stage_run (m : Master) (e : Nat) (xs : List BringupInput) :
    Configured m.config e (runFrom advance (m.configure e) xs) ∧
      Stage m.config e xs (runFrom advance (m.configure e) xs) := by
  induction xs using List.reverseRecOn with
  | nil => exact ⟨configured_configure m e, .settling rfl rfl (settleCycles_bounds m.config).1⟩
  | append_singleton xs x ih =>
      rw [runFrom_concat]
      exact ⟨configured_advance ih.1 x, stage_step ih.1 ih.2 x⟩

/-- What a call returns is decided by the stage that it leaves. -/
theorem status_of_stage (h : Stage c e xs m) (x : BringupInput) :
    (xs.length + 1 ≤ settleCycles c → (m.bringupStep x).status = .gating) ∧
    (settleCycles c < xs.length + 1 →
      ((m.bringupStep x).status = .operational ↔ (m.advance x).bringupPhase = .done) ∧
      ((m.bringupStep x).status = .aborted ↔ (m.advance x).bringupPhase = .aborted) ∧
      ((m.bringupStep x).status = .awaitingOp ↔ (m.advance x).bringupPhase = .awaitOp)) := by
  unfold advance
  cases h with
  | settling hphase hcount hlt =>
      rw [bringupStep_settle hphase]
      refine ⟨fun _ => by split_ifs <;> rfl, fun h => ?_⟩
      omega
  | awaiting hphase hle hcount hstreak hlt hnot =>
      refine ⟨fun h => by omega, fun _ => ?_⟩
      obtain ⟨next, status, req, al, heq, -,
        ⟨rfl, -, rfl⟩ | ⟨rfl, -, -, rfl⟩ | ⟨rfl, -, -, rfl⟩⟩ :=
        bringupStep_awaitOp (x := x) hphase <;> rw [heq] <;> simp [hphase]
  | done hphase hle hheld =>
      rw [bringupStep_done hphase]
      exact ⟨fun h => by omega, fun _ => by simp [hphase]⟩
  | aborted hphase hle hbound hnot =>
      rw [bringupStep_aborted hphase]
      exact ⟨fun h => by omega, fun _ => by simp [hphase]⟩

/-- OP is requested once, by the last call of the Settle phase. -/
theorem count_setStateOp (hcfg : Configured c e m) (h : Stage c e xs m) (x : BringupInput) :
    (m.bringupStep x).requests.count .setStateOp
      = if xs.length + 1 = settleCycles c then 1 else 0 := by
  cases h with
  | settling hphase hcount hlt =>
      rw [bringupStep_settle hphase, settleCount_succ hcount hlt, hcfg.config, hcfg.dc,
        show c.settleTarget c.useDistributedClocks = settleCycles c from rfl]
      split_ifs <;> first | rfl | omega
  | awaiting hphase hle =>
      obtain ⟨next, status, req, al, heq, hreq, -⟩ := bringupStep_awaitOp (x := x) hphase
      rw [heq, List.count_eq_zero_of_not_mem hreq, if_neg (by omega)]
  | done hphase hle =>
      rw [bringupStep_done hphase, if_neg (by omega)]
      rfl
  | aborted hphase hle =>
      rw [bringupStep_aborted hphase, if_neg (by omega)]
      rfl

/-- A decision is final. -/
theorem status_stable (h : (m.bringupStep x).status = .operational ∨
    (m.bringupStep x).status = .aborted) (y : BringupInput) :
    ((m.advance x).bringupStep y).status = (m.bringupStep x).status := by
  unfold advance
  cases hphase : m.bringupPhase with
  | settle =>
      have hgating : (m.bringupStep x).status = .gating := by
        rw [bringupStep_settle hphase]
        split_ifs <;> rfl
      simp [hgating] at h
  | awaitOp =>
      obtain ⟨next, status, req, al, heq, -,
        ⟨rfl, -, rfl⟩ | ⟨rfl, -, -, rfl⟩ | ⟨rfl, -, -, rfl⟩⟩ :=
        bringupStep_awaitOp (x := x) hphase
      · rw [heq, bringupStep_done rfl]
      · rw [heq, bringupStep_aborted rfl]
      · simp [heq] at h
  | done => rw [bringupStep_done hphase, bringupStep_done (by exact hphase)]
  | aborted => rw [bringupStep_aborted hphase, bringupStep_aborted (by exact hphase)]

/-- The call that first reports Operational is the one whose input ends the first streak. -/
theorem first_operational_iff (hS : settleCycles c < xs.length + 1) (hcfg : Configured c e m)
    (h : Stage c e xs m) (x : BringupInput) :
    (m.advance x).bringupPhase = .done ∧ m.bringupPhase ≠ .done ↔
      (awaited c (xs ++ [x])).length ≤ c.awaitBound ∧
        FirstStreakEnd (holds e) (awaited c (xs ++ [x])) c.holdConfirm
          (awaited c (xs ++ [x])).length := by
  have hle : settleCycles c ≤ xs.length := by omega
  have hlen : (awaited c (xs ++ [x])).length = (awaited c xs).length + 1 := by
    rw [awaited_concat hle]
    simp
  constructor
  · rintro ⟨hnow, hbefore⟩
    have hnot : ¬ HeldInTime c e xs := by
      cases h with
      | settling _ _ hlt => omega
      | awaiting _ _ _ _ _ hnot => exact hnot
      | done hphase => exact absurd hphase hbefore
      | aborted _ _ _ hnot => exact hnot
    have hheld : HeldInTime c e (xs ++ [x]) := by
      cases stage_step hcfg h x with
      | settling hphase => rw [hnow] at hphase; cases hphase
      | awaiting hphase => rw [hnow] at hphase; cases hphase
      | done _ _ hheld => exact hheld
      | aborted hphase => rw [hnow] at hphase; cases hphase
    -- The streak ends with the new input, so no earlier one is in time.
    rcases (heldInTime_concat hle).mp hheld with h' | ⟨hbound, htrail⟩
    · exact absurd h' hnot
    · refine ⟨by omega, le_trailing_iff.mp htrail, fun i hi => ?_⟩
      by_contra hlt
      rw [awaited_concat hle] at hi
      exact hnot ⟨i, by omega, (streak_concat_of_le (by omega)).mp hi⟩
  · rintro ⟨hbound, ⟨i, hi, hs⟩, hfirst⟩
    have hnot : ¬ HeldInTime c e xs := by
      rintro ⟨k, -, hk⟩
      have hlate := hfirst k (by
        rw [awaited_concat hle]
        exact (streak_concat_of_le hk.1).mpr hk)
      have := hk.1
      omega
    have hheld : HeldInTime c e (xs ++ [x]) := ⟨i, by omega, hs⟩
    constructor
    · cases stage_step hcfg h x with
      | settling _ _ hlt => simp only [List.length_append, List.length_singleton] at hlt; omega
      | awaiting _ _ _ _ _ hn => exact absurd hheld hn
      | done hphase => exact hphase
      | aborted _ _ _ hn => exact absurd hheld hn
    · intro hdone
      cases h with
      | settling _ _ hlt => omega
      | awaiting hphase => rw [hdone] at hphase; cases hphase
      | done _ _ hh => exact hnot hh
      | aborted hphase => rw [hdone] at hphase; cases hphase

/-- Bring-up is decided by a held streak within its bound. For every master, every expected
working counter and every inputs `xs` before the input `x` of this call, with `S` the cycles
before the OP request, `K` the confirm streak and `B` the give-up bound:

- the calls up to `S` gate, and the `S`-th one requests OP, once;
- a later call first reports Operational when its input ends the first `K` consecutive inputs
  after call `S` that hold the drive, and is not past `B`;
- it reports Operational, then and afterwards, if and only if there is such a streak;
- it reports Aborted from the `B`-th input on if there is none, and before that it waits;
- Operational and Aborted are final, and Operational leaves a clear latch. -/
theorem bringup_decided (m : Master) (e : Nat) (xs : List BringupInput) (x : BringupInput) :
    let c := m.config
    let S := c.settleTarget c.useDistributedClocks
    let K := c.holdConfirm
    let B := c.awaitBound
    let before := runFrom advance (m.configure e) xs
    let r := before.bringupStep x
    let ys := (xs ++ [x]).drop S
    (xs.length + 1 ≤ S → r.status = .gating) ∧
    r.requests.count .setStateOp = (if xs.length + 1 = S then 1 else 0) ∧
    (S < xs.length + 1 →
      (r.status = .operational ∧ before.bringupPhase ≠ .done ↔
        ys.length ≤ B ∧ FirstStreakEnd (holds e) ys K ys.length) ∧
      (r.status = .operational ↔ ∃ j, j ≤ B ∧ FirstStreakEnd (holds e) ys K j) ∧
      (r.status = .aborted ↔
        B ≤ ys.length ∧ ¬ ∃ j, j ≤ B ∧ FirstStreakEnd (holds e) ys K j) ∧
      (r.status = .awaitingOp ↔
        ys.length < B ∧ ¬ ∃ j, j ≤ B ∧ FirstStreakEnd (holds e) ys K j)) ∧
    (r.status = .operational ∨ r.status = .aborted →
      ∀ y, (r.next.bringupStep y).status = r.status) ∧
    (r.status = .operational → r.next.fault = false ∧ r.next.consecutiveWkcErrors = 0) := by
  intro c S K B before r ys
  obtain ⟨hcfg, hstage⟩ := stage_run m e xs
  obtain ⟨hgating, hlater⟩ := status_of_stage hstage x
  have hnext := stage_step hcfg hstage x
  refine ⟨hgating, count_setStateOp hcfg hstage x, fun hS => ?_, fun h => status_stable h,
    fun _ => ⟨(configured_advance hcfg x).fault, (configured_advance hcfg x).errors⟩⟩
  obtain ⟨hop, hab, haw⟩ := hlater hS
  have hheld : (∃ j, j ≤ B ∧ FirstStreakEnd (holds e) ys K j) ↔ HeldInTime c e (xs ++ [x]) :=
    exists_firstStreakEnd_iff
  have hfirst := first_operational_iff hS hcfg hstage x
  rw [hheld, hop, hab, haw]
  refine ⟨hfirst, ?_⟩
  have hnot : ¬ (xs ++ [x]).length < settleCycles c := by
    have hlen : (xs ++ [x]).length = xs.length + 1 := by simp
    have hS' : settleCycles c < xs.length + 1 := hS
    omega
  have hys : ys = awaited c (xs ++ [x]) := rfl
  rw [hys]
  cases hnext with
  | settling _ _ hlt => exact absurd hlt hnot
  | awaiting hphase _ _ _ hlt hn => simp [hphase, hn, B, hlt, c]
  | done hphase _ hh => simp [hphase, hh, c]
  | aborted hphase _ hb hn => simp [hphase, hn, hb, B, c]

end ViamEthercat.Master
