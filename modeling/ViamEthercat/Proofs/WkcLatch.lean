import ViamEthercat.Proofs.Bringup

/-!
# `ViamEthercat.Proofs.WkcLatch`: the bus-fault latch

`wkc_latch_iff`: after a bring-up that reported Operational, `process` latches a bus fault if
and only if it has seen a full streak of short working counters that starts after the grace.
The latch stays, `all_operational` is its negation, and the statistics are exact.

The invariant is `Watching`. Until the latch fires, the error counter is the trailing streak of
short working counters, cut at the end of the grace: `min (trailing ..) (n - G)`. After that the
counter may wrap, which the latch does not see.
-/

set_option autoImplicit false

namespace ViamEthercat.Master

open Lib

/-- A working counter below the expected one. -/
def short (e : Nat) (wkc : Int) : Bool := decide (wkc < e)

/-- The consecutive errors that latch: 0 acts as 1. -/
def threshold (c : MasterConfig) : Nat := max 1 c.maxConsecutiveWkcErrors.toNat

/-- The cycles before the latch is armed. -/
abbrev grace (c : MasterConfig) : Nat := c.graceCycles c.useDistributedClocks

/-- There was a full streak of short working counters after the grace. -/
def FullStreak (c : MasterConfig) (e : Nat) (ws : List Int) : Prop :=
  ∃ i, grace c ≤ i ∧ Streak (short e) ws i (threshold c)

/-- The last working counter that was not short, or `w₀`. -/
def lastGood (e : Nat) (w₀ : Int) (ws : List Int) : Int :=
  ((ws.filter fun w => !short e w).getLast?).getD w₀

variable {c : MasterConfig} {e : Nat} {w₀ w : Int} {ws : List Int} {m : Master}

theorem threshold_bounds (c : MasterConfig) : 1 ≤ threshold c ∧ threshold c < 2 ^ 32 := by
  have hlt := c.maxConsecutiveWkcErrors.toNat_lt
  unfold threshold
  omega

theorem badWkc_eq (h : m.expectedWkc = e) : m.badWkc w = short e w := by
  unfold badWkc short
  rw [h, ← Bool.decide_or, decide_eq_decide]
  omega

theorem lastGood_concat :
    lastGood e w₀ (ws ++ [w]) = if short e w then lastGood e w₀ ws else w := by
  unfold lastGood
  rw [List.filter_append]
  cases h : short e w <;> simp [h]

/-- The state of the supervision after the working counters `ws`. -/
structure Watching (c : MasterConfig) (e : Nat) (w₀ : Int) (ws : List Int) (m : Master) :
    Prop where
  config : m.config = c
  expected : m.expectedWkc = e
  graceLeft : m.settleRemaining = grace c - ws.length
  errors : m.fault = false →
    m.consecutiveWkcErrors = min (trailing (short e) ws) (ws.length - grace c)
  fault : m.fault = true ↔ FullStreak c e ws
  operational : m.operational = !m.fault
  total : m.totalCycles = UInt64.ofNat ws.length
  bad : m.badCycles = UInt64.ofNat (ws.countP (short e))
  good : m.workingCounter = lastGood e w₀ ws

/-- What every `process` counts. -/
def counted (m : Master) (w : Int) : Master :=
  { m with
      lastWkc := w, totalCycles := m.totalCycles + 1, cycle := m.cycle + 1
      badCycles := if m.badWkc w then m.badCycles + 1 else m.badCycles
      workingCounter := if m.badWkc w then m.workingCounter else w }

theorem latch_good {g : Bool} (h : m.badWkc w = false) :
    m.latch w g = { m with consecutiveWkcErrors := 0, workingCounter := w } :=
  if_neg (by simp [h])

theorem latch_grace (h : m.badWkc w = true) : m.latch w true = m := if_pos h

theorem latch_bad (h : m.badWkc w = true) :
    m.latch w false =
      if m.config.maxConsecutiveWkcErrors.toNat ≤ (m.consecutiveWkcErrors + 1) % 2 ^ 32 then
        { m with
            consecutiveWkcErrors := (m.consecutiveWkcErrors + 1) % 2 ^ 32
            faultWkc := w, fault := true, operational := false }
      else { m with consecutiveWkcErrors := (m.consecutiveWkcErrors + 1) % 2 ^ 32 } :=
  if_pos h

/-- The head of `process`: the statistics and the grace. -/
def entered (m : Master) (w : Int) : Master :=
  let m' := { m with
    lastWkc := w, totalCycles := m.totalCycles + 1
    badCycles := if m.badWkc w then m.badCycles + 1 else m.badCycles }
  if 0 < m.settleRemaining then
    { m' with settleRemaining := m.settleRemaining - 1, consecutiveWkcErrors := 0 }
  else m'

theorem entered_badWkc : (m.entered w).badWkc w = m.badWkc w := by
  unfold entered
  split_ifs <;> rfl

theorem process_eq : m.process w =
    { (m.entered w).latch w (decide (0 < m.settleRemaining)) with
        cycle := ((m.entered w).latch w (decide (0 < m.settleRemaining))).cycle + 1 } := by
  unfold process entered
  by_cases h : 0 < m.settleRemaining <;> simp only [h, decide_true, decide_false, if_true,
    if_false, Bool.false_eq_true]

/-- In the grace nothing is latched, and the streak starts over. -/
theorem process_grace (h : 0 < m.settleRemaining) :
    m.process w =
      { m.counted w with
          settleRemaining := m.settleRemaining - 1, consecutiveWkcErrors := 0 } := by
  rw [process_eq, decide_eq_true h]
  cases hbad : m.badWkc w with
  | true =>
      rw [latch_grace (entered_badWkc.trans hbad), entered, if_pos h, counted, hbad]
      rfl
  | false =>
      rw [latch_good (entered_badWkc.trans hbad), entered, if_pos h, counted, hbad]
      rfl

/-- A good cycle after the grace clears the streak. -/
theorem process_good (h : m.settleRemaining = 0) (hgood : m.badWkc w = false) :
    m.process w = { m.counted w with consecutiveWkcErrors := 0 } := by
  have hnone : ¬ 0 < m.settleRemaining := by omega
  rw [process_eq, latch_good (entered_badWkc.trans hgood), entered, if_neg hnone, counted, hgood]
  rfl

/-- A bad cycle after the grace counts, and latches at the threshold. -/
theorem process_bad (h : m.settleRemaining = 0) (hbad : m.badWkc w = true) :
    m.process w =
      if m.config.maxConsecutiveWkcErrors.toNat ≤ (m.consecutiveWkcErrors + 1) % 2 ^ 32 then
        { m.counted w with
            consecutiveWkcErrors := (m.consecutiveWkcErrors + 1) % 2 ^ 32
            faultWkc := w, fault := true, operational := false }
      else
        { m.counted w with
            consecutiveWkcErrors := (m.consecutiveWkcErrors + 1) % 2 ^ 32 } := by
  have hnone : ¬ 0 < m.settleRemaining := by omega
  have hent : m.entered w =
      { m with lastWkc := w, totalCycles := m.totalCycles + 1, badCycles := m.badCycles + 1 } := by
    rw [entered, if_neg hnone, hbad]
    rfl
  have hlatch := latch_bad (entered_badWkc.trans hbad)
  rw [process_eq, decide_eq_false hnone, hlatch, hent, counted, hbad]
  -- The threshold is compared with the counter that was there before.
  by_cases hfire : m.config.maxConsecutiveWkcErrors.toNat ≤ (m.consecutiveWkcErrors + 1) % 2 ^ 32
  · rw [if_pos hfire]
    simp only [if_pos hfire, if_true]
  · rw [if_neg hfire]
    simp only [if_neg hfire, if_true]

/-- With one more working counter, a full streak is an old one or ends here, after the grace. -/
theorem fullStreak_concat : FullStreak c e (ws ++ [w]) ↔ FullStreak c e ws ∨
    (grace c + threshold c ≤ ws.length + 1 ∧
      threshold c ≤ trailing (short e) (ws ++ [w])) := by
  have hswap (xs : List Int) : FullStreak c e xs ↔
      ∃ i, grace c + threshold c ≤ i + threshold c ∧ Streak (short e) xs i (threshold c) := by
    unfold FullStreak
    refine exists_congr fun i => ?_
    rw [Nat.add_le_add_iff_right]
  rw [hswap, hswap]
  exact exists_streak_concat (Q := fun k => grace c + threshold c ≤ k)

/-- Below the latch, the counter is below the threshold. -/
theorem Watching.errors_lt (h : Watching c e w₀ ws m) (hf : m.fault = false) :
    m.consecutiveWkcErrors < threshold c := by
  have hnot : ¬ FullStreak c e ws := by
    rw [← h.fault, hf]
    exact Bool.false_ne_true
  by_contra hle
  rw [h.errors hf, not_lt, Nat.le_min] at hle
  obtain ⟨i, hi, hs⟩ := le_trailing_iff.mp hle.1
  have := (threshold_bounds c).1
  exact hnot ⟨i, by omega, hs⟩

/-- The counters that every cycle keeps. -/
theorem Watching.counted (h : Watching c e w₀ ws m) :
    (m.counted w).totalCycles = UInt64.ofNat (ws ++ [w]).length ∧
      (m.counted w).badCycles = UInt64.ofNat ((ws ++ [w]).countP (short e)) ∧
      (m.counted w).workingCounter = lastGood e w₀ (ws ++ [w]) := by
  unfold Master.counted
  rw [badWkc_eq h.expected, lastGood_concat, h.total, h.bad, h.good, List.countP_append,
    List.length_append, List.length_singleton]
  refine ⟨by simp, ?_, rfl⟩
  cases hs : short e w <;> simp [hs]

/-- One cycle of the supervision. -/
theorem watching_step (h : Watching c e w₀ ws m) (w : Int) :
    Watching c e w₀ (ws ++ [w]) (m.process w) := by
  obtain ⟨htotal, hbad, hgood⟩ := h.counted (w := w)
  have hlen : (ws ++ [w]).length = ws.length + 1 := by simp
  have hN := threshold_bounds c
  have hleft := h.graceLeft
  by_cases hgrace : 0 < m.settleRemaining
  · -- Still in the grace: no streak that counts ends here.
    rw [process_grace hgrace]
    refine ⟨h.config, h.expected, ?_, fun _ => ?_, ?_, h.operational, htotal, hbad, hgood⟩
    · show m.settleRemaining - 1 = _
      omega
    · show 0 = _
      omega
    · rw [fullStreak_concat, or_iff_left (by omega)]
      exact h.fault
  have hzero : m.settleRemaining = 0 := by omega
  cases hshort : short e w with
  | false =>
      rw [process_good hzero ((badWkc_eq h.expected).trans hshort)]
      have htrail : trailing (short e) (ws ++ [w]) = 0 := by
        rw [trailing_concat, hshort]
        rfl
      refine ⟨h.config, h.expected, ?_, fun _ => ?_, ?_, h.operational, htotal, hbad, hgood⟩
      · show m.settleRemaining = _
        omega
      · show 0 = _
        rw [htrail, Nat.zero_min]
      · rw [fullStreak_concat, htrail, or_iff_left (by omega)]
        exact h.fault
  | true =>
      have htrail : trailing (short e) (ws ++ [w]) = trailing (short e) ws + 1 := by
        rw [trailing_concat, hshort]
        rfl
      rw [process_bad hzero ((badWkc_eq h.expected).trans hshort)]
      cases hf : m.fault with
      | true =>
          -- Latched before: the counter, which may wrap, no longer matters.
          have hfull : FullStreak c e (ws ++ [w]) :=
            fullStreak_concat.mpr (.inl (h.fault.mp hf))
          have hop := h.operational
          split_ifs
          · exact ⟨h.config, h.expected, by show m.settleRemaining = _; omega,
              (fun hff => by cases hff), iff_of_true rfl hfull, rfl, htotal, hbad, hgood⟩
          · exact ⟨h.config, h.expected, by show m.settleRemaining = _; omega,
              fun hff => absurd (hf.symm.trans hff) (by decide), iff_of_true hf hfull, hop,
              htotal, hbad, hgood⟩
      | false =>
          have hlt := h.errors_lt hf
          have herr := h.errors hf
          have hnot : ¬ FullStreak c e ws := by
            rw [← h.fault, hf]
            exact Bool.false_ne_true
          rw [Nat.mod_eq_of_lt (by omega)]
          have hfull : FullStreak c e (ws ++ [w]) ↔
              m.config.maxConsecutiveWkcErrors.toNat ≤ m.consecutiveWkcErrors + 1 := by
            rw [fullStreak_concat, or_iff_right hnot, htrail, h.config]
            unfold threshold
            omega
          split_ifs with hlatch
          · exact ⟨h.config, h.expected, by show m.settleRemaining = _; omega,
              (fun hff => by cases hff), iff_of_true rfl (hfull.mpr hlatch), rfl, htotal, hbad,
              hgood⟩
          · refine ⟨h.config, h.expected, by show m.settleRemaining = _; omega, fun _ => ?_,
              iff_of_false (fun hff => absurd (hf.symm.trans hff) (by decide))
                (fun hs => hlatch (hfull.mp hs)), h.operational, htotal, hbad, hgood⟩
            show m.consecutiveWkcErrors + 1 = _
            rw [htrail]
            omega

/-- The supervision after any number of cycles. -/
theorem watching_run (h : Watching c e w₀ [] m) (ws : List Int) :
    Watching c e w₀ ws (runFrom process m ws) := by
  induction ws using List.reverseRecOn with
  | nil => exact h
  | append_singleton ws w ih =>
      rw [runFrom_concat]
      exact watching_step ih w

/-- The latch stays. -/
theorem fault_stays (h : m.fault = true) (w : Int) : (m.process w).fault = true := by
  by_cases hgrace : 0 < m.settleRemaining
  · rw [process_grace hgrace]
    exact h
  · have hzero : m.settleRemaining = 0 := by omega
    cases hbad : m.badWkc w with
    | false =>
        rw [process_good hzero hbad]
        exact h
    | true =>
        rw [process_bad hzero hbad]
        split_ifs
        · rfl
        · exact h

/-- The bus-fault latch fires on a full streak of short working counters after the grace, and
only then. `ws` are the working counters of the cycles after a bring-up that reported
Operational. Positions count from 0, so the streak starts with the first cycle after the grace
or later. -/
theorem wkc_latch_iff (m : Master) (e : Nat) (xs : List BringupInput) (x : BringupInput)
    (hop : ((runFrom advance (m.configure e) xs).bringupStep x).status = .operational)
    (ws : List Int) :
    let c := m.config
    let G := c.graceCycles c.useDistributedClocks
    let N := max 1 c.maxConsecutiveWkcErrors.toNat
    let m₀ := ((runFrom advance (m.configure e) xs).bringupStep x).next
    let m' := runFrom process m₀ ws
    m₀.settleRemaining = G ∧
    (m'.fault = true ↔ ∃ i, G ≤ i ∧ Streak (short e) ws i N) ∧
    (m'.fault = true → ∀ vs, (runFrom process m' vs).fault = true) ∧
    m'.allOperational = !m'.fault ∧
    m'.totalCycles = UInt64.ofNat ws.length ∧
    m'.badCycles = UInt64.ofNat (ws.countP (short e)) ∧
    m'.workingCounter = lastGood e m₀.workingCounter ws := by
  intro c G N m₀ m'
  obtain ⟨hcfg, hstage⟩ := stage_run m e xs
  have hnext : Configured c e m₀ := configured_advance hcfg x
  -- The call that reported Operational left the Done phase.
  have hdone : m₀.bringupPhase = .done := by
    obtain ⟨hgating, hlater⟩ := status_of_stage hstage x
    by_cases hS : xs.length + 1 ≤ settleCycles c
    · rw [hgating hS] at hop
      cases hop
    · exact (hlater (not_le.mp hS)).1.mp hop
  obtain ⟨hopen, hgrace⟩ := hnext.opened hdone
  have hstart : Watching c e m₀.workingCounter [] m₀ := by
    refine ⟨hnext.config, hnext.expected, hgrace, fun _ => ?_, iff_of_false ?_ ?_, ?_,
      hnext.statistics.1, hnext.statistics.2, rfl⟩
    · rw [hnext.errors]
      simp
    · rw [hnext.fault]
      exact Bool.false_ne_true
    · rintro ⟨i, -, hs, -⟩
      have hN := (threshold_bounds c).1
      simp only [List.length_nil] at hs
      omega
    · rw [hopen, hnext.fault]
      rfl
  have hrun := watching_run hstart ws
  refine ⟨hgrace, hrun.fault, fun hf vs => ?_, hrun.operational, hrun.total, hrun.bad, hrun.good⟩
  exact runFrom_induction (I := fun m : Master => m.fault = true) hf fun _ w h => fault_stays h w

/-- A master without distributed clocks that expects a working counter of 3. -/
def benchMaster : Master := { config := { ifname := "eth0", slaves := [{}] } }

/-- An input of the bring-up that holds the drive. -/
def heldInput : BringupInput := { wkc := 3, driveSyncFaulted := false, drivePresent := true }

/-- Five short cycles in a row latch, four with a good one between them do not. -/
theorem wkc_latch_bench :
    (runFrom process ((runFrom advance (benchMaster.configure 3)
      (List.replicate 5 heldInput)).bringupStep heldInput).next [3, 2, 2, 2, 2, -1]).fault = true
    ∧ (runFrom process ((runFrom advance (benchMaster.configure 3)
      (List.replicate 5 heldInput)).bringupStep heldInput).next [2, 2, 3, 2, 2]).fault = false := by
  obtain ⟨-, hlatch, -⟩ := wkc_latch_iff benchMaster 3 (List.replicate 5 heldInput) heldInput
    (by decide) [3, 2, 2, 2, 2, -1]
  refine ⟨hlatch.mpr ⟨1, by decide, by decide, ?_⟩, by decide⟩
  intro j w hj hlt hw
  have hj' : j = 1 ∨ j = 2 ∨ j = 3 ∨ j = 4 ∨ j = 5 := by
    have hN : max 1 benchMaster.config.maxConsecutiveWkcErrors.toNat = 5 := by decide
    omega
  rcases hj' with rfl | rfl | rfl | rfl | rfl <;> cases hw <;> decide

end ViamEthercat.Master
