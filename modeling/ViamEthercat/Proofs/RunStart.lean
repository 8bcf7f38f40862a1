import ViamEthercat.Proofs.Waiters

/-!
# `ViamEthercat.Proofs.RunStart`: what a run starts with

A restart waits for the calls that hold `api_mutex_`, and for no others. A call that waits for its
move, and a `home` at its SDO transfers, hold no lock: they are still there when the next run
starts, with an id of the dead run, and `home` releases the slot by it.

* `Exclusion`: while a thread holds the lock exclusively, no call holds it.
* `startsRun_launch`: a run starts with no id published and no call that holds the lock, whatever
  the threads did before.
-/

set_option autoImplicit false

namespace ViamEthercat.Servo

open Lib Controller

namespace Thread

variable (s : Session) (t : Thread)

/-- A call takes the lock when it starts, and `home` again for its push alone. -/
theorem holdsLock_step (hwell : t.WellFormed) (h : t.holdsLock = false) :
    (t.step s).2.holdsLock = false := by
  have hset : t.verb = .home → t.verb ≠ .setRpm := fun hhome => by rw [hhome]; exact nofun
  cases hpc : t.pc <;> simp only [holdsLock, hpc, Bool.true_eq_false] at h <;>
    simp only [step, hpc, atPc, fails]
  case prepare => simpa [holdsLock] using hwell.prepares hpc
  case push =>
    have hhome : t.verb = .home := by simpa using h
    rw [if_neg (hset hhome)]
    rfl
  case done => simp [holdsLock, hpc]
  all_goals
    (try split_ifs) <;> rfl

end Thread

namespace Process

variable {y : Process} {op : Op}

variable (y) in
/-- While a thread holds the lock exclusively, no call holds it. -/
def Exclusion : Prop := y.exclusive = true → ∀ t ∈ y.threads, t.holdsLock = false

/-- The lock is taken when no call holds it. With the lock free nothing else is done under it. -/
theorem hold_of_free (hfree : y.exclusive = false) (h : Hold) :
    y.hold h = y ∨ (y.hold h).threads = y.threads ∧ ∀ t ∈ y.threads, t.holdsLock = false := by
  have hstage : y.stage = .free := by
    unfold exclusive at hfree
    split at hfree
    · assumption
    · cases hfree
  cases h with
  | lock =>
      simp only [hold, hfree, Bool.false_or]
      split_ifs with hany
      · exact .inl rfl
      · exact .inr ⟨rfl, by simpa using hany⟩
  | _ => exact .inl (by simp only [hold, hstage])

theorem Exclusion.step (h : y.Exclusion) (hcommanded : y.Commanded) (op : Op) :
    (y.step op).Exclusion := by
  have hset : ∀ {i : Nat} {t u : Thread}, y.threads[i]? = some t → y.exclusive = true →
      (u.holdsLock = true → t.holdsLock = true) → ∀ t' ∈ y.threads.set i u,
        t'.holdsLock = false := by
    intro i t u hi hexcl hlock t' ht'
    rcases List.mem_or_eq_of_mem_set ht' with hold | rfl
    · exact h hexcl t' hold
    · have hfree := h hexcl t (List.mem_of_getElem? hi)
      exact Bool.eq_false_iff.mpr fun hu => Bool.eq_false_iff.mp hfree (hlock hu)
  have hmoves := y.step_moves op
  generalize hy : y.step op = y' at hmoves
  intro hexcl
  cases hmoves with
  | begins hlock hcommand => exact absurd (hlock.symm.trans hexcl) (by decide)
  | @advances i t hi hlock =>
      refine hset hi hexcl fun hafter => ?_
      by_contra hbefore
      have hstays := t.holdsLock_step y.shared (hcommanded t (List.mem_of_getElem? hi))
        (Bool.eq_false_iff.mpr hbefore)
      exact Bool.eq_false_iff.mp hstays hafter
  | turns hi hturn => exact hset hi hexcl hturn.holdsLock
  | @holds hold y' hholds =>
      rw [hholds.frame.1]
      cases hbefore : y.exclusive with
      | true => exact h hbefore
      | false =>
          rcases hold_of_free hbefore hold with hsame | ⟨-, hunlocked⟩
          · have hy' : y' = y := hy.symm.trans hsame
            rw [hy', hbefore] at hexcl
            cases hexcl
          · exact hunlocked
  | _ => exact h hexcl

variable (y) in
/-- A run starts: no id is published, and no call holds the lock. The calls of earlier runs that
have not ended are still in flight. -/
structure StartsRun : Prop where
  commanded : y.Commanded
  stage : y.stage.isResetting = false
  unlocked : ∀ t ∈ y.threads, t.holdsLock = false
  completed : y.shared.rt.completedGeneration = 0
  failed : y.shared.rt.failedGeneration = 0

/-- A start without calls is one. -/
theorem started_startsRun (s : Session) (b : Bringup) : (started s b).StartsRun := by
  have hids := started_ids s b
  simp only [ids, Prod.mk.injEq] at hids
  exact {
    commanded := fun t ht => absurd ht List.not_mem_nil
    stage := rfl
    unlocked := fun t ht => absurd ht List.not_mem_nil
    completed := hids.2.1
    failed := hids.2.2 }

/-- What holds in every history of a controller. -/
structure Restarting (y : Process) : Prop where
  commanded : y.Commanded
  order : y.ResetOrder
  exclusion : y.Exclusion

theorem Restarting.step (h : y.Restarting) (op : Op) : (y.step op).Restarting where
  commanded := h.commanded.step op
  order := h.order.step op
  exclusion := h.exclusion.step h.commanded op

/-- Every history of a controller that comes to the launch of a Runner starts a run with it. -/
theorem startsRun_launch (config : ServoConfig) (params : RtParams) (text : Controller → String)
    (rt : Controller) (before : List Op) {b : Bringup}
    (hstage : (runFrom Process.step { shared := .new config params text rt } before).stage =
      .resetting [] b) :
    ((runFrom Process.step { shared := .new config params text rt } before).step
      (.hold .launch)).StartsRun := by
  have hhistory :
      (runFrom Process.step { shared := .new config params text rt } before).Restarting := by
    refine runFrom_induction (I := Restarting) ?_ fun y op h => h.step op
    exact {
      commanded := fun t ht => absurd ht List.not_mem_nil
      order := fun todo b hstage => Stage.noConfusion hstage
      exclusion := fun hexcl => by cases hexcl }
  generalize runFrom Process.step { shared := .new config params text rt } before = y at *
  have hstep : y.step (.hold .launch) =
      { y with shared := y.shared.launched b }.atStage .spawned := by
    simp only [step, hold, hstage]
  have hids := (Holds.launches hstage).ids fun hstore => by cases hstore
  obtain ⟨-, -, -, hcompleted, hfailed⟩ := hhistory.order [] b hstage
  simp only [ids, Prod.mk.injEq] at hids
  rw [hstep]
  exact {
    commanded := hhistory.commanded
    stage := rfl
    unlocked := hhistory.exclusion (by rw [exclusive, hstage])
    completed := hids.2.1.trans (hcompleted List.not_mem_nil)
    failed := hids.2.2.trans (hfailed List.not_mem_nil) }

end Process

end ViamEthercat.Servo
