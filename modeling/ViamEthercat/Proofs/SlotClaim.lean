import ViamEthercat.Proofs.Stores
import ViamEthercat.Proofs.OwnMove
import ViamEthercat.Proofs.RunStart

/-!
# `ViamEthercat.Proofs.SlotClaim`: one blocking move in flight

`try_claim_motion_slot` takes the slot when it is free, or when it holds the id of a move that the
loop published as completed or failed. The waiter of a completed move does not release the slot:
the next claim does that. `completed_generation` and `failed_generation` hold the last such id
only, and they may have moved on when the exchange runs.

`Claims` records the calls that hold a claim and every id that was published. A claim is live while
its id is not among these, and then the slot is its own (`single_in_flight`). The exchange compares
the slot with an id that was read as terminal, and what was published stays so.

The ids are `uint32_t`, start again with every run, and 0 is a free slot. So this needs that the
ids of the run do not wrap, and that no call of an earlier run that may still release the slot
holds the id that a call of this run claims it with.
-/

set_option autoImplicit false

namespace ViamEthercat.Servo

open Lib Controller

/-- At `release_motion_slot`. -/
def Pc.releases : Pc → Bool
  | .release _ | .releaseHomed _ => true
  | _ => false

/-- The id that a store publishes as completed or failed. -/
def RtStore.terminal? : RtStore → Option Nat
  | .completed g => some g
  | .failed g => some g
  | _ => none

namespace Machine

variable (m : Machine)

/-- The call that this is the next operation of, when that is one of `now`. -/
def caller? (now : Pc → Bool) : AtomicOp → Option Nat
  | .api (.advance i) => if m.process.threads[i]?.any fun t => now t.pc then some i else none
  | _ => none

/-- The call whose exchange succeeds in this step. -/
def claimer? : AtomicOp → Option Nat :=
  m.caller? fun pc => decide (pc = .exchange m.shared.motionSlot)

/-- The call that runs `release_motion_slot` in this step. -/
def releaser? : AtomicOp → Option Nat := m.caller? Pc.releases

/-- A call that takes its move id in this step takes it before the ids wrap. -/
def NoWrap : AtomicOp → Prop
  | .api op => m.process.NoWrap op
  | _ => True

instance (op : AtomicOp) : Decidable (m.NoWrap op) :=
  match op with
  | .api op => inferInstanceAs (Decidable (m.process.NoWrap op))
  | .dispatch _ | .leave _ | .store | .finish => isTrue trivial

/-- The id that this step publishes as completed or failed. -/
def publishes? : AtomicOp → Option Nat
  | .store => m.todo.head?.bind RtStore.terminal?
  | _ => none

end Machine

/-- A machine with the calls that claimed the slot in this run and have not released it, and the
ids that its loop published as completed or failed. -/
structure Claims where
  machine : Machine
  /-- the number of the calls of earlier runs, which are the first ones -/
  earlier : Nat := 0
  holders : List Nat := []
  published : List Nat := []

namespace Claims

/-- A run starts, with the calls that are in flight. -/
def start (y : Process) : Claims := { machine := { process := y }, earlier := y.threads.length }

variable (o : Claims)

def next (op : AtomicOp) : Claims where
  machine := o.machine.step op
  earlier := o.earlier
  holders := (o.machine.claimer? op).toList ++
    o.holders.filter fun i => decide (o.machine.releaser? op ≠ some i)
  published := (o.machine.publishes? op).toList ++ o.published

def threads : List Thread := o.machine.process.threads

/-- The call `i` holds a claim, and its id was not published. -/
def Live (i : Nat) (t : Thread) : Prop :=
  o.threads[i]? = some t ∧ i ∈ o.holders ∧ t.generation ∉ o.published

/-- A single claim is live, and owns the slot. -/
structure SingleInFlight : Prop where
  slot : ∀ i t, o.Live i t → o.machine.shared.motionSlot = t.generation
  unique : ∀ i j t u, o.Live i t → o.Live j u → i = j
  /-- no exchange succeeds while a claim is live -/
  excludes : ∀ op i, o.machine.claimer? op = some i → ∀ j t, ¬ o.Live j t
  /-- a release leaves the slot of another call -/
  releases : ∀ op i j t, o.machine.releaser? op = some i → j ≠ i → j ∈ o.holders →
    o.threads[j]? = some t → o.machine.shared.motionSlot = t.generation →
    (o.machine.step op).shared.motionSlot = t.generation

/-- The condition on one step. A call takes its id before the ids wrap. And no call of an earlier
run that may still release the slot has the id that a call claims it with. -/
def ClaimsFresh (op : AtomicOp) : Prop :=
  o.machine.NoWrap op ∧ ∀ i ∈ o.machine.claimer? op, ∀ t ∈ o.threads[i]?,
    ∀ u ∈ o.threads.take o.earlier, u.pc.mayRelease = true → u.generation ≠ t.generation

instance (op : AtomicOp) : Decidable (o.ClaimsFresh op) :=
  inferInstanceAs (Decidable (_ ∧ ∀ _ ∈ _, ∀ _ ∈ _, ∀ _ ∈ _, _ → _))

/-- In a run without calls of earlier ones it is that the ids do not wrap. -/
theorem claimsFresh_of_noWrap {op : AtomicOp} (hfirst : o.earlier = 0)
    (hwrap : o.machine.NoWrap op) : o.ClaimsFresh op :=
  ⟨hwrap, fun i _ t _ u hu => by simp [hfirst] at hu⟩

end Claims

/-! ### The slot -/

namespace Thread

variable (s : Session) (t : Thread)

/-- The slot changes when an exchange succeeds, and when its owner releases it. -/
theorem step_motionSlot : (t.step s).1.motionSlot = s.motionSlot ∨
    (t.pc = .exchange s.motionSlot ∧ (t.step s).1.motionSlot = t.generation) ∨
    (t.pc.releases = true ∧ s.motionSlot = t.generation) := by
  have hreleased : (s.released t.generation).motionSlot = s.motionSlot ∨
      s.motionSlot = t.generation := by
    unfold Session.released
    split_ifs with h
    · exact .inr h
    · exact .inl rfl
  cases hpc : t.pc
  case exchange cur =>
      by_cases h : s.motionSlot = cur
      · exact .inr (.inl ⟨by rw [h], by simp only [step, hpc, if_pos h]⟩)
      · exact .inl (by simp only [step, hpc, if_neg h])
  case checkMode =>
      simp only [step, hpc]
      split <;> exact .inl rfl
  case push => exact .inl (by simp only [step, hpc, Session.pushed])
  case release =>
      simp only [step, hpc]
      exact hreleased.imp_right fun h => .inr ⟨rfl, h⟩
  case releaseHomed =>
      simp only [step, hpc]
      exact hreleased.imp_right fun h => .inr ⟨rfl, h⟩
  all_goals exact .inl (by simp only [step, hpc])

/-- What the slot was found to be when a call comes to its exchange: free, or terminal. -/
theorem exchange_of_step {cur : Nat} (h : (t.step s).2.pc = .exchange cur) :
    t.verb ≠ .setRpm ∧
      (cur = 0 ∨ cur = s.rt.completedGeneration ∨ cur = s.rt.failedGeneration) := by
  cases hpc : t.pc <;> simp only [step, hpc, atPc] at h
  case loadSlot => exact (t.slotRead_exchange h).imp_right .inl
  case slotCompleted c =>
      split_ifs at h with hcompleted
      · exact (t.slotFree_exchange h).imp_right fun heq => .inr (.inl (heq.trans hcompleted.symm))
  case slotFailed c =>
      split_ifs at h with hfailed
      · exact (t.slotFree_exchange h).imp_right fun heq => .inr (.inr (heq.trans hfailed.symm))
      · cases h
  case exchange c =>
      split_ifs at h
      exact (t.slotRead_exchange h).imp_right .inl
  case checkMode => split at h <;> cases h
  case loadStopping => unfold fails at h; split_ifs at h
  case loadExited => unfold fails at h; split_ifs at h
  case loadFailed => unfold fails at h; split_ifs at h
  case loadFaulted => unfold fails at h; split_ifs at h
  all_goals first
    | cases h
    | split_ifs at h

end Thread

namespace Process

variable {y : Process} {op : Op}

/-- Who changes the slot within a run. -/
theorem motionSlot_step (hrun : op.inRun = true) (hstage : y.stage.isResetting = false) :
    (y.step op).shared.motionSlot = y.shared.motionSlot ∨
      ∃ i t, op = .advance i ∧ y.threads[i]? = some t ∧
        ((t.pc = .exchange y.shared.motionSlot ∧
            (y.step op).shared.motionSlot = t.generation) ∨
          (t.pc.releases = true ∧ y.shared.motionSlot = t.generation)) := by
  have hmoves := y.step_moves op
  generalize y.step op = y' at hmoves ⊢
  cases hmoves with
  | @advances i t hi hlock =>
      refine (t.step_motionSlot y.shared).imp_right fun h => ⟨i, t, rfl, hi, h⟩
  | @dispatches inp =>
      simp only [Session.dispatched]
      split_ifs <;> exact .inl rfl
  | @exits reason hrunning => cases reason <;> exact .inl rfl
  | holds hholds =>
      rcases hholds.of_inRun hrun hstage with ⟨stage, -, rfl⟩ | rfl | ⟨-, rfl⟩ <;> exact .inl rfl
  | _ => exact .inl rfl

/-- A call at its exchange was there before, or has just found the slot free or terminal. -/
theorem exchange_step {i : Nat} {t' : Thread} {cur : Nat}
    (h : (y.step op).threads[i]? = some t') (hpc : t'.pc = .exchange cur) :
    y.threads[i]? = some t' ∨ (t'.verb ≠ .setRpm ∧ (cur = 0 ∨
      cur = y.shared.rt.completedGeneration ∨ cur = y.shared.rt.failedGeneration)) := by
  have hset : ∀ {j u}, (y.threads.set j u)[i]? = some t' →
      y.threads[i]? = some t' ∨ t' = u := by
    intro j u hj
    rw [List.getElem?_set] at hj
    split_ifs at hj
    · exact .inr (Option.some.inj hj).symm
    · exact .inl hj
  have hmoves := y.step_moves op
  generalize y.step op = y' at hmoves h
  cases hmoves with
  | @begins r v command hlock hcommand =>
      by_cases hlt : i < y.threads.length
      · rw [begun, List.getElem?_append_left hlt] at h
        exact .inl h
      · -- The call that starts is not at its exchange.
        rw [begun, List.getElem?_append_right (not_lt.mp hlt)] at h
        obtain rfl := List.mem_singleton.mp (List.mem_of_getElem? h)
        dsimp only at hpc
        split_ifs at hpc
  | @advances j t hj hlock =>
      rcases hset h with hold | rfl
      · exact .inl hold
      · rw [(t.step_call y.shared).1]
        exact .inr (t.exchange_of_step y.shared hpc)
  | turns hj hturn =>
      rcases hset h with hold | rfl
      · exact .inl hold
      · exact .inr ((hturn.exchange cur hpc).imp_right .inl)
  | holds hholds => exact .inl (hholds.frame.1 ▸ h)
  | _ => exact .inl h

end Process

/-! ### The calls of earlier runs -/

namespace Thread

variable (s : Session) (t : Thread)

/-- A call that is past its release does not come back to one. -/
theorem mayRelease_step (h : (t.step s).2.pc.mayRelease = true) : t.pc.mayRelease = true := by
  cases hpc : t.pc
  case restore => simp [step, hpc, atPc, Pc.mayRelease] at h
  case done => simp [step, hpc, Pc.mayRelease] at h
  all_goals rfl

end Thread

namespace Process

variable {y : Process}

/-- A call that holds no lock was there before the step, with its id, and no earlier in its
course. -/
theorem unlocked_step (hcommanded : y.Commanded) {op : Op} {j : Nat} {u' : Thread}
    (hlt : j < y.threads.length)
    (hunlocked : ∀ u, y.threads[j]? = some u → u.holdsLock = false)
    (hj : (y.step op).threads[j]? = some u') :
    u'.holdsLock = false ∧ ∃ u, y.threads[j]? = some u ∧ u'.generation = u.generation ∧
      (u'.pc.mayRelease = true → u.pc.mayRelease = true) := by
  rcases y.getElem?_step hj with hold | ⟨rfl, -⟩ | ⟨u, hold, -, rfl⟩ | ⟨u, pc, hold, rfl, hturn⟩
  · exact ⟨hunlocked u' hold, u', hold, rfl, id⟩
  · exact absurd hlt (lt_irrefl _)
  · have hfree := hunlocked u hold
    have htaken : u.pc ≠ .takeId := fun hpc => by simp [Thread.holdsLock, hpc] at hfree
    refine ⟨u.holdsLock_step y.shared (hcommanded u (List.mem_of_getElem? hold)) hfree, u, hold,
      ?_, u.mayRelease_step y.shared⟩
    rw [u.step_generation, if_neg htaken]
  · refine ⟨Bool.eq_false_iff.mpr fun hlock => ?_, u, hold, rfl, hturn.mayRelease⟩
    exact Bool.eq_false_iff.mp (hunlocked u hold) (hturn.holdsLock hlock)

end Process

/-! ### The invariant -/

namespace Machine

variable {m : Machine} {op : AtomicOp}

/-- The RT thread's own operations leave the calls, the slot and the holder of the lock. -/
theorem process_step (hno : ∀ op', op ≠ .api op') :
    (m.step op).process.threads = m.process.threads ∧
      (m.step op).process.stage = m.process.stage ∧
      (m.step op).shared.motionSlot = m.shared.motionSlot ∧
      (m.step op).shared.nextGeneration = m.shared.nextGeneration := by
  have hacts := m.step_acts op
  generalize m.step op = m' at hacts
  cases hacts with
  | api => exact absurd rfl (hno _)
  | @stores st todo htodo => cases st <;> exact ⟨rfl, rfl, rfl, rfl⟩
  | _ => exact ⟨rfl, rfl, rfl, rfl⟩

theorem caller_eq_some_iff {now : Pc → Bool} {i : Nat} : m.caller? now op = some i ↔
    op = .api (.advance i) ∧ ∃ t, m.process.threads[i]? = some t ∧ now t.pc = true := by
  cases op with
  | api op =>
      cases op with
      | advance j =>
          simp only [caller?, Option.any_eq_true, AtomicOp.api.injEq, Op.advance.injEq,
            Option.ite_none_right_eq_some, Option.some.injEq]
          constructor
          · rintro ⟨h, rfl⟩
            exact ⟨rfl, h⟩
          · rintro ⟨rfl, h⟩
            exact ⟨h, rfl⟩
      | _ => simp [caller?]
  | _ => simp [caller?]

/-- A step of the RT thread is no call's. -/
theorem caller_rt {now : Pc → Bool} (hno : ∀ op', op ≠ .api op') : m.caller? now op = none := by
  cases op with
  | api op => exact absurd rfl (hno op)
  | _ => rfl

/-- The ids that the RT thread publishes as completed and failed: as before, or those of this
step. -/
theorem terminal_step (hno : ∀ op', op ≠ .api op') :
    ((m.step op).shared.rt.completedGeneration = m.shared.rt.completedGeneration ∨
        m.publishes? op = some (m.step op).shared.rt.completedGeneration) ∧
      ((m.step op).shared.rt.failedGeneration = m.shared.rt.failedGeneration ∨
        m.publishes? op = some (m.step op).shared.rt.failedGeneration) := by
  have hacts := m.step_acts op
  generalize m.step op = m' at hacts
  cases hacts with
  | api => exact absurd rfl (hno _)
  | @stores st todo htodo =>
      simp only [publishes?, htodo]
      cases st with
      | completed g => exact ⟨.inr rfl, .inl rfl⟩
      | failed g => exact ⟨.inl rfl, .inr rfl⟩
      | _ => exact ⟨.inl rfl, .inl rfl⟩
  | _ => exact ⟨.inl rfl, .inl rfl⟩

end Machine

namespace Claims

variable {o : Claims} {op : AtomicOp}

/-- What holds between the steps of a run. -/
structure Owned (o : Claims) : Prop where
  commanded : o.machine.process.Commanded
  numbered : o.machine.process.Numbered o.earlier
  stage : o.machine.process.stage.isResetting = false
  ahead : o.earlier ≤ o.threads.length
  /-- a call of an earlier run is past its claim -/
  unlocked : ∀ j < o.earlier, ∀ u, o.threads[j]? = some u → u.holdsLock = false
  /-- no such call that may release the slot has the id of a claim -/
  apart : ∀ i ∈ o.holders, ∀ t, o.threads[i]? = some t → ∀ j < o.earlier, ∀ u,
    o.threads[j]? = some u → u.pc.mayRelease = true → u.generation ≠ t.generation
  holders : ∀ i ∈ o.holders, o.earlier ≤ i ∧ ∃ t, o.threads[i]? = some t ∧ t.generation ≠ 0
  owner : ∀ i t, o.Live i t → o.machine.shared.motionSlot = t.generation
  /-- a call compares the slot with an id that was published -/
  compares : ∀ t ∈ o.threads, ∀ cur, t.pc = .exchange cur →
    t.verb ≠ .setRpm ∧ (cur = 0 ∨ cur ∈ o.published)
  completed : o.machine.shared.rt.completedGeneration = 0 ∨
    o.machine.shared.rt.completedGeneration ∈ o.published
  failed : o.machine.shared.rt.failedGeneration = 0 ∨
    o.machine.shared.rt.failedGeneration ∈ o.published

theorem mem_published_next {g : Nat} (h : g ∈ o.published) : g ∈ (o.next op).published :=
  List.mem_append_right _ h

/-- An operation of the RT thread: what it publishes as terminal is noted. -/
theorem Owned.next_rt (h : o.Owned) (hno : ∀ op', op ≠ .api op') : (o.next op).Owned := by
  obtain ⟨hthreads, hstage, hslot, hlast⟩ := Machine.process_step (m := o.machine) hno
  obtain ⟨hcompleted, hfailed⟩ := Machine.terminal_step (m := o.machine) hno
  have hthreads' : (o.next op).threads = o.threads := hthreads
  have hholders : (o.next op).holders = o.holders := by
    simp [next, Machine.claimer?, Machine.releaser?, Machine.caller_rt hno]
  have hterminal : ∀ {g g' : Nat}, (g' = 0 ∨ g' ∈ o.published) →
      (g = g' ∨ o.machine.publishes? op = some g) → g = 0 ∨ g ∈ (o.next op).published := by
    intro g g' hbefore hafter
    rcases hafter with rfl | hpublishes
    · exact hbefore.imp_right mem_published_next
    · exact .inr (List.mem_append_left _ (by rw [hpublishes]; exact List.mem_singleton.mpr rfl))
  exact {
    commanded := fun t ht => h.commanded t (hthreads ▸ ht)
    numbered := ⟨
      fun i t hle hi => hlast.symm ▸ h.numbered.bounded i t hle (hthreads ▸ hi),
      fun i t hle hi => h.numbered.taken i t hle (hthreads ▸ hi),
      fun i j t u hle hle' hi hj =>
        h.numbered.distinct i j t u hle hle' (hthreads ▸ hi) (hthreads ▸ hj)⟩
    stage := hstage.symm ▸ h.stage
    ahead := by
      rw [hthreads']
      exact h.ahead
    unlocked := fun j hj u hu => h.unlocked j hj u (hthreads' ▸ hu)
    apart := fun i hi t ht j hj u hu => by
      rw [hthreads'] at ht hu
      exact h.apart i (hholders ▸ hi) t ht j hj u hu
    holders := fun i hi => by
      rw [hthreads']
      exact h.holders i (hholders ▸ hi)
    owner := fun i t hlive => by
      obtain ⟨hi, hmem, hlive⟩ := hlive
      rw [hthreads'] at hi
      rw [hholders] at hmem
      exact hslot.trans (h.owner i t ⟨hi, hmem, fun hg => hlive (mem_published_next hg)⟩)
    compares := fun t ht cur hpc => by
      rw [hthreads'] at ht
      exact (h.compares t ht cur hpc).imp_right fun hcur => hcur.imp_right mem_published_next
    completed := hterminal h.completed hcompleted
    failed := hterminal h.failed hfailed }

theorem mem_holders_next {i : Nat} : i ∈ (o.next op).holders ↔
    o.machine.claimer? op = some i ∨ (i ∈ o.holders ∧ o.machine.releaser? op ≠ some i) := by
  simp [next]

/-- A call that holds a claim keeps its move id. -/
theorem Owned.extends (h : o.Owned) {i : Nat} {t : Thread} (hi : o.threads[i]? = some t)
    (hne : t.generation ≠ 0) (op : Op) :
    ∃ t', (o.machine.process.step op).threads[i]? = some t' ∧ t'.generation = t.generation := by
  obtain ⟨t', hi', -, hgeneration⟩ := Process.extends_step hi op
  have hwf := h.commanded t (List.mem_of_getElem? hi)
  exact ⟨t', hi', hgeneration fun hpc => hne (hwf.fresh hpc)⟩

/-- The exchange of a call that succeeds finds no live claim. -/
theorem Owned.claimer (h : o.Owned) {i : Nat} (hclaimer : o.machine.claimer? op = some i)
    (j : Nat) (u : Thread) : ¬ o.Live j u := by
  rintro ⟨hj, hmem, hlive⟩
  obtain ⟨-, t, hi, hpc⟩ := Machine.caller_eq_some_iff.mp hclaimer
  obtain ⟨-, hcur⟩ := h.compares t (List.mem_of_getElem? hi) _ (of_decide_eq_true hpc)
  rw [h.owner j u ⟨hj, hmem, hlive⟩] at hcur
  obtain ⟨-, u', hj', hne⟩ := h.holders j hmem
  cases hj.symm.trans hj'
  exact hcur.elim hne hlive

/-- The call that claims the slot is one of the run, and has a move id. -/
theorem Owned.claims (h : o.Owned) {i : Nat} (hclaimer : o.machine.claimer? op = some i) :
    ∃ t, o.threads[i]? = some t ∧ o.earlier ≤ i ∧ t.generation ≠ 0 ∧
      t.pc = .exchange o.machine.shared.motionSlot := by
  obtain ⟨-, t, hi, hpc⟩ := Machine.caller_eq_some_iff.mp hclaimer
  have hpc := of_decide_eq_true hpc
  have hle : o.earlier ≤ i := by
    by_contra hlt
    have hunlocked := h.unlocked i (not_le.mp hlt) t hi
    rw [Thread.holdsLock, hpc] at hunlocked
    cases hunlocked
  refine ⟨t, hi, hle, ?_, hpc⟩
  refine h.numbered.taken i t hle hi (h.compares t (List.mem_of_getElem? hi) _ hpc).1 ?_
  intro htake
  cases hpc.symm.trans htake

/-- A release of another call leaves the slot of a call that holds a claim. -/
theorem Owned.releaser (h : o.Owned) {i j : Nat} {t : Thread}
    (hreleaser : o.machine.releaser? op = some i) (hji : j ≠ i) (hmem : j ∈ o.holders)
    (hj : o.threads[j]? = some t) (hslot : o.machine.shared.motionSlot = t.generation) :
    (o.machine.step op).shared.motionSlot = t.generation := by
  obtain ⟨rfl, u, hi, hpc⟩ := Machine.caller_eq_some_iff.mp hreleaser
  obtain ⟨hle, t', hj', hne⟩ := h.holders j hmem
  cases hj.symm.trans hj'
  have hstep : (o.machine.step (.api (.advance i))).shared =
      (o.machine.process.step (.advance i)).shared := rfl
  rw [hstep]
  have hrun : (Op.advance i).inRun = true := rfl
  rcases Process.motionSlot_step hrun h.stage with
    hsame | ⟨k, u', hk, hk', ⟨hexchange, -⟩ | ⟨-, howns⟩⟩
  · exact hsame.trans hslot
  · cases hk
    cases hi.symm.trans hk'
    rw [hexchange] at hpc
    cases hpc
  · -- The slot holds the id of both calls.
    cases hk
    cases hi.symm.trans hk'
    have heq : t.generation = u.generation := hslot.symm.trans howns
    by_cases hearlier : i < o.earlier
    · have hmay : u.pc.mayRelease = true := by
        cases hu : u.pc <;> rw [hu] at hpc <;> first | rfl | cases hpc
      exact absurd heq.symm (h.apart j hmem t hj i hearlier u hi hmay)
    · exact absurd (h.numbered.distinct j i t u hle (not_lt.mp hearlier) hj hi heq hne) hji

/-- The slot of a live claim, after an operation that does not release it. -/
theorem Owned.slot_api (h : o.Owned) {op : Op} (hrun : op.inRun = true)
    (hstep : o.machine.step (.api op) = { o.machine with process := o.machine.process.step op })
    {i : Nat} {t : Thread} (hlive : o.Live i t)
    (hreleaser : o.machine.releaser? (.api op) ≠ some i) :
    (o.machine.process.step op).shared.motionSlot = t.generation := by
  have hslot := h.owner i t hlive
  rcases Process.motionSlot_step (y := o.machine.process) hrun h.stage with
    hsame | ⟨j, u, rfl, hj, ⟨hpc, -⟩ | ⟨hpc, howns⟩⟩
  · exact hsame.trans hslot
  · have hclaimer : o.machine.claimer? (.api (.advance j)) = some j :=
      Machine.caller_eq_some_iff.mpr ⟨rfl, u, hj, decide_eq_true hpc⟩
    exact absurd hlive (h.claimer hclaimer i t)
  · have hreleases : o.machine.releaser? (.api (.advance j)) = some j :=
      Machine.caller_eq_some_iff.mpr ⟨rfl, u, hj, hpc⟩
    have hij : i ≠ j := fun heq => hreleaser (heq ▸ hreleases)
    have hafter := h.releaser hreleases hij hlive.2.1 hlive.1 hslot
    rw [hstep] at hafter
    exact hafter

/-- A call whose exchange succeeds owns the slot then. -/
theorem Owned.claims_api (h : o.Owned) {op : Op} {i : Nat}
    (hclaimer : o.machine.claimer? (.api op) = some i) :
    ∃ t', (o.machine.process.step op).threads[i]? = some t' ∧ t'.generation ≠ 0 ∧
      (o.machine.process.step op).shared.motionSlot = t'.generation := by
  obtain ⟨t, hi, -, hne, hpc⟩ := h.claims hclaimer
  obtain ⟨t', hi', hgeneration⟩ := h.extends hi hne op
  obtain ⟨hop, -⟩ := Machine.caller_eq_some_iff.mp hclaimer
  cases hop
  refine ⟨t', hi', hgeneration ▸ hne, hgeneration ▸ ?_⟩
  have hi : o.machine.process.threads[i]? = some t := hi
  have hpc : t.pc = .exchange o.machine.process.shared.motionSlot := hpc
  simp [Process.step, hi, Process.advance, Thread.step, hpc]

/-- A call that holds a claim is there after the step, with its move id. -/
theorem Owned.keeps_api (h : o.Owned) (op : Op) {i : Nat} (hi : i ∈ o.holders) :
    ∃ t, o.threads[i]? = some t ∧ t.generation ≠ 0 ∧ ∃ t',
      (o.machine.process.step op).threads[i]? = some t' ∧ t'.generation = t.generation := by
  obtain ⟨-, t, ht, hne⟩ := h.holders i hi
  exact ⟨t, ht, hne, h.extends ht hne op⟩

/-- A call of an earlier run after an operation. -/
theorem Owned.earlier_api (h : o.Owned) {op : Op} {j : Nat} (hj : j < o.earlier) {u' : Thread}
    (hu' : (o.machine.process.step op).threads[j]? = some u') :
    u'.holdsLock = false ∧ ∃ u, o.threads[j]? = some u ∧ u'.generation = u.generation ∧
      (u'.pc.mayRelease = true → u.pc.mayRelease = true) :=
  Process.unlocked_step h.commanded (hj.trans_le h.ahead) (h.unlocked j hj) hu'

/-- The claims after an operation have other ids than the calls of earlier runs. -/
theorem Owned.apart_api (h : o.Owned) {op : Op} (hfresh : o.ClaimsFresh (.api op)) {i : Nat}
    (hi : i ∈ (o.next (.api op)).holders) {t' : Thread}
    (ht' : (o.machine.process.step op).threads[i]? = some t') {j : Nat} (hj : j < o.earlier)
    {u' : Thread} (hu' : (o.machine.process.step op).threads[j]? = some u')
    (hmay : u'.pc.mayRelease = true) : u'.generation ≠ t'.generation := by
  obtain ⟨-, u, hu, hgeneration, hbefore⟩ := h.earlier_api hj hu'
  rw [hgeneration]
  rcases mem_holders_next.mp hi with hclaimer | ⟨hi, -⟩
  · -- The claim is made in this step, with the id that the condition speaks of.
    obtain ⟨t, ht, -, hne, -⟩ := h.claims hclaimer
    obtain ⟨t'', ht'', heq⟩ := h.extends ht hne op
    cases ht'.symm.trans ht''
    rw [heq]
    have hearlier : u ∈ o.threads.take o.earlier :=
      List.mem_of_getElem? (i := j) (by rw [List.getElem?_take_of_lt hj, hu])
    exact hfresh.2 i hclaimer t ht u hearlier (hbefore hmay)
  · obtain ⟨t, ht, -, t'', ht'', heq⟩ := h.keeps_api op hi
    cases ht'.symm.trans ht''
    rw [heq]
    exact h.apart i hi t ht j hj u hu (hbefore hmay)

/-- An operation of an API thread: when its exchange succeeds the slot is its own, and what it
releases is its own. -/
theorem Owned.next_api (h : o.Owned) {op : Op} (hrun : op.inRun = true)
    (hfresh : o.ClaimsFresh (.api op))
    (hstep : o.machine.step (.api op) = { o.machine with process := o.machine.process.step op })
    (hdispatch : ∀ inp, op ≠ .dispatch inp) : (o.next (.api op)).Owned := by
  have hmachine : (o.next (.api op)).machine.process = o.machine.process.step op :=
    congrArg Machine.process hstep
  have hids : (o.machine.process.step op).shared.rt.ids = o.machine.process.shared.rt.ids :=
    Process.step_ids_inRun hrun h.stage hdispatch
  simp only [ids, Prod.mk.injEq] at hids
  constructor
  case commanded => exact hmachine ▸ h.commanded.step op
  case numbered => exact hmachine ▸ h.numbered.step hrun h.stage hfresh.1
  case stage => exact hmachine ▸ Process.step_isResetting hrun h.stage
  case ahead =>
    rw [threads, hmachine]
    exact h.ahead.trans (o.machine.process.threads_length_le op)
  case unlocked =>
    intro j hj u' hu'
    rw [threads, hmachine] at hu'
    exact (h.earlier_api hj hu').1
  case apart =>
    intro i hi t' ht' j hj u' hu'
    rw [threads, hmachine] at ht' hu'
    exact h.apart_api hfresh hi ht' hj hu'
  case holders =>
    intro i hi
    rw [threads, hmachine]
    rcases mem_holders_next.mp hi with hclaimer | ⟨hi, -⟩
    · obtain ⟨-, -, hle, -⟩ := h.claims hclaimer
      obtain ⟨t', hi', hne, -⟩ := h.claims_api hclaimer
      exact ⟨hle, t', hi', hne⟩
    · obtain ⟨t, -, hne, t', hi', hgeneration⟩ := h.keeps_api op hi
      exact ⟨(h.holders i hi).1, t', hi', hgeneration ▸ hne⟩
  case owner =>
    rintro i t' ⟨hi', hi, hlive⟩
    rw [threads, hmachine] at hi'
    rw [Machine.shared, hmachine]
    rcases mem_holders_next.mp hi with hclaimer | ⟨hi, hreleaser⟩
    · obtain ⟨u, hu, -, hslot⟩ := h.claims_api hclaimer
      cases hi'.symm.trans hu
      exact hslot
    · obtain ⟨t, ht, -, u, hu, hgeneration⟩ := h.keeps_api op hi
      cases hi'.symm.trans hu
      rw [hgeneration] at hlive ⊢
      exact h.slot_api hrun hstep ⟨ht, hi, hlive⟩ hreleaser
  case compares =>
    intro t' ht' cur hpc
    rw [threads, hmachine] at ht'
    obtain ⟨i, hi⟩ := List.mem_iff_getElem?.mp ht'
    rcases Process.exchange_step hi hpc with hold | ⟨hset, rfl | rfl | rfl⟩
    · exact h.compares t' (List.mem_of_getElem? hold) cur hpc
    · exact ⟨hset, .inl rfl⟩
    · exact ⟨hset, h.completed⟩
    · exact ⟨hset, h.failed⟩
  case completed =>
    rw [Machine.shared, hmachine, hids.2.1]
    exact h.completed
  case failed =>
    rw [Machine.shared, hmachine, hids.2.2]
    exact h.failed

theorem Owned.next (h : o.Owned) (hrun : op.inRun = true) (hfresh : o.ClaimsFresh op) :
    (o.next op).Owned := by
  rcases exists_or_forall_not fun op' => op = .api op' with ⟨op, rfl⟩ | hno
  · cases op with
    | dispatch inp =>
        have hstays : o.next (.api (.dispatch inp)) = o := by
          simp [Claims.next, Machine.claimer?, Machine.releaser?, Machine.caller?,
            Machine.publishes?, Machine.step]
        exact hstays.symm ▸ h
    | exit reason =>
        have hstays : o.next (.api (.exit reason)) = o := by
          simp [Claims.next, Machine.claimer?, Machine.releaser?, Machine.caller?,
            Machine.publishes?, Machine.step]
        exact hstays.symm ▸ h
    | _ => exact h.next_api hrun hfresh rfl fun inp heq => by cases heq
  · exact h.next_rt hno

/-- The start of a run: every call is one of an earlier run. -/
theorem Owned.start {y : Process} (h : y.StartsRun) : Owned (.start y) := by
  have hnone : ∀ {i : Nat} {t : Thread}, y.threads.length ≤ i → y.threads[i]? ≠ some t := by
    intro i t hle hi
    rw [List.getElem?_eq_none hle] at hi
    cases hi
  exact {
    commanded := h.commanded
    numbered := ⟨fun i t hle hi => absurd hi (hnone hle), fun i t hle hi => absurd hi (hnone hle),
      fun i j t u hle _ hi => absurd hi (hnone hle)⟩
    stage := h.stage
    ahead := le_rfl
    unlocked := fun j _ u hu => h.unlocked u (List.mem_of_getElem? hu)
    apart := fun i hi => absurd hi List.not_mem_nil
    holders := fun i hi => absurd hi List.not_mem_nil
    owner := fun i t hlive => absurd hlive.2.1 List.not_mem_nil
    compares := fun t ht cur hpc => by
      have hunlocked := h.unlocked t ht
      rw [Thread.holdsLock, hpc] at hunlocked
      cases hunlocked
    completed := .inl h.completed
    failed := .inl h.failed }

theorem Owned.singleInFlight (h : o.Owned) : o.SingleInFlight where
  slot := h.owner
  unique := by
    intro i j t u hi hj
    obtain ⟨hle, t', ht', hne⟩ := h.holders i hi.2.1
    cases hi.1.symm.trans ht'
    have heq := (h.owner i t hi).symm.trans (h.owner j u hj)
    exact h.numbered.distinct i j t u hle (h.holders j hj.2.1).1 hi.1 hj.1 heq hne
  excludes := fun op i hclaimer => h.claimer hclaimer
  releases := fun op i j t hreleaser hji hmem hj hslot => h.releaser hreleaser hji hmem hj hslot

end Claims

/-- Within a run, whatever the interleaving of its calls, and of those that earlier runs left, with
the stores of the loop: the slot is that of the live claim, there is at most one, no exchange
succeeds while there is one, and a release leaves a slot that another call owns. The ids must not
wrap, and no call of an earlier run may still release the slot by the id of a claim. -/
theorem single_in_flight (y : Process) (hstart : y.StartsRun) (ops : List AtomicOp)
    (hops : AllSteps Claims.next (fun o op => op.inRun = true ∧ o.ClaimsFresh op) (.start y) ops) :
    (runFrom Claims.next (.start y) ops).SingleInFlight := by
  have howned : (runFrom Claims.next (.start y) ops).Owned := by
    refine runFrom_of_allSteps (.start hstart) ?_ hops
    rintro o op h ⟨hrun, hfresh⟩
    exact h.next hrun hfresh
  exact howned.singleInFlight

/-- Cycles as the drive answers them, with more operations than they have stores. -/
def storedTicks (ticks : List Tick) : List AtomicOp :=
  ticks.flatMap fun t => .dispatch t.inp :: List.replicate 12 .store

/-- A `home` claims the slot, an SDO transfer of it fails, and it is suspended at its release. The
loop is stopped, and the next run is up to its launch. -/
def homeLeftBehind : List Op :=
  .hold .lock :: Process.restartOps profileBringup ++ .hold .unlock :: dispatches (climb 1 7) ++
    .call .home :: List.replicate 3 (.advance 0) ++ .homeFails 0 "timeout" :: .advance 0 ::
    stopOps ++ .hold (.reset profileBringup) :: List.replicate 10 (.hold .store)

/-- The next run, as it starts. -/
def afterHome : Process :=
  (runFrom Process.step { shared := profileSession } homeLeftBehind).step (.hold .launch)

theorem afterHome_startsRun : afterHome.StartsRun :=
  Process.startsRun_launch profileConfig profileBench (fun _ => "") profileController
    homeLeftBehind (b := profileBringup) rfl

/-- The claim of a move of the next run, which has the id of that `home`. -/
def reusedId : List AtomicOp :=
  .api (.hold .unlock) :: .api (.call (.goTo (.fin 100) (.fin 1))) ::
    List.replicate 3 (.api (.advance 1))

/-- The `home` releases its slot, and then a move claims it by the same id. -/
theorem reused_id_live :
    let o := runFrom Claims.next (.start afterHome) (.api (.advance 0) :: reusedId)
    o.holders = [1] ∧ o.threads.map Thread.generation = [1, 1] ∧
      o.machine.shared.motionSlot = 1 ∧ o.SingleInFlight :=
  ⟨by decide +kernel, by decide +kernel, by decide +kernel,
    single_in_flight afterHome afterHome_startsRun (.api (.advance 0) :: reusedId)
      (by decide +kernel)⟩

/-- The move claims the slot first. The `home` then frees it under the live claim. -/
theorem reused_id_freed : ¬ ∀ (y : Process) (ops : List AtomicOp), y.StartsRun →
    (∀ op ∈ ops, op.inRun = true) →
    (runFrom Claims.next (.start y) ops).SingleInFlight := by
  intro h
  have hsingle := h afterHome (reusedId ++ [.api (.advance 0)]) afterHome_startsRun
    (by decide +kernel)
  let o := runFrom Claims.next (.start afterHome) (reusedId ++ [.api (.advance 0)])
  obtain ⟨t, ht, hgeneration⟩ : ∃ t, o.threads[1]? = some t ∧ t.generation = 1 :=
    ⟨o.threads[1]?.get (by decide +kernel), by simp, by decide +kernel⟩
  have hslot := hsingle.slot 1 t ⟨ht, by decide +kernel, by rw [hgeneration]; decide +kernel⟩
  rw [hgeneration] at hslot
  exact absurd hslot (by decide +kernel)

end ViamEthercat.Servo
