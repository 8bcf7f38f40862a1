import ViamEthercat.Proofs.Threads
import ViamEthercat.Proofs.Discard

/-!
# `ViamEthercat.Proofs.OwnMove`: what a blocking move returns for

`await_move` returns when the completed id is at least its own, or the active one greater. Ids
are handed out before the slot is claimed, so a move can be claimed after a later one: it then
returns at once, for the completion of the other. And a move that was failed returns as
superseded when the next one is adopted before its waiter looks.

`Observed` records which targets the loop adopted and which of them it published as completed.
`move_returns_for_itself`: within a run a move returns only for a completion of its own target,
when every move that pushes finds no later id active or completed, every cycle that adopts
a target finds the earlier moves that still wait completed, and the ids do not wrap.
-/

set_option autoImplicit false

namespace ViamEthercat.Servo

open Lib Controller

/-- A process with the targets that its loop adopted, and those it then published as
completed. -/
structure Observed where
  process : Process
  adopted : List SetTarget := []
  finished : List SetTarget := []

namespace Process

variable (y : Process)

/-- The target that a step adopts. -/
def adopts? : Op → Option SetTarget
  | .dispatch inp => if y.drains (.dispatch inp) then
        (drain y.shared.queue).setTarget.filter
          fun u => decide (u.generation ≠ y.shared.rt.activeGeneration)
      else none
  | _ => none

/-- A move that pushes finds no later id active, and none completed from its own on. A cycle
that adopts a target finds each move of an earlier id that waits completed. -/
def InOrder : Op → Prop
  | .advance i => ∀ t ∈ y.pusher? (.advance i), t.verb.isMove = true →
      y.shared.rt.activeGeneration ≤ t.generation ∧
        y.shared.rt.completedGeneration < t.generation
  | .dispatch inp => ∀ u ∈ y.adopts? (.dispatch inp), ∀ t ∈ y.threads, t.verb.isMove = true →
      t.pc.waits = true → t.generation < u.generation →
        t.generation ≤ y.shared.rt.completedGeneration
  | _ => True

instance (op : Op) : Decidable (y.InOrder op) :=
  match op with
  | .advance _ => inferInstanceAs (Decidable (∀ _ ∈ _, _ → _ ∧ _))
  | .dispatch _ => inferInstanceAs (Decidable (∀ _ ∈ _, ∀ _ ∈ _, _ → _ → _ → _))
  | .call _ | .setZero _ | .exchangeFails _ | .homeFails _ _ | .exit _ | .hold _ =>
      isTrue trivial

end Process

namespace Observed

variable (o : Observed)

/-- A step of the process: an adopted target is noted, and when the loop publishes a completion,
the adopted target of that id. -/
def next (op : Op) : Observed :=
  let y := o.process.step op
  let adopted := (o.process.adopts? op).toList ++ o.adopted
  { process := y
    adopted := adopted
    finished :=
      if y.shared.rt.completedGeneration ≠ o.process.shared.rt.completedGeneration then
        adopted.filter (fun u => u.generation = y.shared.rt.completedGeneration) ++ o.finished
      else o.finished }

/-- A move that returns in this step was published as completed, after its own target was
adopted. -/
def ReturnsOwn : Op → Prop
  | .advance i => ∀ t ∈ o.process.threads[i]?, t.verb.isMove = true → t.pc ≠ .done .returned →
      (t.step o.process.shared).2.pc = .done .returned →
      ∃ u ∈ o.finished, t.command t.generation = .setTarget u
  | _ => True

instance (op : Op) : Decidable (o.ReturnsOwn op) :=
  match op with
  | .advance _ => inferInstanceAs (Decidable (∀ _ ∈ _, _ → _ → _ → ∃ _ ∈ _, _))
  | .call _ | .setZero _ | .dispatch _ | .exchangeFails _ | .homeFails _ _ | .exit _
  | .hold _ => isTrue trivial

end Observed

/-! ### Move ids and their calls -/

namespace Process

variable (y : Process)

/-- A call took the move id of the target, and pushes it. -/
def Issued (u : SetTarget) : Prop :=
  ∃ t ∈ y.threads, t.generation ≠ 0 ∧ t.command t.generation = .setTarget u

/-- Each move id is that of one call, among the calls from the place `first` on: the calls
ahead of it are those of an earlier run. -/
structure Numbered (first : Nat) : Prop where
  bounded : ∀ (i : Nat) (t : Thread), first ≤ i → y.threads[i]? = some t →
    t.generation ≤ y.shared.nextGeneration
  taken : ∀ (i : Nat) (t : Thread), first ≤ i → y.threads[i]? = some t → t.verb ≠ .setRpm →
    t.pc ≠ .takeId → t.generation ≠ 0
  distinct : ∀ (i j : Nat) (t u : Thread), first ≤ i → first ≤ j → y.threads[i]? = some t →
    y.threads[j]? = some u → t.generation = u.generation → t.generation ≠ 0 → i = j

variable {y} {op : Op}

theorem Issued.step {u : SetTarget} (h : y.Issued u) (hcommanded : y.Commanded) (op : Op) :
    (y.step op).Issued u := by
  obtain ⟨t, ht, hne, hcommand⟩ := h
  obtain ⟨i, hi⟩ := List.mem_iff_getElem?.mp ht
  obtain ⟨t', hi', hcommand', hgeneration⟩ := extends_step hi op
  have hsame := hgeneration fun hpc => hne ((hcommanded t ht).fresh hpc)
  exact ⟨t', List.mem_of_getElem? hi', hsame ▸ hne, by rw [hcommand', hsame, hcommand]⟩

/-- A move id after a step was there before, or the step takes it. -/
theorem generation_step {i : Nat} {t' : Thread} (hwrap : y.NoWrap op)
    (h : (y.step op).threads[i]? = some t') (hne : t'.generation ≠ 0) :
    (∃ t, y.threads[i]? = some t ∧ t.generation = t'.generation) ∨
      (op = .advance i ∧ t'.generation = y.shared.nextGeneration + 1 ∧
        (y.step op).shared.nextGeneration = y.shared.nextGeneration + 1) := by
  rcases y.getElem?_step h with hold | ⟨-, -, hzero, -⟩ | ⟨t, hold, rfl, rfl⟩ |
    ⟨t, pc, hold, rfl, -⟩
  · exact .inl ⟨t', hold, rfl⟩
  · exact absurd hzero hne
  · rw [t.step_generation y.shared]
    split_ifs with hpc
    · rw [hwrap.nextId hold hpc]
      exact .inr ⟨rfl, rfl, by simp [step, advance, Thread.step, hold, hpc, hwrap.nextId hold hpc]⟩
    · exact .inl ⟨t, hold, rfl⟩
  · exact .inl ⟨t, hold, rfl⟩

/-- Within a run the last move id only grows, until it wraps. -/
theorem nextGeneration_le (hrun : op.inRun = true) (hstage : y.stage.isResetting = false)
    (hwrap : y.NoWrap op) : y.shared.nextGeneration ≤ (y.step op).shared.nextGeneration := by
  have hmoves := y.step_moves op
  generalize y.step op = y' at hmoves
  cases hmoves with
  | @advances i t hi hlock =>
      by_cases hpc : t.pc = .takeId
      · simp [Thread.step, hpc, hwrap.nextId hi hpc]
      · exact (t.step_nextGeneration y.shared hpc).ge
  | @dispatches inp =>
      simp only [Session.dispatched]
      split_ifs <;> exact le_rfl
  | @exits reason hrunning => cases reason <;> exact le_rfl
  | holds hholds =>
      rcases hholds.of_inRun hrun hstage with ⟨stage, -, rfl⟩ | rfl | ⟨-, rfl⟩ <;> exact le_rfl
  | _ => exact le_rfl

/-- A call that has its move id has one that is not 0. -/
theorem Numbered.taken_step {first : Nat} (h : y.Numbered first) (hwrap : y.NoWrap op) {i : Nat}
    {t' : Thread} (hle : first ≤ i) (hi : (y.step op).threads[i]? = some t')
    (hset : t'.verb ≠ .setRpm) (hpc : t'.pc ≠ .takeId) : t'.generation ≠ 0 := by
  rcases y.getElem?_step hi with hold | ⟨-, -, -, hbegins⟩ | ⟨t, hold, rfl, rfl⟩ |
    ⟨t, pc, hold, rfl, hturn⟩
  · exact h.taken i t' hle hold hset hpc
  · rw [if_neg hset] at hbegins
    exact absurd hbegins hpc
  · rw [(t.step_call y.shared).1] at hset
    rw [t.step_generation y.shared]
    split_ifs with htakes
    · rw [hwrap.nextId hold htakes]
      exact Nat.succ_ne_zero _
    · exact h.taken i t hle hold hset htakes
  · refine h.taken i t hle hold hset fun htakes => ?_
    have hturns := hturn.turns
    rw [htakes] at hturns
    cases hturns

/-- Within a run the ids stay distinct: the one that a step takes is greater than all others. -/
theorem Numbered.step {first : Nat} (h : y.Numbered first) (hrun : op.inRun = true)
    (hstage : y.stage.isResetting = false) (hwrap : y.NoWrap op) :
    (y.step op).Numbered first := by
  have hgrows := nextGeneration_le hrun hstage hwrap
  constructor
  · intro i t' hle hi
    by_cases hzero : t'.generation = 0
    · omega
    · rcases generation_step hwrap hi hzero with ⟨t, hold, heq⟩ | ⟨-, heq, hnext⟩
      · have hbound := h.bounded i t hle hold
        omega
      · omega
  · intro i t' hle hi hset hpc
    exact h.taken_step hwrap hle hi hset hpc
  · intro i j t' u' hle hle' hi hj heq hne
    rcases generation_step hwrap hi hne with ⟨t, hi, ht⟩ | ⟨hop, ht, -⟩ <;>
      rcases generation_step hwrap hj (heq ▸ hne) with ⟨u, hj, hu⟩ | ⟨hop', hu, -⟩
    · exact h.distinct i j t u hle hle' hi hj (by omega) (by omega)
    · have hbound := h.bounded i t hle hi
      omega
    · have hbound := h.bounded j u hle' hj
      omega
    · exact Op.advance.inj (hop.symm.trans hop')

theorem numbered_started (s : Session) (b : Bringup) : (started s b).Numbered 0 := by
  have hempty : ∀ {i : Nat} {t : Thread}, (started s b).threads[i]? ≠ some t := fun hi =>
    absurd (List.mem_of_getElem? hi) List.not_mem_nil
  exact ⟨fun i t _ hi => absurd hi hempty, fun i t _ hi => absurd hi hempty,
    fun i j t u _ _ hi => absurd hi hempty⟩

/-! ### The ids that a dispatch publishes -/

/-- The active move after a dispatch: the one it adopts, or the same. -/
theorem active_dispatch (y : Process) (inp : CycleInput) :
    (y.step (.dispatch inp)).shared.rt.activeGeneration =
      ((y.adopts? (.dispatch inp)).map SetTarget.generation).getD
        y.shared.rt.activeGeneration := by
  have hdrains : y.drains (.dispatch inp) = (y.shared.running && !inp.stopping) := rfl
  simp only [step, Session.dispatched_rt, adopts?]
  by_cases hrunning : y.shared.running = true
  · rw [if_pos hrunning, cycle_active]
    cases hstop : inp.stopping with
    | true => simp [hdrains, hstop]
    | false =>
        -- A target of the active move is not adopted, and changes nothing.
        cases htarget : (drain y.shared.queue).setTarget with
        | none => simp [routedActive, htarget]
        | some u =>
            by_cases hsame : u.generation = y.shared.rt.activeGeneration <;>
              simp [hdrains, hstop, hrunning, routedActive, htarget, hsame, Option.filter_some]
  · simp [hdrains, hrunning]

/-- A dispatch publishes no completion, or that of the move it leaves active. -/
theorem completed_dispatch (y : Process) (inp : CycleInput) :
    (y.step (.dispatch inp)).shared.rt.completedGeneration =
        y.shared.rt.completedGeneration ∨
      (y.step (.dispatch inp)).shared.rt.completedGeneration =
        (y.step (.dispatch inp)).shared.rt.activeGeneration := by
  simp only [step, Session.dispatched_rt]
  split_ifs
  · exact (cycle_completed _ _ _).imp_right And.left
  · exact .inl rfl

/-- An adopted target was queued. -/
theorem mem_targets_of_adopts {u : SetTarget} (h : y.adopts? op = some u) :
    u ∈ targets y.shared.queue := by
  cases op with
  | dispatch inp =>
      simp only [adopts?] at h
      split_ifs at h
      rw [Option.filter_eq_some_iff, drain_setTarget] at h
      exact List.mem_of_getLast? h.1
  | _ => cases h

end Process

/-! ### The invariant -/

namespace Observed

/-- What holds between the steps of a run. -/
structure Attributed (o : Observed) : Prop where
  commanded : o.process.Commanded
  numbered : o.process.Numbered 0
  stage : o.process.stage.isResetting = false
  /-- every target comes from a call of the run -/
  queued : ∀ u ∈ targets o.process.shared.queue, o.process.Issued u
  adopted : ∀ u ∈ o.adopted, o.process.Issued u
  finished : ∀ u ∈ o.finished, u ∈ o.adopted
  active : o.process.shared.rt.activeGeneration ≠ 0 →
    ∃ u ∈ o.adopted, u.generation = o.process.shared.rt.activeGeneration
  /-- a move that waits is the latest, unless it is completed -/
  waiting : ∀ t ∈ o.process.threads, t.verb.isMove = true → t.pc.waits = true →
    (o.process.shared.rt.completedGeneration < t.generation ∧
      o.process.shared.rt.activeGeneration ≤ t.generation) ∨
    ∃ u ∈ o.finished, u.generation = t.generation

variable {o : Observed} {op : Op}

@[simp] theorem next_process : (o.next op).process = o.process.step op := rfl

@[simp] theorem next_adopted :
    (o.next op).adopted = (o.process.adopts? op).toList ++ o.adopted := rfl

theorem finished_next {u : SetTarget} (h : u ∈ o.finished) : u ∈ (o.next op).finished := by
  simp only [next]
  split_ifs
  · exact List.mem_append_right _ h
  · exact h

/-- What a step publishes as completed, of what is adopted by then. -/
theorem mem_finished_next {u : SetTarget} (h : u ∈ (o.next op).finished) :
    u ∈ o.finished ∨ u ∈ (o.next op).adopted := by
  simp only [next] at h
  split_ifs at h
  · rw [List.mem_append, List.mem_filter] at h
    exact h.elim (fun h => .inr h.1) .inl
  · exact .inl h

/-- A queued target after a step was queued, or the step pushed it for a call. -/
theorem Attributed.queued_step (h : o.Attributed) (op : Op) :
    ∀ u ∈ targets (o.process.step op).shared.queue, (o.process.step op).Issued u := by
  intro u hu
  suffices hissued : o.process.Issued u from hissued.step h.commanded op
  rw [Process.step_queue] at hu
  split_ifs at hu
  · cases hu
  cases hpush : o.process.pushes? op with
  | none =>
      rw [hpush] at hu
      exact h.queued u hu
  | some c =>
      rw [hpush] at hu
      rcases o.process.takes_cases c with hdropped | htaken
      · rw [hdropped] at hu
        exact h.queued u hu
      · rw [htaken, targets_concat, List.mem_append] at hu
        rcases hu with hu | hu
        · exact h.queued u hu
        · have hc : c = .setTarget u := by
            cases c <;> simp [Command.target?] at hu
            rw [hu]
          obtain ⟨t, ht, hcommand⟩ := o.process.pusher_of_isMotion (hc ▸ rfl) hpush
          obtain ⟨i, -, hi, hpc, -⟩ := o.process.pusher_eq_some_iff.mp ht
          have hmem := List.mem_of_getElem? hi
          have htarget := hcommand.symm.trans hc
          obtain ⟨hmove, -⟩ := (h.commanded t hmem).commands.isMove_of_target htarget
          have hmoves := (Verb.ne_of_isMove hmove).1
          refine ⟨t, hmem, h.numbered.taken i t i.zero_le hi hmoves ?_, htarget⟩
          rw [hpc]
          exact nofun

/-- The active move after a step was adopted in the run. -/
theorem Attributed.active_next (h : o.Attributed) (hrun : op.inRun = true)
    (hne : (o.process.step op).shared.rt.activeGeneration ≠ 0) :
    ∃ u ∈ (o.next op).adopted,
      u.generation = (o.process.step op).shared.rt.activeGeneration := by
  rw [next_adopted]
  rcases exists_or_forall_not fun inp => op = .dispatch inp with ⟨inp, rfl⟩ | hno
  · rw [Process.active_dispatch] at hne ⊢
    cases hadopts : o.process.adopts? (.dispatch inp) with
    | none =>
        rw [hadopts] at hne
        exact h.active hne
    | some u => exact ⟨u, List.mem_cons_self, rfl⟩
  · have hids := Process.step_ids_inRun hrun h.stage hno
    simp only [ids, Prod.mk.injEq] at hids
    rw [hids.1] at hne ⊢
    obtain ⟨u, hu, heq⟩ := h.active hne
    exact ⟨u, List.mem_append_right _ hu, heq⟩

/-- A dispatch in order leaves each move that waits the latest, or completes it. -/
theorem Attributed.waiting_dispatch (h : o.Attributed) {inp : CycleInput}
    (horder : o.process.InOrder (.dispatch inp)) {t : Thread} (ht : t ∈ o.process.threads)
    (hmove : t.verb.isMove = true) (hwaits : t.pc.waits = true) :
    ((o.process.step (.dispatch inp)).shared.rt.completedGeneration < t.generation ∧
      (o.process.step (.dispatch inp)).shared.rt.activeGeneration ≤ t.generation) ∨
    ∃ u ∈ (o.next (.dispatch inp)).finished, u.generation = t.generation := by
  rcases h.waiting t ht hmove hwaits with ⟨hcompleted, hactive⟩ | ⟨u, hu, heq⟩
  · have hactive' : (o.process.step (.dispatch inp)).shared.rt.activeGeneration ≤
        t.generation := by
      rw [Process.active_dispatch]
      cases hadopts : o.process.adopts? (.dispatch inp) with
      | none => exact hactive
      | some u =>
          -- A later target is adopted only over moves that are completed.
          by_contra hlt
          have hle := horder u hadopts t ht hmove hwaits (not_le.mp hlt)
          omega
    by_cases hsame : (o.process.step (.dispatch inp)).shared.rt.completedGeneration =
        o.process.shared.rt.completedGeneration
    · exact .inl ⟨by rw [hsame]; exact hcompleted, hactive'⟩
    · have hpublished := (o.process.completed_dispatch inp).resolve_left hsame
      rcases hactive'.lt_or_eq with hlt | heq
      · exact .inl ⟨by rw [hpublished]; exact hlt, hactive'⟩
      · -- The move is the active one, and its target was adopted.
        have hne : (o.process.step (.dispatch inp)).shared.rt.activeGeneration ≠ 0 := by omega
        obtain ⟨u, hu, hgeneration⟩ := h.active_next rfl hne
        refine .inr ⟨u, ?_, hgeneration.trans heq⟩
        simp only [next]
        rw [if_pos hsame, List.mem_append, List.mem_filter]
        exact .inl ⟨hu, by simpa using hgeneration.trans hpublished.symm⟩
  · exact .inr ⟨u, finished_next hu, heq⟩

/-- A step of a call in order: a move begins to wait as the latest. -/
theorem Attributed.waiting_step (h : o.Attributed) (hrun : op.inRun = true)
    (horder : o.process.InOrder op) (hno : ∀ inp, op ≠ .dispatch inp) {t' : Thread}
    (ht' : t' ∈ (o.process.step op).threads) (hmove : t'.verb.isMove = true)
    (hwaits : t'.pc.waits = true) :
    ((o.process.step op).shared.rt.completedGeneration < t'.generation ∧
      (o.process.step op).shared.rt.activeGeneration ≤ t'.generation) ∨
    ∃ u ∈ (o.next op).finished, u.generation = t'.generation := by
  have hids := Process.step_ids_inRun hrun h.stage hno
  simp only [ids, Prod.mk.injEq] at hids
  rw [hids.1, hids.2.1]
  have hbefore : ∀ t ∈ o.process.threads, t.verb.isMove = true → t.pc.waits = true →
      (o.process.shared.rt.completedGeneration < t.generation ∧
        o.process.shared.rt.activeGeneration ≤ t.generation) ∨
      ∃ u ∈ (o.next op).finished, u.generation = t.generation := by
    intro t ht hmove hwaits
    refine (h.waiting t ht hmove hwaits).imp_right fun ⟨u, hu, heq⟩ => ?_
    exact ⟨u, finished_next hu, heq⟩
  obtain ⟨i, hi⟩ := List.mem_iff_getElem?.mp ht'
  rcases o.process.getElem?_step hi with hold | ⟨-, -, -, hpc⟩ | ⟨t, hold, rfl, rfl⟩ |
    ⟨t, pc, -, rfl, hturn⟩
  · exact hbefore t' (List.mem_of_getElem? hold) hmove hwaits
  · rw [hpc] at hwaits
    split_ifs at hwaits <;> cases hwaits
  · rw [(t.step_call o.process.shared).1] at hmove
    have hgeneration : t.pc ≠ .takeId →
        (t.step o.process.shared).2.generation = t.generation := fun hne => by
      rw [t.step_generation, if_neg hne]
    by_cases hpush : t.pc = .push
    · -- The call has just pushed, and the ids are as its condition says.
      rw [hgeneration (by rw [hpush]; exact nofun)]
      have hpusher : o.process.pusher? (.advance i) = some t := by
        refine o.process.pusher_eq_some_iff.mpr ⟨i, rfl, hold, hpush, fun hhome => ?_⟩
        exact (Verb.ne_of_isMove hmove).2 hhome.1
      exact .inl (horder t hpusher hmove).symm
    · cases hwas : t.pc.waits with
      | false =>
          rw [t.waits_step o.process.shared hwas hpush] at hwaits
          cases hwaits
      | true =>
          rw [hgeneration fun heq => by rw [heq] at hwas; cases hwas]
          exact hbefore t (List.mem_of_getElem? hold) hmove hwas
  · rw [show (t.atPc pc).pc = pc from rfl, hturn.waits] at hwaits
    cases hwaits

theorem Attributed.next (h : o.Attributed) (hrun : op.inRun = true)
    (hwrap : o.process.NoWrap op) (horder : o.process.InOrder op) : (o.next op).Attributed where
  commanded := h.commanded.step op
  numbered := h.numbered.step hrun h.stage hwrap
  stage := Process.step_isResetting hrun h.stage
  queued := h.queued_step op
  adopted := by
    intro u hu
    suffices hissued : o.process.Issued u from hissued.step h.commanded op
    rw [next_adopted, List.mem_append, Option.mem_toList] at hu
    exact hu.elim (fun hu => h.queued u (Process.mem_targets_of_adopts hu)) (h.adopted u)
  finished := by
    intro u hu
    refine (mem_finished_next hu).elim (fun hu => ?_) id
    rw [next_adopted]
    exact List.mem_append_right _ (h.finished u hu)
  active := h.active_next hrun
  waiting := by
    intro t ht hmove hwaits
    rcases exists_or_forall_not fun inp => op = .dispatch inp with ⟨inp, rfl⟩ | hno
    · exact h.waiting_dispatch horder ht hmove hwaits
    · exact h.waiting_step hrun horder hno ht hmove hwaits

/-- A move that returns is completed, and the completed target of its id is its own. -/
theorem Attributed.returnsOwn (h : o.Attributed) (i : Nat) : o.ReturnsOwn (.advance i) := by
  intro t hi hmove hpc hreturned
  have ht := List.mem_of_getElem? hi
  obtain ⟨hwaits, hload⟩ := t.returned_of_step o.process.shared hmove hpc hreturned
  rcases h.waiting t ht hmove hwaits with ⟨hcompleted, hactive⟩ | ⟨u, hu, heq⟩
  · omega
  · obtain ⟨t', ht', hne, hcommand⟩ := h.adopted u (h.finished u hu)
    obtain ⟨-, hgeneration⟩ := (h.commanded t' ht').commands.isMove_of_target hcommand
    obtain ⟨j, hj⟩ := List.mem_iff_getElem?.mp ht'
    have hsame := hgeneration.symm.trans heq
    obtain rfl := h.numbered.distinct j i t' t j.zero_le i.zero_le hj hi hsame hne
    obtain rfl : t' = t := Option.some.inj (hj.symm.trans hi)
    exact ⟨u, hu, hcommand⟩

end Observed

/-- Within a run, whatever the interleaving of its calls, a move returns only for the completion
of its own target, when the moves push and are adopted in order and the ids do not wrap. No call
of an earlier run is in flight. -/
theorem move_returns_for_itself (s : Session) (b : Bringup) (ops : List Op)
    (hqueue : targets s.queue = [])
    (hops : AllSteps Process.step (fun y op => op.inRun = true ∧ y.NoWrap op ∧ y.InOrder op)
      (Process.started s b) ops) :
    AllSteps Observed.next Observed.ReturnsOwn ⟨Process.started s b, [], []⟩ ops := by
  have hproj : AllSteps Observed.next
      (fun o op => op.inRun = true ∧ o.process.NoWrap op ∧ o.process.InOrder op)
      ⟨Process.started s b, [], []⟩ ops :=
    (allSteps_proj (Q := fun y op => op.inRun = true ∧ y.NoWrap op ∧ y.InOrder op)
      fun _ _ => Observed.next_process).mpr hops
  refine allSteps_of_invariant (I := Observed.Attributed) ?_ ?_ hproj
  · have hids := Process.started_ids s b
    simp only [ids, Prod.mk.injEq] at hids
    have hempty : ∀ t, t ∉ (Process.started s b).threads := fun t => List.not_mem_nil
    exact {
      commanded := nofun
      numbered := Process.numbered_started s b
      stage := rfl
      queued := fun u hu => absurd (hqueue ▸ hu : u ∈ []) List.not_mem_nil
      adopted := nofun
      finished := nofun
      active := fun hne => absurd hids.1 hne
      waiting := fun t ht => absurd ht (hempty t) }
  · rintro o op h ⟨hrun, hwrap, horder⟩
    refine ⟨h.next hrun hwrap horder, ?_⟩
    cases op with
    | advance i => exact h.returnsOwn i
    | _ => trivial

/-- Cycles as the drive answers them, the commands being those of the queue. -/
def dispatches (ticks : List Tick) : List Op := ticks.map fun t => .dispatch t.inp

/-- One move, from the enabled drive to its return. -/
def loneMove : List Op :=
  dispatches (climb 1 7) ++ .call (.goTo (.fin 100) (.fin 1)) :: List.replicate 4 (.advance 0) ++
    dispatches [tick 0x0027#16 1 7 [], tick 0x1027#16 1 7 [], tick 0x1027#16 1 7 [],
      tick 0x0027#16 1 7 [], tick 0x0427#16 1 10000 []] ++ List.replicate 2 (.advance 0)

/-- The move returns, for its own completion. -/
theorem lone_move_returns :
    ((runFrom Process.step (.started profileSession profileBringup) loneMove).threads.map
      Thread.pc) = [.done .returned] ∧
    AllSteps Observed.next Observed.ReturnsOwn ⟨.started profileSession profileBringup, [], []⟩
      loneMove :=
  ⟨by decide +kernel,
    move_returns_for_itself profileSession profileBringup loneMove rfl (by decide +kernel)⟩

/-- A move takes its id and is suspended. Another one takes the next id, and is halted. Then the
first one goes on. -/
def overtakenMove : List Op :=
  .call (.goTo (.fin 100) (.fin 1)) :: .advance 0 ::
    .call (.goTo (.fin 100) (.fin 2)) :: List.replicate 4 (.advance 1) ++
    .dispatch (tick 0x0040#16 1 0 []).inp :: .call .halt ::
    .dispatch (tick 0x0040#16 1 0 []).inp :: List.replicate 8 (.advance 0)

/-- The first move returns before the loop has seen its target. -/
theorem overtaken_move_returns : ¬ ∀ (s : Session) (b : Bringup) (ops : List Op),
    s.queue = [] → (∀ op ∈ ops, op.inRun = true) →
    AllSteps Observed.next Observed.ReturnsOwn ⟨.started s b, [], []⟩ ops := by
  intro h
  have hown := h profileSession profileBringup overtakenMove rfl (by decide +kernel)
  revert hown
  decide +kernel

end ViamEthercat.Servo
