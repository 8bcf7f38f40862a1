import Mathlib.Data.List.Nodup
import ViamEthercat.Ethercat.RunnerOwner
import ViamEthercat.Lib.Run

/-!
# `ViamEthercat.Proofs.RunnerOwner`: who uses the master

One thread at a time uses the master. The owner configures the slaves, the realtime thread has the
master from its spawn to its return, and the owner closes it after that. `PortHolder` says so as an
automaton over the uses, and `runner_owns_port` runs it over any run of the system.
-/

set_option autoImplicit false

namespace ViamEthercat

open Lib

/-- Who may use the master. -/
inductive PortHolder where
  /-- the owner, before `start` has spawned the thread -/
  | owner
  | thread
  /-- nobody: the owner has closed it, and may close it again -/
  | closed
deriving DecidableEq, Repr

/-- The holder after a use, if it may make that use. -/
def PortHolder.next : PortHolder → PortUse → Option PortHolder
  | .owner, .configured _ => some .owner
  | .owner, .spawned => some .thread
  | .thread, .rt _ => some .thread
  | .thread, .closed | .closed, .closed => some .closed
  | _, _ => none

/-- The holder after some uses, if all of them are allowed. -/
def PortHolder.run (h : PortHolder) : List PortUse → Option PortHolder
  | [] => some h
  | use :: uses => (h.next use).bind (PortHolder.run · uses)

theorem PortHolder.run_concat {h h' : PortHolder} {uses : List PortUse}
    (huses : h.run uses = some h') (use : PortUse) : h.run (uses ++ [use]) = h'.next use := by
  induction uses generalizing h with
  | nil =>
      obtain rfl : h = h' := Option.some.inj huses
      show (h.next use).bind some = h.next use
      exact Option.bind_fun_some _
  | cons first rest ih =>
      obtain ⟨next, hnext, hrest⟩ := Option.bind_eq_some_iff.mp huses
      show (h.next first).bind (PortHolder.run · (rest ++ [use])) = _
      rw [hnext]
      exact ih hrest

namespace RtCore

variable {s : RtCore}

theorem eachControl_ne {body : Nat → RtPc} {next pc : RtPc} {i : Nat} (hbody : ∀ i, body i ≠ pc)
    (hnext : next ≠ pc) : s.eachControl i body next ≠ pc := by
  unfold eachControl
  split
  · exact hbody i
  · exact hnext

/-- Only the last store of `rt_body` stores `Stopped`, and `rt_body` returns after that. -/
theorem rtStep_going (x : RtAnswer) (hpc : s.pc ≠ .returned) (hstore : s.pc ≠ .storeStopped)
    (hphase : s.phase ≠ .stopped) :
    (s.rtStep x).phase ≠ .stopped ∧ (s.rtStep x).pc ≠ .returned := by
  cases hat : s.pc with
  | returned => exact absurd hat hpc
  | storeStopped => exact absurd hat hstore
  | setup | endBringup | cycleEnd | window all =>
      simp only [rtStep, hat]
      split <;> simp [hphase, eachControl_ne]
  | bringup | bringupStep f p | process | loadFlag =>
      simp only [rtStep, hat, call, stepFrom]
      split_ifs <;> simp [hphase, eachControl_ne]
  | tornDown i all =>
      cases all <;> simp [rtStep, hat, call, hphase, eachControl_ne]
  | _ => simp [rtStep, hat, call, latchReason, stepFrom, hphase, eachControl_ne]

theorem rtStep_stopped (x : RtAnswer) (hpc : s.pc ≠ .returned) (hphase : s.phase ≠ .stopped) :
    (s.rtStep x).phase = .stopped ↔ (s.rtStep x).pc = .returned := by
  by_cases hstore : s.pc = .storeStopped
  · simp [rtStep, hstore]
  · obtain ⟨hgoing, hnot⟩ := rtStep_going x hpc hstore hphase
    exact iff_of_false hgoing hnot

end RtCore

namespace Runner

variable {r : Runner} {n : Nat}

variable (r) in
/-- Who may use the master now. -/
def holder : PortHolder :=
  if r.started then if .closed ∈ r.uses then .closed else .thread else .owner

theorem holder_owner (hstarted : r.started = false) : r.holder = .owner := by
  unfold holder
  rw [hstarted]
  rfl

theorem holder_thread (hstarted : r.started = true) (hclosed : .closed ∉ r.uses) :
    r.holder = .thread := by
  unfold holder
  rw [hstarted, if_pos rfl, if_neg hclosed]

theorem holder_closed (hstarted : r.started = true) (hclosed : .closed ∈ r.uses) :
    r.holder = .closed := by
  unfold holder
  rw [hstarted, if_pos rfl, if_pos hclosed]

/-- A use that does not close the master. -/
theorem not_closed_concat {uses : List PortUse} (h : .closed ∉ uses) {use : PortUse}
    (huse : .closed ≠ use) : .closed ∉ uses ++ [use] := by
  intro hmem
  obtain hmem | hmem := List.mem_append.mp hmem
  · exact h hmem
  · exact huse (List.mem_singleton.mp hmem)

variable (r) in
/-- What holds where the owner is. -/
def OwnerAt : OwnerPc → Prop
  | .idle => True
  | .configuring i _ =>
      r.started = false ∧ i < r.attached.length ∧
        (r.attached.take i).map PortUse.configured <:+ r.uses
  | .waiting | .stopLatch _ | .stopFlag _ | .awaiting _ | .aborted => r.started = true
  | .closing _ => r.started = true ∧ r.core.pc = .returned
  | .gone => r.started = true → .closed ∈ r.uses

/-- What holds in every state of a run. -/
structure OwnsPort (n : Nat) (r : Runner) : Prop where
  slaveCount : r.slaveCount = n
  nodup : r.attached.Nodup
  range : ∀ slave ∈ r.attached, slave ≠ 0 ∧ slave.toNat ≤ n
  order : PortHolder.owner.run r.uses = some r.holder
  unstarted : r.started = false → r.core.pc = .setup ∧ r.core.phase ≠ .stopped
  stopped : r.started = true → (r.core.phase = .stopped ↔ r.core.pc = .returned)
  configured : r.started = true → r.attached ≠ [] ∧
    ∃ before after, r.uses = before ++ r.attached.map PortUse.configured ++ .spawned :: after
  closed : .closed ∈ r.uses → r.core.pc = .returned
  owner : r.OwnerAt r.owner

theorem checkAttach_eq_ok {slave : UInt16} (h : r.checkAttach slave = .ok ()) :
    r.started = false ∧ (slave ≠ 0 ∧ slave.toNat ≤ r.slaveCount) ∧ slave ∉ r.attached := by
  unfold checkAttach at h
  cases hstarted : r.started with
  | true => simp [hstarted, bind, Except.bind, throw, throwThe, MonadExceptOf.throw] at h
  | false =>
      by_cases hrange : slave = 0 ∨ r.slaveCount < slave.toNat
      · simp [hstarted, hrange, bind, Except.bind, throw, throwThe, MonadExceptOf.throw] at h
      · by_cases hmem : slave ∈ r.attached
        · simp [hstarted, hrange, hmem, throw, throwThe, MonadExceptOf.throw] at h
        · obtain ⟨hzero, hle⟩ := not_or.mp hrange
          exact ⟨rfl, ⟨hzero, not_lt.mp hle⟩, hmem⟩

theorem checkStart_eq_ok (h : r.checkStart = .ok ()) :
    r.started = false ∧ r.attached ≠ [] := by
  unfold checkStart at h
  cases hstarted : r.started with
  | true => simp [hstarted, bind, Except.bind, throw, throwThe, MonadExceptOf.throw] at h
  | false =>
      by_cases hempty : r.attached = []
      · simp [hstarted, hempty, throw, throwThe, MonadExceptOf.throw] at h
      · exact ⟨rfl, hempty⟩

theorem ownsPort_new (n : Nat) (cfg : RunnerConfig) : OwnsPort n (Runner.new n cfg) where
  slaveCount := rfl
  nodup := List.nodup_nil
  range := fun _ hslave => nomatch hslave
  order := rfl
  unstarted := fun _ => ⟨rfl, RunnerPhase.noConfusion⟩
  stopped := fun hstarted => nomatch hstarted
  configured := fun hstarted => nomatch hstarted
  closed := fun hclosed => nomatch hclosed
  owner := trivial

/-- Before the thread is spawned the master is not closed. -/
theorem OwnsPort.not_closed (h : OwnsPort n r) (hstarted : r.started = false) :
    .closed ∉ r.uses := by
  intro hclosed
  have hpc := h.closed hclosed
  rw [(h.unstarted hstarted).1] at hpc
  exact RtPc.noConfusion hpc

/-- A step of the owner that changes no more than where it is. -/
theorem OwnsPort.move (h : OwnsPort n r) (pc : OwnerPc) (hpc : r.OwnerAt pc) :
    OwnsPort n { r with owner := pc } :=
  { h with owner := by cases pc <;> exact hpc }

theorem OwnsPort.attach (h : OwnsPort n r) {slave : UInt16}
    (hcheck : r.checkAttach slave = .ok ()) (hidle : r.owner = .idle) :
    OwnsPort n { r with
      attached := r.attached ++ [slave]
      core := { r.core with controls := r.attached.length + 1 } } := by
  obtain ⟨hstarted, hslave, hmem⟩ := checkAttach_eq_ok hcheck
  rw [h.slaveCount] at hslave
  refine { h with nodup := ?_, range := ?_, configured := ?_, owner := ?_ }
  · show (r.attached ++ [slave]).Nodup
    rw [← List.concat_eq_append]
    exact h.nodup.concat hmem
  · intro other hother
    obtain hother | hother := List.mem_append.mp hother
    · exact h.range other hother
    · rw [List.mem_singleton.mp hother]
      exact hslave
  · intro hstarted'
    exact absurd (hstarted.symm.trans hstarted') Bool.false_ne_true
  · show OwnerAt _ r.owner
    rw [hidle]
    trivial

/-- The hooks of the first `i` controls have run, one after the other. -/
theorem OwnsPort.configureFrom (h : OwnsPort n r) {i : Nat} (blocking : Bool)
    (hstarted : r.started = false) (hsome : r.attached ≠ [])
    (hdone : (r.attached.take i).map PortUse.configured <:+ r.uses) :
    OwnsPort n (r.configureFrom i blocking) := by
  unfold Runner.configureFrom
  split
  · exact h.move _ ⟨hstarted, ‹_›, hdone⟩
  · have hclosed := h.not_closed hstarted
    obtain ⟨before, huses⟩ := hdone
    rw [List.take_of_length_le (not_lt.mp ‹_›)] at huses
    refine { h with
      order := ?_, unstarted := ?_, stopped := ?_, configured := ?_, closed := ?_, owner := ?_ }
    · show PortHolder.owner.run (r.uses ++ [PortUse.spawned]) = some (r.spawn blocking).holder
      rw [PortHolder.run_concat h.order, holder_owner hstarted]
      have hopen : .closed ∉ (r.spawn blocking).uses :=
        not_closed_concat hclosed PortUse.noConfusion
      rw [holder_thread rfl hopen]
      rfl
    · intro hnot
      exact absurd hnot (by simp [spawn])
    · intro _
      show RunnerPhase.bringingUp = .stopped ↔ r.core.pc = .returned
      rw [(h.unstarted hstarted).1]
      exact iff_of_false RunnerPhase.noConfusion RtPc.noConfusion
    · intro _
      refine ⟨hsome, before, [], ?_⟩
      show r.uses ++ [.spawned] = before ++ r.attached.map PortUse.configured ++ [.spawned]
      rw [huses]
    · intro hmem
      exact absurd hmem (not_closed_concat hclosed PortUse.noConfusion)
    · cases blocking with
      | true => rfl
      | false => trivial

/-- The hook that is next has returned, or thrown. -/
theorem OwnsPort.configured_hook (h : OwnsPort n r) {i : Nat} {blocking : Bool}
    (hat : r.owner = .configuring i blocking) (throws : Bool) :
    OwnsPort n (r.step (.configured throws)) := by
  obtain ⟨hstarted, hi, hdone⟩ : r.OwnerAt (.configuring i blocking) := hat ▸ h.owner
  have hget : r.attached[i]? = some r.attached[i] := List.getElem?_eq_getElem hi
  -- The hook has used the master once more.
  have hnext : OwnsPort n
      { r with uses := r.uses ++ [.configured r.attached[i]], owner := .idle } := by
    refine { h with order := ?_, configured := ?_, closed := ?_, owner := trivial }
    · show PortHolder.owner.run (r.uses ++ [PortUse.configured r.attached[i]]) = _
      rw [PortHolder.run_concat h.order, holder_owner hstarted, holder_owner]
      · rfl
      · exact hstarted
    · intro hnot
      exact absurd (hstarted.symm.trans hnot) Bool.false_ne_true
    · intro hmem
      exact absurd hmem (not_closed_concat (h.not_closed hstarted) PortUse.noConfusion)
  simp only [step, hat, hget, Option.toList_some, List.map_cons, List.map_nil]
  split
  · exact hnext
  · have hsuffix : (r.attached.take (i + 1)).map PortUse.configured <:+
        r.uses ++ [.configured r.attached[i]] := by
      rw [List.take_add_one, hget, List.map_append]
      obtain ⟨before, huses⟩ := hdone
      refine ⟨before, ?_⟩
      rw [← huses, List.append_assoc]
      rfl
    exact hnext.configureFrom (r := { r with
      uses := r.uses ++ [.configured r.attached[i]], owner := .idle }) blocking hstarted
      (List.ne_nil_of_length_pos (Nat.zero_lt_of_lt hi)) hsuffix

/-- A step of the core while the thread has the master, or has left it. -/
theorem OwnsPort.core_step (h : OwnsPort n r) {core : RtCore} (hpc : core.pc = r.core.pc)
    (hphase : core.phase = r.core.phase) : OwnsPort n { r with core := core } := by
  refine { h with unstarted := ?_, stopped := ?_, closed := ?_, owner := ?_ }
  · show r.started = false → core.pc = .setup ∧ core.phase ≠ .stopped
    rw [hpc, hphase]
    exact h.unstarted
  · show r.started = true → (core.phase = .stopped ↔ core.pc = .returned)
    rw [hpc, hphase]
    exact h.stopped
  · show PortUse.closed ∈ r.uses → core.pc = .returned
    rw [hpc]
    exact h.closed
  · have howner := h.owner
    show OwnerAt { r with core := core } r.owner
    cases hat : r.owner with
    | closing dropped =>
        rw [hat] at howner
        exact ⟨howner.1, hpc.trans howner.2⟩
    | _ =>
        rw [hat] at howner
        exact howner

theorem step_requestLatch_pc (s : RtCore) :
    (s.step .requestLatch).pc = s.pc ∧ (s.step .requestLatch).phase = s.phase := ⟨rfl, rfl⟩

theorem step_requestFlag_pc (s : RtCore) :
    (s.step .requestFlag).pc = s.pc ∧ (s.step .requestFlag).phase = s.phase := by
  unfold RtCore.step
  by_cases hpending : s.pending = 0
  · simp [hpending]
  · simp [hpending]

/-- A step of the realtime thread. -/
theorem OwnsPort.rt_step (h : OwnsPort n r) (x : RtAnswer) (hstarted : r.started = true)
    (hpc : r.core.pc ≠ .returned) (hgone : r.owner ≠ .aborted) :
    OwnsPort n { r with core := r.core.rtStep x, uses := r.uses ++ [.rt r.core.pc] } := by
  have hclosed : .closed ∉ r.uses := fun hmem => hpc (h.closed hmem)
  have hphase : r.core.phase ≠ .stopped := fun hstop => hpc ((h.stopped hstarted).mp hstop)
  refine { h with
    order := ?_, unstarted := ?_, stopped := ?_, configured := ?_, closed := ?_, owner := ?_ }
  · show PortHolder.owner.run (r.uses ++ [PortUse.rt r.core.pc]) = _
    rw [PortHolder.run_concat h.order, holder_thread hstarted hclosed, holder_thread]
    · rfl
    · exact hstarted
    · exact not_closed_concat hclosed PortUse.noConfusion
  · intro hnot
    exact absurd (hnot.symm.trans hstarted) Bool.false_ne_true
  · intro _
    exact RtCore.rtStep_stopped x hpc hphase
  · intro _
    obtain ⟨hsome, before, after, huses⟩ := h.configured hstarted
    refine ⟨hsome, before, after ++ [.rt r.core.pc], ?_⟩
    show r.uses ++ [.rt r.core.pc] = _
    rw [huses]
    simp
  · intro hmem
    exact absurd hmem (not_closed_concat hclosed PortUse.noConfusion)
  · have howner := h.owner
    show OwnerAt _ r.owner
    cases hat : r.owner with
    | idle => trivial
    | configuring i blocking =>
        rw [hat] at howner
        exact absurd (howner.1.symm.trans hstarted) Bool.false_ne_true
    | waiting | stopLatch dropped | stopFlag dropped | awaiting dropped => exact hstarted
    | closing dropped =>
        rw [hat] at howner
        exact absurd howner.2 hpc
    | gone =>
        rw [hat] at howner
        exact absurd (howner hstarted) hclosed
    | aborted => exact absurd hat hgone

/-- The owner closes the master after the thread has returned. -/
theorem OwnsPort.close (h : OwnsPort n r) {dropped : Bool} (hat : r.owner = .closing dropped) :
    OwnsPort n (r.ownerStep false) := by
  obtain ⟨hstarted, hpc⟩ : r.OwnerAt (.closing dropped) := hat ▸ h.owner
  have hnext : OwnsPort n { r with uses := r.uses ++ [.closed], owner := .idle } := by
    refine { h with order := ?_, configured := ?_, closed := fun _ => hpc, owner := trivial }
    · show PortHolder.owner.run (r.uses ++ [PortUse.closed]) = _
      have hafter : r.holder.next .closed = some .closed := by
        by_cases hclosed : PortUse.closed ∈ r.uses
        · rw [holder_closed hstarted hclosed]
          rfl
        · rw [holder_thread hstarted hclosed]
          rfl
      rw [PortHolder.run_concat h.order, hafter, holder_closed]
      · exact hstarted
      · exact List.mem_append_right _ (List.mem_singleton_self _)
    · intro _
      obtain ⟨hsome, before, after, huses⟩ := h.configured hstarted
      refine ⟨hsome, before, after ++ [.closed], ?_⟩
      show r.uses ++ [.closed] = _
      rw [huses]
      simp
  simp only [ownerStep, hat]
  cases dropped with
  | false => exact hnext
  | true =>
      have hmem : PortUse.closed ∈ r.uses ++ [.closed] := by simp
      exact hnext.move .gone fun _ => hmem

theorem OwnsPort.stop (h : OwnsPort n r) (dropped : Bool) : OwnsPort n (r.stop dropped) := by
  unfold Runner.stop
  split
  · exact h.move _ ‹_›
  · cases dropped with
    | false => exact h.move _ trivial
    | true => exact h.move _ fun hstarted => absurd hstarted ‹_›

theorem OwnsPort.owner_step (h : OwnsPort n r) (timeUp : Bool) :
    OwnsPort n (r.ownerStep timeUp) := by
  have howner := h.owner
  cases hat : r.owner with
  | idle | configuring i blocking | gone | aborted =>
      simp only [ownerStep, hat]
      exact h
  | waiting =>
      simp only [ownerStep, hat]
      split
      · exact h.stop false
      · exact h
  | stopLatch dropped =>
      rw [hat] at howner
      simp only [ownerStep, hat]
      obtain ⟨hpc, hphase⟩ := step_requestLatch_pc r.core
      exact (h.core_step hpc hphase).move (.stopFlag dropped) howner
  | stopFlag dropped =>
      rw [hat] at howner
      simp only [ownerStep, hat]
      obtain ⟨hpc, hphase⟩ := step_requestFlag_pc r.core
      exact (h.core_step hpc hphase).move (.awaiting dropped) howner
  | awaiting dropped =>
      rw [hat] at howner
      simp only [ownerStep, hat]
      split
      · exact h.move _ ⟨howner, (h.stopped howner).mp ‹_›⟩
      · split
        · exact h.move _ howner
        · exact h
  | closing dropped =>
      have hclose := h.close hat
      simp only [ownerStep, hat] at hclose ⊢
      exact hclose

/-- A step of the system keeps the master in one hand. -/
theorem OwnsPort.step (h : OwnsPort n r) (e : RunnerStep) : OwnsPort n (r.step e) := by
  cases e with
  | attach slave =>
      simp only [Runner.step]
      split
      · exact h.attach (And.right ‹_›) (And.left ‹_›)
      · exact h
  | start blocking =>
      simp only [Runner.step]
      split
      · obtain ⟨-, hcheck⟩ := ‹_ ∧ _›
        obtain ⟨hstarted, hsome⟩ := checkStart_eq_ok hcheck
        exact h.configureFrom blocking hstarted hsome (List.nil_suffix)
      · exact h
  | configured throws =>
      cases hat : r.owner with
      | configuring i blocking => exact h.configured_hook hat throws
      | _ =>
          simp only [Runner.step, hat]
          exact h
  | owner timeUp => exact h.owner_step timeUp
  | drop =>
      simp only [Runner.step]
      split
      · exact h.stop true
      · exact h
  | core e =>
      cases e with
      | rt x =>
          simp only [Runner.step]
          split
          · obtain ⟨hstarted, hgone, hpc⟩ := ‹_ ∧ _ ∧ _›
            exact h.rt_step x hstarted hpc hgone
          · exact h
      | requestLatch =>
          simp only [Runner.step]
          split
          · exact h.core_step rfl rfl
          · exact h
      | requestFlag =>
          simp only [Runner.step]
          split
          · obtain ⟨hpc, hphase⟩ := step_requestFlag_pc r.core
            exact h.core_step hpc hphase
          · exact h

theorem ownsPort_run (n : Nat) (cfg : RunnerConfig) (es : List RunnerStep) :
    OwnsPort n (runFrom Runner.step (Runner.new n cfg) es) :=
  runFrom_induction (I := OwnsPort n) (ownsPort_new n cfg) fun _ e h => h.step e

/-- The master is in one hand in any run, whatever the order of the calls of the owner, the steps
of the thread and the stop requests. All the hooks of `start` run, in the order of `attach`, right
before the spawn. The master is closed after the thread has returned, and a runner that started is
not destroyed before that. -/
theorem runner_owns_port (n : Nat) (cfg : RunnerConfig) (es : List RunnerStep) :
    let r := runFrom Runner.step (Runner.new n cfg) es
    PortHolder.owner.run r.uses = some r.holder
      ∧ (r.attached.Nodup ∧ ∀ slave ∈ r.attached, slave ≠ 0 ∧ slave.toNat ≤ n)
      ∧ (r.started = true → r.attached ≠ [] ∧ ∃ before after,
          r.uses = before ++ r.attached.map PortUse.configured ++ .spawned :: after)
      ∧ (PortUse.closed ∈ r.uses → r.core.pc = .returned)
      ∧ (r.owner = .gone → r.started = true → PortUse.closed ∈ r.uses) := by
  intro r
  have h : OwnsPort n r := ownsPort_run n cfg es
  have hgone : r.owner = .gone → r.started = true → PortUse.closed ∈ r.uses := by
    intro hat
    have howner := h.owner
    rw [hat] at howner
    exact howner
  exact ⟨h.order, ⟨h.nodup, h.range⟩, h.configured, h.closed, hgone⟩

end Runner

end ViamEthercat
