import ViamEthercat.Proofs.Session

/-!
# `ViamEthercat.Proofs.Restart`: commands across a restart

The command queue outlives the runs. `reset_run_state` zeroes everything else that belongs to
a run, the stopping window drains nothing, and a verb called between two runs still pushes. So
what is queued at a restart is drained by the run after it.

`Tagged` numbers the runs and tags each queued command with the run it was pushed in.
`restart_drains_own_iff`: every drain of a history returns commands of its own run only, if and
only if every restart of the history finds the queue empty.
-/

set_option autoImplicit false

namespace ViamEthercat.Servo

open Lib

/-- A session with the number of its run and, for each queued command, that of the run it was
pushed in. -/
structure Tagged where
  session : Session
  tags : List Nat
  run : Nat

namespace Tagged

/-- Before the first run. -/
def start (s : Session) : Tagged := ⟨s, [], 0⟩

/-- A step of the session: a drain takes the tags with the commands, a push adds the tag of
the run, and a restart begins the next run. -/
def next (t : Tagged) (e : Event) : Tagged :=
  let s := t.session.step e
  { session := s
    tags := t.tags.take s.queue.length ++
      List.replicate (s.queue.length - t.session.queue.length) t.run
    run := match e with
      | .restart _ => t.run + 1
      | _ => t.run }

/-- A cycle on this input, when it drains, drains commands of this run only. -/
def DrainsOwn (t : Tagged) (inp : CycleInput) : Prop :=
  t.session.running = true → inp.stopping = false → ∀ r ∈ t.tags, r = t.run

/-- Each queued command has a tag, of this run or an earlier one. -/
structure WellTagged (t : Tagged) : Prop where
  length : t.tags.length = t.session.queue.length
  le : ∀ r ∈ t.tags, r ≤ t.run

variable {t : Tagged} {e : Event}

@[simp] theorem next_session : (t.next e).session = t.session.step e := rfl

theorem run_le_next (t : Tagged) (e : Event) : t.run ≤ (t.next e).run := by
  cases e <;> simp [next]

/-- The tags after a step: the tags, with that of the run after a push, or none. -/
theorem next_tags (h : t.WellTagged) (e : Event) :
    (t.next e).tags = t.tags ∧ (t.session.step e).queue.length = t.session.queue.length ∨
    (t.next e).tags = t.tags ++ [t.run] ∧
      (t.session.step e).queue.length = t.session.queue.length + 1 ∨
    (t.next e).tags = [] ∧ (t.session.step e).queue.length = 0 := by
  rcases t.session.step_queue e with hq | ⟨c, hq⟩ | ⟨-, hq⟩
  · refine .inl ⟨?_, by rw [hq]⟩
    simp [next, hq, List.take_of_length_le h.length.le]
  · refine .inr (.inl ⟨?_, by simp [hq]⟩)
    have hlen : t.tags.length ≤ t.session.queue.length + 1 := by rw [h.length]; omega
    simp [next, hq, List.take_of_length_le hlen]
  · exact .inr (.inr ⟨by simp [next, hq], by simp [hq]⟩)

/-- Every step keeps the tags. -/
theorem WellTagged.next (h : t.WellTagged) (e : Event) : (t.next e).WellTagged := by
  have hrun := t.run_le_next e
  rcases next_tags h e with ⟨htags, hlen⟩ | ⟨htags, hlen⟩ | ⟨htags, hlen⟩
  · exact ⟨by rw [htags, h.length]; exact hlen.symm, fun r hr => (h.le r (htags ▸ hr)).trans hrun⟩
  · refine ⟨by simpa [htags, h.length] using hlen.symm, fun r hr => ?_⟩
    rw [htags, List.mem_append, List.mem_singleton] at hr
    rcases hr with hr | rfl
    · exact (h.le r hr).trans hrun
    · exact hrun
  · exact ⟨by rw [htags]; exact hlen.symm, fun r hr => by rw [htags] at hr; cases hr⟩

/-- Every queued command was pushed in this run. -/
def Own (t : Tagged) : Prop := ∀ r ∈ t.tags, r = t.run

/-- A drain of a live run returns commands of this run only if all queued commands are. -/
theorem forall_drainsOwn_iff (hrunning : t.session.running = true) :
    (∀ inp, t.DrainsOwn inp) ↔ t.Own := by
  constructor
  · intro h
    -- Any steady cycle drains the whole queue.
    exact h (tick 0#16 0 0 []).inp hrunning rfl
  · intro h inp _ _
    exact h

/-- Within a run only its own commands are pushed. -/
theorem Own.next (h : t.Own) (hwell : t.WellTagged) (hrestart : ∀ b, e ≠ .restart b) :
    (t.next e).Own := by
  have hrun : (t.next e).run = t.run := by
    cases e with
    | restart b => exact absurd rfl (hrestart b)
    | _ => rfl
  intro r hr
  rw [hrun]
  rcases next_tags hwell e with ⟨htags, -⟩ | ⟨htags, -⟩ | ⟨htags, -⟩ <;> rw [htags] at hr
  · exact h r hr
  · rw [List.mem_append, List.mem_singleton] at hr
    exact hr.elim (h r) id
  · cases hr

/-- After a restart every queued command is of an earlier run. -/
theorem own_restart_iff (hwell : t.WellTagged) (b : Bringup) :
    (t.next (.restart b)).Own ↔ t.session.queue = [] := by
  have htags : (t.next (.restart b)).tags = t.tags := by
    rcases next_tags hwell (.restart b) with ⟨h, -⟩ | ⟨-, h⟩ | ⟨h, hlen⟩
    · exact h
    · have hsame : (t.session.step (.restart b)).queue.length = t.session.queue.length := rfl
      omega
    · have hsame : (t.session.step (.restart b)).queue.length = t.session.queue.length := rfl
      rw [h, eq_comm, ← List.length_eq_zero_iff, hwell.length]
      omega
  rw [← List.length_eq_zero_iff, ← hwell.length, List.length_eq_zero_iff]
  constructor
  · intro h
    rw [List.eq_nil_iff_forall_not_mem]
    intro r hr
    -- A tag is at most the number of the run that has just ended.
    have hnext : r = t.run + 1 := h r (htags ▸ hr)
    have hle := hwell.le r hr
    omega
  · intro h r hr
    rw [htags, h] at hr
    cases hr

/-- A step leads to a state that drains commands of its own run only, unless it is a restart
with commands queued. -/
theorem drainsOwn_next_iff (hwell : t.WellTagged) (hown : t.Own) (e : Event) :
    (∀ inp, (t.next e).DrainsOwn inp) ↔ ∀ b, e = .restart b → t.session.queue = [] := by
  rcases exists_or_forall_not fun b => e = .restart b with ⟨b, rfl⟩ | hno
  · rw [forall_drainsOwn_iff rfl, own_restart_iff hwell]
    exact ⟨fun h _ _ => h, fun h => h b rfl⟩
  · refine ⟨fun _ b hb => absurd hb (hno b), fun _ inp _ _ => ?_⟩
    exact hown.next hwell hno

end Tagged

open Tagged

/-- In every state that a history reaches a cycle drains commands of its own run only, if and
only if every restart of the history finds the queue empty. -/
theorem restart_drains_own_iff (config : ServoConfig) (params : RtParams)
    (text : Controller → String) (rt : Controller) (es : List Event) :
    (∀ pre, pre <+: es → ∀ inp,
      (runFrom Tagged.next (start (.new config params text rt)) pre).DrainsOwn inp) ↔
      AllSteps Session.step (fun s e => ∀ b, e = .restart b → s.queue = [])
        (.new config params text rt) es := by
  have hproj : AllSteps Tagged.next (fun t e => ∀ b, e = .restart b → t.session.queue = [])
      (start (.new config params text rt)) es ↔ AllSteps Session.step
        (fun s e => ∀ b, e = .restart b → s.queue = []) (.new config params text rt) es :=
    allSteps_proj (Q := fun s e => ∀ b, e = .restart b → s.queue = []) fun _ _ => next_session
  -- Every state of the history is the start or comes after a step.
  rw [forall_prefix_iff_allSteps (P := fun t => ∀ inp, DrainsOwn t inp), ← hproj]
  -- As long as the condition holds, every queued command is of the present run.
  rw [allSteps_congr (I := fun t => t.WellTagged ∧ t.Own)]
  · refine and_iff_right fun inp hrunning => ?_
    cases hrunning
  · exact ⟨⟨rfl, fun r hr => by cases hr⟩, fun r hr => by cases hr⟩
  · rintro t e ⟨hwell, hown⟩ hempty
    refine ⟨hwell.next e, ?_⟩
    rcases exists_or_forall_not fun b => e = .restart b with ⟨b, rfl⟩ | hno
    · exact (own_restart_iff hwell b).mpr (hempty b rfl)
    · exact hown.next hwell hno
  · rintro t e ⟨hwell, hown⟩
    exact drainsOwn_next_iff hwell hown e

/-- The controller is stopped, a velocity is requested from it, and it is started again. -/
def staleVelocityRun : List Event :=
  [.restart profileBringup, .stop, .exit .requested, .setRpm (.fin 100), .restart profileBringup]

/-- The run after the restart drains the velocity that the dead run was asked for. -/
theorem stale_velocity_drained : ¬ ∀ (config : ServoConfig) (params : RtParams)
    (text : Controller → String) (rt : Controller) (es : List Event) (inp : CycleInput),
    (runFrom Tagged.next (start (.new config params text rt)) es).DrainsOwn inp := by
  intro h
  have hown := h profileConfig profileBench (fun _ => "") profileController staleVelocityRun
    (tick 0x0040#16 1 0 []).inp (by decide +kernel) rfl 1 (by decide +kernel)
  revert hown
  decide +kernel

end ViamEthercat.Servo
