import ViamEthercat.Servo.Session
import ViamEthercat.Proofs.Step

/-!
# `ViamEthercat.Proofs.Session`: what one step of a session can do

Only a dispatch and a restart change what the RT loop works on. Every other step reads it, and
at most appends one command to the queue.

* `step_queue`: the queue after a step.
* `step_keepsCalls`: the calls after a step, with the commands that they had.
* `step_sameLoop`: the mode after a step that neither dispatches nor restarts.
-/

set_option autoImplicit false

namespace ViamEthercat.Servo

/-- The positioning commands of a queue that one command was pushed to. -/
theorem targets_concat (cs : List Command) (c : Command) :
    targets (cs ++ [c]) = targets cs ++ c.target?.toList := by
  rw [targets, List.filterMap_append]
  cases c <;> rfl

namespace Session

variable {s : Session}

/-! ### The queue -/

/-- A push appends the command or drops it. -/
theorem pushed_queue (c : Command) :
    (s.pushed c).queue = s.queue ∨ (s.pushed c).queue = s.queue ++ [c] := by
  unfold pushed push
  split_ifs
  · exact .inr rfl
  · exact .inl rfl

/-- A target that finds room goes to the end. -/
theorem targets_pushed (c : Command) : targets (s.pushed c).queue =
    targets s.queue ++ if s.queue.length < s.queueCapacity then c.target?.toList else [] := by
  unfold pushed push
  split_ifs
  · exact targets_concat _ _
  · exact (List.append_nil _).symm

/-- `set_rpm` pushes no target. -/
theorem target_of_setRpm {rpm : Double} {c : Command} (h : s.setRpm rpm = .ok c) :
    c.target? = none := by
  simp only [setRpm, requireAvailable, requireReleased, refuseModeSwitchWhileMoving,
    require_bind_ok_iff] at h
  cases h.2.2.2.2
  rfl

@[simp] theorem released_queue (g : Nat) : (s.released g).queue = s.queue := by
  unfold released
  split_ifs <;> rfl

@[simp] theorem released_rt (g : Nat) : (s.released g).rt = s.rt := by
  unfold released
  split_ifs <;> rfl

@[simp] theorem exited_queue (reason : StopReason) : (s.exited reason).queue = s.queue := by
  cases reason <;> rfl

/-- One operation of a blocking call pushes. -/
theorem advance_queue_of_push (i : Nat) {c : Call} (hpc : c.pc = .push) :
    (s.advance i c).queue = (s.pushed c.command).queue := by
  simp only [advance, hpc]
  rfl

/-- The others read the published state. -/
theorem advance_queue_of_ne (i : Nat) {c : Call} (hpc : c.pc ≠ .push) :
    (s.advance i c).queue = s.queue := by
  cases hat : c.pc <;> simp only [advance, hat]
  case push => exact absurd hat hpc
  all_goals
    (try split) <;> simp [atPc, failed]

/-- An operation of a blocking call pushes its command, or leaves the queue. -/
theorem advance_queue (i : Nat) (c : Call) :
    (s.advance i c).queue = s.queue ∨ (s.advance i c).queue = s.queue ++ [c.command] := by
  by_cases hpc : c.pc = .push
  · rw [advance_queue_of_push i hpc]
    exact pushed_queue c.command
  · exact .inl (advance_queue_of_ne i hpc)

/-- The queue after a step: the same, one command longer, or empty after a steady dispatch. -/
theorem step_queue (s : Session) (e : Event) :
    (s.step e).queue = s.queue ∨ (∃ c, (s.step e).queue = s.queue ++ [c]) ∨
      ((∃ inp, e = .dispatch inp) ∧ (s.step e).queue = []) := by
  -- The verbs that push do it in one step. The blocking calls push in an `advance`.
  have hpush : ∀ c, (s.pushed c).queue = s.queue ∨ (∃ c', (s.pushed c).queue = s.queue ++ [c']) ∨
      ((∃ inp, e = .dispatch inp) ∧ (s.pushed c).queue = []) := fun c =>
    (pushed_queue c).imp_right fun h => .inl ⟨c, h⟩
  cases e with
  | setRpm rpm =>
      simp only [step]
      split
      · exact hpush _
      · exact .inl rfl
  | halt => exact hpush _
  | enable => exact hpush _
  | disable => exact hpush _
  | requestFaultReset => exact hpush _
  | setZero offsetRevs => exact .inl rfl
  | goTo rpm position =>
      simp only [step]
      split <;> exact .inl rfl
  | goFor rpm revs =>
      simp only [step]
      split <;> exact .inl rfl
  | home =>
      simp only [step]
      split <;> exact .inl rfl
  | advance i =>
      simp only [step]
      split
      · rename_i c _
        exact (advance_queue i c).imp_right fun h => .inl ⟨c.command, h⟩
      · exact .inl rfl
  | homeFails i text =>
      simp only [step]
      split
      · split_ifs
        · exact .inl (by simp [atPc, failed])
        · exact .inl rfl
      · exact .inl rfl
  | dispatch inp =>
      simp only [step, dispatched]
      split_ifs
      · exact .inl rfl
      · exact .inr (.inr ⟨⟨inp, rfl⟩, rfl⟩)
      · exact .inl rfl
  | exit reason => exact .inl (exited_queue reason)
  | stop => exact .inl rfl
  | restart b => exact .inl rfl

/-! ### The calls -/

/-- The calls are still there, with their commands. -/
def KeepsCalls (s s' : Session) : Prop :=
  ∀ (i : Nat) (c : Call), s.calls[i]? = some c →
    ∃ c', s'.calls[i]? = some c' ∧ c'.command = c.command

theorem keepsCalls_of_eq {s' : Session} (h : s'.calls = s.calls) : s.KeepsCalls s' :=
  fun _ c hi => ⟨c, h ▸ hi, rfl⟩

theorem keepsCalls_atPc {s' : Session} (h : s'.calls = s.calls) (j : Nat) (pc : CallPc) :
    s.KeepsCalls (s'.atPc j pc) := by
  intro i c hi
  simp only [atPc, h, List.getElem?_modify, hi]
  by_cases hji : j = i
  · exact ⟨{ c with pc := pc }, by simp [hji], rfl⟩
  · exact ⟨c, by simp [hji], rfl⟩

@[simp] theorem released_calls (g : Nat) : (s.released g).calls = s.calls := by
  unfold released
  split_ifs <;> rfl

theorem advance_keepsCalls (i : Nat) (c : Call) : s.KeepsCalls (s.advance i c) := by
  cases hpc : c.pc <;> simp only [advance, hpc]
  case returned => exact keepsCalls_of_eq rfl
  case threw => exact keepsCalls_of_eq rfl
  all_goals
    (try split) <;> exact keepsCalls_atPc (by simp [pushed]) _ _

theorem begun_keepsCalls (verb : String) (command : Nat → Command) :
    s.KeepsCalls (s.begun verb command) := by
  intro i c hi
  have hlt : i < s.calls.length := (List.getElem?_eq_some_iff.mp hi).1
  exact ⟨c, (List.getElem?_append_left hlt).trans hi, rfl⟩

/-- No step drops a call or changes its command. -/
theorem step_keepsCalls (s : Session) (e : Event) : s.KeepsCalls (s.step e) := by
  have hsame : s.KeepsCalls s := keepsCalls_of_eq rfl
  cases e with
  | setRpm rpm =>
      simp only [step]
      split
      · exact keepsCalls_of_eq rfl
      · exact hsame
  | halt | enable | disable | requestFaultReset => exact keepsCalls_of_eq rfl
  | setZero offsetRevs => exact keepsCalls_of_eq rfl
  | goTo rpm position =>
      simp only [step]
      split
      · exact begun_keepsCalls _ _
      · exact hsame
  | goFor rpm revs =>
      simp only [step]
      split
      · exact begun_keepsCalls _ _
      · exact hsame
  | home =>
      simp only [step]
      split
      · exact begun_keepsCalls _ _
      · exact hsame
  | advance i =>
      simp only [step]
      split
      · exact advance_keepsCalls _ _
      · exact hsame
  | homeFails i text =>
      simp only [step]
      split
      · split_ifs
        · exact keepsCalls_atPc (by simp) _ _
        · exact hsame
      · exact hsame
  | dispatch inp =>
      simp only [step, dispatched]
      split_ifs
      · exact keepsCalls_of_eq rfl
      · exact keepsCalls_of_eq rfl
      · exact hsame
  | exit reason => cases reason <;> exact keepsCalls_of_eq rfl
  | stop => exact keepsCalls_of_eq rfl
  | restart b => exact keepsCalls_of_eq rfl

/-! ### The mode -/

/-- What the RT loop works on: the mode, and whether it runs. -/
def SameLoop (s s' : Session) : Prop :=
  s'.rt.motion = s.rt.motion ∧ (s'.running = true → s.running = true)

/-- An operation of a blocking call leaves the mode alone. -/
theorem advance_sameLoop (i : Nat) (c : Call) : s.SameLoop (s.advance i c) := by
  have hreleased : ∀ g, (s.released g).running = s.running := fun g => by
    unfold released
    split_ifs <;> rfl
  cases hpc : c.pc <;> simp only [advance, hpc] <;> (try split) <;>
    exact ⟨by simp [atPc, failed, pushed], by simp [atPc, failed, pushed, hreleased]⟩

/-- A step that neither dispatches nor restarts leaves the mode alone. -/
theorem step_sameLoop (s : Session) {e : Event} (hdispatch : ∀ inp, e ≠ .dispatch inp)
    (hrestart : ∀ b, e ≠ .restart b) : s.SameLoop (s.step e) := by
  have hsame : s.SameLoop s := ⟨rfl, id⟩
  have hpush : ∀ c, s.SameLoop (s.pushed c) := fun _ => ⟨rfl, id⟩
  cases e with
  | setRpm rpm =>
      simp only [step]
      split
      · exact hpush _
      · exact hsame
  | halt => exact hpush _
  | enable => exact hpush _
  | disable => exact hpush _
  | requestFaultReset => exact hpush _
  | setZero offsetRevs => exact ⟨rfl, id⟩
  | goTo rpm position =>
      simp only [step]
      split <;> exact ⟨rfl, id⟩
  | goFor rpm revs =>
      simp only [step]
      split <;> exact ⟨rfl, id⟩
  | home =>
      simp only [step]
      split <;> exact ⟨rfl, id⟩
  | advance i =>
      simp only [step]
      split
      · exact advance_sameLoop _ _
      · exact hsame
  | homeFails i text =>
      simp only [step]
      split
      · split_ifs
        · simp only [failed, released, atPc]
          split_ifs <;> exact ⟨rfl, id⟩
        · exact hsame
      · exact hsame
  | dispatch inp => exact absurd rfl (hdispatch inp)
  | exit reason => cases reason <;> exact ⟨rfl, fun h => by cases h⟩
  | stop => exact ⟨rfl, id⟩
  | restart b => exact absurd rfl (hrestart b)

end Session

/-! ### A session to evaluate the model on -/

/-- A profile-mode drive with 10000 counts per revolution, limited to 3000 rpm. -/
def profileConfig : ServoConfig :=
  { ifname := "eth0", motionMode := .profile, maxMotorSpeedRpm := .fin 3000
    motorRatedCurrentAmps := .fin 5, countsPerRev := .fin 10000 }

/-- The constructed controller, before its first run. -/
def profileSession : Session := .new profileConfig profileBench (fun _ => "") profileController

/-- A bring-up of it, without a velocity budget. -/
def profileBringup : Bringup :=
  ⟨profileConfig, profileBench, profileController.motion, profileController.posHist, 0, []⟩

end ViamEthercat.Servo
