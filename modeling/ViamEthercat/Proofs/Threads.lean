import ViamEthercat.Servo.Threads
import ViamEthercat.Proofs.Session

/-!
# `ViamEthercat.Proofs.Threads`: what one step of the threads can do

* `step_moves`: what a step can do, one case for each kind.
* `step_queue`: the queue after a step, from the command that the step hands to
  `CommandQueue::push` and whether it drains.
* `step_ids`: only a dispatch and the stores of `reset_run_state` change the published move ids.
* `setRpm_alone`, `goTo_alone`, `goFor_alone` and `restart_alone`: without other threads the
  steps of a verb, and those of a restart, do what `Session` has for them.
-/

set_option autoImplicit false

namespace ViamEthercat.Servo

open Lib

/-- The move ids that the loop publishes: active, completed and failed. -/
def Controller.ids (s : Controller) : Nat × Nat × Nat :=
  (s.activeGeneration, s.completedGeneration, s.failedGeneration)

/-- The velocities of a queue that one command was pushed to. -/
theorem velocities_concat (cs : List Command) (c : Command) :
    velocities (cs ++ [c]) = velocities cs ++ c.velocity?.toList := by
  rw [velocities, List.filterMap_append]
  cases c <;> rfl

/-- A dispatch is a cycle of the loop, when there is one. -/
theorem Session.dispatched_rt (s : Session) (inp : CycleInput) : (s.dispatched inp).rt =
    if s.running then cycle s.params s.rt ⟨inp, s.queue⟩ else s.rt := by
  unfold dispatched
  split_ifs <;> rfl

/-! ### One operation of a call -/

namespace Verb

/-- The kind of command that a call pushes, with its own move id. -/
def Commands (command : Nat → Command) : Verb → Prop
  | .setRpm => ∀ g, ∃ v, command g = .setVelocity v
  | .goTo | .goFor => ∀ g, ∃ u, command g = .setTarget u ∧ u.generation = g
  | .home => ∀ g, ∃ h, command g = .startHoming h

variable {v : Verb} {command : Nat → Command} {g : Nat}

/-- A move is neither of the other verbs. -/
theorem ne_of_isMove (h : v.isMove = true) : v ≠ .setRpm ∧ v ≠ .home := by
  cases v <;> simp [isMove] at h ⊢

/-- The call that pushes a velocity is one of `set_rpm`. -/
theorem Commands.setRpm_of_velocity (h : v.Commands command) {x : Int32}
    (hx : command g = .setVelocity x) : v = .setRpm := by
  cases v with
  | setRpm => rfl
  | home =>
      obtain ⟨h, hh⟩ := h g
      cases hh.symm.trans hx
  | goTo | goFor =>
      obtain ⟨u, hu, -⟩ := h g
      cases hu.symm.trans hx

/-- The call that pushes a target is one of a move, and the target has its move id. -/
theorem Commands.isMove_of_target (h : v.Commands command) {u : SetTarget}
    (hu : command g = .setTarget u) : v.isMove = true ∧ u.generation = g := by
  cases v with
  | setRpm =>
      obtain ⟨x, hx⟩ := h g
      cases hx.symm.trans hu
  | home =>
      obtain ⟨h, hh⟩ := h g
      cases hh.symm.trans hu
  | goTo | goFor =>
      obtain ⟨u', hu', hgeneration⟩ := h g
      cases hu'.symm.trans hu
      exact ⟨rfl, hgeneration⟩

end Verb

/-- Where an exchange or an SDO transfer can fail. -/
def Pc.turns : Pc → Bool
  | .exchange _ | .prepare | .restore _ => true
  | _ => false

/-- `release_motion_slot` may still be ahead. -/
def Pc.mayRelease : Pc → Bool
  | .restore _ | .done _ => false
  | _ => true

namespace Thread

variable (s : Session) (t : Thread)

/-- What an operation of a call can write. -/
theorem step_frame : ∃ n slot q fail state, (t.step s).1 =
    { s with
        nextGeneration := n, motionSlot := slot, queue := q
        rt := { s.rt with homingFail := fail, homingState := state } } := by
  have hreleased : ∀ g, ∃ slot, s.released g = { s with motionSlot := slot } := fun g => by
    unfold Session.released
    split_ifs
    · exact ⟨0, rfl⟩
    · exact ⟨s.motionSlot, rfl⟩
  cases hpc : t.pc <;> simp only [step, hpc]
  case exchange => split <;> exact ⟨_, _, _, _, _, rfl⟩
  case checkMode => split <;> exact ⟨_, _, _, _, _, rfl⟩
  case release =>
      obtain ⟨slot, h⟩ := hreleased t.generation
      exact ⟨_, slot, _, _, _, h⟩
  case releaseHomed =>
      obtain ⟨slot, h⟩ := hreleased t.generation
      exact ⟨_, slot, _, _, _, h⟩
  all_goals exact ⟨_, _, _, _, _, rfl⟩

/-- One operation of a call pushes its command. The others leave the queue. -/
theorem step_queue : (t.step s).1.queue =
    if t.pc = .push then (push s.queueCapacity s.queue (t.command t.generation)).1
    else s.queue := by
  cases hpc : t.pc <;> simp only [step, hpc, reduceCtorEq, if_true, if_false]
  case exchange => split <;> rfl
  case checkMode => split <;> rfl
  case push => rfl
  case release => exact Session.released_queue _
  case releaseHomed => exact Session.released_queue _

/-- Only the operation that takes a move id changes the last one. -/
theorem step_nextGeneration (h : t.pc ≠ .takeId) :
    (t.step s).1.nextGeneration = s.nextGeneration := by
  have hreleased : ∀ g, (s.released g).nextGeneration = s.nextGeneration := fun g => by
    unfold Session.released
    split_ifs <;> rfl
  cases hpc : t.pc <;> simp only [step, hpc]
  case takeId => exact absurd hpc h
  case exchange => split <;> rfl
  case checkMode => split <;> rfl
  case push => rfl
  case release => exact hreleased _
  case releaseHomed => exact hreleased _

/-- All but one operation of a call only move it on. -/
theorem step_atPc (h : t.pc ≠ .takeId) : ∃ pc, (t.step s).2 = t.atPc pc := by
  cases hpc : t.pc <;> simp only [step, hpc]
  case takeId => exact absurd hpc h
  case exchange => split <;> exact ⟨_, rfl⟩
  case checkMode => split <;> exact ⟨_, rfl⟩
  all_goals exact ⟨_, rfl⟩

/-- A call keeps its verb and its command. -/
theorem step_call : (t.step s).2.verb = t.verb ∧ (t.step s).2.command = t.command := by
  by_cases h : t.pc = .takeId
  · simp [step, h]
  · obtain ⟨pc, hpc⟩ := step_atPc s t h
    rw [hpc]
    exact ⟨rfl, rfl⟩

/-- A call takes its move id in one operation, and keeps it. -/
theorem step_generation : (t.step s).2.generation =
    if t.pc = .takeId then s.nextId else t.generation := by
  split_ifs with h
  · simp only [step, h]
  · obtain ⟨pc, hpc⟩ := step_atPc s t h
    rw [hpc]
    rfl

@[simp] theorem slotFree_waits (cur : Nat) : (t.slotFree cur).waits = false := by
  unfold slotFree
  split_ifs <;> rfl

@[simp] theorem slotRead_waits (cur : Nat) : (t.slotRead cur).waits = false := by
  unfold slotRead
  split_ifs
  · exact t.slotFree_waits 0
  · rfl

/-- A call that found the slot free or terminal compares it with what it read. -/
theorem slotFree_exchange {c cur : Nat} (h : t.slotFree c = .exchange cur) :
    t.verb ≠ .setRpm ∧ cur = c := by
  unfold slotFree at h
  split_ifs at h with hset
  cases h
  exact ⟨hset, rfl⟩

theorem slotRead_exchange {c cur : Nat} (h : t.slotRead c = .exchange cur) :
    t.verb ≠ .setRpm ∧ cur = 0 := by
  unfold slotRead at h
  split_ifs at h
  exact t.slotFree_exchange h

/-- A call begins to wait with its push. -/
theorem waits_step (hwaits : t.pc.waits = false) (hpush : t.pc ≠ .push) :
    (t.step s).2.pc.waits = false := by
  cases hpc : t.pc <;> simp only [hpc, Pc.waits, Bool.true_eq_false] at hwaits <;>
    simp only [step, hpc, atPc]
  case takeId => rfl
  case loadSlot => exact t.slotRead_waits _
  case slotCompleted => split_ifs; exacts [t.slotFree_waits _, rfl]
  case slotFailed => split_ifs; exacts [t.slotFree_waits _, rfl]
  case exchange => split_ifs; exacts [rfl, rfl, t.slotRead_waits _]
  case checkMode => split <;> rfl
  case prepare => rfl
  case push => exact absurd hpc hpush
  case giveUp => rfl
  case release => rfl
  case releaseHomed => rfl
  case restore => rfl
  case done => rfl

/-- No operation leads back to the start of a call. -/
theorem step_ne_takeId : (t.step s).2.pc ≠ .takeId := by
  cases hpc : t.pc <;>
    simp only [step, hpc, atPc, slotRead, slotFree, busy, fails, ne_eq, reduceCtorEq,
      not_false_eq_true]
  case checkMode => split <;> exact nofun
  all_goals split_ifs <;> exact nofun

/-- How a move that waits returns: after one of two loads. -/
theorem returned_of_step (hmove : t.verb.isMove = true) (hpc : t.pc ≠ .done .returned)
    (h : (t.step s).2.pc = .done .returned) :
    t.pc.waits = true ∧ (t.generation ≤ s.rt.completedGeneration ∨
      t.generation < s.rt.activeGeneration) := by
  have hset := (Verb.ne_of_isMove hmove).1
  cases hcase : t.pc <;> simp only [step, hcase, atPc] at h
  case loadCompleted =>
      split_ifs at h with hle
      exact ⟨rfl, .inl hle⟩
  case loadActive =>
      split_ifs at h with hlt
      exact ⟨rfl, .inr hlt⟩
  case done => exact absurd (hcase.trans h) hpc
  case push => simp [hset] at h
  case checkMode => split at h <;> cases h
  case loadSlot => unfold slotRead slotFree at h; split_ifs at h
  case exchange => unfold slotRead slotFree at h; split_ifs at h
  case slotCompleted => unfold slotFree at h; split_ifs at h
  case slotFailed => unfold slotFree busy at h; split_ifs at h; cases h
  case loadSeq => split_ifs at h
  case loadHoming => split_ifs at h
  case loadStopping => unfold fails at h; split_ifs at h
  case loadExited => unfold fails at h; split_ifs at h
  case loadFailed => unfold fails at h; split_ifs at h
  case loadFaulted => unfold fails at h; split_ifs at h
  case wait => split_ifs at h
  all_goals cases h

/-- Only `home` comes to its SDO transfers. -/
theorem prepare_of_step (h : (t.step s).2.pc = .prepare) : t.verb = .home := by
  cases hpc : t.pc <;> simp only [step, hpc, atPc, slotRead, slotFree, busy, fails] at h
  case exchange =>
      split_ifs at h with _ hhome
      exact hhome
  case checkMode => split at h <;> cases h
  all_goals first
    | cases h
    | split_ifs at h

/-- Only `home` loads the homing state. -/
theorem homing_of_step {seq : Nat} (h : (t.step s).2.pc = .loadHoming seq) : t.verb = .home := by
  cases hpc : t.pc <;> simp only [step, hpc, atPc, slotRead, slotFree, busy, fails] at h
  case loadSeq =>
      split_ifs at h with hhome
      exact hhome
  case checkMode => split at h <;> cases h
  all_goals first
    | cases h
    | split_ifs at h

/-- What a call is, from its verb and where it is: `set_rpm` does not wait, and only `home`
prepares and looks at the homing state. -/
structure WellFormed : Prop where
  commands : t.verb.Commands t.command
  fresh : t.pc = .takeId → t.generation = 0
  prepares : t.pc = .prepare → t.verb = .home
  blocking : t.pc.waits = true → t.verb ≠ .setRpm
  homing : ∀ seq, t.pc = .loadHoming seq → t.verb = .home

/-- An exchange or an SDO transfer of the call fails, and leaves it at `pc`. -/
structure FailsTo (pc : Pc) : Prop where
  turns : t.pc.turns = true
  ne_takeId : pc ≠ .takeId
  ne_prepare : pc ≠ .prepare
  waits : pc.waits = false
  exchange : ∀ cur, pc = .exchange cur → t.verb ≠ .setRpm ∧ cur = 0
  holdsLock : (t.atPc pc).holdsLock = true → t.holdsLock = true
  mayRelease : pc.mayRelease = true → t.pc.mayRelease = true

/-- `compare_exchange_weak` fails: the loop looks at the slot again. -/
theorem failsTo_slotRead {cur : Nat} (hpc : t.pc = .exchange cur) (slot : Nat) :
    t.FailsTo (t.slotRead slot) where
  turns := by rw [hpc]; rfl
  ne_takeId := by unfold slotRead slotFree; split_ifs <;> exact nofun
  ne_prepare := by unfold slotRead slotFree; split_ifs <;> exact nofun
  waits := t.slotRead_waits slot
  exchange := fun _ => t.slotRead_exchange
  holdsLock := fun _ => by rw [holdsLock, hpc]
  mayRelease := fun _ => by rw [hpc]; rfl

namespace WellFormed

variable {t}

/-- A call that starts. -/
theorem start (hcommand : t.verb.Commands t.command) (hzero : t.generation = 0)
    (hpc : t.pc = if t.verb = .setRpm then .loadSlot else .takeId) : t.WellFormed := by
  refine ⟨hcommand, fun _ => hzero, ?_, ?_, ?_⟩ <;>
    rw [hpc] <;> split_ifs <;> exact nofun

theorem step (h : t.WellFormed) : (t.step s).2.WellFormed := by
  obtain ⟨hverb, hcommand⟩ := t.step_call s
  refine ⟨by rw [hverb, hcommand]; exact h.commands, fun hpc => absurd hpc (t.step_ne_takeId s),
    fun hpc => hverb.trans (t.prepare_of_step s hpc), ?_,
    fun seq hpc => hverb.trans (t.homing_of_step s hpc)⟩
  · intro hwaits
    rw [hverb]
    cases hwas : t.pc.waits with
    | true => exact h.blocking hwas
    | false =>
        -- Only a push leads into the wait, and not that of `set_rpm`.
        have hpush : t.pc = .push := by
          by_contra hne
          rw [t.waits_step s hwas hne] at hwaits
          cases hwaits
        intro hset
        simp [Thread.step, hpush, atPc, hset, Pc.waits] at hwaits

/-- A call that an exchange or an SDO transfer failed for. -/
theorem turn {pc : Pc} (h : t.WellFormed) (hturn : t.FailsTo pc) : (t.atPc pc).WellFormed where
  commands := h.commands
  fresh := fun hpc => absurd hpc hturn.ne_takeId
  prepares := fun hpc => absurd hpc hturn.ne_prepare
  blocking := fun hwaits => absurd (hturn.waits.symm.trans hwaits) (by decide)
  homing := fun seq hpc => by
    have hwaits := hturn.waits
    rw [show pc = .loadHoming seq from hpc] at hwaits
    cases hwaits

end WellFormed

end Thread

/-! ### One step of the process -/

/-- The command that a verb pushes at once. -/
def Invocation.pushes? : Invocation → Option Command
  | .halt => some .halt
  | .enable => some .enable
  | .disable => some .disable
  | .requestFaultReset => some .faultReset
  | _ => none

namespace Session

variable {s : Session}

theorem velocity_of_setRpmRequest {rpm : Double} {c : Command}
    (h : s.setRpmRequest rpm = .ok c) : ∃ v, c = .setVelocity v := by
  simp only [setRpmRequest, requireAvailable, requireReleased, require_bind_ok_iff] at h
  cases h.2.2
  exact ⟨_, rfl⟩

theorem generation_of_goToTarget {rpm position : Double} {target : Nat → SetTarget}
    (h : s.goToTarget rpm position = .ok target) (g : Nat) : (target g).generation = g := by
  simp only [goToTarget, goToTargetIn, requireAvailable, requireReleased,
    refuseModeSwitchWhileMoving, require_bind_ok_iff] at h
  cases h.2.2.2.2
  rfl

theorem generation_of_goForTarget {rpm revs : Double} {target : Nat → SetTarget}
    (h : s.goForTarget rpm revs = .ok target) (g : Nat) : (target g).generation = g := by
  simp only [goForTarget, goForTargetIn, requireAvailable, requireReleased,
    refuseModeSwitchWhileMoving, require_bind_ok_iff] at h
  cases h.2.2.2.2
  rfl

end Session

def Stage.isResetting : Stage → Bool
  | .resetting _ _ => true
  | _ => false

/-- What a step of the thread that holds the lock exclusively can do. -/
inductive Holds (y : Process) : Hold → Process → Prop
  | stays {h : Hold} : Holds y h y
  /-- The lock is taken or given back, or the Runner was joined. -/
  | passes {h : Hold} {stage : Stage} (hstage : y.stage.isResetting = false)
      (hafter : stage.isResetting = false) : Holds y h (y.atStage stage)
  | stops (hstage : y.stage = .locked) : Holds y .storeStopping
      ({ y with shared := { y.shared with stopping := true } }.atStage .stopped)
  | wakes (hstage : y.stage = .stopped) : Holds y .wake
      ({ y with shared := { y.shared with rt := y.shared.rt.bumpWake } }.atStage .woken)
  | resets {b : Bringup} (hstage : y.stage.isResetting = false)
      (hrunning : y.shared.running = false) :
      Holds y (.reset b)
        ({ y with shared := y.shared.resolved b }.atStage (.resetting runStores b))
  | stores {r : RunStore} {todo : List RunStore} {b : Bringup}
      (hstage : y.stage = .resetting (r :: todo) b) :
      Holds y .store ({ y with shared := y.shared.store r }.atStage (.resetting todo b))
  | launches {b : Bringup} (hstage : y.stage = .resetting [] b) :
      Holds y .launch ({ y with shared := y.shared.launched b }.atStage .spawned)
  | refuses {text : String} {b : Bringup} (hstage : y.stage = .resetting [] b) :
      Holds y (.refuse text) ({ y with shared := y.shared.refused text }.atStage .down)

namespace Holds

variable {y y' : Process} {h : Hold}

/-- The holder of the lock leaves the calls and the queue. -/
theorem frame (hholds : Holds y h y') :
    y'.threads = y.threads ∧ y'.shared.queue = y.shared.queue ∧
      y'.shared.queueCapacity = y.shared.queueCapacity := by
  cases hholds with
  | @stores r todo b hstage => cases r <;> exact ⟨rfl, rfl, rfl⟩
  | _ => exact ⟨rfl, rfl, rfl⟩

/-- The holder of the lock writes the move ids in the stores of `reset_run_state` only. -/
theorem ids (hholds : Holds y h y') (hstore : h ≠ .store) :
    y'.shared.rt.ids = y.shared.rt.ids := by
  cases hholds with
  | stores => exact absurd rfl hstore
  | @launches b hstage =>
      -- The bring-up only tracks the shaft.
      have hframes : ∀ (frames : List CycleInput) (rt : Controller),
          (frames.foldl (fun rt inp => rt.stageBringupOutputs b.params inp) rt).ids =
            rt.ids := by
        intro frames
        induction frames with
        | nil => exact fun rt => rfl
        | cons inp frames ih => exact fun rt => ih _
      exact hframes b.frames y.shared.rt
  | _ => rfl

end Holds

/-- What a step can do. -/
inductive Moves (y : Process) : Op → Process → Prop
  | stays {op : Op} : Moves y op y
  | pushes {r : Invocation} {c : Command} (hlock : y.exclusive = false)
      (hc : r.pushes? = some c) : Moves y (.call r) (y.pushed c)
  | begins {r : Invocation} {v : Verb} {command : Nat → Command} (hlock : y.exclusive = false)
      (hcommand : v.Commands command) :
      Moves y (.call r) (y.begun v (if v = .setRpm then .loadSlot else .takeId) command)
  | zeroes {offsetRevs : Double} :
      Moves y (.setZero offsetRevs) { y with shared := y.shared.setZero offsetRevs }
  | advances {i : Nat} {t : Thread} (hi : y.threads[i]? = some t)
      (hlock : ¬ (t.pc = .push ∧ t.verb = .home ∧ y.exclusive = true)) :
      Moves y (.advance i)
        { y with shared := (t.step y.shared).1, threads := y.threads.set i (t.step y.shared).2 }
  /-- An exchange or an SDO transfer fails, which only the call itself sees. -/
  | turns {op : Op} {i : Nat} {t : Thread} {pc : Pc} (hi : y.threads[i]? = some t)
      (hturn : t.FailsTo pc) :
      Moves y op (y.put i (t.atPc pc))
  | dispatches {inp : CycleInput} :
      Moves y (.dispatch inp) { y with shared := y.shared.dispatched inp }
  | exits {reason : StopReason} (hrunning : y.shared.running = true) :
      Moves y (.exit reason) { y with shared := y.shared.exited reason }
  | holds {h : Hold} {y' : Process} (hholds : Holds y h y') : Moves y (.hold h) y'

namespace Process

variable (y : Process)

theorem call_moves (hlock : y.exclusive = false) (r : Invocation) :
    Moves y (.call r) (y.call r) := by
  cases r with
  | setRpm rpm =>
      simp only [call]
      split
      · rename_i c hc
        obtain ⟨v, rfl⟩ := Session.velocity_of_setRpmRequest hc
        exact .begins (v := .setRpm) hlock fun _ => ⟨v, rfl⟩
      · exact .stays
  | goTo rpm position =>
      simp only [call]
      split
      · rename_i target h
        exact .begins (v := .goTo) hlock fun g =>
          ⟨_, rfl, Session.generation_of_goToTarget h g⟩
      · exact .stays
  | goFor rpm revs =>
      simp only [call]
      split
      · rename_i target h
        exact .begins (v := .goFor) hlock fun g =>
          ⟨_, rfl, Session.generation_of_goForTarget h g⟩
      · exact .stays
  | home =>
      simp only [call]
      split
      · exact .begins (v := .home) hlock fun g => ⟨_, rfl⟩
      · exact .stays
  | halt => exact .pushes hlock rfl
  | enable => exact .pushes hlock rfl
  | disable => exact .pushes hlock rfl
  | requestFaultReset => exact .pushes hlock rfl

theorem hold_holds (h : Hold) : Holds y h (y.hold h) := by
  cases h <;> simp only [hold]
  case lock =>
      split_ifs with hlock
      · exact .stays
      · refine .passes ?_ rfl
        cases hstage : y.stage <;> simp_all [exclusive, Stage.isResetting]
  case storeStopping =>
      split
      · exact .stops ‹_›
      · exact .stays
  case wake =>
      split
      · exact .wakes ‹_›
      · exact .stays
  case join =>
      split
      · rename_i hstage
        split_ifs
        · exact .stays
        · exact .passes (by rw [hstage]; rfl) rfl
      · rename_i hstage
        split_ifs
        · exact .stays
        · exact .passes (by rw [hstage]; rfl) rfl
      · exact .stays
  case reset =>
      split
      · rename_i hstage
        split_ifs with hrunning
        · exact .stays
        · exact .resets (by rw [hstage]; rfl) (by simpa using hrunning)
      · rename_i hstage
        split_ifs with hrunning
        · exact .stays
        · exact .resets (by rw [hstage]; rfl) (by simpa using hrunning)
      · exact .stays
  case store =>
      split
      · exact .stores ‹_›
      · exact .stays
  case launch =>
      split
      · exact .launches ‹_›
      · exact .stays
  case refuse =>
      split
      · exact .refuses ‹_›
      · exact .stays
  case unlock =>
      split
      · rename_i hstage
        exact .passes (by rw [hstage]; rfl) rfl
      · rename_i hstage
        exact .passes (by rw [hstage]; rfl) rfl
      · rename_i hstage
        exact .passes (by rw [hstage]; rfl) rfl
      · exact .stays

/-- Every step is one of these. -/
theorem step_moves (op : Op) : Moves y op (y.step op) := by
  cases op with
  | call r =>
      simp only [step]
      split_ifs with hlock
      · exact .stays
      · exact y.call_moves (by simpa using hlock) r
  | setZero offsetRevs => exact .zeroes
  | advance i =>
      simp only [step]
      split
      · rename_i t hi
        unfold advance
        split_ifs with hlock
        · exact .stays
        · exact .advances hi hlock
      · exact .stays
  | exchangeFails i =>
      simp only [step]
      split
      · rename_i t hi
        split
        · rename_i cur hpc
          exact .turns hi (t.failsTo_slotRead hpc _)
        · exact .stays
      · exact .stays
  | homeFails i text =>
      simp only [step]
      split
      · rename_i t hi
        split
        · rename_i hpc
          exact .turns hi
            ⟨by rw [hpc]; rfl, nofun, nofun, rfl, nofun, nofun, fun _ => by rw [hpc]; rfl⟩
        · rename_i hpc
          exact .turns hi ⟨by rw [hpc]; rfl, nofun, nofun, rfl, nofun, nofun, nofun⟩
        · exact .stays
      · exact .stays
  | dispatch inp => exact .dispatches
  | exit reason =>
      simp only [step]
      split_ifs with hrunning
      · exact .exits hrunning
      · exact .stays
  | hold h => exact .holds (y.hold_holds h)

/-! ### The queue -/

/-- The call that a step runs `CommandQueue::push` for. -/
def pusher? : Op → Option Thread
  | .advance i => (y.threads[i]?).filter fun t =>
      decide (t.pc = .push ∧ ¬ (t.verb = .home ∧ y.exclusive = true))
  | _ => none

/-- The command that a step hands to `CommandQueue::push`. -/
def pushes? : Op → Option Command
  | .call r => if y.exclusive then none else r.pushes?
  | op => (y.pusher? op).map fun t => t.command t.generation

/-- The step pops the whole queue. -/
def drains : Op → Bool
  | .dispatch inp => y.shared.running && !inp.stopping
  | _ => false

/-- The queue with what a step pushes. -/
def takes (c : Option Command) : List Command :=
  (c.map fun c => (push y.shared.queueCapacity y.shared.queue c).1).getD y.shared.queue

/-- A push appends the command or drops it. -/
theorem takes_cases (c : Command) :
    y.takes (some c) = y.shared.queue ∨ y.takes (some c) = y.shared.queue ++ [c] :=
  Session.pushed_queue c

theorem call_queue (r : Invocation) : (y.call r).shared.queue = y.takes r.pushes? := by
  cases r <;> simp only [call, Invocation.pushes?]
  case setRpm => split <;> rfl
  case goTo => split <;> rfl
  case goFor => split <;> rfl
  case home => split <;> rfl
  all_goals rfl

/-- The queue after a step. -/
theorem step_queue (op : Op) : (y.step op).shared.queue =
    if y.drains op then [] else y.takes (y.pushes? op) := by
  cases op with
  | call r =>
      simp only [step, drains, pushes?, Bool.false_eq_true, if_false]
      cases y.exclusive with
      | true => rfl
      | false => exact y.call_queue r
  | setZero offsetRevs => rfl
  | advance i =>
      simp only [step, drains, pushes?, pusher?, Bool.false_eq_true, if_false]
      cases hi : y.threads[i]? with
      | none => rfl
      | some t =>
          simp only [advance, Option.filter_some]
          by_cases hpush : t.pc = .push
          · by_cases hlock : t.verb = .home ∧ y.exclusive = true
            · simp [hpush, hlock, takes]
            · simp [hpush, hlock, takes, t.step_queue y.shared]
          · simp [hpush, takes, t.step_queue y.shared]
  | exchangeFails i =>
      simp only [step]
      split
      · split <;> rfl
      · rfl
  | homeFails i text =>
      simp only [step]
      split
      · split <;> rfl
      · rfl
  | dispatch inp =>
      by_cases hrunning : y.shared.running = true
      · cases hstop : inp.stopping <;>
          simp [step, Session.dispatched, drains, pushes?, pusher?, takes, hrunning, hstop]
      · simp [step, Session.dispatched, drains, pushes?, pusher?, takes, hrunning]
  | exit reason =>
      simp only [step, drains, Bool.false_eq_true, if_false]
      split_ifs
      · exact Session.exited_queue reason
      · rfl
  | hold h => exact (y.hold_holds h).frame.2.1

theorem step_queueCapacity (op : Op) :
    (y.step op).shared.queueCapacity = y.shared.queueCapacity := by
  have hmoves := y.step_moves op
  generalize y.step op = y' at hmoves
  cases hmoves with
  | @advances i t hi hlock =>
      obtain ⟨n, slot, q, fail, state, hframe⟩ := t.step_frame y.shared
      simp only [hframe]
  | @dispatches inp =>
      simp only [Session.dispatched]
      split_ifs <;> rfl
  | @exits reason hrunning => cases reason <;> rfl
  | holds hholds => exact hholds.frame.2.2
  | _ => rfl

/-! ### The calls -/

/-- The call `i` after a step: it was there before, it starts, or the step moves it on. -/
theorem getElem?_step {op : Op} {i : Nat} {t' : Thread} (h : (y.step op).threads[i]? = some t') :
    y.threads[i]? = some t' ∨
      (i = y.threads.length ∧ t'.verb.Commands t'.command ∧ t'.generation = 0 ∧
        t'.pc = if t'.verb = .setRpm then .loadSlot else .takeId) ∨
      (∃ t, y.threads[i]? = some t ∧ op = .advance i ∧ t' = (t.step y.shared).2) ∨
      (∃ t pc, y.threads[i]? = some t ∧ t' = t.atPc pc ∧ t.FailsTo pc) := by
  have hset : ∀ {j u}, (y.threads.set j u)[i]? = some t' →
      y.threads[i]? = some t' ∨ (j = i ∧ t' = u) := by
    intro j u hj
    rw [List.getElem?_set] at hj
    split_ifs at hj with hji hlt
    · exact .inr ⟨hji, (Option.some.inj hj).symm⟩
    · exact .inl hj
  have hmoves := y.step_moves op
  generalize y.step op = y' at hmoves h
  cases hmoves with
  | begins hlock hcommand =>
      by_cases hlt : i < y.threads.length
      · rw [begun, List.getElem?_append_left hlt] at h
        exact .inl h
      · -- The call that starts is the last one.
        have hle := (List.getElem?_eq_some_iff.mp h).1
        rw [begun, List.length_append, List.length_singleton] at hle
        obtain rfl : i = y.threads.length := by omega
        rw [begun, List.getElem?_concat_length, Option.some.injEq] at h
        subst h
        exact .inr (.inl ⟨rfl, hcommand, rfl, rfl⟩)
  | advances hi hlock =>
      rcases hset h with h | ⟨rfl, rfl⟩
      · exact .inl h
      · exact .inr (.inr (.inl ⟨_, hi, rfl, rfl⟩))
  | turns hi hturn =>
      rcases hset h with h | ⟨rfl, rfl⟩
      · exact .inl h
      · exact .inr (.inr (.inr ⟨_, _, hi, rfl, hturn⟩))
  | holds hholds => exact .inl (hholds.frame.1 ▸ h)
  | _ => exact .inl h

variable {y} in
/-- A call stays, with its command and its move id. -/
theorem extends_step {i : Nat} {t : Thread} (h : y.threads[i]? = some t) (op : Op) :
    ∃ t', (y.step op).threads[i]? = some t' ∧ t'.command = t.command ∧
      (t.pc ≠ .takeId → t'.generation = t.generation) := by
  have hlt := (List.getElem?_eq_some_iff.mp h).1
  have hsame : ∃ t', y.threads[i]? = some t' ∧ t'.command = t.command ∧
      (t.pc ≠ .takeId → t'.generation = t.generation) := ⟨t, h, rfl, fun _ => rfl⟩
  have hset : ∀ {j u u'}, y.threads[j]? = some u → u'.command = u.command →
      (u.pc ≠ .takeId → u'.generation = u.generation) →
      ∃ t', (y.threads.set j u')[i]? = some t' ∧ t'.command = t.command ∧
        (t.pc ≠ .takeId → t'.generation = t.generation) := by
    intro j u u' hj hcommand hgeneration
    by_cases hji : j = i
    · subst hji
      obtain rfl : u = t := Option.some.inj (hj.symm.trans h)
      exact ⟨u', by rw [List.getElem?_set_self hlt], hcommand, hgeneration⟩
    · rw [List.getElem?_set_ne hji]
      exact hsame
  have hmoves := y.step_moves op
  generalize y.step op = y' at hmoves
  cases hmoves with
  | begins hlock hcommand =>
      rw [begun, List.getElem?_append_left hlt]
      exact hsame
  | @advances j u hj hlock =>
      refine hset hj (u.step_call y.shared).2 fun hne => ?_
      rw [u.step_generation y.shared, if_neg hne]
  | turns hj hturn => exact hset hj rfl fun _ => rfl
  | holds hholds =>
      rw [hholds.frame.1]
      exact hsame
  | _ => exact hsame

/-- No call is taken away. -/
theorem threads_length_le (op : Op) : y.threads.length ≤ (y.step op).threads.length := by
  have hmoves := y.step_moves op
  generalize y.step op = y' at hmoves
  cases hmoves with
  | begins => simp [begun]
  | advances => simp
  | turns => simp [put]
  | holds hholds => rw [hholds.frame.1]
  | _ => exact le_rfl

/-- Every call is well formed. -/
def Commanded : Prop := ∀ t ∈ y.threads, t.WellFormed

variable {y} in
theorem Commanded.step (h : y.Commanded) (op : Op) : (y.step op).Commanded := by
  intro t' ht'
  obtain ⟨i, hi⟩ := List.mem_iff_getElem?.mp ht'
  rcases y.getElem?_step hi with hold | ⟨-, hcommand, hzero, hpc⟩ | ⟨t, hold, -, rfl⟩ |
    ⟨t, pc, hold, rfl, hturn⟩
  · exact h t' (List.mem_of_getElem? hold)
  · exact .start hcommand hzero hpc
  · exact (h t (List.mem_of_getElem? hold)).step y.shared
  · exact (h t (List.mem_of_getElem? hold)).turn hturn

/-- The call that a step pushes for is at its push. -/
theorem pusher_eq_some_iff {op : Op} {t : Thread} : y.pusher? op = some t ↔
    ∃ i, op = .advance i ∧ y.threads[i]? = some t ∧ t.pc = .push ∧
      ¬ (t.verb = .home ∧ y.exclusive = true) := by
  cases op with
  | advance i =>
      simp only [pusher?, Option.filter_eq_some_iff, decide_eq_true_eq]
      constructor
      · rintro ⟨hi, hpc, hlock⟩
        exact ⟨i, rfl, hi, hpc, hlock⟩
      · rintro ⟨j, hj, hi, hpc, hlock⟩
        cases hj
        exact ⟨hi, hpc, hlock⟩
  | _ => simp [pusher?]

/-- Who pushes a motion command: a call, with a command of its kind. -/
theorem pusher_of_isMotion {op : Op} {c : Command} (hc : c.isMotion = true)
    (hpush : y.pushes? op = some c) :
    ∃ t, y.pusher? op = some t ∧ c = t.command t.generation := by
  cases op with
  | call r =>
      simp only [pushes?] at hpush
      split_ifs at hpush
      cases r <;> cases hpush <;> cases hc
  | advance i =>
      simp only [pushes?, Option.map_eq_some_iff] at hpush
      obtain ⟨t, ht, rfl⟩ := hpush
      exact ⟨t, ht, rfl⟩
  | _ => cases hpush

/-! ### The move ids -/

/-- A call that takes its move id in this step takes it before the ids wrap. -/
def NoWrap : Op → Prop
  | .advance i => ∀ t ∈ y.threads[i]?, t.pc = .takeId → y.shared.nextGeneration + 1 < 2 ^ 32
  | _ => True

instance (op : Op) : Decidable (y.NoWrap op) :=
  match op with
  | .advance _ => inferInstanceAs (Decidable (∀ _ ∈ _, _ → _))
  | .call _ | .setZero _ | .dispatch _ | .exchangeFails _ | .homeFails _ _ | .exit _ | .hold _ =>
      isTrue trivial

variable {y} in
theorem NoWrap.nextId {i : Nat} {t : Thread} (h : y.NoWrap (.advance i))
    (hi : y.threads[i]? = some t) (hpc : t.pc = .takeId) :
    y.shared.nextId = y.shared.nextGeneration + 1 :=
  Nat.mod_eq_of_lt (h t hi hpc)

/-- The move ids after a step that neither dispatches nor resets. -/
theorem step_ids {op : Op} (hdispatch : ∀ inp, op ≠ .dispatch inp)
    (hstore : op ≠ .hold .store) : (y.step op).shared.rt.ids = y.shared.rt.ids := by
  have hmoves := y.step_moves op
  generalize y.step op = y' at hmoves
  cases hmoves with
  | @advances i t hi hlock =>
      obtain ⟨n, slot, q, fail, state, hframe⟩ := t.step_frame y.shared
      simp only [hframe]
      rfl
  | @dispatches inp => exact absurd rfl (hdispatch inp)
  | @exits reason hrunning => cases reason <;> rfl
  | @holds h y' hholds => exact hholds.ids fun heq => hstore (heq ▸ rfl)
  | _ => rfl

end Process

/-! ### Within one run -/

/-- Not a restart. -/
def Op.inRun : Op → Bool
  | .hold (.reset _) => false
  | _ => true

/-- Within a run the holder of the lock passes it on, or stores `stopping_`, or wakes. -/
theorem Holds.of_inRun {y y' : Process} {h : Hold} (hholds : Holds y h y')
    (hrun : (Op.hold h).inRun = true) (hstage : y.stage.isResetting = false) :
    (∃ stage : Stage, stage.isResetting = false ∧ y' = y.atStage stage) ∨
      y' = { y with shared := { y.shared with stopping := true } }.atStage .stopped ∨
      (y.stage = .stopped ∧
        y' = { y with shared := { y.shared with rt := y.shared.rt.bumpWake } }.atStage .woken) := by
  have hnever : ∀ {todo b}, y.stage ≠ .resetting todo b := by
    intro todo b heq
    rw [heq] at hstage
    cases hstage
  cases hholds with
  | stays => exact .inl ⟨y.stage, hstage, rfl⟩
  | passes hbefore hafter => exact .inl ⟨_, hafter, rfl⟩
  | stops => exact .inr (.inl rfl)
  | wakes hstopped => exact .inr (.inr ⟨hstopped, rfl⟩)
  | resets => cases hrun
  | stores hbefore => exact absurd hbefore hnever
  | launches hbefore => exact absurd hbefore hnever
  | refuses hbefore => exact absurd hbefore hnever

namespace Process

/-- The start of a run, with what an earlier one left in the memory. The calls of an earlier run are
dropped, which the source does not do: no such call is in flight. -/
def started (s : Session) (b : Bringup) : Process := { shared := s.restarted b }

/-- No move is adopted when a run starts. -/
theorem started_ids (s : Session) (b : Bringup) : (started s b).shared.rt.ids = (0, 0, 0) :=
  spawned_induction (P := fun rt => rt.ids = (0, 0, 0)) rfl fun _ _ h => h

variable {y : Process} {op : Op} (hrun : op.inRun = true) (hstage : y.stage.isResetting = false)
include hrun hstage

/-- Without a restart no store of `reset_run_state` is ever next. -/
theorem step_isResetting : (y.step op).stage.isResetting = false := by
  have hmoves := y.step_moves op
  generalize y.step op = y' at hmoves
  cases hmoves with
  | holds hholds =>
      rcases hholds.of_inRun hrun hstage with ⟨stage, hafter, rfl⟩ | rfl | ⟨-, rfl⟩
      · exact hafter
      · rfl
      · rfl
  | _ => exact hstage

/-- Within a run only a dispatch changes the move ids. -/
theorem step_ids_inRun (hdispatch : ∀ inp, op ≠ .dispatch inp) :
    (y.step op).shared.rt.ids = y.shared.rt.ids := by
  by_cases hstore : op = .hold .store
  · subst hstore
    simp only [step, hold]
    split
    · rename_i hresetting
      rw [hresetting] at hstage
      cases hstage
    · rfl
  · exact y.step_ids hdispatch hstore

end Process

/-! ### Without other threads -/

namespace Thread

/-- `n` operations of a call, without other threads. -/
def solo : Nat → Session × Thread → Session × Thread
  | 0, r => r
  | n + 1, r => solo n (r.2.step r.1)

end Thread

namespace Process

open Thread

/-- Operations of one call in a row. -/
theorem advance_solo {y : Process} {i : Nat} {t : Thread} (hi : y.threads[i]? = some t)
    (hexcl : y.exclusive = false) (n : Nat) :
    runFrom Process.step y (List.replicate n (.advance i)) =
      { y with
          shared := (solo n (y.shared, t)).1
          threads := y.threads.set i (solo n (y.shared, t)).2 } := by
  induction n generalizing y t with
  | zero =>
      have hsame : y.threads.set i t = y.threads := by
        obtain ⟨h, rfl⟩ := List.getElem?_eq_some_iff.mp hi
        exact List.set_getElem_self h
      simp [solo, hsame]
  | succ n ih =>
      have hlt : i < y.threads.length := (List.getElem?_eq_some_iff.mp hi).1
      have hstep : y.step (.advance i) =
          { y with
            shared := (t.step y.shared).1
            threads := y.threads.set i (t.step y.shared).2 } := by
        simp [step, hi, advance, hexcl]
      rw [List.replicate_succ, runFrom_cons, hstep, ih (t := (t.step y.shared).2)]
      · simp [solo]
      · simp [hlt]
      · exact hexcl

end Process

namespace Thread

/-- The loads of the slot by `set_rpm`, without other threads. -/
theorem solo_setRpm (s : Session) (c : Command) :
    (solo 5 (s, { verb := .setRpm, command := fun _ => c, pc := .loadSlot })).1 =
      if s.motionSlotBusy || s.switchesModeWhileMoving .velocity then s else s.pushed c := by
  unfold Session.motionSlotBusy Session.genTerminal
  by_cases hfree : s.motionSlot = 0
  · cases h : s.switchesModeWhileMoving .velocity <;>
      simp [solo, step, slotRead, slotFree, atPc, hfree, require, h,
        Session.refuseModeSwitchWhileMoving]
  · by_cases hcompleted : s.rt.completedGeneration = s.motionSlot
    · cases h : s.switchesModeWhileMoving .velocity <;>
        simp [solo, step, slotRead, slotFree, atPc, hfree, hcompleted, require, h,
          Session.refuseModeSwitchWhileMoving]
    · by_cases hfailed : s.rt.failedGeneration = s.motionSlot
      · cases h : s.switchesModeWhileMoving .velocity <;>
          simp [solo, step, slotRead, slotFree, atPc, hfree, hcompleted, hfailed, require, h,
            Session.refuseModeSwitchWhileMoving]
      · simp [solo, step, slotRead, busy, atPc, hfree, hcompleted, hfailed]

/-- The claim and the push of a move, without other threads. -/
theorem solo_move (s : Session) {v : Verb} (hv : v.isMove = true) (command : Nat → Command) :
    (solo 6 (s, { verb := v, command := command, pc := .takeId })).1.queue =
      if s.motionSlotBusy then s.queue else (s.pushed (command s.nextId)).queue := by
  obtain ⟨hset, hhome⟩ := Verb.ne_of_isMove hv
  unfold Session.motionSlotBusy Session.genTerminal
  by_cases hfree : s.motionSlot = 0
  · simp [solo, step, slotRead, slotFree, atPc, hfree, hset, hhome, Session.pushed]
  · by_cases hcompleted : s.rt.completedGeneration = s.motionSlot
    · simp [solo, step, slotRead, slotFree, atPc, hfree, hcompleted, hset, hhome, Session.pushed]
    · by_cases hfailed : s.rt.failedGeneration = s.motionSlot
      · simp [solo, step, slotRead, slotFree, atPc, hfree, hcompleted, hfailed, hset, hhome,
          Session.pushed]
      · simp [solo, step, slotRead, busy, atPc, hfree, hcompleted, hfailed]

end Thread

namespace Process

variable {y : Process}

/-- A call that starts and runs `n` operations without other threads. -/
theorem begun_solo (hexcl : y.exclusive = false) (v : Verb) (pc : Pc) (command : Nat → Command)
    (n : Nat) :
    (runFrom Process.step (y.begun v pc command)
      (List.replicate n (.advance y.threads.length))).shared =
      (Thread.solo n (y.shared, { verb := v, command := command, pc := pc })).1 := by
  have hi : (y.begun v pc command).threads[y.threads.length]? =
      some { verb := v, command := command, pc := pc } := by simp [begun]
  rw [advance_solo hi hexcl]
  rfl

/-- The verb was refused, and there is no call to run. -/
theorem refused_solo (n : Nat) :
    runFrom Process.step y (List.replicate n (.advance y.threads.length)) = y := by
  induction n with
  | zero => rfl
  | succ n ih =>
      have hnone : y.step (.advance y.threads.length) = y := by simp [step]
      rw [List.replicate_succ, runFrom_cons, hnone, ih]

/-- Without other threads `set_rpm` is a step of the session. -/
theorem setRpm_alone (hexcl : y.exclusive = false) (rpm : Double) :
    (runFrom Process.step y
      (.call (.setRpm rpm) :: List.replicate 5 (.advance y.threads.length))).shared =
      y.shared.step (.setRpm rpm) := by
  rw [runFrom_cons, step, hexcl, if_neg Bool.false_ne_true, call]
  unfold Session.step Session.setRpm Session.setRpmRequest Session.requireAvailable
    Session.requireReleased Session.refuseModeSwitchWhileMoving require
  cases y.shared.degraded with
  | true => exact congrArg shared (refused_solo 5)
  | false =>
      cases y.shared.estopEngaged with
      | true => exact congrArg shared (refused_solo 5)
      | false =>
          simp only [bind, Except.bind, pure, Except.pure, Bool.not_false, if_true,
            begun_solo hexcl, Thread.solo_setRpm]
          cases y.shared.motionSlotBusy <;>
            cases y.shared.switchesModeWhileMoving .velocity <;> rfl

/-- The queue after a move that ran its claim and its push without other threads. -/
theorem move_alone (hexcl : y.exclusive = false) {v : Verb} (hv : v.isMove = true)
    (request : Except String (Nat → SetTarget)) :
    (runFrom Process.step
      (match request with
        | .ok target => y.begun v .takeId fun g => .setTarget (target g)
        | .error _ => y)
      (List.replicate 6 (.advance y.threads.length))).shared.queue =
      match request >>= y.shared.claimed v.text with
      | .ok c => (y.shared.pushed c).queue
      | .error _ => y.shared.queue := by
  cases request with
  | error text => exact congrArg (fun y => y.shared.queue) (refused_solo 6)
  | ok target =>
      simp only [begun_solo hexcl, Thread.solo_move _ hv, bind, Except.bind, Session.claimed,
        require]
      cases y.shared.motionSlotBusy <;> rfl

/-- Without other threads `go_to` pushes what `Session.goTo` says. -/
theorem goTo_alone (hexcl : y.exclusive = false) (rpm position : Double) :
    (runFrom Process.step y
      (.call (.goTo rpm position) :: List.replicate 6 (.advance y.threads.length))).shared.queue =
      match y.shared.goTo rpm position with
      | .ok c => (y.shared.pushed c).queue
      | .error _ => y.shared.queue := by
  rw [runFrom_cons, step, hexcl, if_neg Bool.false_ne_true]
  exact move_alone hexcl rfl _

/-- Without other threads `go_for` pushes what `Session.goFor` says. -/
theorem goFor_alone (hexcl : y.exclusive = false) (rpm revs : Double) :
    (runFrom Process.step y
      (.call (.goFor rpm revs) :: List.replicate 6 (.advance y.threads.length))).shared.queue =
      match y.shared.goFor rpm revs with
      | .ok c => (y.shared.pushed c).queue
      | .error _ => y.shared.queue := by
  rw [runFrom_cons, step, hexcl, if_neg Bool.false_ne_true]
  exact move_alone hexcl rfl _

/-- The steps of a restart by the holder of the lock. -/
def restartOps (b : Bringup) : List Op :=
  .hold (.reset b) :: List.replicate 10 (.hold .store) ++ [.hold .launch]

/-- Without other threads the stores of a restart are the restart of the session. -/
theorem restart_alone (hstage : y.stage = .down) (hrunning : y.shared.running = false)
    (b : Bringup) :
    runFrom Process.step y (restartOps b) =
      { y with shared := y.shared.restarted b, stage := .spawned } := by
  have hreset : y.step (.hold (.reset b)) =
      { y with shared := y.shared.resolved b, stage := .resetting runStores b } := by
    simp only [step, hold, hstage, hrunning]
    rfl
  rw [restartOps, List.cons_append, runFrom_cons, hreset]
  rfl

end Process

end ViamEthercat.Servo
