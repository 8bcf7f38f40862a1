import ViamEthercat.Proofs.Threads

/-!
# `ViamEthercat.Proofs.FullQueue`: requests that a full queue drops

`CommandQueue::push` returns false when the queue is full, and every verb discards that. A Halt
or a Disable is lost then, and a blocking call parks on a command that no cycle will see: also a
later Halt cannot release it, since the loop has no move to fail.

`queue_serves_iff`: along a history every Halt and Disable reaches a drain of its run, and no
blocking call parks on a dropped command, if and only if each of them finds room in the queue
and a drain follows the stops.
-/

set_option autoImplicit false

namespace ViamEthercat.Servo

open Lib

/-- The call releases the slot and throws. -/
def Pc.givesUp : Pc → Bool
  | .giveUp _ | .release _ => true
  | _ => false

namespace Process

variable (y : Process)

/-- A restart begins: what is drained later is drained by another run. -/
def restarts : Op → Bool
  | .hold (.reset _) => match y.stage with
      | .locked | .down => !y.shared.running
      | _ => false
  | _ => false

/-- `push` succeeds. -/
def HasRoom : Prop := y.shared.queue.length < y.shared.queueCapacity

instance : Decidable y.HasRoom := inferInstanceAs (Decidable (_ < _))

/-- The next drain comes before a restart, and finds `c` at the place `k` of the queue. -/
def Delivered (c : Command) (k : Nat) : Process → List Op → Prop
  | _, [] => False
  | y, op :: later =>
      if y.drains op then y.shared.queue[k]? = some c
      else y.restarts op = false ∧ Delivered c k (y.step op) later

/-- A drain comes before a restart. -/
def DrainFollows : Process → List Op → Prop
  | _, [] => False
  | y, op :: later =>
      if y.drains op then True else y.restarts op = false ∧ DrainFollows (y.step op) later

/-- What a step owes the request it is for: a stop reaches a drain of the run, and a blocking
call whose command is dropped throws and leaves the slot. -/
def Serves (op : Op) (later : List Op) : Prop :=
  (∀ c, c.isStop = true → y.pushes? op = some c →
    Delivered c y.shared.queue.length (y.step op) later) ∧
  (∀ i t, op = .advance i → y.pusher? op = some t → t.verb ≠ .setRpm → ¬ y.HasRoom →
    ∃ t', (y.step op).threads[i]? = some t' ∧ t'.pc.givesUp = true)

/-- The queue has room for a stop and for the command of a blocking call, and a drain follows
the stop. -/
def Fits (op : Op) (later : List Op) : Prop :=
  (∀ c, c.isStop = true → y.pushes? op = some c → y.HasRoom ∧ DrainFollows (y.step op) later) ∧
  (∀ t, y.pusher? op = some t → t.verb ≠ .setRpm → y.HasRoom)

variable {y} {c : Command} {k : Nat} {later : List Op}

/-- The queue takes a command when it has room, and drops it otherwise. -/
theorem takes_some (y : Process) (c : Command) :
    y.takes (some c) = if y.HasRoom then y.shared.queue ++ [c] else y.shared.queue := by
  unfold takes push
  by_cases hroom : y.HasRoom
  · have hlt : y.shared.queue.length < y.shared.queueCapacity := hroom
    simp [hroom, hlt]
  · have hge : ¬ y.shared.queue.length < y.shared.queueCapacity := hroom
    simp [hroom, hge]

/-- A push does not move what is queued. -/
theorem takes_getElem? {c' : Option Command} (h : y.shared.queue[k]? = some c) :
    (y.takes c')[k]? = some c := by
  cases c' with
  | none => exact h
  | some c' =>
      rw [takes_some]
      split_ifs
      · rw [List.getElem?_append_left (List.getElem?_eq_some_iff.mp h).1]
        exact h
      · exact h

/-- What is queued is delivered, when a drain follows. -/
theorem delivered_of_queued (h : y.shared.queue[k]? = some c)
    (hdrain : DrainFollows y later) : Delivered c k y later := by
  induction later generalizing y with
  | nil => exact hdrain
  | cons op later ih =>
      simp only [DrainFollows, Delivered] at hdrain ⊢
      split_ifs at hdrain ⊢ with hd
      · exact h
      · refine ⟨hdrain.1, ih ?_ hdrain.2⟩
        rw [step_queue, if_neg hd]
        exact takes_getElem? h

/-- Nothing gets behind the end of a full queue before it is drained. -/
theorem not_delivered_of_full (hfull : ¬ y.HasRoom) (hk : y.shared.queue.length ≤ k) :
    ¬ Delivered c k y later := by
  induction later generalizing y with
  | nil => exact id
  | cons op later ih =>
      simp only [Delivered]
      split_ifs with hd
      · rw [List.getElem?_eq_none hk]
        exact nofun
      · rintro ⟨-, h⟩
        have hqueue : (y.step op).shared.queue = y.shared.queue := by
          rw [step_queue, if_neg hd]
          cases y.pushes? op with
          | none => rfl
          | some c' => rw [takes_some, if_neg hfull]
        refine ih ?_ ?_ h
        · rw [HasRoom, hqueue, step_queueCapacity]
          exact hfull
        · rw [hqueue]
          exact hk

/-- A delivery is by a drain. -/
theorem drainFollows_of_delivered (h : Delivered c k y later) : DrainFollows y later := by
  induction later generalizing y with
  | nil => exact h
  | cons op later ih =>
      simp only [DrainFollows, Delivered] at h ⊢
      split_ifs at h ⊢ with hd
      exact ⟨h.1, ih h.2⟩

/-- A pushed command is delivered if and only if the queue had room and a drain follows. -/
theorem delivered_iff {op : Op} (hpush : y.pushes? op = some c) :
    Delivered c y.shared.queue.length (y.step op) later ↔
      y.HasRoom ∧ DrainFollows (y.step op) later := by
  -- A step that pushes does not drain.
  have hdrains : y.drains op = false := by
    cases op <;> first | rfl | cases hpush
  have hqueue : (y.step op).shared.queue =
      if y.HasRoom then y.shared.queue ++ [c] else y.shared.queue := by
    rw [step_queue, hdrains, if_neg Bool.false_ne_true, hpush, takes_some]
  constructor
  · intro h
    refine ⟨?_, drainFollows_of_delivered h⟩
    by_contra hfull
    rw [if_neg hfull] at hqueue
    refine not_delivered_of_full ?_ (by rw [hqueue]) h
    rw [HasRoom, hqueue, step_queueCapacity]
    exact hfull
  · rintro ⟨hroom, hdrain⟩
    refine delivered_of_queued ?_ hdrain
    rw [hqueue, if_pos hroom]
    simp

/-- A blocking call waits after its push, whatever became of the command. -/
theorem waits_of_pusher {i : Nat} {t : Thread} (hpush : y.pusher? (.advance i) = some t)
    (hblocking : t.verb ≠ .setRpm) :
    (y.step (.advance i)).threads[i]? = some (t.atPc .loadSeq) := by
  obtain ⟨j, hj, hi, hpc, hlock⟩ := y.pusher_eq_some_iff.mp hpush
  cases hj
  have hlt := (List.getElem?_eq_some_iff.mp hi).1
  simp only [step, hi, advance]
  rw [if_neg fun h => hlock h.2]
  simp [Thread.step, hpc, hblocking, hlt]

theorem serves_iff (y : Process) (op : Op) (later : List Op) :
    y.Serves op later ↔ y.Fits op later := by
  refine and_congr ?_ ?_
  · refine forall_congr' fun c => forall_congr' fun _ => forall_congr' fun hpush => ?_
    exact delivered_iff hpush
  · constructor
    · intro h t hpush hblocking
      by_contra hfull
      cases op with
      | advance i =>
          obtain ⟨t', ht', hgives⟩ := h i t rfl hpush hblocking hfull
          rw [waits_of_pusher hpush hblocking, Option.some.injEq] at ht'
          rw [← ht'] at hgives
          cases hgives
      | _ => cases hpush
    · intro h i t _ hpush hblocking hfull
      exact absurd (h t hpush hblocking) hfull

end Process

open Process

/-- Along a history every stop is delivered and no blocking call parks on a dropped command, if
and only if the queue has room for each of them and a drain follows each stop. -/
theorem queue_serves_iff (y : Process) (ops : List Op) :
    (∀ pre op later, ops = pre ++ op :: later →
      (runFrom Process.step y pre).Serves op later) ↔
    (∀ pre op later, ops = pre ++ op :: later →
      (runFrom Process.step y pre).Fits op later) := by
  refine forall_congr' fun pre => forall_congr' fun op => forall_congr' fun later => ?_
  exact forall_congr' fun _ => serves_iff _ op later

/-- A live run with a queue for one command. -/
def narrowProcess : Process :=
  { shared := (Session.new { profileConfig with commandQueueCapacity := 1 } profileBench
      (fun _ => "") profileController).restarted
      { profileBringup with config := { profileConfig with commandQueueCapacity := 1 } } }

/-- A Halt right after an Enable never reaches the loop. -/
theorem full_queue_loses_halt : ¬ ∀ (y : Process) (ops : List Op),
    0 < y.shared.queueCapacity → ∀ pre op later, ops = pre ++ op :: later →
      (runFrom Process.step y pre).Serves op later := by
  intro h
  have hserves := h narrowProcess
    [.call .enable, .call .halt, .dispatch (tick 0x0040#16 1 0 []).inp] (by decide)
    [.call .enable] (.call .halt) [.dispatch (tick 0x0040#16 1 0 []).inp] rfl
  have hdelivered := hserves.1 .halt rfl rfl
  rw [Delivered, if_pos (by decide +kernel)] at hdelivered
  revert hdelivered
  decide +kernel

end ViamEthercat.Servo
