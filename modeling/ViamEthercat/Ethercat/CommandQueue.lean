import Mathlib.Data.List.Basic
import Mathlib.Logic.Basic

/-!
# `ViamEthercat.Ethercat.CommandQueue`: the command channel and its coalescing drain

The model of the `CommandQueue` half of `ethercat/pdo_cache.hpp` and
`ethercat/pdo_cache.cpp`. The queue is the bounded FIFO `boost::lockfree::spsc_queue`
gives: `push` fails exactly when it is full. `drain` pops everything and folds it into one
`CommandBatch` per cycle: set-points are latest-wins, discrete commands are sticky, and
`haltSupersedes` remembers whether the last stop-relevant command was a Halt.

The lemmas read a batch back as a property of the drained list. They are what the proofs
about one cycle use, so that no proof unfolds the fold.

Move ids (`generation`) are `uint32_t` counters in the source, handed out from 1 by
`next_generation_`. They are natural numbers here: the wrap after 2^32 calls in one run is
not modelled.
-/

set_option autoImplicit false

namespace ViamEthercat

/-- A positioning command: an absolute or relative target in counts, its speed, and the
move id the caller waits on. -/
structure SetTarget where
  counts : Int32
  profileVelocity : UInt32
  relative : Bool
  generation : Nat
deriving DecidableEq, Repr

/-- A homing request: the objects are written by SDO before it is pushed. -/
structure StartHoming where
  generation : Nat
  timeoutCycles : Nat
deriving DecidableEq, Repr

/-- One queued command. -/
inductive Command where
  | setTarget (t : SetTarget)
  | setVelocity (velocity : Int32)
  | startHoming (h : StartHoming)
  | enable
  | disable
  | halt
  | quickStop
  | faultReset
  | setZero
deriving DecidableEq, Repr

namespace Command

/-- The commands that set the axis in motion: the ones `drain` lets supersede a Halt. -/
def isMotion : Command → Bool
  | .setTarget _ | .setVelocity _ => true
  | _ => false

/-- The stop commands. -/
def isStop : Command → Bool
  | .halt | .disable | .quickStop => true
  | _ => false

def target? : Command → Option SetTarget
  | .setTarget t => some t
  | _ => none

def velocity? : Command → Option Int32
  | .setVelocity v => some v
  | _ => none

def homing? : Command → Option StartHoming
  | .startHoming h => some h
  | _ => none

end Command

/-- The coalesced result of one drain. -/
structure CommandBatch where
  setTarget : Option SetTarget := none
  setVelocity : Option Int32 := none
  startHoming : Option StartHoming := none
  enable : Bool := false
  disable : Bool := false
  halt : Bool := false
  quickStop : Bool := false
  faultReset : Bool := false
  setZero : Bool := false
  haltSupersedes : Bool := false
deriving DecidableEq, Repr

namespace CommandBatch

/-- The body of the `std::visit` in `drain`, one popped command. -/
def absorb (b : CommandBatch) : Command → CommandBatch
  -- A motion command after a Halt takes its precedence away. A homing request does not.
  | .setTarget t => { b with setTarget := some t, haltSupersedes := false }
  | .setVelocity v => { b with setVelocity := some v, haltSupersedes := false }
  | .startHoming h => { b with startHoming := some h }
  | .enable => { b with enable := true }
  | .disable => { b with disable := true }
  | .halt => { b with halt := true, haltSupersedes := true }
  | .quickStop => { b with quickStop := true }
  | .faultReset => { b with faultReset := true }
  | .setZero => { b with setZero := true }

end CommandBatch

/-- `CommandQueue::drain` on the queued commands, oldest first. -/
def drain (cs : List Command) : CommandBatch :=
  cs.foldl CommandBatch.absorb {}

/-- `CommandQueue::push`: the queue after it, and whether the command went in. -/
def push (capacity : Nat) (queue : List Command) (c : Command) : List Command × Bool :=
  if queue.length < capacity then (queue ++ [c], true) else (queue, false)

/-- The positioning commands of a drained list, in order. -/
def targets (cs : List Command) : List SetTarget := cs.filterMap Command.target?

/-- The velocity commands of a drained list, in order. -/
def velocities (cs : List Command) : List Int32 := cs.filterMap Command.velocity?

/-- The homing requests of a drained list, in order. -/
def homings (cs : List Command) : List StartHoming := cs.filterMap Command.homing?

/-! ### A batch read back as a property of the list -/

/-- What a batch field is after a fold, when one command either sets it or leaves it: the
last setting of the list, or the start value. -/
theorem foldl_absorb_latest {α : Type} (field : CommandBatch → Option α)
    (pick : Command → Option α)
    (habsorb : ∀ b c, field (b.absorb c) = (pick c).or (field b))
    (cs : List Command) (b : CommandBatch) :
    field (cs.foldl CommandBatch.absorb b) = (cs.filterMap pick).getLast?.or (field b) := by
  induction cs generalizing b with
  | nil => simp
  | cons c cs ih =>
      rw [List.foldl_cons, ih, habsorb]
      cases hc : pick c with
      | none => simp [hc]
      | some a => simp [hc, List.getLast?_cons]

/-- A sticky flag of the batch is the membership of its command. -/
theorem foldl_absorb_sticky (flag : CommandBatch → Bool) (cmd : Command)
    (habsorb : ∀ b c, flag (b.absorb c) = (flag b || decide (c = cmd)))
    (cs : List Command) (b : CommandBatch) :
    flag (cs.foldl CommandBatch.absorb b) = (flag b || decide (cmd ∈ cs)) := by
  induction cs generalizing b with
  | nil => simp
  | cons c cs ih =>
      rw [List.foldl_cons, ih, habsorb, Bool.or_assoc]
      congr 1
      by_cases hc : c = cmd
      · simp [hc]
      · simp [hc, Ne.symm hc]

theorem drain_setTarget (cs : List Command) :
    (drain cs).setTarget = (targets cs).getLast? := by
  have h := foldl_absorb_latest CommandBatch.setTarget Command.target?
    (fun b c => by cases c <;> rfl) cs {}
  simpa [drain, targets] using h

theorem drain_setVelocity (cs : List Command) :
    (drain cs).setVelocity = (velocities cs).getLast? := by
  have h := foldl_absorb_latest CommandBatch.setVelocity Command.velocity?
    (fun b c => by cases c <;> rfl) cs {}
  simpa [drain, velocities] using h

theorem drain_startHoming (cs : List Command) :
    (drain cs).startHoming = (homings cs).getLast? := by
  have h := foldl_absorb_latest CommandBatch.startHoming Command.homing?
    (fun b c => by cases c <;> rfl) cs {}
  simpa [drain, homings] using h

theorem drain_disable (cs : List Command) :
    (drain cs).disable = decide (Command.disable ∈ cs) := by
  have h := foldl_absorb_sticky CommandBatch.disable .disable
    (fun b c => by cases c <;> simp [CommandBatch.absorb]) cs {}
  simpa [drain] using h

theorem drain_enable (cs : List Command) :
    (drain cs).enable = decide (Command.enable ∈ cs) := by
  have h := foldl_absorb_sticky CommandBatch.enable .enable
    (fun b c => by cases c <;> simp [CommandBatch.absorb]) cs {}
  simpa [drain] using h

theorem drain_halt (cs : List Command) :
    (drain cs).halt = decide (Command.halt ∈ cs) := by
  have h := foldl_absorb_sticky CommandBatch.halt .halt
    (fun b c => by cases c <;> simp [CommandBatch.absorb]) cs {}
  simpa [drain] using h

/-- A suffix without motion commands keeps `haltSupersedes` unless it holds a Halt, which
sets it. -/
theorem foldl_absorb_haltSupersedes (cs : List Command) (b : CommandBatch)
    (hcs : ∀ c ∈ cs, c.isMotion = false) :
    (cs.foldl CommandBatch.absorb b).haltSupersedes
      = (b.haltSupersedes || decide (Command.halt ∈ cs)) := by
  induction cs generalizing b with
  | nil => simp
  | cons c cs ih =>
      rw [List.foldl_cons, ih _ fun c' hc' => hcs c' (List.mem_cons_of_mem c hc')]
      have hc := hcs c List.mem_cons_self
      cases c <;> simp_all [CommandBatch.absorb, Command.isMotion]

/-- A Halt with no motion command after it makes `drain` report `haltSupersedes`. -/
theorem drain_haltSupersedes {cs pre post : List Command} (hcs : cs = pre ++ .halt :: post)
    (hpost : ∀ c ∈ post, c.isMotion = false) : (drain cs).haltSupersedes = true := by
  subst hcs
  rw [drain, List.foldl_append, List.foldl_cons, foldl_absorb_haltSupersedes _ _ hpost]
  rfl

end ViamEthercat
