import ViamEthercat.Servo.Stores
import ViamEthercat.Proofs.Threads

/-!
# `ViamEthercat.Proofs.Stores`: the stores of the loop are its cycle

* `cycleStores_dispatched` and `stopStores_exited`: the stores of a dispatch and of `on_stop`, made
  without another thread in between, are the one step of `Session.dispatched` and
  `Session.exited`. So the machine takes the steps of the process (`dispatch_alone`,
  `leave_alone`).
* `Covered`: each store that a wait looks at is followed by its own `bump_wake`, except that of the
  active move. A store of `faulted` is, at the onset of the fault, or `rt_exited_` is set already.
  `covered_cycle` and `covered_stop` say this of the loop.
* `step_acts`: what an atomic operation can do, one case for each kind.
-/

set_option autoImplicit false

namespace ViamEthercat.Servo

open Lib

namespace Controller

/-- The stores lead from what `s` publishes to what `s'` does. -/
def Publishes (s s' : Controller) (stores : List RtStore) : Prop :=
  stores.foldl RtStore.apply s.published = s'.published

section
variable {p : RtParams} {s s' s'' : Controller} {inp : CycleInput} {b : CommandBatch}

theorem Publishes.append {xs ys : List RtStore} (h : Publishes s s' xs)
    (h' : Publishes s' s'' ys) : Publishes s s'' (xs ++ ys) := by
  unfold Publishes
  rw [List.foldl_append, show xs.foldl RtStore.apply s.published = s'.published from h]
  exact h'

/-- What the loop does to its own state alone is not published. -/
theorem Publishes.of_eq (h : s.published = s'.published) : Publishes s s' [] := h

theorem publishes_abort (reason : RtError) :
    Publishes s (s.abortActiveMove reason) (s.abortStores reason) := by
  unfold Publishes abortStores abortActiveMove
  dsimp only
  split_ifs <;> rfl

theorem publishes_homing (fail : HomingFail) :
    Publishes s (s.publishHomingResult fail) (homingStores fail) := rfl

/-- The stops look at the same move: an abort changes neither the active nor the completed
one. -/
theorem publishes_routeStops : Publishes s (s.routeStops b)
    ((if b.halt then s.abortStores .motorStopped else []) ++
      if b.disable then s.abortStores .motorDisabled else []) := by
  obtain ⟨h, hstops, hpub, hstores⟩ : ∃ h : Controller,
      s.routeStops b = (if b.disable then h.abortActiveMove .motorDisabled else h) ∧
      Publishes s h (if b.halt then s.abortStores .motorStopped else []) ∧
      h.abortStores .motorDisabled = s.abortStores .motorDisabled := by
    refine ⟨_, rfl, ?_⟩
    split_ifs
    · exact ⟨publishes_abort .motorStopped, rfl⟩
    · exact ⟨publishes_abort .motorStopped, rfl⟩
    · exact ⟨.of_eq rfl, rfl⟩
  refine hpub.append ?_
  rw [hstops, ← hstores]
  split_ifs
  · exact publishes_abort .motorDisabled
  · exact .of_eq rfl

theorem publishes_adopt (t : SetTarget) :
    Publishes s (s.adoptTarget inp t) (s.adoptStores t) := by
  unfold adoptStores adoptTarget
  by_cases h : t.generation ≠ s.activeGeneration
  · rw [if_pos h, if_pos h]
    rfl
  · rw [if_neg h, if_neg h]
    exact .of_eq rfl

theorem publishes_routeMotion : Publishes s (s.routeMotion inp b)
    (match b.setTarget with
      | some t => s.adoptStores t
      | none => []) := by
  unfold routeMotion
  cases b.setTarget with
  | none => cases b.setVelocity <;> exact .of_eq rfl
  | some t =>
      -- A velocity goes to the mode, which is not published.
      cases b.setVelocity with
      | none => exact publishes_adopt t
      | some v => exact publishes_adopt t

theorem publishes_routeHoming : Publishes s (s.routeHoming b)
    (if b.startHoming.isSome ∧ s.lifecycle ≠ .operational then homingStores .notOperational
      else []) := by
  unfold routeHoming
  split_ifs
  · exact publishes_homing .notOperational
  · exact .of_eq rfl

/-- The stores of the routing are looked up in the state before it. -/
theorem publishes_routeCommands : Publishes s (s.routeCommands inp b) (s.routeStores b) := by
  have hadopt : (match b.setTarget with
        | some t => (s.routeStops b).adoptStores t
        | none => []) = match b.setTarget with
        | some t => s.adoptStores t
        | none => [] := by
    unfold routeStops abortActiveMove
    split_ifs <;> rfl
  have hlifecycle : ((s.routeStops b).routeMotion inp b).lifecycle = s.lifecycle := by
    obtain ⟨le, te, w, -, hstops⟩ := s.routeStops_eq b
    obtain ⟨le', hmotion⟩ := (s.routeStops b).routeMotion_eq inp b
    rw [hmotion, hstops]
  have hmotion : Publishes (s.routeStops b) ((s.routeStops b).routeMotion inp b) _ :=
    publishes_routeMotion
  have hhoming : Publishes ((s.routeStops b).routeMotion inp b) (s.routeCommands inp b) _ :=
    publishes_routeHoming
  rw [hadopt] at hmotion
  rw [hlifecycle] at hhoming
  exact (publishes_routeStops.append hmotion).append hhoming

/-- The mode writes its objects, and a failure that it reports fails the move. -/
theorem publishes_stepMotion : Publishes s (s.stepMotion p inp).1
    (match (s.motion.step p.sqrt p.fields inp s.outputs (s.feedback p inp)).next.fault with
      | .none => []
      | .modeNotAdopted => s.abortStores .modeMismatch
      | .setpointNotAcknowledged => s.abortStores .handshakeTimeout) := by
  unfold stepMotion
  generalize s.motion.step p.sqrt p.fields inp s.outputs (s.feedback p inp) = r
  dsimp only
  cases r.next.fault with
  | none => exact .of_eq rfl
  | modeNotAdopted =>
      exact publishes_abort (s := { s with
        motion := r.next, outputs := r.outputs
        stopRequested := s.stopRequested || r.requestStop }) .modeMismatch
  | setpointNotAcknowledged =>
      exact publishes_abort (s := { s with
        motion := r.next, outputs := r.outputs
        stopRequested := s.stopRequested || r.requestStop }) .handshakeTimeout

theorem publishes_operational : Publishes s (s.stepOperational p inp b).1
    (s.operationalStores p inp b) := by
  unfold stepOperational operationalStores
  by_cases hfault : Faulted inp
  · rw [if_pos hfault, if_pos hfault]
    exact publishes_abort .notOperational
  · rw [if_neg hfault, if_neg hfault]
    cases hdisable : b.disable with
    | true => exact .of_eq rfl
    | false =>
        cases hstart : b.startHoming with
        | some h => exact .of_eq rfl
        | none =>
            cases hquick : b.quickStop with
            | true => exact .of_eq rfl
            | false => exact publishes_stepMotion

theorem publishes_homingRun : Publishes s (s.stepHoming p inp b).1
    (s.homingRunStores p inp b) := by
  unfold stepHoming homingRunStores
  dsimp only
  split_ifs
  · rfl
  · rfl
  · rfl
  · rfl
  · exact .of_eq rfl
  · rfl
  · rfl
  · rfl
  · exact .of_eq rfl

/-- The state machine: the stores are looked up in the routed state. -/
theorem publishes_stepLifecycle : Publishes s (s.stepLifecycle p inp b).1
    (s.routeStores b ++ (s.routeCommands inp b).lifecycleStores p inp b) := by
  have hroute : Publishes s (s.routeCommands inp b) _ := publishes_routeCommands
  refine hroute.append ?_
  unfold stepLifecycle lifecycleStores
  dsimp only
  generalize s.routeCommands inp b = s
  cases s.lifecycle with
  | init =>
      unfold stepInit
      split_ifs <;> exact .of_eq rfl
  | enabling =>
      unfold stepEnabling
      dsimp only
      split_ifs <;> exact .of_eq rfl
  | operational => exact publishes_operational
  | homing => exact publishes_homingRun
  | resetting =>
      unfold stepResetting
      dsimp only
      split_ifs <;> exact .of_eq rfl
  | disabled =>
      unfold stepDisabled
      split_ifs <;> exact .of_eq rfl

/-- `publish_state`: the move first, then the tiers, and the fault last. -/
theorem publishes_publishState (h : s'.published = s.published) (v : Int32) :
    Publishes s' (s.publishState p inp v) (s.publishStores p inp v) := by
  have hrest : (s.publishState p inp v).published =
      { s.published with
        telemetry := (s.publishState p inp v).telemetry
        completedGeneration := if s.completes p inp then s.activeGeneration
          else s.completedGeneration
        wakeSeq := s.wakeSeq + (if s.completes p inp then 1 else 0) +
          (if (s.publishState p inp v).telemetry.faulted && !s.telemetry.faulted then 1
            else 0) } := rfl
  have hcycle : (s.publishState p inp v).telemetry.loopCycle = s.telemetry.loopCycle + 1 := rfl
  unfold Publishes publishStores
  rw [hrest, h]
  generalize (s.publishState p inp v).telemetry = te at hcycle ⊢
  dsimp only
  generalize (te.faulted && !s.telemetry.faulted) = onset
  cases te with
  | mk =>
      cases hcycle
      cases s.completes p inp <;> cases onset <;> rfl

/-- The stores of a dispatch publish what the cycle computes. -/
theorem publishes_cycle (t : Tick) : Publishes s (cycle p s t) (s.cycleStores p t) := by
  unfold cycle cycleStores
  by_cases hstop : t.inp.stopping = true
  · rw [if_pos hstop, if_pos hstop]
    unfold stepStopping
    dsimp only
    refine publishes_publishState ?_ _
    rfl
  · rw [if_neg hstop, if_neg hstop]
    have hrun : Publishes s ((s.sample t.inp).stepLifecycle p t.inp (drain t.drained)).1 _ :=
      publishes_stepLifecycle (s := s.sample t.inp)
    refine hrun.append ?_
    unfold stepSteady
    dsimp only
    generalize (s.sample t.inp).stepLifecycle p t.inp (drain t.drained) = r
    have htrack : ((r.1.storeControlword r.2).trackUnlessOperational p t.inp).published =
        r.1.published := by
      unfold trackUnlessOperational
      split_ifs <;> rfl
    exact publishes_publishState htrack.symm _

end

/-- What is published, and the loop's own state, are the controller. -/
@[simp] theorem publish_published (s : Controller) : s.publish s.published = s := rfl

@[simp] theorem published_publish (s : Controller) (m : Published) :
    (s.publish m).published = m := rfl

@[simp] theorem publish_publish (s : Controller) (m m' : Published) :
    (s.publish m).publish m' = s.publish m' := rfl

end Controller

/-! ### The stores of a session -/

/-- A store to `ControllerState`. -/
def RtStore.isPublic : RtStore → Bool
  | .rtExited | .degraded => false
  | _ => true

namespace Session

open Controller

variable (s : Session)

theorem stored_of_isPublic {st : RtStore} (h : st.isPublic = true) :
    s.stored st = { s with rt := s.rt.publish (st.apply s.rt.published) } := by
  cases st with
  | rtExited => cases h
  | degraded => cases h
  | _ => rfl

theorem foldl_stored {stores : List RtStore} (h : ∀ st ∈ stores, st.isPublic = true) :
    stores.foldl stored s =
      { s with rt := s.rt.publish (stores.foldl RtStore.apply s.rt.published) } := by
  induction stores generalizing s with
  | nil => rfl
  | cons st stores ih =>
      rw [List.foldl_cons, s.stored_of_isPublic (h st List.mem_cons_self),
        ih _ fun x hx => h x (List.mem_cons_of_mem _ hx)]
      rfl

/-- The stores of `on_stop`, without another thread in between, are its one step. The Runner ends
after its stopping window. -/
theorem stopStores_exited (reason : StopReason) :
    (s.stopStores reason).foldl stored s = { s.exited reason with running := s.running } := by
  cases reason with
  | requested => rfl
  | busFault wkc => rfl
  | bringupAborted syncCode => cases syncCode <;> rfl
  | rtSetupFailed => rfl

end Session

/-! ### The wakes -/

namespace RtStore

/-- The wake that has to follow a store, when the drive is published as faulted and the loop as
exited. No wait looks at `faulted` after the loop exited. -/
def owes (faulted exited : Bool) : RtStore → Option WakeCause
  | .completed _ => some .completed
  | .failed _ => some .failed
  | .homingState _ => some .homing
  | .faulted b => if b && !faulted && !exited then some .faulted else none
  | .rtExited => some .exited
  | _ => none

/-- Whether the drive is published as faulted after a store. -/
def faultedAfter (faulted : Bool) : RtStore → Bool
  | .faulted b => b
  | _ => faulted

/-- Whether the loop is published as exited after a store. -/
def exitedAfter (exited : Bool) : RtStore → Bool
  | .rtExited => true
  | _ => exited

/-- A store that neither of these reads. -/
def isSteady : RtStore → Bool
  | .faulted _ | .rtExited | .degraded => false
  | _ => true

theorem isPublic_of_isSteady {st : RtStore} (h : st.isSteady = true) : st.isPublic = true := by
  cases st with
  | rtExited => cases h
  | degraded => cases h
  | _ => rfl

end RtStore

/-- Each store is followed by the wake that it owes. -/
def Covered : Bool → Bool → List RtStore → Prop
  | _, _, [] => True
  | faulted, exited, st :: stores =>
      (∀ c ∈ st.owes faulted exited, stores.head? = some (.wake c)) ∧
        Covered (st.faultedAfter faulted) (st.exitedAfter exited) stores

/-- Stores that each have their wake, whatever is published. -/
structure Steady (stores : List RtStore) : Prop where
  steady : ∀ st ∈ stores, st.isSteady = true
  covered : ∀ faulted exited, Covered faulted exited stores

namespace Steady

variable {xs ys : List RtStore}

theorem nil : Steady [] := ⟨fun _ h => absurd h List.not_mem_nil, fun _ _ => trivial⟩

/-- Stores after steady ones: the wakes that these owe are among them. -/
theorem covered_append (h : Steady xs) {faulted exited : Bool}
    (hys : Covered faulted exited ys) : Covered faulted exited (xs ++ ys) := by
  have hxs := h.covered faulted exited
  have hsteady := h.steady
  clear h
  induction xs with
  | nil => exact hys
  | cons st xs ih =>
      have hst := hsteady st List.mem_cons_self
      have hflags : st.faultedAfter faulted = faulted ∧ st.exitedAfter exited = exited := by
        cases st <;> first | exact ⟨rfl, rfl⟩ | cases hst
      rw [List.cons_append]
      constructor
      · intro c hc
        rw [List.head?_append, hxs.1 c hc]
        rfl
      · have hrest := hxs.2
        rw [hflags.1, hflags.2] at hrest ⊢
        exact ih hrest fun x hx => hsteady x (List.mem_cons_of_mem _ hx)

theorem append (h : Steady xs) (h' : Steady ys) : Steady (xs ++ ys) where
  steady := fun st hst => (List.mem_append.mp hst).elim (h.steady st) (h'.steady st)
  covered := fun faulted exited => h.covered_append (h'.covered faulted exited)

/-- A store that owes no wake. -/
theorem cons {st : RtStore} (hst : st.isSteady = true)
    (howes : ∀ faulted exited, st.owes faulted exited = none) (h : Steady xs) :
    Steady (st :: xs) := by
  have hone : Steady [st] := by
    refine ⟨fun x hx => by rwa [List.mem_singleton.mp hx], fun faulted exited => ⟨?_, trivial⟩⟩
    rw [howes faulted exited]
    exact nofun
  exact hone.append h

/-- Steady stores leave `faulted` as it is published. -/
theorem faulted_foldl (h : Steady xs) (m : Published) :
    (xs.foldl RtStore.apply m).telemetry.faulted = m.telemetry.faulted := by
  have hsteady := h.steady
  clear h
  induction xs generalizing m with
  | nil => rfl
  | cons st xs ih =>
      have hst := hsteady st List.mem_cons_self
      rw [List.foldl_cons, ih _ fun x hx => hsteady x (List.mem_cons_of_mem _ hx)]
      cases st with
      | faulted b => cases hst
      | _ => rfl

/-- A store and its wake. -/
theorem woken {st : RtStore} {c : WakeCause} (hst : st.isSteady = true)
    (howes : ∀ faulted exited, st.owes faulted exited = some c) : Steady [st, .wake c] := by
  constructor
  · intro x hx
    rcases List.mem_pair.mp hx with rfl | rfl
    · exact hst
    · rfl
  · intro faulted exited
    refine ⟨fun c' hc' => ?_, nofun, trivial⟩
    rw [howes faulted exited] at hc'
    cases hc'
    rfl

end Steady

namespace Controller

section
variable {p : RtParams} {s : Controller} {inp : CycleInput} {b : CommandBatch}

theorem steady_abort (reason : RtError) : Steady (s.abortStores reason) := by
  unfold abortStores
  refine .cons rfl (fun _ _ => rfl) ?_
  split_ifs
  · exact .woken rfl fun _ _ => rfl
  · exact .nil

theorem steady_homing (fail : HomingFail) : Steady (homingStores fail) :=
  .cons rfl (fun _ _ => rfl) (.woken rfl fun _ _ => rfl)

theorem steady_route : Steady (s.routeStores b) := by
  unfold routeStores adoptStores
  refine ((Steady.append ?_ ?_).append ?_).append ?_
  · split_ifs
    exacts [steady_abort _, .nil]
  · split_ifs
    exacts [steady_abort _, .nil]
  · split
    · split_ifs
      · exact .cons rfl (fun _ _ => rfl) .nil
      · exact .nil
    · exact .nil
  · split_ifs
    exacts [steady_homing _, .nil]

theorem steady_lifecycle : Steady (s.lifecycleStores p inp b) := by
  unfold lifecycleStores
  cases s.lifecycle with
  | operational =>
      simp only [operationalStores]
      split_ifs
      · exact steady_abort _
      · exact .nil
      · split
        exacts [.nil, steady_abort _, steady_abort _]
  | homing =>
      have horigin : Steady [.zeroOffset 0, .homeCounts inp.actual, .homed] := by
        refine .cons rfl (fun _ _ => rfl) ?_
        refine .cons rfl (fun _ _ => rfl) ?_
        exact .cons rfl (fun _ _ => rfl) .nil
      simp only [homingRunStores]
      split_ifs
      exacts [steady_homing _, steady_homing _, steady_homing _, .nil, steady_homing _,
        horigin.append (steady_homing _), steady_homing _, .nil]
  | _ => exact .nil

/-- A fault that is published is followed by its wake, unless it was published before. -/
theorem covered_publish {faulted : Bool} (h : s.telemetry.faulted = faulted) (v : Int32)
    (exited : Bool) : Covered faulted exited (s.publishStores p inp v) := by
  subst h
  unfold publishStores
  dsimp only
  generalize (s.publishState p inp v).telemetry = te
  have hmove : Steady (.sensed te ::
      if s.completes p inp then [.completed s.activeGeneration, .wake .completed] else []) := by
    refine .cons rfl (fun _ _ => rfl) ?_
    split_ifs
    · exact .woken rfl fun _ _ => rfl
    · exact .nil
  rw [List.append_assoc, List.append_assoc]
  refine hmove.covered_append ?_
  cases te.faulted <;> cases s.telemetry.faulted <;> cases exited <;>
    simp [Covered, RtStore.owes, RtStore.faultedAfter, RtStore.exitedAfter]

/-- The stores of a dispatch. -/
theorem covered_cycle (t : Tick) (exited : Bool) :
    Covered s.telemetry.faulted exited (s.cycleStores p t) := by
  unfold cycleStores
  by_cases hstop : t.inp.stopping = true
  · rw [if_pos hstop]
    refine covered_publish ?_ _ exited
    rfl
  · rw [if_neg hstop]
    have hsteady : Steady ((s.sample t.inp).routeStores (drain t.drained) ++
        ((s.sample t.inp).routeCommands t.inp (drain t.drained)).lifecycleStores p t.inp
          (drain t.drained)) := steady_route.append steady_lifecycle
    refine hsteady.covered_append ?_
    -- The state machine left `faulted` as it was.
    have hpublished : Publishes (s.sample t.inp)
        ((s.sample t.inp).stepLifecycle p t.inp (drain t.drained)).1 _ := publishes_stepLifecycle
    have hfaulted := hsteady.faulted_foldl (s.sample t.inp).published
    rw [show _ = _ from hpublished] at hfaulted
    generalize (s.sample t.inp).stepLifecycle p t.inp (drain t.drained) = r at hfaulted ⊢
    have htrack : ((r.1.storeControlword r.2).trackUnlessOperational p t.inp).telemetry.faulted =
        s.telemetry.faulted := by
      unfold trackUnlessOperational
      split_ifs <;> exact hfaulted
    exact covered_publish htrack _ exited

theorem isPublic_publish (v : Int32) : ∀ st ∈ s.publishStores p inp v, st.isPublic = true := by
  intro st hst
  unfold publishStores at hst
  dsimp only at hst
  generalize (s.publishState p inp v).telemetry = te at hst
  cases st with
  | rtExited => split_ifs at hst <;> simp at hst
  | degraded => split_ifs at hst <;> simp at hst
  | _ => rfl

/-- A dispatch only stores to `ControllerState`. -/
theorem isPublic_cycle (t : Tick) : ∀ st ∈ s.cycleStores p t, st.isPublic = true := by
  unfold cycleStores
  by_cases hstop : t.inp.stopping = true
  · rw [if_pos hstop]
    exact isPublic_publish _
  · rw [if_neg hstop]
    intro st hst
    rw [List.mem_append] at hst
    rcases hst with hst | hst
    · exact RtStore.isPublic_of_isSteady ((steady_route.append steady_lifecycle).steady st hst)
    · exact isPublic_publish _ st hst

end

end Controller

namespace Session

open Controller

variable (s : Session)

/-- The stores of a dispatch, without another thread in between, are its one step. -/
theorem cycleStores_dispatched (inp : CycleInput) (hrunning : s.running = true) :
    (s.rt.cycleStores s.params ⟨inp, s.queue⟩).foldl stored (s.computed inp) =
      s.dispatched inp := by
  have hpublished : (s.rt.cycleStores s.params ⟨inp, s.queue⟩).foldl RtStore.apply
      s.rt.published = (cycle s.params s.rt ⟨inp, s.queue⟩).published := publishes_cycle _
  rw [foldl_stored _ (isPublic_cycle _), dispatched, if_pos hrunning]
  simp only [computed, published_publish, hpublished, publish_publish, publish_published]

/-- The stores of `on_stop`. -/
theorem covered_stop (reason : StopReason) (faulted : Bool) :
    Covered faulted s.rtExited (s.stopStores reason) := by
  cases reason <;> simp [stopStores, Covered, RtStore.owes, RtStore.exitedAfter]

end Session

/-! ### Without other threads -/

namespace Machine

/-- The RT thread makes the stores it has left. -/
theorem run_stores (m : Machine) :
    runFrom step m (List.replicate m.todo.length .store) =
      { m.onShared (m.todo.foldl Session.stored m.shared) with todo := [] } := by
  obtain ⟨y, todo, window⟩ := m
  induction todo generalizing y with
  | nil => rfl
  | cons st todo ih =>
      rw [List.length_cons, List.replicate_succ, runFrom_cons]
      exact ih _

/-- Without other threads in between, a dispatch and its stores are the dispatch of the
process. -/
theorem dispatch_alone (y : Process) (inp : CycleInput) (hrunning : y.shared.running = true)
    (hstop : inp.stopping = false) :
    runFrom step ⟨y, [], false⟩ (.dispatch inp :: List.replicate
      (y.shared.rt.cycleStores y.shared.params ⟨inp, y.shared.queue⟩).length .store) =
      ⟨y.step (.dispatch inp), [], false⟩ := by
  have hbegins : step ⟨y, [], false⟩ (.dispatch inp) =
      ⟨{ y with shared := y.shared.computed inp },
        y.shared.rt.cycleStores y.shared.params ⟨inp, y.shared.queue⟩, false⟩ := by
    simp [step, shared, onShared, hrunning, hstop]
  rw [runFrom_cons, hbegins, run_stores]
  simp only [onShared, shared, y.shared.cycleStores_dispatched inp hrunning]
  rfl

/-- And `on_stop` is the exit of the process, when the Runner ends at once. -/
theorem leave_alone (y : Process) (reason : StopReason) (hrunning : y.shared.running = true) :
    runFrom step ⟨y, [], false⟩ (.leave reason :: List.replicate
      (y.shared.stopStores reason).length .store ++ [.finish]) =
      ⟨y.step (.exit reason), [], true⟩ := by
  have hbegins : step ⟨y, [], false⟩ (.leave reason) =
      ⟨y, y.shared.stopStores reason, true⟩ := by
    simp [step, shared, hrunning]
  have hstopped : (y.shared.exited reason).running = false := by
    cases reason <;> rfl
  have hends : { y.shared.exited reason with running := false } = y.shared.exited reason := by
    rw [← hstopped]
  rw [List.cons_append, runFrom_cons, hbegins, runFrom_append, run_stores]
  simp only [onShared, shared, y.shared.stopStores_exited reason, runFrom_cons, runFrom_nil, step,
    Process.step, hrunning, and_self, if_true, hends]

end Machine

/-! ### One step of the machine -/

/-- Not a restart. -/
def AtomicOp.inRun : AtomicOp → Bool
  | .api op => op.inRun
  | _ => true

/-- What an atomic operation can do. -/
inductive Acts (m : Machine) : AtomicOp → Machine → Prop
  | stays {op : AtomicOp} : Acts m op m
  | api {op : Op} (hdispatch : ∀ inp, op ≠ .dispatch inp) (hexit : ∀ reason, op ≠ .exit reason) :
      Acts m (.api op) { m with process := m.process.step op }
  | dispatches {inp : CycleInput} (htodo : m.todo = []) :
      Acts m (.dispatch inp)
        { m.onShared (m.shared.computed inp) with
            todo := m.shared.rt.cycleStores m.shared.params ⟨inp, m.shared.queue⟩ }
  | leaves {reason : StopReason} (htodo : m.todo = []) :
      Acts m (.leave reason) { m with todo := m.shared.stopStores reason, window := true }
  | stores {st : RtStore} {todo : List RtStore} (htodo : m.todo = st :: todo) :
      Acts m .store { m.onShared (m.shared.stored st) with todo := todo }
  | finishes (htodo : m.todo = []) : Acts m .finish (m.onShared { m.shared with running := false })

namespace Machine

/-- The start of a run, with what an earlier one left in the memory. No call of an earlier run is
in flight. -/
def started (s : Session) (b : Bringup) : Machine := { process := Process.started s b }

theorem step_acts (m : Machine) (op : AtomicOp) : Acts m op (m.step op) := by
  cases op with
  | api op =>
      cases op with
      | dispatch inp => exact .stays
      | exit reason => exact .stays
      | _ => exact .api nofun nofun
  | dispatch inp =>
      simp only [step]
      split_ifs with h
      · exact .dispatches h.2.1
      · exact .stays
  | leave reason =>
      simp only [step]
      split_ifs with h
      · exact .leaves h.2.1
      · exact .stays
  | store =>
      simp only [step]
      split
      · exact .stores ‹_›
      · exact .stays
  | finish =>
      simp only [step]
      split_ifs with h
      · exact .finishes h.2.1
      · exact .stays

end Machine

end ViamEthercat.Servo
