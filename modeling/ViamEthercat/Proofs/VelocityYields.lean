import ViamEthercat.Proofs.Threads
import ViamEthercat.Proofs.Discard

/-!
# `ViamEthercat.Proofs.VelocityYields`: velocity set-points and live moves

`set_rpm` is refused while a blocking move owns the slot. It checks that and pushes later, and
what it pushed before a move was claimed can be drained with the target of that move. The loop
routes the target first and the velocity after it, so the velocity wins.

`velocity_yields`: within a run no cycle applies a velocity while a move is live, when every
`set_rpm` pushes while no move is live and no target is queued, and every move pushes while no
velocity is queued.
-/

set_option autoImplicit false

namespace ViamEthercat.Servo

open Lib Controller

namespace Process

variable (y : Process)

/-- A cycle that applies a drained velocity finds no live move, also not one that it adopts
itself. -/
def Yields : Op → Prop
  | .dispatch inp => y.drains (.dispatch inp) = true →
      (drain y.shared.queue).setVelocity.isSome = true →
      ¬ RoutedLive y.shared.rt ⟨inp, y.shared.queue⟩
  | _ => True

instance (op : Op) : Decidable (y.Yields op) :=
  match op with
  | .dispatch _ => inferInstanceAs (Decidable (_ → _ → ¬ _))
  | .call _ | .setZero _ | .advance _ | .exchangeFails _ | .homeFails _ _ | .exit _ | .hold _ =>
      isTrue trivial

/-- A velocity is pushed while no move is live and no target is queued, and a target while no
velocity is queued. -/
def pushesApart (op : Op) : Bool :=
  match y.pusher? op with
  | none => true
  | some t => match t.verb with
      | .setRpm => !y.shared.rt.moveActive && (targets y.shared.queue).isEmpty
      | .goTo | .goFor => (velocities y.shared.queue).isEmpty
      | .home => true

/-- No velocity is queued, or neither a target is queued nor a move live. -/
def Apart (s : Session) : Prop :=
  velocities s.queue = [] ∨ (targets s.queue = [] ∧ s.rt.moveActive = false)

/-- What holds between the steps of a run. -/
structure ApartInv : Prop where
  apart : Apart y.shared
  commanded : y.Commanded
  stage : y.stage.isResetting = false

variable {y} {op : Op}

/-- The move ids decide whether a move is live. -/
theorem moveActive_congr {s s' : Controller} (h : s'.ids = s.ids) :
    s'.moveActive = s.moveActive := by
  simp only [ids, Prod.mk.injEq] at h
  simp only [moveActive, h]

/-- A cycle that drains nothing does not make a move live. -/
theorem moveActive_stopping {p : RtParams} {s : Controller} {t : Tick}
    (hstop : t.inp.stopping = true) (h : s.moveActive = false) :
    (cycle p s t).moveActive = false := by
  have hids : (cycle p s t).ids = s.ids := by
    obtain ⟨te, ph, ar, w, out, sr, -, hc⟩ := cycle_stopping (p := p) (s := s) hstop
    rw [hc]
    simp only [ids, h, Bool.and_false, Bool.false_and, Bool.false_eq_true, if_false]
  rw [moveActive_congr hids, h]

/-- A step that leaves the queue and the move ids keeps velocities and moves apart. -/
theorem Apart.of_same {s s' : Session} (hqueue : s'.queue = s.queue)
    (hlive : s'.rt.moveActive = s.rt.moveActive) (h : Apart s) : Apart s' := by
  unfold Apart
  rw [hqueue, hlive]
  exact h

/-- A push keeps velocities and moves apart, when the command finds nothing of the other kind. -/
theorem Apart.of_push {s s' : Session} {c : Command} (hqueue : s'.queue = s.queue ++ [c])
    (hlive : s'.rt.moveActive = s.rt.moveActive)
    (hvelocity : ∀ v, c = .setVelocity v → targets s.queue = [] ∧ s.rt.moveActive = false)
    (htarget : ∀ u, c = .setTarget u → velocities s.queue = []) (h : Apart s) : Apart s' := by
  unfold Apart
  rw [hqueue, hlive, velocities_concat, targets_concat]
  cases c with
  | setVelocity v =>
      obtain ⟨hnone, hidle⟩ := hvelocity v rfl
      exact .inr ⟨by rw [hnone]; rfl, hidle⟩
  | setTarget u => exact .inl (by rw [htarget u rfl]; rfl)
  | _ =>
      simp only [Command.velocity?, Command.target?, Option.toList_none, List.append_nil]
      exact h

/-- A step that pushes a velocity does it for `set_rpm`. -/
theorem pushesApart_velocity (hcommanded : y.Commanded) (hpushes : y.pushesApart op = true)
    {v : Int32} (hpush : y.pushes? op = some (.setVelocity v)) :
    targets y.shared.queue = [] ∧ y.shared.rt.moveActive = false := by
  obtain ⟨t, ht, hc⟩ := y.pusher_of_isMotion rfl hpush
  obtain ⟨i, -, hi, -⟩ := y.pusher_eq_some_iff.mp ht
  have hverb := (hcommanded t (List.mem_of_getElem? hi)).commands.setRpm_of_velocity hc.symm
  simpa [pushesApart, ht, hverb, and_comm] using hpushes

/-- A step that pushes a target does it for a move. -/
theorem pushesApart_target (hcommanded : y.Commanded) (hpushes : y.pushesApart op = true)
    {u : SetTarget} (hpush : y.pushes? op = some (.setTarget u)) :
    velocities y.shared.queue = [] := by
  obtain ⟨t, ht, hc⟩ := y.pusher_of_isMotion rfl hpush
  obtain ⟨i, -, hi, -⟩ := y.pusher_eq_some_iff.mp ht
  obtain ⟨hmove, -⟩ := (hcommanded t (List.mem_of_getElem? hi)).commands.isMove_of_target hc.symm
  cases hverb : t.verb with
  | setRpm => exact absurd hverb (Verb.ne_of_isMove hmove).1
  | home => exact absurd hverb (Verb.ne_of_isMove hmove).2
  | goTo | goFor => simpa [pushesApart, ht, hverb] using hpushes

/-- A dispatch keeps velocities and moves apart: it drains both, or makes no move live. -/
theorem Apart.dispatched {s : Session} (h : Apart s) (inp : CycleInput) :
    Apart (s.dispatched inp) := by
  unfold Session.dispatched
  split_ifs with hrunning hstop
  · exact h.imp_right fun h => ⟨h.1, moveActive_stopping hstop h.2⟩
  · exact .inl rfl
  · exact h

/-- Every step of a run that pushes velocities and targets apart keeps them apart. -/
theorem ApartInv.step (h : y.ApartInv) (hrun : op.inRun = true)
    (hpushes : y.pushesApart op = true) : (y.step op).ApartInv := by
  refine ⟨?_, h.commanded.step op, step_isResetting hrun h.stage⟩
  rcases exists_or_forall_not fun inp => op = .dispatch inp with ⟨inp, rfl⟩ | hno
  · exact h.apart.dispatched inp
  · have hlive := moveActive_congr (step_ids_inRun hrun h.stage hno)
    have hdrains : y.drains op = false := by
      cases op <;> first | rfl | exact absurd rfl (hno _)
    have hqueue := y.step_queue op
    rw [hdrains, if_neg Bool.false_ne_true] at hqueue
    cases hpush : y.pushes? op with
    | none => exact h.apart.of_same (by rw [hqueue, hpush]; rfl) hlive
    | some c =>
        rw [hpush] at hqueue
        rcases y.takes_cases c with hdropped | htaken
        · exact h.apart.of_same (hqueue.trans hdropped) hlive
        · refine h.apart.of_push (hqueue.trans htaken) hlive ?_ ?_
          · rintro v rfl
            exact pushesApart_velocity h.commanded hpushes hpush
          · rintro u rfl
            exact pushesApart_target h.commanded hpushes hpush

/-- A cycle on a queue that holds a velocity neither has a live move nor adopts one. -/
theorem ApartInv.yields (h : y.ApartInv) (inp : CycleInput) : y.Yields (.dispatch inp) := by
  rintro - hvelocity ⟨hactive, hcompleted, hfailed⟩
  rw [drain_setVelocity] at hvelocity
  rcases h.apart with hnone | ⟨hnone, hidle⟩
  · rw [hnone] at hvelocity
    cases hvelocity
  · have hsame : y.shared.rt.routedActive (drain y.shared.queue) =
        y.shared.rt.activeGeneration := by
      rw [routedActive, drain_setTarget, hnone]
      rfl
    rw [hsame] at hactive hcompleted hfailed
    -- The move is over already, and a stop of the batch does not change that.
    refine Bool.eq_false_iff.mp hidle (moveActive_iff.mpr ⟨hactive, hcompleted, ?_⟩)
    intro heq
    refine hfailed ?_
    unfold routedFailed
    split_ifs
    · rfl
    · exact heq

end Process

/-- A velocity, and a move once the loop has drained it. -/
def separatePushes : List Op :=
  .call (.setRpm (.fin 100)) :: List.replicate 3 (.advance 0) ++
    [.dispatch (tick 0x0040#16 1 0 []).inp, .call (.goTo (.fin 100) (.fin 1))] ++
    List.replicate 4 (.advance 1) ++ [.dispatch (tick 0x0040#16 1 0 []).inp]

/-- A velocity, and a move in the same cycle. -/
def jointPushes : List Op :=
  .call (.setRpm (.fin 100)) :: List.replicate 3 (.advance 0) ++
    [.call (.goTo (.fin 100) (.fin 1))] ++ List.replicate 4 (.advance 1) ++
    [.dispatch (tick 0x0040#16 1 0 []).inp]

end ViamEthercat.Servo
