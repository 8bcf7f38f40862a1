import ViamEthercat.Proofs.Step
import ViamEthercat.Proofs.Motion

/-!
# `ViamEthercat.Proofs.LatestWins`: coalesced set-points and their order

`drain` keeps the last `SetTarget` and the last `SetVelocity` of a cycle, and forgets which of
the two came last. `step_lifecycle` then routes the target before the velocity. So the velocity
wins, also over a target that was pushed after it.

`oneByOne` is the reading without coalescing: every command of the drain is routed alone, in
queue order. `latest_command_wins_iff`: of a drain with a velocity and no Halt, the mode has
the order that `oneByOne` gives it if and only if the mode takes no target that comes after the
last velocity (`VelocityStands`). The theorem is about the routed mode, which an Operational
cycle then steps. It holds in every state of the controller.
-/

set_option autoImplicit false

namespace ViamEthercat.Servo

open Lib Controller

/-! ### The order of a mode -/

/-- What a mode was last told to do, with the mode of operation it needs: a move to a target at
a speed, or a velocity run. -/
inductive Order where
  | move (mode : Cia402Mode) (target : Int32) (speed : ℚ)
  | run (mode : Cia402Mode) (velocity : ℚ)
deriving DecidableEq

namespace Order

/-- The order is a move to a target. -/
def isMove : Order → Bool
  | .move .. => true
  | .run .. => false

end Order

namespace MotionMode

/-- The order a mode is left with. -/
def order : MotionMode ℚ → Order
  | .profile m =>
      if m.intent = .profileVelocity then .run m.intent m.pvVelocity.toInt
      else .move m.intent m.targetCounts m.profileVel.toNat
  | .cyclic m =>
      if m.positioning then .move .cyclicSyncPosition m.generator.goal m.generator.vMax.1
      else .run .cyclicSyncPosition m.generator.vTarget

/-- The mode takes a velocity. A generator without a positive acceleration refuses it. -/
def TakesVelocity : MotionMode ℚ → Prop
  | .profile _ => True
  | .cyclic m => 0 < m.accel

variable {m : MotionMode ℚ}

/-- A mode that takes some target takes velocities. -/
theorem Takes.velocity {u : SetTarget} (h : m.Takes u) : m.TakesVelocity := by
  cases m with
  | profile m => trivial
  | cyclic m => exact h.2

theorem setVelocity_of_not_takes (h : ¬ m.TakesVelocity) (v : Int32) :
    m.setVelocity v = m := by
  cases m with
  | profile m => exact absurd trivial h
  | cyclic m =>
      have hrefused : m.generator.setVelocity (v.toInt : ℚ) m.accel = (m.generator, false) :=
        TrapezoidGenerator.setVelocity_refused h
      simp only [setVelocity, CyclicPositionMode.setVelocity, hrefused]

/-- The order of a mode that took a velocity, for the mode of operation of a velocity run. -/
theorem order_setVelocity (h : m.TakesVelocity) (v : Int32) :
    (m.setVelocity v).order = .run (m.modeRequiredBy .velocity) v.toInt := by
  cases m with
  | profile m => rfl
  | cyclic m =>
      have hpos : 0 < m.accel := h
      simp only [setVelocity, CyclicPositionMode.setVelocity, TrapezoidGenerator.setVelocity,
        hpos, dif_pos]
      -- At rest a zero velocity holds, else the generator ramps: the order is the same.
      split_ifs <;> rfl

/-- A mode that took a target has a move as its order. -/
theorem isMove_goTo {u : SetTarget} (h : m.Takes u) (counts : Int32) :
    (m.goTo counts u.profileVelocity).order.isMove = true := by
  cases m with
  | profile m => rfl
  | cyclic m =>
      have hlimits : (0 : ℚ) < (u.profileVelocity.toNat : ℚ) ∧ 0 < m.accel := by
        simpa [Takes] using h
      simp only [goTo, CyclicPositionMode.goTo, TrapezoidGenerator.setGoal, hlimits, and_self,
        dif_pos]
      rfl

theorem takesVelocity_congr {m' : MotionMode ℚ} (h : m'.constants = m.constants) :
    m'.TakesVelocity ↔ m.TakesVelocity := by
  cases m <;> cases m' <;> simp_all [constants, TakesVelocity]

end MotionMode

/-! ### One command at a time -/

section
variable (s : Controller) (inp : CycleInput)

/-- The commands of a drain, routed one at a time in queue order. -/
def oneByOne (cs : List Command) : Controller :=
  runFrom (fun s c => s.routeCommands inp (drain [c])) s cs

/-- The move id of the last target of `cs`, `active` without one. -/
def lastId (active : Nat) (cs : List Command) : Nat :=
  ((targets cs).getLast?.map SetTarget.generation).getD active

/-- The mode takes no target that comes after the last velocity of the drain. A target that
repeats the id before it is not adopted. -/
def VelocityStands (cs : List Command) : Prop :=
  ∀ pre u post, cs = pre ++ .setTarget u :: post → velocities post = [] →
    u.generation ≠ lastId s.activeGeneration pre → ¬ s.motion.Takes u

variable {s inp}

/-- A single command that is no Halt, on the mode. -/
theorem routedMotion_single {c : Command} (hc : c ≠ .halt) :
    s.routedMotion inp (drain [c]) = match c with
      | .setTarget u =>
          if u.generation ≠ s.activeGeneration then
            s.motion.goTo (requested inp.actual u) u.profileVelocity
          else s.motion
      | .setVelocity v => s.motion.setVelocity v
      | _ => s.motion := by
  cases c <;> first | rfl | exact absurd rfl hc

theorem routedActive_single (c : Command) :
    s.routedActive (drain [c]) = lastId s.activeGeneration [c] := by
  cases c <;> rfl

theorem lastId_append (active : Nat) (xs ys : List Command) :
    lastId active (xs ++ ys) = lastId (lastId active xs) ys := by
  unfold lastId targets
  rw [List.filterMap_append, List.getLast?_append]
  cases (ys.filterMap Command.target?).getLast? <;> simp

theorem oneByOne_cons (c : Command) (cs : List Command) :
    oneByOne s inp (c :: cs) = oneByOne (s.routeCommands inp (drain [c])) inp cs := rfl

theorem oneByOne_append (xs ys : List Command) :
    oneByOne s inp (xs ++ ys) = oneByOne (oneByOne s inp xs) inp ys :=
  List.foldl_append

variable (s inp) in
/-- Routing commands one at a time adopts every target, and keeps what the mode accepts. -/
theorem oneByOne_frame {cs : List Command} (hhalt : Command.halt ∉ cs) :
    (oneByOne s inp cs).activeGeneration = lastId s.activeGeneration cs ∧
      (oneByOne s inp cs).motion.constants = s.motion.constants := by
  induction cs generalizing s with
  | nil => exact ⟨rfl, rfl⟩
  | cons c cs ih =>
      obtain ⟨hc, hcs⟩ := List.ne_and_not_mem_of_not_mem_cons hhalt
      have hconst : (s.routeCommands inp (drain [c])).motion.constants = s.motion.constants := by
        rw [routeCommands_motion, constants_routedMotion]
      obtain ⟨hactive, hrest⟩ := ih hcs (s := s.routeCommands inp (drain [c]))
      refine ⟨?_, hrest.trans hconst⟩
      rw [oneByOne_cons, hactive, routeCommands_activeGeneration, routedActive_single]
      exact (lastId_append s.activeGeneration [c] cs).symm

/-- A mode that takes no velocity takes no target either, so a batch without a Halt leaves it
as it was. -/
theorem routedMotion_refused {b : CommandBatch} (h : ¬ s.motion.TakesVelocity)
    (hhalt : b.halt = false) : s.routedMotion inp b = s.motion := by
  have htarget : targetedMotion inp b s.motion s.activeGeneration = s.motion := by
    unfold targetedMotion
    cases b.setTarget with
    | none => rfl
    | some u =>
        dsimp only
        split_ifs
        · exact MotionMode.goTo_of_not_takes (fun hu => h hu.velocity) _
        · rfl
  have hstopped : stoppedMotion b s.motion = s.motion := by simp [stoppedMotion, hhalt]
  unfold routedMotion velocityMotion
  rw [hstopped, htarget]
  cases b.setVelocity with
  | none => rfl
  | some v => exact MotionMode.setVelocity_of_not_takes h v

theorem oneByOne_refused {cs : List Command} (h : ¬ s.motion.TakesVelocity)
    (hhalt : Command.halt ∉ cs) : (oneByOne s inp cs).motion = s.motion := by
  induction cs generalizing s with
  | nil => rfl
  | cons c cs ih =>
      obtain ⟨hc, hcs⟩ := List.ne_and_not_mem_of_not_mem_cons hhalt
      have hmotion : (s.routeCommands inp (drain [c])).motion = s.motion := by
        rw [routeCommands_motion]
        exact routedMotion_refused h (by simpa [drain_halt] using hc)
      have hrest := ih (s := s.routeCommands inp (drain [c])) (by rwa [hmotion]) hcs
      exact hrest.trans hmotion

/-! ### After the last velocity -/

theorem velocities_tail {c : Command} {cs : List Command} (h : velocities (c :: cs) = []) :
    velocities cs = [] :=
  List.filterMap_eq_nil_iff.mpr fun d hd =>
    List.filterMap_eq_nil_iff.mp h d (List.mem_cons_of_mem c hd)

/-- Targets that are not taken leave the mode as it was. -/
theorem oneByOne_of_stands {cs : List Command} (hhalt : Command.halt ∉ cs)
    (hvel : velocities cs = []) (h : VelocityStands s cs) :
    (oneByOne s inp cs).motion = s.motion := by
  induction cs generalizing s with
  | nil => rfl
  | cons c cs ih =>
      obtain ⟨hc, hcs⟩ := List.ne_and_not_mem_of_not_mem_cons hhalt
      have hrest : velocities cs = [] := velocities_tail hvel
      have hmotion : (s.routeCommands inp (drain [c])).motion = s.motion := by
        rw [routeCommands_motion, routedMotion_single hc.symm]
        cases c with
        | setTarget u =>
            dsimp only
            split_ifs with hne
            · exact MotionMode.goTo_of_not_takes (h [] u cs rfl hrest hne) _
            · rfl
        | setVelocity v => cases hvel
        | _ => rfl
      -- The rest of the list is read from the state after its first command.
      have hstands : VelocityStands (s.routeCommands inp (drain [c])) cs := by
        intro pre u post hsplit hpost hne
        rw [hmotion]
        refine h (c :: pre) u post (by rw [hsplit]; rfl) hpost ?_
        rwa [routeCommands_activeGeneration, routedActive_single, ← lastId_append] at hne
      exact (ih hcs hrest hstands).trans hmotion

/-- Without velocities a move stays a move. -/
theorem isMove_oneByOne {cs : List Command} (hhalt : Command.halt ∉ cs)
    (hvel : velocities cs = []) (h : s.motion.order.isMove = true) :
    (oneByOne s inp cs).motion.order.isMove = true := by
  induction cs generalizing s with
  | nil => exact h
  | cons c cs ih =>
      obtain ⟨hc, hcs⟩ := List.ne_and_not_mem_of_not_mem_cons hhalt
      have hrest : velocities cs = [] := velocities_tail hvel
      refine ih hcs hrest ?_
      rw [routeCommands_motion, routedMotion_single hc.symm]
      cases c with
      | setTarget u =>
          dsimp only
          split_ifs
          · by_cases htakes : s.motion.Takes u
            · exact MotionMode.isMove_goTo htakes _
            · rwa [MotionMode.goTo_of_not_takes htakes]
          · exact h
      | setVelocity v => cases hvel
      | _ => exact h

variable (inp) in
/-- A target that is taken after the last velocity leaves a move. -/
theorem isMove_of_not_stands {cs : List Command} (hhalt : Command.halt ∉ cs)
    (h : ¬ VelocityStands s cs) : (oneByOne s inp cs).motion.order.isMove = true := by
  unfold VelocityStands at h
  push Not at h
  obtain ⟨pre, u, post, rfl, hpost, hne, htakes⟩ := h
  simp only [List.mem_append, List.mem_cons, not_or] at hhalt
  obtain ⟨hpre, -, hhaltpost⟩ := hhalt
  obtain ⟨hactive, hconst⟩ := oneByOne_frame s inp hpre
  rw [oneByOne_append, oneByOne_cons]
  refine isMove_oneByOne hhaltpost hpost ?_
  rw [routeCommands_motion, routedMotion_single (by simp)]
  dsimp only
  rw [hactive, if_pos hne]
  exact MotionMode.isMove_goTo ((MotionMode.takes_congr hconst u).mpr htakes) _

/-- The targets after the last velocity are those of the rest of the drain. -/
theorem velocityStands_after {pre post : List Command} {v : Int32} {s' : Controller}
    (hpost : velocities post = [])
    (hactive : s'.activeGeneration = lastId s.activeGeneration (pre ++ [.setVelocity v]))
    (hconst : s'.motion.constants = s.motion.constants) :
    VelocityStands s (pre ++ .setVelocity v :: post) ↔ VelocityStands s' post := by
  constructor
  · intro h a u b hsplit hb hne
    rw [MotionMode.takes_congr hconst]
    refine h (pre ++ .setVelocity v :: a) u b (by simp [hsplit]) hb ?_
    rw [hactive, ← lastId_append] at hne
    simpa using hne
  · intro h a u b hsplit hb hne
    rw [← MotionMode.takes_congr hconst]
    -- The last velocity stands before the target, since none comes after it.
    rcases List.append_eq_append_iff.mp hsplit with ⟨x, rfl, hx⟩ | ⟨x, rfl, hx⟩
    · cases x with
      | nil => cases hx
      | cons c x =>
          obtain ⟨rfl, rfl⟩ := List.cons.inj hx
          refine h x u b rfl hb ?_
          rw [hactive, ← lastId_append]
          simpa using hne
    · cases x with
      | nil => cases hx
      | cons c x =>
          obtain ⟨rfl, rfl⟩ := List.cons.inj hx
          simp [velocities, Command.velocity?] at hb

/-- A drain with a velocity has a last one. -/
theorem exists_last_velocity {cs : List Command} (h : velocities cs ≠ []) :
    ∃ pre v post, cs = pre ++ .setVelocity v :: post ∧ velocities post = [] := by
  induction cs with
  | nil => exact absurd rfl h
  | cons c cs ih =>
      by_cases hcs : velocities cs = []
      · cases c with
        | setVelocity v => exact ⟨[], v, cs, rfl, hcs⟩
        | _ => exact absurd hcs h
      · obtain ⟨pre, v, post, rfl, hpost⟩ := ih hcs
        exact ⟨c :: pre, v, post, rfl, hpost⟩

/-- The coalesced drain leaves a mode that takes velocities with the last one. -/
theorem order_routed {pre post : List Command} {v : Int32} (hpost : velocities post = [])
    (htakes : s.motion.TakesVelocity)
    (hhalt : Command.halt ∉ pre ++ .setVelocity v :: post) :
    (s.routedMotion inp (drain (pre ++ .setVelocity v :: post))).order =
      .run (s.motion.modeRequiredBy .velocity) v.toInt := by
  have hv : (drain (pre ++ .setVelocity v :: post)).setVelocity = some v := by
    have hcons : velocities (.setVelocity v :: post) = v :: velocities post := rfl
    rw [drain_setVelocity, velocities, List.filterMap_append, ← velocities, ← velocities,
      hcons, hpost, List.getLast?_append]
    rfl
  have hnohalt : (drain (pre ++ .setVelocity v :: post)).halt = false := by
    rw [drain_halt]
    exact decide_eq_false hhalt
  -- Whatever the target did, the velocity is routed after it.
  have hconst : (targetedMotion inp (drain (pre ++ .setVelocity v :: post)) s.motion
      s.activeGeneration).constants = s.motion.constants := constants_targetedMotion ..
  unfold routedMotion velocityMotion stoppedMotion
  simp only [hv, hnohalt, Bool.false_eq_true, false_and, if_false]
  rw [MotionMode.order_setVelocity ((MotionMode.takesVelocity_congr hconst).mpr htakes),
    MotionMode.modeRequiredBy_congr hconst]

end

/-- Of a drain with a velocity and no Halt, the mode is left with the order it would have after
receiving the commands one at a time if and only if it takes no target that comes after the
last velocity. -/
theorem latest_command_wins_iff (s : Controller) (inp : CycleInput) (cs : List Command)
    (hvel : velocities cs ≠ []) (hhalt : Command.halt ∉ cs) :
    (s.routeCommands inp (drain cs)).motion.order = (oneByOne s inp cs).motion.order ↔
      VelocityStands s cs := by
  rw [routeCommands_motion]
  by_cases htakes : s.motion.TakesVelocity
  swap
  · -- Nothing is taken, one way or the other.
    refine iff_of_true ?_ fun _ u _ _ _ _ hu => htakes hu.velocity
    rw [routedMotion_refused htakes (by rw [drain_halt]; exact decide_eq_false hhalt),
      oneByOne_refused htakes hhalt]
  obtain ⟨pre, v, post, rfl, hpost⟩ := exists_last_velocity hvel
  have hsplit : pre ++ .setVelocity v :: post = (pre ++ [.setVelocity v]) ++ post := by simp
  have hhalts : Command.halt ∉ pre ++ [.setVelocity v] ∧ Command.halt ∉ post := by
    rw [hsplit, List.mem_append, not_or] at hhalt
    exact hhalt
  -- The state right after the last velocity, one command at a time.
  obtain ⟨hactive, hconst⟩ := oneByOne_frame s inp hhalts.1
  have hrun : (oneByOne s inp (pre ++ [.setVelocity v])).motion.order =
      .run (s.motion.modeRequiredBy .velocity) v.toInt := by
    have hhaltpre : Command.halt ∉ pre := fun h => hhalts.1 (List.mem_append_left _ h)
    obtain ⟨-, hpre⟩ := oneByOne_frame s inp hhaltpre
    rw [oneByOne_append, oneByOne_cons]
    show ((oneByOne s inp pre).routeCommands inp (drain [.setVelocity v])).motion.order = _
    rw [routeCommands_motion, routedMotion_single (by simp)]
    dsimp only
    rw [MotionMode.order_setVelocity ((MotionMode.takesVelocity_congr hpre).mpr htakes),
      MotionMode.modeRequiredBy_congr hpre]
  rw [order_routed hpost htakes hhalt, velocityStands_after hpost hactive hconst]
  rw [show oneByOne s inp (pre ++ .setVelocity v :: post)
    = oneByOne (oneByOne s inp (pre ++ [.setVelocity v])) inp post by
      rw [hsplit, oneByOne_append]]
  constructor
  · intro h
    by_contra hstands
    have hmove := isMove_of_not_stands inp hhalts.2 hstands
    rw [← h] at hmove
    cases hmove
  · intro hstands
    rw [oneByOne_of_stands hhalts.2 hpost hstands, hrun]

/-- A velocity that comes after the target of its drain wins, as it would alone. -/
theorem velocity_after_target_wins :
    (profileController.routeCommands (tick 0x0027#16 1 0 []).inp
      (drain [.setTarget ⟨1000, 500, false, 1⟩, .setVelocity 200])).motion.order =
    (oneByOne profileController (tick 0x0027#16 1 0 []).inp
      [.setTarget ⟨1000, 500, false, 1⟩, .setVelocity 200]).motion.order :=
  (latest_command_wins_iff profileController (tick 0x0027#16 1 0 []).inp
    [.setTarget ⟨1000, 500, false, 1⟩, .setVelocity 200] (by decide) (by decide)).mpr (by
      intro pre u post hsplit hpost
      -- The only target of the list has the velocity after it.
      cases pre with
      | nil =>
          obtain ⟨-, rfl⟩ := List.cons.inj hsplit
          cases hpost
      | cons c pre =>
          obtain ⟨-, hrest⟩ := List.cons.inj hsplit
          cases pre with
          | nil => cases hrest
          | cons d pre => simp at hrest)

/-- A target that comes after a velocity loses to it. -/
theorem target_after_velocity_loses : ¬ ∀ (p : RtParams) (s₀ : Controller)
    (bringup : List CycleInput) (history : List Tick) (t : Tick),
    let s := runFrom (cycle p) (spawned p s₀ bringup) history
    s.lifecycle = .operational → ¬ Faulted t.inp → t.inp.stopping = false →
    targets t.drained ≠ [] → velocities t.drained ≠ [] →
    Command.halt ∉ t.drained → Command.disable ∉ t.drained →
    (s.routeCommands t.inp (drain t.drained)).motion.order =
      (oneByOne s t.inp t.drained).motion.order := by
  intro h
  have hwins := h profileBench profileController [] (climb 1 0)
    (tick 0x0027#16 1 0 [.setVelocity 200, .setTarget ⟨1000, 500, false, 1⟩])
    (by decide +kernel) (by decide) rfl (by decide) (by decide) (by decide) (by decide)
  revert hwins
  decide +kernel

end ViamEthercat.Servo
