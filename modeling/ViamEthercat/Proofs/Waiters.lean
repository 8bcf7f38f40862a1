import ViamEthercat.Proofs.Threads

/-!
# `ViamEthercat.Proofs.Waiters`: blocking calls across a restart

A call that waits holds no lock. A restart sets `stopping_`, joins the loop, and then clears
`stopping_`, `rt_exited_` and all move ids again, so a waiter that did not run in between finds
nothing of it: the new run counts its moves from 1, and the waiter returns for one of those, or
parks on the present `wake_seq_`. `home` returns also on the Idle that the restart itself stores.

`Tracked` remembers the calls that waited when the old ids were gone. `waiter_fails_across_restart`:
none of them returns normally or stays blocked, when no `home`, and no call whose id wrapped to 0,
waits at the store of the homing state, and no call at all waits at the store of `rt_exited_`, the
last one of the restart.
-/

set_option autoImplicit false

namespace ViamEthercat.Servo

open Lib Controller

namespace Pc

/-- On the way to throw. -/
def failing : Pc → Bool
  | .giveUp _ | .release _ | .done (.threw _) => true
  | _ => false

/-- On the way to return. -/
def succeeds : Pc → Bool
  | .releaseHomed _ | .restore _ | .done .returned | .done (.homed _) => true
  | _ => false

theorem not_succeeds {pc : Pc} (h : pc.failing = true ∨ pc.waits = true) :
    pc.succeeds = false := by
  cases pc with
  | done r => cases r <;> simp_all [failing, waits, succeeds]
  | _ => simp_all [failing, waits, succeeds]

end Pc

/-- Between the first and the last store of `reset_run_state`. -/
def Stage.midReset : Stage → Bool
  | .resetting (_ :: _) _ => true
  | _ => false

namespace Process

variable (y : Process)

/-- The step is this store of `reset_run_state`. -/
def stores (r : RunStore) : Op → Bool
  | .hold .store => match y.stage with
      | .resetting (r' :: _) _ => decide (r' = r)
      | _ => false
  | _ => false

/-- The calls that wait. -/
def waiters : List Nat :=
  (List.range y.threads.length).filter fun i => (y.threads[i]?).any fun t => t.pc.waits

/-- No `home` and no call with the id 0 waits when the homing state is reset, and no call when the
restart ends. -/
def ResetsAlone (op : Op) : Prop :=
  (y.stores .homing op = true → ∀ t ∈ y.threads, t.pc.waits = true →
    t.verb ≠ .home ∧ t.generation ≠ 0) ∧
  (y.stores .rtExited op = true → ∀ t ∈ y.threads, t.pc.waits = false)

instance (op : Op) : Decidable (y.ResetsAlone op) := inferInstanceAs (Decidable (_ ∧ _))

end Process

/-- A process with the calls that waited when a restart had cleared the ids of their run. -/
structure Tracked where
  process : Process
  stale : List Nat := []

namespace Tracked

variable (k : Tracked)

/-- A step of the process. With the store of the homing state the last of the old run is gone. -/
def next (op : Op) : Tracked :=
  { process := k.process.step op
    stale := (if k.process.stores .homing op then k.process.waiters else []) ++ k.stale }

/-- A call of an earlier run does not return. -/
def NoLateReturn : Op → Prop
  | .advance i => i ∈ k.stale → ∀ t ∈ k.process.threads[i]?, t.pc.succeeds = false →
      (t.step k.process.shared).2.pc.succeeds = false
  | _ => True

instance (op : Op) : Decidable (k.NoLateReturn op) :=
  match op with
  | .advance _ => inferInstanceAs (Decidable (_ → ∀ _ ∈ _, _ → _))
  | .call _ | .setZero _ | .dispatch _ | .exchangeFails _ | .homeFails _ _ | .exit _
  | .hold _ => isTrue trivial

/-- Once a restart is over, no call of an earlier run is blocked on the present `wake_seq_`. -/
def Unblocked : Prop :=
  k.process.stage.midReset = false → ∀ i ∈ k.stale, ∀ t ∈ k.process.threads[i]?,
    t.pc ≠ .wait k.process.shared.rt.wakeSeq

instance : Decidable k.Unblocked := inferInstanceAs (Decidable (_ → ∀ _ ∈ _, ∀ _ ∈ _, _))

end Tracked

/-! ### A call that waits for a move -/

namespace Thread

variable {s : Session} {t : Thread}

/-- A call that is on its way to throw throws. -/
theorem failing_step (h : t.pc.failing = true) : (t.step s).2.pc.failing = true := by
  cases hpc : t.pc <;> rw [hpc] at h <;> simp only [step, hpc, atPc]
  case giveUp => rfl
  case release => rfl
  case done => exact h
  all_goals cases h

/-- A move that waits goes on waiting or fails, while no id of its own or later is published. -/
theorem waits_or_failing_step (hwaits : t.pc.waits = true) (hwell : t.WellFormed)
    (hmove : t.verb.isMove = true) (hcompleted : s.rt.completedGeneration < t.generation)
    (hactive : s.rt.activeGeneration ≤ t.generation) :
    (t.step s).2.pc.failing = true ∨ (t.step s).2.pc.waits = true := by
  have hhome := (Verb.ne_of_isMove hmove).2
  have hfails : ∀ why, (t.fails why).failing = true := fun why => by
    unfold fails
    rw [if_neg hhome]
    rfl
  cases hpc : t.pc <;> rw [hpc] at hwaits <;> simp only [step, hpc, atPc]
  case loadSeq => rw [if_neg hhome]; exact .inr rfl
  case loadCompleted => rw [if_neg (not_le.mpr hcompleted)]; exact .inr rfl
  case loadActive => rw [if_neg (not_lt.mpr hactive)]; exact .inr rfl
  case loadHoming seq => exact absurd (hwell.homing seq hpc) hhome
  case loadStopping => split_ifs; exacts [.inl (hfails _), .inr rfl]
  case loadExited => split_ifs; exacts [.inl (hfails _), .inr rfl]
  case loadFailed => split_ifs; exacts [.inl (hfails _), .inr rfl]
  case loadFaulted => split_ifs; exacts [.inl (hfails _), .inr rfl]
  case wait => split_ifs <;> exact .inr rfl
  all_goals cases hwaits

end Thread

/-! ### The stores of a restart -/

/-- What a store of `reset_run_state` does to the published ids. -/
theorem Session.store_frame (s : Session) (r : RunStore) :
    (s.store r).running = s.running ∧
      (s.store r).rt.activeGeneration = (if r = .active then 0 else s.rt.activeGeneration) ∧
      (s.store r).rt.completedGeneration =
        (if r = .completed then 0 else s.rt.completedGeneration) ∧
      (s.store r).rt.failedGeneration =
        (if r = .failed then 0 else s.rt.failedGeneration) := by
  cases r <;> exact ⟨rfl, rfl, rfl, rfl⟩

namespace Process

variable {y : Process} {op : Op}

variable (y) in
/-- While `reset_run_state` runs there is no loop, and the ids are cleared in its order. -/
def ResetOrder : Prop :=
  ∀ todo b, y.stage = .resetting todo b → todo <:+ runStores ∧ y.shared.running = false ∧
    (.active ∉ todo → y.shared.rt.activeGeneration = 0) ∧
    (.completed ∉ todo → y.shared.rt.completedGeneration = 0) ∧
    (.failed ∉ todo → y.shared.rt.failedGeneration = 0)

theorem ResetOrder.step (h : y.ResetOrder) (op : Op) : (y.step op).ResetOrder := by
  have hmoves := y.step_moves op
  generalize y.step op = y' at hmoves ⊢
  intro todo b hstage
  cases hmoves with
  | @advances i t hi hlock =>
      obtain ⟨n, slot, q, fail, state, hframe⟩ := t.step_frame y.shared
      simp only [hframe]
      exact h todo b hstage
  | @dispatches inp =>
      have hsame : y.shared.dispatched inp = y.shared := by
        rw [Session.dispatched, (h todo b hstage).2.1, if_neg Bool.false_ne_true]
      simp only [hsame]
      exact h todo b hstage
  | exits hrunning =>
      rw [(h todo b hstage).2.1] at hrunning
      cases hrunning
  | holds hholds =>
      cases hholds with
      | stays => exact h todo b hstage
      | @passes _ stage hbefore hafter =>
          rw [show stage = .resetting todo b from hstage] at hafter
          cases hafter
      | stops => cases hstage
      | wakes => cases hstage
      | resets hbefore hrunning =>
          cases hstage
          refine ⟨List.suffix_rfl, hrunning, fun hnot => ?_, fun hnot => ?_, fun hnot => ?_⟩ <;>
            exact absurd (by decide) hnot
      | @stores r rest b' hbefore =>
          cases hstage
          obtain ⟨hsuffix, hrunning, hactive, hcompleted, hfailed⟩ := h _ _ hbefore
          obtain ⟨hstored, hstoredActive, hstoredCompleted, hstoredFailed⟩ :=
            y.shared.store_frame r
          -- A store that is made clears its id, and the others wait for theirs.
          have hcleared : ∀ {r' : RunStore} {g : Nat}, (r' ∉ r :: todo → g = 0) → r' ∉ todo →
              (if r = r' then 0 else g) = 0 := by
            intro r' g hbefore hnot
            split_ifs with hr
            · rfl
            · exact hbefore fun hmem =>
                hnot ((List.mem_cons.mp hmem).resolve_left (Ne.symm hr))
          exact ⟨(List.suffix_cons r todo).trans hsuffix, hstored.trans hrunning,
            fun hnot => hstoredActive.trans (hcleared hactive hnot),
            fun hnot => hstoredCompleted.trans (hcleared hcompleted hnot),
            fun hnot => hstoredFailed.trans (hcleared hfailed hnot)⟩
      | launches => cases hstage
      | refuses => cases hstage
  | _ => exact h todo b hstage

variable (y) in
/-- The ids of the old run are gone, and `rt_exited_` is still to be cleared. -/
def Late : Prop :=
  ∃ todo b, y.stage = .resetting todo b ∧ .homing ∉ todo ∧ .rtExited ∈ todo

/-- By then no id is published. -/
theorem Late.ids (h : y.Late) (horder : y.ResetOrder) :
    y.shared.rt.activeGeneration = 0 ∧ y.shared.rt.completedGeneration = 0 := by
  obtain ⟨todo, b, hstage, hhoming, -⟩ := h
  obtain ⟨hsuffix, -, hactive, hcompleted, -⟩ := horder todo b hstage
  have hnot : .active ∉ todo ∧ .completed ∉ todo := by
    simp only [runStores, List.suffix_cons_iff, List.suffix_nil] at hsuffix
    rcases hsuffix with rfl | rfl | rfl | rfl | rfl | rfl | rfl | rfl | rfl | rfl | rfl <;>
      first
      | exact absurd (by decide) hhoming
      | decide
  exact ⟨hactive hnot.1, hcompleted hnot.2⟩

/-- Only the store of `rt_exited_` ends it. -/
theorem Late.step (h : y.Late) (hstore : y.stores .rtExited op = false) : (y.step op).Late := by
  have hlate := h
  obtain ⟨todo, b, hstage, hhoming, hexited⟩ := h
  have hmoves := y.step_moves op
  generalize y.step op = y' at hmoves ⊢
  cases hmoves with
  | holds hholds =>
      cases hholds with
      | stays => exact hlate
      | passes hbefore => rw [hstage] at hbefore; cases hbefore
      | stops hbefore => cases hstage.symm.trans hbefore
      | wakes hbefore => cases hstage.symm.trans hbefore
      | resets hbefore => rw [hstage] at hbefore; cases hbefore
      | @stores r rest b' hbefore =>
          obtain ⟨rfl, rfl⟩ := Stage.resetting.inj (hstage.symm.trans hbefore)
          simp only [stores, hbefore, decide_eq_false_iff_not] at hstore
          exact ⟨rest, b, rfl, fun hmem => hhoming (List.mem_cons_of_mem r hmem),
            (List.mem_cons.mp hexited).resolve_left (Ne.symm hstore)⟩
      | launches hbefore => cases hstage.symm.trans hbefore; cases hexited
      | refuses hbefore => cases hstage.symm.trans hbefore; cases hexited
  | _ => exact hlate

/-- With the store of the homing state the ids are gone, and `rt_exited_` is still to come. -/
theorem late_of_homing (horder : y.ResetOrder) (hstore : y.stores .homing op = true) :
    op = .hold .store ∧ (y.step op).Late := by
  unfold stores at hstore
  split at hstore
  · split at hstore
    · rename_i r todo b hstage
      obtain rfl : r = .homing := of_decide_eq_true hstore
      have hsuffix := (horder _ _ hstage).1
      have htodo : todo = [.loop, .rtExited] := by
        simpa [runStores, List.suffix_cons_iff] using hsuffix
      refine ⟨rfl, todo, b, ?_, by rw [htodo]; decide, by rw [htodo]; decide⟩
      simp only [step, hold, hstage]
      rfl
    · cases hstore
  · cases hstore

/-- A call that waits is there, and does. -/
theorem mem_waiters {i : Nat} (h : i ∈ y.waiters) :
    ∃ t, y.threads[i]? = some t ∧ t.pc.waits = true := by
  have hwaits := (List.mem_filter.mp h).2
  simpa [Option.any_eq_true] using hwaits

end Process

/-! ### The invariant -/

namespace Thread

/-- A call of an earlier run: it fails, or is a move that waits in the middle of the restart. -/
def Doomed (y : Process) (t : Thread) : Prop :=
  t.pc.failing = true ∨
    (t.pc.waits = true ∧ t.verb.isMove = true ∧ t.generation ≠ 0 ∧ y.Late)

variable {y : Process} {t : Thread}

theorem Doomed.succeeds (h : t.Doomed y) : t.pc.succeeds = false :=
  Pc.not_succeeds (h.imp_right And.left)

/-- A call of an earlier run does not turn: it is past its exchange, and does not restore. -/
theorem Doomed.turns (h : t.Doomed y) : t.pc.turns = false := by
  rcases h with hfailing | ⟨hwaits, -, -⟩
  · cases hpc : t.pc <;> rw [hpc] at hfailing <;> first | rfl | cases hfailing
  · cases hpc : t.pc <;> rw [hpc] at hwaits <;> first | rfl | cases hwaits

/-- Its own operations do not bring it back. -/
theorem Doomed.advance (h : t.Doomed y) (hwell : t.WellFormed) (horder : y.ResetOrder) {i : Nat} :
    (t.step y.shared).2.Doomed (y.step (.advance i)) := by
  rcases h with hfailing | ⟨hwaits, hmove, hne, hlate⟩
  · exact .inl (failing_step hfailing)
  · -- The published ids are 0, and that of the call is not.
    obtain ⟨hactive, hcompleted⟩ := hlate.ids horder
    refine (waits_or_failing_step hwaits hwell hmove (by omega) (by omega)).imp_right fun hw => ?_
    have htaken : t.pc ≠ .takeId := fun hpc => by
      rw [hpc] at hwaits
      cases hwaits
    refine ⟨hw, by rw [(t.step_call y.shared).1]; exact hmove, ?_, hlate.step rfl⟩
    rw [t.step_generation, if_neg htaken]
    exact hne

/-- A step of another thread leaves it no way out, when no call waits at the last store. -/
theorem Doomed.other (h : t.Doomed y) {op : Op}
    (halone : y.stores .rtExited op = true → t.pc.waits = false) : t.Doomed (y.step op) := by
  refine h.imp_right fun ⟨hwaits, hmove, hne, hlate⟩ => ⟨hwaits, hmove, hne, hlate.step ?_⟩
  cases hstore : y.stores .rtExited op with
  | false => rfl
  | true =>
      rw [halone hstore] at hwaits
      cases hwaits

end Thread

namespace Tracked

/-- What holds between the steps. -/
structure Fenced (k : Tracked) : Prop where
  commanded : k.process.Commanded
  order : k.process.ResetOrder
  stale : ∀ i ∈ k.stale, ∃ t, k.process.threads[i]? = some t ∧ t.Doomed k.process

variable {k : Tracked} {op : Op}

@[simp] theorem next_process : (k.next op).process = k.process.step op := rfl

/-- A call of an earlier run after a step. -/
theorem Fenced.stale_step (h : k.Fenced) (halone : k.process.ResetsAlone op) {i : Nat}
    (hi : i ∈ k.stale) :
    ∃ t, (k.process.step op).threads[i]? = some t ∧ t.Doomed (k.process.step op) := by
  obtain ⟨t, hold, hdoomed⟩ := h.stale i hi
  obtain ⟨t', hnew, -⟩ := Process.extends_step hold op
  refine ⟨t', hnew, ?_⟩
  have hsame : ∀ u, k.process.threads[i]? = some u → u = t := fun u hu =>
    Option.some.inj (hu.symm.trans hold)
  rcases k.process.getElem?_step hnew with hkept | ⟨rfl, -⟩ | ⟨u, hu, rfl, rfl⟩ |
    ⟨u, pc, hu, -, hturn⟩
  · obtain rfl := hsame t' hkept
    exact hdoomed.other fun hstore => halone.2 hstore t' (List.mem_of_getElem? hkept)
  · simp at hold
  · obtain rfl := hsame u hu
    exact hdoomed.advance (h.commanded u (List.mem_of_getElem? hu)) h.order
  · obtain rfl := hsame u hu
    exact absurd (hdoomed.turns.symm.trans hturn.turns) (by decide)

/-- The calls that wait when the ids are gone are moves. -/
theorem Fenced.stale_homing (h : k.Fenced) (halone : k.process.ResetsAlone op)
    (hstore : k.process.stores .homing op = true) {i : Nat} (hi : i ∈ k.process.waiters) :
    ∃ t, (k.process.step op).threads[i]? = some t ∧ t.Doomed (k.process.step op) := by
  obtain ⟨t, hi, hwaits⟩ := Process.mem_waiters hi
  obtain ⟨rfl, hlate⟩ := Process.late_of_homing h.order hstore
  have hmem := List.mem_of_getElem? hi
  obtain ⟨hhome, hne⟩ := halone.1 hstore t hmem hwaits
  refine ⟨t, (k.process.hold_holds .store).frame.1 ▸ hi, .inr ⟨hwaits, ?_, hne, hlate⟩⟩
  have hset := (h.commanded t hmem).blocking hwaits
  cases hverb : t.verb with
  | setRpm => exact absurd hverb hset
  | goTo => rfl
  | goFor => rfl
  | home => exact absurd hverb hhome

theorem Fenced.next (h : k.Fenced) (halone : k.process.ResetsAlone op) : (k.next op).Fenced where
  commanded := h.commanded.step op
  order := h.order.step op
  stale := by
    intro i hi
    simp only [Tracked.next, List.mem_append] at hi
    rcases hi with hi | hi
    · split_ifs at hi with hstore
      · exact h.stale_homing halone hstore hi
      · cases hi
    · exact h.stale_step halone hi

/-- A call of an earlier run that does not succeed does not begin to. -/
theorem Fenced.noLateReturn (h : k.Fenced) (halone : k.process.ResetsAlone op) :
    k.NoLateReturn op := by
  cases op with
  | advance i =>
      intro hi t ht _
      obtain ⟨u, hu, hdoomed⟩ := h.stale i hi
      obtain rfl : u = t := Option.some.inj (hu.symm.trans ht)
      exact (hdoomed.advance (i := i) (h.commanded u (List.mem_of_getElem? hu)) h.order).succeeds
  | _ => trivial

/-- After a restart the calls of an earlier run are failing. -/
theorem Fenced.unblocked (h : k.Fenced) : k.Unblocked := by
  intro hreset i hi t ht hpc
  obtain ⟨u, hu, hdoomed⟩ := h.stale i hi
  obtain rfl : u = t := Option.some.inj (hu.symm.trans ht)
  rcases hdoomed with hfailing | ⟨-, -, -, todo, b, hstage, -, hexited⟩
  · rw [hpc] at hfailing
    cases hfailing
  · rw [hstage] at hreset
    cases todo with
    | nil => cases hexited
    | cons r todo => cases hreset

end Tracked

/-- Whatever the interleaving, a call that waits across a restart only throws, and is not left
blocked, when no `home` and no call with the id 0 waits at the reset of the homing state, and no
call at the reset of `rt_exited_`. -/
theorem waiter_fails_across_restart (config : ServoConfig) (params : RtParams)
    (text : Controller → String) (rt : Controller) (ops : List Op)
    (hops : AllSteps Process.step Process.ResetsAlone
      { shared := .new config params text rt } ops) :
    AllSteps Tracked.next (fun k op => k.NoLateReturn op ∧ (k.next op).Unblocked)
      ⟨{ shared := .new config params text rt }, []⟩ ops := by
  have hproj : AllSteps Tracked.next (fun k op => k.process.ResetsAlone op)
      ⟨{ shared := .new config params text rt }, []⟩ ops :=
    (allSteps_proj fun _ _ => Tracked.next_process).mpr hops
  refine allSteps_of_invariant (I := Tracked.Fenced) ?_ ?_ hproj
  · exact {
      commanded := fun t ht => absurd ht List.not_mem_nil
      order := fun todo b hstage => Stage.noConfusion hstage
      stale := fun i hi => absurd hi List.not_mem_nil }
  · intro k op h halone
    exact ⟨h.next halone, h.noLateReturn halone, (h.next halone).unblocked⟩

/-- A run starts, and a move waits in it. -/
def parkedMove : List Op :=
  .hold .lock :: Process.restartOps profileBringup ++
    .hold .unlock :: .call (.goTo (.fin 100) (.fin 1)) :: List.replicate 11 (.advance 0)

/-- The run is stopped. -/
def stopOps : List Op :=
  [.hold .lock, .hold .storeStopping, .hold .wake, .exit .requested, .hold .join]

/-- The waiter wakes before the last two stores of the restart. -/
def wakesInTime : List Op :=
  parkedMove ++ stopOps ++ .hold (.reset profileBringup) :: List.replicate 8 (.hold .store) ++
    List.replicate 7 (.advance 0) ++ [.hold .store, .hold .store, .hold .launch, .hold .unlock]

/-- It throws. -/
theorem waiter_throws :
    ((runFrom Process.step { shared := profileSession } wakesInTime).threads.map Thread.pc) =
      [.done (.threw "move: controller stopped / RT loop not alive")] ∧
    AllSteps Tracked.next (fun k op => k.NoLateReturn op ∧ (k.next op).Unblocked)
      ⟨{ shared := profileSession }, []⟩ wakesInTime :=
  ⟨by decide +kernel,
    waiter_fails_across_restart profileConfig profileBench (fun _ => "") profileController
      wakesInTime (by decide +kernel)⟩

/-- The waiter wakes in the next run, where one move was halted and another adopted. -/
def wakesLate : List Op :=
  parkedMove ++ stopOps ++ Process.restartOps profileBringup ++
    .hold .unlock :: .call (.goTo (.fin 100) (.fin 2)) :: List.replicate 4 (.advance 1) ++
    .dispatch (tick 0x0040#16 1 0 []).inp :: .call .halt ::
    .dispatch (tick 0x0040#16 1 0 []).inp ::
    .call (.goTo (.fin 100) (.fin 3)) :: List.replicate 6 (.advance 2) ++
    .dispatch (tick 0x0040#16 1 0 []).inp :: List.replicate 4 (.advance 0)

/-- It returns, for the move that the next run adopted. -/
theorem waiter_returns_late : ¬ ∀ (config : ServoConfig) (params : RtParams)
    (text : Controller → String) (rt : Controller) (ops : List Op),
    AllSteps Tracked.next (fun k op => k.NoLateReturn op ∧ (k.next op).Unblocked)
      ⟨{ shared := .new config params text rt }, []⟩ ops := by
  intro h
  have hlate := h profileConfig profileBench (fun _ => "") profileController wakesLate
  revert hlate
  decide +kernel

end ViamEthercat.Servo
