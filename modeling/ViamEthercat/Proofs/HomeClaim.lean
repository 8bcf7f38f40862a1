import ViamEthercat.Proofs.SlotClaim

/-!
# `ViamEthercat.Proofs.HomeClaim`: the claim of `home`

`home` claims the motion slot and keeps it over its whole run, and a move pushes its target with a
claim of its own. Only the ids of pushed targets are ever published as completed or failed
(`Traced.published`), and `home` pushes none, so nobody can take its slot for a terminal one.

* `Thread.Turn`: what a step makes of one call, and `Process.turn_of_step`.
* `Controller.stores_cycle`: the move ids that a dispatch has left to store.
* `Traced.excludes`: while `home` has its claim no move is at its push.
-/

set_option autoImplicit false

namespace ViamEthercat.Servo

open Lib Controller

/-! ### Where a call is -/

/-- The operations of a verb. -/
def Verb.passes (v : Verb) : Pc → Bool
  | .loadSlot | .slotCompleted _ | .slotFailed _ | .push | .done _ => true
  | .checkMode => decide (v = .setRpm)
  | .takeId | .exchange _ | .loadSeq | .loadStopping _ | .loadExited _ | .wait _ | .release _ =>
      decide (v ≠ .setRpm)
  | .loadCompleted _ | .loadActive _ | .loadFailed _ | .loadFaulted _ => v.isMove
  | .prepare | .loadHoming _ | .giveUp _ | .releaseHomed _ | .restore _ => decide (v = .home)

/-- `home` has claimed the slot, and not released it. -/
def Pc.claimed : Pc → Bool
  | .prepare | .push | .loadSeq | .loadHoming _ | .loadStopping _ | .loadExited _ | .wait _
  | .giveUp _ | .release _ | .releaseHomed _ => true
  | _ => false

/-- A move has pushed its target, or was refused. -/
def Pc.isPast : Pc → Bool
  | .takeId | .loadSlot | .slotCompleted _ | .slotFailed _ | .exchange _ | .checkMode | .prepare
  | .push => false
  | _ => true

namespace Thread

variable (s : Session) (t : Thread)

def Placed : Prop := t.verb.passes t.pc = true

/-- The call needs its claim of the slot: `home` until it releases it, and a move at its push. -/
def Holding : Prop :=
  (t.verb = .home ∧ t.pc.claimed = true) ∨ (t.verb.isMove = true ∧ t.pc = .push)

/-- What a step makes of the call `i` that was at `t`, when it moves it on. -/
inductive Turn (i : Nat) : Op → Thread → Prop
  | advances : Turn i (.advance i) (t.step s).2
  | reloads {cur : Nat} (hpc : t.pc = .exchange cur) :
      Turn i (.exchangeFails i) (t.atPc (t.slotRead s.motionSlot))
  | throws {text : String} (hpc : t.pc = .prepare) :
      Turn i (.homeFails i text) (t.atPc (.giveUp (.sdo text)))
  | ends {attained : Bool} {text : String} (hpc : t.pc = .restore attained) :
      Turn i (.homeFails i text) (t.atPc (.done (.threw text)))

variable {s t}

theorem slotFree_passes (cur : Nat) : t.verb.passes (t.slotFree cur) = true := by
  unfold slotFree
  split_ifs with hset
  · exact decide_eq_true hset
  · exact decide_eq_true hset

theorem slotRead_passes (cur : Nat) : t.verb.passes (t.slotRead cur) = true := by
  unfold slotRead
  split_ifs
  · exact slotFree_passes 0
  · rfl

theorem fails_passes (hset : t.verb ≠ .setRpm) (why : Failure) :
    t.verb.passes (t.fails why) = true := by
  unfold fails
  split_ifs with hhome
  · exact decide_eq_true hhome
  · exact decide_eq_true hset

/-- A verb stays with its own operations. -/
theorem Placed.step (h : t.Placed) : (t.step s).2.Placed := by
  unfold Placed at h ⊢
  rw [(t.step_call s).1]
  cases hpc : t.pc <;> rw [hpc] at h <;>
    simp only [Verb.passes, decide_eq_true_eq] at h <;> simp only [Thread.step, hpc, atPc]
  case takeId => rfl
  case loadSlot => exact slotRead_passes _
  case slotCompleted => split_ifs; exacts [slotFree_passes _, rfl]
  case slotFailed => split_ifs; exacts [slotFree_passes _, rfl]
  case exchange =>
      split_ifs with hcur hhome
      · exact decide_eq_true hhome
      · rfl
      · exact slotRead_passes _
  case checkMode => split <;> rfl
  case prepare => rfl
  case push =>
      split_ifs with hset
      · rfl
      · exact decide_eq_true hset
  case loadSeq =>
      split_ifs with hhome
      · exact decide_eq_true hhome
      · cases hverb : t.verb <;> simp_all [Verb.passes, Verb.isMove]
  case loadCompleted => split_ifs; exacts [rfl, h]
  case loadActive =>
      split_ifs
      · rfl
      · exact decide_eq_true (Verb.ne_of_isMove h).1
  case loadHoming =>
      split_ifs
      · exact decide_eq_true h
      · exact decide_eq_true (by rw [h]; decide)
  case loadStopping =>
      split_ifs
      · exact fails_passes h _
      · exact decide_eq_true h
  case loadExited =>
      split_ifs with hexited hhome
      · exact fails_passes h _
      · exact decide_eq_true h
      · cases hverb : t.verb <;> simp_all [Verb.passes, Verb.isMove]
  case loadFailed =>
      split_ifs
      · exact fails_passes (Verb.ne_of_isMove h).1 _
      · exact h
  case loadFaulted =>
      split_ifs
      · exact fails_passes (Verb.ne_of_isMove h).1 _
      · exact decide_eq_true (Verb.ne_of_isMove h).1
  case wait => split_ifs; exacts [decide_eq_true h, decide_eq_true h]
  case giveUp => exact decide_eq_true (by rw [h]; decide)
  case release => rfl
  case releaseHomed => exact decide_eq_true h
  case restore => rfl
  case done => rfl

/-- How `home` comes to hold its claim. -/
theorem claimed_of_step (hplaced : t.Placed) (hhome : t.verb = .home)
    (h : (t.step s).2.pc.claimed = true) :
    (t.pc.claimed = true ∧ t.pc.releases = false) ∨ t.pc = .exchange s.motionSlot := by
  unfold Placed at hplaced
  rw [hhome] at hplaced
  cases hpc : t.pc <;> rw [hpc] at hplaced <;> simp only [Thread.step, hpc, atPc] at h
  case takeId => cases h
  case loadSlot => unfold slotRead slotFree at h; split_ifs at h <;> cases h
  case slotCompleted => unfold slotFree at h; split_ifs at h <;> cases h
  case slotFailed => unfold slotFree at h; split_ifs at h <;> cases h
  case exchange cur =>
      split_ifs at h with hcur
      · exact .inr (by rw [hcur])
      · unfold slotRead slotFree at h
        split_ifs at h <;> cases h
  case release => cases h
  case releaseHomed => cases h
  case restore => cases h
  case done => cases h
  all_goals first
    | exact .inl ⟨rfl, rfl⟩
    | cases hplaced

/-- How a move comes to its push. -/
theorem push_of_step (hplaced : t.Placed) (hmove : t.verb.isMove = true)
    (h : (t.step s).2.pc = .push) : t.pc = .exchange s.motionSlot := by
  obtain ⟨hset, hhome⟩ := Verb.ne_of_isMove hmove
  unfold Placed at hplaced
  cases hpc : t.pc <;> rw [hpc] at hplaced <;> simp only [Thread.step, hpc, atPc] at h
  case exchange cur =>
      split_ifs at h with hcur
      · rw [hcur]
      · unfold slotRead slotFree at h
        split_ifs at h
  case checkMode => exact absurd (of_decide_eq_true hplaced) hset
  case prepare => exact absurd (of_decide_eq_true hplaced) hhome
  case loadSlot => unfold slotRead slotFree at h; split_ifs at h
  case slotCompleted => unfold slotFree at h; split_ifs at h
  case slotFailed => unfold slotFree busy at h; split_ifs at h
  case loadStopping => unfold fails at h; split_ifs at h
  case loadExited => unfold fails at h; split_ifs at h
  case loadFailed => unfold fails at h; split_ifs at h
  case loadFaulted => unfold fails at h; split_ifs at h
  all_goals first
    | cases h
    | split_ifs at h

/-- `home` keeps its claim until one of its two releases. -/
theorem claimed_step (hhome : t.verb = .home) (h : t.pc.claimed = true) :
    (t.step s).2.pc.claimed = true ∨ (∃ attained, (t.step s).2.pc = .restore attained) ∨
      ∃ why, t.pc = .release why := by
  cases hpc : t.pc <;> rw [hpc] at h <;> simp only [Thread.step, hpc, atPc, fails, hhome]
  case release why => exact .inr (.inr ⟨why, rfl⟩)
  case releaseHomed attained => exact .inr (.inl ⟨attained, rfl⟩)
  case push => exact .inl rfl
  case loadSeq => exact .inl rfl
  case loadHoming => split_ifs <;> exact .inl rfl
  case loadStopping => split_ifs <;> exact .inl rfl
  case loadExited => split_ifs <;> exact .inl rfl
  case wait => split_ifs <;> exact .inl rfl
  all_goals first
    | exact .inl rfl
    | cases h

/-- A move stays behind its push. -/
theorem isPast_step (h : t.pc.isPast = true) : (t.step s).2.pc.isPast = true := by
  cases hpc : t.pc <;> rw [hpc] at h <;> simp only [Thread.step, hpc, atPc, fails]
  all_goals first
    | rfl
    | (split_ifs <;> rfl)
    | cases h

/-- A release is one operation. -/
theorem releases_step (h : t.pc.releases = true) : (t.step s).2.pc.releases = false := by
  cases hpc : t.pc <;> rw [hpc] at h <;> simp only [Thread.step, hpc, atPc]
  case release => rfl
  case releaseHomed => rfl
  all_goals cases h

end Thread

namespace Thread.Turn

variable {s : Session} {t t' : Thread} {i : Nat} {op : Op} (h : Turn s t i op t')
include h

theorem verb_eq : t'.verb = t.verb := by
  cases h with
  | advances => exact (t.step_call s).1
  | _ => rfl

theorem placed (hplaced : t.Placed) : t'.Placed := by
  cases h with
  | advances => exact hplaced.step
  | reloads hpc => exact slotRead_passes _
  | throws hpc =>
      have hhome : t.verb.passes .prepare = true := hpc ▸ hplaced
      exact hhome
  | ends hpc => rfl

/-- How a call comes to hold its claim: it held it before, or its exchange succeeds. -/
theorem holding (hplaced : t.Placed) (hafter : t'.Holding) :
    (t.Holding ∧ t.pc.releases = false) ∨ (op = .advance i ∧ t.pc = .exchange s.motionSlot) := by
  have hverb := h.verb_eq
  rcases hafter with ⟨hhome, hclaimed⟩ | ⟨hmove, hpush⟩
  · rw [hverb] at hhome
    cases h with
    | advances =>
        refine (claimed_of_step hplaced hhome hclaimed).imp ?_ fun hpc => ⟨rfl, hpc⟩
        exact fun ⟨hbefore, hreleases⟩ => ⟨.inl ⟨hhome, hbefore⟩, hreleases⟩
    | reloads hpc =>
        have hread : (t.slotRead s.motionSlot).claimed = true := hclaimed
        unfold slotRead slotFree at hread
        split_ifs at hread <;> cases hread
    | throws hpc => exact .inl ⟨.inl ⟨hhome, by rw [hpc]; rfl⟩, by rw [hpc]; rfl⟩
    | ends hpc => cases hclaimed
  · rw [hverb] at hmove
    cases h with
    | advances => exact .inr ⟨rfl, push_of_step hplaced hmove hpush⟩
    | reloads hpc =>
        have hread : t.slotRead s.motionSlot = .push := hpush
        unfold slotRead slotFree at hread
        split_ifs at hread
    | throws hpc => cases hpush
    | ends hpc => cases hpush

theorem isPast (hpast : t.pc.isPast = true) : t'.pc.isPast = true := by
  cases h with
  | advances => exact isPast_step hpast
  | reloads hpc => rw [hpc] at hpast; cases hpast
  | throws hpc => rfl
  | ends hpc => rfl

end Thread.Turn

namespace Process

/-- A verb starts a call, or it leaves the calls. -/
theorem call_threads (y : Process) (r : Invocation) : (y.call r).threads = y.threads ∨
    ∃ v command, y.call r = y.begun v (if v = .setRpm then .loadSlot else .takeId) command := by
  cases r <;> simp only [call]
  case setRpm => split; exacts [.inr ⟨.setRpm, _, rfl⟩, .inl rfl]
  case goTo => split; exacts [.inr ⟨.goTo, _, rfl⟩, .inl rfl]
  case goFor => split; exacts [.inr ⟨.goFor, _, rfl⟩, .inl rfl]
  case home => split; exacts [.inr ⟨.home, _, rfl⟩, .inl rfl]
  all_goals exact .inl rfl

variable {y : Process} {op : Op}

/-- A call after a step: it was there before, it starts, or the step moves it on. -/
theorem turn_of_step {i : Nat} {t' : Thread} (h : (y.step op).threads[i]? = some t') :
    y.threads[i]? = some t' ∨
      (y.threads[i]? = none ∧ t'.pc = if t'.verb = .setRpm then .loadSlot else .takeId) ∨
      ∃ t, y.threads[i]? = some t ∧ t.Turn y.shared i op t' := by
  have hset : ∀ {j u u'}, y.threads[j]? = some u → u.Turn y.shared j op u' →
      (y.threads.set j u')[i]? = some t' →
      y.threads[i]? = some t' ∨ ∃ t, y.threads[i]? = some t ∧ t.Turn y.shared i op t' := by
    intro j u u' hj hturn hi
    rw [List.getElem?_set] at hi
    split_ifs at hi with hji
    · subst hji
      cases hi
      exact .inr ⟨u, hj, hturn⟩
    · exact .inl hi
  have hsame : y.threads[i]? = some t' ∨
      (∃ t, y.threads[i]? = some t ∧ t.Turn y.shared i op t') →
      y.threads[i]? = some t' ∨
      (y.threads[i]? = none ∧ t'.pc = if t'.verb = .setRpm then .loadSlot else .takeId) ∨
      ∃ t, y.threads[i]? = some t ∧ t.Turn y.shared i op t' := fun h => h.imp_right .inr
  cases op with
  | call r =>
      simp only [step] at h
      split_ifs at h
      · exact .inl h
      rcases y.call_threads r with hsame | ⟨v, command, hbegun⟩
      · exact .inl (hsame ▸ h)
      · rw [hbegun, begun] at h
        by_cases hlt : i < y.threads.length
        · rw [List.getElem?_append_left hlt] at h
          exact .inl h
        · -- The call that starts is the last one.
          rw [List.getElem?_append_right (not_lt.mp hlt)] at h
          obtain rfl := List.mem_singleton.mp (List.mem_of_getElem? h)
          exact .inr (.inl ⟨List.getElem?_eq_none (not_lt.mp hlt), rfl⟩)
  | advance j =>
      simp only [step] at h
      split at h
      · rename_i t hj
        unfold advance at h
        split_ifs at h
        · exact .inl h
        · exact hsame (hset hj .advances h)
      · exact .inl h
  | exchangeFails j =>
      simp only [step] at h
      split at h
      · rename_i t hj
        split at h
        · rename_i cur hpc
          exact hsame (hset hj (.reloads hpc) h)
        · exact .inl h
      · exact .inl h
  | homeFails j text =>
      simp only [step] at h
      split at h
      · rename_i t hj
        split at h
        · rename_i hpc
          exact hsame (hset hj (.throws hpc) h)
        · rename_i attained hpc
          exact hsame (hset hj (.ends hpc) h)
        · exact .inl h
      · exact .inl h
  | setZero offsetRevs => exact .inl h
  | dispatch inp => exact .inl h
  | exit reason =>
      simp only [step] at h
      split_ifs at h <;> exact .inl h
  | hold hold => exact .inl ((y.hold_holds hold).frame.1 ▸ h)

/-- A call stays as it is, or the step moves it on. -/
theorem turn_step {i : Nat} {t : Thread} (hi : y.threads[i]? = some t) (op : Op) :
    ∃ t', (y.step op).threads[i]? = some t' ∧ (t' = t ∨ t.Turn y.shared i op t') := by
  obtain ⟨t', hi', -⟩ := extends_step hi op
  refine ⟨t', hi', ?_⟩
  rcases turn_of_step hi' with hold | ⟨hnone, -⟩ | ⟨u, hold, hturn⟩
  · exact .inl (Option.some.inj (hold.symm.trans hi))
  · cases hi.symm.trans hnone
  · cases hi.symm.trans hold
    exact .inr hturn

end Process

/-! ### The ids that the loop stores -/

/-- The move id of a store. -/
def RtStore.id? : RtStore → Option Nat
  | .active g | .completed g | .failed g => some g
  | _ => none

/-- The move ids of these stores all have the property. -/
def Stores (P : Nat → Prop) (stores : List RtStore) : Prop := ∀ st ∈ stores, ∀ g ∈ st.id?, P g

namespace Stores

variable {P : Nat → Prop} {xs ys : List RtStore}

theorem nil : Stores P [] := fun _ h => absurd h List.not_mem_nil

theorem append (h : Stores P xs) (h' : Stores P ys) : Stores P (xs ++ ys) :=
  fun st hst => (List.mem_append.mp hst).elim (h st) (h' st)

theorem cons {st : RtStore} (hst : ∀ g ∈ st.id?, P g) (h : Stores P xs) :
    Stores P (st :: xs) := by
  intro x hx
  rcases List.mem_cons.mp hx with rfl | hx
  · exact hst
  · exact h x hx

theorem cons_none {st : RtStore} (hst : st.id? = none) (h : Stores P xs) :
    Stores P (st :: xs) := by
  refine cons (fun g hg => ?_) h
  rw [hst] at hg
  cases hg

theorem cons_some {st : RtStore} {g : Nat} (hst : st.id? = some g) (hg : P g)
    (h : Stores P xs) : Stores P (st :: xs) := by
  refine cons (fun g' hg' => ?_) h
  rw [hst] at hg'
  exact Option.some.inj hg' ▸ hg

theorem mono {Q : Nat → Prop} (h : Stores P xs) (hPQ : ∀ g, P g → Q g) : Stores Q xs :=
  fun st hst g hg => hPQ g (h st hst g hg)

end Stores

namespace Controller

section
variable {P : Nat → Prop} {p : RtParams} {s : Controller} {inp : CycleInput} {b : CommandBatch}

theorem stores_abort (h : P s.activeGeneration) (reason : RtError) :
    Stores P (s.abortStores reason) := by
  unfold abortStores
  refine .cons_none rfl ?_
  split_ifs
  · exact .cons_some rfl h (.cons_none rfl .nil)
  · exact .nil

theorem stores_homing (fail : HomingFail) : Stores P (homingStores fail) :=
  .cons_none rfl (.cons_none rfl (.cons_none rfl .nil))

/-- The routing stores the id of the active move, and of the target that it adopts. -/
theorem stores_route (h : P s.activeGeneration) (ht : ∀ t ∈ b.setTarget, P t.generation) :
    Stores P (s.routeStores b) := by
  unfold routeStores adoptStores
  refine ((Stores.append ?_ ?_).append ?_).append ?_
  · split_ifs
    exacts [stores_abort h _, .nil]
  · split_ifs
    exacts [stores_abort h _, .nil]
  · split
    · rename_i t hbatch
      split_ifs
      · exact .cons_some rfl (ht t hbatch) .nil
      · exact .nil
    · exact .nil
  · split_ifs
    exacts [stores_homing _, .nil]

/-- The state machine fails the active move only. -/
theorem stores_lifecycle (h : P s.activeGeneration) : Stores P (s.lifecycleStores p inp b) := by
  unfold lifecycleStores
  cases s.lifecycle with
  | operational =>
      simp only [operationalStores]
      split_ifs
      · exact stores_abort h _
      · exact .nil
      · split
        exacts [.nil, stores_abort h _, stores_abort h _]
  | homing =>
      have horigin : Stores P [.zeroOffset 0, .homeCounts inp.actual, .homed] :=
        .cons_none rfl (.cons_none rfl (.cons_none rfl .nil))
      simp only [homingRunStores]
      split_ifs
      exacts [stores_homing _, stores_homing _, stores_homing _, .nil, stores_homing _,
        horigin.append (stores_homing _), stores_homing _, .nil]
  | _ => exact .nil

/-- `publish_state` completes the active move only. -/
theorem stores_publish (h : P s.activeGeneration) (v : Int32) :
    Stores P (s.publishStores p inp v) := by
  unfold publishStores
  dsimp only
  generalize (s.publishState p inp v).telemetry = te
  refine ((Stores.append ?_ ?_).append ?_).append (.cons_none rfl .nil)
  · refine .cons_none rfl ?_
    split_ifs
    · exact .cons_some rfl h (.cons_none rfl .nil)
    · exact .nil
  · exact .cons_none rfl (.cons_none rfl .nil)
  · split_ifs
    exacts [.cons_none rfl .nil, .nil]

/-- A dispatch stores the id of the active move, and those of drained targets. -/
theorem stores_cycle {t : Tick} (h : P s.activeGeneration)
    (ht : ∀ u ∈ targets t.drained, P u.generation) : Stores P (s.cycleStores p t) := by
  unfold cycleStores
  by_cases hstop : t.inp.stopping = true
  · rw [if_pos hstop]
    refine stores_publish ?_ _
    exact h
  · rw [if_neg hstop]
    have hbatch : ∀ u ∈ (drain t.drained).setTarget, P u.generation := by
      intro u hu
      rw [drain_setTarget] at hu
      exact ht u (List.mem_of_getLast? hu)
    have hactive : P ((s.sample t.inp).routedActive (drain t.drained)) := by
      unfold routedActive
      cases hu : (drain t.drained).setTarget with
      | none => exact h
      | some u => exact hbatch u hu
    have hroute : Stores P ((s.sample t.inp).routeStores (drain t.drained)) := by
      refine stores_route ?_ hbatch
      exact h
    have hlifecycle : Stores P (((s.sample t.inp).routeCommands t.inp
        (drain t.drained)).lifecycleStores p t.inp (drain t.drained)) := by
      refine stores_lifecycle ?_
      rw [routeCommands_activeGeneration]
      exact hactive
    refine (hroute.append hlifecycle).append ?_
    have hstepped := (stepLifecycle_ids p (s.sample t.inp) t.inp (drain t.drained)).1
    generalize (s.sample t.inp).stepLifecycle p t.inp (drain t.drained) = r at hstepped ⊢
    refine stores_publish ?_ _
    rw [← hstepped] at hactive
    unfold trackUnlessOperational
    split_ifs <;> exact hactive

end

end Controller

/-- `on_stop` stores no move id. -/
theorem Session.stores_stop (s : Session) (P : Nat → Prop) (reason : StopReason) :
    Stores P (s.stopStores reason) := by
  have hexit : Stores P [.rtExited, .wake .exited] := .cons_none rfl (.cons_none rfl .nil)
  cases reason with
  | requested => exact hexit
  | busFault wkc => exact hexit.append (.cons_none rfl .nil)
  | bringupAborted syncCode =>
      exact hexit.append (.cons_none rfl (.cons_none rfl (.cons_none rfl .nil)))
  | rtSetupFailed => exact hexit.append (.cons_none rfl (.cons_none rfl .nil))

/-! ### The claim of `home` -/

namespace Process

/-- No id, or that of a move behind its push. -/
def Known (y : Process) (g : Nat) : Prop :=
  g = 0 ∨ ∃ t ∈ y.threads, t.verb.isMove = true ∧ t.pc.isPast = true ∧ t.generation = g

variable {y : Process}

theorem Known.step {g : Nat} (h : y.Known g) (op : Op) : (y.step op).Known g := by
  rcases h with hzero | ⟨t, ht, hmove, hpast, hgeneration⟩
  · exact .inl hzero
  obtain ⟨i, hi⟩ := List.mem_iff_getElem?.mp ht
  obtain ⟨u, hu, -, hsame⟩ := extends_step hi op
  have hsame := hsame fun hpc => by rw [hpc] at hpast; cases hpast
  obtain ⟨t', hi', hturn⟩ := turn_step hi op
  cases hu.symm.trans hi'
  refine .inr ⟨u, List.mem_of_getElem? hi', ?_, ?_, hsame.trans hgeneration⟩
  · rcases hturn with rfl | hturn
    · exact hmove
    · rw [hturn.verb_eq]
      exact hmove
  · rcases hturn with rfl | hturn
    · exact hpast
    · exact hturn.isPast hpast

/-- A step that pushes a target has it known. -/
theorem known_of_push (hcommanded : y.Commanded) {op : Op} {u : SetTarget}
    (h : y.pushes? op = some (.setTarget u)) : (y.step op).Known u.generation := by
  obtain ⟨t, ht, hcommand⟩ := y.pusher_of_isMotion rfl h
  obtain ⟨i, rfl, hi, hpc, hlock⟩ := y.pusher_eq_some_iff.mp ht
  obtain ⟨hmove, hgeneration⟩ :=
    (hcommanded t (List.mem_of_getElem? hi)).commands.isMove_of_target hcommand.symm
  have hset := (Verb.ne_of_isMove hmove).1
  have hlt := (List.getElem?_eq_some_iff.mp hi).1
  refine .inr ⟨t.atPc .loadSeq, ?_, hmove, rfl, hgeneration.symm⟩
  have hstep : (y.step (.advance i)).threads = y.threads.set i (t.atPc .loadSeq) := by
    simp [step, hi, advance, hpc, (Verb.ne_of_isMove hmove).2, Thread.step, hset]
  rw [hstep]
  exact List.mem_of_getElem? (List.getElem?_set_self hlt)

end Process

namespace Claims

/-- What holds between the steps of a run: every id of a move that the loop knows, or publishes, or
has left to store is that of a pushed target, and a call that needs its claim holds it. -/
structure Traced (o : Claims) : Prop where
  owned : o.Owned
  /-- no call is of an earlier run -/
  first : o.earlier = 0
  placed : ∀ t ∈ o.threads, t.Placed
  queued : ∀ u ∈ targets o.machine.shared.queue, o.machine.process.Known u.generation
  active : o.machine.process.Known o.machine.shared.rt.activeGeneration
  todo : Stores o.machine.process.Known o.machine.todo
  published : ∀ g ∈ o.published, o.machine.process.Known g
  holding : ∀ i t, o.threads[i]? = some t → t.Holding → i ∈ o.holders

variable {o : Claims} {op : AtomicOp}

/-- While `home` has its claim no move comes to push. -/
theorem Traced.excludes (h : o.Traced) {i j : Nat} {t u : Thread} (hi : o.threads[i]? = some t)
    (hhome : t.verb = .home) (hclaimed : t.pc.claimed = true) (hj : o.threads[j]? = some u)
    (hmove : u.verb.isMove = true) (hpush : u.pc = .push) : False := by
  have hdistinct : ∀ {i j : Nat} {t u : Thread}, o.threads[i]? = some t → o.threads[j]? = some u →
      t.generation = u.generation → t.generation ≠ 0 → i = j := by
    intro i j t u
    have hfirst : ∀ k, o.earlier ≤ k := fun k => h.first ▸ k.zero_le
    exact h.owned.numbered.distinct i j t u (hfirst i) (hfirst j)
  have htmove : t.verb.isMove = false := by rw [hhome]; rfl
  obtain ⟨-, t', ht', hne⟩ := h.owned.holders i (h.holding i t hi (.inl ⟨hhome, hclaimed⟩))
  cases hi.symm.trans ht'
  obtain ⟨-, u', hu', hne'⟩ := h.owned.holders j (h.holding j u hj (.inr ⟨hmove, hpush⟩))
  cases hj.symm.trans hu'
  -- Neither id was published: the first is of no move, and the second of one that did not push.
  have hlive : o.Live i t := by
    refine ⟨hi, h.holding i t hi (.inl ⟨hhome, hclaimed⟩), fun hpublished => ?_⟩
    rcases h.published _ hpublished with hzero | ⟨v, hv, hvmove, -, heq⟩
    · exact hne hzero
    · obtain ⟨k, hk⟩ := List.mem_iff_getElem?.mp hv
      cases hdistinct hk hi heq (heq ▸ hne)
      cases hi.symm.trans hk
      rw [htmove] at hvmove
      cases hvmove
  have hlive' : o.Live j u := by
    refine ⟨hj, h.holding j u hj (.inr ⟨hmove, hpush⟩), fun hpublished => ?_⟩
    rcases h.published _ hpublished with hzero | ⟨v, hv, -, hpast, heq⟩
    · exact hne' hzero
    · obtain ⟨k, hk⟩ := List.mem_iff_getElem?.mp hv
      cases hdistinct hk hj heq (heq ▸ hne')
      cases hj.symm.trans hk
      rw [hpush] at hpast
      cases hpast
  have heq := (h.owned.owner i t hlive).symm.trans (h.owned.owner j u hlive')
  cases hdistinct hi hj heq hne
  cases hi.symm.trans hj
  rw [htmove] at hmove
  cases hmove

/-- A call that needs its claim after a step of an API thread holds one. -/
theorem Traced.holding_api (h : o.Traced) {op : Op} {i : Nat} {t' : Thread}
    (hi' : (o.machine.process.step op).threads[i]? = some t') (hholding : t'.Holding) :
    i ∈ (o.next (.api op)).holders := by
  have hkeeps : ∀ {t : Thread}, o.threads[i]? = some t → t.Holding → t.pc.releases = false →
      i ∈ (o.next (.api op)).holders := by
    intro t hi hbefore hreleases
    refine mem_holders_next.mpr (.inr ⟨h.holding i t hi hbefore, fun hreleaser => ?_⟩)
    obtain ⟨-, u, hu, hpc⟩ := Machine.caller_eq_some_iff.mp hreleaser
    cases hi.symm.trans hu
    rw [hreleases] at hpc
    cases hpc
  rcases Process.turn_of_step hi' with hold | ⟨-, hpc⟩ | ⟨t, hold, hturn⟩
  · refine mem_holders_next.mpr (.inr ⟨h.holding i t' hold hholding, fun hreleaser => ?_⟩)
    -- A release moves its call on.
    obtain ⟨hop, u, hu, hpc⟩ := Machine.caller_eq_some_iff.mp hreleaser
    cases hop
    cases hold.symm.trans hu
    have hold : o.machine.process.threads[i]? = some t' := hold
    have hpush : t'.pc ≠ .push := fun heq => by rw [heq] at hpc; cases hpc
    have hafter := t'.releases_step (s := o.machine.process.shared) hpc
    have hlt := (List.getElem?_eq_some_iff.mp hold).1
    simp only [Process.step, hold, Process.advance, hpush, false_and, if_false,
      List.getElem?_set_self hlt, Option.some.injEq] at hi'
    rw [hi', hpc] at hafter
    cases hafter
  · rcases hholding with ⟨hhome, hclaimed⟩ | ⟨hmove, hpush⟩
    · rw [hpc] at hclaimed
      split_ifs at hclaimed <;> cases hclaimed
    · rw [hpc] at hpush
      split_ifs at hpush
  · rcases hturn.holding (h.placed t (List.mem_of_getElem? hold)) hholding with
      ⟨hbefore, hreleases⟩ | ⟨rfl, hpc⟩
    · exact hkeeps hold hbefore hreleases
    · refine mem_holders_next.mpr (.inl ?_)
      exact Machine.caller_eq_some_iff.mpr ⟨rfl, t, hold, decide_eq_true hpc⟩

/-- A call after a step of an API thread is placed. -/
theorem Traced.placed_api (h : o.Traced) (op : Op) :
    ∀ t ∈ (o.machine.process.step op).threads, t.Placed := by
  intro t' ht'
  obtain ⟨i, hi⟩ := List.mem_iff_getElem?.mp ht'
  rcases Process.turn_of_step hi with hold | ⟨-, hpc⟩ | ⟨t, hold, hturn⟩
  · exact h.placed t' (List.mem_of_getElem? hold)
  · unfold Thread.Placed
    rw [hpc]
    split_ifs with hset
    · rfl
    · exact decide_eq_true hset
  · exact hturn.placed (h.placed t (List.mem_of_getElem? hold))

/-- A queued target after a step of an API thread was queued, or it was pushed by the step. -/
theorem Traced.queued_api (h : o.Traced) (op : Op) :
    ∀ u ∈ targets (o.machine.process.step op).shared.queue,
      (o.machine.process.step op).Known u.generation := by
  intro u hu
  have hbefore : u ∈ targets o.machine.process.shared.queue →
      (o.machine.process.step op).Known u.generation := fun hmem => (h.queued u hmem).step op
  rw [Process.step_queue] at hu
  split_ifs at hu
  · cases hu
  cases hpush : o.machine.process.pushes? op with
  | none =>
      rw [hpush] at hu
      exact hbefore hu
  | some c =>
      rw [hpush] at hu
      rcases o.machine.process.takes_cases c with hdropped | htaken
      · rw [hdropped] at hu
        exact hbefore hu
      · rw [htaken, targets_concat, List.mem_append] at hu
        rcases hu with hu | hu
        · exact hbefore hu
        · have hc : c = .setTarget u := by
            cases c <;> simp [Command.target?] at hu
            rw [hu]
          exact Process.known_of_push h.owned.commanded (hc ▸ hpush)

theorem Traced.next_api (h : o.Traced) {op : Op} (hrun : op.inRun = true)
    (hwrap : o.machine.process.NoWrap op)
    (hstep : o.machine.step (.api op) = { o.machine with process := o.machine.process.step op })
    (hdispatch : ∀ inp, op ≠ .dispatch inp) : (o.next (.api op)).Traced := by
  have hmachine : (o.next (.api op)).machine =
    { o.machine with process := o.machine.process.step op } := hstep
  have hids : (o.machine.process.step op).shared.rt.ids = o.machine.process.shared.rt.ids :=
    Process.step_ids_inRun hrun h.owned.stage hdispatch
  simp only [ids, Prod.mk.injEq] at hids
  constructor
  case owned => exact h.owned.next hrun (o.claimsFresh_of_noWrap h.first hwrap)
  case first => exact h.first
  case placed => rw [threads, hmachine]; exact h.placed_api op
  case queued => rw [Machine.shared, hmachine]; exact h.queued_api op
  case active =>
    rw [Machine.shared, hmachine, hids.1]
    exact h.active.step op
  case todo =>
    rw [hmachine]
    exact h.todo.mono fun g hg => hg.step op
  case published =>
    intro g hg
    rw [hmachine]
    exact (h.published g hg).step op
  case holding =>
    intro i t' hi' hholding
    rw [threads, hmachine] at hi'
    exact h.holding_api hi' hholding

/-- What the RT thread has queued, active and left to store after an operation of its own. -/
theorem Traced.known_rt (h : o.Traced) (hno : ∀ op', op ≠ .api op') :
    (∀ u ∈ targets (o.machine.step op).shared.queue, o.machine.process.Known u.generation) ∧
      o.machine.process.Known (o.machine.step op).shared.rt.activeGeneration ∧
      Stores o.machine.process.Known (o.machine.step op).todo := by
  have hacts := o.machine.step_acts op
  generalize o.machine.step op = m' at hacts
  cases hacts with
  | api => exact absurd rfl (hno _)
  | stays => exact ⟨h.queued, h.active, h.todo⟩
  | @dispatches inp htodo =>
      refine ⟨fun u hu => ?_, h.active, stores_cycle h.active h.queued⟩
      have hqueue : u ∈ targets (o.machine.shared.computed inp).queue := hu
      unfold Session.computed at hqueue
      dsimp only at hqueue
      split_ifs at hqueue
      · exact h.queued u hqueue
      · cases hqueue
  | leaves htodo => exact ⟨h.queued, h.active, Session.stores_stop _ _ _⟩
  | @stores st todo htodo =>
      have hall := h.todo
      rw [htodo] at hall
      have hrest : Stores o.machine.process.Known todo :=
        fun st' hst' => hall st' (List.mem_cons_of_mem _ hst')
      cases st with
      | active g => exact ⟨h.queued, hall _ List.mem_cons_self g rfl, hrest⟩
      | _ => exact ⟨h.queued, h.active, hrest⟩
  | finishes htodo => exact ⟨h.queued, h.active, h.todo⟩

theorem Traced.next_rt (h : o.Traced) (hno : ∀ op', op ≠ .api op') (hrun : op.inRun = true)
    (hwrap : o.machine.NoWrap op) : (o.next op).Traced := by
  obtain ⟨hthreads, -, -, -⟩ := Machine.process_step (m := o.machine) hno
  obtain ⟨hqueued, hactive, htodo⟩ := h.known_rt hno
  have hthreads' : (o.next op).threads = o.threads := hthreads
  have hknown : ∀ {g}, o.machine.process.Known g → (o.next op).machine.process.Known g := by
    intro g hg
    refine hg.imp_right fun ⟨t, ht, hmove⟩ => ⟨t, ?_, hmove⟩
    show t ∈ (o.next op).threads
    rw [hthreads']
    exact ht
  constructor
  case owned => exact h.owned.next hrun (o.claimsFresh_of_noWrap h.first hwrap)
  case first => exact h.first
  case placed => rw [hthreads']; exact h.placed
  case queued => exact fun u hu => hknown (hqueued u hu)
  case active => exact hknown hactive
  case todo => exact htodo.mono fun g hg => hknown hg
  case published =>
    intro g hg
    rcases List.mem_append.mp hg with hg | hg
    · rw [Option.mem_toList] at hg
      cases op with
      | store =>
          obtain ⟨st, hst, hid⟩ := Option.bind_eq_some_iff.mp hg
          refine hknown (h.todo st (List.mem_of_mem_head? hst) g ?_)
          cases st <;> cases hid <;> rfl
      | _ => cases hg
    · exact hknown (h.published g hg)
  case holding =>
    intro i t hi hholding
    rw [hthreads'] at hi
    refine mem_holders_next.mpr (.inr ⟨h.holding i t hi hholding, ?_⟩)
    rw [Machine.releaser?, Machine.caller_rt hno]
    intro hnone
    cases hnone

theorem Traced.next (h : o.Traced) (hrun : op.inRun = true) (hwrap : o.machine.NoWrap op) :
    (o.next op).Traced := by
  rcases exists_or_forall_not fun op' => op = .api op' with ⟨op, rfl⟩ | hno
  · cases op with
    | dispatch inp =>
        have hstays : o.next (.api (.dispatch inp)) = o := by
          simp [Claims.next, Machine.claimer?, Machine.releaser?, Machine.caller?,
            Machine.publishes?, Machine.step]
        exact hstays.symm ▸ h
    | exit reason =>
        have hstays : o.next (.api (.exit reason)) = o := by
          simp [Claims.next, Machine.claimer?, Machine.releaser?, Machine.caller?,
            Machine.publishes?, Machine.step]
        exact hstays.symm ▸ h
    | _ => exact h.next_api hrun hwrap rfl fun inp heq => by cases heq
  · exact h.next_rt hno hrun hwrap

/-- The start of a run with no target queued, and no call of an earlier one. -/
theorem Traced.start {s : Session} {b : Bringup} (hqueue : targets s.queue = []) :
    (Claims.start (.started s b)).Traced := by
  have hids := Process.started_ids s b
  simp only [ids, Prod.mk.injEq] at hids
  exact {
    owned := .start (Process.started_startsRun s b)
    first := rfl
    placed := fun t ht => absurd ht List.not_mem_nil
    queued := fun u hu => absurd (hqueue ▸ hu : u ∈ []) List.not_mem_nil
    active := .inl hids.1
    todo := .nil
    published := fun g hg => absurd hg List.not_mem_nil
    holding := fun i t hi => absurd (List.mem_of_getElem? hi) List.not_mem_nil }

end Claims

end ViamEthercat.Servo
