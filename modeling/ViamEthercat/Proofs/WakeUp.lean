import ViamEthercat.Proofs.SlotClaim

/-!
# `ViamEthercat.Proofs.WakeUp`: a parked call and what would end its wait

A call reads `wake_seq_`, then each thing that would end its wait, and parks while the sequence is
the one it read. So a store that is followed by its `bump_wake` is never missed: a call that loaded
before the store finds another sequence, or the bump is still to come.

Two stores have no bump. The loop publishes the active move without one, and `await_move` takes a
later active id as the end of its wait. The catch block of `home` stores `homing_state` without
one. `NoLostWake` fails after the first: a move whose id is older can park next to the target that
a call of a later id left in the queue (`superseded_move_parked`). `no_lost_wake` is the rest: it
holds along every run in which these two stores find no call that has loaded what they change
under the sequence that is still there.
-/

set_option autoImplicit false

namespace ViamEthercat.Servo

open Lib Controller

/-- What ends the wait of a call. -/
inductive LeaveCause where
  | homing
  | completed
  /-- a later move is active -/
  | superseded
  | stopping
  | exited
  | failed
  | faulted
deriving DecidableEq, Repr

namespace LeaveCause

/-- When a round of a wait looks at it, after the load of `wake_seq_`. -/
def load : LeaveCause → Nat
  | .homing => 0
  | .completed => 1
  | .superseded => 2
  | .stopping => 3
  | .exited => 4
  | .failed => 5
  | .faulted => 6

theorem load_lt (c : LeaveCause) : c.load < 7 := by
  cases c <;> decide

theorem load_injective : Function.Injective load := by
  intro c c' h
  cases c <;> cases c' <;> first | rfl | cases h

end LeaveCause

/-- The round of a wait: its `wake_seq_`, and its next load. -/
def Pc.round? : Pc → Option (Nat × Nat)
  | .loadHoming seq => some (seq, 0)
  | .loadCompleted seq => some (seq, 1)
  | .loadActive seq => some (seq, 2)
  | .loadStopping seq => some (seq, 3)
  | .loadExited seq => some (seq, 4)
  | .loadFailed seq => some (seq, 5)
  | .loadFaulted seq => some (seq, 6)
  | .wait seq => some (seq, 7)
  | _ => none

/-- At the store of the catch block of `home`. -/
def Pc.catches : Pc → Bool
  | .giveUp _ => true
  | _ => false

namespace Thread

/-- The call would end its wait for this. -/
def Leaves (s : Session) (t : Thread) : LeaveCause → Prop
  | .homing => t.verb = .home ∧ s.rt.homingState ≠ .running
  | .completed => t.verb.isMove = true ∧ t.generation ≤ s.rt.completedGeneration
  | .superseded => t.verb.isMove = true ∧ t.generation < s.rt.activeGeneration
  | .stopping => s.stopping = true
  | .exited => s.rtExited = true
  | .failed => t.verb.isMove = true ∧ t.generation ≤ s.rt.failedGeneration
  | .faulted => t.verb.isMove = true ∧ s.rt.telemetry.faulted = true

end Thread

/-- The thread that holds the lock has set `stopping_`, and wakes next. -/
def Stage.isStopped : Stage → Bool
  | .stopped => true
  | _ => false

namespace Machine

variable (m : Machine)

/-- The setter has stored it, and runs its `bump_wake` next. -/
def Due : LeaveCause → Prop
  | .homing => m.todo.head? = some (.wake .homing)
  | .completed => m.todo.head? = some (.wake .completed)
  | .superseded => False
  | .stopping => m.process.stage.isStopped = true
  | .exited => m.todo.head? = some (.wake .exited)
  | .failed => m.todo.head? = some (.wake .failed)
  | .faulted => m.todo.head? = some (.wake .faulted)

/-- A call that is parked, with `wake_seq_` as it read it, would not end its wait, except for what
its setter wakes it for next. -/
def NoLostWake : Prop :=
  ∀ t ∈ m.process.threads, t.pc = .wait m.shared.rt.wakeSeq →
    ∀ c, t.Leaves m.shared c → m.Due c

/-- The call has yet to look at `c` in its round, or it will not park in this round. -/
def LooksAgain (t : Thread) (c : LeaveCause) : Prop :=
  ∀ r ∈ t.pc.round?, c.load < r.2 → r.1 ≠ m.shared.rt.wakeSeq

/-- The move that this step publishes as the active one. -/
def adopts? : AtomicOp → Option Nat
  | .store => match m.todo.head? with
      | some (.active g) => some g
      | _ => none
  | _ => none

/-- The two stores without a wake find no call that they could leave parked: the moves of an earlier
id, and the other calls of `home`. -/
def Heard (op : AtomicOp) : Prop :=
  (∀ g ∈ m.adopts? op, ∀ t ∈ m.process.threads, t.verb.isMove = true → t.generation < g →
    m.LooksAgain t .superseded) ∧
  ∀ _i ∈ m.caller? Pc.catches op, ∀ t ∈ m.process.threads, t.verb = .home →
    m.LooksAgain t .homing

instance (t : Thread) (c : LeaveCause) : Decidable (m.LooksAgain t c) :=
  inferInstanceAs (Decidable (∀ _ ∈ _, _ → _))

instance (op : AtomicOp) : Decidable (m.Heard op) :=
  inferInstanceAs (Decidable ((∀ _ ∈ _, ∀ _ ∈ _, _ → _ → _) ∧ ∀ _ ∈ _, ∀ _ ∈ _, _ → _))

end Machine

/-! ### One round of a wait -/

namespace Thread

variable {s s' : Session} {t : Thread} {c : LeaveCause}

/-- What a call would leave for depends on its verb and its move id. -/
theorem leaves_congr {u : Thread} (hverb : u.verb = t.verb)
    (hgeneration : u.generation = t.generation) : u.Leaves s c ↔ t.Leaves s c := by
  cases c <;> simp only [Leaves, hverb, hgeneration]

theorem round_eq_none {pc : Pc} (h : pc.waits = false) : pc.round? = none := by
  cases pc <;> first | rfl | cases h

/-- The operations of a wait are loads. -/
theorem step_of_waits (h : t.pc.waits = true) : (t.step s).1 = s := by
  cases hpc : t.pc <;> simp only [hpc, Pc.waits, Bool.false_eq_true] at h <;>
    simp only [step, hpc]

/-- A call that does not wait comes to the load of `wake_seq_` first, with its push. -/
theorem round_step_eq_none (h : t.pc.waits = false) : (t.step s).2.pc.round? = none := by
  by_cases hpush : t.pc = .push
  · simp only [step, hpush, atPc]
    split_ifs <;> rfl
  · exact round_eq_none (t.waits_step s h hpush)

/-- `home` leaves for nothing that only a move looks at. -/
theorem not_isMove_of_home (h : t.verb = .home) : ¬ t.verb.isMove = true := by
  rw [h]
  exact nofun

/-- A load that does not end the wait. -/
theorem not_leaves_of_load {d : LeaveCause} (hnot : ¬ t.Leaves s d)
    (hc : c.load < d.load + 1) : c.load < d.load ∨ ¬ t.Leaves s c := by
  rcases Nat.lt_succ_iff_lt_or_eq.mp hc with hlt | heq
  · exact .inl hlt
  · rw [LeaveCause.load_injective heq]
    exact .inr hnot

/-- A round begins with the load of `wake_seq_`. Each load of it finds that its cause does not
hold. -/
theorem round_step (hwf : t.WellFormed) {r : Nat × Nat}
    (hr : (t.step s).2.pc.round? = some r) :
    r.1 = s.rt.wakeSeq ∧ (∀ c : LeaveCause, c.load < r.2 → ¬ t.Leaves s c) ∨
      ∃ n, t.pc.round? = some (r.1, n) ∧
        ∀ c : LeaveCause, c.load < r.2 → c.load < n ∨ ¬ t.Leaves s c := by
  cases hwaits : t.pc.waits with
  | false =>
      rw [round_step_eq_none hwaits] at hr
      cases hr
  | true =>
    cases hpc : t.pc <;> simp only [hpc, Pc.waits, Bool.false_eq_true] at hwaits <;>
      simp only [step, hpc, atPc, fails] at hr
    case loadSeq =>
        split_ifs at hr with hhome
        · cases hr
          exact .inl ⟨rfl, fun c hc => absurd hc (Nat.not_lt_zero _)⟩
        · cases hr
          refine .inl ⟨rfl, fun c hc => ?_⟩
          obtain rfl : c = .homing := LeaveCause.load_injective (Nat.lt_one_iff.mp hc)
          exact fun h => hhome h.1
    case loadHoming =>
        have hmove := not_isMove_of_home (hwf.homing _ hpc)
        split_ifs at hr with h
        · cases hr
        · cases hr
          refine .inr ⟨0, rfl, fun c hc => .inr ?_⟩
          cases c with
          | homing => exact fun hc => h hc.2
          | completed => exact fun hc => hmove hc.1
          | superseded => exact fun hc => hmove hc.1
          | _ => simp [LeaveCause.load] at hc
    case loadCompleted =>
        split_ifs at hr with h
        · cases hr
        · cases hr
          exact .inr ⟨1, rfl, fun c => not_leaves_of_load (d := .completed) fun hc => h hc.2⟩
    case loadActive =>
        split_ifs at hr with h
        · cases hr
        · cases hr
          exact .inr ⟨2, rfl, fun c => not_leaves_of_load (d := .superseded) fun hc => h hc.2⟩
    case loadStopping =>
        split_ifs at hr with h
        · cases hr
        · cases hr
        · cases hr
          exact .inr ⟨3, rfl, fun c => not_leaves_of_load (d := .stopping) h⟩
    case loadExited =>
        split_ifs at hr with h hhome hhome
        · cases hr
        · cases hr
        · cases hr
          have hmove := not_isMove_of_home hhome
          refine .inr ⟨4, rfl, fun c hc => ?_⟩
          cases c with
          | exited => exact .inr h
          | failed => exact .inr fun hc => hmove hc.1
          | faulted => exact .inr fun hc => hmove hc.1
          | _ => exact .inl (by simp [LeaveCause.load])
        · cases hr
          exact .inr ⟨4, rfl, fun c => not_leaves_of_load (d := .exited) h⟩
    case loadFailed =>
        split_ifs at hr with h
        · cases hr
        · cases hr
        · cases hr
          exact .inr ⟨5, rfl, fun c => not_leaves_of_load (d := .failed) fun hc => h hc.2⟩
    case loadFaulted =>
        split_ifs at hr with h
        · cases hr
        · cases hr
        · cases hr
          exact .inr ⟨6, rfl, fun c => not_leaves_of_load (d := .faulted) fun hc => h hc.2⟩
    case wait =>
        split_ifs at hr
        · cases hr
          exact .inr ⟨7, rfl, fun c hc => .inl hc⟩
        · cases hr

end Thread

/-! ### The invariant -/

namespace Machine

variable {m m' : Machine} {t : Thread} {c : LeaveCause} {op : AtomicOp}

/-- What a call would leave for is due, or the call looks at it again. -/
structure Attentive (m : Machine) (t : Thread) : Prop where
  bounded : ∀ r ∈ t.pc.round?, r.1 ≤ m.shared.rt.wakeSeq
  heard : ∀ c, t.Leaves m.shared c → m.Due c ∨ m.LooksAgain t c

/-- A call that is in no round has nothing to look at again. -/
theorem Attentive.of_round_eq_none (h : t.pc.round? = none) : m.Attentive t := by
  constructor
  · rw [h]
    exact nofun
  · intro c _
    refine .inr fun r hr => ?_
    rw [h] at hr
    cases hr

/-- A wake: no round has the new sequence. -/
theorem Attentive.bump (h : m.Attentive t)
    (hseq : m'.shared.rt.wakeSeq = m.shared.rt.wakeSeq + 1) : m'.Attentive t := by
  constructor
  · intro r hr
    have hle := h.bounded r hr
    omega
  · intro c _
    refine .inr fun r hr _ => ?_
    have hle := h.bounded r hr
    omega

/-- A step without a wake, as one call sees it. -/
theorem Attentive.keep (h : m.Attentive t) (hseq : m'.shared.rt.wakeSeq = m.shared.rt.wakeSeq)
    (hstep : ∀ c, t.Leaves m'.shared c → m'.Due c ∨ m.LooksAgain t c ∨
      (t.Leaves m.shared c ∧ (m.Due c → m'.Due c))) : m'.Attentive t := by
  have hlooks : ∀ c, m.LooksAgain t c → m'.LooksAgain t c := by
    intro c hlooks r hr hlt
    rw [hseq]
    exact hlooks r hr hlt
  constructor
  · intro r hr
    rw [hseq]
    exact h.bounded r hr
  · intro c hc
    rcases hstep c hc with hdue | hagain | ⟨hbefore, hdue⟩
    · exact .inl hdue
    · exact .inr (hlooks c hagain)
    · exact (h.heard c hbefore).imp hdue (hlooks c)

/-- A call that has made a later load has made the earlier ones. -/
theorem LooksAgain.mono {d : LeaveCause} (h : m.LooksAgain t c) (hle : c.load ≤ d.load) :
    m.LooksAgain t d :=
  fun r hr hlt => h r hr (by omega)

/-- A call that makes its next operation in a wait. -/
theorem Attentive.step (h : m.Attentive t) (hwf : t.WellFormed) (hwaits : t.pc.waits = true)
    (hshared : m'.shared = m.shared) (hdue : ∀ c, m.Due c → m'.Due c) :
    m'.Attentive (t.step m.shared).2 := by
  have hid : t.pc ≠ .takeId := by
    intro hpc
    rw [hpc] at hwaits
    cases hwaits
  have hgeneration : (t.step m.shared).2.generation = t.generation := by
    rw [t.step_generation, if_neg hid]
  constructor
  · intro r hr
    rw [hshared]
    rcases Thread.round_step hwf hr with ⟨heq, -⟩ | ⟨n, hn, -⟩
    · exact heq.le
    · exact h.bounded (r.1, n) hn
  · intro c hc
    rw [hshared, Thread.leaves_congr (t.step_call m.shared).1 hgeneration] at hc
    refine (h.heard c hc).imp (hdue c) fun hagain r hr hlt => ?_
    rw [hshared]
    rcases Thread.round_step hwf hr with ⟨-, hnot⟩ | ⟨n, hn, hnot⟩
    · exact absurd hc (hnot c hlt)
    · -- What the round looked at before this load it does not look at again.
      rcases hnot c hlt with hlt | hnot
      · exact hagain (r.1, n) hn hlt
      · exact absurd hc hnot

/-! ### A store of the RT thread -/

/-- The cause that a store changes. -/
def cause? : RtStore → Option LeaveCause
  | .completed _ => some .completed
  | .failed _ => some .failed
  | .active _ => some .superseded
  | .homingState _ => some .homing
  | .faulted _ => some .faulted
  | .rtExited => some .exited
  | _ => none

/-- The other causes are as they were. -/
theorem leaves_stored {st : RtStore} {s : Session} (h : t.Leaves (s.stored st) c) :
    t.Leaves s c ∨ cause? st = some c := by
  cases st <;> cases c <;> first | exact .inl h | exact .inr rfl

/-- Before a store that is no wake only the holder of the lock is about to wake. -/
theorem due_of_store {st : RtStore} {todo : List RtStore} (htodo : m.todo = st :: todo)
    (hst : ∀ cause, st ≠ .wake cause) (h : m.Due c) :
    c = .stopping ∧ m.process.stage.isStopped = true := by
  have hhead : ∀ cause, m.todo.head? ≠ some (.wake cause) := by
    intro cause heq
    rw [htodo] at heq
    exact hst cause (Option.some.inj heq)
  cases c with
  | stopping => exact ⟨rfl, h⟩
  | superseded => exact h.elim
  | _ => exact absurd h (hhead _)

/-- A store of `faulted`: it has its wake, or the drive was faulted before, or the loop had exited
and the call leaves for that. -/
theorem Attentive.faulted {b : Bool} {todo : List RtStore} (h : m.Attentive t)
    (htodo : m.todo = .faulted b :: todo)
    (hcovered : Covered m.shared.rt.telemetry.faulted m.shared.rtExited m.todo)
    (hmove : t.verb.isMove = true) (hb : b = true) :
    todo.head? = some (.wake .faulted) ∨ m.LooksAgain t .faulted ∨
      t.Leaves m.shared .faulted := by
  cases hfaulted : m.shared.rt.telemetry.faulted with
  | true => exact .inr (.inr ⟨hmove, hfaulted⟩)
  | false =>
      cases hexited : m.shared.rtExited with
      | true =>
          rcases h.heard .exited hexited with hdue | hagain
          · cases (due_of_store htodo (fun _ => nofun) hdue).1
          · exact .inr (.inl (hagain.mono (by decide)))
      | false =>
          rw [htodo, hfaulted, hexited] at hcovered
          refine .inl (hcovered.1 .faulted ?_)
          rw [hb]
          rfl

/-- A store of the RT thread, as one call sees it. -/
theorem Attentive.stored {st : RtStore} {todo : List RtStore} (h : m.Attentive t)
    (ht : t ∈ m.process.threads) (htodo : m.todo = st :: todo)
    (hcovered : Covered m.shared.rt.telemetry.faulted m.shared.rtExited m.todo)
    (hheard : m.Heard .store) :
    Attentive { m.onShared (m.shared.stored st) with todo := todo } t := by
  rcases exists_or_forall_not fun cause => st = .wake cause with ⟨cause, rfl⟩ | hst
  · exact h.bump rfl
  have hwakes : ∀ d ∈ st.owes m.shared.rt.telemetry.faulted m.shared.rtExited,
      todo.head? = some (.wake d) := by
    rw [htodo] at hcovered
    exact hcovered.1
  refine h.keep ?_ fun c hc => ?_
  · cases st with
    | wake cause => exact absurd rfl (hst cause)
    | _ => rfl
  rcases leaves_stored hc with hbefore | hcause
  · refine .inr (.inr ⟨hbefore, fun hdue => ?_⟩)
    obtain ⟨rfl, hstage⟩ := due_of_store htodo hst hdue
    exact hstage
  -- The store is one that a wait looks at.
  cases st with
  | completed g =>
      cases hcause
      exact .inl (hwakes .completed rfl)
  | failed g =>
      cases hcause
      exact .inl (hwakes .failed rfl)
  | homingState state =>
      cases hcause
      exact .inl (hwakes .homing rfl)
  | rtExited =>
      cases hcause
      exact .inl (hwakes .exited rfl)
  | active g =>
      cases hcause
      have hadopts : m.adopts? .store = some g := by simp only [adopts?, htodo, List.head?_cons]
      exact .inr (.inl (hheard.1 g hadopts t ht hc.1 hc.2))
  | faulted b =>
      cases hcause
      rcases h.faulted htodo hcovered hc.1 hc.2 with hwake | hagain | hbefore
      · exact .inl hwake
      · exact .inr (.inl hagain)
      · refine .inr (.inr ⟨hbefore, fun hdue => ?_⟩)
        cases (due_of_store htodo hst hdue).1
  | _ => cases hcause

end Machine

/-! ### An operation of an API thread -/

/-- What the waits read, apart from the homing state. -/
def Session.watched (s : Session) : (Nat × Nat × Nat) × Bool × Bool × Bool × Nat :=
  (s.rt.ids, s.rt.telemetry.faulted, s.stopping, s.rtExited, s.rt.wakeSeq)

namespace Thread

variable {s s' : Session} {t : Thread} {c : LeaveCause}

theorem leaves_of_watched (hwatched : s'.watched = s.watched)
    (hhoming : c = .homing → s'.rt.homingState = s.rt.homingState) (h : t.Leaves s' c) :
    t.Leaves s c := by
  simp only [Session.watched, ids, Prod.mk.injEq] at hwatched
  obtain ⟨⟨hactive, hcompleted, hfailed⟩, hfaulted, hstopping, hexited, -⟩ := hwatched
  cases c with
  | homing => exact ⟨h.1, hhoming rfl ▸ h.2⟩
  | completed => exact ⟨h.1, hcompleted ▸ h.2⟩
  | superseded => exact ⟨h.1, hactive ▸ h.2⟩
  | stopping => exact hstopping.symm.trans h
  | exited => exact hexited.symm.trans h
  | failed => exact ⟨h.1, hfailed ▸ h.2⟩
  | faulted => exact ⟨h.1, hfaulted ▸ h.2⟩

/-- An operation of a call writes nothing that a wait reads, but the homing state. -/
theorem step_watched (s : Session) (t : Thread) : (t.step s).1.watched = s.watched := by
  obtain ⟨n, slot, q, fail, state, hframe⟩ := t.step_frame s
  rw [hframe]
  rfl

/-- `home` stores that it runs, and the store of its catch block is another. -/
theorem step_homingState (s : Session) (t : Thread) :
    (t.step s).1.rt.homingState = s.rt.homingState ∨
      (t.step s).1.rt.homingState = .running ∨ t.pc.catches = true := by
  cases hpc : t.pc
  case prepare => exact .inr (.inl (by simp only [step, hpc]))
  case giveUp => exact .inr (.inr rfl)
  case release => exact .inl (by simp only [step, hpc, Session.released_rt])
  case releaseHomed => exact .inl (by simp only [step, hpc, Session.released_rt])
  case push => exact .inl (by simp only [step, hpc, Session.pushed])
  case exchange =>
      simp only [step, hpc]
      split_ifs <;> exact .inl rfl
  case checkMode =>
      simp only [step, hpc]
      split <;> exact .inl rfl
  all_goals exact .inl (by simp only [step, hpc])

end Thread

namespace Machine

variable {m m' : Machine} {t : Thread} {c : LeaveCause}

/-- A step that changes nothing a wait reads. -/
theorem Attentive.same (h : m.Attentive t) (hwatched : m'.shared.watched = m.shared.watched)
    (hhoming : m'.shared.rt.homingState = m.shared.rt.homingState)
    (hdue : ∀ c, m.Due c → m'.Due c) : m'.Attentive t := by
  refine h.keep (congrArg (fun w => w.2.2.2.2) hwatched) fun c hc => ?_
  exact .inr (.inr ⟨Thread.leaves_of_watched hwatched (fun _ => hhoming) hc, hdue c⟩)

theorem due_of_stage (htodo : m'.todo = m.todo)
    (hstage : m.process.stage.isStopped = true → m'.process.stage.isStopped = true)
    (h : m.Due c) : m'.Due c := by
  cases c with
  | stopping => exact hstage h
  | superseded => exact h
  | _ => exact (congrArg List.head? htodo).trans h

/-- After `stopping_` is stored nothing but the wake is next. -/
theorem Attentive.hold_stopped {h : Hold} (hatt : m.Attentive t)
    (hstage : m.process.stage = .stopped) :
    Attentive { m with process := m.process.hold h } t := by
  cases h with
  | wake =>
      refine hatt.bump ?_
      simp only [Process.hold, hstage]
      rfl
  | _ =>
      simp only [Process.hold, hstage, Process.exclusive, Bool.true_or, if_true]
      exact hatt

/-- Before that, the holder of the lock stores it, or changes nothing that a wait reads. -/
theorem Attentive.hold {h : Hold} (hatt : m.Attentive t) (hrun : (Op.hold h).inRun = true)
    (hresetting : m.process.stage.isResetting = false)
    (hstage : m.process.stage.isStopped = false) :
    Attentive { m with process := m.process.hold h } t := by
  have hdue : ∀ {y : Process} {c}, m.Due c → Due { m with process := y } c := by
    intro y c
    refine due_of_stage rfl fun hstopped => ?_
    rw [hstage] at hstopped
    cases hstopped
  have hholds := m.process.hold_holds h
  generalize m.process.hold h = y' at hholds
  rcases hholds.of_inRun hrun hresetting with ⟨stage, -, rfl⟩ | rfl | ⟨hbefore, -⟩
  · exact hatt.same rfl rfl fun c => hdue
  · refine hatt.keep rfl fun c hc => ?_
    cases c with
    | stopping => exact .inl rfl
    | _ => exact .inr (.inr ⟨hc, hdue⟩)
  · rw [hbefore] at hstage
    cases hstage

/-- An operation of a call, as another one sees it. -/
theorem Attentive.advanced {i : Nat} {u : Thread} {y : Process} (hatt : m.Attentive t)
    (ht : t ∈ m.process.threads) (hi : m.process.threads[i]? = some u)
    (hheard : m.Heard (.api (.advance i))) (hshared : y.shared = (u.step m.shared).1)
    (hstage : y.stage = m.process.stage) : Attentive { m with process := y } t := by
  have hwatched : y.shared.watched = m.shared.watched := by
    rw [hshared]
    exact u.step_watched m.shared
  have hdue : ∀ {c}, m.Due c → Due { m with process := y } c := by
    intro c
    refine due_of_stage rfl fun hstopped => ?_
    rw [← hstage] at hstopped
    exact hstopped
  refine hatt.keep (congrArg (fun w => w.2.2.2.2) hwatched) fun c hc => ?_
  by_cases hcause : c = .homing
  · subst hcause
    have hstate := u.step_homingState m.shared
    rw [← hshared] at hstate
    rcases hstate with hsame | hrunning | hcatches
    · exact .inr (.inr ⟨Thread.leaves_of_watched hwatched (fun _ => hsame) hc, hdue⟩)
    · -- A call that prepares its run starts it for everybody.
      exact absurd hrunning hc.2
    · have hcaller : m.caller? Pc.catches (.api (.advance i)) = some i :=
        caller_eq_some_iff.mpr ⟨rfl, u, hi, hcatches⟩
      exact .inr (.inl (hheard.2 i hcaller t ht hc.1))
  · exact .inr (.inr
      ⟨Thread.leaves_of_watched hwatched (fun heq => absurd heq hcause) hc, hdue⟩)

/-- An operation of an API thread, as each call sees it. -/
theorem Attentive.api {op : Op} (hatt : m.Attentive t) (ht : t ∈ m.process.threads)
    (hrun : op.inRun = true) (hresetting : m.process.stage.isResetting = false)
    (hdispatch : ∀ inp, op ≠ .dispatch inp) (hexit : ∀ reason, op ≠ .exit reason)
    (hheard : m.Heard (.api op)) :
    Attentive { m with process := m.process.step op } t := by
  rcases exists_or_forall_not fun h => op = .hold h with ⟨h, rfl⟩ | hnohold
  · cases hstage : m.process.stage.isStopped with
    | true =>
        refine hatt.hold_stopped ?_
        cases hstopped : m.process.stage with
        | stopped => rfl
        | _ =>
            rw [hstopped] at hstage
            cases hstage
    | false => exact hatt.hold hrun hresetting hstage
  have hmoves := m.process.step_moves op
  generalize m.process.step op = y' at hmoves
  cases hmoves with
  | stays => exact hatt
  | pushes => exact hatt.same rfl rfl fun c => id
  | begins => exact hatt.same rfl rfl fun c => id
  | zeroes => exact hatt.same rfl rfl fun c => id
  | advances hi hlock => exact hatt.advanced ht hi hheard rfl rfl
  | turns => exact hatt.same rfl rfl fun c => id
  | dispatches => exact absurd rfl (hdispatch _)
  | exits => exact absurd rfl (hexit _)
  | holds => exact absurd rfl (hnohold _)

end Machine

namespace Process

variable {y : Process} {op : Op}

/-- Within a run only the RT thread publishes a fault and its exit. -/
theorem flags_step (hrun : op.inRun = true) (hresetting : y.stage.isResetting = false)
    (hdispatch : ∀ inp, op ≠ .dispatch inp) (hexit : ∀ reason, op ≠ .exit reason) :
    (y.step op).shared.rt.telemetry.faulted = y.shared.rt.telemetry.faulted ∧
      (y.step op).shared.rtExited = y.shared.rtExited := by
  have hmoves := y.step_moves op
  generalize y.step op = y' at hmoves
  cases hmoves with
  | @advances i t hi hlock =>
      have hwatched := t.step_watched y.shared
      simp only [Session.watched, Prod.mk.injEq] at hwatched
      exact ⟨hwatched.2.1, hwatched.2.2.2.1⟩
  | dispatches => exact absurd rfl (hdispatch _)
  | exits => exact absurd rfl (hexit _)
  | holds hholds =>
      rcases hholds.of_inRun hrun hresetting with ⟨stage, -, rfl⟩ | rfl | ⟨-, rfl⟩ <;>
        exact ⟨rfl, rfl⟩
  | _ => exact ⟨rfl, rfl⟩

end Process

namespace Machine

variable {m : Machine} {op : AtomicOp}

/-- What holds between the steps of a run. -/
structure Listening (m : Machine) : Prop where
  commanded : m.process.Commanded
  stage : m.process.stage.isResetting = false
  covered : Covered m.shared.rt.telemetry.faulted m.shared.rtExited m.todo
  attentive : ∀ t ∈ m.process.threads, m.Attentive t

/-- A call after an operation of an API thread: one that begins, one that went on, or another. -/
theorem Listening.attentive_api (h : m.Listening) {op : Op} (hrun : op.inRun = true)
    (hdispatch : ∀ inp, op ≠ .dispatch inp) (hexit : ∀ reason, op ≠ .exit reason)
    (hheard : m.Heard (.api op)) {t' : Thread} (ht' : t' ∈ (m.process.step op).threads) :
    Attentive { m with process := m.process.step op } t' := by
  obtain ⟨i, hi⟩ := List.mem_iff_getElem?.mp ht'
  rcases m.process.getElem?_step hi with hold | ⟨-, -, -, hpc⟩ | ⟨t, hold, rfl, rfl⟩ |
    ⟨t, pc, -, rfl, hturn⟩
  · have ht := List.mem_of_getElem? hold
    exact (h.attentive t' ht).api ht hrun h.stage hdispatch hexit hheard
  · refine .of_round_eq_none ?_
    rw [hpc]
    split_ifs <;> rfl
  · have ht := List.mem_of_getElem? hold
    cases hwaits : t.pc.waits with
    | true =>
        -- The operation is a load, and the memory is as it was.
        have hpush : t.pc ≠ .push := by
          intro hpc
          rw [hpc] at hwaits
          cases hwaits
        have hstep : m.process.step (.advance i) =
            { m.process with threads := m.process.threads.set i (t.step m.shared).2 } := by
          have hload : (t.step m.process.shared).1 = m.process.shared :=
            Thread.step_of_waits hwaits
          simp [Process.step, hold, Process.advance, hpush, hload, shared]
        rw [hstep]
        exact (h.attentive t ht).step (h.commanded t ht) hwaits rfl fun c => id
    | false => exact .of_round_eq_none (Thread.round_step_eq_none hwaits)
  · exact .of_round_eq_none (Thread.round_eq_none hturn.waits)

/-- An operation of the RT thread begins: nothing was left to wake for. -/
theorem due_of_todo_eq_nil {m' : Machine} {c : LeaveCause} (htodo : m.todo = [])
    (hstage : m'.process.stage = m.process.stage) (h : m.Due c) : m'.Due c := by
  cases c with
  | stopping => exact (congrArg Stage.isStopped hstage).trans h
  | superseded => exact h
  | _ =>
      rw [Due, htodo] at h
      cases h

theorem Listening.step (h : m.Listening) (hrun : op.inRun = true) (hheard : m.Heard op) :
    (m.step op).Listening := by
  have hacts := m.step_acts op
  generalize m.step op = m' at hacts
  cases hacts with
  | stays => exact h
  | @api op hdispatch hexit =>
      obtain ⟨hfaulted, hexited⟩ := Process.flags_step hrun h.stage hdispatch hexit
      exact {
        commanded := h.commanded.step op
        stage := Process.step_isResetting hrun h.stage
        covered := by
          have hcovered := h.covered
          rw [shared, ← hfaulted, ← hexited] at hcovered
          exact hcovered
        attentive := fun t' => h.attentive_api hrun hdispatch hexit hheard }
  | @dispatches inp htodo =>
      exact {
        commanded := h.commanded
        stage := h.stage
        covered := covered_cycle (s := m.shared.rt) ⟨inp, m.shared.queue⟩ m.shared.rtExited
        attentive := fun t ht =>
          (h.attentive t ht).same rfl rfl fun c => due_of_todo_eq_nil htodo rfl }
  | leaves htodo =>
      exact {
        commanded := h.commanded
        stage := h.stage
        covered := m.shared.covered_stop _ _
        attentive := fun t ht =>
          (h.attentive t ht).same rfl rfl fun c => due_of_todo_eq_nil htodo rfl }
  | @stores st todo htodo =>
      exact {
        commanded := h.commanded
        stage := h.stage
        covered := by
          have hcovered := h.covered
          rw [htodo] at hcovered
          cases st <;> exact hcovered.2
        attentive := fun t ht => (h.attentive t ht).stored ht htodo h.covered hheard }
  | finishes htodo =>
      exact {
        commanded := h.commanded
        stage := h.stage
        covered := h.covered
        attentive := fun t ht =>
          (h.attentive t ht).same rfl rfl fun c => due_of_todo_eq_nil htodo rfl }

/-- A parked call has looked at everything under the sequence that is there. -/
theorem Listening.noLostWake (h : m.Listening) : m.NoLostWake := by
  intro t ht hpc c hc
  refine ((h.attentive t ht).heard c hc).resolve_right fun hagain => ?_
  have hround : t.pc.round? = some (m.shared.rt.wakeSeq, 7) := by
    rw [hpc]
    rfl
  exact hagain _ hround c.load_lt rfl

end Machine

/-- Within a run, whatever the interleaving of its calls with the stores of the loop, no parked call
misses what would end its wait, when each of the two stores without a wake is heard. No call of an
earlier run is in flight. -/
theorem no_lost_wake (s : Session) (b : Bringup) (ops : List AtomicOp)
    (hops : AllSteps Machine.step (fun m op => op.inRun = true ∧ m.Heard op)
      (Machine.started s b) ops) :
    (runFrom Machine.step (Machine.started s b) ops).NoLostWake := by
  have hlistening : (runFrom Machine.step (Machine.started s b) ops).Listening := by
    refine runFrom_of_allSteps (I := Machine.Listening) ?_ ?_ hops
    · exact {
        commanded := fun t ht => absurd ht List.not_mem_nil
        stage := rfl
        covered := trivial
        attentive := fun t ht => absurd ht List.not_mem_nil }
    · rintro m op h ⟨hrun, hheard⟩
      exact h.step hrun hheard
  exact hlistening.noLostWake

/-- A move that parks, and is completed while it does. Its wake is still to come. -/
def completedMove : List AtomicOp :=
  List.flatten
    [storedTicks (climb 1 7),
      .api (.call (.goTo (.fin 100) (.fin 1))) :: List.replicate 11 (.api (.advance 0)),
      storedTicks [tick 0x0027#16 1 7 [], tick 0x1027#16 1 7 [], tick 0x1027#16 1 7 [],
        tick 0x0027#16 1 7 []],
      .dispatch (tick 0x0427#16 1 10000 []).inp :: List.replicate 2 .store]

/-- The move is parked, and the loop is between its completion and the wake for it. -/
theorem completed_move_woken :
    let m := runFrom Machine.step (.started profileSession profileBringup) completedMove
    m.process.threads.map Thread.pc = [.wait 0] ∧ m.shared.rt.completedGeneration = 1 ∧
      m.todo.head? = some (.wake .completed) ∧ m.NoLostWake :=
  ⟨by decide +kernel, by decide +kernel, by decide +kernel,
    no_lost_wake profileSession profileBringup completedMove (by decide +kernel)⟩

/-- A move takes its id and is suspended. Another one takes the next id and leaves for a fault, with
its target in the queue. The fault clears, and the first one goes on: it loads the active id before
the cycle that drains the other target publishes it, and the fault after. -/
def overtakenWait : List AtomicOp :=
  List.flatten
    [[.api (.call (.goTo (.fin 100) (.fin 1))), .api (.advance 0)],
      storedTicks [tick 0x0008#16 1 0 []],
      .api (.call (.goTo (.fin 100) (.fin 2))) :: List.replicate 12 (.api (.advance 1)),
      List.replicate 2 (.api (.advance 0)),
      [.dispatch (tick 0x0040#16 1 0 []).inp],
      List.replicate 7 (.api (.advance 0)),
      List.replicate 12 .store,
      [.api (.advance 0)]]

/-- The first move is parked next to a later active one, and nobody is about to wake it. -/
theorem superseded_move_parked : ¬ ∀ (s : Session) (b : Bringup) (ops : List AtomicOp),
    s.queue = [] → (∀ op ∈ ops, op.inRun = true) →
    (runFrom Machine.step (.started s b) ops).NoLostWake := by
  intro h
  have hparked := h profileSession profileBringup overtakenWait rfl (by decide +kernel)
  have hnever : ∀ t ∈ (runFrom Machine.step (.started profileSession profileBringup)
      overtakenWait).process.threads,
      t.pc = .wait (runFrom Machine.step (.started profileSession profileBringup)
        overtakenWait).shared.rt.wakeSeq →
      ¬ (t.verb.isMove = true ∧ t.generation < (runFrom Machine.step
        (.started profileSession profileBringup) overtakenWait).shared.rt.activeGeneration) :=
    fun t ht hpc hleaves => hparked t ht hpc .superseded hleaves
  revert hnever
  decide +kernel

end ViamEthercat.Servo
