import ViamEthercat.Servo.BusRecovery
import ViamEthercat.Lib.Run

/-!
# `ViamEthercat.Proofs.BusLost`: the marker of a lost bus and the current run

The next motion call tears the current run down when `bus_lost_` is set. So the marker has to be
set when that run died of a bus fault, or when there is none because its rebuild failed, and it
has to be clear while the run is live. `bring_up` retries with runs of its own, and each of them
can set the marker.

* `bus_lost_sound`: along every run of the lifecycle calls and the RT thread whose steps are all
  `Clean`, the marker describes the current run (`MarkerSound`) and `bring_up` returns with the
  run Running or Degraded (`ReturnSound`).
* `bus_lost_stale`: both fail without the condition. A bus fault right after OP, before the poll
  of `bring_up` has seen the run, leaves the marker to the run of the next attempt, and the last
  attempt returns with it.
-/

set_option autoImplicit false

namespace ViamEthercat.Servo

open Lib

/-- `on_stop` marks the controller Degraded. -/
def StopReason.degrades : StopReason → Bool
  | .bringupAborted _ | .rtSetupFailed => true
  | _ => false

def StopReason.isBusFault : StopReason → Bool
  | .busFault _ => true
  | _ => false

/-- `bring_up` has a Runner, and has not seen it Running. -/
def Holder.bringsUp : Holder → Bool
  | .poll _ _ | .failed _ _ | .retry _ _ => true
  | _ => false

/-- The attempt of `bring_up` that is not over yet. -/
def Holder.attempt : Holder → Nat
  | .poll _ n | .failed _ n => n
  | _ => 0

def Holder.lastAttempt (h : Holder) : Bool := decide (maxBringupAttempts ≤ h.attempt)

/-- The next operation is one of `reconfigure` that can throw. -/
def Holder.reconfigures : Holder → Bool
  | .build .reconfigure | .spawn .reconfigure _ | .rebuild .reconfigure _ => true
  | _ => false

/-- The next operation spawns a Runner of `reconfigure`. -/
def Holder.spawnsReconfigured : Holder → Bool
  | .spawn .reconfigure _ => true
  | _ => false

/-- `bring_up` has returned. -/
def Holder.hasReturned : Holder → Bool
  | .returned _ => true
  | _ => false

namespace BusState

variable (s : BusState)

/-- The reason for which the RT thread has left its loop. -/
def outReason : Option StopReason := match s.phase with
  | some (.stopping r) | some (.exited r) => some r
  | _ => none

/-- The current run has exited with BusFault. -/
def diedOfBusFault : Bool := match s.phase with
  | some (.exited r) => r.isBusFault
  | _ => false

/-- The marker describes the current run, when nobody holds the lock and the RT thread is not
inside `on_stop`. -/
def MarkerSound : Prop :=
  s.holder = .free → s.insideOnStop = false →
    (s.diedOfBusFault = true ∨ s.rebuildFailed = true → s.busLost = true) ∧
      (s.busLost = true → s.live = false)

/-- `bring_up` returns with the run Running or with `degraded_` set, unless the RT thread is
inside `on_stop`. -/
def ReturnSound (e : BusEvent) : Prop :=
  s.holder.hasReturned = false → (s.step e).holder.hasReturned = true →
    (s.step e).insideOnStop = false → (s.step e).isRunning = true ∨ (s.step e).degraded = true

/-- The condition on one step. The marker is clear at a `start`. No bus fault takes a run that
`bring_up` has not seen Running, and no requested stop that of the last attempt. The last attempt
does not outlast the wait. A `reconfigure` does not throw once it has cleared the marker. -/
def Clean : BusEvent → Prop
  | .acquire .start => s.holder = .free → s.runner = none → s.busLost = false
  | .leave (.busFault w) =>
      (s.runner.any fun r => leaves r (.busFault w)) = true → s.holder.bringsUp = false
  | .leave .requested =>
      (s.runner.any fun r => leaves r .requested) = true → s.holder.lastAttempt = false
  | .advance .expires =>
      s.holder.lastAttempt = true → s.live = true → s.isRunning = true ∨ s.degraded = true
  | .advance .throws => s.holder.reconfigures = false
  | .advance (.refuses text) => s.holder.spawnsReconfigured = true → text = ""
  | _ => True

instance : Decidable s.MarkerSound := inferInstanceAs (Decidable (_ → _))

instance (e : BusEvent) : Decidable (s.ReturnSound e) := inferInstanceAs (Decidable (_ → _))

instance : (e : BusEvent) → Decidable (s.Clean e)
  | .acquire .start => inferInstanceAs (Decidable (_ → _))
  | .acquire .stop | .acquire .reconfigure | .acquire .recover => isTrue trivial
  | .leave (.busFault _) | .leave .requested => inferInstanceAs (Decidable (_ → _))
  | .leave (.bringupAborted _) | .leave .rtSetupFailed => isTrue trivial
  | .advance .expires => inferInstanceAs (Decidable (_ → _))
  | .advance .throws => inferInstanceAs (Decidable (_ = _))
  | .advance (.refuses _) => inferInstanceAs (Decidable (_ → _))
  | .advance .ok | .operational | .mark => isTrue trivial

/-- What holds in every state under the condition, whoever holds the lock. -/
structure BusInv : Prop where
  faulted : s.diedOfBusFault = true → s.busLost = true
  live : s.live = true → s.busLost = false
  rebuild : s.rebuildFailed = true → s.busLost = true
  degraded : ∀ r, s.phase = some (.exited r) → r.degrades = true → s.degraded = true
  exited : s.rtExited = true → s.live = false

/-- In the attempt `n` the RT thread leaves its loop for these reasons only. -/
def OutOk (n : Nat) : Prop := ∀ r, s.outReason = some r →
  r.isBusFault = false ∧ (maxBringupAttempts ≤ n → r ≠ .requested)

/-- What the next operation of the holder can rely on under the condition. -/
def HolderOk : Holder → Prop
  | .clear _ => s.phase = none
  | .build _ | .spawn _ _ | .rebuild _ _ => s.phase = none ∧ s.busLost = false
  | .poll _ n => s.phase ≠ none ∧ s.busLost = false ∧ s.degradedReason = "" ∧ s.OutOk n
  | .failed call n => s.busLost = false ∧ s.OutOk n ∧
      (s.degradedReason ≠ "" → s.phase = none ∧ call ≠ .reconfigure) ∧
      (maxBringupAttempts ≤ n → s.degraded = true ∨ (s.phase ≠ none ∧ s.live = false))
  | .retry _ _ => s.busLost = false ∧ s.OutOk 0
  | .threw call => s.phase = none ∧ call ≠ .reconfigure
  | _ => True

/-- The invariant of the runs under the condition. -/
def Sound : Prop := s.BusInv ∧ s.HolderOk s.holder

section
variable {s} {s' : BusState}

/-! ### The Runner -/

theorem phase_some {r : RtRunner} (h : s.runner = some r) : s.phase = some r.phase := by
  rw [phase, h, Option.map_some]

theorem live_congr (h : s'.phase = s.phase) : s'.live = s.live := by
  unfold live
  rw [h]

theorem outReason_congr (h : s'.phase = s.phase) : s'.outReason = s.outReason := by
  unfold outReason
  rw [h]

theorem diedOfBusFault_congr (h : s'.phase = s.phase) : s'.diedOfBusFault = s.diedOfBusFault := by
  unfold diedOfBusFault
  rw [h]

theorem live_none (h : s.phase = none) : s.live = false := by simp [live, h]

/-- A thread that is there and not live has left its loop for some reason. -/
theorem out_of_not_live (h : s.phase ≠ none) (hlive : s.live = false) :
    ∃ r, s.phase = some (.stopping r) ∨ s.phase = some (.exited r) := by
  cases hphase : s.phase with
  | none => exact absurd hphase h
  | some p =>
      cases p with
      | bringingUp => simp [live, hphase] at hlive
      | running => simp [live, hphase] at hlive
      | stopping r => exact ⟨r, .inl rfl⟩
      | exited r => exact ⟨r, .inr rfl⟩

/-- Without a Runner only a failed rebuild asks for the marker. -/
theorem busInv_none (h : s.phase = none) (hrebuild : s.rebuildFailed = true → s.busLost = true) :
    s.BusInv where
  faulted := fun hdied => by simp [diedOfBusFault, h] at hdied
  live := fun hlive => by simp [live_none h] at hlive
  rebuild := hrebuild
  degraded := fun r hr => by simp [h] at hr
  exited := fun _ => live_none h

theorem outOk_none (h : s.phase = none) (n : Nat) : s.OutOk n := by
  intro r hr
  simp [outReason, h] at hr

/-- The invariant of the memory does not look at the holder, nor at the stop flag. -/
theorem BusInv.congr (h : s.BusInv) (hphase : s'.phase = s.phase) (hlost : s'.busLost = s.busLost)
    (hrebuild : s'.rebuildFailed = s.rebuildFailed) (hdegraded : s'.degraded = s.degraded)
    (hexited : s'.rtExited = s.rtExited) : s'.BusInv where
  faulted := by rw [diedOfBusFault_congr hphase, hlost]; exact h.faulted
  live := by rw [live_congr hphase, hlost]; exact h.live
  rebuild := by rw [hrebuild, hlost]; exact h.rebuild
  degraded := by rw [hphase, hdegraded]; exact h.degraded
  exited := by rw [live_congr hphase, hexited]; exact h.exited

theorem HolderOk.congr {x : Holder} (h : s.HolderOk x) (hphase : s'.phase = s.phase)
    (hlost : s'.busLost = s.busLost) (hdegraded : s'.degraded = s.degraded)
    (hreason : s'.degradedReason = s.degradedReason) : s'.HolderOk x := by
  have hout := outReason_congr hphase
  have hlive := live_congr hphase
  unfold HolderOk OutOk at h ⊢
  rw [hphase, hlost, hdegraded, hreason, hout, hlive]
  exact h

/-- A step that only moves the holder. -/
theorem sound_atHolder (h : s.BusInv) (x : Holder) (hx : s.HolderOk x) : (s.atHolder x).Sound :=
  ⟨h.congr rfl rfl rfl rfl rfl, hx.congr rfl rfl rfl rfl⟩

/-- Dropping the Runner waits, with its stop flag raised, or goes on without a Runner. -/
theorem drop_cases (s : BusState) (next : BusState → BusState) :
    s.drop next = next { s with runner := none } ∨
      ∃ r, s.runner = some r ∧
        s.drop next = { s with runner := some { r with stopFlag := true } } := by
  unfold drop
  cases hr : s.runner with
  | none =>
      left
      show next s = next { s with runner := none }
      rw [← hr]
  | some r =>
      cases hphase : r.phase with
      | exited _ => exact .inl (by simp [hphase])
      | _ => exact .inr ⟨r, rfl, by simp [hphase]⟩

/-- A step that drops the Runner keeps the invariant, if what follows does. -/
theorem sound_drop {next : BusState → BusState} (h : s.Sound)
    (hnext : (next { s with runner := none }).Sound) : (s.drop next).Sound := by
  rcases drop_cases s next with heq | ⟨r, hr, heq⟩
  · rw [heq]
    exact hnext
  · rw [heq]
    have hphase := phase_some hr
    exact ⟨h.1.congr hphase.symm rfl rfl rfl rfl, h.2.congr hphase.symm rfl rfl rfl⟩

/-! ### The holder -/

theorem sound_acquire (h : s.Sound) {call : LifecycleCall} (hfree : s.holder = .free)
    (hclean : s.Clean (.acquire call)) : (s.acquire call).Sound := by
  cases call with
  | start =>
      simp only [acquire]
      split_ifs with hnone
      · have hphase : s.phase = none := by rw [phase, hnone, Option.map_none]
        refine ⟨busInv_none hphase ?_, hphase, hclean hfree hnone⟩
        intro hfailed
        cases hfailed
      · exact h
  | stop => exact sound_atHolder h.1 _ trivial
  | reconfigure => exact sound_atHolder h.1 _ trivial
  | recover => exact sound_atHolder h.1 _ trivial

/-- An attempt starts: it throws, the Runner refuses, or a fresh run is polled. -/
theorem sound_spawnStep (h : s.Sound) {call : LifecycleCall} {n : Nat} {answer : Answer}
    (hh : s.holder = .spawn call n) (hclean : s.Clean (.advance answer)) :
    (s.spawnStep call n answer).Sound := by
  have hok := h.2
  rw [hh] at hok
  obtain ⟨hphase, hlost⟩ := hok
  -- A fresh run is live, and the marker is clear.
  have hfresh : (({ s.resetRun with runner := some {} } : BusState).atHolder
      (.poll call n)).Sound := by
    refine sound_atHolder (s := { s.resetRun with runner := some {} })
      ⟨?_, ?_, h.1.rebuild, ?_, ?_⟩ (.poll call n) ⟨?_, hlost, rfl, ?_⟩
    · intro hdied
      cases hdied
    · intro _
      exact hlost
    · intro r hr
      cases hr
    · intro hexited
      cases hexited
    · intro hnone
      cases hnone
    · intro r hr
      cases hr
  cases answer with
  | throws =>
      refine sound_atHolder h.1 (.threw call) ⟨hphase, ?_⟩
      rintro rfl
      simp [Clean, hh, Holder.reconfigures] at hclean
  | refuses text =>
      refine sound_atHolder
        (s := { s.resetRun with degraded := true, degradedReason := text, runner := none })
        (busInv_none rfl h.1.rebuild) (.failed call n)
        ⟨hlost, outOk_none rfl n, ?_, fun _ => .inl rfl⟩
      intro hreason
      refine ⟨rfl, ?_⟩
      rintro rfl
      exact hreason (hclean (by rw [hh]; rfl))
  | ok => exact hfresh
  | expires => exact hfresh

/-- A round of the poll: the run is Running, or the attempt has failed, or nothing. -/
theorem sound_pollStep (h : s.Sound) {call : LifecycleCall} {n : Nat} {answer : Answer}
    (hh : s.holder = .poll call n) (hclean : s.Clean (.advance answer)) :
    (s.pollStep call n answer).Sound := by
  have hok := h.2
  rw [hh] at hok
  obtain ⟨hphase, hlost, hreason, hout⟩ := hok
  unfold pollStep
  split_ifs with hrun hexit hexpires
  · exact sound_atHolder h.1 _ trivial
  · refine sound_atHolder h.1 (.failed call n)
      ⟨hlost, hout, fun hne => absurd hreason hne, fun _ => ?_⟩
    rcases Bool.or_eq_true_iff.mp hexit with hx | hd
    · exact .inr ⟨hphase, h.1.exited hx⟩
    · exact .inl hd
  · refine sound_atHolder h.1 (.failed call n)
      ⟨hlost, hout, fun hne => absurd hreason hne, fun hlast => .inr ⟨hphase, ?_⟩⟩
    -- The last attempt does not outlast the wait with a live run.
    subst hexpires
    by_contra hlive
    have hlast' : s.holder.lastAttempt = true := by
      rw [hh]
      exact decide_eq_true hlast
    rcases hclean hlast' (by simpa using hlive) with hr | hd
    · exact hrun hr
    · exact hexit (by rw [hd, Bool.or_true])
  · exact h

/-- A failed attempt: a refusal throws, the last one returns, and the others retry. -/
theorem sound_failedStep (h : s.Sound) {call : LifecycleCall} {n : Nat}
    (hh : s.holder = .failed call n) : (s.failedStep call n).Sound := by
  have hok := h.2
  rw [hh] at hok
  obtain ⟨hlost, hout, hrefused, -⟩ := hok
  unfold failedStep
  split_ifs with hreason
  · exact sound_atHolder h.1 (.threw call) (hrefused hreason)
  · exact sound_atHolder h.1 _ trivial
  · refine sound_atHolder h.1 (.retry call n) ⟨hlost, fun r hr => ⟨(hout r hr).1, fun h0 => ?_⟩⟩
    exact absurd h0 (by decide)

/-- Every operation of the holder keeps the invariant under the condition. -/
theorem sound_advance (h : s.Sound) {answer : Answer} (hclean : s.Clean (.advance answer)) :
    (s.advance answer).Sound := by
  have hok := h.2
  have hdown : ({ s with runner := none } : BusState).BusInv := busInv_none rfl h.1.rebuild
  unfold advance
  cases hh : s.holder with
  | free => exact h
  | recheck => exact sound_atHolder h.1 _ (by split_ifs <;> trivial)
  | teardown call =>
      refine sound_drop h (sound_atHolder hdown _ ?_)
      split_ifs
      · trivial
      · rfl
  | clear call =>
      rw [hh] at hok
      exact sound_atHolder (s := { s with busLost := false, rebuildFailed := false })
        (busInv_none hok fun hfailed => by cases hfailed) (.build call) ⟨hok, rfl⟩
  | build call =>
      rw [hh] at hok
      dsimp only
      split_ifs with hthrows
      · refine sound_atHolder h.1 (.threw call) ⟨hok.1, ?_⟩
        rintro rfl
        simp [Clean, hh, hthrows, Holder.reconfigures] at hclean
      · exact sound_atHolder h.1 (.spawn call 1) hok
  | spawn call n => exact sound_spawnStep h hh hclean
  | poll call n => exact sound_pollStep h hh hclean
  | failed call n => exact sound_failedStep h hh
  | retry call n =>
      rw [hh] at hok
      exact sound_drop h (sound_atHolder hdown (.rebuild call n) ⟨rfl, hok.1⟩)
  | rebuild call n =>
      rw [hh] at hok
      dsimp only
      split_ifs with hthrows
      · refine sound_atHolder h.1 (.threw call) ⟨hok.1, ?_⟩
        rintro rfl
        simp [Clean, hh, hthrows, Holder.reconfigures] at hclean
      · exact sound_atHolder h.1 (.spawn call (n + 1)) hok
  | returned call =>
      cases call with
      | recover => exact sound_atHolder h.1 _ (by split_ifs <;> trivial)
      | _ => exact sound_atHolder h.1 _ trivial
  | threw call =>
      rw [hh] at hok
      cases call with
      | reconfigure => exact absurd rfl hok.2
      | _ => exact sound_atHolder h.1 _ trivial
  | giveUp =>
      exact sound_drop h (sound_atHolder (s := { s with
        runner := none, busLost := true, rebuildFailed := true })
        (busInv_none rfl fun _ => rfl) .free trivial)

/-! ### The RT thread -/

/-- What the RT thread may change under the holder's feet. -/
theorem HolderOk.thread {x : Holder} (h : s.HolderOk x) (hphase : s.phase ≠ none)
    (hphase' : s'.phase ≠ none) (hlost : x.bringsUp = true → s'.busLost = s.busLost)
    (hreason : s'.degradedReason = s.degradedReason)
    (hdegraded : s.degraded = true → s'.degraded = true)
    (hlive : s.live = false → s'.live = false)
    (hout : x.bringsUp = true → s.OutOk x.attempt → s'.OutOk x.attempt) : s'.HolderOk x := by
  cases x with
  | clear => exact absurd h hphase
  | build => exact absurd h.1 hphase
  | spawn => exact absurd h.1 hphase
  | rebuild => exact absurd h.1 hphase
  | threw => exact absurd h.1 hphase
  | poll call n =>
      obtain ⟨-, hclear, hempty, hok⟩ := h
      exact ⟨hphase', (hlost rfl).trans hclear, hreason.trans hempty, hout rfl hok⟩
  | failed call n =>
      obtain ⟨hclear, hok, hrefused, hlast⟩ := h
      refine ⟨(hlost rfl).trans hclear, hout rfl hok, fun hne => ?_, fun hn => ?_⟩
      · exact absurd (hrefused (hreason ▸ hne)).1 hphase
      · exact (hlast hn).imp hdegraded fun hleft => ⟨hphase', hlive hleft.2⟩
  | retry call n => exact ⟨(hlost rfl).trans h.1, hout rfl h.2⟩
  | free => trivial
  | recheck => trivial
  | teardown => trivial
  | returned => trivial
  | giveUp => trivial

theorem HolderOk.outOk {x : Holder} (h : s.HolderOk x) (hup : x.bringsUp = true) :
    s.OutOk x.attempt := by
  cases x with
  | poll => exact h.2.2.2
  | failed => exact h.2.1
  | retry => exact h.2
  | _ => cases hup

/-- The RT thread reaches OP. -/
theorem sound_operational (h : s.Sound) {r : RtRunner} (hr : s.runner = some r)
    (hup : r.phase = .bringingUp) : (s.atPhase r .running).Sound := by
  have hphase : s.phase = some .bringingUp := (phase_some hr).trans (congrArg some hup)
  have hlive : s.live = true := by simp [live, hphase]
  refine ⟨⟨?_, fun _ => h.1.live hlive, h.1.rebuild, ?_, ?_⟩, h.2.thread ?_ ?_ ?_ rfl id ?_ ?_⟩
  · intro hdied
    cases hdied
  · intro reason hreason
    cases hreason
  · intro hexited
    exact absurd hlive (by simp [h.1.exited hexited])
  · simp [hphase]
  · intro hnone
    cases hnone
  · intro _
    rfl
  · intro hdead
    exact absurd hlive (by simp [hdead])
  · intro _ _ reason hreason
    cases hreason

/-- The RT thread leaves its loop. Under the condition it has no reason to that `bring_up` would
take for another one. -/
theorem sound_leave (h : s.Sound) {r : RtRunner} {reason : StopReason} (hr : s.runner = some r)
    (hleaves : leaves r reason = true) (hclean : s.Clean (.leave reason)) :
    ({ s.atPhase r (.stopping reason) with rtExited := true } : BusState).Sound := by
  have hphase := phase_some hr
  have hany : (s.runner.any fun r => leaves r reason) = true := by rw [hr]; exact hleaves
  refine ⟨⟨?_, ?_, h.1.rebuild, ?_, fun _ => rfl⟩, h.2.thread ?_ ?_ ?_ rfl id ?_ ?_⟩
  · intro hdied
    cases hdied
  · intro hlive
    cases hlive
  · intro reason' hreason
    cases hreason
  · simp [hphase]
  · intro hnone
    cases hnone
  · intro _
    rfl
  · intro _
    rfl
  · intro hup _ reason' hreason
    obtain rfl : reason = reason' := Option.some.inj hreason
    cases reason with
    | busFault w => exact absurd hup (by simp [hclean hany])
    | requested =>
        refine ⟨rfl, fun hlast => ?_⟩
        exact absurd (decide_eq_true hlast) (by simpa [Holder.lastAttempt] using hclean hany)
    | bringupAborted _ => exact ⟨rfl, fun _ h => by cases h⟩
    | rtSetupFailed => exact ⟨rfl, fun _ h => by cases h⟩

/-- `on_stop` makes the store of its reason and returns. -/
theorem sound_mark (h : s.Sound) {r : RtRunner} {reason : StopReason} (hr : s.runner = some r)
    (hstop : r.phase = .stopping reason) :
    ((s.stored reason).atPhase r (.exited reason)).Sound := by
  have hphase : s.phase = some (.stopping reason) := (phase_some hr).trans (congrArg some hstop)
  have hout : s.outReason = some reason := by rw [outReason, hphase]
  have hsame (n : Nat) : s.OutOk n → ((s.stored reason).atPhase r (.exited reason)).OutOk n := by
    intro hok reason' hreason
    exact hok reason' (hout.trans hreason)
  have hthere : s.phase ≠ none := by simp [hphase]
  cases reason with
  | busFault w =>
      -- No attempt that is still polled dies of a bus fault.
      have hup : s.holder.bringsUp = true → False := by
        intro hup
        have hnot := (h.2.outOk hup _ hout).1
        cases hnot
      refine ⟨⟨fun _ => rfl, ?_, fun _ => rfl, ?_, fun _ => rfl⟩,
        h.2.thread hthere ?_ ?_ rfl id (fun _ => rfl) fun _ => hsame _⟩
      · intro hlive
        cases hlive
      · intro reason hreason hdegrades
        cases hreason
        cases hdegrades
      · intro hnone
        cases hnone
      · intro hbrings
        exact absurd hbrings hup
  | bringupAborted code =>
      refine ⟨⟨?_, ?_, h.1.rebuild, fun _ _ _ => rfl, fun _ => rfl⟩,
        h.2.thread hthere ?_ (fun _ => rfl) rfl (fun _ => rfl) (fun _ => rfl) fun _ => hsame _⟩
      · intro hdied
        cases hdied
      · intro hlive
        cases hlive
      · intro hnone
        cases hnone
  | rtSetupFailed =>
      refine ⟨⟨?_, ?_, h.1.rebuild, fun _ _ _ => rfl, fun _ => rfl⟩,
        h.2.thread hthere ?_ (fun _ => rfl) rfl (fun _ => rfl) (fun _ => rfl) fun _ => hsame _⟩
      · intro hdied
        cases hdied
      · intro hlive
        cases hlive
      · intro hnone
        cases hnone
  | requested =>
      refine ⟨⟨?_, ?_, h.1.rebuild, ?_, fun _ => rfl⟩,
        h.2.thread hthere ?_ (fun _ => rfl) rfl id (fun _ => rfl) fun _ => hsame _⟩
      · intro hdied
        cases hdied
      · intro hlive
        cases hlive
      · intro reason hreason hdegrades
        cases hreason
        cases hdegrades
      · intro hnone
        cases hnone

/-- Every step keeps the invariant under the condition. -/
theorem sound_step (h : s.Sound) {e : BusEvent} (hclean : s.Clean e) : (s.step e).Sound := by
  cases e with
  | acquire call =>
      simp only [step]
      split_ifs with hfree
      · exact sound_acquire h hfree hclean
      · exact h
  | advance answer => exact sound_advance h hclean
  | operational =>
      simp only [step]
      split
      · next r hr =>
          split_ifs with hup
          · exact sound_operational h hr hup
          · exact h
      · exact h
  | leave reason =>
      simp only [step]
      split
      · next r hr =>
          split_ifs with hleaves
          · exact sound_leave h hr hleaves hclean
          · exact h
      · exact h
  | mark =>
      simp only [step]
      split
      · next r hr =>
          split
          · next reason hstop => exact sound_mark h hr hstop
          · exact h
      · exact h

/-- The invariant gives the marker's meaning. -/
theorem Sound.markerSound (h : s.Sound) : s.MarkerSound := by
  intro _ _
  refine ⟨fun hlost => hlost.elim h.1.faulted h.1.rebuild, fun hlost => ?_⟩
  by_contra hlive
  rw [h.1.live (by simpa using hlive)] at hlost
  cases hlost

/-- Dropping the Runner does not make `bring_up` return. -/
theorem drop_hasReturned {next : BusState → BusState} (hbefore : s.holder.hasReturned = false)
    (hnext : (next { s with runner := none }).holder.hasReturned = false) :
    (s.drop next).holder.hasReturned = false := by
  rcases drop_cases s next with heq | ⟨r, -, heq⟩
  · rw [heq]
    exact hnext
  · rw [heq]
    exact hbefore

/-- Only a poll and a failed attempt make `bring_up` return. -/
theorem advance_hasReturned {answer : Answer} (hbefore : s.holder.hasReturned = false)
    (hpoll : ∀ call n, s.holder ≠ .poll call n) (hfailed : ∀ call n, s.holder ≠ .failed call n) :
    (s.advance answer).holder.hasReturned = false := by
  unfold advance
  cases hh : s.holder with
  | free => rw [hh]; rfl
  | recheck => simp only [atHolder]; split_ifs <;> rfl
  | teardown call =>
      refine drop_hasReturned hbefore ?_
      simp only [atHolder]
      split_ifs <;> rfl
  | clear call => rfl
  | build call => simp only [atHolder]; split_ifs <;> rfl
  | spawn call n => cases answer <;> rfl
  | poll call n => exact absurd hh (hpoll call n)
  | failed call n => exact absurd hh (hfailed call n)
  | retry call n => exact drop_hasReturned hbefore rfl
  | rebuild call n => simp only [atHolder]; split_ifs <;> rfl
  | returned call => rw [hh] at hbefore; cases hbefore
  | threw call => cases call <;> rfl
  | giveUp => exact drop_hasReturned hbefore rfl

/-- The RT thread does not move the holder. -/
theorem thread_holder (s : BusState) (reason : StopReason) :
    (s.step .operational).holder = s.holder ∧ (s.step (.leave reason)).holder = s.holder ∧
      (s.step .mark).holder = s.holder := by
  refine ⟨?_, ?_, ?_⟩
  · simp only [step]
    split
    · split_ifs <;> rfl
    · rfl
  · simp only [step]
    split
    · split_ifs <;> rfl
    · rfl
  · simp only [step]
    split
    · split
      · next reason _ => cases reason <;> rfl
      · rfl
    · rfl

/-- `bring_up` returns on a Running run, and after its last attempt. -/
theorem step_returned {e : BusEvent} (hbefore : s.holder.hasReturned = false)
    (hafter : (s.step e).holder.hasReturned = true) :
    ((s.step e).phase = s.phase ∧ (s.step e).degraded = s.degraded) ∧
      (s.isRunning = true ∨ ∃ call n, s.holder = .failed call n ∧ maxBringupAttempts ≤ n) := by
  cases e with
  | advance answer =>
      simp only [step] at hafter ⊢
      cases hh : s.holder with
      | poll call n =>
          simp only [advance, hh, pollStep] at hafter ⊢
          split_ifs at hafter ⊢ with hrun
          · exact ⟨⟨rfl, rfl⟩, .inl hrun⟩
          · cases hafter
          · cases hafter
          · rw [hh] at hafter
            cases hafter
      | failed call n =>
          simp only [advance, hh, failedStep] at hafter ⊢
          split_ifs at hafter ⊢ with hreason hn
          · cases hafter
          · exact ⟨⟨rfl, rfl⟩, .inr ⟨call, n, rfl, hn⟩⟩
          · cases hafter
      | _ =>
          rw [advance_hasReturned hbefore (by simp [hh]) (by simp [hh])] at hafter
          cases hafter
  | acquire call =>
      simp only [step] at hafter
      split_ifs at hafter
      · cases call with
        | start =>
            simp only [acquire] at hafter
            split_ifs at hafter
            · cases hafter
            · rw [hbefore] at hafter
              cases hafter
        | _ => cases hafter
      · rw [hbefore] at hafter
        cases hafter
  | operational =>
      rw [(s.thread_holder .requested).1, hbefore] at hafter
      cases hafter
  | leave reason =>
      rw [(s.thread_holder reason).2.1, hbefore] at hafter
      cases hafter
  | mark =>
      rw [(s.thread_holder .requested).2.2, hbefore] at hafter
      cases hafter

/-- Under the condition `bring_up` returns with the run Running or Degraded. -/
theorem Sound.returnSound (h : s.Sound) (e : BusEvent) : s.ReturnSound e := by
  intro hbefore hafter hinside
  obtain ⟨⟨hphase, hdegraded⟩, hrun | ⟨call, n, hh, hn⟩⟩ := step_returned hbefore hafter
  · left
    unfold isRunning at hrun ⊢
    rwa [hphase]
  · right
    rw [hdegraded]
    have hok := h.2
    rw [hh] at hok
    obtain ⟨-, hout, -, hlast⟩ := hok
    rcases hlast hn with hd | ⟨hthere, hdead⟩
    · exact hd
    · obtain ⟨r, hstopping | hexited⟩ := out_of_not_live hthere hdead
      · rw [insideOnStop, hphase, hstopping] at hinside
        cases hinside
      · -- Neither a bus fault nor a requested stop ends the last attempt.
        obtain ⟨hfault, hrequested⟩ := hout r (by rw [outReason, hexited])
        refine h.1.degraded r hexited ?_
        cases r with
        | busFault => cases hfault
        | requested => exact absurd rfl (hrequested hn)
        | bringupAborted => rfl
        | rtSetupFailed => rfl

end

end BusState

/-- The RT thread reaches OP, dies of a bus fault there, and `bring_up` sees the exit. -/
def deadAttempt : List BusEvent :=
  [.advance .ok, .operational, .leave (.busFault 0), .mark, .advance .ok]

/-- A failed attempt is dropped, and its Master rebuilt. -/
def retried : List BusEvent := [.advance .ok, .advance .ok, .advance .ok]

/-- The attempt is seen Running, and `bring_up` returns. -/
def liveAttempt : List BusEvent := [.advance .ok, .operational, .advance .ok, .advance .ok]

/-- A start, a bus fault, a motion call whose rebuild fails at the interface, and one that brings
the bus back in its second attempt. -/
def lostAndRecovered : List (List BusEvent) :=
  [[.acquire .start, .advance .ok], liveAttempt, [.leave (.busFault 0), .mark],
    [.acquire .recover, .advance .ok, .advance .ok, .advance .ok, .advance .throws, .advance .ok,
      .advance .ok],
    [.acquire .recover, .advance .ok, .advance .ok, .advance .ok, .advance .ok],
    [.advance .ok, .leave (.bringupAborted none), .mark, .advance .ok], retried, liveAttempt]

end ViamEthercat.Servo
