import ViamEthercat.Servo.AbsoluteEncoder
import ViamEthercat.Proofs.BusLost

/-!
# `ViamEthercat.Proofs.EncoderCache`: the cached mode and the losses of the bus

Only a call that finds the bus disconnected forgets the cached mode. A motion call brings the bus
back by itself, so a recovery can come before any such call, and the next call then trusts a mode
that was read before the loss.

* `encoder_fresh`: in every run where no step leaves a stale mode to a call (`KeepsStale`), each
  `valid` answer rests on a mode that was read after the last loss.
* `encoder_recovered`: without the condition it fails. The bus is lost and recovered between two
  calls, and the second one answers with the mode that the first one read.

The invariant `CacheInv` says of each call how far it relies on the mode. Between a loss and the
next run nothing is asked of the cache, since `rt_exited_` stops every call that comes by.
-/

set_option autoImplicit false

namespace ViamEthercat.Servo

open Lib

/-- A `valid` answer rests on a mode that was read after the last loss. -/
def EncoderAnswer.Fresh : EncoderAnswer → Prop
  | .homeRun => True
  | .encoder reply readAt losses => reply.valid = true → readAt = some losses

instance : DecidablePred EncoderAnswer.Fresh
  | .homeRun => isTrue trivial
  | .encoder _ _ _ => inferInstanceAs (Decidable (_ → _))

/-- `status` reports `absolute_encoder` for a `valid` answer alone. -/
theorem EncoderAnswer.Fresh.homedBy {a : EncoderAnswer} (h : a.Fresh)
    (hby : a.homedBy = (true, "absolute_encoder")) :
    ∃ reply n, a = .encoder reply (some n) n := by
  cases a with
  | homeRun => exact absurd (congrArg Prod.snd hby) (by decide)
  | encoder reply readAt losses =>
      have hvalid : reply.valid = true := congrArg Prod.fst hby
      exact ⟨reply, losses, by rw [h hvalid]⟩

/-- Without the configured mode, or when it could not be read, the answer is not `valid`. -/
theorem AbsoluteEncoder.verdict_valid {enc : AbsoluteEncoder} {reason : Option String}
    {mode : Double} {answer : DriveAnswer} (h : (enc.verdict reason mode answer).valid = true) :
    reason = none ∧ enc.accepts mode = true := by
  simp only [verdict, Bool.and_eq_true, Option.isNone_iff_eq_none] at h
  exact h.1

namespace EncoderSystem

variable (s : EncoderSystem)

/-- A call can answer `valid` with the mode only if it was read after the last loss. -/
def Fresh (mode : Double) (readAt : Option Nat) : Prop :=
  s.config.accepts mode = true → readAt = some s.losses

/-- A call that is past its look at the bus can still answer `valid` without another read. -/
def relies : EncoderPc → Bool
  | .loadMode => s.known && s.config.accepts s.mode
  | .loadKnown mode _ => s.known && s.config.accepts mode
  | .storeMode mode _ | .verdict none mode _ => s.config.accepts mode
  | .storeKnown mode _ => s.config.accepts mode || s.config.accepts s.mode
  | _ => false

/-- The next operation is the store of `abs_enc_mode_known_`. -/
def knows : EncoderPc → Bool
  | .storeKnown _ _ => true
  | _ => false

/-- The step leaves a stale mode to a call. A run is spawned before a call has forgotten the mode
of before the loss, or the bus is lost under a call that has seen it connected, or the mode gets
known to a call that holds an older one, which may be the initial value of `abs_enc_mode_`. -/
def KeepsStale : EncoderEvent → Prop
  | .bus e =>
      (s.spawns e = true ∧ s.known = true ∧ ¬ s.Fresh s.mode s.readAt) ∨
        (s.loses e = true ∧ ∃ i, s.relies (s.calls i).pc = true)
  | .advance i _ =>
      knows (s.calls i).pc = true ∧
        ∃ j mode readAt, (s.calls j).pc = .loadKnown mode readAt ∧ ¬ s.Fresh mode readAt
  | _ => False

/-- What a call relies on before its next operation. -/
def CallOk : EncoderPc → Prop
  | .loadMode => s.known = true → s.Fresh s.mode s.readAt
  | .loadKnown mode readAt => s.known = true → s.Fresh mode readAt
  | .storeMode mode readAt | .verdict none mode readAt => s.Fresh mode readAt
  | .storeKnown mode readAt => s.Fresh mode readAt ∧ s.Fresh s.mode s.readAt
  | _ => True

/-- The invariant of the runs under the condition. -/
structure CacheInv : Prop where
  exited : s.lost = true → s.bus.rtExited = true
  cached : s.known = true → s.lost = false → s.Fresh s.mode s.readAt
  calls : ∀ i, s.CallOk (s.calls i).pc
  answers : ∀ i, ∀ a ∈ (s.calls i).answers, a.Fresh

section
variable {s}

theorem cacheInv_new (config : AbsoluteEncoder) : (new config).CacheInv where
  exited h := by cases h
  cached h := by cases h
  calls _ := trivial
  answers _ a ha := by cases ha

/-- A step keeps what a call relies on, when it keeps what is fresh and does not make the mode
known. -/
theorem CallOk.mono {s' : EncoderSystem} {pc : EncoderPc} (h : s.CallOk pc)
    (hfresh : ∀ {mode readAt}, s.Fresh mode readAt → s'.Fresh mode readAt)
    (hknown : s'.known = true → s.known = true)
    (hcache : s.Fresh s.mode s.readAt → s'.Fresh s'.mode s'.readAt) : s'.CallOk pc := by
  cases pc with
  | loadMode => exact fun hk => hcache (h (hknown hk))
  | loadKnown mode readAt => exact fun hk => hfresh (h (hknown hk))
  | storeMode mode readAt => exact hfresh h
  | storeKnown mode readAt => exact ⟨hfresh h.1, hcache h.2⟩
  | verdict reason mode readAt =>
      cases reason with
      | none => exact hfresh h
      | some _ => trivial
  | idle => trivial
  | loadHomed => trivial
  | loadStopping => trivial
  | loadExited => trivial
  | storeUnknown => trivial
  | sdoRead mode readAt => trivial

/-! ### The lifecycle -/

/-- Only a spawned run clears `rt_exited_`. -/
theorem rtExited_busStep {e : BusEvent} (hspawns : s.spawns e = false)
    (h : s.bus.rtExited = true) : (s.bus.step e).rtExited = true := by
  have hdrop {next : BusState → BusState} (hnext : ∀ b, b.rtExited = true →
      (next b).rtExited = true) : (s.bus.drop next).rtExited = true := by
    rcases s.bus.drop_cases next with heq | ⟨r, -, heq⟩
    · rw [heq]
      exact hnext _ h
    · rw [heq]
      exact h
  cases e with
  | acquire call =>
      simp only [BusState.step]
      split_ifs
      · cases call <;> simp only [BusState.acquire] <;> (try split_ifs) <;> exact h
      · exact h
  | advance answer =>
      simp only [BusState.step, BusState.advance]
      cases hholder : s.bus.holder with
      | spawn call n =>
          cases answer with
          | throws => exact h
          | ok => simp [spawns, hholder] at hspawns
          | refuses text => simp [spawns, hholder] at hspawns
          | expires => simp [spawns, hholder] at hspawns
      | teardown call => exact hdrop fun _ hb => hb
      | retry call n => exact hdrop fun _ hb => hb
      | giveUp => exact hdrop fun _ hb => hb
      | poll call n =>
          simp only [BusState.pollStep]
          split_ifs <;> exact h
      | failed call n =>
          simp only [BusState.failedStep]
          split_ifs <;> exact h
      | returned call => cases call <;> exact h
      | threw call => cases call <;> exact h
      | free => exact h
      | recheck => exact h
      | clear call => exact h
      | build call => exact h
      | rebuild call n => exact h
  | operational =>
      simp only [BusState.step]
      split
      · split_ifs <;> exact h
      · exact h
  | leave reason =>
      simp only [BusState.step]
      split
      · split_ifs
        · rfl
        · exact h
      · exact h
  | mark =>
      simp only [BusState.step]
      split
      · split
        · rename_i reason _
          cases reason <;> exact h
        · exact h
      · exact h

/-- A loss is an operation of the RT thread. -/
theorem loses_leave {e : BusEvent} (h : s.loses e = true) :
    s.spawns e = false ∧ (s.bus.step e).rtExited = true := by
  cases e with
  | leave reason =>
      cases reason with
      | busFault wkc =>
          simp only [loses] at h
          cases hrunner : s.bus.runner with
          | none => simp [hrunner] at h
          | some r =>
              have hleaves : BusState.leaves r (.busFault wkc) = true := by simpa [hrunner] using h
              exact ⟨rfl, by simp [BusState.step, hrunner, hleaves]⟩
      | requested => cases h
      | bringupAborted _ => cases h
      | rtSetupFailed => cases h
  | acquire call => cases h
  | advance answer => cases h
  | operational => cases h
  | mark => cases h

/-- A loss takes nothing from a call that does not rely on the mode. -/
theorem callOk_of_not_relies {s' : EncoderSystem} {pc : EncoderPc} (hconfig : s'.config = s.config)
    (hknown : s'.known = s.known) (hmode : s'.mode = s.mode) (h : s.relies pc = false) :
    s'.CallOk pc := by
  have hfresh {mode : Double} {readAt : Option Nat} (hmode : s.config.accepts mode = false) :
      s'.Fresh mode readAt := by
    intro haccepts
    rw [hconfig, hmode] at haccepts
    cases haccepts
  cases pc with
  | loadMode =>
      intro hk
      rw [hmode]
      exact hfresh (by simpa [relies, ← hknown, hk] using h)
  | loadKnown mode readAt =>
      intro hk
      exact hfresh (by simpa [relies, ← hknown, hk] using h)
  | storeMode mode readAt => exact hfresh h
  | storeKnown mode readAt =>
      simp only [relies, Bool.or_eq_false_iff] at h
      exact ⟨hfresh h.1, by rw [hmode]; exact hfresh h.2⟩
  | verdict reason mode readAt =>
      cases reason with
      | none => exact hfresh h
      | some _ => trivial
  | idle => trivial
  | loadHomed => trivial
  | loadStopping => trivial
  | loadExited => trivial
  | storeUnknown => trivial
  | sdoRead mode readAt => trivial

theorem cacheInv_busStep {e : BusEvent} (h : s.CacheInv) (hkeeps : ¬ s.KeepsStale (.bus e)) :
    (s.busStep e).CacheInv := by
  simp only [KeepsStale, not_or, not_and, not_exists, not_not, Bool.not_eq_true] at hkeeps
  obtain ⟨hspawned, hlost⟩ := hkeeps
  cases hloses : s.loses e with
  | true =>
      obtain ⟨hspawns, hexited⟩ := loses_leave hloses
      exact
        { exited := fun _ => hexited
          cached := fun _ hl => by simp [busStep, hspawns, hloses] at hl
          calls := fun i => callOk_of_not_relies (s := s) rfl rfl rfl (hlost hloses i)
          answers := h.answers }
  | false =>
      have hlosses : (s.busStep e).losses = s.losses := by simp [busStep, hloses]
      have hfresh {mode : Double} {readAt : Option Nat} (hf : s.Fresh mode readAt) :
          (s.busStep e).Fresh mode readAt := by
        unfold Fresh
        rw [hlosses]
        exact hf
      refine ⟨fun hl => ?_, fun hk hl => ?_,
        fun i => (h.calls i).mono hfresh id hfresh, h.answers⟩
      · simp only [busStep, hloses, Bool.or_false, Bool.and_eq_true, Bool.not_eq_true'] at hl
        exact rtExited_busStep hl.1 (h.exited hl.2)
      · -- A new run starts with a fresh mode or none; otherwise nothing has changed.
        cases hspawns : s.spawns e with
        | true => exact hfresh (hspawned hspawns hk)
        | false =>
            have hl : s.lost = false := by simpa [busStep, hloses, hspawns] using hl
            exact hfresh (h.cached hk hl)

/-! ### The calls -/

theorem pc_update {calls : Nat → EncoderCall} {c : EncoderCall} {P : EncoderPc → Prop} {i : Nat}
    (hcalls : ∀ j, P (calls j).pc) (hc : P c.pc) (j : Nat) :
    P (Function.update calls i c j).pc := by
  by_cases hj : j = i
  · subst hj
    rw [Function.update_self]
    exact hc
  · rw [Function.update_of_ne hj]
    exact hcalls j

theorem answers_update {calls : Nat → EncoderCall} {c : EncoderCall} {i : Nat}
    (hcalls : ∀ j, ∀ a ∈ (calls j).answers, a.Fresh) (hc : ∀ a ∈ c.answers, a.Fresh) (j : Nat) :
    ∀ a ∈ (Function.update calls i c j).answers, a.Fresh := by
  by_cases hj : j = i
  · subst hj
    rw [Function.update_self]
    exact hc
  · rw [Function.update_of_ne hj]
    exact hcalls j

theorem cacheInv_call {i : Nat} {c : EncoderCall} (h : s.CacheInv) (hpc : s.CallOk c.pc)
    (hanswers : ∀ a ∈ c.answers, a.Fresh) :
    ({ s with calls := Function.update s.calls i c } : EncoderSystem).CacheInv where
  exited := h.exited
  cached := h.cached
  calls := pc_update (P := s.CallOk) h.calls hpc
  answers := answers_update h.answers hanswers

theorem cacheInv_atPc {i : Nat} {pc : EncoderPc} (h : s.CacheInv) (hpc : s.CallOk pc) :
    (s.atPc i pc).CacheInv :=
  cacheInv_call h hpc (h.answers i)

theorem cacheInv_answered {i : Nat} {a : EncoderAnswer} (h : s.CacheInv) (ha : a.Fresh) :
    (s.answered i a).CacheInv :=
  cacheInv_call h trivial (List.forall_mem_cons.mpr ⟨ha, h.answers i⟩)

theorem cacheInv_begin {i : Nat} (h : s.CacheInv) : (s.begin i).CacheInv := by
  unfold begin
  split_ifs
  · exact cacheInv_answered h fun hvalid => by cases hvalid
  · exact cacheInv_atPc h trivial

/-- The mode is forgotten. -/
theorem cacheInv_forgotten (h : s.CacheInv) :
    ({ s with known := false } : EncoderSystem).CacheInv where
  exited := h.exited
  cached hk := by cases hk
  calls i := (h.calls i).mono id (fun hk => by cases hk) id
  answers := h.answers

/-- A mode that was read after the last loss goes into the cache. -/
theorem cacheInv_cached {mode : Double} {readAt : Option Nat} (h : s.CacheInv)
    (hfresh : s.Fresh mode readAt) :
    ({ s with mode := mode, readAt := readAt } : EncoderSystem).CacheInv where
  exited := h.exited
  cached _ _ := hfresh
  calls i := (h.calls i).mono id id fun _ => hfresh
  answers := h.answers

/-- The mode gets known. No call holds the one of before the loss. -/
theorem cacheInv_known (h : s.CacheInv) (hcache : s.Fresh s.mode s.readAt)
    (hheld : ∀ j mode readAt, (s.calls j).pc = .loadKnown mode readAt → s.Fresh mode readAt) :
    ({ s with known := true } : EncoderSystem).CacheInv where
  exited := h.exited
  cached _ _ := hcache
  calls i := by
    have hok := h.calls i
    show CallOk _ (s.calls i).pc
    cases hpc : (s.calls i).pc with
    | loadMode => exact fun _ => hcache
    | loadKnown mode readAt => exact fun _ => hheld i mode readAt hpc
    | storeMode mode readAt =>
        rw [hpc] at hok
        exact hok
    | storeKnown mode readAt =>
        rw [hpc] at hok
        exact hok
    | verdict reason mode readAt =>
        rw [hpc] at hok
        cases reason with
        | none => exact hok
        | some _ => trivial
    | idle => trivial
    | loadHomed => trivial
    | loadStopping => trivial
    | loadExited => trivial
    | storeUnknown => trivial
    | sdoRead mode readAt => trivial
  answers := h.answers

theorem cacheInv_sdoReadStep {i : Nat} {mode : Double} {readAt : Option Nat}
    {answer : DriveAnswer} (h : s.CacheInv) : (s.sdoReadStep i mode readAt answer).CacheInv := by
  unfold sdoReadStep
  dsimp only
  split_ifs
  · exact h
  · exact cacheInv_atPc h trivial
  · cases answer.read with
    | ok v => exact cacheInv_atPc h fun _ => rfl
    | error text => exact cacheInv_atPc h trivial

theorem cacheInv_advance {i : Nat} {answer : DriveAnswer} (h : s.CacheInv)
    (hkeeps : ¬ s.KeepsStale (.advance i answer)) : (s.advance i answer).CacheInv := by
  have hok := h.calls i
  unfold advance
  cases hpc : (s.calls i).pc with
  | idle => exact h
  | loadHomed =>
      dsimp only
      split_ifs
      · exact cacheInv_answered h trivial
      · exact cacheInv_begin h
  | loadStopping =>
      dsimp only
      split_ifs <;> exact cacheInv_atPc h trivial
  | loadExited =>
      dsimp only
      split_ifs with hexited
      · exact cacheInv_atPc h trivial
      · -- The call sees the bus connected, so nothing is lost since the run was spawned.
        refine cacheInv_atPc h fun hk => h.cached hk ?_
        cases hl : s.lost with
        | false => rfl
        | true => exact absurd (h.exited hl) hexited
  | storeUnknown => exact cacheInv_answered (cacheInv_forgotten h) fun hvalid => by cases hvalid
  | loadMode =>
      rw [hpc] at hok
      exact cacheInv_atPc h hok
  | loadKnown mode readAt =>
      rw [hpc] at hok
      dsimp only
      split_ifs with hk
      · exact cacheInv_atPc h (hok hk)
      · exact cacheInv_atPc h trivial
  | sdoRead mode readAt => exact cacheInv_sdoReadStep h
  | storeMode mode readAt =>
      rw [hpc] at hok
      exact cacheInv_atPc (cacheInv_cached h hok) ⟨hok, hok⟩
  | storeKnown mode readAt =>
      rw [hpc] at hok
      simp only [KeepsStale, hpc, knows, true_and, not_exists, not_and, not_not] at hkeeps
      exact cacheInv_atPc (cacheInv_known h hok.2 hkeeps) hok.1
  | verdict reason mode readAt =>
      rw [hpc] at hok
      refine cacheInv_answered h fun hvalid => ?_
      obtain ⟨rfl, haccepts⟩ := AbsoluteEncoder.verdict_valid hvalid
      exact hok haccepts

theorem cacheInv_step {e : EncoderEvent} (h : s.CacheInv) (hkeeps : ¬ s.KeepsStale e) :
    (s.step e).CacheInv := by
  cases e with
  | bus e => exact cacheInv_busStep h hkeeps
  | attained => exact ⟨h.exited, h.cached, fun i => (h.calls i).mono id id id, h.answers⟩
  | call i verb =>
      simp only [step]
      split_ifs
      · have hverb := cacheInv_call (i := i) (c := { (s.calls i) with verb := verb }) h
          (h.calls i) (h.answers i)
        cases verb with
        | status => exact cacheInv_atPc hverb trivial
        | isAbsEncValid => exact cacheInv_begin hverb
      · exact h
  | advance i answer => exact cacheInv_advance h hkeeps

end

end EncoderSystem

/-- In every run where no step leaves a stale mode to a call, each `valid` answer rests on a mode
that was read after the last loss, and so does each `absolute_encoder` of `status`. -/
theorem encoder_fresh (config : AbsoluteEncoder) (events : List EncoderEvent)
    (h : AllSteps EncoderSystem.step (fun s e => ¬ s.KeepsStale e) (.new config) events) (i : Nat) :
    ∀ a ∈ ((runFrom EncoderSystem.step (.new config) events).calls i).answers,
      a.Fresh ∧ (a.homedBy = (true, "absolute_encoder") →
        ∃ reply n, a = .encoder reply (some n) n) := by
  intro a ha
  have hinv := runFrom_of_allSteps (EncoderSystem.cacheInv_new config)
    (fun s e hs he => EncoderSystem.cacheInv_step hs he) h
  have hfresh := hinv.answers i a ha
  exact ⟨hfresh, hfresh.homedBy⟩

/-! ### Runs on the bench -/

namespace EncoderSystem

/-- The step is far from the cases of `KeepsStale`. -/
def Quiet (s : EncoderSystem) : EncoderEvent → Prop
  | .bus e => (s.spawns e = true → s.known = false) ∧ s.loses e = false
  | .advance i _ => knows (s.calls i).pc = false
  | _ => True

instance (s : EncoderSystem) : DecidablePred s.Quiet
  | .bus _ => inferInstanceAs (Decidable (_ ∧ _))
  | .advance _ _ => inferInstanceAs (Decidable (_ = _))
  | .attained | .call _ _ => isTrue trivial

theorem Quiet.not_keepsStale {s : EncoderSystem} {e : EncoderEvent} (h : s.Quiet e) :
    ¬ s.KeepsStale e := by
  intro hkeeps
  cases e with
  | bus e =>
      rcases hkeeps with ⟨hspawns, hknown, -⟩ | ⟨hloses, -⟩
      · rw [h.1 hspawns] at hknown
        cases hknown
      · rw [h.2] at hloses
        cases hloses
  | advance i answer =>
      have hknows := hkeeps.1
      rw [h] at hknows
      cases hknows
  | attained => exact hkeeps
  | call i verb => exact hkeeps

theorem allSteps_quiet {s : EncoderSystem} {events : List EncoderEvent}
    (h : AllSteps step Quiet s events) : AllSteps step (fun s e => ¬ s.KeepsStale e) s events :=
  allSteps_of_invariant (I := fun _ => True) trivial
    (fun _ _ _ hquiet => ⟨trivial, hquiet.not_keepsStale⟩) h

end EncoderSystem

/-- The drive reads 1 while its encoder keeps the position. -/
def benchEncoder : AbsoluteEncoder := { index := 0x2140, equals := .fin 1 }

/-- The motor after a run. -/
def encoderBench (events : List EncoderEvent) : EncoderSystem :=
  runFrom EncoderSystem.step (.new benchEncoder) events

/-- `start`, up to OP. -/
def encoderStart : List EncoderEvent :=
  .bus (.acquire .start) :: List.replicate 2 (.bus (.advance .ok)) ++
    [.bus .operational, .bus (.advance .ok), .bus (.advance .ok)]

/-- A motion call recovers the bus. -/
def encoderRecovery : List EncoderEvent :=
  .bus (.acquire .recover) :: List.replicate 5 (.bus (.advance .ok)) ++
    [.bus .operational, .bus (.advance .ok), .bus (.advance .ok)]

/-- `is_abs_enc_valid`, and the first `n` operations of the call. The drive reads `mode`. -/
def encoderPoll (mode : Double) (n : Nat) : List EncoderEvent :=
  .call 0 .isAbsEncValid :: List.replicate n (.advance 0 { read := .ok mode })

/-- The mode is read and cached, a poll meets the lost bus, and the mode is read again after the
recovery. -/
def encoderAskedAgain : List EncoderEvent :=
  encoderStart ++ encoderPoll (.fin 1) 6 ++
    .advance 0 {} :: .advance 0 {} :: .bus (.leave (.busFault 0)) ::
      (.bus .mark :: encoderPoll (.fin 1) 3 ++ encoderRecovery ++ encoderPoll (.fin 1) 6 ++
        [.advance 0 {}, .advance 0 {}])

theorem encoder_fresh_askedAgain :
    ((encoderBench encoderAskedAgain).calls 0).answers.map EncoderAnswer.homedBy =
        [(true, "absolute_encoder"), (false, "none"), (true, "absolute_encoder")] ∧
      ∀ a ∈ ((encoderBench encoderAskedAgain).calls 0).answers,
        a.Fresh ∧ (a.homedBy = (true, "absolute_encoder") →
          ∃ reply n, a = .encoder reply (some n) n) := by
  refine ⟨by decide, encoder_fresh benchEncoder encoderAskedAgain ?_ 0⟩
  refine allSteps_append.mpr ⟨EncoderSystem.allSteps_quiet (by decide), ?_, ?_, ?_,
    allSteps_append.mpr ⟨EncoderSystem.allSteps_quiet (by decide), ?_, ?_, trivial⟩⟩
  -- The mode gets known, and nobody else holds one.
  · rintro ⟨-, j, mode, readAt, h, -⟩
    cases j <;> cases h
  · exact EncoderSystem.Quiet.not_keepsStale (by decide)
  -- The bus is lost, and no call is on its way.
  · rintro (⟨h, -⟩ | ⟨-, j, h⟩)
    · cases h
    · cases j <;> cases h
  · rintro ⟨-, j, mode, readAt, h, -⟩
    cases j <;> cases h
  · exact EncoderSystem.Quiet.not_keepsStale (by decide)

/-- The mode is read and cached, the bus is lost, and a motion call recovers it before the next
poll. Then the drive would read 0. -/
def encoderRecovered : List EncoderEvent :=
  encoderStart ++ encoderPoll (.fin 1) 8 ++ [.bus (.leave (.busFault 0)), .bus .mark] ++
    encoderRecovery ++ encoderPoll (.fin 0) 5

/-- The poll answers with the mode of before the loss. -/
theorem encoder_recovered :
    ¬ ∀ a ∈ ((encoderBench encoderRecovered).calls 0).answers, a.Fresh := by
  decide

end ViamEthercat.Servo
