import ViamEthercat.Proofs.HomingRequest

/-!
# `ViamEthercat.Proofs.HomingTorque`: the torque object behind `home`

`home` restores the torque object from `saved_torque`, and only `write_homing_objects` that returns
gives it a value. So the restore is attempted if and only if every transfer of the set-up came
through and the drive had a value to save (`restore_attempted_iff`). A clamp that takes effect and
whose reply is lost leaves the object clamped. For a torque object that `home` does not write
otherwise, that and an object without bytes are the only ways (`torque_restored_iff`).
-/

set_option autoImplicit false

namespace ViamEthercat.Servo

open Double Lib Fallible

/-- The transfer gives the object another value. -/
def Transfer.changes (obj : SdoObject) : Transfer → Bool
  | .download _ o bytes before reply => decide (o = obj) && reply.effect && decide (bytes ≠ before)
  | .upload .. => false

/-- The object was read while it had its first value, and the bytes were then written back, or this
was attempted. -/
def RestoreAttempted (obj : SdoObject) (log : List Transfer) : Prop :=
  ∃ pre saved post, log = pre ++ .upload .readTorque obj (some saved) :: post ∧
    (∀ t ∈ pre, t.changes obj = false) ∧
    ∃ before reply, Transfer.download .restoreTorque obj saved before reply ∈ post

/-- A call that changed the torque object attempted to restore it. -/
def TorqueRestored (c : DriveConfig) (env : HomeEnv) (objects : SdoObject → List UInt8) : Prop :=
  let log := (home c env { objects := objects }).2.log
  (∃ t ∈ log, t.changes c.torqueObject = true) → RestoreAttempted c.torqueObject log

/-- The set-up comes through, and there are bytes to restore. -/
structure Secured (c : DriveConfig) (env : HomeEnv) (objects : SdoObject → List UInt8) : Prop where
  admitted : env.refusal = none
  prepared : ∃ i, Prepared c env objects (some i) ∧ ∃ bytes, i.encode c.torqueInput = .ok bytes
  clampAcked : (env.replies .writeTorque).acked = true
  nonempty : objects c.torqueObject ≠ []

/-- The set-up comes to the clamp, and this takes effect with another value. -/
def Clamped (c : DriveConfig) (env : HomeEnv) (objects : SdoObject → List UInt8) : Prop :=
  (env.replies .writeTorque).effect = true ∧ ∃ i, Prepared c env objects (some i) ∧
    ∃ bytes, i.encode c.torqueInput = .ok bytes ∧ bytes ≠ objects c.torqueObject

/-- The clamp takes effect, and its reply is lost, or the drive had no value to save. -/
def ClampLost (c : DriveConfig) (env : HomeEnv) (objects : SdoObject → List UInt8) : Prop :=
  env.refusal = none ∧ Clamped c env objects ∧
    ((env.replies .writeTorque).acked = false ∨ objects c.torqueObject = [])

/-- The objects that `home` writes by itself. -/
def homingObjects : List SdoObject := [methodObject, speedObject, accelObject, modeObject]

variable {c : DriveConfig} {env : HomeEnv} {s s' : HomeState} {objects : SdoObject → List UInt8}

/-! ### The parts of `home` -/

section
variable {I : HomeState → Prop}

theorem writeHomingObjects_keeps
    (hread : ∀ site obj size, Keeps I (sdoRead env site obj size))
    (hwrite : ∀ site obj bytes, site ≠ .restoreTorque → Keeps I (sdoWrite env site obj bytes)) :
    Keeps I (writeHomingObjects c env) := by
  unfold writeHomingObjects
  refine (prepareHoming_keeps hread fun site obj bytes hsite _ => hwrite site obj bytes hsite).bind
    fun r => ?_
  exact (clampTorque_keeps r.1 fun bytes => hwrite _ _ bytes (by decide)).bind fun _ => keeps_pure _

/-- Behind the selection of mode 6 a run makes no transfer. -/
theorem runHoming_state (saved : List UInt8) (s : HomeState) :
    (runHoming env saved s).2 =
      (selectDriveMode env .selectHoming 6 { s with savedTorque := saved }).2 := by
  unfold runHoming
  rw [bind_of_ok (x := modify _) rfl]
  refine bind_state fun _ s' => ?_
  cases env.attained with
  | some attained => rfl
  | none => rfl

theorem runHoming_keeps {saved : List UInt8}
    (hwrite : ∀ site obj bytes, site ≠ .restoreTorque → Keeps I (sdoWrite env site obj bytes))
    {s : HomeState} (h : I { s with savedTorque := saved }) : I (runHoming env saved s).2 := by
  rw [runHoming_state]
  exact hwrite _ _ _ (by decide) _ h

theorem homeBody_keeps
    (hread : ∀ site obj size, Keeps I (sdoRead env site obj size))
    (hwrite : ∀ site obj bytes, site ≠ .restoreTorque → Keeps I (sdoWrite env site obj bytes))
    (hsaved : ∀ s saved, I s → I { s with savedTorque := saved }) :
    Keeps I (homeBody c env) := by
  unfold homeBody
  refine (writeHomingObjects_keeps hread hwrite).bind fun saved s h => ?_
  exact runHoming_keeps hwrite (hsaved s saved h)

end

/-- Every transfer so far is as `P` says. -/
def Logged (P : Transfer → Prop) (s : HomeState) : Prop := ∀ t ∈ s.log, P t

theorem sdoRead_keeps_logged {P : Transfer → Prop} {site : Site} {obj : SdoObject}
    (hP : ∀ value, P (.upload site obj value)) (size : Nat) :
    Keeps (Logged P) (sdoRead env site obj size) := by
  intro s h t ht
  have hlog : ∃ value, (sdoRead env site obj size s).2.log = s.log ++ [.upload site obj value] := by
    unfold sdoRead
    dsimp only
    split <;> exact ⟨_, rfl⟩
  obtain ⟨value, hlog⟩ := hlog
  rw [hlog, List.mem_append, List.mem_singleton] at ht
  rcases ht with ht | rfl
  · exact h t ht
  · exact hP value

theorem sdoWrite_keeps_logged {P : Transfer → Prop} {site : Site} {obj : SdoObject}
    {bytes : List UInt8} (hP : ∀ before, P (.download site obj bytes before (env.replies site))) :
    Keeps (Logged P) (sdoWrite env site obj bytes) := by
  intro s h t ht
  rcases List.mem_append.mp ht with ht | ht
  · exact h t ht
  · rw [List.mem_singleton.mp ht]
    exact hP _

/-! ### The restore -/

/-- The transfer is an attempt to restore the torque object. -/
def Transfer.isRestore : Transfer → Bool
  | .download site .. => decide (site = .restoreTorque)
  | .upload .. => false

/-- The body of the `try` block attempts no restore. -/
theorem homeBody_unrestored (objects : SdoObject → List UInt8) :
    Logged (fun t => t.isRestore = false) (homeBody c env { objects := objects }).2 := by
  refine homeBody_keeps (fun site obj size => sdoRead_keeps_logged (fun _ => rfl) size)
    (fun site obj bytes hsite => sdoWrite_keeps_logged fun before => decide_eq_false hsite)
    (fun s saved h => h) _ ?_
  exact fun t ht => absurd ht List.not_mem_nil

/-- `saved_torque` is what `write_homing_objects` returned. -/
theorem homeBody_saved (h : s.savedTorque = []) :
    (homeBody c env s).2.savedTorque = match (writeHomingObjects c env s).1 with
      | .ok saved => saved
      | .error _ => [] := by
  have hread : ∀ saved site obj size,
      Keeps (fun s => s.savedTorque = saved) (sdoRead env site obj size) := by
    intro saved site obj size s h
    unfold sdoRead
    dsimp only
    split <;> exact h
  have hwrite : ∀ saved site obj bytes,
      Keeps (fun s => s.savedTorque = saved) (sdoWrite env site obj bytes) :=
    fun saved site obj bytes s h => h
  cases hobjects : writeHomingObjects c env s with
  | mk r s₁ =>
      cases r with
      | error e =>
          have hs : s₁.savedTorque = [] := (writeHomingObjects_keeps (hread [])
            fun site obj bytes _ => hwrite [] site obj bytes).of_run hobjects h
          unfold homeBody
          rw [bind_of_error hobjects]
          exact hs
      | ok saved =>
          unfold homeBody
          rw [bind_of_ok hobjects]
          exact runHoming_keeps (I := fun s => s.savedTorque = saved)
            (fun site obj bytes _ => hwrite saved site obj bytes) rfl

/-- What `restore_homing_torque` adds to the log. -/
def restoreOf (obj : SdoObject) (saved before : List UInt8) (reply : Reply) : List Transfer :=
  if saved = [] then [] else [.download .restoreTorque obj saved before reply]

theorem restoreHomingTorque_log (s : HomeState) : (restoreHomingTorque c env s).2.log =
    s.log ++ restoreOf c.torqueObject s.savedTorque (s.objects c.torqueObject)
      (env.replies .restoreTorque) := by
  unfold restoreHomingTorque restoreOf
  split
  · exact (List.append_nil _).symm
  · rfl

/-- A refused restore is not thrown. -/
theorem restoreHomingTorque_returns (s : HomeState) :
    restoreHomingTorque c env s = (.ok (), (restoreHomingTorque c env s).2) := by
  unfold restoreHomingTorque
  split <;> rfl

/-- Behind the body, on either path and in either order: the mode is restored, and what was
saved. -/
theorem home_log (hadmitted : env.refusal = none) (s : HomeState) :
    let body := (homeBody c env s).2
    ∃ tail before before', (home c env s).2.log = body.log ++ tail ∧ ∀ t, t ∈ tail ↔
      t = .download .restoreMode modeObject [env.commandedMode] before
          (env.replies .restoreMode) ∨
        t ∈ restoreOf c.torqueObject body.savedTorque before' (env.replies .restoreTorque) := by
  intro body
  have hattempt : (homeBody c env).attempt s = (.ok (homeBody c env s).1, body) := rfl
  unfold home
  rw [hadmitted]
  dsimp only
  rw [bind_of_ok hattempt]
  cases (homeBody c env s).1 with
  | error e =>
      let restored := env.written .restoreMode modeObject [env.commandedMode] body
      have hmode : Fallible.attempt (selectDriveMode env .restoreMode env.commandedMode) body =
          (.ok _, restored) := rfl
      have hfailed : homeFailed c env e body =
          (.error e, (restoreHomingTorque c env restored).2) := by
        unfold homeFailed
        rw [bind_of_ok hmode, bind_of_ok (restoreHomingTorque_returns restored)]
        rfl
      refine ⟨.download .restoreMode modeObject [env.commandedMode] (body.objects modeObject)
        (env.replies .restoreMode) :: restoreOf c.torqueObject body.savedTorque
        (restored.objects c.torqueObject) (env.replies .restoreTorque), _, _, ?_,
        fun t => List.mem_cons⟩
      show (homeFailed c env e body).2.log = _
      rw [hfailed, restoreHomingTorque_log, log_written, List.append_assoc]
      rfl
  | ok attained =>
      let restored := (restoreHomingTorque c env body).2
      have hended : (homeEnded c env attained body).2.log =
          (env.written .restoreMode modeObject [env.commandedMode] restored).log := by
        unfold homeEnded
        rw [bind_of_ok (restoreHomingTorque_returns body)]
        rw [bind_state fun _ _ => rfl]
        rfl
      refine ⟨restoreOf c.torqueObject body.savedTorque (body.objects c.torqueObject)
        (env.replies .restoreTorque) ++ [.download .restoreMode modeObject [env.commandedMode]
        (restored.objects modeObject) (env.replies .restoreMode)], restored.objects modeObject,
        body.objects c.torqueObject, ?_, fun t => ?_⟩
      · show (homeEnded c env attained body).2.log = _
        rw [hended, log_written, restoreHomingTorque_log, List.append_assoc]
      · rw [List.mem_append, List.mem_singleton, or_comm]

/-- A call that is refused ahead of its first transfer makes none. -/
theorem home_refused {what : String} (h : env.refusal = some what) (s : HomeState) :
    (home c env s).2.log = s.log := by
  unfold home
  rw [h]
  rfl

/-! ### When there is something to restore -/

/-- The set-up returns if and only if its parts do. -/
theorem writeHomingObjects_eq_ok {saved : List UInt8} :
    (∃ s', writeHomingObjects c env s = (.ok saved, s')) ↔
      ∃ t, Prepared c env s.objects t ∧
        saved = (if t.isSome then s.objects c.torqueObject else []) ∧
        ∀ i ∈ t, (env.replies .writeTorque).acked = true ∧
          ∃ bytes, i.encode c.torqueInput = .ok bytes := by
  have hclamp : ∀ t s₁, (∃ s', clampTorque c env t s₁ = (.ok (), s')) ↔
      ∀ i ∈ t, (env.replies .writeTorque).acked = true ∧
        ∃ bytes, i.encode c.torqueInput = .ok bytes := by
    intro t s₁
    cases t with
    | none => exact iff_of_true ⟨s₁, rfl⟩ nofun
    | some i =>
        refine bind_returns.trans ⟨?_, fun h => ?_⟩
        · rintro ⟨bytes, s₂, hencoded, s', hwrite⟩ j hj
          cases hj
          refine ⟨(sdoWrite_eq_ok.mp hwrite).1, bytes, ?_⟩
          unfold encoded at hencoded
          split at hencoded
          · rename_i hencode
            cases hencoded
            exact hencode
          · cases hencoded
        · obtain ⟨hacked, bytes, hencode⟩ := h i rfl
          exact ⟨bytes, s₁, by rw [encoded, hencode], _, sdoWrite_eq_ok.mpr ⟨hacked, rfl⟩⟩
  unfold writeHomingObjects
  constructor
  · intro h
    obtain ⟨⟨t, saved'⟩, s₁, hprepare, h⟩ := bind_returns.mp h
    obtain ⟨u, s₂, hclamped, s', h⟩ := bind_returns.mp h
    cases h
    obtain ⟨hprepared, hsaved⟩ := prepareHoming_returns_iff.mp ⟨s₁, hprepare⟩
    exact ⟨t, hprepared, hsaved, (hclamp t s₁).mp ⟨_, hclamped⟩⟩
  · rintro ⟨t, hprepared, hsaved, hencodes⟩
    obtain ⟨s₁, hprepare⟩ := prepareHoming_returns_iff.mpr ⟨hprepared, hsaved⟩
    obtain ⟨s₂, hclamped⟩ := (hclamp t s₁).mpr hencodes
    exact bind_returns.mpr ⟨(t, saved), s₁, hprepare, bind_returns.mpr ⟨(), s₂, hclamped, s₂, rfl⟩⟩

/-- A secured call has saved the torque object. -/
theorem Secured.saved (h : Secured c env objects) :
    (homeBody c env { objects := objects }).2.savedTorque = objects c.torqueObject := by
  obtain ⟨i, hprepared, hencode⟩ := h.prepared
  obtain ⟨s', hrun⟩ := (writeHomingObjects_eq_ok (s := { objects := objects })).mpr
    ⟨some i, hprepared, rfl, fun j hj => by cases hj; exact ⟨h.clampAcked, hencode⟩⟩
  rw [homeBody_saved rfl, hrun]
  rfl

/-- `saved_torque` has bytes behind the `try` block if and only if the call is secured. -/
theorem homeBody_saved_iff (hadmitted : env.refusal = none) :
    (homeBody c env { objects := objects }).2.savedTorque ≠ [] ↔ Secured c env objects := by
  refine ⟨fun h => ?_, fun h => h.saved ▸ h.nonempty⟩
  rw [homeBody_saved rfl] at h
  cases hrun : writeHomingObjects c env { objects := objects } with
  | mk r s' =>
      rw [hrun] at h
      cases r with
      | error e => exact absurd rfl h
      | ok saved =>
          obtain ⟨t, hprepared, hsaved, hencodes⟩ := writeHomingObjects_eq_ok.mp ⟨s', hrun⟩
          have h : saved ≠ [] := h
          cases t with
          | none => exact absurd hsaved h
          | some i =>
              obtain ⟨hacked, hencode⟩ := hencodes i rfl
              exact ⟨hadmitted, ⟨i, hprepared, hencode⟩, hacked,
                fun hempty => h (hsaved.trans hempty)⟩

/-- A call that clamps uploads the torque object first. -/
theorem homeBody_uploads {i : TypeInfo} (h : Prepared c env objects (some i)) :
    [Transfer.upload .readTorque c.torqueObject (some (objects c.torqueObject))] <+:
      (homeBody c env { objects := objects }).2.log := by
  have hread : ∀ log site obj size, Keeps (fun s => log <+: s.log) (sdoRead env site obj size) :=
    sdoRead_keeps_log
  have hwrite : ∀ log site obj bytes,
      Keeps (fun s => log <+: s.log) (sdoWrite env site obj bytes) := sdoWrite_keeps_log
  obtain ⟨s', hprepare⟩ := (prepareHoming_returns_iff (s := { objects := objects })).mpr ⟨h, rfl⟩
  -- Behind the upload the log only grows.
  have huploads : [Transfer.upload .readTorque c.torqueObject (some (objects c.torqueObject))] <+:
      s'.log := by
    unfold prepareHoming at hprepare
    rw [if_neg h.method] at hprepare
    obtain ⟨t, s₁, htype, hprepare⟩ := bind_eq_ok.mp hprepare
    obtain ⟨saved, s₂, hsave, hprepare⟩ := bind_eq_ok.mp hprepare
    obtain ⟨u, s₃, hmethod, hprepare⟩ := bind_eq_ok.mp hprepare
    obtain ⟨u, s₄, hspeeds, hprepare⟩ := bind_eq_ok.mp hprepare
    cases hprepare
    obtain ⟨rfl, -, -⟩ := torqueType_eq_ok.mp htype
    obtain ⟨-, -, -, rfl⟩ := sdoRead_eq_ok.mp hsave
    have hafter : [Transfer.upload .readTorque c.torqueObject
        (some (objects c.torqueObject))] <+: s₃.log :=
      (writeMethod_keeps (hread _) fun site obj bytes _ _ => hwrite _ site obj bytes).of_run
        hmethod (List.prefix_refl _)
    exact (writeSpeeds_keeps fun site obj bytes _ _ => hwrite _ site obj bytes).of_run
      hspeeds hafter
  have hobjects : [Transfer.upload .readTorque c.torqueObject
      (some (objects c.torqueObject))] <+:
        (writeHomingObjects c env { objects := objects }).2.log := by
    unfold writeHomingObjects
    rw [bind_of_ok hprepare]
    refine Keeps.bind (clampTorque_keeps _ fun bytes => hwrite _ _ _ bytes) ?_ s' huploads
    exact fun _ => keeps_pure _
  unfold homeBody
  rcases bind_cases (writeHomingObjects c env) (runHoming env) { objects := objects } with
    ⟨e, s₁, hrun, hbody⟩ | ⟨saved, s₁, hrun, hbody⟩
  · rw [hbody]
    rw [hrun] at hobjects
    exact hobjects
  · rw [hbody]
    rw [hrun] at hobjects
    exact runHoming_keeps (fun site obj bytes _ => hwrite _ site obj bytes) hobjects

/-- The restore is attempted if and only if the call is secured. -/
theorem restore_attempted_iff :
    RestoreAttempted c.torqueObject (home c env { objects := objects }).2.log ↔
      Secured c env objects := by
  cases hadmitted : env.refusal with
  | some what =>
      refine iff_of_false ?_ fun h => absurd (hadmitted.symm.trans h.admitted) nofun
      rintro ⟨pre, saved, post, hlog, -⟩
      rw [home_refused hadmitted] at hlog
      exact absurd hlog (by simp)
  | none =>
      obtain ⟨tail, before, before', hlog, htail⟩ :=
        home_log (c := c) hadmitted { objects := objects }
      rw [← homeBody_saved_iff hadmitted, hlog]
      constructor
      · -- Only the restore is marked as one, and it is skipped without saved bytes.
        rintro ⟨pre, saved, post, hsplit, -, before₁, reply, hmem⟩ hempty
        have hmem : Transfer.download .restoreTorque c.torqueObject saved before₁ reply ∈
            (homeBody c env { objects := objects }).2.log ++ tail := by
          rw [hsplit]
          exact List.mem_append_right _ (List.mem_cons_of_mem _ hmem)
        rcases List.mem_append.mp hmem with hmem | hmem
        · exact Bool.noConfusion (homeBody_unrestored objects _ hmem)
        · rcases (htail _).mp hmem with hmode | hrestore
          · cases hmode
          · rw [restoreOf, if_pos hempty] at hrestore
            cases hrestore
      · intro hne
        have hsecured := (homeBody_saved_iff hadmitted).mp hne
        obtain ⟨i, hprepared, hencode⟩ := hsecured.prepared
        obtain ⟨rest, hrest⟩ := homeBody_uploads hprepared
        refine ⟨[], objects c.torqueObject, rest ++ tail, ?_, nofun, before',
          env.replies .restoreTorque, ?_⟩
        · rw [← hrest]
          rfl
        · refine List.mem_append_right _ ((htail _).mpr (.inr ?_))
          rw [restoreOf, if_neg hne, hsecured.saved]
          exact List.mem_singleton.mpr rfl

/-! ### Which transfer changes the torque object -/

/-- The torque object as it was, and no transfer has changed it. -/
def Untouched (obj : SdoObject) (value : List UInt8) (s : HomeState) : Prop :=
  s.objects obj = value ∧ Logged (fun t => t.changes obj = false) s

theorem sdoRead_keeps_untouched (obj : SdoObject) (value : List UInt8) (site : Site)
    (obj' : SdoObject) (size : Nat) : Keeps (Untouched obj value) (sdoRead env site obj' size) := by
  rintro s ⟨hvalue, hlogged⟩
  refine ⟨?_, sdoRead_keeps_logged (fun _ => rfl) size s hlogged⟩
  unfold sdoRead
  dsimp only
  split <;> exact hvalue

theorem sdoWrite_keeps_untouched {obj obj' : SdoObject} (value : List UInt8) (site : Site)
    (bytes : List UInt8) (hne : obj' ≠ obj) :
    Keeps (Untouched obj value) (sdoWrite env site obj' bytes) := by
  rintro s ⟨hvalue, hlogged⟩
  refine ⟨?_, sdoWrite_keeps_logged (fun before => ?_) s hlogged⟩
  · show (env.written site obj' bytes s).objects obj = value
    rw [objects_written]
    split
    · rw [Function.update_of_ne hne.symm]
      exact hvalue
    · exact hvalue
  · simp [Transfer.changes, hne]

theorem prepareHoming_untouched (hobj : c.torqueObject ∉ homingObjects) :
    Keeps (Untouched c.torqueObject (objects c.torqueObject)) (prepareHoming c env) := by
  refine prepareHoming_keeps (sdoRead_keeps_untouched _ _) fun site obj bytes _ hmem => ?_
  refine sdoWrite_keeps_untouched _ site bytes fun heq => hobj ?_
  rw [← heq]
  exact List.mem_append_left [modeObject] hmem

/-- Of the transfers of the set-up only the clamp changes the torque object. -/
theorem writeHomingObjects_changes_iff (hobj : c.torqueObject ∉ homingObjects) :
    (∃ t ∈ (writeHomingObjects c env { objects := objects }).2.log,
      t.changes c.torqueObject = true) ↔ Clamped c env objects := by
  have hstart : Untouched c.torqueObject (objects c.torqueObject) { objects := objects } :=
    ⟨rfl, fun t ht => absurd ht List.not_mem_nil⟩
  have hquiet : ∀ {s}, Untouched c.torqueObject (objects c.torqueObject) s →
      ¬∃ t ∈ s.log, t.changes c.torqueObject = true := by
    rintro s ⟨-, hlogged⟩ ⟨t, ht, hchanges⟩
    exact Bool.noConfusion ((hlogged t ht).symm.trans hchanges)
  unfold writeHomingObjects
  rcases bind_cases (prepareHoming c env) (fun r => do
      clampTorque c env r.1
      return r.2) { objects := objects } with
    ⟨e, s', hprepare, hrun⟩ | ⟨⟨t, saved⟩, s', hprepare, hrun⟩
  · have hafter := (prepareHoming_untouched hobj).of_run hprepare hstart
    rw [hrun]
    refine iff_of_false (hquiet hafter) ?_
    rintro ⟨-, i, hprepared, -⟩
    obtain ⟨s'', hreturns⟩ := (prepareHoming_returns_iff (s := { objects := objects })).mpr
      ⟨hprepared, rfl⟩
    rw [hprepare] at hreturns
    cases hreturns
  · have hafter := (prepareHoming_untouched hobj).of_run hprepare hstart
    obtain ⟨hprepared, -⟩ := prepareHoming_returns_iff.mp ⟨s', hprepare⟩
    rw [hrun]
    rw [bind_state fun _ _ => rfl]
    cases t with
    | none =>
        refine iff_of_false (hquiet hafter) ?_
        rintro ⟨-, i, hclamps, -⟩
        exact Bool.noConfusion (hprepared.clamped.trans hclamps.clamped.symm)
    | some i =>
        have hsame : ∀ j, Prepared c env objects (some j) → j = i := fun j hj =>
          Option.some.inj ((hj.saved j rfl).1.symm.trans (hprepared.saved i rfl).1)
        unfold clampTorque
        dsimp only
        cases hencode : i.encode c.torqueInput with
        | error e =>
            have hthrows : encoded i c.torqueInput s' = (.error (.codec e), s') := by
              rw [encoded, hencode]
            rw [bind_of_error hthrows]
            refine iff_of_false (hquiet hafter) ?_
            rintro ⟨-, j, hclamps, bytes, hbytes, -⟩
            rw [hsame j hclamps, hencode] at hbytes
            cases hbytes
        | ok bytes =>
            have hencoded : encoded i c.torqueInput s' = (.ok bytes, s') := by
              rw [encoded, hencode]
            rw [bind_of_ok hencoded]
            show (∃ t ∈ (env.written .writeTorque c.torqueObject bytes s').log, _) ↔ _
            rw [log_written, hafter.1]
            constructor
            · rintro ⟨t, ht, hchanges⟩
              rcases List.mem_append.mp ht with ht | ht
              · exact absurd ⟨t, ht, hchanges⟩ (hquiet hafter)
              · rw [List.mem_singleton.mp ht] at hchanges
                obtain ⟨heffect, hne⟩ : (env.replies .writeTorque).effect = true ∧
                    bytes ≠ objects c.torqueObject := by simpa [Transfer.changes] using hchanges
                exact ⟨heffect, i, hprepared, bytes, hencode, hne⟩
            · rintro ⟨heffect, j, hclamps, bytes', hbytes, hne⟩
              rw [hsame j hclamps, hencode] at hbytes
              obtain rfl := Except.ok.inj hbytes
              refine ⟨_, List.mem_append_right _ (List.mem_singleton.mpr rfl), ?_⟩
              simp [Transfer.changes, heffect, hne]

theorem runHoming_log (saved : List UInt8) (s : HomeState) :
    (runHoming env saved s).2.log = s.log ++
      [.download .selectHoming modeObject [6] (s.objects modeObject)
        (env.replies .selectHoming)] := by
  rw [runHoming_state]
  rfl

/-- As long as nothing is restored, only the clamp changes the torque object in a call. -/
theorem homeBody_changes_iff (hobj : c.torqueObject ∉ homingObjects) :
    (∃ t ∈ (homeBody c env { objects := objects }).2.log,
      t.changes c.torqueObject = true) ↔ Clamped c env objects := by
  rw [← writeHomingObjects_changes_iff hobj]
  unfold homeBody
  rcases bind_cases (writeHomingObjects c env) (runHoming env) { objects := objects } with
    ⟨e, s', hrun, hbody⟩ | ⟨saved, s', hrun, hbody⟩
  · rw [hbody, hrun]
  · have hmode : modeObject ≠ c.torqueObject := fun heq => hobj (by rw [← heq]; decide)
    rw [hbody, hrun, runHoming_log]
    simp [Transfer.changes, hmode]

/-- The torque object behind `home`, for every pattern of answers. It is left changed without an
attempt to restore it if and only if a transfer changes it and the set-up does not come through
with bytes to restore. For an object that `home` does not write otherwise, this is a clamp that
takes effect and whose reply is lost, or a drive that had no value to save. -/
theorem torque_restored_iff (c : DriveConfig) (env : HomeEnv) (objects : SdoObject → List UInt8) :
    (TorqueRestored c env objects ↔
      (∀ t ∈ (home c env { objects := objects }).2.log, t.changes c.torqueObject = false) ∨
        Secured c env objects) ∧
    (c.torqueObject ∉ homingObjects →
      (TorqueRestored c env objects ↔ ¬ClampLost c env objects)) := by
  have hrestored : TorqueRestored c env objects ↔
      ((∃ t ∈ (home c env { objects := objects }).2.log, t.changes c.torqueObject = true) →
        Secured c env objects) := by
    unfold TorqueRestored
    dsimp only
    rw [restore_attempted_iff]
  rw [hrestored]
  refine ⟨?_, fun hobj => ?_⟩
  · rw [imp_iff_not_or]
    simp only [not_exists, not_and, Bool.not_eq_true]
  cases hadmitted : env.refusal with
  | some what =>
      refine iff_of_true ?_ fun h => absurd (hadmitted.symm.trans h.1) nofun
      rintro ⟨t, ht, -⟩
      rw [home_refused hadmitted] at ht
      cases ht
  | none =>
      obtain ⟨tail, before, before', hlog, htail⟩ :=
        home_log (c := c) hadmitted { objects := objects }
      rw [hlog]
      constructor
      · rintro h ⟨-, hclamped, hlost⟩
        obtain ⟨t, ht, hchanges⟩ := (homeBody_changes_iff hobj).mpr hclamped
        obtain ⟨-, -, hacked, hne⟩ := h ⟨t, List.mem_append_left _ ht, hchanges⟩
        rcases hlost with hlost | hempty
        · exact Bool.noConfusion (hlost.symm.trans hacked)
        · exact hne hempty
      · rintro hlost ⟨t, ht, hchanges⟩
        by_contra hunsecured
        have hempty : (homeBody c env { objects := objects }).2.savedTorque = [] := by
          by_contra hne
          exact hunsecured ((homeBody_saved_iff hadmitted).mp hne)
        have hbody : t ∈ (homeBody c env { objects := objects }).2.log := by
          refine (List.mem_append.mp ht).resolve_right fun ht => ?_
          rw [htail, restoreOf, if_pos hempty] at ht
          rcases ht with rfl | ht
          · have hmode : modeObject ≠ c.torqueObject := fun heq => hobj (by rw [← heq]; decide)
            simp [Transfer.changes, hmode] at hchanges
          · cases ht
        have hclamped := (homeBody_changes_iff hobj).mp ⟨t, hbody, hchanges⟩
        obtain ⟨-, i, hprepared, bytes, hencode, -⟩ := id hclamped
        obtain ⟨hacked, hne⟩ := not_or.mp fun h => hlost ⟨hadmitted, hclamped, h⟩
        exact hunsecured ⟨hadmitted, ⟨i, hprepared, bytes, hencode⟩, by simpa using hacked, hne⟩

/-- With every transfer successful, the clamp of an object of the vendor is taken back. -/
theorem clamp_taken_back :
    (∃ t ∈ (home (clampConfig "u16") successes { objects := fun _ => [0, 0] }).2.log,
        t.changes (clampConfig "u16").torqueObject = true) ∧
      TorqueRestored (clampConfig "u16") successes fun _ => [0, 0] := by
  refine ⟨by decide +kernel, ?_⟩
  refine ((torque_restored_iff (clampConfig "u16") successes fun _ => [0, 0]).2
    (by decide +kernel)).mpr ?_
  rintro ⟨-, -, hlost | hempty⟩
  · cases hlost
  · cases hempty

/-- A drive that takes the clamp and whose reply to it is lost. -/
def lostReply : HomeEnv where
  replies site := ⟨true, decide (site ≠ .writeTorque)⟩
  commandedMode := 1

/-- The clamp is lost behind the save: the catch block finds no saved bytes. -/
theorem clamp_left : ¬∀ (c : DriveConfig) (env : HomeEnv) (objects : SdoObject → List UInt8),
    c.validate = .ok () → TorqueRestored c env objects := by
  intro h
  have hrestored := h (clampConfig "u16") lostReply (fun _ => [0, 0]) (by decide +kernel)
    ⟨.download .writeTorque (0x2030#16, 0) [0xF4, 0x01] [0, 0] ⟨true, false⟩, by decide +kernel,
      by decide +kernel⟩
  obtain ⟨pre, saved, post, hlog, -, before, reply, hmem⟩ := hrestored
  have hnone : ∀ t ∈ (home (clampConfig "u16") lostReply { objects := fun _ => [0, 0] }).2.log,
      t.isRestore = false := by decide +kernel
  have hrestore := hnone (.download .restoreTorque (0x2030#16, 0) saved before reply) (by
    rw [show (home (clampConfig "u16") lostReply
      { objects := fun _ => [0, 0] }).2.log = _ from hlog]
    exact List.mem_append_right _ (List.mem_cons_of_mem _ hmem))
  cases hrestore

end ViamEthercat.Servo
