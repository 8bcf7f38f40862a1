import ViamEthercat.Proofs.SdoCodec
import ViamEthercat.Servo.HomingRun

/-!
# `ViamEthercat.Proofs.HomingRequest`: what `write_homing_objects` needs

`Prepared` lists what the part of `write_homing_objects` ahead of the clamp needs, of the
configuration, of the drive and of its answers: it returns if and only if all of that holds
(`prepareHoming_eq_ok`). The clamp is encoded behind it. So a request whose value the type of the
torque object cannot take fails after the method and the speeds were written
(`request_fails_before_writes_iff`).
-/

set_option autoImplicit false

namespace ViamEthercat.Servo

open Double Lib Fallible

variable {c : DriveConfig} {env : HomeEnv} {s s' : HomeState}

/-! ### Transfers -/

/-- The state after a download. -/
def HomeEnv.written (env : HomeEnv) (site : Site) (obj : SdoObject) (bytes : List UInt8)
    (s : HomeState) : HomeState :=
  (sdoWrite env site obj bytes s).2

theorem sdoWrite_eq_ok {site : Site} {obj : SdoObject} {bytes : List UInt8} {u : Unit} :
    sdoWrite env site obj bytes s = (.ok u, s') ↔
      (env.replies site).acked = true ∧ s' = env.written site obj bytes s := by
  unfold HomeEnv.written sdoWrite
  dsimp only
  split
  · rename_i h
    exact ⟨fun heq => ⟨h, (congrArg Prod.snd heq).symm⟩, fun ⟨_, heq⟩ => by rw [heq]⟩
  · rename_i h
    exact ⟨fun heq => absurd (congrArg Prod.fst heq) nofun, fun heq => absurd heq.1 h⟩

theorem sdoRead_eq_ok {site : Site} {obj : SdoObject} {size : Nat} {value : List UInt8} :
    sdoRead env site obj size s = (.ok value, s') ↔
      (env.replies site).acked = true ∧ (s.objects obj).length ≤ size ∧ value = s.objects obj ∧
        s' = { s with log := s.log ++ [.upload site obj (some (s.objects obj))] } := by
  unfold sdoRead
  dsimp only
  split
  · rename_i h
    refine ⟨fun heq => ⟨h.1, h.2, ?_, (congrArg Prod.snd heq).symm⟩, fun ⟨_, _, hv, heq⟩ => ?_⟩
    · exact (Except.ok.inj (congrArg Prod.fst heq)).symm
    · rw [hv, heq]
  · rename_i h
    exact ⟨fun heq => absurd (congrArg Prod.fst heq) nofun, fun heq => absurd ⟨heq.1, heq.2.1⟩ h⟩

@[simp] theorem objects_written (site : Site) (obj : SdoObject) (bytes : List UInt8) :
    (env.written site obj bytes s).objects =
      if (env.replies site).effect = true then Function.update s.objects obj bytes
      else s.objects := rfl

@[simp] theorem log_written (site : Site) (obj : SdoObject) (bytes : List UInt8) :
    (env.written site obj bytes s).log =
      s.log ++ [.download site obj bytes (s.objects obj) (env.replies site)] := rfl

/-! ### What each part keeps -/

section
variable {I : HomeState → Prop}

theorem encoded_keeps (t : TypeInfo) (value : Input) : Keeps I (encoded t value) :=
  fun _ h => h

theorem torqueType_keeps : Keeps I (torqueType c) := by
  unfold torqueType
  split
  · split
    · exact keeps_throw _
    · exact keeps_pure _
  · exact keeps_pure _

theorem writeMethod_keeps
    (hread : ∀ site obj size, Keeps I (sdoRead env site obj size))
    (hwrite : ∀ site obj bytes, site ≠ .restoreTorque →
      obj ∈ [methodObject, speedObject, accelObject] → Keeps I (sdoWrite env site obj bytes)) :
    Keeps I (writeMethod c env) := by
  unfold writeMethod
  refine Keeps.bind (hwrite _ methodObject _ (by decide) (by simp)) fun _ => ?_
  refine Keeps.bind (hread _ _ _) fun echo => ?_
  exact Keeps.ite (keeps_throw _) (keeps_pure _)

theorem writeSpeeds_keeps
    (hwrite : ∀ site obj bytes, site ≠ .restoreTorque →
      obj ∈ [methodObject, speedObject, accelObject] → Keeps I (sdoWrite env site obj bytes)) :
    Keeps I (writeSpeeds c env) := by
  unfold writeSpeeds
  refine Keeps.bind (hwrite _ speedObject _ (by decide) (by simp)) fun _ => ?_
  exact Keeps.ite (hwrite _ accelObject _ (by decide) (by simp)) (keeps_pure _)

/-- The part ahead of the clamp keeps what its transfers keep: it writes the method and the
speeds. -/
theorem prepareHoming_keeps
    (hread : ∀ site obj size, Keeps I (sdoRead env site obj size))
    (hwrite : ∀ site obj bytes, site ≠ .restoreTorque →
      obj ∈ [methodObject, speedObject, accelObject] → Keeps I (sdoWrite env site obj bytes)) :
    Keeps I (prepareHoming c env) := by
  have hsave : ∀ t, Keeps I (saveTorque c env t) := by
    intro t
    cases t with
    | none => exact keeps_pure _
    | some t => exact hread _ _ _
  unfold prepareHoming
  refine Keeps.ite (keeps_throw _) (torqueType_keeps.bind fun t => (hsave t).bind fun saved => ?_)
  refine (writeMethod_keeps hread hwrite).bind fun _ => ?_
  exact (writeSpeeds_keeps hwrite).bind fun _ => keeps_pure _

theorem clampTorque_keeps (t : Option TypeInfo)
    (hwrite : ∀ bytes, Keeps I (sdoWrite env .writeTorque c.torqueObject bytes)) :
    Keeps I (clampTorque c env t) := by
  cases t with
  | none => exact keeps_pure _
  | some t => exact Keeps.bind (encoded_keeps t _) fun bytes => hwrite bytes

end

/-! ### When the part ahead of the clamp returns -/

/-- What `prepareHoming` needs, on a drive that holds `objects`, and the type it finds. -/
structure Prepared (c : DriveConfig) (env : HomeEnv) (objects : SdoObject → List UInt8)
    (t : Option TypeInfo) : Prop where
  method : c.homing.method ≠ 0
  clamped : t.isSome = lt (.fin 0) c.homing.torquePercent
  /-- the type is known, and the object is read -/
  saved : ∀ i ∈ t, findType c.torque.type = some i ∧ (env.replies .readTorque).acked = true ∧
    (objects c.torqueObject).length ≤ i.width
  methodAcked : (env.replies .writeMethod).acked = true
  echoAcked : (env.replies .readMethod).acked = true
  /-- the drive took the method, or held it -/
  echo : (env.replies .writeMethod).effect = true ∨
    objects methodObject = rawBytes c.homing.method
  speedAcked : (env.replies .writeSpeed).acked = true
  accelAcked : lt (.fin 0) c.homing.accelRpmPerS = true → (env.replies .writeAccel).acked = true

theorem torqueType_eq_ok {t : Option TypeInfo} : torqueType c s = (.ok t, s') ↔
    s' = s ∧ t.isSome = lt (.fin 0) c.homing.torquePercent ∧
      ∀ i ∈ t, findType c.torque.type = some i := by
  unfold torqueType
  cases lt (.fin 0) c.homing.torquePercent with
  | false =>
      show (Except.ok none, s) = _ ↔ _
      constructor
      · rintro ⟨⟩
        exact ⟨rfl, rfl, nofun⟩
      · rintro ⟨rfl, ht, -⟩
        obtain rfl : t = none := Option.isSome_eq_false_iff.mp ht |> Option.isNone_iff_eq_none.mp
        rfl
  | true =>
      cases findType c.torque.type with
      | none =>
          show (Except.error _, s) = _ ↔ _
          constructor
          · rintro ⟨⟩
          · rintro ⟨-, ht, hfind⟩
            obtain ⟨i, rfl⟩ := Option.isSome_iff_exists.mp ht
            exact absurd (hfind i rfl) nofun
      | some i =>
          show (Except.ok (some i), s) = _ ↔ _
          constructor
          · rintro ⟨⟩
            exact ⟨rfl, rfl, fun _ => id⟩
          · rintro ⟨rfl, ht, hfind⟩
            obtain ⟨j, rfl⟩ := Option.isSome_iff_exists.mp ht
            rw [hfind j rfl]

theorem saveTorque_eq_ok {t : Option TypeInfo} {saved : List UInt8}
    (h : saveTorque c env t s = (.ok saved, s')) :
    s'.objects = s.objects ∧ saved = (if t.isSome then s.objects c.torqueObject else []) ∧
      ∀ i ∈ t, (env.replies .readTorque).acked = true ∧
        (s.objects c.torqueObject).length ≤ i.width := by
  cases t with
  | none =>
      cases h
      exact ⟨rfl, rfl, nofun⟩
  | some i =>
      obtain ⟨hacked, hfits, rfl, rfl⟩ := sdoRead_eq_ok.mp h
      refine ⟨rfl, rfl, fun j hj => ?_⟩
      cases hj
      exact ⟨hacked, hfits⟩

/-- The echo is accepted if and only if it is the byte of the method. -/
theorem echo_eq_iff {method : Int8} {echo : List UInt8} :
    (echo.length = 1 ∧ Int8.ofBitVec (echo.headD 0).toBitVec = method) ↔
      echo = rawBytes method := by
  have hraw : rawBytes method = [UInt8.ofBitVec method.toBitVec] := by
    show [octet method.toBitVec 0] = _
    simp [octet]
  rw [hraw]
  constructor
  · rintro ⟨hlen, rfl⟩
    obtain ⟨b, rfl⟩ := List.length_eq_one_iff.mp hlen
    rfl
  · rintro rfl
    exact ⟨rfl, rfl⟩

theorem writeMethod_returns_iff : (∃ s', writeMethod c env s = (.ok (), s')) ↔
    (env.replies .writeMethod).acked = true ∧ (env.replies .readMethod).acked = true ∧
      ((env.replies .writeMethod).effect = true ∨
        s.objects methodObject = rawBytes c.homing.method) := by
  -- The value that is read back.
  have hvalue : (env.written .writeMethod methodObject (rawBytes c.homing.method) s).objects
      methodObject = rawBytes c.homing.method ↔
      ((env.replies .writeMethod).effect = true ∨
        s.objects methodObject = rawBytes c.homing.method) := by
    rw [objects_written]
    split
    · simp_all
    · simp_all
  rw [← hvalue]
  unfold writeMethod
  constructor
  · intro h
    obtain ⟨u, s₁, hwrite, h⟩ := bind_returns.mp h
    obtain ⟨echo, s₂, hread, s', h⟩ := bind_returns.mp h
    obtain ⟨hacked, rfl⟩ := sdoWrite_eq_ok.mp hwrite
    obtain ⟨hechoed, -, rfl, rfl⟩ := sdoRead_eq_ok.mp hread
    split at h
    · cases h
    · rename_i hecho
      obtain ⟨hlen, hgot⟩ := not_or.mp hecho
      exact ⟨hacked, hechoed, echo_eq_iff.mp ⟨not_not.mp hlen, not_not.mp hgot⟩⟩
  · rintro ⟨hacked, hechoed, hecho⟩
    obtain ⟨hlen, hgot⟩ := echo_eq_iff.mpr hecho
    refine bind_returns.mpr ⟨(), _, sdoWrite_eq_ok.mpr ⟨hacked, rfl⟩, bind_returns.mpr ⟨_, _,
      sdoRead_eq_ok.mpr ⟨hechoed, by rw [hlen]; decide, rfl, rfl⟩, ?_⟩⟩
    rw [if_neg (not_or.mpr ⟨not_not.mpr hlen, not_not.mpr hgot⟩)]
    exact ⟨_, rfl⟩

theorem writeSpeeds_returns_iff : (∃ s', writeSpeeds c env s = (.ok (), s')) ↔
    (env.replies .writeSpeed).acked = true ∧
      (lt (.fin 0) c.homing.accelRpmPerS = true → (env.replies .writeAccel).acked = true) := by
  unfold writeSpeeds
  constructor
  · intro h
    obtain ⟨u, s₁, hwrite, s', h⟩ := bind_returns.mp h
    refine ⟨(sdoWrite_eq_ok.mp hwrite).1, fun haccel => ?_⟩
    rw [if_pos haccel] at h
    exact (sdoWrite_eq_ok.mp h).1
  · rintro ⟨hacked, haccel⟩
    refine bind_returns.mpr ⟨(), _, sdoWrite_eq_ok.mpr ⟨hacked, rfl⟩, ?_⟩
    split
    · rename_i h
      exact ⟨_, sdoWrite_eq_ok.mpr ⟨haccel h, rfl⟩⟩
    · exact ⟨_, rfl⟩

/-- The part ahead of the clamp returns if and only if all that it needs holds, with the bytes of
the torque object when there is one. -/
theorem prepareHoming_returns_iff {t : Option TypeInfo} {saved : List UInt8} :
    (∃ s', prepareHoming c env s = (.ok (t, saved), s')) ↔
      Prepared c env s.objects t ∧
        saved = if t.isSome then s.objects c.torqueObject else [] := by
  unfold prepareHoming
  constructor
  · intro h
    split at h
    · obtain ⟨s', h⟩ := h
      cases h
    · rename_i hmethod
      obtain ⟨t', s₁, htype, h⟩ := bind_returns.mp h
      obtain ⟨saved', s₂, hsave, h⟩ := bind_returns.mp h
      obtain ⟨u, s₃, hwrite, h⟩ := bind_returns.mp h
      obtain ⟨u, s₄, hspeeds, s', h⟩ := bind_returns.mp h
      cases h
      obtain ⟨rfl, hclamped, hfind⟩ := torqueType_eq_ok.mp htype
      obtain ⟨hobjects, hsaved, hfits⟩ := saveTorque_eq_ok hsave
      obtain ⟨hacked, hechoed, hecho⟩ := writeMethod_returns_iff.mp ⟨s₃, hwrite⟩
      obtain ⟨hspeed, haccel⟩ := writeSpeeds_returns_iff.mp ⟨s₄, hspeeds⟩
      refine ⟨?_, hsaved⟩
      exact {
        method := hmethod, clamped := hclamped
        saved := fun i hi => ⟨hfind i hi, hfits i hi⟩
        methodAcked := hacked, echoAcked := hechoed
        echo := hobjects ▸ hecho
        speedAcked := hspeed, accelAcked := haccel }
  · rintro ⟨h, rfl⟩
    rw [if_neg h.method]
    have hsave : ∃ s', saveTorque c env t s =
        (.ok (if t.isSome then s.objects c.torqueObject else []), s') ∧ s'.objects = s.objects := by
      cases t with
      | none => exact ⟨s, rfl, rfl⟩
      | some i =>
          obtain ⟨-, hacked, hfits⟩ := h.saved i rfl
          exact ⟨_, sdoRead_eq_ok.mpr ⟨hacked, hfits, rfl, rfl⟩, rfl⟩
    obtain ⟨s₂, hsave, hobjects⟩ := hsave
    obtain ⟨s₃, hwrite⟩ := (writeMethod_returns_iff (s := s₂)).mpr
      ⟨h.methodAcked, h.echoAcked, hobjects.symm ▸ h.echo⟩
    obtain ⟨s₄, hspeeds⟩ := (writeSpeeds_returns_iff (s := s₃)).mpr ⟨h.speedAcked, h.accelAcked⟩
    have htype : torqueType c s = (.ok t, s) :=
      torqueType_eq_ok.mpr ⟨rfl, h.clamped, fun i hi => (h.saved i hi).1⟩
    exact bind_returns.mpr ⟨t, s, htype,
      bind_returns.mpr ⟨_, s₂, hsave, bind_returns.mpr ⟨(), s₃, hwrite,
        bind_returns.mpr ⟨(), s₄, hspeeds, s₄, rfl⟩⟩⟩⟩

/-! ### A request that fails -/

/-- A transfer that writes. -/
def Transfer.isDownload : Transfer → Bool
  | .download .. => true
  | .upload .. => false

/-- The log only grows. -/
theorem sdoRead_keeps_log (log : List Transfer) (site : Site) (obj : SdoObject) (size : Nat) :
    Keeps (fun s => log <+: s.log) (sdoRead env site obj size) := by
  intro s h
  unfold sdoRead
  dsimp only
  split <;> exact h.trans (List.prefix_append ..)

theorem sdoWrite_keeps_log (log : List Transfer) (site : Site) (obj : SdoObject)
    (bytes : List UInt8) : Keeps (fun s => log <+: s.log) (sdoWrite env site obj bytes) :=
  fun _ h => h.trans (List.prefix_append ..)

/-- When the part ahead of the clamp returns, the method was written. -/
theorem prepareHoming_writes {r : Option TypeInfo × List UInt8}
    (h : prepareHoming c env s = (.ok r, s')) : ∃ t ∈ s'.log, t.isDownload = true := by
  unfold prepareHoming at h
  split at h
  · cases h
  obtain ⟨t, s₁, -, h⟩ := bind_eq_ok.mp h
  obtain ⟨saved, s₂, -, h⟩ := bind_eq_ok.mp h
  obtain ⟨u, s₃, hwrite, h⟩ := bind_eq_ok.mp h
  obtain ⟨u, s₄, hspeeds, h⟩ := bind_eq_ok.mp h
  cases h
  obtain ⟨u, s₅, hmethod, hwrite⟩ := bind_eq_ok.mp hwrite
  obtain ⟨echo, s₆, hecho, hwrite⟩ := bind_eq_ok.mp hwrite
  obtain ⟨-, rfl⟩ := sdoWrite_eq_ok.mp hmethod
  obtain ⟨-, -, -, rfl⟩ := sdoRead_eq_ok.mp hecho
  split at hwrite
  · cases hwrite
  cases hwrite
  have hlog : (env.written .writeMethod methodObject (rawBytes c.homing.method) s₂).log <+:
      s'.log :=
    (writeSpeeds_keeps fun site obj bytes _ _ => sdoWrite_keeps_log _ site obj bytes).of_run
      hspeeds (List.prefix_append ..)
  exact ⟨_, hlog.subset (List.mem_append_right _ (List.mem_singleton.mpr rfl)), rfl⟩

theorem torqueType_of_none (hpercent : lt (.fin 0) c.homing.torquePercent = true)
    (hfind : findType c.torque.type = none) :
    torqueType c = throw (.base ("home: unknown homing torque object type '" ++
      c.torque.type ++ "'")) := by
  rw [torqueType, if_pos hpercent, hfind]

theorem torqueType_of_some (hpercent : lt (.fin 0) c.homing.torquePercent = true) {t : TypeInfo}
    (hfind : findType c.torque.type = some t) : torqueType c = pure (some t) := by
  rw [torqueType, if_pos hpercent, hfind]

/-- With every transfer successful, the part ahead of the clamp returns when the method is set and
the type known. -/
theorem prepareHoming_of_replies (hreplies : ∀ site, env.replies site = ⟨true, true⟩)
    (hmethod : c.homing.method ≠ 0) {t : Option TypeInfo}
    (hclamped : t.isSome = lt (.fin 0) c.homing.torquePercent)
    (hsaved : ∀ i ∈ t, findType c.torque.type = some i ∧
      (s.objects c.torqueObject).length ≤ i.width) :
    ∃ saved s', prepareHoming c env s = (.ok (t, saved), s') := by
  have hacked : ∀ site, (env.replies site).acked = true := fun site => by rw [hreplies]
  have hprepared : Prepared c env s.objects t := {
    method := hmethod, clamped := hclamped
    saved := fun i hi => ⟨(hsaved i hi).1, hacked _, (hsaved i hi).2⟩
    methodAcked := hacked _, echoAcked := hacked _
    echo := .inl (by rw [hreplies])
    speedAcked := hacked _, accelAcked := fun _ => hacked _ }
  obtain ⟨s', h⟩ := prepareHoming_returns_iff.mpr ⟨hprepared, rfl⟩
  exact ⟨_, s', h⟩

/-- The clamp throws if and only if its value does not encode, when its download succeeds. -/
theorem clampTorque_cases (hreplies : ∀ site, env.replies site = ⟨true, true⟩) (i : TypeInfo)
    (s : HomeState) :
    (∃ b, i.encode c.torqueInput = .ok b ∧
      ∃ s', clampTorque c env (some i) s = (.ok (), s')) ∨
    ∃ e, i.encode c.torqueInput = .error e ∧
      clampTorque c env (some i) s = (.error (.codec e), s) := by
  cases hencode : i.encode c.torqueInput with
  | ok b =>
      refine .inl ⟨b, rfl, bind_returns.mpr ⟨b, s, ?_, _, sdoWrite_eq_ok.mpr ⟨?_, rfl⟩⟩⟩
      · rw [encoded, hencode]
      · rw [hreplies]
  | error e =>
      refine .inr ⟨e, rfl, bind_of_error ?_⟩
      rw [encoded, hencode]

/-- The value of the clamp encodes if and only if the type is an integer type and the product is
a number that rounds into its range. -/
theorem torque_encodes_iff {i : TypeInfo} (h : findType c.torque.type = some i) :
    (∃ b, i.encode c.torqueInput = .ok b) ↔
      ∃ lo hi q, integerRange c.torque.type = some (lo, hi) ∧ c.torqueUnits = .fin q ∧
        lo ≤ llround q ∧ llround q ≤ hi := by
  rw [DriveConfig.torqueInput, encode_number_accepts h]
  constructor
  · rintro ⟨lo, hi, hrange, x, hx, hin⟩
    cases hunits : c.torqueUnits with
    | fin q =>
        rw [hunits] at hx
        obtain rfl : llround q = x := by simpa [roundDouble] using hx
        exact ⟨lo, hi, q, hrange, rfl, hin⟩
    | _ =>
        rw [hunits] at hx
        cases hx
  · rintro ⟨lo, hi, q, hrange, hunits, hin⟩
    exact ⟨lo, hi, hrange, llround q, by rw [hunits]; rfl, hin⟩

/-- With every transfer successful, a request that fails has written nothing if and only if it
clamps nothing, or fails ahead of the method, or the product of the limit, as the hardware
multiplies, rounds to an integer that the type of the torque object takes. -/
theorem request_fails_before_writes_iff (c : DriveConfig) (env : HomeEnv)
    (objects : SdoObject → List UInt8) (hreplies : ∀ site, env.replies site = ⟨true, true⟩)
    (hread : ∀ t, findType c.torque.type = some t → (objects c.torqueObject).length ≤ t.width) :
    let r := writeHomingObjects c env { objects := objects }
    (∀ e, r.1 = .error e → ∀ t ∈ r.2.log, t.isDownload = false) ↔
      c.homing.method = 0 ∨ lt (.fin 0) c.homing.torquePercent = false ∨
        findType c.torque.type = none ∨
        ∃ lo hi q, integerRange c.torque.type = some (lo, hi) ∧
          rounded binary64 (mul c.homing.torquePercent c.torque.unitsPerPercent) = .fin q ∧
          lo ≤ llround q ∧ llround q ≤ hi := by
  intro r
  have hunwritten : ∀ e, prepareHoming c env { objects := objects } =
      (.error e, { objects := objects }) → ∀ t ∈ r.2.log, t.isDownload = false := by
    intro e hprepare t ht
    have hr : r = (.error e, { objects := objects }) := bind_of_error hprepare
    rw [hr] at ht
    cases ht
  by_cases hmethod : c.homing.method = 0
  · obtain ⟨e, hprepare⟩ : ∃ e, prepareHoming c env { objects := objects } =
        (.error e, { objects := objects }) := by
      unfold prepareHoming
      rw [if_pos hmethod]
      exact ⟨_, rfl⟩
    exact iff_of_true (fun _ _ => hunwritten e hprepare) (.inl hmethod)
  cases hpercent : lt (.fin 0) c.homing.torquePercent with
  | false =>
      obtain ⟨saved, s', hprepare⟩ := prepareHoming_of_replies (s := { objects := objects })
        hreplies hmethod (t := none) hpercent.symm nofun
      have hr : r = (.ok saved, s') := bind_of_ok hprepare
      refine iff_of_true (fun e he => ?_) (.inr (.inl rfl))
      rw [hr] at he
      cases he
  | true =>
      cases hfind : findType c.torque.type with
      | none =>
          obtain ⟨e, hprepare⟩ : ∃ e, prepareHoming c env { objects := objects } =
              (.error e, { objects := objects }) := by
            unfold prepareHoming
            rw [if_neg hmethod, torqueType_of_none hpercent hfind]
            exact ⟨_, rfl⟩
          exact iff_of_true (fun _ _ => hunwritten e hprepare) (.inr (.inr (.inl rfl)))
      | some i =>
          obtain ⟨saved, s', hprepare⟩ := prepareHoming_of_replies (s := { objects := objects })
            hreplies hmethod (t := some i) hpercent.symm
            (fun j hj => by
              cases hj
              exact ⟨hfind, hread i hfind⟩)
          have hr : r = (clampTorque c env (some i) >>= fun _ => pure saved) s' :=
            bind_of_ok hprepare
          rcases clampTorque_cases hreplies i s' with
            ⟨b, hencode, s'', hclamp⟩ | ⟨e, hencode, hclamp⟩
          · refine iff_of_true (fun e he => ?_)
              (.inr (.inr (.inr ((torque_encodes_iff hfind).mp ⟨b, hencode⟩))))
            rw [hr, bind_of_ok hclamp] at he
            cases he
          · -- The method was written by then.
            obtain ⟨t, ht, hdownload⟩ := prepareHoming_writes hprepare
            rw [bind_of_error hclamp] at hr
            refine iff_of_false (fun h => ?_) ?_
            · have hnone := h _ (by rw [hr]) t (by rw [hr]; exact ht)
              rw [hdownload] at hnone
              cases hnone
            · rintro (h | h | h | h)
              · exact hmethod h
              · cases h
              · cases h
              · obtain ⟨b, hb⟩ := (torque_encodes_iff hfind).mpr h
                rw [hencode] at hb
                cases hb

/-- A drive with homing by a torque limit of half the rated current, in a type of that name. -/
def clampConfig (type : String) : DriveConfig where
  ifname := "eth0"
  motionMode := .profile
  motorRatedCurrentAmps := .fin 1
  countsPerRev := .fin 60
  homing :=
    { method := -1, speedRpm := .fin 10, torquePercent := .fin 50, torqueIndex := 0x2030#16 }
  torque := { type := type }

/-- Every transfer succeeds. -/
def successes : HomeEnv := { replies := fun _ => {}, commandedMode := 1 }

/-- A limit of 500 units fits 16 bits: nothing fails. -/
theorem clamp_in_range :
    let r := writeHomingObjects (clampConfig "u16") successes { objects := fun _ => [0, 0] }
    ∀ e, r.1 = .error e → ∀ t ∈ r.2.log, t.isDownload = false :=
  (request_fails_before_writes_iff (clampConfig "u16") successes (fun _ => [0, 0]) (fun _ => rfl)
    (fun t ht => by cases ht; decide)).mpr
      (.inr (.inr (.inr ⟨0, 65535, 500, rfl, by decide +kernel, by decide +kernel,
        by decide +kernel⟩)))

/-- It does not fit a byte, which the codec finds behind the method and the speed. -/
theorem clamp_out_of_range : ¬∀ (c : DriveConfig) (env : HomeEnv)
    (objects : SdoObject → List UInt8), c.validate = .ok () →
    (∀ site, env.replies site = ⟨true, true⟩) →
    (∀ t, findType c.torque.type = some t → (objects c.torqueObject).length ≤ t.width) →
    let r := writeHomingObjects c env { objects := objects }
    ∀ e, r.1 = .error e → ∀ t ∈ r.2.log, t.isDownload = false := by
  intro h
  have hthrows : (writeHomingObjects (clampConfig "u8") successes
      { objects := fun _ => [0] }).1.toOption = none := by decide +kernel
  cases hr : (writeHomingObjects (clampConfig "u8") successes { objects := fun _ => [0] }).1 with
  | ok saved =>
      rw [hr] at hthrows
      cases hthrows
  | error e =>
      have hwrites := h (clampConfig "u8") successes (fun _ => [0]) (by decide +kernel)
        (fun _ => rfl) (fun t ht => by cases ht; decide) e hr
        (.download .writeMethod methodObject [255] [0] {}) (by decide +kernel)
      cases hwrites

end ViamEthercat.Servo
