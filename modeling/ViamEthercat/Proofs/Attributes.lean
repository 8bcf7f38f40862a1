import ViamEthercat.Proofs.SdoCodec
import ViamEthercat.Servo.Attributes

/-!
# `ViamEthercat.Proofs.Attributes`: integral attributes

Seven attributes are converted to their integer type without a check (`castAttr_run`). Such a
conversion takes the number as it is if and only if the number is whole and in the range of the
type (`castAttr_exact_iff`): `validate` sees the result of it and cannot tell.

The others are safe. What the codec converts is in range when the codec returns (`Converts`), and
`homing.method` is checked first. The emergency-stop code is a number, or a text of which `stoul`
reads a prefix (`estopAttr_run`).
-/

set_option autoImplicit false

namespace ViamEthercat.Servo

open Double Lib Lib.Fallible

/-! ### Runs of a parser -/

theorem ofExcept_eq_ok {α : Type} {x : Except String α} {log log' : List Cast} {a : α} :
    Parse.ofExcept x log = (.ok a, log') ↔ x = .ok a ∧ log = log' := by
  constructor
  · intro h
    exact ⟨congrArg Prod.fst h, congrArg Prod.snd h⟩
  · rintro ⟨rfl, rfl⟩
    rfl

theorem truncate_intCast (n : Int) : truncate n = n := by
  unfold truncate
  split <;> simp

/-- Every conversion that `p` makes on its way to a result is in range. -/
def Converts {α : Type} (p : Parse α) : Prop :=
  ∀ log a log', p log = (.ok a, log') → ∃ casts, log' = log ++ casts ∧ ∀ k ∈ casts, k.InRange

section
variable {α β : Type}

theorem converts_ofExcept (x : Except String α) : Converts (Parse.ofExcept x) := by
  intro log a log' h
  obtain ⟨-, rfl⟩ := ofExcept_eq_ok.mp h
  exact ⟨[], by simp, by simp⟩

theorem converts_pure (a : α) : Converts (pure a) := converts_ofExcept (.ok a)

theorem converts_throw (e : String) : Converts (throw e : Parse α) := by
  intro log a log' h
  cases h

theorem Converts.bind {p : Parse α} {f : α → Parse β} (hp : Converts p)
    (hf : ∀ a, Converts (f a)) : Converts (p >>= f) := by
  intro log b log'' h
  obtain ⟨a, log', ha, hb⟩ := bind_eq_ok.mp h
  obtain ⟨first, rfl, hfirst⟩ := hp _ _ _ ha
  obtain ⟨rest, rfl, hrest⟩ := hf a _ _ _ hb
  refine ⟨first ++ rest, List.append_assoc .., ?_⟩
  intro k hk
  exact (List.mem_append.mp hk).elim (hfirst k) (hrest k)

theorem converts_mapM {f : α → Parse β} (hf : ∀ x, Converts (f x)) (xs : List α) :
    Converts (xs.mapM f) := by
  induction xs with
  | nil => exact converts_pure []
  | cons x xs ih =>
      rw [List.mapM_cons]
      exact (hf x).bind fun y => ih.bind fun ys => converts_pure (y :: ys)

end

variable {undef : Cast → Int}

/-- The conversion of a whole number of the type gives this number. -/
theorem cast_whole (undef : Cast → Int) {T : Type} [IntScalar T] {n : Int}
    (hlo : IntScalar.lo T ≤ n) (hhi : n ≤ IntScalar.hi T) :
    Cast.InRange ⟨.fin n, IntScalar.lo T, IntScalar.hi T⟩ ∧ IntScalar.toInt
      (IntScalar.ofInt (Cast.result undef ⟨.fin n, IntScalar.lo T, IntScalar.hi T⟩) : T) = n := by
  have hin : IntScalar.lo T ≤ truncate n ∧ truncate n ≤ IntScalar.hi T := by
    rw [truncate_intCast]
    exact ⟨hlo, hhi⟩
  refine ⟨hin, ?_⟩
  unfold Cast.result
  dsimp only
  rw [if_pos hin, truncate_intCast, IntScalar.toInt_ofInt n hlo hhi]

theorem staticCast_run {T : Type} [IntScalar T] {d : Double} {log log' : List Cast} {x : T}
    (h : staticCast undef T d log = (.ok x, log')) :
    x = IntScalar.ofInt (Cast.result undef ⟨d, IntScalar.lo T, IntScalar.hi T⟩) ∧
      log' = log ++ [⟨d, IntScalar.lo T, IntScalar.hi T⟩] :=
  ⟨(Except.ok.inj (congrArg Prod.fst h)).symm, (congrArg Prod.snd h).symm⟩

/-! ### Objects -/

/-- What the codec has encoded it decodes to a number of the type. -/
theorem decodeInt_number {T : Type} [IntScalar T] {bytes : List UInt8} {d : Decoded}
    (h : decodeInt T bytes = .ok d) :
    ∃ x : Int, d.number = some (.fin x) ∧ IntScalar.lo T ≤ x ∧ x ≤ IntScalar.hi T := by
  unfold decodeInt at h
  split at h
  · cases h
  · obtain rfl := Except.ok.inj h
    exact ⟨_, rfl, IntScalar.toInt_mem _⟩

theorem ofCodec_eq_ok {α : Type} {x : Except CodecError α} {log log' : List Cast} {a : α} :
    Parse.ofCodec x log = (.ok a, log') ↔ x = .ok a ∧ log = log' := by
  unfold Parse.ofCodec
  rw [ofExcept_eq_ok]
  cases x with
  | error e => simp [Except.mapError]
  | ok b => simp [Except.mapError]

/-- `small_uint` with a type of the table whose values a `uint32_t` holds. -/
theorem converts_smallUint {type : String} {lo hi : Int} (v : ProtoValue) (key : String)
    {T : Type} [IntScalar T] (hrange : integerRange type = some (lo, hi))
    (htype : (findType type).map TypeInfo.decode = some (decodeInt T))
    (hlo : 0 ≤ IntScalar.lo T) (hhi : IntScalar.hi T ≤ 4294967295) (hcodec : -2 ^ 63 ≤ lo)
    (hcodec' : hi ≤ 2 ^ 63 - 1) : Converts (smallUint undef v key type) := by
  intro log n log' h
  obtain ⟨t, ht, hdecode⟩ := Option.map_eq_some_iff.mp htype
  unfold smallUint at h
  rw [ht] at h
  obtain ⟨input, l₁, hread, hrest⟩ := bind_eq_ok.mp h
  obtain ⟨hinput, rfl⟩ := ofExcept_eq_ok.mp hread
  obtain ⟨_, l₂, hcast, hrest⟩ := bind_eq_ok.mp hrest
  obtain ⟨bytes, l₃, hencoded, hrest⟩ := bind_eq_ok.mp hrest
  obtain ⟨hencode, rfl⟩ := ofCodec_eq_ok.mp hencoded
  obtain ⟨decoded, l₄, hread', hrest⟩ := bind_eq_ok.mp hrest
  obtain ⟨hdecoded, rfl⟩ := ofCodec_eq_ok.mp hread'
  rw [hdecode] at hdecoded
  obtain ⟨x, hx, hxlo, hxhi⟩ := decodeInt_number hdecoded
  rw [hx] at hrest
  -- The number that was decoded, converted to `uint32_t`.
  have hlast : log' = l₂ ++ [⟨.fin x, 0, 4294967295⟩] := (congrArg Prod.snd hrest).symm
  have hxin : Cast.InRange ⟨.fin x, 0, 4294967295⟩ := by
    show 0 ≤ truncate x ∧ truncate x ≤ 4294967295
    rw [truncate_intCast]
    omega
  -- The number that was encoded, converted to `int64_t`.
  have hfirst : ∃ casts, l₂ = log ++ casts ∧ ∀ k ∈ casts, k.InRange := by
    have hl₂ : l₂ = (codecCast input log).2 := (congrArg Prod.snd hcast).symm
    unfold codecCast at hl₂
    cases hnumber : input.number with
    | none =>
        rw [hnumber] at hl₂
        exact ⟨[], by simpa using hl₂, by simp⟩
    | some d =>
        rw [hnumber] at hl₂
        dsimp only at hl₂
        split at hl₂
        · refine ⟨_, hl₂, ?_⟩
          rintro k hk
          obtain rfl := List.mem_singleton.mp hk
          have hvalue : input = { number := some d } := by
            unfold inputOf at hinput
            split at hinput
            · obtain rfl := Except.ok.inj hinput
              rw [← hnumber]
            · obtain rfl := Except.ok.inj hinput
              cases hnumber
            · cases hinput
          rw [hvalue] at hencode
          obtain ⟨lo', hi', hrange', y, rfl, hylo, hyhi⟩ :=
            (encode_number_accepts ht d).mp ⟨bytes, hencode⟩
          obtain ⟨rfl, rfl⟩ := Prod.mk.inj (Option.some.inj (hrange.symm.trans hrange'))
          show -2 ^ 63 ≤ truncate y ∧ truncate y ≤ 2 ^ 63 - 1
          rw [truncate_intCast]
          exact ⟨hcodec.trans hylo, hyhi.trans hcodec'⟩
        · exact ⟨[], by simpa using hl₂, by simp⟩
  obtain ⟨casts, rfl, hcasts⟩ := hfirst
  refine ⟨casts ++ [⟨.fin x, 0, 4294967295⟩], ?_, ?_⟩
  · rw [hlast, List.append_assoc]
  · intro k hk
    rcases List.mem_append.mp hk with hk | hk
    · exact hcasts k hk
    · obtain rfl := List.mem_singleton.mp hk
      exact hxin

theorem converts_u16 (v : ProtoValue) (key : String) : Converts (smallUint undef v key "u16") :=
  converts_smallUint (T := UInt16) v key rfl rfl (by decide) (by decide) (by decide) (by decide)

theorem converts_u8 (v : ProtoValue) (key : String) : Converts (smallUint undef v key "u8") :=
  converts_smallUint (T := UInt8) v key rfl rfl (by decide) (by decide) (by decide) (by decide)

theorem converts_objectRef (o : ProtoStruct) (place : String) (r : ObjectRef) :
    Converts (objectRef undef o place r) := by
  unfold objectRef
  cases findAttr o "index" with
  | none => exact converts_throw _
  | some i =>
      refine (converts_u16 i _).bind fun index => ?_
      refine Converts.bind ?_ fun sub => (converts_ofExcept _).bind fun type => ?_
      · unfold objectSub
        cases findAttr o "sub" with
        | none => exact converts_pure _
        | some s => exact (converts_u8 s _).bind fun n => converts_pure _
      · dsimp only
        split
        · exact converts_throw _
        · exact converts_pure _

theorem converts_absoluteEncoderAttr (attrs : ProtoStruct) :
    Converts (absoluteEncoderAttr undef attrs) := by
  unfold absoluteEncoderAttr
  split
  · exact converts_pure _
  · split
    · exact converts_throw _
    · refine (converts_objectRef _ _ _).bind fun r => Converts.bind ?_ fun codes => converts_pure _
      unfold invalidCodes
      split
      · exact converts_pure _
      · split
        · exact converts_throw _
        · exact converts_mapM (fun code => (converts_u16 code _).bind fun n => converts_pure _) _

theorem converts_torqueObject (o : ProtoStruct) : Converts (torqueObject undef o) := by
  unfold torqueObject
  split
  · exact converts_pure _
  · refine (converts_objectRef _ _ _).bind fun r => ?_
    exact (converts_ofExcept _).bind fun units => converts_pure _

/-! ### Exact attributes -/

/-- An attribute that is present is the number `n`. -/
def GivenAs (s : ProtoStruct) (key : String) (n : Int) : Prop :=
  ∀ v, findAttr s key = some v → v = .number (.fin n)

/-- An attribute that is present is a whole number from `lo` to `hi`. -/
def WholeIn (s : ProtoStruct) (key : String) (lo hi : Int) : Prop :=
  ∀ v, findAttr s key = some v → ∃ n : Int, v = .number (.fin n) ∧ lo ≤ n ∧ n ≤ hi

/-- The conversion of an attribute. -/
def castOf (T : Type) [IntScalar T] (s : ProtoStruct) (key : String) (dflt : Double) : Cast :=
  ⟨((findAttr s key).bind ProtoValue.getNumber).getD dflt, IntScalar.lo T, IntScalar.hi T⟩

theorem getNumber_eq_some {v : ProtoValue} {d : Double} :
    v.getNumber = some d ↔ v = .number d := by
  cases v <;> simp [ProtoValue.getNumber]

theorem reqNum_eq_ok {s : ProtoStruct} {key : String} {d : Double} (h : reqNum s key = .ok d) :
    findAttr s key = some (.number d) := by
  unfold reqNum reqAttr optAttr at h
  cases hv : findAttr s key with
  | none =>
      rw [hv] at h
      cases h
  | some v =>
      rw [hv] at h
      cases hd : v.getNumber with
      | none =>
          simp only [hd] at h
          cases h
      | some d' =>
          simp only [hd] at h
          obtain rfl := Except.ok.inj h
          rw [getNumber_eq_some.mp hd]

theorem optNum_eq_ok {s : ProtoStruct} {key : String} {d dflt : Double}
    (h : optNum s key dflt = .ok d) :
    ((findAttr s key).bind ProtoValue.getNumber).getD dflt = d := by
  unfold optNum optAttr at h
  cases hv : findAttr s key with
  | none =>
      rw [hv] at h
      exact Except.ok.inj h
  | some v =>
      rw [hv] at h
      cases hd : v.getNumber with
      | none =>
          simp only [hd] at h
          cases h
      | some d' =>
          simp only [hd] at h
          simpa [hd] using Except.ok.inj h

section
variable {T : Type} [IntScalar T] {s : ProtoStruct} {key : String}

/-- An attribute that is converted without a check. -/
theorem castAttr_run {dflt : Double} {log log' : List Cast} {x : T}
    (h : castAttr undef T s key dflt log = (.ok x, log')) :
    x = IntScalar.ofInt ((castOf T s key dflt).result undef) ∧
      log' = log ++ [castOf T s key dflt] := by
  obtain ⟨d, l, hread, hcast⟩ := bind_eq_ok.mp h
  obtain ⟨hd, rfl⟩ := ofExcept_eq_ok.mp hread
  unfold castOf
  rw [optNum_eq_ok hd]
  exact staticCast_run hcast

/-- The integer that is stored for an attribute. -/
def taken (undef : Cast → Int) (T : Type) [IntScalar T] (s : ProtoStruct) (key : String)
    (dflt : Double) : Int :=
  IntScalar.toInt (IntScalar.ofInt ((castOf T s key dflt).result undef) : T)

/-- An attribute that is the value of its type is whole and in range. -/
theorem wholeIn_of_given {dflt : Double} (h : GivenAs s key (taken undef T s key dflt)) :
    WholeIn s key (IntScalar.lo T) (IntScalar.hi T) := fun v hv =>
  ⟨_, h v hv, IntScalar.toInt_mem _⟩

/-- A whole attribute is taken as it is, with a conversion in range. -/
theorem taken_of_whole (undef : Cast → Int) (T : Type) [IntScalar T] (dflt : Int) {lo hi : Int}
    (hwhole : WholeIn s key lo hi) (hdflt : lo ≤ dflt ∧ dflt ≤ hi) (hlo : IntScalar.lo T ≤ lo)
    (hhi : hi ≤ IntScalar.hi T) :
    GivenAs s key (taken undef T s key (.fin dflt)) ∧ lo ≤ taken undef T s key (.fin dflt) ∧
      (castOf T s key (.fin dflt)).InRange := by
  -- The number that is converted, whether the attribute is present or not.
  obtain ⟨n, hn, hgiven, hnlo, hnhi⟩ : ∃ n : Int, castOf T s key (.fin dflt) =
      ⟨.fin n, IntScalar.lo T, IntScalar.hi T⟩ ∧ GivenAs s key n ∧ lo ≤ n ∧ n ≤ hi := by
    unfold GivenAs
    cases hv : findAttr s key with
    | none => exact ⟨dflt, by rw [castOf, hv]; rfl, by simp, hdflt⟩
    | some v =>
        obtain ⟨n, rfl, hn⟩ := hwhole v hv
        exact ⟨n, by rw [castOf, hv]; rfl, by simp, hn⟩
  obtain ⟨hin, htake⟩ := cast_whole undef (hlo.trans hnlo) (hnhi.trans hhi)
  unfold taken
  rw [hn, htake]
  exact ⟨hgiven, hnlo, hin⟩

end

/-! ### The homing method -/

theorem neq_trunc_eq_false {d : Double} (h : neq d (trunc d) = false) :
    d.isFinite = false ∨ ∃ n : Int, d = .fin n := by
  cases d with
  | nan => exact .inl rfl
  | inf a => exact .inl rfl
  | fin q =>
      right
      have hq : Double.fin q = .fin (truncate q) := by simpa [neq, trunc, isNan] using h
      exact ⟨truncate q, hq⟩

/-- A method that passes the check is a whole number of an `int8_t`. -/
theorem method_of_check {d : Double} (h : badMethod d = false) :
    ∃ n : Int, d = .fin n ∧ -128 ≤ n ∧ n ≤ 127 := by
  simp only [badMethod, Bool.or_eq_false_iff] at h
  obtain ⟨⟨⟨hlo, hhi⟩, htrunc⟩, -⟩ := h
  cases d with
  | nan => simp [neq, isNan] at htrunc
  | inf a => cases a <;> simp [lt] at hlo hhi
  | fin q =>
      obtain hfin | ⟨n, hn⟩ := neq_trunc_eq_false htrunc
      · cases hfin
      · obtain rfl := Double.fin.inj hn
        refine ⟨n, rfl, ?_, ?_⟩
        · have hle : (-128 : ℚ) ≤ n := by simpa [lt] using hlo
          exact_mod_cast hle
        · have hle : (n : ℚ) ≤ 127 := by simpa [lt] using hhi
          exact_mod_cast hle

/-- The homing block takes its method as it is, and converts nothing out of range. -/
theorem homingAttr_run {attrs : ProtoStruct} {log log' : List Cast}
    {r : HomingConfig × TorqueObject} (h : homingAttr undef attrs log = (.ok r, log')) :
    (∀ o, nested attrs "homing" = some o → GivenAs o "method" r.1.method.toInt) ∧
      ∃ casts, log' = log ++ casts ∧ ∀ k ∈ casts, k.InRange := by
  unfold homingAttr at h
  unfold nested
  cases hv : findAttr attrs "homing" with
  | none =>
      rw [hv] at h
      obtain ⟨-, rfl⟩ := ofExcept_eq_ok.mp h
      exact ⟨by simp, [], by simp, by simp⟩
  | some v =>
      rw [hv] at h
      cases hs : v.getStruct with
      | none =>
          simp only [hs] at h
          cases h
      | some o =>
          simp only [hs] at h
          obtain ⟨d, l₁, hread, hrest⟩ := bind_eq_ok.mp h
          obtain ⟨hd, rfl⟩ := ofExcept_eq_ok.mp hread
          cases hbad : badMethod d with
          | true =>
              rw [hbad] at hrest
              cases hrest
          | false =>
              rw [hbad] at hrest
              obtain ⟨method, l₂, hcast, hrest⟩ := bind_eq_ok.mp hrest
              obtain ⟨n, rfl, hlo, hhi⟩ := method_of_check hbad
              obtain ⟨rfl, rfl⟩ := staticCast_run hcast
              obtain ⟨hin, hmethod⟩ := cast_whole undef (T := Int8) hlo hhi
              obtain ⟨_, l₃, hspeed, hrest⟩ := bind_eq_ok.mp hrest
              obtain ⟨-, rfl⟩ := ofExcept_eq_ok.mp hspeed
              obtain ⟨_, l₄, haccel, hrest⟩ := bind_eq_ok.mp hrest
              obtain ⟨-, rfl⟩ := ofExcept_eq_ok.mp haccel
              obtain ⟨_, l₅, hpercent, hrest⟩ := bind_eq_ok.mp hrest
              obtain ⟨-, rfl⟩ := ofExcept_eq_ok.mp hpercent
              obtain ⟨_, l₆, htimeout, hrest⟩ := bind_eq_ok.mp hrest
              obtain ⟨-, rfl⟩ := ofExcept_eq_ok.mp htimeout
              obtain ⟨torque, l₇, htorque, hrest⟩ := bind_eq_ok.mp hrest
              obtain ⟨hr, rfl⟩ := ofExcept_eq_ok.mp hrest
              obtain rfl := Except.ok.inj hr
              obtain ⟨casts, rfl, hcasts⟩ := converts_torqueObject o _ _ _ htorque
              refine ⟨?_, _, List.append_assoc .., ?_⟩
              · intro o' ho'
                obtain rfl : o = o' := by simpa [hs] using ho'
                intro w hw
                rw [reqNum_eq_ok hd] at hw
                exact (Option.some.inj hw).symm.trans
                  (congrArg (fun x : Int => ProtoValue.number (.fin x)) hmethod.symm)
              · intro k hk
                rcases List.mem_append.mp hk with hk | hk
                · obtain rfl := List.mem_singleton.mp hk
                  exact hin
                · exact hcasts k hk

/-! ### The emergency-stop code -/

/-- The number that a text is from its first to its last character: white space, a sign, the
prefix of a base and digits. -/
def wholeNumber (t : Text) : Option Int :=
  let s := t.dropWhile isSpace
  let neg := decide (s.head? = some (ch '-'))
  let (base, ds) := baseOf (if neg || decide (s.head? = some (ch '+')) then s.tail else s)
  if IsDigits base ds then some (signed neg (digitsValue base ds)) else none

/-- A code is given as a number, or as a text that is one. -/
def CodeOf : ProtoValue → Int → Prop
  | .number d, n => d = .fin n
  | .string t, n => wholeNumber t = some n
  | _, _ => False

/-- `stoul` reads a text that is a number as this number. -/
theorem stoul_of_wholeNumber {t : Text} {n : Nat} (h : wholeNumber t = some n)
    (hn : n < 2 ^ 64) : stoul t = some (n, []) := by
  unfold wholeNumber at h
  unfold stoul
  dsimp only at h ⊢
  generalize decide ((t.dropWhile isSpace).head? = some (ch '-')) = neg at h ⊢
  generalize baseOf _ = r at h ⊢
  obtain ⟨base, ds⟩ := r
  dsimp only at h ⊢
  split at h
  · rename_i hds
    have hvalue : digitsValue base ds = n := by
      have hsigned := Option.some.inj h
      unfold signed at hsigned
      split at hsigned <;> omega
    rw [takeWhile_of_isDigits hds, dropWhile_of_isDigits hds, hvalue,
      if_neg (not_or.mpr ⟨hds.1, by omega⟩)]
    cases neg with
    | false => rfl
    | true =>
        -- The only number that is its own negative.
        obtain rfl : n = 0 := by
          have hsigned := Option.some.inj h
          rw [hvalue] at hsigned
          simp only [signed, if_pos] at hsigned
          omega
        rfl
  · cases h

/-- The emergency-stop code, when it is present, is a number of 16 bits. -/
def EstopIsCode (attrs : ProtoStruct) : Prop :=
  ∀ v, findAttr attrs "emergency_stop_fault_code" = some v →
    ∃ n : Int, CodeOf v n ∧ 0 ≤ n ∧ n ≤ 65535

/-- What is read of an attribute that is a code. -/
theorem estopCode_run {v : ProtoValue} {m : Nat} {log log' : List Cast}
    (h : estopCode undef v log = (.ok m, log')) :
    ∃ casts, log' = log ++ casts ∧ ∀ n : Int, CodeOf v n → 0 ≤ n → n ≤ 65535 →
      (m : Int) = n ∧ ∀ k ∈ casts, k.InRange := by
  unfold estopCode at h
  cases v with
  | number d =>
      obtain ⟨x, l, hcast, hrest⟩ := bind_eq_ok.mp h
      obtain ⟨rfl, rfl⟩ := staticCast_run hcast
      obtain ⟨hm, rfl⟩ := ofExcept_eq_ok.mp hrest
      obtain rfl := Except.ok.inj hm
      refine ⟨_, rfl, ?_⟩
      rintro n rfl hlo hhi
      obtain ⟨hin, hn⟩ := cast_whole undef (T := UInt64) hlo
        (hhi.trans (by decide))
      refine ⟨hn, ?_⟩
      intro k hk
      obtain rfl := List.mem_singleton.mp hk
      exact hin
  | string t =>
      cases hstoul : stoul t with
      | none =>
          simp only [hstoul] at h
          cases h
      | some r =>
          simp only [hstoul] at h
          obtain ⟨hm, rfl⟩ := ofExcept_eq_ok.mp h
          obtain rfl := Except.ok.inj hm
          refine ⟨[], by simp, ?_⟩
          intro n hn hlo hhi
          lift n to Nat using hlo
          rw [stoul_of_wholeNumber hn (by omega)] at hstoul
          obtain rfl := Option.some.inj hstoul
          exact ⟨rfl, by simp⟩
  | null => exact ⟨[], by rw [List.append_nil]; exact (congrArg Prod.snd h).symm, nofun⟩
  | bool b => exact ⟨[], by rw [List.append_nil]; exact (congrArg Prod.snd h).symm, nofun⟩
  | list vs => exact ⟨[], by rw [List.append_nil]; exact (congrArg Prod.snd h).symm, nofun⟩
  | struct fields => exact ⟨[], by rw [List.append_nil]; exact (congrArg Prod.snd h).symm, nofun⟩

/-- The code of an attribute that is one is taken, without a conversion out of range. -/
theorem estopAttr_run {attrs : ProtoStruct} {log log' : List Cast} {code : BitVec 16}
    (h : estopAttr undef attrs log = (.ok code, log')) :
    ∃ casts, log' = log ++ casts ∧
      (EstopIsCode attrs →
        (∀ v, findAttr attrs "emergency_stop_fault_code" = some v → CodeOf v code.toNat) ∧
          ∀ k ∈ casts, k.InRange) := by
  unfold estopAttr at h
  cases hv : findAttr attrs "emergency_stop_fault_code" with
  | none =>
      rw [hv] at h
      obtain ⟨-, rfl⟩ := ofExcept_eq_ok.mp h
      exact ⟨[], by simp, by simp⟩
  | some v =>
      rw [hv] at h
      obtain ⟨m, l, hcode, hrest⟩ := bind_eq_ok.mp h
      obtain ⟨casts, rfl, hread⟩ := estopCode_run hcode
      split at hrest
      · cases hrest
      · rename_i hfit
        obtain ⟨hbits, rfl⟩ := ofExcept_eq_ok.mp hrest
        obtain rfl := Except.ok.inj hbits
        refine ⟨casts, rfl, fun hcode' => ?_⟩
        obtain ⟨n, hn, hlo, hhi⟩ := hcode' v hv
        obtain ⟨hm, hcasts⟩ := hread n hn hlo hhi
        refine ⟨?_, hcasts⟩
        intro w hw
        obtain rfl := Option.some.inj hw
        have hmod : ((BitVec.ofNat 16 m).toNat : Int) = n := by
          rw [BitVec.toNat_ofNat]
          omega
        rwa [hmod]

/-! ### The configuration -/

/-- The conversions that are made without a check. -/
def uncheckedCasts (attrs : ProtoStruct) : List Cast :=
  [castOf UInt16 attrs "slave" (.fin 1), castOf Int32 attrs "position_tolerance_counts" (.fin 0),
    castOf UInt32 attrs "loop_rate_hz" (.fin 1000), castOf Int32 attrs "rt_priority" (.fin 80),
    castOf UInt32 attrs "sync_cycle_granularity_ns" (.fin 0),
    castOf Int32 attrs "max_consecutive_wkc_errors" (.fin 5),
    castOf UInt64 attrs "command_queue_capacity" (.fin 64)]

/-- What `config_from_attrs` has read when it returns. -/
structure Parsed (undef : Cast → Int) (attrs : ProtoStruct) (c : DriveConfig) (log : List Cast) :
    Prop where
  slave : (c.slaveId : Int) = taken undef UInt16 attrs "slave" (.fin 1)
  tolerance : c.positionToleranceCounts.toInt =
    taken undef Int32 attrs "position_tolerance_counts" (.fin 0)
  rate : (c.targetLoopRateHz : Int) = taken undef UInt32 attrs "loop_rate_hz" (.fin 1000)
  priority : c.rtPriority = taken undef Int32 attrs "rt_priority" (.fin 80)
  granularity : (c.syncCycleGranularityNs.toNat : Int) =
    taken undef UInt32 attrs "sync_cycle_granularity_ns" (.fin 0)
  wkcErrors : c.maxConsecutiveWkcErrors.toInt =
    taken undef Int32 attrs "max_consecutive_wkc_errors" (.fin 5)
  queue : (c.commandQueueCapacity : Int) =
    taken undef UInt64 attrs "command_queue_capacity" (.fin 64)
  method : ∀ o, nested attrs "homing" = some o → GivenAs o "method" c.homing.method.toInt
  estop : EstopIsCode attrs → ∀ v, findAttr attrs "emergency_stop_fault_code" = some v →
    CodeOf v c.estopFaultCode.toNat
  quickStop : quickStopDecel attrs c.countsPerRev c.gearRatio = .ok c.quickStopDecel
  valid : c.validate = .ok ()
  unchecked : ∀ k ∈ uncheckedCasts attrs, k ∈ log
  checked : EstopIsCode attrs → (∀ k ∈ uncheckedCasts attrs, k.InRange) → ∀ k ∈ log, k.InRange

theorem configFromAttrs_run {attrs : ProtoStruct} {mode : MotionModeKind} {c : DriveConfig}
    {log : List Cast} (h : configFromAttrs undef attrs mode [] = (.ok c, log)) :
    Parsed undef attrs c log := by
  unfold configFromAttrs at h
  obtain ⟨ifname, l, hread, h⟩ := bind_eq_ok.mp h
  obtain ⟨-, rfl⟩ := ofExcept_eq_ok.mp hread
  obtain ⟨slave, l, hread, h⟩ := bind_eq_ok.mp h
  obtain ⟨rfl, rfl⟩ := castAttr_run hread
  obtain ⟨motionMode, l, hread, h⟩ := bind_eq_ok.mp h
  obtain ⟨-, rfl⟩ := ofExcept_eq_ok.mp hread
  obtain ⟨maxSpeed, l, hread, h⟩ := bind_eq_ok.mp h
  obtain ⟨-, rfl⟩ := ofExcept_eq_ok.mp hread
  obtain ⟨maxAccel, l, hread, h⟩ := bind_eq_ok.mp h
  obtain ⟨-, rfl⟩ := ofExcept_eq_ok.mp hread
  obtain ⟨counts, l, hread, h⟩ := bind_eq_ok.mp h
  obtain ⟨-, rfl⟩ := ofExcept_eq_ok.mp hread
  obtain ⟨current, l, hread, h⟩ := bind_eq_ok.mp h
  obtain ⟨-, rfl⟩ := ofExcept_eq_ok.mp hread
  obtain ⟨gear, l, hread, h⟩ := bind_eq_ok.mp h
  obtain ⟨-, rfl⟩ := ofExcept_eq_ok.mp hread
  obtain ⟨encoder, l, hread, h⟩ := bind_eq_ok.mp h
  obtain ⟨encoderCasts, rfl, hencoder⟩ := converts_absoluteEncoderAttr attrs _ _ _ hread
  obtain ⟨homing, l, hread, h⟩ := bind_eq_ok.mp h
  obtain ⟨hmethod, homingCasts, rfl, hhoming⟩ := homingAttr_run hread
  obtain ⟨estop, l, hread, h⟩ := bind_eq_ok.mp h
  obtain ⟨estopCasts, rfl, hestop⟩ := estopAttr_run hread
  obtain ⟨quickStop, l, hread, h⟩ := bind_eq_ok.mp h
  obtain ⟨hquickStop, rfl⟩ := ofExcept_eq_ok.mp hread
  obtain ⟨tolerance, l, hread, h⟩ := bind_eq_ok.mp h
  obtain ⟨rfl, rfl⟩ := castAttr_run hread
  obtain ⟨rate, l, hread, h⟩ := bind_eq_ok.mp h
  obtain ⟨rfl, rfl⟩ := castAttr_run hread
  obtain ⟨realtime, l, hread, h⟩ := bind_eq_ok.mp h
  obtain ⟨-, rfl⟩ := ofExcept_eq_ok.mp hread
  obtain ⟨priority, l, hread, h⟩ := bind_eq_ok.mp h
  obtain ⟨rfl, rfl⟩ := castAttr_run hread
  obtain ⟨clocks, l, hread, h⟩ := bind_eq_ok.mp h
  obtain ⟨-, rfl⟩ := ofExcept_eq_ok.mp hread
  obtain ⟨granularity, l, hread, h⟩ := bind_eq_ok.mp h
  obtain ⟨rfl, rfl⟩ := castAttr_run hread
  obtain ⟨wkcErrors, l, hread, h⟩ := bind_eq_ok.mp h
  obtain ⟨rfl, rfl⟩ := castAttr_run hread
  obtain ⟨queue, l, hread, h⟩ := bind_eq_ok.mp h
  obtain ⟨rfl, rfl⟩ := castAttr_run hread
  obtain ⟨_, l, hread, h⟩ := bind_eq_ok.mp h
  obtain ⟨hvalid, rfl⟩ := ofExcept_eq_ok.mp hread
  obtain ⟨hc, rfl⟩ := ofExcept_eq_ok.mp h
  obtain rfl := Except.ok.inj hc
  refine ⟨rfl, rfl, rfl, rfl, rfl, rfl, rfl, hmethod, fun hcode => (hestop hcode).1, hquickStop,
    hvalid, ?_, ?_⟩
  · intro k hk
    simp only [uncheckedCasts, List.mem_cons, List.not_mem_nil, or_false] at hk
    simp only [List.mem_append, List.mem_singleton]
    rcases hk with rfl | rfl | rfl | rfl | rfl | rfl | rfl <;> simp only [true_or, or_true]
  · intro hcode hunchecked k hk
    simp only [uncheckedCasts, List.mem_cons, List.not_mem_nil, or_false,
      forall_eq_or_imp, forall_eq] at hunchecked
    simp only [List.mem_append, List.mem_singleton, List.not_mem_nil, false_or] at hk
    obtain ⟨hslave, htolerance, hrate, hpriority, hgranularity, hwkc, hqueue⟩ := hunchecked
    rcases hk with ((((((((rfl | hk) | hk) | hk) | rfl) | rfl) | rfl) | rfl) | rfl) | rfl
    · exact hslave
    · exact hencoder k hk
    · exact hhoming k hk
    · exact (hestop hcode).2 k hk
    · exact htolerance
    · exact hrate
    · exact hpriority
    · exact hgranularity
    · exact hwkc
    · exact hqueue

/-- The integers of the configuration are the numbers that were given, every conversion was in
range, and the master latches a fault at the configured count, which is at least 1. -/
structure TakenExactly (attrs : ProtoStruct) (c : DriveConfig) (log : List Cast) : Prop where
  slave : GivenAs attrs "slave" c.slaveId
  rate : GivenAs attrs "loop_rate_hz" c.targetLoopRateHz
  priority : GivenAs attrs "rt_priority" c.rtPriority
  tolerance : GivenAs attrs "position_tolerance_counts" c.positionToleranceCounts.toInt
  granularity : GivenAs attrs "sync_cycle_granularity_ns" c.syncCycleGranularityNs.toNat
  wkcErrors : GivenAs attrs "max_consecutive_wkc_errors" c.maxConsecutiveWkcErrors.toInt
  queue : GivenAs attrs "command_queue_capacity" c.commandQueueCapacity
  estop : ∀ v, findAttr attrs "emergency_stop_fault_code" = some v →
    CodeOf v c.estopFaultCode.toNat
  method : ∀ o, nested attrs "homing" = some o → GivenAs o "method" c.homing.method.toInt
  casts : ∀ k ∈ log, k.InRange
  threshold : (c.masterConfig.maxConsecutiveWkcErrors.toNat : Int) =
    c.maxConsecutiveWkcErrors.toInt ∧ 1 ≤ c.masterConfig.maxConsecutiveWkcErrors.toNat

/-- The condition: what is present of the unchecked attributes is whole and in the range of its
type, the latch threshold at least 1, and the emergency-stop code a number of 16 bits. -/
structure IntegralAttrs (attrs : ProtoStruct) : Prop where
  slave : WholeIn attrs "slave" 0 65535
  rate : WholeIn attrs "loop_rate_hz" 0 4294967295
  priority : WholeIn attrs "rt_priority" (-2147483648) 2147483647
  tolerance : WholeIn attrs "position_tolerance_counts" (-2147483648) 2147483647
  granularity : WholeIn attrs "sync_cycle_granularity_ns" 0 4294967295
  wkcErrors : WholeIn attrs "max_consecutive_wkc_errors" 1 2147483647
  queue : WholeIn attrs "command_queue_capacity" 0 18446744073709551615
  estop : EstopIsCode attrs

/-- An `int32_t` read as a `uint32_t`. -/
theorem toNat_toUInt32 (x : Int32) :
    (x.toUInt32.toNat : Int) = if 0 ≤ x.toInt then x.toInt else x.toInt + 2 ^ 32 := by
  have hint : x.toInt = if 2 * x.toUInt32.toNat < 2 ^ 32 then (x.toUInt32.toNat : Int)
      else x.toUInt32.toNat - 2 ^ 32 := BitVec.toInt_eq_toNat_cond x.toBitVec
  have hlt := x.toUInt32.toNat_lt
  split at hint <;> split <;> omega

/-- A configuration has the integers that were given if and only if the attributes are integral:
nothing else that was given is refused. -/
theorem integral_attributes_exact_iff (undef : Cast → Int) (attrs : ProtoStruct)
    (mode : MotionModeKind) (c : DriveConfig) (log : List Cast)
    (h : configFromAttrs undef attrs mode [] = (.ok c, log)) :
    TakenExactly attrs c log ↔ IntegralAttrs attrs := by
  have hp := configFromAttrs_run h
  constructor
  · intro hexact
    have hestop : EstopIsCode attrs := fun v hv =>
      ⟨_, hexact.estop v hv, by omega, by have := c.estopFaultCode.isLt; omega⟩
    refine ⟨?_, ?_, ?_, ?_, ?_, ?_, ?_, hestop⟩
    · exact wholeIn_of_given (hp.slave ▸ hexact.slave)
    · exact wholeIn_of_given (hp.rate ▸ hexact.rate)
    · exact wholeIn_of_given (hp.priority ▸ hexact.priority)
    · exact wholeIn_of_given (hp.tolerance ▸ hexact.tolerance)
    · exact wholeIn_of_given (hp.granularity ▸ hexact.granularity)
    · intro v hv
      obtain ⟨heq, hpos⟩ := hexact.threshold
      have hlt := c.maxConsecutiveWkcErrors.toInt_lt
      exact ⟨_, hexact.wkcErrors v hv, by omega, by omega⟩
    · exact wholeIn_of_given (hp.queue ▸ hexact.queue)
  · intro hattrs
    obtain ⟨hslave, -, hslaveIn⟩ := taken_of_whole undef UInt16 1 hattrs.slave
      (by decide) (by decide) (by decide)
    obtain ⟨hrate, -, hrateIn⟩ := taken_of_whole undef UInt32 1000 hattrs.rate
      (by decide) (by decide) (by decide)
    obtain ⟨hpriority, -, hpriorityIn⟩ := taken_of_whole undef Int32 80 hattrs.priority
      (by decide) (by decide) (by decide)
    obtain ⟨htolerance, -, htoleranceIn⟩ := taken_of_whole undef Int32 0 hattrs.tolerance
      (by decide) (by decide) (by decide)
    obtain ⟨hgranularity, -, hgranularityIn⟩ := taken_of_whole undef UInt32 0 hattrs.granularity
      (by decide) (by decide) (by decide)
    obtain ⟨hwkc, hpos, hwkcIn⟩ := taken_of_whole undef Int32 5 hattrs.wkcErrors
      (by decide) (by decide) (by decide)
    obtain ⟨hqueue, -, hqueueIn⟩ := taken_of_whole undef UInt64 64 hattrs.queue
      (by decide) (by decide) (by decide)
    refine ⟨?_, ?_, ?_, ?_, ?_, ?_, ?_, hp.estop hattrs.estop, hp.method, ?_, ?_⟩
    · rwa [hp.slave]
    · rwa [hp.rate]
    · rwa [hp.priority]
    · rwa [hp.tolerance]
    · rwa [hp.granularity]
    · rwa [hp.wkcErrors]
    · rwa [hp.queue]
    · apply hp.checked hattrs.estop
      simp only [uncheckedCasts, List.mem_cons, List.not_mem_nil, or_false, forall_eq_or_imp,
        forall_eq]
      exact ⟨hslaveIn, htoleranceIn, hrateIn, hpriorityIn, hgranularityIn, hwkcIn, hqueueIn⟩
    · have hcount : 1 ≤ c.maxConsecutiveWkcErrors.toInt := hpos.trans_eq hp.wkcErrors.symm
      have hthreshold := toNat_toUInt32 c.maxConsecutiveWkcErrors
      rw [if_pos (by omega)] at hthreshold
      refine ⟨hthreshold, ?_⟩
      show 1 ≤ c.maxConsecutiveWkcErrors.toUInt32.toNat
      omega

/-- The attributes that are required, with more behind them. -/
def servoAttrs (more : ProtoStruct) : ProtoStruct :=
  [("interface", .string (ascii "eth0")), ("max_rpm", .number (.fin 3000)),
    ("counts_per_rev", .number (.fin 131072)), ("motor_rated_current_amps", .number (.fin 3)),
    ("use_distributed_clocks", .bool true)] ++ more

/-- A parser that returns, with a value computed from its result. -/
theorem exists_run {α β : Type} {p : Parse α} {log : List Cast} (f : α → β) {y : β}
    (h : (p log).1.toOption.map f = some y) : ∃ a log', p log = (.ok a, log') ∧ f a = y := by
  rcases hrun : p log with ⟨e | a, log'⟩
  · rw [hrun] at h
    cases h
  · rw [hrun] at h
    exact ⟨a, log', rfl, Option.some.inj h⟩

theorem integral_attributes_whole :
    let attrs := servoAttrs [("slave", .number (.fin 2)),
      ("emergency_stop_fault_code", .string (ascii "0xFF3A")),
      ("homing", .struct [("method", .number (.fin (-3))), ("speed_rpm", .number (.fin 60))])]
    ∃ c log, configFromAttrs (fun _ => 0) attrs .cyclicPosition [] = (.ok c, log) ∧
      TakenExactly attrs c log := by
  intro attrs
  obtain ⟨c, log, hrun, -⟩ : ∃ c log,
      configFromAttrs (fun _ => 0) attrs .cyclicPosition [] = (.ok c, log) ∧ () = () :=
    exists_run (fun _ => ()) (by decide +kernel)
  refine ⟨c, log, hrun, (integral_attributes_exact_iff _ _ _ _ _ hrun).mpr ?_⟩
  constructor
  · rintro v hv
    obtain rfl : ProtoValue.number (.fin 2) = v := Option.some.inj hv
    exact ⟨2, by simp, by decide, by decide⟩
  · exact fun v hv => absurd hv nofun
  · exact fun v hv => absurd hv nofun
  · exact fun v hv => absurd hv nofun
  · exact fun v hv => absurd hv nofun
  · exact fun v hv => absurd hv nofun
  · exact fun v hv => absurd hv nofun
  · rintro v hv
    obtain rfl : ProtoValue.string (ascii "0xFF3A") = v := Option.some.inj hv
    have hcode : wholeNumber (ascii "0xFF3A") = some 0xFF3A := by decide +kernel
    exact ⟨0xFF3A, hcode, by decide, by decide⟩

/-- The slave 1.5 is accepted, as slave 1. -/
theorem integral_attributes_inexact : ¬ ∀ (undef : Cast → Int) (attrs : ProtoStruct)
    (mode : MotionModeKind) (c : DriveConfig) (log : List Cast),
    configFromAttrs undef attrs mode [] = (.ok c, log) → TakenExactly attrs c log := by
  intro h
  obtain ⟨c, log, hrun, -⟩ : ∃ c log, configFromAttrs (fun _ => 0)
      (servoAttrs [("slave", .number (.fin (3 / 2)))]) .cyclicPosition [] = (.ok c, log) ∧
        () = () :=
    exists_run (fun _ => ()) (by decide +kernel)
  have hgiven := (h _ _ _ _ _ hrun).slave _ rfl
  have hslave : (3 / 2 : ℚ) = ((c.slaveId : Int) : ℚ) :=
    Double.fin.inj (ProtoValue.number.inj hgiven)
  have hdouble : (3 : ℚ) = 2 * ((c.slaveId : Int) : ℚ) := by linarith
  have hint : (3 : Int) = 2 * c.slaveId := by exact_mod_cast hdouble
  omega

end ViamEthercat.Servo
