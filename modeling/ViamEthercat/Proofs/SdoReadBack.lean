import ViamEthercat.Proofs.MotorCommands
import ViamEthercat.Proofs.SdoCodec

/-!
# `ViamEthercat.Proofs.SdoReadBack`: what a command writes, a command reads back

The block of `sdo_write` encodes a value and sends it. The block of `sdo_read` parses the same
request again, uploads into a buffer of a fixed size, checks the width and decodes.
`sdo_write_reads_back` puts the two together over a drive that keeps what it is given
(`KeepsObjects`): the reply of the read is the reply of the write, and the value of a number is the
number.
-/

set_option autoImplicit false

namespace ViamEthercat.Servo

open Lib Lib.Talk

/-- What an integer type encodes to has the width of the type. -/
theorem encodeInt_length {T : Type} [IntScalar T] {value : Input} {b : List UInt8}
    (h : encodeInt T value = .ok b) : b.length = PdoScalar.size T := by
  obtain ⟨v, -, h⟩ := bind_eq_ok.mp h
  split at h
  · cases h
  · obtain rfl := Except.ok.inj h
    simp

/-- What a type encodes to passes the check of its width. -/
theorem encode_length {name : String} {t : TypeInfo} (h : findType name = some t) {value : Input}
    {b : List UInt8} (hencode : t.encode value = .ok b) : ¬ (0 < t.width ∧ b.length ≠ t.width) := by
  obtain ⟨-, hmem⟩ := findType_cases h
  simp only [kTypes, List.mem_cons, List.not_mem_nil, or_false] at hmem
  rintro ⟨hwidth, hne⟩
  rcases hmem with rfl | rfl | rfl | rfl | rfl | rfl | rfl | rfl
  · exact hne (encodeInt_length (T := UInt8) hencode)
  · exact hne (encodeInt_length (T := Int8) hencode)
  · exact hne (encodeInt_length (T := UInt16) hencode)
  · exact hne (encodeInt_length (T := Int16) hencode)
  · exact hne (encodeInt_length (T := UInt32) hencode)
  · exact hne (encodeInt_length (T := Int32) hencode)
  · exact absurd hwidth (by decide)
  · exact absurd hwidth (by decide)

/-- A number that a type takes reads back. -/
theorem decode_number {name : String} {t : TypeInfo} (h : findType name = some t) {v : Double}
    {b : List UInt8} (hencode : t.encode { number := some v } = .ok b) :
    t.decode b = .ok { number := some v } := by
  obtain ⟨lo, hi, hrange, x, rfl, hlo, hhi⟩ := (encode_number_accepts h v).mp ⟨b, hencode⟩
  obtain ⟨rfl, hmem⟩ := findType_cases h
  simp only [kTypes, List.mem_cons, List.not_mem_nil, or_false] at hmem
  have hcodec : ∀ {lo' hi' : Int}, IntegerCodec t lo' hi' → -2 ^ 63 < lo → hi < 2 ^ 63 →
      t.decode b = .ok { number := some (.fin x) } := fun hcodec hmin hmax =>
    hcodec.decode_encode x (abs_lt.mpr ⟨by omega, by omega⟩) b hencode
  rcases hmem with rfl | rfl | rfl | rfl | rfl | rfl | rfl | rfl
  all_goals cases hrange
  · exact hcodec (integerCodec (T := UInt8) "u8" (by decide) (by decide)) (by decide) (by decide)
  · exact hcodec (integerCodec (T := Int8) "i8" (by decide) (by decide)) (by decide) (by decide)
  · exact hcodec (integerCodec (T := UInt16) "u16" (by decide) (by decide)) (by decide) (by decide)
  · exact hcodec (integerCodec (T := Int16) "i16" (by decide) (by decide)) (by decide) (by decide)
  · exact hcodec (integerCodec (T := UInt32) "u32" (by decide) (by decide)) (by decide) (by decide)
  · exact hcodec (integerCodec (T := Int32) "i32" (by decide) (by decide)) (by decide) (by decide)

/-! ### The request -/

section
variable {undef : Cast → Int} {rq : ProtoValue}

theorem requestType_known {req : ProtoStruct} {t : TypeInfo}
    (h : requestType req = .ok (some t)) : ∃ name, findType name = some t := by
  obtain ⟨name, -, h⟩ := bind_eq_ok.mp h
  have hbind := Except.ok.inj h
  cases name with
  | none => cases hbind
  | some name => exact ⟨_, hbind⟩

/-- The value of a request that writes a number. -/
theorem requestValue_number {req : ProtoStruct} {index : UInt16} {verb : String} {v : Double}
    {value : Input} (hv : findAttr req "value" = some (.number v))
    (h : requestValue req index verb = .ok value) : value = { number := some v } := by
  unfold requestValue at h
  rw [hv] at h
  split at h
  · exact (Except.ok.inj h).symm
  · cases h

/-- What a request that is parsed consists of. -/
theorem parseSdoRequest_eq_ok {verb : String} {withValue : Bool} {r : SdoRequest} :
    parseSdoRequest undef rq verb withValue = .ok r ↔
      ∃ req i index sub, rq.getStruct = some req ∧ requestType req = .ok (some r.type) ∧
        findAttr req "index" = some i ∧ smallUintOf undef i "index" "u16" = .ok index ∧
        UInt16.ofNat index.toNat = r.index ∧
        (match findAttr req "sub" with
          | some sub => smallUintOf undef sub "sub" "u8"
          | none => pure 0) = .ok sub ∧
        UInt8.ofNat sub.toNat = r.sub ∧
        (if withValue then requestValue req r.index verb else pure {}) = .ok r.value := by
  unfold parseSdoRequest
  constructor
  · intro h
    obtain ⟨type, htype, h⟩ := bind_eq_ok.mp h
    split at h
    · rename_i req i type hreq hindex
      rw [hreq] at htype hindex
      obtain ⟨index, hi, h⟩ := bind_eq_ok.mp h
      obtain ⟨sub, hsub, h⟩ := bind_eq_ok.mp h
      obtain ⟨value, hvalue, h⟩ := bind_eq_ok.mp h
      obtain rfl := Except.ok.inj h
      exact ⟨req, i, index, sub, hreq, htype, hindex, hi, rfl, hsub, rfl, hvalue⟩
    · cases h
  · rcases r with ⟨index', sub', type, value⟩
    rintro ⟨req, i, index, sub, hreq, htype, hindex, hi, rfl, hsub, rfl, hvalue⟩
    simp only [hreq]
    refine bind_eq_ok.mpr ⟨some type, htype, ?_⟩
    simp only [Option.bind_some, hindex]
    refine bind_eq_ok.mpr ⟨index, hi, bind_eq_ok.mpr ⟨sub, hsub, ?_⟩⟩
    exact bind_eq_ok.mpr ⟨value, hvalue, rfl⟩

/-- The request of a write is one of a read too. -/
theorem parseSdoRequest_read {r : SdoRequest}
    (h : parseSdoRequest undef rq "sdo_write" true = .ok r) :
    parseSdoRequest undef rq "sdo_read" false = .ok { r with value := {} } := by
  obtain ⟨req, i, index, sub, hreq, htype, hi, hindex, hr, hsub, hrsub, -⟩ :=
    parseSdoRequest_eq_ok.mp h
  exact parseSdoRequest_eq_ok.mpr
    ⟨req, i, index, sub, hreq, htype, hi, hindex, hr, hsub, hrsub, rfl⟩

end

/-! ### The blocks against a drive -/

section
variable {E : Type} {env : E → (q : ControllerCall) → q.Answer × E} {e e' : E}
  {s s' : EncoderCache} {undef : Cast → Int} {rq : ProtoValue} {w : ProtoStruct}

/-- An object that is written reads back, up to the size of the buffer. -/
def KeepsObjects (env : E → (q : ControllerCall) → q.Answer × E) : Prop :=
  ∀ e e' index sub data, env e (.sdoWrite index sub data) = (.ok (), e') →
    data.length ≤ kSdoReadBytes →
    (env e' (.sdoRead index sub kSdoReadBytes)).1 = .ok ⟨data.length, data⟩

theorem against_outcome {α : Type} (x : Except MotorError α) :
    against env (MotorTalk.outcome x) s e = ((x, s), e) := by
  cases x with
  | ok a => rfl
  | error err => rfl

theorem outcome_bind_eq {α β : Type} {x : Except MotorError α} {f : α → MotorTalk β} {a : α}
    (h : x = .ok a) : against env (MotorTalk.outcome x >>= f) s e = against env (f a) s e := by
  rw [h]
  exact against_bind_ok rfl

theorem outcome_bind_returns {α β : Type} {x : Except MotorError α} {f : α → MotorTalk β} {b : β}
    (h : against env (MotorTalk.outcome x >>= f) s e = ((.ok b, s'), e')) :
    ∃ a, x = .ok a ∧ against env (f a) s e = ((.ok b, s'), e') := by
  cases hx : x with
  | error err =>
      rw [hx] at h
      cases h
  | ok a =>
      rw [outcome_bind_eq hx] at h
      exact ⟨a, rfl, h⟩

theorem ofCodec_ok_iff {α : Type} {x : Except CodecError α} {a : α} :
    ofCodec x = .ok a ↔ x = .ok a := by
  cases x with
  | error err => exact iff_of_false nofun nofun
  | ok b =>
      constructor
      · intro h
        exact congrArg Except.ok (Except.ok.inj h)
      · intro h
        exact congrArg Except.ok (Except.ok.inj h)

/-- A reply that is no refusal is the one of the transfer. -/
theorem orRefusal_returns {x : MotorTalk ProtoStruct}
    (h : against env (orRefusal x) s e = ((.ok w, s'), e'))
    (hok : findAttr w "ok" = some (.bool true)) : against env x s e = ((.ok w, s'), e') := by
  rcases hx : against env x s e with ⟨⟨r, t⟩, u⟩
  unfold orRefusal at h
  rw [against_bind_ok (against_attempt hx)] at h
  cases r with
  | ok reply => exact h
  | error err =>
      cases err with
      | sdo what abortCode =>
          obtain rfl : sdoRefusal what abortCode = w := by
            rw [against_pure] at h
            simpa using congrArg (fun r => r.1.1) h
          cases hok
      | error what => cases h
      | runtime what => cases h

theorem orRefusal_of_returns {x : MotorTalk ProtoStruct}
    (h : against env x s e = ((.ok w, s'), e')) :
    against env (orRefusal x) s e = ((.ok w, s'), e') := by
  unfold orRefusal
  rw [against_bind_ok (against_attempt h)]
  rfl

/-- What a write that the drive takes has done. -/
theorem sdoWriteReply_returns (h : against env (sdoWriteReply undef rq) s e = ((.ok w, s'), e'))
    (hok : findAttr w "ok" = some (.bool true)) :
    ∃ r bytes d u, parseSdoRequest undef rq "sdo_write" true = .ok r ∧
      r.type.encode r.value = .ok bytes ∧ r.type.decode bytes = .ok d ∧
      env u (.sdoWrite r.index r.sub bytes) = (.ok (), e') ∧ w = sdoReply d bytes := by
  unfold sdoWriteReply at h
  obtain ⟨r, hparse, h⟩ := outcome_bind_returns h
  rw [against_ask_bind] at h
  cases hmoving : (env e .isMoving).1 with
  | true =>
      rw [hmoving] at h
      cases h
  | false =>
      rw [hmoving] at h
      obtain ⟨bytes, hencode, h⟩ := outcome_bind_returns h
      obtain ⟨_, t, u, hwrite, hdecode⟩ := against_bind_returns (orRefusal_returns h hok)
      obtain ⟨d, hd, hreply⟩ := outcome_bind_returns hdecode
      obtain ⟨rfl, rfl, rfl⟩ := against_pure_returns hreply
      unfold MotorTalk.sdoWrite at hwrite
      rw [against_ask_bind, against_outcome] at hwrite
      refine ⟨r, bytes, d, (env e .isMoving).2, hparse, ofCodec_ok_iff.mp hencode,
        ofCodec_ok_iff.mp hd, ?_, rfl⟩
      simp only [Prod.mk.injEq] at hwrite
      exact Prod.ext hwrite.1.1 hwrite.2

/-- A read of what the drive keeps. -/
theorem sdoReadReply_eq {r : SdoRequest} {bytes : List UInt8} {d : Decoded}
    (hparse : parseSdoRequest undef rq "sdo_read" false = .ok r)
    (hread : (env e (.sdoRead r.index r.sub kSdoReadBytes)).1 = .ok ⟨bytes.length, bytes⟩)
    (hfits : bytes.length ≤ kSdoReadBytes)
    (hwidth : ¬ (0 < r.type.width ∧ bytes.length ≠ r.type.width))
    (hdecode : r.type.decode bytes = .ok d) :
    (against env (sdoReadReply undef rq) s e).1 = (.ok (sdoReply d bytes), s) := by
  have hupload : against env (MotorTalk.sdoRead r.index r.sub kSdoReadBytes) s e =
      ((.ok bytes, s), (env e (.sdoRead r.index r.sub kSdoReadBytes)).2) := by
    unfold MotorTalk.sdoRead
    rw [against_ask_bind, outcome_bind_eq hread, against_pure, Nat.min_eq_left hfits,
      List.take_take, Nat.min_eq_left hfits, List.take_left]
  unfold sdoReadReply
  rw [outcome_bind_eq hparse, orRefusal_of_returns]
  rw [against_bind_ok hupload, if_neg hwidth, outcome_bind_eq (ofCodec_ok_iff.mpr hdecode)]
  rfl

/-! ### The commands -/

variable {enc : AbsoluteEncoder} {encoderType : String} {command reply : ProtoStruct}

theorem requested_sdoWrite (hrq : findAttr command "sdo_write" = some rq) :
    MotorVerb.sdoWrite.requested command = true := by
  show (findAttr command "sdo_write").isSome = true
  rw [hrq]
  rfl

/-- A command that replies is one whose verbs do. -/
theorem doCommand_returns
    (h : against env (doCommand undef enc encoderType command) s e = ((.ok reply, s'), e')) :
    against env (runVerbs undef enc encoderType command MotorVerb.all []) s e =
      ((.ok reply, s'), e') := by
  rw [doCommand_eq] at h
  obtain ⟨result, t, u, hruns, h⟩ := against_bind_returns h
  split at h
  · cases h
  · obtain ⟨rfl, rfl, rfl⟩ := against_pure_returns h
    exact hruns

/-- The reply to a write is the one of its block. -/
theorem doCommand_sdoWrite
    (h : against env (doCommand undef enc encoderType command) s e = ((.ok reply, s'), e'))
    (hrq : findAttr command "sdo_write" = some rq)
    (hreply : findAttr reply "sdo_write" = some (.struct w)) :
    ∃ t u, against env (sdoWriteReply undef rq) t u = ((.ok w, s'), e') := by
  -- `sdo_write` is the last verb, and no verb before it has that key.
  have hruns := doCommand_returns h
  rw [show MotorVerb.all = MotorVerb.all.dropLast ++ [.sdoWrite] from rfl, runVerbs_append] at hruns
  obtain ⟨before, t, u, hbefore, hlast⟩ := against_bind_returns hruns
  obtain ⟨_, hreplies⟩ := wp_against (runVerbs_replies enc encoderType MotorVerb.all.dropLast s)
    hbefore
  have hnone : findAttr before "sdo_write" = none := by
    rw [← Option.not_isSome_iff_eq_none]
    intro hsome
    exact absurd (((RepliesTo.isSome_iff hreplies .sdoWrite).mp hsome).1) (by decide)
  rw [runVerbs_cons (requested_sdoWrite hrq), sdoWrite_block enc encoderType hrq] at hlast
  obtain ⟨part, t', u', hblock, hlast⟩ := against_bind_returns hlast
  obtain ⟨rfl, rfl, rfl⟩ := against_pure_returns hlast
  obtain ⟨w', t', u', hwrite, hblock⟩ := against_bind_returns hblock
  obtain ⟨rfl, rfl, rfl⟩ := against_pure_returns hblock
  have hlookup : findAttr (before ++ [("sdo_write", .struct w')]) "sdo_write" =
      some (.struct w') := by
    show List.lookup _ _ = _
    rw [List.lookup_append, show before.lookup "sdo_write" = none from hnone]
    rfl
  obtain rfl : w' = w := by simpa [hlookup] using hreply
  exact ⟨t, u, hwrite⟩

/-- A command that reads only. -/
theorem doCommand_sdoRead
    (h : (against env (sdoReadReply undef rq) s e).1 = (.ok w, s')) :
    (against env (doCommand undef enc encoderType [("sdo_read", rq)]) s e).1.1 =
      .ok [("sdo_read", .struct w)] := by
  rcases hrun : against env (sdoReadReply undef rq) s e with ⟨r, u⟩
  obtain rfl : r = (.ok w, s') := by
    rw [hrun] at h
    exact h
  have hskip : ∀ v : MotorVerb, v ≠ .sdoRead → v.requested [("sdo_read", rq)] = false := by
    intro v hv
    cases v with
    | sdoRead => exact absurd rfl hv
    | _ => rfl
  have hskipAll : ∀ vs : List MotorVerb, .sdoRead ∉ vs →
      ∀ v ∈ vs, v.requested [("sdo_read", rq)] = false := fun vs hvs v hv =>
    hskip v (ne_of_mem_of_not_mem hv hvs)
  have hruns : against env (runVerbs undef enc encoderType [("sdo_read", rq)] MotorVerb.all []) s e
      = ((.ok [("sdo_read", .struct w)], s'), u) := by
    rw [show MotorVerb.all = MotorVerb.all.take 10 ++ [.sdoRead, .sdoWrite] from rfl,
      runVerbs_append, runVerbs_unrequested _ (hskipAll _ (by decide)), pure_bind]
    rw [runVerbs_cons rfl, sdoRead_block enc encoderType rfl, bind_assoc, against_bind_ok hrun,
      pure_bind, runVerbs_unrequested _ (hskipAll _ (by decide)), against_pure]
    rfl
  rw [doCommand_eq, against_bind_ok hruns]
  rfl

end

/-- A command writes an object, and the drive takes it. Then a command that reads the object has the
same reply: the bytes that were sent, and their value. The value of a number is that number. A
string or a byte string has to fit into the buffer of the read. -/
theorem sdo_write_reads_back {E : Type} {env : E → (q : ControllerCall) → q.Answer × E}
    (henv : KeepsObjects env) (undef : Cast → Int) (enc : AbsoluteEncoder) (encoderType : String)
    {command reply w : ProtoStruct} {rq : ProtoValue} {s s' : EncoderCache} {e e' : E}
    (hrq : findAttr command "sdo_write" = some rq)
    (hrun : against env (doCommand undef enc encoderType command) s e = ((.ok reply, s'), e'))
    (hreply : findAttr reply "sdo_write" = some (.struct w))
    (hok : findAttr w "ok" = some (.bool true)) :
    ∃ r bytes, parseSdoRequest undef rq "sdo_write" true = .ok r ∧
      r.type.encode r.value = .ok bytes ∧ findAttr w "raw" = some (.string (hexBytes bytes)) ∧
      (∀ v, rq.getStruct.bind (findAttr · "value") = some (.number v) →
        findAttr w "value" = some (.number v)) ∧
      (0 < r.type.width ∨ bytes.length ≤ kSdoReadBytes →
        (against env (doCommand undef enc encoderType [("sdo_read", rq)]) s' e').1.1 =
          .ok [("sdo_read", .struct w)]) := by
  obtain ⟨t, u, hblock⟩ := doCommand_sdoWrite hrun hrq hreply
  obtain ⟨r, bytes, d, u', hparse, hencode, hdecode, hwrite, rfl⟩ := sdoWriteReply_returns hblock hok
  obtain ⟨req, i, index, sub, hreq, htype, hi, hindex, hr, hsub, hrsub, hvalue⟩ :=
    parseSdoRequest_eq_ok.mp hparse
  obtain ⟨name, hname⟩ := requestType_known htype
  refine ⟨r, bytes, hparse, hencode, rfl, fun v hv => ?_, fun hfits => ?_⟩
  · rw [hreq] at hv
    rw [if_pos rfl] at hvalue
    rw [requestValue_number hv hvalue] at hencode
    obtain rfl := Except.ok.inj (hdecode.symm.trans (decode_number hname hencode))
    rfl
  · have hlength : bytes.length ≤ kSdoReadBytes := by
      rcases hfits with hwidth | hfits
      · have hwidths : ∀ t ∈ kTypes, t.width ≤ kSdoReadBytes := by
          decide
        have heq : bytes.length = r.type.width := by
          by_contra hne
          exact encode_length hname hencode ⟨hwidth, hne⟩
        rw [heq]
        exact hwidths _ (findType_cases hname).2
      · exact hfits
    refine doCommand_sdoRead (sdoReadReply_eq (parseSdoRequest_read hparse) ?_ hlength
      (encode_length hname hencode) hdecode)
    exact henv _ _ _ _ _ hwrite hlength

theorem keepsObjects_benchMotor : KeepsObjects benchMotor := by
  intro e e' index sub data hwrite hfits
  obtain rfl : ((index, sub), data) :: e = e' := congrArg Prod.snd hwrite
  unfold benchMotor
  dsimp only
  rw [List.lookup_cons_self]

/-- The reply to the bench command. -/
def benchReply : ProtoStruct :=
  sdoReply { number := some (.fin 7) } [7, 0]

theorem doCommand_benchCommand :
    against benchMotor (doCommand (fun _ => 0) {} "u16" benchCommand) {} [] =
      ((.ok [("enable", .bool true), ("sdo_write", .struct benchReply)], {}),
        [((0x2005, 0), [7, 0])]) := by
  rfl

/-- The object that the bench command writes is read back. -/
theorem sdo_write_reads_back_bench : ∃ rq,
    findAttr benchCommand "sdo_write" = some rq ∧
      findAttr benchReply "value" = some (.number (.fin 7)) ∧
      (against benchMotor (doCommand (fun _ => 0) {} "u16" [("sdo_read", rq)]) {}
        [((0x2005, 0), [7, 0])]).1.1 = .ok [("sdo_read", .struct benchReply)] := by
  obtain ⟨r, bytes, hparse, -, -, hvalue, hreads⟩ :=
    sdo_write_reads_back keepsObjects_benchMotor (fun _ => 0) {} "u16" rfl doCommand_benchCommand
      rfl rfl
  refine ⟨_, rfl, hvalue _ rfl, hreads (.inl ?_)⟩
  have hr : r = ⟨0x2005, 0, ⟨"u16", 2, encodeInt UInt16, decodeInt UInt16⟩,
      { number := some (.fin 7) }⟩ := Except.ok.inj (hparse.symm.trans rfl)
  rw [hr]
  decide

end ViamEthercat.Servo
