import ViamEthercat.Lib.Checked
import ViamEthercat.Servo.ServoMotor

/-!
# `ViamEthercat.Proofs.MotorCommands`: a command does what it asks for

`CommandWatch` watches the calls that one `do_command` makes. It allows a call only for a verb that
the command requests, in the order of the verbs. A verb acts on the drive once. A write is allowed
where the call before it has answered that the motor is at rest, and only of the bytes that the
request encodes to, at an object that the driver leaves to its user.

`do_command_keeps_to_request` says that every run of `do_command` is allowed, and that the reply
holds what was requested and nothing else.
-/

set_option autoImplicit false

namespace ViamEthercat.Servo

open Lib Lib.Talk

/-- The call changes something on the drive. -/
def ControllerCall.acts : ControllerCall → Bool
  | requestFaultReset | enable | disable | home | sdoWrite _ _ _ => true
  | _ => false

/-- The key under which the reply of a verb is. -/
def MotorVerb.replyKey : MotorVerb → String
  | getMotorVoltage => "voltage_volts"
  | getMotorCurrent => "current_amps"
  | getMotorDriveModes => "drive_modes"
  | v => v.key

/-- The watch over a `do_command`: the verbs that may still come, whether the first of them has
acted, and whether the last call has answered that the motor is at rest. -/
structure CommandWatch where
  left : List MotorVerb := MotorVerb.all
  acted : Bool := false
  still : Bool := false
deriving DecidableEq, Repr

section
variable (undef : Cast → Int) (command : ProtoStruct)

/-- The command asks to write these bytes there. -/
def requestsWrite (index : UInt16) (sub : UInt8) (data : List UInt8) : Bool :=
  match findAttr command "sdo_write" with
  | none => false
  | some rq =>
      match parseSdoRequest undef rq "sdo_write" true with
      | .error _ => false
      | .ok r => decide (r.index = index ∧ r.sub = sub ∧ (r.type.encode r.value).toOption = some data)

/-- The verb makes calls of this kind. -/
def MotorVerb.calls : MotorVerb → ControllerCall → Bool
  | faultReset, .requestFaultReset | enable, .enable | disable, .disable => true
  | status, .isPowered | status, .isMoving | status, .positionRevs | status, .isDisconnected
  | status, .lastError | status, .motionModeName | status, .emergencyStopped
  | status, .driveWarning | status, .driveFaultCode | status, .homed | status, .homingState
  | status, .homingError | status, .sdoRead _ _ _ => true
  | getMotorVoltage, .sdoRead index _ _ => index = 0x6079
  | getMotorCurrent, .sdoRead index _ _ => index = 0x6078
  | getMotorCurrent, .ratedCurrentAmps => true
  | getMotorDriveModes, .sdoRead index _ _ => index = 0x6502
  | isAbsEncValid, .isDisconnected | isAbsEncValid, .sdoRead _ _ _
  | isAbsEncValid, .driveFaultCode | isAbsEncValid, .driveWarning => true
  | home, .home | home, .homePositionCounts | home, .homePositionRevs | home, .homingError => true
  | sdoRead, .sdoRead _ _ _ | sdoWrite, .isMoving | sdoWrite, .sdoWrite _ _ _ => true
  | _, _ => false

namespace CommandWatch

/-- The verbs from the first one on that makes the call for the command. -/
def seek (q : ControllerCall) (left : List MotorVerb) : List MotorVerb :=
  left.dropWhile fun v => !(v.requested command && v.calls q)

/-- What a call has to meet besides. -/
def permits (w : CommandWatch) : ControllerCall → Bool
  | .sdoWrite index sub data =>
      w.still && writable index && requestsWrite undef command index sub data
  | _ => true

/-- The answer says that the motor is at rest. -/
def saysRest : (q : ControllerCall) → q.Answer → Bool
  | .isMoving, moving => !moving
  | _, _ => false

/-- The watch after a call, if it allows it. -/
def rule (w : CommandWatch) (q : ControllerCall) (x : q.Answer) : Option CommandWatch :=
  let left := seek command q (if w.acted && q.acts then w.left.tail else w.left)
  if left ≠ [] ∧ w.permits undef command q = true then
    some { left, acted := q.acts || (w.acted && decide (left = w.left)), still := saysRest q x }
  else none

end CommandWatch

variable {undef : Cast → Int} {command : ProtoStruct} {w : CommandWatch} {v : MotorVerb}
  {rest : List MotorVerb}

/-- The verbs before `l` are passed, and if none comes before it, nothing has acted. -/
def CommandWatch.Before (l : List MotorVerb) (w : CommandWatch) : Prop :=
  ∃ pre, w.left = pre ++ l ∧ (pre = [] → w.acted = false)

/-- The verbs after the first of `l` have made no call. -/
def CommandWatch.Within (l : List MotorVerb) (w : CommandWatch) : Prop :=
  ∃ pre, w.left = pre ++ l

theorem CommandWatch.Before.within (h : w.Before (v :: rest)) : w.Within (v :: rest) := by
  obtain ⟨pre, hleft, -⟩ := h
  exact ⟨pre, hleft⟩

theorem CommandWatch.Within.next (h : w.Within (v :: rest)) : w.Before rest := by
  obtain ⟨pre, hleft⟩ := h
  refine ⟨pre ++ [v], ?_, fun hnil => absurd hnil (by simp)⟩
  rw [hleft, List.append_assoc]
  rfl

/-- The watch does not pass a verb that makes the call. -/
theorem seek_append {q : ControllerCall} (hv : v.requested command = true)
    (hq : v.calls q = true) (pre : List MotorVerb) :
    ∃ pre', CommandWatch.seek command q (pre ++ v :: rest) = pre' ++ v :: rest := by
  induction pre with
  | nil => exact ⟨[], by simp [CommandWatch.seek, hv, hq]⟩
  | cons u pre ih =>
      obtain ⟨pre', hseek⟩ := ih
      cases hu : u.requested command && u.calls q with
      | true => exact ⟨u :: pre, List.dropWhile_cons_of_neg (by rw [hu]; decide)⟩
      | false =>
          refine ⟨pre', ?_⟩
          rw [← hseek]
          exact List.dropWhile_cons_of_pos (by rw [hu]; decide)

/-- A call of a verb that is requested. -/
theorem rule_eq {q : ControllerCall} (hv : v.requested command = true) (hq : v.calls q = true)
    (hpermits : w.permits undef command q = true) {pre : List MotorVerb}
    (hleft : w.left = pre ++ v :: rest) (hfirst : (w.acted && q.acts) = true → pre ≠ [])
    (x : q.Answer) :
    ∃ pre', w.rule undef command q x = some {
      left := pre' ++ v :: rest
      acted := q.acts || (w.acted && decide (pre' ++ v :: rest = w.left))
      still := CommandWatch.saysRest q x } := by
  obtain ⟨start, hstart⟩ : ∃ start,
      (if (w.acted && q.acts) = true then w.left.tail else w.left) = start ++ v :: rest := by
    split
    · cases pre with
      | nil => exact absurd rfl (hfirst ‹_›)
      | cons u pre => exact ⟨pre, by rw [hleft]; rfl⟩
    · exact ⟨pre, hleft⟩
  obtain ⟨pre', hseek⟩ : ∃ pre', CommandWatch.seek command q (start ++ v :: rest) =
      pre' ++ v :: rest := seek_append hv hq start
  refine ⟨pre', ?_⟩
  unfold CommandWatch.rule
  rw [hstart, hseek]
  exact if_pos ⟨by simp, hpermits⟩

theorem permits_of_asks {q : ControllerCall} (hacts : q.acts = false) :
    w.permits undef command q = true := by
  cases q with
  | sdoWrite index sub data => exact Bool.noConfusion hacts
  | _ => rfl

/-- A call that does not act. -/
theorem rule_asks {q : ControllerCall} (hv : v.requested command = true) (hq : v.calls q = true)
    (hacts : q.acts = false) (h : w.Before (v :: rest)) (x : q.Answer) :
    ∃ w', w.rule undef command q x = some w' ∧ w'.Before (v :: rest) ∧
      w'.still = CommandWatch.saysRest q x := by
  obtain ⟨pre, hleft, hacted⟩ := h
  obtain ⟨pre', hrule⟩ := rule_eq (w := w) hv hq (permits_of_asks hacts) hleft
    (fun hboth => by simp [hacts] at hboth) x
  refine ⟨_, hrule, ⟨pre', rfl, fun hnil => ?_⟩, rfl⟩
  show (q.acts || (w.acted && decide (pre' ++ v :: rest = w.left))) = false
  rw [hacts, hleft, hnil]
  by_cases hpre : pre = []
  · rw [hacted hpre]
    rfl
  · -- The first verb has changed.
    have hne : [] ++ v :: rest ≠ pre ++ v :: rest := fun heq =>
      hpre (List.append_cancel_right heq).symm
    rw [decide_eq_false hne, Bool.and_false, Bool.or_false]

/-- A call that does not act, after its verb has acted. -/
theorem rule_within {q : ControllerCall} (hv : v.requested command = true) (hq : v.calls q = true)
    (hacts : q.acts = false) (h : w.Within (v :: rest)) (x : q.Answer) :
    ∃ w', w.rule undef command q x = some w' ∧ w'.Within (v :: rest) := by
  obtain ⟨pre, hleft⟩ := h
  obtain ⟨pre', hrule⟩ := rule_eq (w := w) hv hq (permits_of_asks hacts) hleft
    (fun hboth => by simp [hacts] at hboth) x
  exact ⟨_, hrule, pre', rfl⟩

/-- A call that acts. -/
theorem rule_acts {q : ControllerCall} (hv : v.requested command = true) (hq : v.calls q = true)
    (hpermits : w.permits undef command q = true) (h : w.Before (v :: rest)) (x : q.Answer) :
    ∃ w', w.rule undef command q x = some w' ∧ w'.Within (v :: rest) := by
  obtain ⟨pre, hleft, hacted⟩ := h
  have hfirst : (w.acted && q.acts) = true → pre ≠ [] := fun hboth hnil => by
    rw [hacted hnil] at hboth
    exact Bool.noConfusion hboth
  obtain ⟨pre', hrule⟩ := rule_eq (w := w) hv hq hpermits hleft hfirst x
  exact ⟨_, hrule, pre', rfl⟩

/-! ### The blocks -/

/-- The calls of `x` are allowed, as those of a verb that does not act. -/
abbrev Asks (undef : Cast → Int) (command : ProtoStruct) (v : MotorVerb) (rest : List MotorVerb)
    {α : Type} (x : MotorTalk α) : Prop :=
  Keeps (CommandWatch.rule undef command) (CommandWatch.Before (v :: rest)) x

section

theorem asks_outcome {α : Type} (x : Except MotorError α) :
    Asks undef command v rest (MotorTalk.outcome x) := by
  cases x with
  | ok a => exact keeps_pure
  | error e => exact keeps_throw

variable (hv : v.requested command = true)
include hv

theorem asks_ask {q : ControllerCall} (hq : v.calls q = true) (hacts : q.acts = false) :
    Asks undef command v rest (ask q) :=
  keeps_ask fun _ x h => by
    obtain ⟨w', hrule, hbefore, -⟩ := rule_asks hv hq hacts h x
    exact ⟨w', hrule, hbefore⟩

theorem asks_asks {q : ControllerCall} {f : q.Answer → ProtoValue} (hq : v.calls q = true)
    (hacts : q.acts = false) : Asks undef command v rest (asks q f) :=
  (asks_ask hv hq hacts).bind fun _ => keeps_pure

theorem asks_sdoRead {index : UInt16} {sub : UInt8} {size : Nat}
    (hq : v.calls (.sdoRead index sub size) = true) :
    Asks undef command v rest (MotorTalk.sdoRead index sub size) :=
  (asks_ask hv hq rfl).bind fun _ => (asks_outcome _).bind fun _ => keeps_pure

theorem asks_readStdSdo {T : Type} [PdoScalar T] {index : UInt16}
    (hq : v.calls (.sdoRead index 0 (PdoScalar.size T)) = true) :
    Asks undef command v rest (readStdSdo T index) :=
  (asks_sdoRead hv hq).bind fun _ => keeps_throw.ite keeps_pure

theorem asks_stdObject {T : Type} [PdoScalar T] {index : UInt16} {key unavailable : String}
    {fallback : ProtoValue} {convert : T → MotorTalk ProtoValue}
    (hq : v.calls (.sdoRead index 0 (PdoScalar.size T)) = true)
    (hconvert : ∀ t, Asks undef command v rest (convert t)) :
    Asks undef command v rest (stdObject T index key fallback unavailable convert) := by
  refine ((asks_readStdSdo hv hq).bind hconvert).attempt.bind fun r => ?_
  cases r with
  | ok value => exact keeps_pure
  | error e => exact keeps_pure.ite keeps_throw

theorem asks_readEncoderMode {enc : AbsoluteEncoder} {encoderType : String}
    (hq : v.calls (.sdoRead enc.index enc.sub kSdoReadBytes) = true) :
    Asks undef command v rest (readEncoderMode enc encoderType) := by
  refine (asks_sdoRead hv hq).bind fun bytes => ?_
  cases findType encoderType with
  | none => exact keeps_throw
  | some type => exact (asks_outcome _).bind fun _ => keeps_modify.bind fun _ => keeps_pure

theorem asks_absoluteEncoderStatus (enc : AbsoluteEncoder) (encoderType : String)
    (hcalls : ∀ q, MotorVerb.isAbsEncValid.calls q = true → v.calls q = true) :
    Asks undef command v rest (absoluteEncoderStatus enc encoderType) := by
  refine keeps_pure.ite ((asks_ask hv (hcalls _ rfl) rfl).bind fun disconnected => ?_)
  refine Keeps.ite (keeps_modify.bind fun _ => keeps_pure) (keeps_get.bind fun cache => ?_)
  have hread : Asks undef command v rest (readEncoderMode enc encoderType) :=
    asks_readEncoderMode hv (hcalls _ rfl)
  refine Keeps.bind ?_ fun read => ?_
  · exact keeps_pure.ite hread.attempt
  · refine (asks_ask hv (hcalls _ rfl) rfl).bind fun faultCode => ?_
    refine (asks_ask hv (hcalls _ rfl) rfl).bind fun warning => ?_
    cases read with
    | ok mode => exact keeps_pure
    | error e => exact keeps_pure

end

theorem asks_getStatus (hv : MotorVerb.status.requested command = true) (enc : AbsoluteEncoder)
    (encoderType : String) : Asks undef command .status rest (getStatus enc encoderType) := by
  have hask {q : ControllerCall} {f : q.Answer → ProtoValue}
      (hq : MotorVerb.status.calls q = true) (hacts : q.acts = false) :
      Asks undef command .status rest (asks q f) := asks_asks hv hq hacts
  refine (hask rfl rfl).bind fun _ => (hask rfl rfl).bind fun _ => (hask rfl rfl).bind fun _ => ?_
  refine (hask rfl rfl).bind fun _ => (hask rfl rfl).bind fun _ => (hask rfl rfl).bind fun _ => ?_
  refine (hask rfl rfl).bind fun _ => (hask rfl rfl).bind fun _ => (hask rfl rfl).bind fun _ => ?_
  refine (asks_ask hv rfl rfl).bind fun ran => ?_
  have hencoder : Asks undef command .status rest (absoluteEncoderStatus enc encoderType) := by
    refine asks_absoluteEncoderStatus hv enc encoderType fun q hq => ?_
    cases q with
    | isDisconnected | sdoRead index sub size | driveFaultCode | driveWarning => rfl
    | _ => exact Bool.noConfusion hq
  refine Keeps.bind ?_ fun absolute => ?_
  · exact keeps_pure.ite hencoder.map
  · exact (hask rfl rfl).bind fun _ => (asks_ask hv rfl rfl).bind fun _ => keeps_pure

/-- What the calls of the block of a verb come to: they are allowed, and so are those of the verbs
after it. -/
abbrev Serves (undef : Cast → Int) (command : ProtoStruct) (v : MotorVerb) (rest : List MotorVerb)
    {α : Type} (x : MotorTalk α) : Prop :=
  ∀ w s, w.Before (v :: rest) → wp (CommandWatch.rule undef command) x
    (fun w _ _ => w.Within (v :: rest)) (fun _ _ _ => True) w s

theorem serves_of_asks {α : Type} {x : MotorTalk α} (h : Asks undef command v rest x) :
    Serves undef command v rest x := fun w s hw =>
  wp_mono (h w s hw) (fun _ _ _ h => h.within) fun _ _ _ _ => trivial

/-- A verb whose block is one call that acts. -/
theorem serves_act {q : ControllerCall} {f : q.Answer → ProtoStruct}
    (hv : v.requested command = true) (hq : v.calls q = true)
    (hpermits : ∀ w : CommandWatch, w.permits undef command q = true) :
    Serves undef command v rest (do return f (← ask q)) := by
  intro w s hw
  rw [wp_bind, wp_ask]
  exact rule_acts hv hq (hpermits w) hw

theorem serves_homeReply (hv : MotorVerb.home.requested command = true) :
    Serves undef command .home rest homeReply := by
  intro w s hw
  have hask {q : ControllerCall} {f : q.Answer → ProtoValue}
      (hq : MotorVerb.home.calls q = true) (hacts : q.acts = false) :
      Keeps (CommandWatch.rule undef command) (CommandWatch.Within (.home :: rest)) (asks q f) :=
    (keeps_ask fun _ x h => rule_within hv hq hacts h x).bind fun _ => keeps_pure
  unfold homeReply
  rw [wp_bind, wp_ask]
  intro x
  obtain ⟨w', hrule, hafter⟩ : ∃ w', w.rule undef command .home x = some w' ∧
      w'.Within (.home :: rest) := rule_acts hv rfl rfl hw x
  refine ⟨w', hrule, ?_⟩
  cases x with
  | error e => trivial
  | ok homed =>
      -- The reply asks for the rest.
      refine wp_mono (Keeps.bind keeps_pure (fun homed => ?_) w' s hafter) (fun _ _ _ h => h)
        fun _ _ _ _ => trivial
      refine (hask rfl rfl).bind fun _ => (hask rfl rfl).bind fun _ => ?_
      exact (keeps_ask fun _ x h => rule_within hv rfl rfl h x).bind fun _ => keeps_pure

theorem asks_orRefusal {x : MotorTalk ProtoStruct} (h : Asks undef command v rest x) :
    Asks undef command v rest (orRefusal x) := by
  refine h.attempt.bind fun r => ?_
  cases r with
  | ok reply => exact keeps_pure
  | error e =>
      cases e with
      | sdo what abortCode => exact keeps_pure
      | error what => exact keeps_throw
      | runtime what => exact keeps_throw

theorem asks_sdoReadReply (hv : MotorVerb.sdoRead.requested command = true) (rq : ProtoValue) :
    Asks undef command .sdoRead rest (sdoReadReply undef rq) := by
  refine (asks_outcome _).bind fun r => asks_orRefusal ?_
  refine (asks_sdoRead hv rfl).bind fun bytes => Keeps.ite keeps_throw ?_
  exact (asks_outcome _).bind fun _ => keeps_pure

theorem requestValue_writable {req : ProtoStruct} {index : UInt16} {verb : String} {value : Input}
    (h : requestValue req index verb = .ok value) : writable index = true := by
  by_contra hnot
  unfold requestValue at h
  rw [if_neg hnot] at h
  cases h

/-- A request that is parsed with a value is for an object that may be written. -/
theorem parseSdoRequest_writable {rq : ProtoValue} {r : SdoRequest}
    (h : parseSdoRequest undef rq "sdo_write" true = .ok r) : writable r.index = true := by
  unfold parseSdoRequest at h
  obtain ⟨type, -, h⟩ := bind_eq_ok.mp h
  split at h
  · obtain ⟨index, -, h⟩ := bind_eq_ok.mp h
    obtain ⟨sub, -, h⟩ := bind_eq_ok.mp h
    obtain ⟨value, hvalue, h⟩ := bind_eq_ok.mp h
    obtain rfl := Except.ok.inj h
    rw [if_pos rfl] at hvalue
    exact requestValue_writable hvalue
  · cases h

/-- Once the controller has said that it is at rest, the write that is requested is permitted. -/
theorem permits_sdoWrite {rq : ProtoValue} {r : SdoRequest} {bytes : List UInt8}
    (hrq : findAttr command "sdo_write" = some rq)
    (hparse : parseSdoRequest undef rq "sdo_write" true = .ok r)
    (hencode : r.type.encode r.value = .ok bytes) (hstill : w.still = true) :
    w.permits undef command (.sdoWrite r.index r.sub bytes) = true := by
  have hwrite : requestsWrite undef command r.index r.sub bytes = true := by
    unfold requestsWrite
    simp [hrq, hparse, hencode, Except.toOption]
  show (w.still && writable r.index && _) = true
  rw [hstill, parseSdoRequest_writable hparse, hwrite]
  rfl

theorem serves_sdoWriteReply (hv : MotorVerb.sdoWrite.requested command = true) {rq : ProtoValue}
    (hrq : findAttr command "sdo_write" = some rq) :
    Serves undef command .sdoWrite rest (sdoWriteReply undef rq) := by
  intro w s hw
  unfold sdoWriteReply
  rw [wp_bind]
  cases hparse : parseSdoRequest undef rq "sdo_write" true with
  | error e => trivial
  | ok r =>
      show wp _ (ask ControllerCall.isMoving >>= _) _ _ w s
      rw [wp_bind, wp_ask]
      intro moving
      obtain ⟨w', hrule, hbefore, hstill⟩ : ∃ w', w.rule undef command .isMoving moving = some w' ∧
          w'.Before (.sdoWrite :: rest) ∧ w'.still = CommandWatch.saysRest .isMoving moving :=
        rule_asks hv rfl rfl hw moving
      refine ⟨w', hrule, ?_⟩
      cases moving with
      | true => trivial
      | false =>
          show wp _ (MotorTalk.outcome _ >>= _) _ _ w' s
          rw [wp_bind]
          cases hencode : r.type.encode r.value with
          | error e => trivial
          | ok bytes =>
              have hpermits : w'.permits undef command (.sdoWrite r.index r.sub bytes) = true :=
                permits_sdoWrite hrq hparse hencode hstill
              show wp _ (orRefusal _) _ _ w' s
              unfold orRefusal MotorTalk.sdoWrite
              rw [wp_bind, wp_attempt, wp_bind, wp_bind, wp_ask]
              intro x
              obtain ⟨w'', hrule', hafter⟩ := rule_acts hv rfl hpermits hbefore x
              refine ⟨w'', hrule', ?_⟩
              cases x with
              | error e =>
                  cases e with
                  | sdo what abortCode => exact hafter
                  | error what => trivial
                  | runtime what => trivial
              | ok u =>
                  cases hdecode : r.type.decode bytes with
                  | error e => trivial
                  | ok decoded => exact hafter

theorem sdoRead_block (enc : AbsoluteEncoder) (encoderType : String) {rq : ProtoValue}
    (hrq : findAttr command "sdo_read" = some rq) :
    MotorVerb.sdoRead.block undef enc encoderType command =
      (do return [("sdo_read", .struct (← sdoReadReply undef rq))]) := by
  unfold MotorVerb.block
  dsimp only
  rw [hrq]

theorem sdoWrite_block (enc : AbsoluteEncoder) (encoderType : String) {rq : ProtoValue}
    (hrq : findAttr command "sdo_write" = some rq) :
    MotorVerb.sdoWrite.block undef enc encoderType command =
      (do return [("sdo_write", .struct (← sdoWriteReply undef rq))]) := by
  unfold MotorVerb.block
  dsimp only
  rw [hrq]

/-- Every block serves its verb. -/
theorem serves_block (enc : AbsoluteEncoder) (encoderType : String)
    (hv : v.requested command = true) :
    Serves undef command v rest (v.block undef enc encoderType command) := by
  cases v with
  | faultReset | enable | disable => exact serves_act hv rfl fun _ => rfl
  | describe => exact serves_of_asks keeps_pure
  | status => exact serves_of_asks ((asks_getStatus hv enc encoderType).bind fun _ => keeps_pure)
  | getMotorVoltage | getMotorDriveModes =>
      exact serves_of_asks (asks_stdObject hv rfl fun _ => keeps_pure)
  | getMotorCurrent =>
      exact serves_of_asks (asks_stdObject hv rfl fun _ =>
        (asks_ask hv rfl rfl).bind fun _ => keeps_pure)
  | isAbsEncValid =>
      exact serves_of_asks
        ((asks_absoluteEncoderStatus hv enc encoderType fun _ hq => hq).bind fun _ => keeps_pure)
  | home =>
      intro w s hw
      refine wp_bind.mpr (wp_mono (serves_homeReply hv w s hw) ?_ fun _ _ _ h => h)
      exact fun _ _ _ h => h
  | sdoRead =>
      obtain ⟨rq, hrq⟩ := Option.isSome_iff_exists.mp hv
      rw [sdoRead_block enc encoderType hrq]
      exact serves_of_asks ((asks_sdoReadReply hv rq).bind fun _ => keeps_pure)
  | sdoWrite =>
      obtain ⟨rq, hrq⟩ := Option.isSome_iff_exists.mp hv
      rw [sdoWrite_block enc encoderType hrq]
      intro w s hw
      refine wp_bind.mpr (wp_mono (serves_sdoWriteReply hv hrq w s hw) ?_ fun _ _ _ h => h)
      exact fun _ _ _ h => h

/-- The blocks of the verbs that are requested, in their order. -/
def runVerbs (undef : Cast → Int) (enc : AbsoluteEncoder) (encoderType : String)
    (command : ProtoStruct) (vs : List MotorVerb) (result : ProtoStruct) : MotorTalk ProtoStruct :=
  vs.foldlM (fun result v =>
    if v.requested command then do
      return result ++ (← v.block undef enc encoderType command)
    else pure result) result

theorem runVerbs_allowed (enc : AbsoluteEncoder) (encoderType : String) (vs : List MotorVerb)
    (result : ProtoStruct) (w : CommandWatch) (s : EncoderCache) (hw : w.Before vs) :
    wp (CommandWatch.rule undef command) (runVerbs undef enc encoderType command vs result)
      (fun _ _ _ => True) (fun _ _ _ => True) w s := by
  induction vs generalizing result w s with
  | nil => trivial
  | cons v vs ih =>
      unfold runVerbs
      rw [List.foldlM_cons, wp_bind]
      refine wp_ite (fun hv => ?_) fun hv => ?_
      · rw [wp_bind]
        refine wp_mono (serves_block enc encoderType hv w s hw) (fun w' s' reply h => ?_)
          fun _ _ _ h => h
        exact ih _ w' s' h.next
      · exact ih result w s hw.within.next

/-! ### The reply -/

/-- The keys of the reply of a block. -/
def MotorVerb.Replies (v : MotorVerb) (reply : ProtoStruct) : Prop :=
  reply.map Prod.fst = [v.replyKey] ∨ reply.map Prod.fst = [v.replyKey, v.replyKey ++ "_diag"]

/-- Rules that allow every call. -/
abbrev free (_ : Unit) (q : ControllerCall) (_ : q.Answer) : Option Unit := some ()

/-- A block that emplaces one value. -/
theorem replies_one {α : Type} {x : MotorTalk α} {f : α → ProtoValue} {s : EncoderCache} :
    wp free (do return [(v.replyKey, f (← x))]) (fun _ _ reply => v.Replies reply)
      (fun _ _ _ => True) () s := by
  rw [wp_bind]
  exact wp_mono wp_free (fun _ _ _ _ => .inl rfl) fun _ _ _ h => h

theorem replies_stdObject {T : Type} [PdoScalar T] {index : UInt16} {unavailable : String}
    {fallback : ProtoValue} {convert : T → MotorTalk ProtoValue} {s : EncoderCache} :
    wp free (stdObject T index v.replyKey fallback unavailable convert)
      (fun _ _ reply => v.Replies reply) (fun _ _ _ => True) () s := by
  unfold stdObject
  rw [wp_bind]
  refine wp_mono wp_free (fun _ _ r _ => ?_) fun _ _ _ h => h
  cases r with
  | ok value => exact .inl rfl
  | error e => exact wp_ite (fun _ => .inr rfl) fun _ => trivial

theorem block_replies (enc : AbsoluteEncoder) (encoderType : String)
    (hv : v.requested command = true) (s : EncoderCache) :
    wp free (v.block undef enc encoderType command) (fun _ _ reply => v.Replies reply)
      (fun _ _ _ => True) () s := by
  cases v with
  | faultReset | enable | disable =>
      unfold MotorVerb.block
      rw [wp_bind]
      exact wp_mono wp_free (fun _ _ _ _ => .inl rfl) fun _ _ _ h => h
  | describe => exact .inl rfl
  | status | isAbsEncValid | home => exact replies_one
  | getMotorVoltage | getMotorCurrent | getMotorDriveModes => exact replies_stdObject
  | sdoRead =>
      obtain ⟨rq, hrq⟩ := Option.isSome_iff_exists.mp hv
      rw [sdoRead_block enc encoderType hrq]
      exact replies_one
  | sdoWrite =>
      obtain ⟨rq, hrq⟩ := Option.isSome_iff_exists.mp hv
      rw [sdoWrite_block enc encoderType hrq]
      exact replies_one

/-- The keys of a reply are those of the verbs in `vs` that are requested. -/
structure RepliesTo (command : ProtoStruct) (vs : List MotorVerb) (reply : ProtoStruct) : Prop where
  all : ∀ v ∈ vs, v.requested command = true → v.replyKey ∈ reply.map Prod.fst
  only : ∀ k ∈ reply.map Prod.fst, ∃ v ∈ vs, v.requested command = true ∧
    (k = v.replyKey ∨ k = v.replyKey ++ "_diag")

theorem RepliesTo.skip {vs : List MotorVerb} {reply : ProtoStruct} (h : RepliesTo command vs reply)
    (hv : ¬ v.requested command = true) : RepliesTo command (vs ++ [v]) reply where
  all u hu hrequested := by
    obtain hu | hu := List.mem_append.mp hu
    · exact h.all u hu hrequested
    · rw [List.mem_singleton.mp hu] at hrequested
      exact absurd hrequested hv
  only k hk := by
    obtain ⟨u, hu, hrest⟩ := h.only k hk
    exact ⟨u, List.mem_append_left _ hu, hrest⟩

theorem RepliesTo.add {vs : List MotorVerb} {reply part : ProtoStruct}
    (h : RepliesTo command vs reply) (hv : v.requested command = true) (hpart : v.Replies part) :
    RepliesTo command (vs ++ [v]) (reply ++ part) where
  all u hu hrequested := by
    rw [List.map_append, List.mem_append]
    obtain hu | hu := List.mem_append.mp hu
    · exact .inl (h.all u hu hrequested)
    · rw [List.mem_singleton.mp hu]
      obtain hkeys | hkeys := hpart
      · exact .inr (by simp [hkeys])
      · exact .inr (by simp [hkeys])
  only k hk := by
    rw [List.map_append, List.mem_append] at hk
    obtain hk | hk := hk
    · obtain ⟨u, hu, hrest⟩ := h.only k hk
      exact ⟨u, List.mem_append_left _ hu, hrest⟩
    · refine ⟨v, by simp, hv, ?_⟩
      obtain hkeys | hkeys := hpart
      · rw [hkeys, List.mem_singleton] at hk
        exact .inl hk
      · rw [hkeys] at hk
        simpa using hk

theorem runVerbs_replies (enc : AbsoluteEncoder) (encoderType : String) (vs : List MotorVerb)
    (s : EncoderCache) :
    wp free (runVerbs undef enc encoderType command vs []) (fun _ _ reply =>
      RepliesTo command vs reply) (fun _ _ _ => True) () s := by
  refine wp_foldlM (fun done reply _ _ => RepliesTo command done reply) vs ⟨by simp, by simp⟩
    fun done v rest reply _ s _ h => ?_
  refine wp_ite (fun hv => ?_) fun hv => h.skip hv
  rw [wp_bind]
  exact wp_mono (block_replies enc encoderType hv s) (fun _ _ _ hpart => h.add hv hpart)
    fun _ _ _ h => h

/-- No key of a reply stands for two verbs. -/
theorem replyKey_eq (u v : MotorVerb) (h : u.replyKey = v.replyKey ∨
    u.replyKey = v.replyKey ++ "_diag") : u = v := by
  revert h
  cases u <;> cases v <;> decide

end

theorem mem_all (v : MotorVerb) : v ∈ MotorVerb.all := by
  cases v <;> decide

theorem runVerbs_unrequested {undef : Cast → Int} {enc : AbsoluteEncoder} {encoderType : String}
    {command : ProtoStruct} (vs : List MotorVerb) (hnone : ∀ v ∈ vs, v.requested command = false)
    (result : ProtoStruct) :
    runVerbs undef enc encoderType command vs result = pure result := by
  induction vs with
  | nil => rfl
  | cons v vs ih =>
      unfold runVerbs
      rw [List.foldlM_cons, hnone v List.mem_cons_self]
      exact ih fun u hu => hnone u (List.mem_cons_of_mem v hu)

theorem runVerbs_cons {undef : Cast → Int} {enc : AbsoluteEncoder} {encoderType : String}
    {command : ProtoStruct} {v : MotorVerb} (hv : v.requested command = true)
    (vs : List MotorVerb) (result : ProtoStruct) :
    runVerbs undef enc encoderType command (v :: vs) result = (do
      let part ← v.block undef enc encoderType command
      runVerbs undef enc encoderType command vs (result ++ part)) := by
  show ((if v.requested command then _ else _) >>= _) = _
  rw [if_pos hv, bind_assoc]
  rfl

theorem runVerbs_append {undef : Cast → Int} {enc : AbsoluteEncoder} {encoderType : String}
    {command : ProtoStruct} (us vs : List MotorVerb) (result : ProtoStruct) :
    runVerbs undef enc encoderType command (us ++ vs) result =
      runVerbs undef enc encoderType command us result >>=
        runVerbs undef enc encoderType command vs :=
  List.foldlM_append

theorem doCommand_eq (undef : Cast → Int) (enc : AbsoluteEncoder) (encoderType : String)
    (command : ProtoStruct) : doCommand undef enc encoderType command =
      (do
        let result ← runVerbs undef enc encoderType command MotorVerb.all []
        if result.isEmpty then throw unknownCommand else return result) := rfl

theorem doCommand_allowed (undef : Cast → Int) (enc : AbsoluteEncoder) (encoderType : String)
    (command : ProtoStruct) (cache : EncoderCache) :
    wp (CommandWatch.rule undef command) (doCommand undef enc encoderType command)
      (fun _ _ _ => True) (fun _ _ _ => True) {} cache := by
  rw [doCommand_eq, wp_bind]
  refine wp_mono (runVerbs_allowed enc encoderType MotorVerb.all [] {} cache
    ⟨[], rfl, fun _ => rfl⟩) (fun _ _ _ _ => ?_) fun _ _ _ h => h
  exact wp_ite (fun _ => trivial) fun _ => trivial

theorem doCommand_replies (undef : Cast → Int) (enc : AbsoluteEncoder) (encoderType : String)
    (command : ProtoStruct) (cache : EncoderCache) :
    wp free (doCommand undef enc encoderType command)
      (fun _ _ reply => RepliesTo command MotorVerb.all reply) (fun _ _ _ => True) () cache := by
  rw [doCommand_eq, wp_bind]
  refine wp_mono (runVerbs_replies enc encoderType MotorVerb.all cache) (fun _ _ reply h => ?_)
    fun _ _ _ h => h
  exact wp_ite (fun _ => trivial) fun _ => h

theorem findAttr_isSome {reply : ProtoStruct} {k : String} :
    (findAttr reply k).isSome = true ↔ k ∈ reply.map Prod.fst := by
  unfold findAttr
  rw [List.lookup_isSome_iff, List.mem_map]
  constructor
  · intro ⟨p, hp, heq⟩
    exact ⟨p, hp, (beq_iff_eq.mp heq).symm⟩
  · intro ⟨p, hp, heq⟩
    exact ⟨p, hp, beq_iff_eq.mpr heq.symm⟩

/-- The key of the reply of a verb is there if the verb is one of those, and is requested. -/
theorem RepliesTo.isSome_iff {command reply : ProtoStruct} {vs : List MotorVerb}
    (h : RepliesTo command vs reply) (v : MotorVerb) :
    (findAttr reply v.replyKey).isSome = true ↔ v ∈ vs ∧ v.requested command = true := by
  rw [findAttr_isSome]
  constructor
  · intro hmem
    obtain ⟨u, hmem, hu, heq⟩ := h.only _ hmem
    rw [replyKey_eq v u heq]
    exact ⟨hmem, hu⟩
  · intro ⟨hmem, hv⟩
    exact h.all v hmem hv

/-- Every run of `do_command` makes calls only for the verbs that its command requests, in their
order, and acts at most once for each. A write is one that the command asks for, to an object that
may be written, right after the motor was found at rest. A reply has the values of the verbs that
are requested, and no other. A command that requests no verb is refused without a call. -/
theorem do_command_keeps_to_request (undef : Cast → Int) (enc : AbsoluteEncoder)
    (encoderType : String) (command : ProtoStruct) (cache : EncoderCache)
    {exchanges : List (Sigma ControllerCall.Answer)}
    {r : Except MotorError ProtoStruct × EncoderCache}
    (hruns : (doCommand undef enc encoderType command cache).Runs exchanges r) :
    (∃ w, Dialogue.replay (CommandWatch.rule undef command) {} exchanges = some w)
      ∧ (∀ reply, r.1 = .ok reply →
          (∀ v : MotorVerb, (findAttr reply v.replyKey).isSome = v.requested command)
            ∧ ∀ k ∈ reply.map Prod.fst, ∃ v : MotorVerb, v.requested command = true ∧
              (k = v.replyKey ∨ k = v.replyKey ++ "_diag"))
      ∧ ((∀ v : MotorVerb, v.requested command = false) →
          exchanges = [] ∧ r.1 = .error unknownCommand) := by
  refine ⟨?_, fun reply hok => ?_, fun hnone => ?_⟩
  · obtain ⟨w, hreplay, -⟩ := wp_runs (doCommand_allowed undef enc encoderType command cache) hruns
    exact ⟨w, hreplay⟩
  · obtain ⟨_, -, hends⟩ := wp_runs (doCommand_replies undef enc encoderType command cache) hruns
    rcases r with ⟨e | _, s⟩
    · cases hok
    · obtain rfl := Except.ok.inj hok
      refine ⟨fun v => ?_, fun k hk => ?_⟩
      · rw [Bool.eq_iff_iff, hends.isSome_iff v]
        exact and_iff_right (mem_all v)
      · obtain ⟨v, -, hv⟩ := hends.only k hk
        exact ⟨v, hv⟩
  · rw [doCommand_eq, runVerbs_unrequested _ fun v _ => hnone v] at hruns
    cases hruns
    exact ⟨rfl, rfl⟩

/-- A controller of a motor at rest. Its state is the objects that were written. -/
def benchMotor (objects : List ((UInt16 × UInt8) × List UInt8)) :
    (q : ControllerCall) → q.Answer × List ((UInt16 × UInt8) × List UInt8)
  | .requestFaultReset | .enable | .disable => ((), objects)
  | .home => (.ok true, objects)
  | .homePositionCounts => (0, objects)
  | .homePositionRevs | .positionRevs | .ratedCurrentAmps => (.fin 0, objects)
  | .homingError | .lastError | .motionModeName => ("", objects)
  | .homingState => (.idle, objects)
  | .homed | .isMoving | .isDisconnected | .emergencyStopped | .driveWarning => (false, objects)
  | .isPowered => (true, objects)
  | .driveFaultCode => (0, objects)
  | .sdoRead index sub _ =>
      (match objects.lookup (index, sub) with
        | some data => .ok ⟨data.length, data⟩
        | none => .error (.sdo "no object" 0x06020000), objects)
  | .sdoWrite index sub data => (.ok (), ((index, sub), data) :: objects)

/-- A command that enables the drive and writes an object. -/
def benchCommand : ProtoStruct :=
  [("enable", .bool true), ("sdo_write", .struct [("index", .number (.fin 0x2005)),
    ("type", .ofString "u16"), ("value", .number (.fin 7))])]

/-- The run of that command writes, and replies. -/
theorem do_command_keeps_to_request_bench :
    ∃ exchanges r, (doCommand (fun _ => 0) {} "u16" benchCommand {}).Runs exchanges r ∧
      (∃ w, Dialogue.replay (CommandWatch.rule (fun _ => 0) benchCommand) {} exchanges = some w) ∧
      ∃ reply, r.1 = .ok reply ∧ (findAttr reply "sdo_write").isSome = true := by
  obtain ⟨exchanges, hruns⟩ :=
    Dialogue.exists_runs benchMotor (doCommand (fun _ => 0) {} "u16" benchCommand {}) []
  obtain ⟨hallowed, hreplies, -⟩ := do_command_keeps_to_request _ _ _ _ _ hruns
  have hok : (((doCommand (fun _ => 0) {} "u16" benchCommand {}).runWith benchMotor
      []).1.1.toOption).isSome = true := by
    decide +kernel
  refine ⟨exchanges, _, hruns, hallowed, ?_⟩
  cases hreply : ((doCommand (fun _ => 0) {} "u16" benchCommand {}).runWith benchMotor []).1.1 with
  | error e =>
      rw [hreply] at hok
      exact Bool.noConfusion hok
  | ok reply => exact ⟨reply, rfl, (hreplies reply hreply).1 .sdoWrite⟩

end ViamEthercat.Servo
