import Mathlib.Data.List.Basic
import ViamEthercat.Ethercat.PdoMapping
import ViamEthercat.Lib.Dialogue

/-!
# `ViamEthercat.Ethercat.SoemBackend`: the calls that reach the bus

The model of `ethercat/soem_backend.cpp`. A function of the backend is a `Talk`: it makes calls into
SOEM and goes on with any answer. What SOEM keeps in its context (the slave list and the stack of
errors) it may write in any call, so every answer brings the context with it. The number of slaves
in the context changes only where the bus is enumerated.

The strings that SOEM has for a code are a parameter. The identity of a slave, the pauses between
two tries, the timeout that a call is given, `manualstatechange` (with it SOEM requests no state by
itself) and the log lines are left out.
-/

set_option autoImplicit false

namespace ViamEthercat

open Lib Lib.Talk

/-- `EcatState`: the AL states. -/
inductive EcatState where
  | none
  | init
  | preOp
  | safeOp
  | op
deriving DecidableEq, Repr

namespace EcatState

/-- `to_string`. -/
def text : EcatState → String
  | none => "None"
  | init => "Init"
  | preOp => "PreOp"
  | safeOp => "SafeOp"
  | op => "Op"

/-- `to_soem_state`. -/
def toSoemState : EcatState → UInt16
  | none => 0x00
  | init => 0x01
  | preOp => 0x02
  | safeOp => 0x04
  | op => 0x08

/-- `from_soem_state`: the bits of an error are masked off. -/
def fromSoemState (soem : UInt16) : EcatState :=
  let state := soem &&& 0x0F
  if state = 0x01 then init
  else if state = 0x02 then preOp
  else if state = 0x04 then safeOp
  else if state = 0x08 then op
  else none

end EcatState

/-- `EC_STATE_ERROR`, which is `EC_STATE_ACK` in a request. -/
def ecStateError : UInt16 := 0x10

/-- The `mbxhandlerstate` of a slave. -/
inductive MbxHandler where
  | none
  | cyclic
  | lost
deriving DecidableEq, Repr

/-- What the backend reads of an `ec_slavet`. -/
structure EcSlave where
  state : UInt16 := 0
  alStatusCode : UInt16 := 0
  /-- `mbx_l`: 0 when the slave has no mailbox -/
  mbxLength : UInt16 := 0
  mbxHandler : MbxHandler := .none
  outputBytes : Nat := 0
  inputBytes : Nat := 0
deriving DecidableEq, Repr

/-- An entry of SOEM's error stack. -/
inductive SoemError where
  /-- the drive answered an SDO transfer with a CoE abort -/
  | sdo (abortCode : UInt32)
  | other (etype : Nat)
deriving DecidableEq, Repr

/-- What SOEM keeps in its context. Slave 0 stands for all slaves. -/
structure SoemContext where
  slavelist : Nat → EcSlave := fun _ => {}
  errors : List SoemError := []

/-- SOEM's strings. -/
structure SoemText where
  /-- `ec_ALstatuscode2string` -/
  alStatusCode : UInt16 → String
  /-- `ec_sdoerror2string` -/
  sdoError : UInt32 → String

/-- A call into SOEM. The state that a request writes is the one that is in the slave list. -/
inductive SoemCall where
  | init (ifname : String)
  | configInit
  | readState
  | writeState (slave : UInt16) (state : UInt16)
  | stateCheck (slave : UInt16) (want : UInt16)
  | mbxEmpty (slave : UInt16)
  | sdoRead (slave index : UInt16) (sub : UInt8) (size : Nat)
  | sdoWrite (d : SdoDownload)
  | configMapGroup
  | configDc
  | dcSync0 (slave : UInt16) (active : Bool) (cycleNs : UInt32) (shiftNs : Int32)
  /-- `ecx_send_processdata` and `ecx_receive_processdata` -/
  | processData
  | close
deriving DecidableEq, Repr

/-- What `ecx_config_init` answers: its result, and `slavecount`. -/
structure Enumeration where
  result : Int
  slaveCount : Nat
deriving DecidableEq, Repr

/-- What `ecx_config_map_group` answers: its result, and the working counters of the group. -/
structure MappedGroup where
  used : Int
  outputsWkc : UInt16
  inputsWkc : UInt16
deriving DecidableEq, Repr

/-- What an SDO upload answers. -/
structure SdoReply where
  wkc : Int
  size : Int
deriving DecidableEq, Repr

/-- The value that a call returns. -/
abbrev SoemCall.Value : SoemCall → Type
  | .init _ => Int
  | .configInit => Enumeration
  | .readState => Unit
  | .writeState _ _ => Unit
  | .stateCheck _ _ => UInt16
  | .mbxEmpty _ => Int
  | .sdoRead _ _ _ _ => SdoReply
  | .sdoWrite _ => Int
  | .configMapGroup => MappedGroup
  | .configDc => Bool
  | .dcSync0 _ _ _ _ => Unit
  | .processData => Int
  | .close => Unit

/-- An answer: the value, and the context after the call. -/
abbrev SoemAnswer (q : SoemCall) : Type := q.Value × SoemContext

/-- What the functions of the backend throw. An `SdoError` is an `Error` too. -/
inductive BusFailure where
  | bus (e : BusError)
  | sdo (what : String) (abortCode : UInt32)
deriving DecidableEq, Repr

/-- `SoemBackend::Impl`. -/
structure SoemBackend where
  ctx : SoemContext := {}
  /-- `ctx.slavecount` -/
  ctxSlaveCount : Nat := 0
  expectedWkc : Nat := 0
  slaveCount : Nat := 0
  /-- the SYNC0 cycle once DC is enabled -/
  dcCycleNs : UInt32 := 0
  isOpen : Bool := false

/-- A function of the backend. -/
abbrev Soem (α : Type) : Type := Talk SoemCall SoemAnswer BusFailure SoemBackend α

/-- Throw unless `p` holds. -/
def Soem.require (p : Prop) [Decidable p] (what : String) : Soem Unit :=
  if p then pure () else throw (.bus (.base what))

namespace SoemBackend

/-- `iomap`. -/
def iomapBytes : Nat := 8192

/-- One call. SOEM leaves its context as it likes. -/
def soem (q : SoemCall) : Soem q.Value := do
  let answer ← ask q
  modify fun b => { b with ctx := answer.2 }
  return answer.1

/-- `slavelist[slave].state = state`, and `ecx_writestate`. -/
def writeState (slave state : UInt16) : Soem Unit := do
  modify fun b =>
    let list := b.ctx.slavelist
    { b with ctx.slavelist := fun i =>
        if i = slave.toNat then { list i with state := state } else list i }
  soem (.writeState slave state)

/-- The slaves of the context, in the loops from 1 to `slavecount`. -/
def everySlave (count : Nat) : List UInt16 := (List.range count).map fun i => UInt16.ofNat (i + 1)

/-- `hex` digits, at least `width` of them. -/
def hexDigits (width v : Nat) : String :=
  let digits := (Nat.toDigits 16 v).map Char.toUpper
  String.ofList (List.replicate (width - digits.length) '0' ++ digits)

section
variable (text : SoemText)

/-- The AL state of one slave, in the errors. -/
def slaveDetail (b : SoemBackend) (i : Nat) : String :=
  let s := b.ctx.slavelist i
  " [slave " ++ toString i ++ " state=" ++ (EcatState.fromSoemState s.state).text ++
    " ALstatuscode=0x" ++ hexDigits 8 s.alStatusCode.toNat ++ " (" ++
    text.alStatusCode s.alStatusCode ++ ")]"

/-- The AL states of the first slaves, in the errors. -/
def busDetail (b : SoemBackend) (count : Nat) : String :=
  String.join ((List.range count).map fun i => b.slaveDetail text (i + 1))

/-! ### `open` -/

/-- The tries of the warm-up read, up to the first that is answered. -/
def warmUp (slave : UInt16) : Nat → Int → Soem Int
  | 0, last => return last
  | tries + 1, _ => do
      let reply ← soem (.sdoRead slave 0x1018 0x01 4)
      if 0 < reply.wkc then return reply.wkc else warmUp slave tries reply.wkc

/-- The interface is dropped again, and the call fails. -/
def failOpen (what : SoemBackend → String) : Soem Unit := do
  let b ← get
  soem .close
  throw (.bus (.base (what b)))

/-- The send side of a mailbox: it can be written. -/
def awaitWritable (ifname : String) (slave : UInt16) : Soem Unit := do
  let empty ← soem (.mbxEmpty slave)
  whenever (empty ≤ 0) do
    soem .readState
    failOpen fun b => "slave " ++ toString slave ++
      " CoE mailbox-out (SM0) not writable within ~10s after PRE-OP on '" ++ ifname ++
      "' -- mbxsend would not transmit" ++ b.slaveDetail text slave.toNat

/-- The handler of a mailbox: it answers a read. -/
def awaitHandler (ifname : String) (slave : UInt16) : Soem Unit := do
  let warmWkc ← warmUp slave 300 0
  modify fun b => { b with ctx.errors := [] }
  whenever (warmWkc ≤ 0) do
    soem .readState
    failOpen fun b => "slave " ++ toString slave ++
      " CoE handler did not answer a warm-up SDO read (0x1018:01) within ~15s after PRE-OP on '" ++
      ifname ++ "'" ++ b.slaveDetail text slave.toNat

/-- The mailbox of one slave, if it has one. -/
def readyMailbox (ifname : String) (slave : UInt16) : Soem Unit := do
  let b ← get
  whenever ((b.ctx.slavelist slave.toNat).mbxLength ≠ 0) do
    awaitWritable text ifname slave
    awaitHandler text ifname slave

/-- The interface is opened and its slaves are counted. -/
def enumerate (ifname : String) : Soem Nat := do
  let opened ← soem (.init ifname)
  Soem.require (0 < opened) ("failed to open EtherCAT interface '" ++ ifname ++
    "': need CAP_NET_RAW (run with setcap or as root) and the interface must exist")
  let found ← soem .configInit
  modify fun b => { b with ctxSlaveCount := found.slaveCount }
  whenever (found.result ≤ 0) do
    failOpen fun _ => "no EtherCAT slaves found on '" ++ ifname ++
      "' (is the bus wired and powered?)"
  modify fun b => { b with slaveCount := found.result.toNat }
  return found.result.toNat

/-- All slaves are driven to PRE-OP, and it is confirmed. The bits of an error do not count. -/
def reachPreOp (ifname : String) (count : Nat) : Soem Unit := do
  soem .readState
  writeState 0 EcatState.preOp.toSoemState
  let reached ← soem (.stateCheck 0 EcatState.preOp.toSoemState)
  whenever (reached &&& 0x0F ≠ EcatState.preOp.toSoemState) do
    soem .readState
    failOpen fun b => "EtherCAT slaves did not reach PRE-OP on '" ++ ifname ++ "' (reached " ++
      (EcatState.fromSoemState reached).text ++ ")" ++ b.busDetail text count
  soem .readState

/-- `SoemBackend::open`. -/
def openBus (ifname : String) : Soem Nat := do
  let b ← get
  Soem.require (b.isOpen = false)
    "SoemBackend::open: bus already open (one master per backend; close() first)"
  let count ← enumerate ifname
  reachPreOp text ifname count
  (everySlave count).forM (readyMailbox text ifname)
  modify fun b => { b with isOpen := true }
  return count

/-! ### SDO transfers -/

/-- `SdoOutcome`. -/
structure SdoOutcome where
  aborted : Bool := false
  abortCode : UInt32 := 0
  other : String := ""
deriving DecidableEq, Repr

/-- `drain_sdo_errors`: the last abort counts. -/
def drainSdoErrors (errors : List SoemError) : SdoOutcome :=
  errors.foldl (fun o e => match e with
    | .sdo code => { o with aborted := true, abortCode := code }
    | .other etype => { o with other := o.other ++ " [soem error type " ++ toString etype ++ "]" })
    {}

/-- `describe_sdo_failure`. -/
def describeSdoFailure (op : String) (slave index : UInt16) (sub : UInt8) (bytes : Nat) (wkc : Int)
    (o : SdoOutcome) : String :=
  "SDO " ++ op ++ " slave " ++ toString slave ++ " object 0x" ++ hexDigits 4 index.toNat ++ ":" ++
    hexDigits 2 sub.toNat ++ " (" ++ toString bytes ++ " B) failed" ++
    if o.aborted then
      " -- the drive answered with CoE abort 0x" ++ hexDigits 8 o.abortCode.toNat ++ " (" ++
        text.sdoError o.abortCode ++ "); the request reached the drive and it refused it" ++
        " (working counter " ++ toString wkc ++ " is SOEM's abort convention, not a missing reply)"
    else
      " -- no reply (working counter " ++ toString wkc ++ "): the CoE mailbox did not answer" ++
        o.other

/-- The slave of a transfer is one of the bus. -/
def requireSlave (op : String) (slave : UInt16) : Soem Unit := do
  let b ← get
  Soem.require (1 ≤ slave ∧ slave.toNat ≤ b.slaveCount) ("SoemBackend::" ++ op ++ ": slave " ++
    toString slave ++ " out of range (configured " ++ toString b.slaveCount ++ ")")

/-- A transfer has failed with no answer, or with an error on the stack, which is emptied. -/
def checkTransfer (op : String) (slave index : UInt16) (sub : UInt8) (bytes : Nat) (wkc : Int) :
    Soem Unit := do
  let b ← get
  whenever (wkc ≤ 0 ∨ b.ctx.errors ≠ []) do
    let outcome := drainSdoErrors b.ctx.errors
    modify fun b => { b with ctx.errors := [] }
    throw (.sdo (describeSdoFailure text op slave index sub bytes wkc outcome)
      (if outcome.aborted then outcome.abortCode else 0))

/-- `SoemBackend::sdo_write`. -/
def sdoWrite (d : SdoDownload) : Soem Unit := do
  requireSlave "sdo_write" d.slave
  let wkc ← soem (.sdoWrite d)
  checkTransfer text "write to" d.slave d.index d.sub d.width wkc

/-- `SoemBackend::sdo_read`: the number of bytes that were read. -/
def sdoRead (slave index : UInt16) (sub : UInt8) (size : Nat) : Soem Nat := do
  requireSlave "sdo_read" slave
  let reply ← soem (.sdoRead slave index sub size)
  checkTransfer text "read from" slave index sub size reply.wkc
  return reply.size.toNat

/-! ### The process image and the states -/

/-- `slave_info` and `slave_io` read the slave list. -/
def images (b : SoemBackend) : List SlaveImage :=
  (List.range b.slaveCount).map fun i =>
    ⟨(b.ctx.slavelist (i + 1)).inputBytes, (b.ctx.slavelist (i + 1)).outputBytes⟩

/-- `SoemBackend::map_process_data`. -/
def mapProcessData : Soem Unit := do
  let mapped ← soem .configMapGroup
  whenever (mapped.used ≤ 0 ∨ (iomapBytes : Int) < mapped.used) <|
    throw (.bus (.pdoMapping ("ec_config_map produced an invalid IOmap size (" ++
      toString mapped.used ++ "); the bus image may exceed " ++ toString iomapBytes ++ " bytes")))
  modify fun b => { b with expectedWkc := mapped.outputsWkc.toNat * 2 + mapped.inputsWkc.toNat }

/-- `SoemBackend::request_state`. The callers do not request OP here. -/
def requestState (slave : UInt16) (target : EcatState) : Soem Unit := do
  let want := target.toSoemState
  writeState slave want
  let reached ← soem (.stateCheck slave want)
  whenever (reached ≠ want) do
    soem .readState
    let b ← get
    throw (.bus (.base ("slave " ++ toString slave ++ " did not reach state " ++ target.text ++
      " (reached " ++ (EcatState.fromSoemState reached).text ++ ")" ++
      b.busDetail text b.ctxSlaveCount)))

end

/-- `SoemBackend::set_state`. -/
def setState (slave : UInt16) (target : EcatState) : Soem Unit :=
  writeState slave target.toSoemState

/-- One slave of `reack_op`: an error in SAFE-OP is acknowledged, and a plain SAFE-OP is asked for OP
again, with its mailbox handler revived. -/
def reackSlave (slave : UInt16) : Soem Unit := do
  let b ← get
  let state := (b.ctx.slavelist slave.toNat).state
  if state = EcatState.safeOp.toSoemState + ecStateError then
    writeState slave (EcatState.safeOp.toSoemState + ecStateError)
  else if state = EcatState.safeOp.toSoemState then
    modify fun b =>
      let list := b.ctx.slavelist
      { b with ctx.slavelist := fun i =>
          if i = slave.toNat ∧ (list i).mbxHandler = .lost then
            { list i with mbxHandler := .cyclic }
          else list i }
    writeState slave EcatState.op.toSoemState
  else pure ()

/-- `SoemBackend::reack_op`. Slave 0 stands for all slaves. -/
def reackOp (slave : UInt16) : Soem Unit := do
  soem .readState
  let b ← get
  (if slave = 0 then everySlave b.slaveCount else [slave]).forM reackSlave

/-- `SoemBackend::refresh_slave_state`. -/
def refreshSlaveState (slave : UInt16) : Soem EcatState := do
  let b ← get
  if b.isOpen = false ∨ slave < 1 ∨ b.slaveCount < slave.toNat then return .none
  else
    soem .readState
    let b ← get
    return EcatState.fromSoemState (b.ctx.slavelist slave.toNat).state

/-- `SoemBackend::al_status_code`. -/
def alStatusCode (b : SoemBackend) (slave : UInt16) : UInt16 :=
  if slave < 1 ∨ b.slaveCount < slave.toNat then 0
  else (b.ctx.slavelist slave.toNat).alStatusCode

/-! ### Distributed clocks, the cycle and the end -/

/-- `SoemBackend::configure_dc_configdc`. -/
def configureDcConfigdc : Soem Unit := do
  let dcFound ← soem .configDc
  Soem.require (dcFound = true)
    "use_distributed_clocks is set but ecx_configdc() found NO DC-capable slave on the bus"

/-- `SoemBackend::arm_dc_sync`. -/
def armDcSync (cycleNs : UInt32) (sync0ShiftNs : Int32) : Soem Unit := do
  modify fun b => { b with dcCycleNs := cycleNs }
  let b ← get
  (everySlave b.ctxSlaveCount).forM fun slave => soem (.dcSync0 slave true cycleNs sync0ShiftNs)

/-- `SoemBackend::exchange`. -/
def exchange : Soem Int := soem .processData

/-- SYNC0 off on every slave, when DC was enabled. -/
def disarm : Soem Unit := do
  let b ← get
  whenever (b.dcCycleNs ≠ 0) do
    (everySlave b.ctxSlaveCount).forM fun slave => soem (.dcSync0 slave false 0 0)
    modify fun b => { b with dcCycleNs := 0 }

/-- `SoemBackend::close`. -/
def close : Soem Unit := do
  let b ← get
  whenever (b.isOpen = true) do
    disarm
    writeState 0 EcatState.init.toSoemState
    let _ ← soem (.stateCheck 0 EcatState.init.toSoemState)
    soem .close
    modify fun b => { b with isOpen := false }

/-- `SoemBackend::~SoemBackend`. -/
def destroy : Soem Unit := do
  let b ← get
  whenever (b.isOpen = true) (soem .close)

end SoemBackend

end ViamEthercat
