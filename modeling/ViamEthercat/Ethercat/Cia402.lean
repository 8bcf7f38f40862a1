import Mathlib.Logic.Basic

/-!
# `ViamEthercat.Ethercat.Cia402`: statusword, controlword and the enable ladder

The model of `ethercat/cia402.hpp` and `ethercat/cia402.cpp`. The statusword (0x6041)
and the controlword (0x6040) are 16-bit words, as on the wire. `Status.decode` is the
DS402 mask table in the order the source tests it, and `fsmStep` is the stateless
`Cia402Fsm::step`, one controlword toward a goal state.

`Cia402Mode` is a scoped enum over `int8_t` in the source. The profile mode stores a raw
0x6061 echo into it (`static_cast<Cia402Mode>`), so the model keeps every `int8_t` value
and names the five the source names.
-/

set_option autoImplicit false

namespace ViamEthercat

/-- CiA402 modes of operation (0x6060 / 0x6061), by their wire encoding. -/
structure Cia402Mode where
  code : Int8
deriving DecidableEq, Repr

namespace Cia402Mode

def none : Cia402Mode := ⟨0⟩
def profilePosition : Cia402Mode := ⟨1⟩
def profileVelocity : Cia402Mode := ⟨3⟩
def homing : Cia402Mode := ⟨6⟩
def cyclicSyncPosition : Cia402Mode := ⟨8⟩

end Cia402Mode

/-- The eight canonical CiA402 drive states. -/
inductive Cia402State where
  | notReadyToSwitchOn
  | switchOnDisabled
  | readyToSwitchOn
  | switchedOn
  | operationEnabled
  | quickStopActive
  | faultReactionActive
  | fault
deriving DecidableEq, Repr

/-- The statusword 0x6041 as read from the TxPDO. -/
structure Status where
  raw : BitVec 16
deriving DecidableEq, Repr

namespace Status

def operationEnabled (s : Status) : Bool := s.raw.getLsbD 2
def switchedOn (s : Status) : Bool := s.raw.getLsbD 1
def fault (s : Status) : Bool := s.raw.getLsbD 3
def switchOnDisabled (s : Status) : Bool := s.raw.getLsbD 6
def warning (s : Status) : Bool := s.raw.getLsbD 7

/-- Bit 10. Some drives tie it high, see `RtParams.targetReachedBitUsable`. -/
def targetReached (s : Status) : Bool := s.raw.getLsbD 10

/-- Bit 12 in profile position: the drive latched a new set-point. -/
def setpointAcknowledged (s : Status) : Bool := s.raw.getLsbD 12

/-- Bit 12 in homing mode: the procedure finished. -/
def homingAttained (s : Status) : Bool := s.raw.getLsbD 12

/-- Bit 13 in homing mode: the procedure failed. -/
def homingError (s : Status) : Bool := s.raw.getLsbD 13

/-- Bits 0, 1, 2, 3 and 6: the states that do not depend on bit 5. -/
def stateMaskLow : BitVec 16 := 0x4F#16

/-- `stateMaskLow` with bit 5 (quick-stop). -/
def stateMaskFull : BitVec 16 := 0x6F#16

/-- The drive state, per the DS402 mask table. A word that matches no row is read as
`fault`, never as operational. -/
def decode (s : Status) : Cia402State :=
  if s.raw &&& stateMaskLow = 0x00#16 then .notReadyToSwitchOn
  else if s.raw &&& stateMaskLow = 0x40#16 then .switchOnDisabled
  else if s.raw &&& stateMaskFull = 0x21#16 then .readyToSwitchOn
  else if s.raw &&& stateMaskFull = 0x23#16 then .switchedOn
  else if s.raw &&& stateMaskFull = 0x27#16 then .operationEnabled
  else if s.raw &&& stateMaskFull = 0x07#16 then .quickStopActive
  else if s.raw &&& stateMaskLow = 0x0F#16 then .faultReactionActive
  else if s.raw &&& stateMaskLow = 0x08#16 then .fault
  else .fault

end Status

/-- Controlword encoders. Each gives an absolute level, not a delta: an edge is made by
toggling the level across cycles. -/
abbrev ControlWord := BitVec 16

namespace ControlWord

def newSetpointBit : ControlWord := 0x0010#16
def faultResetBit : ControlWord := 0x0080#16
def haltBit : ControlWord := 0x0100#16

def shutdown : ControlWord := 0x0006#16
def switchOn : ControlWord := 0x0007#16
def enableOperation : ControlWord := 0x000F#16
def disableVoltage : ControlWord := 0x0000#16
def quickStop : ControlWord := 0x0002#16
def faultReset : ControlWord := faultResetBit

/-- Set or clear the Halt bit (bit 8) on a base word. -/
def withHalt (base : ControlWord) (halt : Bool) : ControlWord :=
  if halt then base ||| haltBit else base &&& ~~~haltBit

/-- Set or clear bit 4 on a base word: the new-set-point bit in profile position, the
start bit in homing. -/
def withNewSetpoint (base : ControlWord) (newSetpoint : Bool) : ControlWord :=
  if newSetpoint then base ||| newSetpointBit else base &&& ~~~newSetpointBit

/-- The enable-operation bit, bit 3. -/
def enableBit (cw : ControlWord) : Bool := cw.getLsbD 3

/-- Bit 4 of a written word. -/
def bit4 (cw : ControlWord) : Bool := cw.getLsbD 4

/-- Bit 7 of a written word. -/
def bit7 (cw : ControlWord) : Bool := cw.getLsbD 7

/-- Bit 8 of a written word. -/
def halt (cw : ControlWord) : Bool := cw.getLsbD 8

end ControlWord

open ControlWord in
/-- `Cia402Fsm::step`: one controlword from the decoded state toward `goal`. A fault takes
priority over the goal, and the returned reset level is edged by the caller. -/
def fsmStep (current : Status) (goal : Cia402State) : ControlWord :=
  let state := current.decode
  if state = .fault then faultReset
  else if state = .faultReactionActive then disableVoltage
  else match goal with
    | .switchOnDisabled => disableVoltage
    | .readyToSwitchOn => shutdown
    | .quickStopActive => ControlWord.quickStop
    | .switchedOn => if state = .switchOnDisabled then shutdown else switchOn
    | .notReadyToSwitchOn | .operationEnabled | .faultReactionActive | .fault =>
        match state with
        | .switchOnDisabled => shutdown
        | .readyToSwitchOn => switchOn
        | .switchedOn | .operationEnabled | .quickStopActive => enableOperation
        | .notReadyToSwitchOn | .faultReactionActive | .fault => disableVoltage

end ViamEthercat
