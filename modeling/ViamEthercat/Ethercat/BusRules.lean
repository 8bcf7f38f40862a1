import ViamEthercat.Ethercat.SoemBackend

/-!
# `ViamEthercat.Ethercat.BusRules`: what a master may ask of a bus, and when

The order that the EtherCAT state machine and distributed clocks want, as a rule on each call. In a
confirmed PRE-OP dictionaries are written and SYNC0 is armed, both ahead of the mapping of the
image, and the reference clock is configured behind it. SAFE-OP is requested on a mapped bus, and OP
on a bus that has confirmed SAFE-OP. Only then there are cycles, and dictionaries can be written
again. SYNC0 can be switched off on any open bus. INIT is requested with SYNC0 off, and nothing is
asked of an interface that is closed.

This is not translated from the source. `BusLine` is what the rules remember of the calls and their
answers, and `BusLine.rule` the next `BusLine` of an allowed call.
-/

set_option autoImplicit false

namespace ViamEthercat

open SoemBackend

/-- The bus, as the calls and their answers show it. What is left of a closed interface stays. -/
structure BusLine where
  connected : Bool := false
  /-- the number of slaves that the enumeration found -/
  found : Nat := 0
  /-- the state last requested of all slaves -/
  requested : EcatState := .none
  /-- a check has found all slaves in that state -/
  confirmed : Bool := false
  mapped : Bool := false
  /-- the reference clock is configured -/
  clocked : Bool := false
  /-- the slaves whose SYNC0 is on -/
  armed : List UInt16 := []
deriving DecidableEq, Repr

namespace BusLine

variable (dc : Bool) (l : BusLine)

/-- Every slave has confirmed PRE-OP. -/
def InPreOp : Prop := l.connected = true ∧ l.requested = .preOp ∧ l.confirmed = true

/-- The maps can be written, and SYNC0 armed. -/
def Writable : Prop := l.InPreOp ∧ l.mapped = false

/-- There are cycles: SAFE-OP is confirmed, or OP requested. -/
def Serving : Prop :=
  l.connected = true ∧ ((l.requested = .safeOp ∧ l.confirmed = true) ∨ l.requested = .op)

/-- SYNC0 is on at every slave with distributed clocks, and at none without. -/
def Synced : Prop := l.armed = if dc then everySlave l.found else []

instance : Decidable l.InPreOp := inferInstanceAs (Decidable (_ ∧ _))
instance : Decidable l.Writable := inferInstanceAs (Decidable (_ ∧ _))
instance : Decidable l.Serving := inferInstanceAs (Decidable (_ ∧ _))
instance : Decidable (l.Synced dc) := inferInstanceAs (Decidable (_ = _))

/-- A state written to all slaves, or to any of them in the wait for OP. -/
def request (slave state : UInt16) : Option BusLine :=
  if l.connected = true ∧ l.requested = .op ∧
      (state = EcatState.op.toSoemState ∨ state = EcatState.safeOp.toSoemState + ecStateError) then
    some l
  else if slave ≠ 0 then none
  else if state = EcatState.preOp.toSoemState then
    if l.connected = true then
      some { l with requested := .preOp, confirmed := false, mapped := false, clocked := false }
    else none
  else if state = EcatState.safeOp.toSoemState then
    if l.InPreOp ∧ l.mapped = true ∧ l.Synced dc ∧ l.clocked = dc then
      some { l with requested := .safeOp, confirmed := false }
    else none
  else if state = EcatState.op.toSoemState then
    if l.Serving then some { l with requested := .op } else none
  else if state = EcatState.init.toSoemState then
    if l.connected = true ∧ l.armed = [] then
      some { l with requested := .init, confirmed := false }
    else none
  else none

/-- The rule: the bus after an allowed call and its answer. -/
def rule (l : BusLine) : (q : SoemCall) → SoemAnswer q → Option BusLine
  | .init _, (result, _) =>
      if l.connected = true then none
      else some (if 0 < result then { connected := true } else l)
  | .configInit, (found, _) =>
      if l.connected = true ∧ l.requested = .none then some { l with found := found.slaveCount }
      else none
  | .readState, _ => if l.connected = true then some l else none
  | .writeState slave state, _ => l.request dc slave state
  | .stateCheck _ want, (state, _) =>
      if l.connected = true then
        some { l with confirmed := decide (want = l.requested.toSoemState ∧ state = want) }
      else none
  | .mbxEmpty _, _ => if l.connected = true then some l else none
  | .sdoRead _ _ _ _, _ => if l.connected = true then some l else none
  | .sdoWrite _, _ => if l.Writable ∨ l.Serving then some l else none
  | .configMapGroup, _ =>
      if l.Writable ∧ l.Synced dc then some { l with mapped := true } else none
  | .configDc, (clocked, _) =>
      if l.InPreOp ∧ l.mapped = true ∧ dc = true then some { l with clocked := clocked } else none
  | .dcSync0 slave true _ _, _ =>
      if l.Writable ∧ dc = true then some { l with armed := l.armed ++ [slave] } else none
  | .dcSync0 slave false _ _, _ =>
      if l.connected = true then some { l with armed := l.armed.erase slave } else none
  | .processData, _ => if l.Serving then some l else none
  | .close, _ => if l.connected = true then some { l with connected := false } else none

end BusLine

end ViamEthercat
