import ViamEthercat.Ethercat.Cia402

/-!
# `ViamEthercat.Ethercat.Cycle`: what one dispatch hands to a control

The model of the part of `ethercat/runner.hpp` that a control sees. `CycleInput` is one
cycle's latched input image, with the bus-fault latch and the stopping flag of the
`CycleContext`. `Outputs` is the slave's output image. `RtCore::dispatch` seeds the
context's output buffer from the live image and copies it back after the hook, so a field
that a hook does not store keeps its value: the model threads one `Outputs` through the
hooks.

`Fields` says which optional objects the PDO map carries. An object that is not mapped has
no location, so a store to it is skipped and a load from it is never made.
-/

set_option autoImplicit false

namespace ViamEthercat

/-- One cycle's feedback: the TxPDO image and the two flags of the context. -/
structure CycleInput where
  /-- 0x6041 -/
  status : Status
  /-- 0x6064 -/
  actual : Int32
  /-- 0x6061, read only when mapped -/
  modeDisplay : Int8
  /-- 0x603F, read only when mapped -/
  faultCode : BitVec 16
  /-- 0x606C, read only when mapped -/
  velocityActual : Int32
  /-- the Master's consecutive-WKC latch, `ctx.fault()` -/
  fault : Bool
  /-- the working counter of the last exchange, `ctx.wkc().last` -/
  wkcLast : Int
  /-- the Runner is in its stopping window -/
  stopping : Bool
deriving DecidableEq, Repr

/-- The objects a PDO map may or may not carry. -/
structure Fields where
  modeOfOperation : Bool
  modeDisplay : Bool
  faultCode : Bool
  velocityActual : Bool
  targetPosition : Bool
  profileVelocity : Bool
  targetVelocity : Bool
deriving DecidableEq, Repr

/-- The output image of the slave. -/
structure Outputs where
  /-- 0x6040 -/
  controlword : ControlWord
  /-- 0x6060 -/
  modeOfOperation : Int8
  /-- 0x607A -/
  targetPosition : Int32
  /-- 0x6081 -/
  profileVelocity : UInt32
  /-- 0x60FF -/
  targetVelocity : Int32
deriving DecidableEq, Repr

namespace Outputs

def zero : Outputs := ⟨0#16, 0, 0, 0, 0⟩

def storeControlword (o : Outputs) (cw : ControlWord) : Outputs := { o with controlword := cw }

def storeMode (f : Fields) (o : Outputs) (m : Cia402Mode) : Outputs :=
  if f.modeOfOperation then { o with modeOfOperation := m.code } else o

def storeTargetPosition (f : Fields) (o : Outputs) (v : Int32) : Outputs :=
  if f.targetPosition then { o with targetPosition := v } else o

def storeProfileVelocity (f : Fields) (o : Outputs) (v : UInt32) : Outputs :=
  if f.profileVelocity then { o with profileVelocity := v } else o

def storeTargetVelocity (f : Fields) (o : Outputs) (v : Int32) : Outputs :=
  if f.targetVelocity then { o with targetVelocity := v } else o

end Outputs

/-- What a stepped component leaves: its next state, the output image, whether it asked
the Runner to stop, and the controlword it returned. -/
structure StepResult (σ : Type) where
  next : σ
  outputs : Outputs
  requestStop : Bool
  controlword : ControlWord

/-- The same step, with the next state wrapped into a larger one. -/
def StepResult.map {σ τ : Type} (f : σ → τ) (r : StepResult σ) : StepResult τ :=
  ⟨f r.next, r.outputs, r.requestStop, r.controlword⟩

section
variable {σ τ : Type} (f : σ → τ) (r : StepResult σ)

@[simp] theorem StepResult.map_next : (r.map f).next = f r.next := rfl
@[simp] theorem StepResult.map_controlword : (r.map f).controlword = r.controlword := rfl

end

end ViamEthercat
