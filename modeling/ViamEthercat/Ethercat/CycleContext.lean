import ViamEthercat.Ethercat.PdoBuffer
import ViamEthercat.Ethercat.PdoMapping

/-!
# `ViamEthercat.Ethercat.CycleContext`: the images around a hook

The model of `CycleContext` (`ethercat/runner.hpp`) and of `RtCore::dispatch`
(`ethercat/runner.cpp`), with the bytes that are copied. The context owns two arrays. `dispatch`
fills them from the live images of the slave, runs the hook, and copies the output array back.

A hook is the list of the stores that it makes. A control that kept a reference to its context
stores through it between two windows too. `check_live` is an assertion and does nothing in a
release build.

A copy or a store that leaves its array is undefined behaviour, `none` here.
-/

set_option autoImplicit false

namespace ViamEthercat

open Lib

/-- `std::array<std::byte, kMaxPdoBytes>`. -/
structure PdoArray where
  bytes : List UInt8
  length_eq : bytes.length = maxPdoBytes

namespace PdoArray

variable (a : PdoArray)

/-- `memcpy` into the array. -/
def fill (image : List UInt8) : Option PdoArray :=
  if h : image.length ≤ maxPdoBytes then
    some ⟨image ++ a.bytes.drop image.length, by
      rw [List.length_append, List.length_drop, a.length_eq]
      omega⟩
  else none

theorem fill_eq {image : List UInt8} (h : image.length ≤ maxPdoBytes) :
    ∃ b : PdoArray, a.fill image = some b ∧ b.bytes = image ++ a.bytes.drop image.length :=
  ⟨_, dif_pos h, rfl⟩

/-- `memcpy` of the first `n` bytes out of the array. -/
def prefixBytes (n : Nat) : Option (List UInt8) :=
  if n ≤ maxPdoBytes then some (a.bytes.take n) else none

theorem prefixBytes_eq {n : Nat} (h : n ≤ maxPdoBytes) :
    a.prefixBytes n = some (a.bytes.take n) := if_pos h

end PdoArray

/-- The arguments of one `store`: a location, and a value as its word of `size` bytes. -/
structure FieldStore where
  loc : Nat
  size : Nat
  word : BitVec (8 * size)

namespace FieldStore

/-- The store of a scalar. -/
def ofScalar {T : Type} [PdoScalar T] (loc : Nat) (value : T) : FieldStore :=
  ⟨loc, PdoScalar.size T, PdoScalar.bits value⟩

variable (w : FieldStore)

/-- `store_le` at the location. -/
def apply (image : List UInt8) : List UInt8 := writeAt (octet w.word) w.loc w.size image

/-- The store stays inside an image of `n` bytes. -/
def InRange (n : Nat) : Prop := w.loc + w.size ≤ n

instance (n : Nat) : Decidable (w.InRange n) := inferInstanceAs (Decidable (_ ≤ _))

theorem apply_ofScalar {T : Type} [PdoScalar T] (loc : Nat) (value : T) (image : List UInt8) :
    (ofScalar loc value).apply image = storeLe image loc value := rfl

@[simp] theorem length_apply (image : List UInt8) : (w.apply image).length = image.length :=
  length_writeAt ..

end FieldStore

/-- `CycleContext`. -/
structure CycleContext where
  inputs : PdoArray
  outputs : PdoArray
  inputSize : Nat
  outputSize : Nat
  cycle : UInt64
  dcTime : Int64
  stopping : Bool
  live : Bool

/-- `CycleContext::store`, without bounds check. -/
def CycleContext.store (ctx : CycleContext) (w : FieldStore) : Option CycleContext :=
  if w.InRange maxPdoBytes then
    some { ctx with
      outputs := ⟨w.apply ctx.outputs.bytes, by rw [w.length_apply, ctx.outputs.length_eq]⟩ }
  else none

theorem CycleContext.store_eq (ctx : CycleContext) {w : FieldStore} (h : w.InRange maxPdoBytes) :
    ∃ outputs : PdoArray, ctx.store w = some { ctx with outputs := outputs } ∧
      outputs.bytes = w.apply ctx.outputs.bytes :=
  ⟨_, if_pos h, rfl⟩

/-- `SlaveIo`: the live images of the slave. -/
structure SlaveIo where
  inputs : List UInt8
  outputs : List UInt8

/-- The sizes of the two spans. -/
def SlaveIo.image (io : SlaveIo) : SlaveImage := ⟨io.inputs.length, io.outputs.length⟩

/-- One call of `dispatch`, with the stores of its hook. -/
structure DispatchCall where
  cycle : UInt64
  dc : Int64
  stopping : Bool
  stores : List FieldStore

/-- The context of one control, and the live images that it works on. -/
structure DispatchState where
  ctx : CycleContext
  io : SlaveIo

/-- `RtCore::dispatch`. -/
def DispatchState.dispatch (s : DispatchState) (call : DispatchCall) : Option DispatchState := do
  let inputs ← s.ctx.inputs.fill s.io.inputs
  let outputs ← s.ctx.outputs.fill s.io.outputs
  let ctx ← call.stores.foldlM CycleContext.store
    { inputs := inputs
      outputs := outputs
      inputSize := s.io.inputs.length
      outputSize := s.io.outputs.length
      cycle := call.cycle
      dcTime := call.dc
      stopping := call.stopping
      live := true }
  let out ← ctx.outputs.prefixBytes s.io.outputs.length
  return { ctx := { ctx with live := false }, io := { s.io with outputs := out } }

/-- What happens to a control and its images. -/
inductive DispatchEvent where
  | dispatch (call : DispatchCall)
  /-- a store through a reference that the control has kept, between two windows -/
  | stale (w : FieldStore)
  /-- the images are exchanged or mapped anew, also with other sizes -/
  | refresh (io : SlaveIo)

namespace DispatchState

/-- One event. -/
def step (s : DispatchState) : DispatchEvent → Option DispatchState
  | .dispatch call => s.dispatch call
  | .stale w => do
      let ctx ← s.ctx.store w
      return { s with ctx := ctx }
  | .refresh io => some { s with io := io }

/-- A sequence of events. -/
def run (s : DispatchState) (events : List DispatchEvent) : Option DispatchState :=
  events.foldlM step s

end DispatchState

end ViamEthercat
