import Mathlib.Data.List.Basic
import Mathlib.Algebra.Group.Nat.Defs
import Mathlib.Logic.Function.Basic

/-!
# `ViamEthercat.Ethercat.RxSnapshot`: the seqlock of the feedback image

The model of `RxSnapshot` (`ethercat/pdo_cache.cpp`) as one writer and any number of readers over
a shared memory. Every atomic load and store is a step of its own, in sequentially consistent
order. `publish` and `read` are program counters with the locals of the function.

The payload array is a function from the index. Its first `size` bytes are accessed. `seq_` is a
number modulo 2^64.
-/

set_option autoImplicit false

namespace ViamEthercat

/-- The arguments of one `publish`. -/
structure PublishCall where
  payload : List UInt8
  workingCounter : UInt16
  cycle : UInt64
deriving DecidableEq, Repr

/-- `PdoSnapshot`. -/
structure PdoSnapshot where
  bytes : Nat → UInt8 := fun _ => 0
  size : Nat := 0
  workingCounter : UInt16 := 0
  cycle : UInt64 := 0
  valid : Bool := false
  stale : Bool := false

/-- `kMaxReadRetries`. -/
def maxReadRetries : Nat := 16

/-- The shared memory: the members of `RxSnapshot`. -/
structure RxSnapshot where
  seq : Nat := 0
  size : Nat
  cycle : UInt64 := 0
  bytes : Nat → UInt8 := fun _ => 0
  wkc : UInt16 := 0

/-- `RxSnapshot::RxSnapshot`: the size is clamped to the array. -/
def RxSnapshot.new (payloadSize : Nat) : RxSnapshot := { size := min payloadSize 512 }

/-- Where the writer is. The step that a constructor names comes next. -/
inductive PublishPc where
  | idle
  | loadSeq (call : PublishCall)
  | storeOdd (call : PublishCall) (odd : Nat)
  | storeByte (call : PublishCall) (odd i : Nat)
  | storeWkc (call : PublishCall) (odd : Nat)
  | storeCycle (call : PublishCall) (odd : Nat)
  | storeEven (odd : Nat)
deriving DecidableEq, Repr

/-- Where a reader is in its attempt `k`, with the locals it has loaded. -/
inductive ReadPc where
  | idle
  | loadSeq (k : Nat)
  | loadByte (k s0 i : Nat)
  | loadWkc (k s0 : Nat)
  | loadCycle (k s0 : Nat) (wkc : UInt16)
  | reload (k s0 : Nat) (wkc : UInt16) (cycle : UInt64)
  | exhausted
deriving DecidableEq, Repr

/-- A reader: its `out.bytes`, and what its calls of `read` have returned, the last one first. -/
structure SnapshotReader where
  pc : ReadPc := .idle
  out : Nat → UInt8 := fun _ => 0
  results : List PdoSnapshot := []

/-- The whole system. `published` are the calls of `publish` so far, in order. -/
structure SnapshotSystem where
  shared : RxSnapshot
  writer : PublishPc := .idle
  readers : Nat → SnapshotReader := fun _ => {}
  published : List PublishCall := []

/-- One step of the system. -/
inductive SnapshotEvent where
  /-- the writer calls `publish` -/
  | publish (call : PublishCall)
  /-- the next step of the writer -/
  | write
  /-- the reader `r` calls `read` -/
  | call (r : Nat)
  /-- the next step of the reader `r` -/
  | read (r : Nat)
deriving DecidableEq, Repr

namespace RxSnapshot

variable (m : RxSnapshot)

/-- The byte that `publish` stores at `i`: beyond the payload the frame is zero. -/
def payloadByte (call : PublishCall) (i : Nat) : UInt8 :=
  if i < min call.payload.length m.size then call.payload.getD i 0 else 0

/-- The loop over the bytes of `publish` goes on, or is over. -/
def nextByte (call : PublishCall) (odd i : Nat) : PublishPc :=
  if i < m.size then .storeByte call odd i else .storeWkc call odd

/-- One step of `publish`. -/
def stepPublish : PublishPc → RxSnapshot × PublishPc
  | .idle => (m, .idle)
  -- The next odd value, whatever the parity is.
  | .loadSeq call => (m, .storeOdd call (((m.seq + 1) % 2 ^ 64) ||| 1))
  | .storeOdd call odd => ({ m with seq := odd }, m.nextByte call odd 0)
  | .storeByte call odd i =>
      ({ m with bytes := Function.update m.bytes i (m.payloadByte call i) },
        m.nextByte call odd (i + 1))
  | .storeWkc call odd => ({ m with wkc := call.workingCounter }, .storeCycle call odd)
  | .storeCycle call odd => ({ m with cycle := call.cycle }, .storeEven odd)
  | .storeEven odd => ({ m with seq := (odd + 1) % 2 ^ 64 }, .idle)

/-- The loop over the bytes of `read` goes on, or is over. -/
def nextLoad (k s0 i : Nat) : ReadPc := if i < m.size then .loadByte k s0 i else .loadWkc k s0

/-- The attempt `k` has failed. -/
def retry (k : Nat) : ReadPc := if k + 1 < maxReadRetries then .loadSeq (k + 1) else .exhausted

/-- One step of `read`. -/
def stepRead (r : SnapshotReader) : SnapshotReader :=
  match r.pc with
  | .idle => r
  | .loadSeq k =>
      -- A write is in progress.
      if m.seq &&& 1 ≠ 0 then { r with pc := retry k } else { r with pc := m.nextLoad k m.seq 0 }
  | .loadByte k s0 i =>
      { r with out := Function.update r.out i (m.bytes i), pc := m.nextLoad k s0 (i + 1) }
  | .loadWkc k s0 => { r with pc := .loadCycle k s0 m.wkc }
  | .loadCycle k s0 wkc => { r with pc := .reload k s0 wkc m.cycle }
  | .reload k s0 wkc cycle =>
      if m.seq = s0 then
        { r with
            pc := .idle
            results :=
              { bytes := r.out, size := m.size, workingCounter := wkc, cycle := cycle
                valid := true } :: r.results }
      else { r with pc := retry k }
  | .exhausted =>
      { r with
          pc := .idle
          results := { bytes := r.out, cycle := m.cycle, stale := true } :: r.results }

/-- A call of `read` starts with an empty `out`. -/
def beginRead (r : SnapshotReader) : SnapshotReader :=
  if r.pc = .idle then { r with pc := .loadSeq 0, out := fun _ => 0 } else r

end RxSnapshot

namespace SnapshotSystem

/-- The system before the first `publish`. -/
def new (payloadSize : Nat) : SnapshotSystem := { shared := .new payloadSize }

variable (s : SnapshotSystem)

/-- One step. What is not enabled leaves the system as it is. -/
def step : SnapshotEvent → SnapshotSystem
  | .publish call =>
      if s.writer = .idle then
        { s with writer := .loadSeq call, published := s.published ++ [call] }
      else s
  | .write =>
      let (shared, writer) := s.shared.stepPublish s.writer
      { s with shared := shared, writer := writer }
  | .call r =>
      { s with readers := Function.update s.readers r (RxSnapshot.beginRead (s.readers r)) }
  | .read r => { s with readers := Function.update s.readers r (s.shared.stepRead (s.readers r)) }

end SnapshotSystem

end ViamEthercat
