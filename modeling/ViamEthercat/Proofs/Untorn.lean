import ViamEthercat.Ethercat.RxSnapshot
import ViamEthercat.Lib.Run
import Mathlib.Data.Nat.Bitwise

/-!
# `ViamEthercat.Proofs.Untorn`: a snapshot is one frame

The writer makes the sequence number odd before it touches the payload and even again after it. A
reader that finds the same even number before and after its loads has loaded while no write was
in progress, since the number never returns to an old value.

Frame 0 is the zero frame and frame `n + 1` that of the publish `n`. The number of the frame that
the memory holds is half the sequence number.

* `WriterInv`: what the memory holds at each step of `publish`.
* `ReaderInv`: what a reader has loaded, as long as the sequence number is still its own.
* `snapshot_untorn`: a valid snapshot is one frame, and the frames of successive valid reads do
  not go back.
-/

set_option autoImplicit false

namespace ViamEthercat

open Lib

/-! ### Frames -/

/-- The content of the memory after one `publish`. -/
structure SnapshotFrame where
  bytes : Nat → UInt8
  workingCounter : UInt16
  cycle : UInt64

/-- The initial frame. -/
def zeroFrame : SnapshotFrame := ⟨fun _ => 0, 0, 0⟩

/-- The frame of a call. Its payload is filled up with zeros, and cut off where it is compared. -/
def PublishCall.frame (call : PublishCall) : SnapshotFrame :=
  ⟨fun i => call.payload.getD i 0, call.workingCounter, call.cycle⟩

/-- The snapshot shows the frame: its `size` bytes, its working counter and its cycle are those of
the frame. -/
def PdoSnapshot.Shows (x : PdoSnapshot) (f : SnapshotFrame) : Prop :=
  (∀ i < x.size, x.bytes i = f.bytes i) ∧ x.workingCounter = f.workingCounter ∧ x.cycle = f.cycle

/-- The frame `k` of the calls. -/
def frameAt (calls : List PublishCall) : Nat → SnapshotFrame
  | 0 => zeroFrame
  | k + 1 => (calls[k]?.map PublishCall.frame).getD zeroFrame

/-- A further call does not change the frames before it. -/
theorem frameAt_append {calls : List PublishCall} {call : PublishCall} {k : Nat}
    (hk : k ≤ calls.length) : frameAt (calls ++ [call]) k = frameAt calls k := by
  cases k with
  | zero => rfl
  | succ k => simp only [frameAt, List.getElem?_append_left (show k < calls.length from hk)]

theorem frameAt_last (calls : List PublishCall) (call : PublishCall) :
    frameAt (calls ++ [call]) (calls.length + 1) = call.frame := by
  simp [frameAt]

/-- Every frame is the zero frame or that of a call. -/
theorem frameAt_cases (calls : List PublishCall) (k : Nat) :
    frameAt calls k = zeroFrame ∨ ∃ call ∈ calls, frameAt calls k = call.frame := by
  cases k with
  | zero => exact .inl rfl
  | succ k =>
      cases hcall : calls[k]? with
      | none => exact .inl (by simp [frameAt, hcall])
      | some call =>
          exact .inr ⟨call, List.mem_of_getElem? hcall, by simp [frameAt, hcall]⟩

/-! ### The writer -/

namespace RxSnapshot

/-- The memory holds the frame. -/
def Holds (m : RxSnapshot) (f : SnapshotFrame) : Prop :=
  (∀ i < m.size, m.bytes i = f.bytes i) ∧ m.wkc = f.workingCounter ∧ m.cycle = f.cycle

theorem payloadByte_eq {m : RxSnapshot} (call : PublishCall) {i : Nat} (hi : i < m.size) :
    m.payloadByte call i = call.frame.bytes i := by
  unfold payloadByte PublishCall.frame
  by_cases hlen : i < call.payload.length
  · rw [if_pos (by omega)]
  · rw [if_neg (by omega)]
    exact (List.getD_eq_default _ _ (not_lt.mp hlen)).symm

end RxSnapshot

/-- A write of the call is in progress: the sequence number is odd, and the first `i` bytes are
those of the call. -/
structure Writing (m : RxSnapshot) (calls : List PublishCall) (call : PublishCall) (odd i : Nat) :
    Prop where
  last : ∃ before, calls = before ++ [call] ∧ odd = 2 * before.length + 1
  seq : m.seq = odd
  stored : ∀ j < i, m.bytes j = call.frame.bytes j

/-- What the memory holds at each step of the writer. -/
def WriterInv (m : RxSnapshot) (calls : List PublishCall) : PublishPc → Prop
  | .idle => m.seq = 2 * calls.length ∧ m.Holds (frameAt calls calls.length)
  | .loadSeq call => ∃ before, calls = before ++ [call] ∧ m.seq = 2 * before.length ∧
      m.Holds (frameAt before before.length)
  | .storeOdd call odd => ∃ before, calls = before ++ [call] ∧ m.seq = 2 * before.length ∧
      odd = 2 * before.length + 1 ∧ m.Holds (frameAt before before.length)
  | .storeByte call odd i => i < m.size ∧ Writing m calls call odd i
  | .storeWkc call odd => Writing m calls call odd m.size
  | .storeCycle call odd => Writing m calls call odd m.size ∧ m.wkc = call.workingCounter
  | .storeEven odd => m.seq = odd ∧ odd + 1 = 2 * calls.length ∧
      m.Holds (frameAt calls calls.length)

/-- While the sequence number is even the memory holds its frame. -/
theorem WriterInv.holds {m : RxSnapshot} {calls : List PublishCall} {pc : PublishPc}
    (h : WriterInv m calls pc) :
    m.seq / 2 ≤ calls.length ∧ (m.seq % 2 = 0 → m.Holds (frameAt calls (m.seq / 2))) := by
  have hodd {call : PublishCall} {odd i : Nat} (hw : Writing m calls call odd i) :
      m.seq / 2 ≤ calls.length ∧ (m.seq % 2 = 0 → m.Holds (frameAt calls (m.seq / 2))) := by
    obtain ⟨⟨before, rfl, hlast⟩, hseq, -⟩ := hw
    rw [List.length_append, List.length_singleton]
    exact ⟨by omega, fun heven => by omega⟩
  have hbefore {before : List PublishCall} {call : PublishCall} (hcalls : calls = before ++ [call])
      (hseq : m.seq = 2 * before.length) (hholds : m.Holds (frameAt before before.length)) :
      m.seq / 2 ≤ calls.length ∧ (m.seq % 2 = 0 → m.Holds (frameAt calls (m.seq / 2))) := by
    subst hcalls
    have hhalf : m.seq / 2 = before.length := by omega
    rw [hhalf, frameAt_append le_rfl, List.length_append]
    exact ⟨Nat.le_add_right _ _, fun _ => hholds⟩
  cases pc with
  | idle =>
      have hhalf : m.seq / 2 = calls.length := by rw [h.1]; omega
      rw [hhalf]
      exact ⟨le_rfl, fun _ => h.2⟩
  | loadSeq call =>
      obtain ⟨before, hcalls, hseq, hholds⟩ := h
      exact hbefore hcalls hseq hholds
  | storeOdd call odd =>
      obtain ⟨before, hcalls, hseq, -, hholds⟩ := h
      exact hbefore hcalls hseq hholds
  | storeByte call odd i => exact hodd h.2
  | storeWkc call odd => exact hodd h
  | storeCycle call odd => exact hodd h.1
  | storeEven odd =>
      obtain ⟨hseq, hlast, -⟩ := h
      exact ⟨by omega, fun heven => by omega⟩

/-- The next odd value after an even one. -/
theorem next_odd (n : Nat) (hn : n < 2 ^ 62) : ((2 * n + 1) % 2 ^ 64) ||| 1 = 2 * n + 1 := by
  rw [Nat.mod_eq_of_lt (by omega)]
  apply Nat.eq_of_testBit_eq
  intro i
  cases i with
  | zero => simp
  | succ i =>
      rw [Nat.testBit_or, Nat.testBit_succ 1, show 1 / 2 = 0 from rfl, Nat.zero_testBit,
        Bool.or_false]

/-- The loop over the bytes keeps the count of the stored ones. -/
theorem writerInv_nextByte {m : RxSnapshot} {calls : List PublishCall} {call : PublishCall}
    {odd i : Nat} (h : Writing m calls call odd i) (hi : i ≤ m.size) :
    WriterInv m calls (m.nextByte call odd i) := by
  unfold RxSnapshot.nextByte
  by_cases hlt : i < m.size
  · rw [if_pos hlt]
    exact ⟨hlt, h⟩
  · rw [if_neg hlt]
    obtain rfl : i = m.size := by omega
    exact h

/-- A step of the writer keeps what the memory holds, and does not lower the sequence number. -/
theorem writerInv_step {m : RxSnapshot} {calls : List PublishCall} {pc : PublishPc}
    (h : WriterInv m calls pc) (hcount : calls.length < 2 ^ 62) :
    WriterInv (m.stepPublish pc).1 calls (m.stepPublish pc).2 ∧
      m.seq ≤ (m.stepPublish pc).1.seq := by
  cases pc with
  | idle => exact ⟨h, le_rfl⟩
  | loadSeq call =>
      obtain ⟨before, rfl, hseq, hholds⟩ := h
      rw [List.length_append, List.length_singleton] at hcount
      refine ⟨⟨before, rfl, hseq, ?_, hholds⟩, le_rfl⟩
      show ((m.seq + 1) % 2 ^ 64) ||| 1 = 2 * before.length + 1
      rw [hseq]
      exact next_odd before.length (by omega)
  | storeOdd call odd =>
      obtain ⟨before, rfl, hseq, rfl, -⟩ := h
      refine ⟨?_, ?_⟩
      · refine writerInv_nextByte (m := { m with seq := 2 * before.length + 1 }) ?_ (Nat.zero_le _)
        exact ⟨⟨before, rfl, rfl⟩, rfl, fun j hj => absurd hj (Nat.not_lt_zero j)⟩
      · show m.seq ≤ 2 * before.length + 1
        omega
  | storeByte call odd i =>
      obtain ⟨hi, hlast, hseq, hstored⟩ := h
      refine ⟨?_, le_rfl⟩
      refine writerInv_nextByte
        (m := { m with bytes := Function.update m.bytes i (m.payloadByte call i) })
        ⟨hlast, hseq, fun j hj => ?_⟩ hi
      show Function.update m.bytes i (m.payloadByte call i) j = call.frame.bytes j
      rcases Nat.lt_succ_iff_lt_or_eq.mp hj with hj | rfl
      · rw [Function.update_of_ne (by omega), hstored j hj]
      · rw [Function.update_self, RxSnapshot.payloadByte_eq call hi]
  | storeWkc call odd =>
      obtain ⟨hlast, hseq, hstored⟩ := h
      exact ⟨⟨⟨hlast, hseq, hstored⟩, rfl⟩, le_rfl⟩
  | storeCycle call odd =>
      obtain ⟨⟨⟨before, rfl, hlast⟩, hseq, hstored⟩, hwkc⟩ := h
      refine ⟨⟨hseq, ?_, ?_⟩, le_rfl⟩
      · rw [List.length_append, List.length_singleton]
        omega
      · rw [List.length_append, List.length_singleton, frameAt_last]
        exact ⟨hstored, hwkc, rfl⟩
  | storeEven odd =>
      obtain ⟨hseq, hlast, hholds⟩ := h
      have hnext : (odd + 1) % 2 ^ 64 = 2 * calls.length := by omega
      refine ⟨⟨hnext, hholds⟩, ?_⟩
      show m.seq ≤ (odd + 1) % 2 ^ 64
      omega

/-! ### The readers -/

/-- What is loaded after the sequence number `s0` is that of its frame, as long as the number is
still the same. -/
structure Loaded (m : RxSnapshot) (calls : List PublishCall) (s0 : Nat)
    (agrees : SnapshotFrame → Prop) : Prop where
  even : s0 % 2 = 0
  le : s0 ≤ m.seq
  agrees : m.seq = s0 → agrees (frameAt calls (s0 / 2))

/-- The loads go on for as long as a writer does not interfere. -/
theorem Loaded.keep {m m' : RxSnapshot} {calls calls' : List PublishCall} {s0 : Nat}
    {agrees : SnapshotFrame → Prop} (h : Loaded m calls s0 agrees) (hle : m.seq ≤ m'.seq)
    (hframe : frameAt calls' (s0 / 2) = frameAt calls (s0 / 2)) : Loaded m' calls' s0 agrees := by
  refine ⟨h.even, h.le.trans hle, fun hseq => ?_⟩
  -- The number has not moved and come back.
  have hsame : m.seq = s0 := le_antisymm (hle.trans hseq.le) h.le
  rw [hframe]
  exact h.agrees hsame

/-- A load adds what the memory holds. -/
theorem Loaded.load {m : RxSnapshot} {calls : List PublishCall} {pc : PublishPc} {s0 : Nat}
    {agrees agrees' : SnapshotFrame → Prop} (h : Loaded m calls s0 agrees)
    (hw : WriterInv m calls pc) (hload : ∀ f, agrees f → m.Holds f → agrees' f) :
    Loaded m calls s0 agrees' := by
  refine ⟨h.even, h.le, fun hseq => hload _ (h.agrees hseq) ?_⟩
  have hholds := hw.holds.2 (by rw [hseq]; exact h.even)
  rwa [hseq] at hholds

/-- What a reader has loaded. -/
def ReaderLoaded (m : RxSnapshot) (calls : List PublishCall) (out : Nat → UInt8) : ReadPc → Prop
  | .idle | .loadSeq _ | .exhausted => True
  | .loadByte _ s0 i => i < m.size ∧ Loaded m calls s0 fun f => ∀ j < i, out j = f.bytes j
  | .loadWkc _ s0 => Loaded m calls s0 fun f => ∀ j < m.size, out j = f.bytes j
  | .loadCycle _ s0 wkc => Loaded m calls s0 fun f =>
      (∀ j < m.size, out j = f.bytes j) ∧ wkc = f.workingCounter
  | .reload _ s0 wkc cycle => Loaded m calls s0 fun f =>
      (∀ j < m.size, out j = f.bytes j) ∧ wkc = f.workingCounter ∧ cycle = f.cycle

/-- The latest frame that the reader can have shown. -/
def ReadPc.latest (m : RxSnapshot) : ReadPc → Nat
  | .idle | .loadSeq _ | .exhausted => m.seq / 2
  | .loadByte _ s0 _ | .loadWkc _ s0 | .loadCycle _ s0 _ | .reload _ s0 _ _ => s0 / 2

/-- The valid ones of the snapshots, the last one first, show frames that do not go back, the last
of them none beyond `latest`. -/
def Served (calls : List PublishCall) (size : Nat) : Nat → List PdoSnapshot → Prop
  | _, [] => True
  | latest, x :: xs =>
      (x.valid = false ∧ Served calls size latest xs) ∨
        (x.size = size ∧ ∃ k ≤ latest, x.Shows (frameAt calls k) ∧ Served calls size k xs)

theorem Served.mono {calls : List PublishCall} {size latest latest' : Nat}
    {xs : List PdoSnapshot} (h : Served calls size latest xs) (hle : latest ≤ latest') :
    Served calls size latest' xs := by
  induction xs with
  | nil => trivial
  | cons x xs ih =>
      rcases h with ⟨hinvalid, hrest⟩ | ⟨hsize, k, hk, hshows⟩
      · exact .inl ⟨hinvalid, ih hrest⟩
      · exact .inr ⟨hsize, k, hk.trans hle, hshows⟩

/-- What was shown depends on the frames up to the latest one alone. -/
theorem Served.congr {calls calls' : List PublishCall} {size latest : Nat}
    {xs : List PdoSnapshot} (h : Served calls size latest xs)
    (hframe : ∀ k ≤ latest, frameAt calls' k = frameAt calls k) :
    Served calls' size latest xs := by
  induction xs generalizing latest with
  | nil => trivial
  | cons x xs ih =>
      rcases h with ⟨hinvalid, hrest⟩ | ⟨hsize, k, hk, hshows, hrest⟩
      · exact .inl ⟨hinvalid, ih hrest hframe⟩
      · refine .inr ⟨hsize, k, hk, ?_, ih hrest fun k' hk' => hframe k' (hk'.trans hk)⟩
        rwa [hframe k hk]

/-- What holds of a reader at each of its steps. -/
structure ReaderInv (m : RxSnapshot) (calls : List PublishCall) (r : SnapshotReader) : Prop where
  loaded : ReaderLoaded m calls r.out r.pc
  served : Served calls m.size (r.pc.latest m) r.results

theorem ReaderLoaded.latest_le {m : RxSnapshot} {calls : List PublishCall} {out : Nat → UInt8}
    {pc : ReadPc} (h : ReaderLoaded m calls out pc) : pc.latest m ≤ m.seq / 2 := by
  cases pc with
  | idle => exact le_rfl
  | loadSeq k => exact le_rfl
  | loadByte k s0 i => exact Nat.div_le_div_right h.2.le
  | loadWkc k s0 => exact Nat.div_le_div_right (Loaded.le h)
  | loadCycle k s0 wkc => exact Nat.div_le_div_right (Loaded.le h)
  | reload k s0 wkc cycle => exact Nat.div_le_div_right (Loaded.le h)
  | exhausted => exact le_rfl

/-- A step of the writer, or a further call, keeps what holds of a reader. -/
theorem ReaderInv.keep {m m' : RxSnapshot} {calls calls' : List PublishCall} {r : SnapshotReader}
    (h : ReaderInv m calls r) (hsize : m'.size = m.size) (hle : m.seq ≤ m'.seq)
    (hframe : ∀ k ≤ m.seq / 2, frameAt calls' k = frameAt calls k) : ReaderInv m' calls' r := by
  obtain ⟨hloaded, hserved⟩ := h
  have hlatest := hloaded.latest_le
  have hkeep {s0 : Nat} {agrees : SnapshotFrame → Prop} (h : Loaded m calls s0 agrees) :
      Loaded m' calls' s0 agrees := h.keep hle (hframe _ (Nat.div_le_div_right h.le))
  have hserved' : Served calls' m.size (r.pc.latest m) r.results :=
    hserved.congr fun k hk => hframe k (hk.trans hlatest)
  cases hpc : r.pc with
  | idle =>
      refine ⟨by rw [hpc]; trivial, ?_⟩
      rw [hsize, hpc]
      rw [hpc] at hserved'
      exact hserved'.mono (Nat.div_le_div_right hle)
  | loadSeq k =>
      refine ⟨by rw [hpc]; trivial, ?_⟩
      rw [hsize, hpc]
      rw [hpc] at hserved'
      exact hserved'.mono (Nat.div_le_div_right hle)
  | exhausted =>
      refine ⟨by rw [hpc]; trivial, ?_⟩
      rw [hsize, hpc]
      rw [hpc] at hserved'
      exact hserved'.mono (Nat.div_le_div_right hle)
  | loadByte k s0 i =>
      rw [hpc] at hloaded hserved'
      exact ⟨by rw [hpc]; exact ⟨by rw [hsize]; exact hloaded.1, hkeep hloaded.2⟩,
        by rw [hsize, hpc]; exact hserved'⟩
  | loadWkc k s0 =>
      rw [hpc] at hloaded hserved'
      refine ⟨?_, by rw [hsize, hpc]; exact hserved'⟩
      rw [hpc]
      simp only [ReaderLoaded, hsize]
      exact hkeep hloaded
  | loadCycle k s0 wkc =>
      rw [hpc] at hloaded hserved'
      refine ⟨?_, by rw [hsize, hpc]; exact hserved'⟩
      rw [hpc]
      simp only [ReaderLoaded, hsize]
      exact hkeep hloaded
  | reload k s0 wkc cycle =>
      rw [hpc] at hloaded hserved'
      refine ⟨?_, by rw [hsize, hpc]; exact hserved'⟩
      rw [hpc]
      simp only [ReaderLoaded, hsize]
      exact hkeep hloaded

/-- The loop over the bytes keeps the count of the loaded ones. -/
theorem readerLoaded_nextLoad {m : RxSnapshot} {calls : List PublishCall} (out : Nat → UInt8)
    (k : Nat) {s0 i : Nat} (h : Loaded m calls s0 fun f => ∀ j < i, out j = f.bytes j) :
    ReaderLoaded m calls out (m.nextLoad k s0 i) ∧ (m.nextLoad k s0 i).latest m = s0 / 2 := by
  unfold RxSnapshot.nextLoad
  by_cases hlt : i < m.size
  · rw [if_pos hlt]
    exact ⟨⟨hlt, h⟩, rfl⟩
  · rw [if_neg hlt]
    exact ⟨⟨h.even, h.le, fun hseq j hj => h.agrees hseq j (by omega)⟩, rfl⟩

/-- A failed attempt forgets what it has loaded. -/
theorem readerLoaded_retry (m : RxSnapshot) (calls : List PublishCall) (out : Nat → UInt8)
    (k : Nat) : ReaderLoaded m calls out (RxSnapshot.retry k) ∧
      (RxSnapshot.retry k).latest m = m.seq / 2 := by
  unfold RxSnapshot.retry
  split
  · exact ⟨trivial, rfl⟩
  · exact ⟨trivial, rfl⟩

/-- A step of the reader. -/
theorem readerInv_step {m : RxSnapshot} {calls : List PublishCall} {pc : PublishPc}
    {r : SnapshotReader} (h : ReaderInv m calls r) (hw : WriterInv m calls pc) :
    ReaderInv m calls (m.stepRead r) := by
  obtain ⟨hloaded, hserved⟩ := h
  have hlatest := hloaded.latest_le
  have hretry (k : Nat) : ReaderInv m calls { r with pc := RxSnapshot.retry k } := by
    obtain ⟨hnext, hbound⟩ := readerLoaded_retry m calls r.out k
    refine ⟨hnext, ?_⟩
    rw [hbound]
    exact hserved.mono hlatest
  unfold RxSnapshot.stepRead
  cases hpc : r.pc with
  | idle => exact ⟨hloaded, hserved⟩
  | loadSeq k =>
      dsimp only
      by_cases hodd : m.seq &&& 1 ≠ 0
      · rw [if_pos hodd]
        exact hretry k
      · rw [if_neg hodd]
        have heven : m.seq % 2 = 0 := by rwa [Nat.and_one_is_mod, not_not] at hodd
        have hnone : Loaded m calls m.seq fun f => ∀ j < 0, r.out j = f.bytes j :=
          ⟨heven, le_rfl, fun _ j hj => absurd hj (Nat.not_lt_zero j)⟩
        obtain ⟨hnext, hbound⟩ := readerLoaded_nextLoad r.out k hnone
        refine ⟨hnext, ?_⟩
        rw [hbound]
        exact hserved.mono hlatest
  | loadByte k s0 i =>
      rw [hpc] at hloaded hserved
      obtain ⟨hi, hloaded⟩ := hloaded
      have hmore : Loaded m calls s0 fun f =>
          ∀ j < i + 1, Function.update r.out i (m.bytes i) j = f.bytes j := by
        refine hloaded.load hw fun f hout hholds j hj => ?_
        rcases Nat.lt_succ_iff_lt_or_eq.mp hj with hj | rfl
        · rw [Function.update_of_ne (by omega), hout j hj]
        · rw [Function.update_self, hholds.1 j hi]
      obtain ⟨hnext, hbound⟩ := readerLoaded_nextLoad (Function.update r.out i (m.bytes i)) k hmore
      refine ⟨hnext, ?_⟩
      rw [hbound]
      exact hserved
  | loadWkc k s0 =>
      rw [hpc] at hloaded hserved
      exact ⟨Loaded.load hloaded hw fun f hout hholds => ⟨hout, hholds.2.1⟩, hserved⟩
  | loadCycle k s0 wkc =>
      rw [hpc] at hloaded hserved
      exact ⟨Loaded.load hloaded hw fun f hout hholds => ⟨hout.1, hout.2, hholds.2.2⟩, hserved⟩
  | reload k s0 wkc cycle =>
      rw [hpc] at hloaded hserved
      dsimp only
      by_cases hseq : m.seq = s0
      · rw [if_pos hseq]
        refine ⟨trivial, .inr ⟨rfl, s0 / 2, ?_, hloaded.agrees hseq, hserved⟩⟩
        rw [← hseq]
        exact le_rfl
      · rw [if_neg hseq]
        exact hretry k
  | exhausted =>
      rw [hpc] at hserved
      exact ⟨trivial, .inl ⟨rfl, hserved⟩⟩

theorem readerInv_begin {m : RxSnapshot} {calls : List PublishCall} {r : SnapshotReader}
    (h : ReaderInv m calls r) : ReaderInv m calls (RxSnapshot.beginRead r) := by
  unfold RxSnapshot.beginRead
  by_cases hidle : r.pc = .idle
  · rw [if_pos hidle]
    have hserved := h.served
    rw [hidle] at hserved
    exact ⟨trivial, hserved⟩
  · rw [if_neg hidle]
    exact h

/-! ### Runs -/

/-- What holds in every state of a run. -/
structure SnapshotInv (payloadSize : Nat) (s : SnapshotSystem) : Prop where
  size : s.shared.size = min payloadSize 512
  writer : WriterInv s.shared s.published s.writer
  reader : ∀ r, ReaderInv s.shared s.published (s.readers r)

theorem snapshotInv_new (payloadSize : Nat) : SnapshotInv payloadSize (.new payloadSize) :=
  ⟨rfl, ⟨rfl, fun _ _ => rfl, rfl, rfl⟩, fun _ => ⟨trivial, trivial⟩⟩

/-- A call of `publish` starts when the writer is idle. -/
theorem step_publish (s : SnapshotSystem) (call : PublishCall) :
    (s.writer = .idle ∧ s.step (.publish call) =
      { s with writer := .loadSeq call, published := s.published ++ [call] }) ∨
      s.step (.publish call) = s := by
  by_cases hidle : s.writer = .idle
  · exact .inl ⟨hidle, if_pos hidle⟩
  · exact .inr (if_neg hidle)

/-- The calls are never fewer. -/
theorem published_length_le (s : SnapshotSystem) (e : SnapshotEvent) :
    s.published.length ≤ (s.step e).published.length := by
  cases e with
  | publish call =>
      rcases step_publish s call with ⟨-, hstep⟩ | hstep
      · rw [hstep, List.length_append]
        exact Nat.le_add_right _ _
      · rw [hstep]
  | write => exact le_rfl
  | call r => exact le_rfl
  | read r => exact le_rfl

theorem stepPublish_size (m : RxSnapshot) (pc : PublishPc) :
    (m.stepPublish pc).1.size = m.size := by
  cases pc <;> rfl

/-- A step of one reader leaves the other ones as they are. -/
theorem readers_update {m : RxSnapshot} {calls : List PublishCall} {readers : Nat → SnapshotReader}
    {reader : SnapshotReader} (r : Nat) (h : ∀ r, ReaderInv m calls (readers r))
    (hr : ReaderInv m calls reader) (r' : Nat) :
    ReaderInv m calls (Function.update readers r reader r') := by
  by_cases hsame : r' = r
  · subst hsame
    rwa [Function.update_self]
  · rw [Function.update_of_ne hsame]
    exact h r'

/-- One step keeps the invariant. -/
theorem snapshotInv_step {payloadSize : Nat} {s : SnapshotSystem} (h : SnapshotInv payloadSize s)
    (e : SnapshotEvent) (hcount : (s.step e).published.length < 2 ^ 62) :
    SnapshotInv payloadSize (s.step e) := by
  have hbefore := (published_length_le s e).trans_lt hcount
  obtain ⟨hsize, hwriter, hreader⟩ := h
  cases e with
  | publish call =>
      rcases step_publish s call with ⟨hidle, hstep⟩ | hstep
      · rw [hstep]
        have hle := hwriter.holds.1
        rw [hidle] at hwriter
        refine ⟨hsize, ⟨s.published, rfl, hwriter⟩, fun r => ?_⟩
        exact (hreader r).keep rfl le_rfl fun k hk => frameAt_append (hk.trans hle)
      · rw [hstep]
        exact ⟨hsize, hwriter, hreader⟩
  | write =>
      obtain ⟨hnext, hle⟩ := writerInv_step hwriter hbefore
      have hsame := stepPublish_size s.shared s.writer
      exact ⟨hsame.trans hsize, hnext, fun r => (hreader r).keep hsame hle fun _ _ => rfl⟩
  | call r => exact ⟨hsize, hwriter, readers_update r hreader (readerInv_begin (hreader r))⟩
  | read r => exact ⟨hsize, hwriter, readers_update r hreader (readerInv_step (hreader r) hwriter)⟩

/-- The run lemma: while fewer than 2^62 calls were made, the sequence number has not wrapped. -/
theorem snapshotInv_runFrom (payloadSize : Nat) (events : List SnapshotEvent)
    (hcount : (runFrom SnapshotSystem.step (.new payloadSize) events).published.length < 2 ^ 62) :
    SnapshotInv payloadSize (runFrom SnapshotSystem.step (.new payloadSize) events) := by
  refine runFrom_induction (I := fun s => s.published.length < 2 ^ 62 → SnapshotInv payloadSize s)
    (fun _ => snapshotInv_new payloadSize) (fun s e ih hcount => ?_) hcount
  exact snapshotInv_step (ih ((published_length_le s e).trans_lt hcount)) e hcount

/-! ### What the reads return -/

/-- A valid snapshot shows one frame. -/
theorem Served.shows {calls : List PublishCall} {size latest : Nat} {xs : List PdoSnapshot}
    (h : Served calls size latest xs) {x : PdoSnapshot} (hx : x ∈ xs) (hvalid : x.valid = true) :
    x.size = size ∧ ∃ k ≤ latest, x.Shows (frameAt calls k) := by
  induction xs generalizing latest with
  | nil => cases hx
  | cons y xs ih =>
      rcases h with ⟨hinvalid, hrest⟩ | ⟨hsize, k, hk, hshows, hrest⟩
      · rcases List.mem_cons.mp hx with rfl | hx
        · rw [hvalid] at hinvalid
          cases hinvalid
        · exact ih hrest hx
      · rcases List.mem_cons.mp hx with rfl | hx
        · exact ⟨hsize, k, hk, hshows⟩
        · obtain ⟨hsize, k', hk', hshows⟩ := ih hrest hx
          exact ⟨hsize, k', hk'.trans hk, hshows⟩

/-- The cycles of the frames do not go back when those of the calls do not. -/
theorem frameAt_cycle_mono {calls : List PublishCall}
    (hmono : calls.Pairwise fun a b => a.cycle ≤ b.cycle) {k k' : Nat} (hk : k ≤ k')
    (hk' : k' ≤ calls.length) : (frameAt calls k).cycle ≤ (frameAt calls k').cycle := by
  cases k with
  | zero => exact UInt64.zero_le
  | succ k =>
      obtain ⟨k', rfl⟩ : ∃ n, k' = n + 1 := ⟨k' - 1, by omega⟩
      have hlast : k' < calls.length := hk'
      have hfirst : k < calls.length := by omega
      simp only [frameAt, List.getElem?_eq_getElem hlast, List.getElem?_eq_getElem hfirst,
        Option.map_some, Option.getD_some, PublishCall.frame]
      rcases Nat.eq_or_lt_of_le hk with hsame | hlt
      · obtain rfl : k = k' := by omega
        exact UInt64.le_refl _
      · exact List.pairwise_iff_getElem.mp hmono k k' hfirst hlast (by omega)

/-- The valid snapshots do not go back when the frames do not. -/
theorem Served.cycle_mono {calls : List PublishCall} {size latest : Nat} {xs : List PdoSnapshot}
    (h : Served calls size latest xs) (hlatest : latest ≤ calls.length)
    (hmono : calls.Pairwise fun a b => a.cycle ≤ b.cycle) :
    (xs.filter (·.valid)).Pairwise fun later earlier => earlier.cycle ≤ later.cycle := by
  induction xs generalizing latest with
  | nil => exact List.Pairwise.nil
  | cons x xs ih =>
      rcases h with ⟨hinvalid, hrest⟩ | ⟨-, k, hk, hshows, hrest⟩
      · rw [List.filter_cons_of_neg (by simp [hinvalid])]
        exact ih hrest hlatest
      · have hrest' := ih hrest (hk.trans hlatest)
        by_cases hvalid : x.valid = true
        · rw [List.filter_cons_of_pos hvalid]
          refine List.pairwise_cons.mpr ⟨fun y hy => ?_, hrest'⟩
          obtain ⟨hmem, hvalid'⟩ := List.mem_filter.mp hy
          obtain ⟨-, k', hk', hshows'⟩ := hrest.shows hmem hvalid'
          rw [hshows.2.2, hshows'.2.2]
          exact frameAt_cycle_mono hmono hk' (hk.trans hlatest)
        · rw [List.filter_cons_of_neg hvalid]
          exact hrest'

/-- In every run with fewer than 2^62 calls of `publish`, every valid snapshot of every reader
shows the zero frame or that of one call, and when the cycles of the calls do not go back, those
of the successive valid snapshots of a reader do not either. -/
theorem snapshot_untorn (payloadSize : Nat) (events : List SnapshotEvent) (r : Nat)
    (hcount : (runFrom SnapshotSystem.step (.new payloadSize) events).published.length < 2 ^ 62) :
    let s := runFrom SnapshotSystem.step (.new payloadSize) events
    (∀ x ∈ (s.readers r).results, x.valid = true → x.size = min payloadSize 512 ∧
      (x.Shows zeroFrame ∨ ∃ call ∈ s.published, x.Shows call.frame)) ∧
    ((s.published.Pairwise fun a b => a.cycle ≤ b.cycle) →
      ((s.readers r).results.filter (·.valid)).Pairwise
        fun later earlier => earlier.cycle ≤ later.cycle) := by
  intro s
  obtain ⟨hsize, hwriter, hreader⟩ := snapshotInv_runFrom payloadSize events hcount
  obtain ⟨hloaded, hserved⟩ := hreader r
  refine ⟨fun x hx hvalid => ?_, fun hmono => ?_⟩
  · obtain ⟨hx, k, -, hshows⟩ := hserved.shows hx hvalid
    refine ⟨hx.trans hsize, ?_⟩
    rcases frameAt_cases s.published k with hframe | ⟨call, hcall, hframe⟩
    · exact .inl (hframe ▸ hshows)
    · exact .inr ⟨call, hcall, hframe ▸ hshows⟩
  · exact hserved.cycle_mono (hloaded.latest_le.trans hwriter.holds.1) hmono

/-- A reader has loaded the first of two bytes when the writer stores both. -/
def overtakenRead : List SnapshotEvent :=
  [.call 0, .read 0, .read 0, .publish ⟨[7, 8], 3, 1⟩] ++ List.replicate 7 .write ++
    List.replicate 10 (.read 0)

/-- Its first attempt fails and the second one shows the call. -/
theorem snapshot_untorn_overtaken :
    let s := runFrom SnapshotSystem.step (.new 2) overtakenRead
    (s.readers 0).results.map (fun x => (x.valid, x.bytes 0, x.bytes 1, x.cycle)) =
        [(true, 7, 8, 1)] ∧
      ∀ x ∈ (s.readers 0).results, x.valid = true → x.size = min 2 512 ∧
        (x.Shows zeroFrame ∨ ∃ call ∈ s.published, x.Shows call.frame) :=
  ⟨by decide, (snapshot_untorn 2 overtakenRead 0 (by decide)).1⟩

end ViamEthercat
