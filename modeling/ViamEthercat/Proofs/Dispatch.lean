import ViamEthercat.Ethercat.CycleContext
import ViamEthercat.Lib.Checked
import ViamEthercat.Proofs.Images

/-!
# `ViamEthercat.Proofs.Dispatch`: a hook writes through to the live image

A hook stores into a copy, and `dispatch` seeds the copy from the live image and copies it back.
Over any run this is what storing into the live image itself would do, `writeThrough`, and what is
stored between two windows is lost (`run_eq`).

It rests on the two copies staying inside the arrays of the context. `configure` does not see to
that for the output image, and on a longer image `dispatch` has no defined effect
(`dispatch_eq`, `escaped_context_long_image`). `escaped_context_harmless_iff` says that this is
the one condition.
-/

set_option autoImplicit false

namespace ViamEthercat

open Lib

/-! ### One window -/

/-- The stores in their order, on an image. -/
def applyStores (stores : List FieldStore) (image : List UInt8) : List UInt8 :=
  stores.foldl (fun image w => w.apply image) image

theorem take_applyStores (stores : List FieldStore) (image : List UInt8) (n : Nat) :
    (applyStores stores image).take n = applyStores stores (image.take n) := by
  induction stores generalizing image with
  | nil => rfl
  | cons w stores ih =>
      have hword : (w.apply image).take n = w.apply (image.take n) := take_writeAt ..
      rw [applyStores, List.foldl_cons, ← applyStores, ih, hword]
      rfl

@[simp] theorem length_applyStores (stores : List FieldStore) (image : List UInt8) :
    (applyStores stores image).length = image.length := by
  induction stores generalizing image with
  | nil => rfl
  | cons w stores ih =>
      rw [applyStores, List.foldl_cons, ← applyStores, ih, w.length_apply]

/-- The stores of a hook stay in the output array, and change nothing else. -/
theorem stores_eq {stores : List FieldStore} (ctx : CycleContext)
    (hin : ∀ w ∈ stores, w.InRange maxPdoBytes) :
    ∃ outputs : PdoArray, stores.foldlM CycleContext.store ctx =
        some { ctx with outputs := outputs } ∧
      outputs.bytes = applyStores stores ctx.outputs.bytes := by
  induction stores generalizing ctx with
  | nil => exact ⟨ctx.outputs, rfl, rfl⟩
  | cons w stores ih =>
      obtain ⟨stored, hstore, hstored⟩ := ctx.store_eq (hin w List.mem_cons_self)
      obtain ⟨outputs, hrun, hbytes⟩ := ih { ctx with outputs := stored }
        fun w' hw' => hin w' (List.mem_cons_of_mem w hw')
      refine ⟨outputs, ?_, ?_⟩
      · rw [List.foldlM_cons, hstore]
        exact hrun
      · rw [hbytes, hstored]
        rfl

/-- Both images have room in the arrays of the context. -/
def SlaveImage.Fits (image : SlaveImage) : Prop :=
  image.inputBytes ≤ maxPdoBytes ∧ image.outputBytes ≤ maxPdoBytes

instance (image : SlaveImage) : Decidable image.Fits := inferInstanceAs (Decidable (_ ∧ _))

/-- With images that fit, a window applies its stores to the live output image. -/
theorem dispatch_eq {s : DispatchState} {call : DispatchCall} (hfit : s.io.image.Fits)
    (hin : ∀ w ∈ call.stores, w.InRange s.io.outputs.length) :
    ∃ ctx, s.dispatch call =
      some ⟨ctx, { s.io with outputs := applyStores call.stores s.io.outputs }⟩ := by
  obtain ⟨hinputs, houtputs⟩ : s.io.inputs.length ≤ maxPdoBytes ∧
      s.io.outputs.length ≤ maxPdoBytes := hfit
  have hrange : ∀ w ∈ call.stores, w.InRange maxPdoBytes := fun w hw =>
    (hin w hw).trans houtputs
  obtain ⟨inputs, hinputs, -⟩ := s.ctx.inputs.fill_eq hinputs
  obtain ⟨seeded, hseed, hseeded⟩ := s.ctx.outputs.fill_eq houtputs
  unfold DispatchState.dispatch
  rw [hinputs, hseed]
  simp only [Option.bind_eq_bind, Option.bind_some]
  obtain ⟨outputs, hstores, hbytes⟩ := stores_eq _ hrange
  rw [hstores, Option.bind_some, outputs.prefixBytes_eq houtputs, Option.bind_some, hbytes,
    take_applyStores, hseeded, List.take_left]
  exact ⟨_, rfl⟩

/-- A window with a defined effect has images that fit. -/
theorem fits_of_dispatch {s s' : DispatchState} {call : DispatchCall}
    (h : s.dispatch call = some s') : s.io.image.Fits := by
  unfold DispatchState.dispatch at h
  obtain ⟨inputs, hinputs, h⟩ := Option.bind_eq_some_iff.mp h
  obtain ⟨outputs, houtputs, -⟩ := Option.bind_eq_some_iff.mp h
  unfold PdoArray.fill at hinputs houtputs
  split_ifs at hinputs houtputs with hin hout
  exact ⟨hin, hout⟩

/-! ### Runs -/

/-- The images that the slave has after the event, by their sizes. -/
def DispatchEvent.imageAfter (image : SlaveImage) : DispatchEvent → SlaveImage
  | .refresh io => io.image
  | _ => image

/-- `P` holds of each event and the image sizes that it finds. -/
def Throughout (P : SlaveImage → DispatchEvent → Prop) : SlaveImage → List DispatchEvent → Prop
  | _, [] => True
  | image, e :: events => P image e ∧ Throughout P (e.imageAfter image) events

instance decidableThroughout (P : SlaveImage → DispatchEvent → Prop)
    [∀ image e, Decidable (P image e)] :
    (image : SlaveImage) → (events : List DispatchEvent) → Decidable (Throughout P image events)
  | _, [] => .isTrue trivial
  | image, e :: events =>
      have : Decidable (Throughout P (e.imageAfter image) events) :=
        decidableThroughout P (e.imageAfter image) events
      inferInstanceAs (Decidable (P image e ∧ Throughout P (e.imageAfter image) events))

/-- The stores of a hook lie in the output image. A location that was resolved for an image that
fits lies in the array, whatever the image is later. -/
def DispatchEvent.StoresInRange (image : SlaveImage) : DispatchEvent → Prop
  | .dispatch call => ∀ w ∈ call.stores, w.InRange image.outputBytes
  | .stale w => w.InRange maxPdoBytes
  | .refresh _ => True

instance (image : SlaveImage) : (e : DispatchEvent) → Decidable (e.StoresInRange image)
  | .dispatch call => inferInstanceAs (Decidable (∀ w ∈ call.stores, w.InRange image.outputBytes))
  | .stale w => inferInstanceAs (Decidable (w.InRange maxPdoBytes))
  | .refresh _ => .isTrue trivial

/-- The images of a window fit. -/
def DispatchEvent.ImagesFit (image : SlaveImage) : DispatchEvent → Prop
  | .dispatch _ => image.Fits
  | _ => True

instance (image : SlaveImage) : (e : DispatchEvent) → Decidable (e.ImagesFit image)
  | .dispatch _ => inferInstanceAs (Decidable image.Fits)
  | .stale _ => .isTrue trivial
  | .refresh _ => .isTrue trivial

/-- What a control does that stores into the live image itself, and loses its context behind the
window. -/
def SlaveIo.writeThrough (io : SlaveIo) : DispatchEvent → SlaveIo
  | .dispatch call => { io with outputs := applyStores call.stores io.outputs }
  | .stale _ => io
  | .refresh io' => io'

/-- The event is no store through an escaped context. -/
def DispatchEvent.inWindow : DispatchEvent → Bool
  | .stale _ => false
  | _ => true

theorem image_writeThrough (io : SlaveIo) (e : DispatchEvent) :
    (io.writeThrough e).image = e.imageAfter io.image := by
  cases e with
  | dispatch call => simp [SlaveIo.writeThrough, SlaveIo.image, DispatchEvent.imageAfter]
  | stale w => rfl
  | refresh io' => rfl

/-- One event leaves the live images as a control that writes through. -/
theorem step_eq {s : DispatchState} {e : DispatchEvent} (hin : e.StoresInRange s.io.image)
    (hfit : e.ImagesFit s.io.image) : ∃ ctx, s.step e = some ⟨ctx, s.io.writeThrough e⟩ := by
  cases e with
  | dispatch call => exact dispatch_eq hfit hin
  | stale w =>
      obtain ⟨outputs, hstore, -⟩ := s.ctx.store_eq hin
      unfold DispatchState.step
      dsimp only
      rw [hstore]
      exact ⟨_, rfl⟩
  | refresh io => exact ⟨s.ctx, rfl⟩

theorem run_cons (s : DispatchState) (e : DispatchEvent) (events : List DispatchEvent) :
    s.run (e :: events) = (s.step e).bind (·.run events) := List.foldlM_cons ..

/-- A run leaves the live images as a control that writes through. -/
theorem run_eq {s : DispatchState} {events : List DispatchEvent}
    (hin : Throughout DispatchEvent.StoresInRange s.io.image events)
    (hfit : Throughout DispatchEvent.ImagesFit s.io.image events) :
    ∃ ctx, s.run events = some ⟨ctx, events.foldl SlaveIo.writeThrough s.io⟩ := by
  induction events generalizing s with
  | nil => exact ⟨s.ctx, rfl⟩
  | cons e events ih =>
      obtain ⟨ctx, hstep⟩ := step_eq hin.1 hfit.1
      rw [run_cons, hstep, Option.bind_some, List.foldl_cons]
      apply ih
      · rw [image_writeThrough]
        exact hin.2
      · rw [image_writeThrough]
        exact hfit.2

/-- What holds throughout holds up to any point. -/
theorem Throughout.left {P : SlaveImage → DispatchEvent → Prop} {image : SlaveImage}
    {pre post : List DispatchEvent} (h : Throughout P image (pre ++ post)) :
    Throughout P image pre := by
  induction pre generalizing image with
  | nil => trivial
  | cons e pre ih => exact ⟨h.1, ih h.2⟩

/-- What holds throughout holds of each event. -/
theorem Throughout.at {P : SlaveImage → DispatchEvent → Prop} {image : SlaveImage}
    {pre post : List DispatchEvent} {e : DispatchEvent}
    (h : Throughout P image (pre ++ e :: post)) :
    P (pre.foldl DispatchEvent.imageAfter image) e := by
  induction pre generalizing image with
  | nil => exact h.1
  | cons e' pre ih => exact ih h.2

/-- It holds without the stores between the windows too, which leave the images alone. -/
theorem Throughout.filter {P : SlaveImage → DispatchEvent → Prop} {image : SlaveImage}
    {events : List DispatchEvent} (h : Throughout P image events) :
    Throughout P image (events.filter DispatchEvent.inWindow) := by
  induction events generalizing image with
  | nil => trivial
  | cons e events ih =>
      cases e with
      | dispatch call => exact ⟨h.1, ih h.2⟩
      | stale w => exact ih h.2
      | refresh io => exact ⟨h.1, ih h.2⟩

theorem image_foldl_writeThrough (io : SlaveIo) (events : List DispatchEvent) :
    (events.foldl SlaveIo.writeThrough io).image =
      events.foldl DispatchEvent.imageAfter io.image := by
  induction events generalizing io with
  | nil => rfl
  | cons e events ih => rw [List.foldl_cons, List.foldl_cons, ih, image_writeThrough]

theorem foldl_writeThrough_filter (io : SlaveIo) (events : List DispatchEvent) :
    (events.filter DispatchEvent.inWindow).foldl SlaveIo.writeThrough io =
      events.foldl SlaveIo.writeThrough io := by
  induction events generalizing io with
  | nil => rfl
  | cons e events ih =>
      cases e with
      | dispatch call => exact ih _
      | stale w => exact ih io
      | refresh io' => exact ih io'

/-- Each window of the run leaves the live output image as it was, with the stores of its hook
applied in order. -/
def PartialWrites (s : DispatchState) (events : List DispatchEvent) : Prop :=
  ∀ pre call post, events = pre ++ .dispatch call :: post →
    ∃ before after, s.run pre = some before ∧ before.dispatch call = some after ∧
      after.io.outputs = applyStores call.stores before.io.outputs

/-- At each point of the run the live images are those of the run without the stores between the
windows. -/
def StaleStoresLost (s : DispatchState) (events : List DispatchEvent) : Prop :=
  ∀ pre post, events = pre ++ post →
    ∃ s' clean, s.run pre = some s' ∧ s.run (pre.filter DispatchEvent.inWindow) = some clean ∧
      s'.io = clean.io

theorem partialWrites_of_fit {s : DispatchState} {events : List DispatchEvent}
    (hin : Throughout DispatchEvent.StoresInRange s.io.image events)
    (hfit : Throughout DispatchEvent.ImagesFit s.io.image events) : PartialWrites s events := by
  rintro pre call post rfl
  obtain ⟨ctx, hrun⟩ := run_eq hin.left hfit.left
  have hfitAt := hfit.at
  have hinAt := hin.at
  rw [← image_foldl_writeThrough] at hfitAt hinAt
  obtain ⟨ctx', hdispatch⟩ := dispatch_eq (s := ⟨ctx, _⟩) hfitAt hinAt
  exact ⟨_, _, hrun, hdispatch, rfl⟩

theorem staleStoresLost_of_fit {s : DispatchState} {events : List DispatchEvent}
    (hin : Throughout DispatchEvent.StoresInRange s.io.image events)
    (hfit : Throughout DispatchEvent.ImagesFit s.io.image events) : StaleStoresLost s events := by
  rintro pre post rfl
  obtain ⟨ctx, hrun⟩ := run_eq hin.left hfit.left
  obtain ⟨ctx', hclean⟩ := run_eq hin.left.filter hfit.left.filter
  exact ⟨_, _, hrun, hclean, (foldl_writeThrough_filter s.io pre).symm⟩

/-- Windows with a defined effect have images that fit. -/
theorem fits_of_partialWrites {s : DispatchState} {events : List DispatchEvent}
    (hin : Throughout DispatchEvent.StoresInRange s.io.image events)
    (h : PartialWrites s events) : Throughout DispatchEvent.ImagesFit s.io.image events := by
  induction events generalizing s with
  | nil => trivial
  | cons e events ih =>
      have hfit : e.ImagesFit s.io.image := by
        cases e with
        | dispatch call =>
            obtain ⟨before, after, hbefore, hafter, -⟩ := h [] call events rfl
            obtain rfl := Option.some.inj hbefore
            exact fits_of_dispatch hafter
        | stale w => trivial
        | refresh io => trivial
      obtain ⟨ctx, hstep⟩ := step_eq hin.1 hfit
      have hrest := ih (s := ⟨ctx, s.io.writeThrough e⟩)
      rw [image_writeThrough] at hrest
      refine ⟨hfit, hrest hin.2 ?_⟩
      rintro pre call post rfl
      obtain ⟨before, after, hbefore, hafter, hout⟩ := h (e :: pre) call post rfl
      rw [run_cons, hstep, Option.bind_some] at hbefore
      exact ⟨before, after, hbefore, hafter, hout⟩

/-- In a run whose stores are in range, every window writes its stores and nothing else to the live
output image, and a store through an escaped context reaches no live image, if and only if the
images of every window fit the arrays of the context. -/
theorem escaped_context_harmless_iff (s : DispatchState) (events : List DispatchEvent)
    (hin : Throughout DispatchEvent.StoresInRange s.io.image events) :
    (PartialWrites s events ∧ StaleStoresLost s events) ↔
      Throughout DispatchEvent.ImagesFit s.io.image events := by
  constructor
  · rintro ⟨hwrites, -⟩
    exact fits_of_partialWrites hin hwrites
  · intro hfit
    exact ⟨partialWrites_of_fit hin hfit, staleStoresLost_of_fit hin hfit⟩

/-- An array of zeros. -/
def zeroArray : PdoArray := ⟨List.replicate maxPdoBytes 0, List.length_replicate ..⟩

/-- A control before its first window. -/
def idleContext : CycleContext where
  inputs := zeroArray
  outputs := zeroArray
  inputSize := 0
  outputSize := 0
  cycle := 0
  dcTime := 0
  stopping := false
  live := false

/-- A window, a store through the escaped context, a smaller image and another window. -/
theorem escaped_context_harmless_remap :
    let s : DispatchState := ⟨idleContext, ⟨[1], [1, 2, 3, 4]⟩⟩
    let events : List DispatchEvent :=
      [.dispatch ⟨0, 0, false, [.ofScalar 1 (0xABCD : UInt16)]⟩,
        .stale (.ofScalar 0 (0x7F : UInt8)), .refresh ⟨[], [5, 6]⟩,
        .dispatch ⟨1, 0, false, [.ofScalar 1 (9 : UInt8)]⟩]
    PartialWrites s events ∧ StaleStoresLost s events :=
  (escaped_context_harmless_iff _ _ (by decide)).mpr (by decide)

/-- One PDO with 67 objects of eight bytes. Behind the output array the context has the two sizes
and the cycle counter: the last object lies on the counter. -/
def overlongMap : PdoMap where
  pdoIndices := [0x1600]
  entries := AList.singleton 0x1600 (List.replicate 67 ⟨0x2000, 1, 64⟩)

/-- Images of 2 and of 536 bytes. -/
def overlongIo : SlaveIo := ⟨List.replicate 2 0, List.replicate 536 0⟩

/-- `configure` accepts an output image of 536 bytes, and one window with an empty hook has no
defined effect on it. -/
theorem escaped_context_long_image :
    ¬ ∀ (bus : MappedBus) (config : List MappedSlave) (slaves : List SlaveRuntime)
      (s : DispatchState) (events : List DispatchEvent),
      configureSlaves bus config = .ok slaves → s.io.image = slaveImage slaves 1 →
      Throughout DispatchEvent.StoresInRange s.io.image events →
      PartialWrites s events ∧ StaleStoresLost s events := by
  intro h
  obtain ⟨slaves, hslaves, himage⟩ : ∃ slaves, configureSlaves (oneDrive 2 536)
      [⟨1, overlongMap, feedbackMap⟩] = .ok slaves ∧
        (if slaveImage slaves 1 = overlongIo.image then some () else none) = some () :=
    toOption_bind_eq_some.mp (by decide +kernel)
  have hio : slaveImage slaves 1 = overlongIo.image := by
    by_contra hne
    rw [if_neg hne] at himage
    cases himage
  have hin : ∀ image, Throughout DispatchEvent.StoresInRange image
      [.dispatch ⟨0, 0, false, []⟩] :=
    fun image => ⟨fun w hw => absurd hw List.not_mem_nil, trivial⟩
  have hwrites := (h _ _ slaves ⟨idleContext, overlongIo⟩ _ hslaves hio.symm (hin _)).1
  exact absurd (fits_of_partialWrites (hin _) hwrites) (by decide +kernel)

end ViamEthercat
