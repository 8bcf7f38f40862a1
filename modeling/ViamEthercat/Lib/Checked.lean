import Mathlib.Data.List.Basic
import Mathlib.Data.List.Induction

/-!
# `ViamEthercat.Lib.Checked`: what a successful `Except` computation establishes

A checked function returns `Except ε α`. From its success each of its parts is read off in turn:
a bind by `bind_eq_ok`, a loop over a list by the last element (`foldlM_concat_eq_ok`), by an
invariant of its body (`foldlM_induction`) or by all of its elements at once (`forM_eq_ok`,
`mapM_eq_ok`).
-/

set_option autoImplicit false

namespace ViamEthercat.Lib

variable {ε α β : Type}

/-- A sequence succeeds if and only if its first part does, and the rest on its value. -/
theorem bind_eq_ok {x : Except ε α} {f : α → Except ε β} {b : β} :
    x >>= f = .ok b ↔ ∃ a, x = .ok a ∧ f a = .ok b := by
  cases x with
  | error e => simp [bind, Except.bind]
  | ok a => simp [bind, Except.bind]

/-- A computed success, read through `toOption`. -/
theorem toOption_bind_eq_some {x : Except ε α} {f : α → Option β} {b : β} :
    x.toOption.bind f = some b ↔ ∃ a, x = .ok a ∧ f a = some b := by
  cases x with
  | error e => simp [Except.toOption]
  | ok a => simp [Except.toOption]

/-- The last step of a checked loop, split off. -/
theorem foldlM_concat_eq_ok {f : β → α → Except ε β} {b b' : β} {xs : List α} {x : α} :
    (xs ++ [x]).foldlM f b = .ok b' ↔ ∃ a, xs.foldlM f b = .ok a ∧ f a x = .ok b' := by
  rw [List.foldlM_append, bind_eq_ok]
  simp only [List.foldlM_cons, List.foldlM_nil, bind_pure]

/-- An invariant of each successful step of a checked loop holds of its result. -/
theorem foldlM_induction {f : β → α → Except ε β} {I : β → Prop} {xs : List α} {b b' : β}
    (h0 : I b) (hstep : ∀ b x b', I b → f b x = .ok b' → I b')
    (h : xs.foldlM f b = .ok b') : I b' := by
  induction xs generalizing b with
  | nil =>
      obtain rfl : b = b' := by simpa [pure, Except.pure] using h
      exact h0
  | cons x xs ih =>
      rw [List.foldlM_cons, bind_eq_ok] at h
      obtain ⟨a, ha, hrest⟩ := h
      exact ih (hstep b x a h0 ha) hrest

/-- A checked loop without a state succeeds if and only if each of its turns does. -/
theorem forM_eq_ok {f : α → Except ε Unit} {xs : List α} :
    xs.forM f = .ok () ↔ ∀ x ∈ xs, f x = .ok () := by
  induction xs with
  | nil => simp [List.forM, pure, Except.pure]
  | cons x xs ih =>
      have hcons : (x :: xs).forM f = f x >>= fun _ => xs.forM f := rfl
      rw [hcons, bind_eq_ok, List.forall_mem_cons, ← ih]
      constructor
      · rintro ⟨_, hx, hxs⟩
        exact ⟨hx, hxs⟩
      · rintro ⟨hx, hxs⟩
        exact ⟨(), hx, hxs⟩

/-- A checked map succeeds with the values of its elements, one for each. -/
theorem mapM_eq_ok {f : α → Except ε β} {xs : List α} {ys : List β} (h : xs.mapM f = .ok ys) :
    (∀ x ∈ xs, ∃ y ∈ ys, f x = .ok y) ∧ ∀ y ∈ ys, ∃ x ∈ xs, f x = .ok y := by
  induction xs generalizing ys with
  | nil =>
      obtain rfl : [] = ys := by simpa [pure, Except.pure] using h
      simp
  | cons x xs ih =>
      rw [List.mapM_cons, bind_eq_ok] at h
      obtain ⟨y, hy, h⟩ := h
      obtain ⟨rest, hrest, h⟩ := bind_eq_ok.mp h
      obtain rfl : y :: rest = ys := by simpa [pure, Except.pure] using h
      obtain ⟨hall, hfrom⟩ := ih hrest
      constructor
      · rintro x' hx'
        rcases List.mem_cons.mp hx' with rfl | hx'
        · exact ⟨y, List.mem_cons_self, hy⟩
        · obtain ⟨y', hy', hf⟩ := hall x' hx'
          exact ⟨y', List.mem_cons_of_mem y hy', hf⟩
      · rintro y' hy'
        rcases List.mem_cons.mp hy' with rfl | hy'
        · exact ⟨x, List.mem_cons_self, hy⟩
        · obtain ⟨x', hx', hf⟩ := hfrom y' hy'
          exact ⟨x', List.mem_cons_of_mem x hx', hf⟩

end ViamEthercat.Lib
