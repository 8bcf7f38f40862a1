import Mathlib.Logic.Basic

/-!
# `ViamEthercat.Lib.Fallible`: a computation on a state that may throw

A program with exceptions keeps what it did to its state when it throws. `Fallible ε σ α` is such
a program. Its runs are read off one bind at a time: a success by `bind_eq_ok` or
`bind_returns`, and any run by `bind_cases`. A loop is read by an invariant of its turns
(`forM_returns`). What each part keeps, the whole keeps: `Keeps I x` says that `x` keeps the
property `I` of the state however it ends.
-/

set_option autoImplicit false

namespace ViamEthercat.Lib

/-- A computation over `σ` that returns an `α` or throws an `ε`. -/
abbrev Fallible (ε σ α : Type) := ExceptT ε (StateM σ) α

namespace Fallible

variable {ε σ α β : Type}

/-- `x` in a `try`: its result as a value. -/
def attempt (x : Fallible ε σ α) : Fallible ε σ (Except ε α) := fun s =>
  (.ok (x s).1, (x s).2)

theorem bind_run (x : Fallible ε σ α) (f : α → Fallible ε σ β) (s : σ) :
    (x >>= f) s = match x s with
      | (.ok a, s') => f a s'
      | (.error e, s') => (.error e, s') := by
  show (match x s with | (r, s') => ExceptT.bindCont f r s') = _
  rcases x s with ⟨_ | _, s'⟩ <;> rfl

theorem bind_of_ok {x : Fallible ε σ α} {f : α → Fallible ε σ β} {s s' : σ} {a : α}
    (h : x s = (.ok a, s')) : (x >>= f) s = f a s' := by
  rw [bind_run, h]

theorem bind_of_error {x : Fallible ε σ α} {f : α → Fallible ε σ β} {s s' : σ} {e : ε}
    (h : x s = (.error e, s')) : (x >>= f) s = (.error e, s') := by
  rw [bind_run, h]

/-- A sequence returns if and only if its first part does, and the rest on its value. -/
theorem bind_eq_ok {x : Fallible ε σ α} {f : α → Fallible ε σ β} {s s'' : σ} {b : β} :
    (x >>= f) s = (.ok b, s'') ↔ ∃ a s', x s = (.ok a, s') ∧ f a s' = (.ok b, s'') := by
  rw [bind_run]
  rcases x s with ⟨e | a, s'⟩
  · constructor
    · intro h
      cases h
    · rintro ⟨a, t, h, -⟩
      cases h
  · constructor
    · intro h
      exact ⟨a, s', rfl, h⟩
    · rintro ⟨a', t, h, hf⟩
      cases h
      exact hf

/-- A sequence comes to return `b` if and only if its rest does, from where its first part
returns. -/
theorem bind_returns {x : Fallible ε σ α} {f : α → Fallible ε σ β} {s : σ} {b : β} :
    (∃ t, (x >>= f) s = (.ok b, t)) ↔ ∃ a s', x s = (.ok a, s') ∧ ∃ t, f a s' = (.ok b, t) := by
  constructor
  · rintro ⟨t, h⟩
    obtain ⟨a, s', hx, hf⟩ := bind_eq_ok.mp h
    exact ⟨a, s', hx, t, hf⟩
  · rintro ⟨a, s', hx, t, hf⟩
    exact ⟨t, bind_eq_ok.mpr ⟨a, s', hx, hf⟩⟩

/-- A sequence ends as its first part that throws, or as the rest. -/
theorem bind_cases (x : Fallible ε σ α) (f : α → Fallible ε σ β) (s : σ) :
    (∃ e s', x s = (.error e, s') ∧ (x >>= f) s = (.error e, s')) ∨
      ∃ a s', x s = (.ok a, s') ∧ (x >>= f) s = f a s' := by
  rw [bind_run]
  rcases x s with ⟨e | a, s'⟩
  · exact .inl ⟨e, s', rfl, rfl⟩
  · exact .inr ⟨a, s', rfl, rfl⟩

/-- A rest that leaves the state alone does not matter for it. -/
theorem bind_state {x : Fallible ε σ α} {f : α → Fallible ε σ β} {s : σ}
    (hf : ∀ a s', (f a s').2 = s') : ((x >>= f) s).2 = (x s).2 := by
  rcases bind_cases x f s with ⟨e, s', hx, hrun⟩ | ⟨a, s', hx, hrun⟩
  · rw [hrun, hx]
  · rw [hrun, hx]
    exact hf a s'

/-- A loop returns when each of its turns does, and what the turns establish of the elements done
so far holds of all at its end. -/
theorem forM_returns (xs : List α) {f : α → Fallible ε σ Unit} {I : List α → σ → Prop} {s : σ}
    (h0 : I [] s) (hstep : ∀ done x rest s, xs = done ++ x :: rest → I done s →
      ∃ s', f x s = (.ok (), s') ∧ I (done ++ [x]) s') :
    ∃ s', xs.forM f s = (.ok (), s') ∧ I xs s' := by
  induction xs generalizing s I with
  | nil => exact ⟨s, rfl, h0⟩
  | cons x xs ih =>
      obtain ⟨t, hx, ht⟩ := hstep [] x xs s rfl h0
      obtain ⟨s', hrest, hs'⟩ := ih (I := fun done s => I (x :: done) s) ht (by
        intro done y rest s hsplit hs
        exact hstep (x :: done) y rest s (by rw [hsplit, List.cons_append]) hs)
      refine ⟨s', ?_, hs'⟩
      show (f x >>= fun _ => xs.forM f) s = _
      rw [bind_of_ok hx]
      exact hrest

/-- A sequence of two parts that leave the state alone does. -/
theorem bind_of_stateless {x : Fallible ε σ α} {f : α → Fallible ε σ β} {y : Except ε α}
    {g : α → Except ε β} {s : σ} (hx : x s = (y, s)) (hf : ∀ a, f a s = (g a, s)) :
    (x >>= f) s = (y >>= g, s) := by
  rw [bind_run, hx]
  cases y with
  | error e => rfl
  | ok a => exact hf a

/-- A loop whose turns leave the state alone does. -/
theorem forM_of_stateless {xs : List α} {f : α → Fallible ε σ Unit} {g : α → Except ε Unit}
    {s : σ} (h : ∀ x, f x s = (g x, s)) : xs.forM f s = (xs.forM g, s) := by
  induction xs with
  | nil => rfl
  | cons x xs ih => exact bind_of_stateless (h x) fun _ => ih

/-- `x` keeps `I`, whether it returns or throws. -/
def Keeps (I : σ → Prop) (x : Fallible ε σ α) : Prop := ∀ s, I s → I (x s).2

section
variable {I : σ → Prop} {x : Fallible ε σ α}

theorem Keeps.of_run {r : Except ε α} {s s' : σ} (hx : Keeps I x) (hrun : x s = (r, s'))
    (h : I s) : I s' := by
  have hs := hx s h
  rwa [hrun] at hs

theorem keeps_pure (a : α) : Keeps I (pure a : Fallible ε σ α) := fun _ h => h

theorem keeps_throw (e : ε) : Keeps I (throw e : Fallible ε σ α) := fun _ h => h

theorem Keeps.bind {f : α → Fallible ε σ β} (hx : Keeps I x) (hf : ∀ a, Keeps I (f a)) :
    Keeps I (x >>= f) := by
  intro s h
  rcases bind_cases x f s with ⟨e, s', hx', hbind⟩ | ⟨a, s', hx', hbind⟩
  · rw [hbind]
    exact hx.of_run hx' h
  · rw [hbind]
    exact hf a s' (hx.of_run hx' h)

theorem Keeps.ite {y : Fallible ε σ α} {p : Prop} [Decidable p] (hx : Keeps I x)
    (hy : Keeps I y) : Keeps I (if p then x else y) := by
  split
  · exact hx
  · exact hy

end

end Fallible

end ViamEthercat.Lib
