import Mathlib.Data.List.Basic
import Mathlib.Data.List.Induction
import Mathlib.Logic.Basic

/-!
# `ViamEthercat.Lib.Run`: runs of a step function

A run of `step : σ → ι → σ` is a list of inputs applied in order from a start
state. `AllSteps` says that a property of (state before the step, input) holds at
every step of a run. It is the shape of every law of the cyclic loop below: the
state is what the loop remembers, the input is one cycle of feedback and commands.

The rules:

* `runFrom_induction`: an invariant that every step keeps holds at the end of every
  run.
* `allSteps_of_invariant`: an invariant that is kept by the steps that meet `C`, and
  that gives `Q` there, gives `Q` along every run whose steps all meet `C`.
* `runFrom_of_allSteps`: such an invariant holds at the end of every such run.
* `allSteps_congr`: two properties that agree under an invariant, which the steps that
  meet them keep, hold along the same runs.
* `allSteps_append`: the steps of a run, and those of the run that goes on from its end.
* `forall_prefix_iff_allSteps`, `forall_prefix_concat_iff_allSteps`: what holds in every state,
  and at every step, of a run.
* `runFrom_iff_since`: a flag that some steps set and others clear holds at the end of a run if
  and only if it was set at some step and not cleared since (`Since`).
* `forall_since_iff`: what has to hold from a step with `A` on, up to the next step with `B`,
  step by step.
* `allSteps_proj`: a property of the observed state alone can be read along the run
  without its observer.
-/

set_option autoImplicit false

namespace ViamEthercat.Lib

variable {σ ι : Type}

/-- The state after the inputs `xs`, in order. -/
def runFrom (step : σ → ι → σ) (s : σ) (xs : List ι) : σ :=
  xs.foldl step s

/-- `Q` holds at every step of the run, of the state before the step and its input. -/
def AllSteps (step : σ → ι → σ) (Q : σ → ι → Prop) : σ → List ι → Prop
  | _, [] => True
  | s, x :: xs => Q s x ∧ AllSteps step Q (step s x) xs

instance AllSteps.decidable (step : σ → ι → σ) (Q : σ → ι → Prop)
    [∀ s x, Decidable (Q s x)] : ∀ s xs, Decidable (AllSteps step Q s xs)
  | _, [] => isTrue trivial
  | s, x :: xs =>
      haveI := AllSteps.decidable step Q (step s x) xs
      inferInstanceAs (Decidable (Q s x ∧ AllSteps step Q (step s x) xs))

section
variable {step : σ → ι → σ} {s : σ} {x : ι} {xs : List ι}

@[simp] theorem runFrom_nil : runFrom step s [] = s := rfl

@[simp] theorem runFrom_cons : runFrom step s (x :: xs) = runFrom step (step s x) xs := rfl

theorem runFrom_concat : runFrom step s (xs ++ [x]) = step (runFrom step s xs) x :=
  List.foldl_concat ..

theorem runFrom_append {ys : List ι} :
    runFrom step s (xs ++ ys) = runFrom step (runFrom step s xs) ys :=
  List.foldl_append ..

@[simp] theorem allSteps_nil {Q : σ → ι → Prop} : AllSteps step Q s [] := trivial

@[simp] theorem allSteps_cons {Q : σ → ι → Prop} :
    AllSteps step Q s (x :: xs) ↔ Q s x ∧ AllSteps step Q (step s x) xs := Iff.rfl

/-- An invariant of every step holds at the end of every run. -/
theorem runFrom_induction {I : σ → Prop} (h0 : I s)
    (hstep : ∀ s x, I s → I (step s x)) : I (runFrom step s xs) := by
  induction xs generalizing s with
  | nil => exact h0
  | cons x xs ih => exact ih (hstep s x h0)

/-- The invariant rule: an invariant kept by the steps that meet `C`, which gives `Q` at
each of them, gives `Q` along every run whose steps all meet `C`. -/
theorem allSteps_of_invariant {I : σ → Prop} {C Q : σ → ι → Prop} (h0 : I s)
    (hstep : ∀ s x, I s → C s x → I (step s x) ∧ Q s x)
    (hC : AllSteps step C s xs) : AllSteps step Q s xs := by
  induction xs generalizing s with
  | nil => trivial
  | cons x xs ih =>
      obtain ⟨hx, hxs⟩ := hC
      obtain ⟨hinv, hq⟩ := hstep s x h0 hx
      exact ⟨hq, ih hinv hxs⟩

/-- An invariant kept by the steps that meet `C` holds at the end of every run whose steps all
meet `C`. -/
theorem runFrom_of_allSteps {I : σ → Prop} {C : σ → ι → Prop} (h0 : I s)
    (hstep : ∀ s x, I s → C s x → I (step s x)) (hC : AllSteps step C s xs) :
    I (runFrom step s xs) := by
  induction xs generalizing s with
  | nil => exact h0
  | cons x xs ih => exact ih (hstep s x h0 hC.1) hC.2

/-- Two properties that agree under an invariant hold along the same runs, when the steps that
meet them keep the invariant. -/
theorem allSteps_congr {I : σ → Prop} {C Q : σ → ι → Prop} (h0 : I s)
    (hstep : ∀ s x, I s → C s x → I (step s x)) (hiff : ∀ s x, I s → (Q s x ↔ C s x)) :
    AllSteps step Q s xs ↔ AllSteps step C s xs := by
  induction xs generalizing s with
  | nil => simp
  | cons x xs ih =>
      rw [allSteps_cons, allSteps_cons, hiff s x h0]
      exact and_congr_right fun hx => ih (hstep s x h0 hx)

/-- A property of states holds in every state of a run if and only if it holds in the first and
after each step. -/
theorem forall_prefix_iff_allSteps {P : σ → Prop} :
    (∀ pre, pre <+: xs → P (runFrom step s pre)) ↔
      P s ∧ AllSteps step (fun s x => P (step s x)) s xs := by
  induction xs generalizing s with
  | nil => simp
  | cons x xs ih =>
      rw [allSteps_cons, ← ih]
      constructor
      · intro h
        refine ⟨h [] List.nil_prefix, fun pre hpre => ?_⟩
        exact h (x :: pre) (List.cons_prefix_cons.mpr ⟨rfl, hpre⟩)
      · rintro ⟨h0, h⟩ pre hpre
        cases pre with
        | nil => exact h0
        | cons y pre =>
            obtain ⟨rfl, htail⟩ := List.cons_prefix_cons.mp hpre
            exact h pre htail

/-- A property of steps holds along a run if and only if it holds at each step, from the end of
the run before it. -/
theorem forall_prefix_concat_iff_allSteps {Q : σ → ι → Prop} :
    (∀ pre x, pre ++ [x] <+: xs → Q (runFrom step s pre) x) ↔ AllSteps step Q s xs := by
  induction xs generalizing s with
  | nil => simp
  | cons y xs ih =>
      rw [allSteps_cons, ← ih]
      constructor
      · intro h
        refine ⟨h [] y ⟨xs, rfl⟩, fun pre x hpre => ?_⟩
        exact h (y :: pre) x (List.cons_prefix_cons.mpr ⟨rfl, hpre⟩)
      · rintro ⟨h0, h⟩ pre x hpre
        cases pre with
        | nil =>
            obtain ⟨rfl, -⟩ := List.cons_prefix_cons.mp hpre
            exact h0
        | cons z pre =>
            obtain ⟨rfl, htail⟩ := List.cons_prefix_cons.mp hpre
            exact h pre x htail

/-- The last step of a run, split off. -/
theorem allSteps_concat {Q : σ → ι → Prop} :
    AllSteps step Q s (xs ++ [x]) ↔ AllSteps step Q s xs ∧ Q (runFrom step s xs) x := by
  induction xs generalizing s with
  | nil => simp
  | cons y xs ih => rw [List.cons_append, allSteps_cons, allSteps_cons, ih, and_assoc, runFrom_cons]

/-- The steps of a run, and of the run that goes on from its end. -/
theorem allSteps_append {Q : σ → ι → Prop} {ys : List ι} :
    AllSteps step Q s (xs ++ ys) ↔
      AllSteps step Q s xs ∧ AllSteps step Q (runFrom step s xs) ys := by
  induction xs generalizing s with
  | nil => simp
  | cons x xs ih => rw [List.cons_append, allSteps_cons, allSteps_cons, ih, and_assoc, runFrom_cons]

/-- At some step of the run `A` held, and `B` has held at no step since. -/
def Since (step : σ → ι → σ) (A B : σ → ι → Prop) (s : σ) (xs : List ι) : Prop :=
  ∃ pre x post, xs = pre ++ x :: post ∧ A (runFrom step s pre) x ∧
    AllSteps step (fun s x => ¬ B s x) (runFrom step s (pre ++ [x])) post

theorem not_since_nil {A B : σ → ι → Prop} : ¬ Since step A B s [] := by
  rintro ⟨pre, x, post, h, -⟩
  simp at h

theorem since_concat {A B : σ → ι → Prop} :
    Since step A B s (xs ++ [x]) ↔
      A (runFrom step s xs) x ∨ (Since step A B s xs ∧ ¬ B (runFrom step s xs) x) := by
  constructor
  · rintro ⟨pre, y, post, hsplit, hA, hpost⟩
    -- The step is the last one, or one before it.
    induction post using List.reverseRecOn with
    | nil =>
        obtain ⟨rfl, rfl⟩ : xs = pre ∧ x = y := by simpa using hsplit
        exact .inl hA
    | append_singleton post z _ =>
        rw [allSteps_concat] at hpost
        have hsplit' : xs ++ [x] = (pre ++ y :: post) ++ [z] := by simpa using hsplit
        obtain ⟨hxs, rfl⟩ : xs = pre ++ y :: post ∧ x = z :=
          List.append_inj' hsplit' rfl |>.imp_right List.singleton_inj.mp
        refine .inr ⟨⟨pre, y, post, hxs, hA, hpost.1⟩, ?_⟩
        rw [hxs, List.append_cons, runFrom_append]
        exact hpost.2
  · rintro (hA | ⟨⟨pre, y, post, rfl, hA, hpost⟩, hB⟩)
    · exact ⟨xs, x, [], rfl, hA, trivial⟩
    · refine ⟨pre, y, post ++ [x], by simp, hA, allSteps_concat.mpr ⟨hpost, ?_⟩⟩
      rw [← runFrom_append, ← List.append_cons]
      exact hB

/-- A flag that `A` sets and `B` clears, under an invariant of every step, holds at the end of a
run if and only if it was set and not cleared since. -/
theorem runFrom_iff_since {I P : σ → Prop} {A B : σ → ι → Prop} (h0 : I s)
    (hinv : ∀ s x, I s → I (step s x)) (hclear : ¬ P s)
    (hstep : ∀ s x, I s → (P (step s x) ↔ A s x ∨ (P s ∧ ¬ B s x))) :
    P (runFrom step s xs) ↔ Since step A B s xs := by
  induction xs using List.reverseRecOn with
  | nil => exact iff_of_false hclear not_since_nil
  | append_singleton xs x ih =>
      have hI : I (runFrom step s xs) := runFrom_induction h0 hinv
      rw [runFrom_concat, hstep _ _ hI, since_concat, ih]

/-- A property of states that is to hold from a step with `A` on, up to the next step with `B`:
it does if and only if each step with `A` meets `C`, and each step that the property has to
survive meets `D`. `I` is what is known at each step. -/
theorem forall_since_iff {P : σ → Prop} {I A B C D : σ → ι → Prop} (hI : AllSteps step I s xs)
    (hset : ∀ s x, I s x → A s x → (P (step s x) ↔ C s x ∧ D s x))
    (hkeep : ∀ s x, I s x → P s → ¬ B s x → (P (step s x) ↔ D s x)) :
    (∀ pre, pre <+: xs → Since step A B s pre → P (runFrom step s pre)) ↔
      AllSteps step (fun s x => A s x → C s x) s xs ∧
        ∀ pre x, pre ++ [x] <+: xs → Since step A B s (pre ++ [x]) →
          D (runFrom step s pre) x := by
  rw [← forall_prefix_concat_iff_allSteps] at hI ⊢
  constructor
  · intro h
    have hafter {pre : List ι} {x : ι} (hpre : pre ++ [x] <+: xs)
        (hsince : Since step A B s (pre ++ [x])) : P (step (runFrom step s pre) x) := by
      have hend := h _ hpre hsince
      rwa [runFrom_concat] at hend
    refine ⟨fun pre x hpre hA => ?_, fun pre x hpre hsince => ?_⟩
    · exact ((hset _ _ (hI _ _ hpre) hA).mp (hafter hpre (since_concat.mpr (.inl hA)))).1
    · rcases since_concat.mp hsince with hA | ⟨hbefore, hB⟩
      · exact ((hset _ _ (hI _ _ hpre) hA).mp (hafter hpre hsince)).2
      · have hP := h pre ((List.prefix_append pre [x]).trans hpre) hbefore
        exact (hkeep _ _ (hI _ _ hpre) hP hB).mp (hafter hpre hsince)
  · rintro ⟨hC, hD⟩ pre
    induction pre using List.reverseRecOn with
    | nil => exact fun _ hsince => absurd hsince not_since_nil
    | append_singleton pre x ih =>
        intro hpre hsince
        rw [runFrom_concat]
        rcases since_concat.mp hsince with hA | ⟨hbefore, hB⟩
        · exact (hset _ _ (hI _ _ hpre) hA).mpr ⟨hC _ _ hpre hA, hD _ _ hpre hsince⟩
        · have hP := ih ((List.prefix_append pre [x]).trans hpre) hbefore
          exact (hkeep _ _ (hI _ _ hpre) hP hB).mpr (hD _ _ hpre hsince)

/-- A property of the inputs alone, read along a run. -/
theorem allSteps_of_forall {C : ι → Prop} (h : ∀ x ∈ xs, C x) :
    AllSteps step (fun _ x => C x) s xs := by
  induction xs generalizing s with
  | nil => trivial
  | cons x xs ih =>
      exact ⟨h x List.mem_cons_self, ih fun y hy => h y (List.mem_cons_of_mem x hy)⟩

/-- An observer does not change the run: a property of the observed state alone holds along
the observed run if and only if it holds along the run. -/
theorem allSteps_proj {τ : Type} {step' : τ → ι → τ} {proj : τ → σ}
    (hproj : ∀ x i, proj (step' x i) = step (proj x) i) {Q : σ → ι → Prop} {x : τ} :
    AllSteps step' (fun x i => Q (proj x) i) x xs ↔ AllSteps step Q (proj x) xs := by
  induction xs generalizing x with
  | nil => simp
  | cons i xs ih => rw [allSteps_cons, allSteps_cons, ih, hproj]

end

end ViamEthercat.Lib
