import Mathlib.Logic.Basic

/-!
# `ViamEthercat.Lib.Dialogue`: programs that ask, and the rules they keep to

A program that calls into something unknown is a tree. It ends with a value, or it asks and goes
on with the answer, whatever that is. `Dialogue` is such a program, `Talk` one with a state and
exceptions, and `Runs` its runs, each with the list of its exchanges.

The rules of the other side are a partial step on a state `M` that the exchanges move: a question
that it does not allow has no next state. `wp rule x Q E m s` says that from `m` and `s`, whatever
the answers, each exchange of `x` is allowed, and that `Q` holds where it returns and `E` where it
throws. It is computed from the parts of `x` (`wp_bind`, `wp_ask`, `wp_forM` and so on), and it says
what it should of each run (`wp_runs`). Where the parts all keep one property of the rules' state,
the whole does (`Keeps`).
-/

set_option autoImplicit false

namespace ViamEthercat.Lib

/-- A program that asks: it ends, or goes on with any answer to its question. -/
inductive Dialogue (Q : Type) (A : Q → Type) (α : Type) : Type where
  | ret (a : α)
  | ask (q : Q) (next : A q → Dialogue Q A α)

variable {Q : Type} {A : Q → Type} {M α β ε σ τ : Type}

namespace Dialogue

/-- `x`, and then `f` on its value. -/
def bind : Dialogue Q A α → (α → Dialogue Q A β) → Dialogue Q A β
  | .ret a, f => f a
  | .ask q next, f => .ask q fun x => (next x).bind f

instance : Monad (Dialogue Q A) where
  pure := .ret
  bind := bind

theorem bind_ret (x : Dialogue Q A α) : x.bind .ret = x := by
  induction x with
  | ret a => rfl
  | ask q next ih => exact congrArg (Dialogue.ask q) (funext ih)

theorem bind_assoc {γ : Type} (x : Dialogue Q A α) (f : α → Dialogue Q A β)
    (g : β → Dialogue Q A γ) : (x.bind f).bind g = x.bind fun a => (f a).bind g := by
  induction x with
  | ret a => rfl
  | ask q next ih => exact congrArg (Dialogue.ask q) (funext ih)

instance : LawfulMonad (Dialogue Q A) :=
  LawfulMonad.mk' _ bind_ret (fun _ _ => rfl) bind_assoc

/-- The program ends with a value after these exchanges. -/
inductive Runs : Dialogue Q A α → List (Sigma A) → α → Prop where
  | ret (a : α) : Runs (.ret a) [] a
  | ask {q : Q} {next : A q → Dialogue Q A α} {x : A q} {exchanges : List (Sigma A)} {a : α}
      (h : Runs (next x) exchanges a) : Runs (.ask q next) (⟨q, x⟩ :: exchanges) a

/-- From `m` each exchange is allowed, whatever the answers, and `post` holds at the end. -/
def Obeys (rule : M → (q : Q) → A q → Option M) (post : M → α → Prop) :
    Dialogue Q A α → M → Prop
  | .ret a, m => post m a
  | .ask q next, m => ∀ x, ∃ m', rule m q x = some m' ∧ Obeys rule post (next x) m'

/-- The state after a list of exchanges, if they are all allowed. -/
def replay (rule : M → (q : Q) → A q → Option M) (m : M) : List (Sigma A) → Option M
  | [] => some m
  | ⟨q, x⟩ :: exchanges => (rule m q x).bind (replay rule · exchanges)

section
variable {rule : M → (q : Q) → A q → Option M} {m : M}

theorem obeys_bind {x : Dialogue Q A α} {f : α → Dialogue Q A β} {post : M → β → Prop} :
    Obeys rule post (x.bind f) m ↔ Obeys rule (fun m a => Obeys rule post (f a) m) x m := by
  induction x generalizing m with
  | ret a => exact Iff.rfl
  | ask q next ih =>
      show (∀ x, ∃ m', rule m q x = some m' ∧ Obeys rule post ((next x).bind f) m') ↔ _
      simp only [ih]
      rfl

theorem Obeys.mono {x : Dialogue Q A α} {post post' : M → α → Prop} (h : Obeys rule post x m)
    (himp : ∀ m a, post m a → post' m a) : Obeys rule post' x m := by
  induction x generalizing m with
  | ret a => exact himp m a h
  | ask q next ih =>
      intro x
      obtain ⟨m', hrule, hnext⟩ := h x
      exact ⟨m', hrule, ih x hnext⟩

theorem Obeys.runs {x : Dialogue Q A α} {post : M → α → Prop} {exchanges : List (Sigma A)} {a : α}
    (h : Obeys rule post x m) (hruns : Runs x exchanges a) :
    ∃ m', replay rule m exchanges = some m' ∧ post m' a := by
  induction hruns generalizing m with
  | ret a => exact ⟨m, rfl, h⟩
  | ask hnext ih =>
      obtain ⟨m', hrule, hrest⟩ := h _
      obtain ⟨m'', hreplay, hpost⟩ := ih hrest
      refine ⟨m'', ?_, hpost⟩
      rw [replay, hrule]
      exact hreplay

end

/-- The run against an environment that answers from its state. -/
def runWith {E : Type} (env : E → (q : Q) → A q × E) : Dialogue Q A α → E → α × E
  | .ret a, e => (a, e)
  | .ask q next, e => (next (env e q).1).runWith env (env e q).2

theorem runWith_bind {E : Type} (env : E → (q : Q) → A q × E) (x : Dialogue Q A α)
    (f : α → Dialogue Q A β) (e : E) : (x.bind f).runWith env e =
      (f (x.runWith env e).1).runWith env (x.runWith env e).2 := by
  induction x generalizing e with
  | ret a => rfl
  | ask q next ih => exact ih (env e q).1 (env e q).2

/-- What an environment answers is one of the runs. -/
theorem exists_runs {E : Type} (env : E → (q : Q) → A q × E) (x : Dialogue Q A α) (e : E) :
    ∃ exchanges, Runs x exchanges (x.runWith env e).1 := by
  induction x generalizing e with
  | ret a => exact ⟨[], .ret a⟩
  | ask q next ih =>
      obtain ⟨exchanges, h⟩ := ih (env e q).1 (env e q).2
      exact ⟨_, .ask h⟩

end Dialogue

/-- A program that asks, keeps a state `σ` and may throw an `ε`. -/
abbrev Talk (Q : Type) (A : Q → Type) (ε σ α : Type) := ExceptT ε (StateT σ (Dialogue Q A)) α

namespace Talk

/-- One question. -/
def ask (q : Q) : Talk Q A ε σ (A q) := fun s => .ask q fun x => .ret (.ok x, s)

/-- `x` in a `try`: its result as a value. -/
def attempt (x : Talk Q A ε σ α) : Talk Q A ε σ (Except ε α) := fun s =>
  (x s).bind fun r => .ret (.ok r.1, r.2)

/-- `x` on a part of the state. -/
def zoom (part : τ → σ) (set : σ → τ → τ) (x : Talk Q A ε σ α) : Talk Q A ε τ α := fun t =>
  (x (part t)).bind fun r => .ret (r.1, set r.2 t)

/-- `x`, with what it throws seen as an `ε`. -/
def mapError {ε' : Type} (f : ε' → ε) (x : Talk Q A ε' σ α) : Talk Q A ε σ α := fun s =>
  (x s).bind fun r => .ret (r.1.mapError f, r.2)

/-- `x` if `p` holds, else nothing. -/
def whenever (p : Prop) [Decidable p] (x : Talk Q A ε σ PUnit) : Talk Q A ε σ PUnit :=
  if p then x else pure ⟨⟩

/-- `post` by how a program ends. -/
def Ends (Q' : M → σ → α → Prop) (E : M → σ → ε → Prop) (m : M) : Except ε α × σ → Prop
  | (.ok a, s) => Q' m s a
  | (.error e, s) => E m s e

/-- Every exchange of `x` is allowed from `m`, and it returns in `Q'` or throws in `E`. -/
def wp (rule : M → (q : Q) → A q → Option M) (x : Talk Q A ε σ α) (Q' : M → σ → α → Prop)
    (E : M → σ → ε → Prop) (m : M) (s : σ) : Prop :=
  (x s).Obeys rule (Ends Q' E) m

section
variable {rule : M → (q : Q) → A q → Option M} {Q' : M → σ → α → Prop} {E : M → σ → ε → Prop}
  {m : M} {s : σ}

@[simp]
theorem wp_pure {a : α} : wp rule (pure a) Q' E m s ↔ Q' m s a := Iff.rfl

@[simp]
theorem wp_throw {e : ε} : wp rule (throw e) Q' E m s ↔ E m s e := Iff.rfl

@[simp]
theorem wp_get {Q' : M → σ → σ → Prop} : wp rule get Q' E m s ↔ Q' m s s := Iff.rfl

@[simp]
theorem wp_modify {f : σ → σ} {Q' : M → σ → PUnit → Prop} :
    wp rule (modify f) Q' E m s ↔ Q' m (f s) ⟨⟩ := Iff.rfl

@[simp]
theorem wp_ask {q : Q} {Q' : M → σ → A q → Prop} :
    wp rule (ask q) Q' E m s ↔ ∀ x, ∃ m', rule m q x = some m' ∧ Q' m' s x := Iff.rfl

/-- A condition on the result of `x` is `wp`, of its two parts. -/
theorem obeys_iff_wp {x : Talk Q A ε σ α} {post : M → Except ε α × σ → Prop}
    (hok : ∀ m s a, post m (.ok a, s) ↔ Q' m s a)
    (herror : ∀ m s e, post m (.error e, s) ↔ E m s e) :
    (x s).Obeys rule post m ↔ wp rule x Q' E m s := by
  have hpost : post = Ends Q' E := by
    funext m r
    rcases r with ⟨e | a, s⟩
    · exact propext (herror m s e)
    · exact propext (hok m s a)
  rw [hpost, wp]

theorem wp_bind {x : Talk Q A ε σ α} {f : α → Talk Q A ε σ β} {Q' : M → σ → β → Prop} :
    wp rule (x >>= f) Q' E m s ↔ wp rule x (fun m s a => wp rule (f a) Q' E m s) E m s := by
  show Dialogue.Obeys rule (Ends Q' E) ((x s).bind _) m ↔ _
  exact Dialogue.obeys_bind.trans (obeys_iff_wp (fun _ _ _ => Iff.rfl) fun _ _ _ => Iff.rfl)

theorem wp_attempt {x : Talk Q A ε σ α} {Q' : M → σ → Except ε α → Prop} :
    wp rule (attempt x) Q' E m s ↔
      wp rule x (fun m s a => Q' m s (.ok a)) (fun m s e => Q' m s (.error e)) m s := by
  show Dialogue.Obeys rule (Ends Q' E) ((x s).bind _) m ↔ _
  exact Dialogue.obeys_bind.trans (obeys_iff_wp (fun _ _ _ => Iff.rfl) fun _ _ _ => Iff.rfl)

theorem wp_zoom {part : τ → σ} {set : σ → τ → τ} {x : Talk Q A ε σ α} {t : τ}
    {Q' : M → τ → α → Prop} {E : M → τ → ε → Prop} :
    wp rule (zoom part set x) Q' E m t ↔
      wp rule x (fun m s a => Q' m (set s t) a) (fun m s e => E m (set s t) e) m (part t) := by
  show Dialogue.Obeys rule (Ends Q' E) ((x (part t)).bind _) m ↔ _
  exact Dialogue.obeys_bind.trans (obeys_iff_wp (fun _ _ _ => Iff.rfl) fun _ _ _ => Iff.rfl)

theorem wp_mapError {ε' : Type} {f : ε' → ε} {x : Talk Q A ε' σ α} :
    wp rule (mapError f x) Q' E m s ↔ wp rule x Q' (fun m s e => E m s (f e)) m s := by
  show Dialogue.Obeys rule (Ends Q' E) ((x s).bind _) m ↔ _
  exact Dialogue.obeys_bind.trans (obeys_iff_wp (fun _ _ _ => Iff.rfl) fun _ _ _ => Iff.rfl)

theorem wp_mono {x : Talk Q A ε σ α} {Q'' : M → σ → α → Prop} {E' : M → σ → ε → Prop}
    (h : wp rule x Q' E m s) (hQ : ∀ m s a, Q' m s a → Q'' m s a)
    (hE : ∀ m s e, E m s e → E' m s e) : wp rule x Q'' E' m s := by
  refine Dialogue.Obeys.mono h fun m r hr => ?_
  rcases r with ⟨e | a, s'⟩
  · exact hE m s' e hr
  · exact hQ m s' a hr

theorem wp_ite {p : Prop} [Decidable p] {x y : Talk Q A ε σ α}
    (hx : p → wp rule x Q' E m s) (hy : ¬ p → wp rule y Q' E m s) :
    wp rule (if p then x else y) Q' E m s := by
  split
  · exact hx ‹_›
  · exact hy ‹_›

theorem wp_whenever {p : Prop} [Decidable p] {x : Talk Q A ε σ PUnit}
    {Q' : M → σ → PUnit → Prop} (hx : p → wp rule x Q' E m s) (hskip : ¬ p → Q' m s ⟨⟩) :
    wp rule (whenever p x) Q' E m s :=
  wp_ite hx hskip

/-- A loop: what its turns establish of the elements done so far holds of all at its end. -/
theorem wp_forM {γ : Type} (I : List γ → M → σ → Prop) (xs : List γ) {f : γ → Talk Q A ε σ PUnit}
    (h0 : I [] m s) (hstep : ∀ done x rest m s, xs = done ++ x :: rest → I done m s →
      wp rule (f x) (fun m s _ => I (done ++ [x]) m s) E m s) :
    wp rule (xs.forM f) (fun m s _ => I xs m s) E m s := by
  induction xs generalizing m s I with
  | nil => exact h0
  | cons x xs ih =>
      show wp rule (f x >>= fun _ => xs.forM f) _ E m s
      rw [wp_bind]
      refine wp_mono (hstep [] x xs m s rfl h0) (fun m s _ h => ?_) fun _ _ _ h => h
      refine ih (fun done m s => I (x :: done) m s) h fun done y rest m s hsplit hs => ?_
      exact hstep (x :: done) y rest m s (by rw [hsplit, List.cons_append]) hs

theorem wp_map {f : α → β} {x : Talk Q A ε σ α} {Q' : M → σ → β → Prop} :
    wp rule (f <$> x) Q' E m s ↔ wp rule x (fun m s a => Q' m s (f a)) E m s := by
  show Dialogue.Obeys rule (Ends Q' E) ((x s).bind _) m ↔ _
  exact Dialogue.obeys_bind.trans (obeys_iff_wp (fun _ _ _ => Iff.rfl) fun _ _ _ => Iff.rfl)

/-- A loop with an accumulator. -/
theorem wp_foldlM {γ : Type} (I : List γ → β → M → σ → Prop) (xs : List γ) {b : β}
    {f : β → γ → Talk Q A ε σ β} (h0 : I [] b m s)
    (hstep : ∀ done x rest b m s, xs = done ++ x :: rest → I done b m s →
      wp rule (f b x) (fun m s b => I (done ++ [x]) b m s) E m s) :
    wp rule (xs.foldlM f b) (fun m s b => I xs b m s) E m s := by
  induction xs generalizing m s b I with
  | nil => exact h0
  | cons x xs ih =>
      rw [List.foldlM_cons, wp_bind]
      refine wp_mono (hstep [] x xs b m s rfl h0) (fun m s b h => ?_) fun _ _ _ h => h
      refine ih (fun done b m s => I (x :: done) b m s) h fun done y rest b m s hsplit hs => ?_
      exact hstep (x :: done) y rest b m s (by rw [hsplit, List.cons_append]) hs

/-- Rules that allow everything. -/
theorem wp_free {x : Talk Q A ε σ α} :
    wp (fun (_ : Unit) (q : Q) (_ : A q) => some ()) x (fun _ _ _ => True) (fun _ _ _ => True)
      () s := by
  unfold wp
  induction x s with
  | ret r =>
      rcases r with ⟨e | a, s'⟩
      · trivial
      · trivial
  | ask q next ih => exact fun y => ⟨(), rfl, ih y⟩

/-- What `wp` says holds of every run. -/
theorem wp_runs {x : Talk Q A ε σ α} {exchanges : List (Sigma A)} {r : Except ε α × σ}
    (h : wp rule x Q' E m s) (hruns : (x s).Runs exchanges r) :
    ∃ m', Dialogue.replay rule m exchanges = some m' ∧ Ends Q' E m' r :=
  h.runs hruns

end

/-! ### Runs against an environment -/

section
variable {E : Type} {env : E → (q : Q) → A q × E} {s s' : σ} {e e' : E}

/-- The run of `x` against an environment that answers from its state. -/
def against (env : E → (q : Q) → A q × E) (x : Talk Q A ε σ α) (s : σ) (e : E) :
    (Except ε α × σ) × E :=
  (x s).runWith env e

theorem against_pure {a : α} : against env (pure a : Talk Q A ε σ α) s e = ((.ok a, s), e) := rfl

theorem against_pure_returns {a b : α}
    (h : against env (pure a : Talk Q A ε σ α) s e = ((.ok b, s'), e')) :
    a = b ∧ s = s' ∧ e = e' := by
  cases h
  exact ⟨rfl, rfl, rfl⟩

theorem against_ask {q : Q} : against env (ask q : Talk Q A ε σ (A q)) s e =
    ((.ok (env e q).1, s), (env e q).2) := rfl

theorem against_bind_ok {x : Talk Q A ε σ α} {f : α → Talk Q A ε σ β} {a : α}
    (h : against env x s e = ((.ok a, s'), e')) :
    against env (x >>= f) s e = against env (f a) s' e' := by
  show ((x s).bind _).runWith env e = _
  rw [Dialogue.runWith_bind]
  rw [against] at h
  rw [h]
  rfl

theorem against_ask_bind {q : Q} {f : A q → Talk Q A ε σ β} :
    against env (ask q >>= f) s e = against env (f (env e q).1) s (env e q).2 :=
  against_bind_ok against_ask

theorem against_bind_error {x : Talk Q A ε σ α} {f : α → Talk Q A ε σ β} {err : ε}
    (h : against env x s e = ((.error err, s'), e')) :
    against env (x >>= f) s e = ((.error err, s'), e') := by
  show ((x s).bind _).runWith env e = _
  rw [Dialogue.runWith_bind]
  rw [against] at h
  rw [h]
  rfl

/-- A sequence that returns has a first part that does. -/
theorem against_bind_returns {x : Talk Q A ε σ α} {f : α → Talk Q A ε σ β} {b : β}
    (h : against env (x >>= f) s e = ((.ok b, s'), e')) :
    ∃ a t u, against env x s e = ((.ok a, t), u) ∧ against env (f a) t u = ((.ok b, s'), e') := by
  cases hx : against env x s e with
  | mk r u =>
      rcases r with ⟨err | a, t⟩
      · rw [against_bind_error hx] at h
        cases h
      · rw [against_bind_ok hx] at h
        exact ⟨a, t, u, rfl, h⟩

/-- What `wp` says holds of the run. -/
theorem wp_against {rule : M → (q : Q) → A q → Option M} {x : Talk Q A ε σ α}
    {Q' : M → σ → α → Prop} {E' : M → σ → ε → Prop} {m : M} {r : Except ε α × σ}
    (h : wp rule x Q' E' m s) (hrun : against env x s e = (r, e')) : ∃ m', Ends Q' E' m' r := by
  obtain ⟨exchanges, hruns⟩ := Dialogue.exists_runs env (x s) e
  obtain ⟨m', -, hends⟩ := wp_runs h hruns
  rw [against] at hrun
  rw [hrun] at hends
  exact ⟨m', hends⟩

theorem against_attempt {x : Talk Q A ε σ α} {r : Except ε α}
    (h : against env x s e = ((r, s'), e')) :
    against env (attempt x : Talk Q A ε σ (Except ε α)) s e = ((.ok r, s'), e') := by
  show ((x s).bind _).runWith env e = _
  rw [Dialogue.runWith_bind]
  rw [against] at h
  rw [h]
  rfl

end

/-! ### Invariants of the rules -/

/-- Each exchange of `x` is allowed, and keeps `I`. -/
def Keeps (rule : M → (q : Q) → A q → Option M) (I : M → Prop) (x : Talk Q A ε σ α) : Prop :=
  ∀ m s, I m → wp rule x (fun m _ _ => I m) (fun m _ _ => I m) m s

section
variable {rule : M → (q : Q) → A q → Option M} {I : M → Prop}

theorem keeps_pure {a : α} : Keeps rule I (pure a : Talk Q A ε σ α) := fun _ _ h => h

theorem keeps_throw {e : ε} : Keeps rule I (throw e : Talk Q A ε σ α) := fun _ _ h => h

theorem keeps_get : Keeps rule I (get : Talk Q A ε σ σ) := fun _ _ h => h

theorem keeps_modify {f : σ → σ} : Keeps rule I (modify f : Talk Q A ε σ PUnit) := fun _ _ h => h

theorem keeps_ask {q : Q} (h : ∀ m x, I m → ∃ m', rule m q x = some m' ∧ I m') :
    Keeps rule I (ask q : Talk Q A ε σ (A q)) := fun m _ hm x => h m x hm

theorem Keeps.bind {x : Talk Q A ε σ α} {f : α → Talk Q A ε σ β} (hx : Keeps rule I x)
    (hf : ∀ a, Keeps rule I (f a)) : Keeps rule I (x >>= f) := by
  intro m s hm
  rw [wp_bind]
  exact wp_mono (hx m s hm) (fun m s a h => hf a m s h) fun _ _ _ h => h

theorem Keeps.map {f : α → β} {x : Talk Q A ε σ α} (hx : Keeps rule I x) :
    Keeps rule I (f <$> x) := by
  intro m s hm
  rw [wp_map]
  exact hx m s hm

theorem Keeps.attempt {x : Talk Q A ε σ α} (hx : Keeps rule I x) :
    Keeps rule I (attempt x : Talk Q A ε σ (Except ε α)) := by
  intro m s hm
  rw [wp_attempt]
  exact hx m s hm

theorem Keeps.ite {p : Prop} [Decidable p] {x y : Talk Q A ε σ α} (hx : Keeps rule I x)
    (hy : Keeps rule I y) : Keeps rule I (if p then x else y) := by
  split
  · exact hx
  · exact hy

end

end Talk

end ViamEthercat.Lib
