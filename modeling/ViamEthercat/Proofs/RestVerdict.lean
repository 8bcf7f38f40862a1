import ViamEthercat.Lib.Run
import ViamEthercat.Lib.Window
import ViamEthercat.Servo.Controller

/-!
# `ViamEthercat.Proofs.RestVerdict`: the rest verdict over a window of positions

`position_stable` compares the range of the last `N` positions with the tolerance. Its ring holds
exactly those once it is full (`Holds`). But the range is an `int32_t` difference: a range of 2^31
or more comes out negative, and every tolerance admits it.

`rest_verdict_exact_iff`: the verdicts on a sequence of samples are those of the exact range if and
only if no full window has a range of 2^31 or more. An axis whose positions cross the wrap of the
encoder has such windows.
-/

set_option autoImplicit false

namespace ViamEthercat.Servo

open Lib

namespace PositionRing

/-- The ring after some samples. -/
def fed (window : Nat) (tolerance : Int32) (samples : List Int32) : PositionRing :=
  runFrom (fun r x => (r.push tolerance x).1) (sized window) samples

/-- The verdict on a sample after others. -/
def verdict (window : Nat) (tolerance : Int32) (before : List Int32) (actual : Int32) : Bool :=
  ((fed window tolerance before).push tolerance actual).2

/-- The range of the last positions, in the integers. -/
def windowSpread (window : Nat) (samples : List Int32) : Int :=
  spread ((samples.rtake window).map Int32.toInt)

/-- The ring of `window` entries holds the last of `samples`, oldest first from its index on, and
counts them. Before it is full, zeros stand for the missing ones. -/
structure Holds (window : Nat) (samples : List Int32) (r : PositionRing) : Prop where
  length : r.hist.length = window
  idx : r.idx < window
  filled : r.filled = min samples.length window
  view : r.hist.rotate r.idx = (List.replicate window 0 ++ samples).rtake window

variable {window : Nat} {tolerance actual : Int32} {samples : List Int32} {r : PositionRing}

theorem holds_sized (hwindow : 0 < window) : (sized window).Holds window [] where
  length := List.length_replicate
  idx := hwindow
  filled := by simp [sized]
  view := by simp [sized, List.rtake]

theorem Holds.hist_ne (h : r.Holds window samples) (hwindow : 0 < window) : r.hist ≠ [] := by
  intro hnil
  have hlength := h.length
  rw [hnil, List.length_nil] at hlength
  omega

/-- A ring with room gives no verdict. -/
theorem Holds.push_room (h : r.Holds window samples) (hroom : samples.length < window) :
    r.push tolerance actual =
      (⟨r.hist.set r.idx actual, (r.idx + 1) % window, r.filled + 1⟩, false) := by
  have hfilled := h.filled
  unfold PositionRing.push
  rw [if_neg (h.hist_ne (by omega))]
  dsimp only
  rw [List.length_set, h.length, if_pos (by omega)]

/-- A full ring compares its range. -/
theorem Holds.push_full (h : r.Holds window samples) (hwindow : 0 < window)
    (hfull : window ≤ samples.length) :
    let hist := r.hist.set r.idx actual
    r.push tolerance actual = (⟨hist, (r.idx + 1) % window, r.filled⟩,
      decide (hist.foldl max (hist.headD 0) - hist.foldl min (hist.headD 0) ≤ tolerance)) := by
  have hfilled := h.filled
  unfold PositionRing.push
  rw [if_neg (h.hist_ne hwindow)]
  dsimp only
  rw [List.length_set, h.length, if_neg (by omega)]

/-- The step lemma: a sample takes the place of the oldest. -/
theorem Holds.push (h : r.Holds window samples) (hwindow : 0 < window) :
    (r.push tolerance actual).1.Holds window (samples ++ [actual]) := by
  have hidx : r.idx < r.hist.length := h.length ▸ h.idx
  have hview := rotate_set_succ hidx actual
  rw [h.view, ← rtake_concat hwindow (by simp), List.append_assoc, h.length] at hview
  have hlength : (r.hist.set r.idx actual).length = window := by rw [List.length_set, h.length]
  have hnext : (r.idx + 1) % window < window := Nat.mod_lt _ hwindow
  have hcount : (samples ++ [actual]).length = samples.length + 1 := by simp
  have hfilled := h.filled
  obtain hroom | hfull := Nat.lt_or_ge samples.length window
  · rw [h.push_room hroom]
    exact ⟨hlength, hnext, by dsimp only; omega, hview⟩
  · rw [h.push_full hwindow hfull]
    exact ⟨hlength, hnext, by dsimp only; omega, hview⟩

/-- The run lemma. -/
theorem holds_fed (hwindow : 0 < window) (samples : List Int32) :
    (fed window tolerance samples).Holds window samples := by
  induction samples using List.reverseRecOn with
  | nil => exact holds_sized hwindow
  | append_singleton samples actual ih =>
      unfold fed at ih ⊢
      rw [runFrom_concat]
      exact ih.push hwindow

/-! ## The verdict -/

theorem toInt_max (a b : Int32) : (max a b).toInt = max a.toInt b.toInt := by
  have hmax : max a b = if a ≤ b then b else a := rfl
  rw [hmax, max_def, apply_ite Int32.toInt]
  simp only [Int32.le_iff_toInt_le]

theorem toInt_min (a b : Int32) : (min a b).toInt = min a.toInt b.toInt := by
  have hmin : min a b = if a ≤ b then a else b := rfl
  rw [hmin, min_def, apply_ite Int32.toInt]
  simp only [Int32.le_iff_toInt_le]

/-- The extremes that the source folds are those of the integers. -/
theorem spread_hist {hist : List Int32} (hne : hist ≠ []) :
    spread (hist.map Int32.toInt) =
      (hist.foldl max (hist.headD 0)).toInt - (hist.foldl min (hist.headD 0)).toInt := by
  obtain ⟨x, xs, rfl⟩ := List.exists_cons_of_ne_nil hne
  have hmax : (xs.map Int32.toInt).foldl max x.toInt = (xs.foldl max x).toInt := by
    rw [List.foldl_map]
    exact List.foldl_hom Int32.toInt fun a b => (toInt_max a b).symm
  have hmin : (xs.map Int32.toInt).foldl min x.toInt = (xs.foldl min x).toInt := by
    rw [List.foldl_map]
    exact List.foldl_hom Int32.toInt fun a b => (toInt_min a b).symm
  have hself : max x x = x ∧ min x x = x := by
    constructor <;> rw [← Int32.toInt_inj]
    · rw [toInt_max, max_self]
    · rw [toInt_min, min_self]
  rw [List.map_cons, List.headD_cons, List.foldl_cons, List.foldl_cons, hself.1, hself.2, ← hmax,
    ← hmin]
  rfl

/-- A difference in `int32_t` is at most the tolerance if and only if the exact one is, or is too
large for the type. -/
theorem sub_le_iff {hi lo : Int32} (h : lo.toInt ≤ hi.toInt) (htol : 0 ≤ tolerance.toInt) :
    hi - lo ≤ tolerance ↔ hi.toInt - lo.toInt ≤ tolerance.toInt ∨ 2 ^ 31 ≤ hi.toInt - lo.toInt := by
  have := hi.toInt_lt
  have := lo.le_toInt
  have := tolerance.toInt_lt
  rw [Int32.le_iff_toInt_le, Int32.toInt_sub]
  obtain hfits | hwraps := lt_or_ge (hi.toInt - lo.toInt) (2 ^ 31)
  · rw [Int.bmod_eq_of_le (by omega) (by omega)]
    omega
  · rw [Int.bmod_def]
    split_ifs <;> omega

/-- What the verdict says: the window is full, and its range is at most the tolerance or wraps. -/
theorem verdict_iff (hwindow : 0 < window) (htol : 0 ≤ tolerance.toInt) (before : List Int32)
    (actual : Int32) :
    verdict window tolerance before actual = true ↔
      window ≤ before.length ∧
        (windowSpread window (before ++ [actual]) ≤ tolerance.toInt ∨
          2 ^ 31 ≤ windowSpread window (before ++ [actual])) := by
  have h : (fed window tolerance before).Holds window before := holds_fed hwindow before
  unfold verdict
  obtain hroom | hfull := Nat.lt_or_ge before.length window
  · rw [h.push_room hroom]
    exact iff_of_false Bool.false_ne_true fun hfull => absurd hfull.1 (by omega)
  · have hpushed : ((fed window tolerance before).push tolerance actual).1.Holds window
        (before ++ [actual]) := h.push hwindow
    have hview := hpushed.view
    rw [h.push_full hwindow hfull, rtake_append_of_le _ (by simp; omega)] at hview
    rw [h.push_full hwindow hfull, and_iff_right hfull, decide_eq_true_iff]
    dsimp only at hview ⊢
    generalize (fed window tolerance before).hist.set _ actual = hist at *
    have hne : hist ≠ [] := by
      intro hnil
      rw [hnil, List.rotate_nil] at hview
      have hlength := length_rtake (l := before ++ [actual]) (n := window) (by simp; omega)
      rw [← hview, List.length_nil] at hlength
      omega
    have hspread : windowSpread window (before ++ [actual]) =
        (hist.foldl max (hist.headD 0)).toInt - (hist.foldl min (hist.headD 0)).toInt := by
      rw [← spread_hist hne, windowSpread, ← hview]
      exact spread_perm ((List.rotate_perm hist _).map _)
    rw [hspread]
    have hnonneg := spread_nonneg (hist.map Int32.toInt)
    rw [spread_hist hne] at hnonneg
    exact sub_le_iff (by omega) htol

end PositionRing

open PositionRing

/-- For every window of at least 3, every tolerance that is not negative and every sequence of
samples: each verdict is false up to a full window and from then on says whether the exact range of
the window is at most the tolerance, if and only if no full window has a range of 2^31 or more. -/
theorem rest_verdict_exact_iff (window : Nat) (hwindow : 3 ≤ window) (tolerance : Int32)
    (htol : 0 ≤ tolerance.toInt) (samples : List Int32) :
    (∀ before actual, before ++ [actual] <+: samples →
      (verdict window tolerance before actual = true ↔
        window ≤ before.length ∧
          windowSpread window (before ++ [actual]) ≤ tolerance.toInt)) ↔
    ∀ before actual, before ++ [actual] <+: samples → window ≤ before.length →
      windowSpread window (before ++ [actual]) < 2 ^ 31 := by
  have htolerance := tolerance.toInt_lt
  refine forall_congr' fun before => forall_congr' fun actual => forall_congr' fun _ => ?_
  rw [verdict_iff (by omega) htol]
  constructor
  · intro h hfull
    by_contra hwraps
    have := (h.mp ⟨hfull, .inr (not_lt.mp hwraps)⟩).2
    omega
  · intro h
    refine and_congr_right fun hfull => ?_
    have := h hfull
    omega

/-- Four samples at rest, with the window of 150 Hz. -/
theorem rest_verdict_exact_still : verdict (positionWindow 150) 182 [5, 6, 7] 6 = true := by
  have hexact :=
    rest_verdict_exact_iff (positionWindow 150) (by decide) 182 (by decide) [5, 6, 7, 6]
  refine (hexact.mpr (fun before actual hbefore hfull => ?_) [5, 6, 7] 6
    (List.prefix_refl _)).mpr (by decide)
  have hfull : 3 ≤ before.length := hfull
  rw [hbefore.eq_of_length_le (by simpa using hfull)]
  decide

/-- An axis that moves over the wrap of the encoder, at 1000 counts a cycle. -/
theorem rest_verdict_wraps : ¬ ∀ (window : Nat) (tolerance : Int32) (samples : List Int32),
    3 ≤ window → 0 ≤ tolerance.toInt →
    ∀ before actual, before ++ [actual] <+: samples →
      (verdict window tolerance before actual = true ↔
        window ≤ before.length ∧
          windowSpread window (before ++ [actual]) ≤ tolerance.toInt) := by
  intro h
  have hverdict := h 3 182 [2147480648, 2147481648, 2147482648, -2147483648] (by decide) (by decide)
    [2147480648, 2147481648, 2147482648] (-2147483648) (List.prefix_refl _)
  revert hverdict
  decide

end ViamEthercat.Servo
