import ViamEthercat.Lib.Checked
import ViamEthercat.Servo.SdoCodec

/-!
# `ViamEthercat.Proofs.IntegerText`: the texts that `to_integer` reads

The grammar of an integer text is one optional minus sign, an optional prefix and digits
(`Denotes`). `to_integer` strips the sign and the prefix by hand and gives the rest to
`std::from_chars`, which takes a minus sign of its own. So it accepts one sign more
(`readInteger_eq_ok`), and it is exact on a text if and only if the text has no sign behind the
part that is stripped (`integer_text_exact`).
-/

set_option autoImplicit false

namespace ViamEthercat.Servo

/-- How a number is written: in decimal, or behind one of the two prefixes. -/
inductive Radix where
  | dec
  | hexLower
  | hexUpper
deriving DecidableEq, Repr

namespace Radix

def mark : Radix → Text
  | dec => []
  | hexLower => [ch '0', ch 'x']
  | hexUpper => [ch '0', ch 'X']

def base : Radix → Nat
  | dec => 10
  | _ => 16

/-- The prefix that `to_integer` strips. -/
def ofHex (hex : Bool) (s : Text) : Radix :=
  if hex then (if s[1]? = some (ch 'x') then hexLower else hexUpper) else dec

end Radix

/-- The grammar: the text denotes the number. -/
def Denotes (s : Text) (x : Int) : Prop :=
  ∃ neg r ds, s = sign neg ++ (Radix.mark r ++ ds) ∧ IsDigits r.base ds ∧
    x = signed neg (digitsValue r.base ds)

/-- The text is parsed by exactly its grammar: the result is the denoted number, for a magnitude
that fits, there is none otherwise, and the negation does not overflow. -/
structure ParsedExactly (s : Text) : Prop where
  result : ∀ v : Int64,
    toInteger { text := some s } = .ok v ↔ Denotes s v.toInt ∧ |v.toInt| ≤ 2 ^ 63 - 1
  no_overflow : ∀ neg v, readInteger s = .ok (neg, v) → neg = true → v ≠ Int64.minValue

/-- A minus sign between the part that is stripped and the digits, and a value that
`std::from_chars` reads. -/
def ExtraSign (s : Text) : Prop :=
  ∃ neg r ds, s = sign neg ++ (Radix.mark r ++ ch '-' :: ds) ∧ (neg = true ∨ r ≠ .dec) ∧
    IsDigits r.base ds ∧ digitsValue r.base ds ≤ 2 ^ 63

/-! ### What `to_integer` accepts -/

/-- The prefix is found if and only if the text has it: digits and signs are no prefix. -/
theorem isHexPrefix_mark {r : Radix} {neg : Bool} {ds : Text} (hds : IsDigits r.base ds) :
    isHexPrefix (r.mark ++ (sign neg ++ ds)) = decide (r ≠ .dec) := by
  cases r with
  | hexLower => rfl
  | hexUpper => rfl
  | dec =>
      cases neg with
      | true => cases ds <;> rfl
      | false =>
          match ds, hds with
          | [], h => exact absurd rfl h.1
          | [_], _ => rfl
          | z :: x :: ds, h =>
              have hx : isDigit 10 x = true := h.2 x (by simp)
              refine decide_eq_false ?_
              rintro ⟨-, hc⟩
              exact Bool.noConfusion ((not_isDigit_x hc).symm.trans hx)

theorem mark_ofHex {s : Text} :
    (Radix.ofHex (isHexPrefix s) s).mark ++ s.drop (if isHexPrefix s then 2 else 0) = s := by
  match s with
  | [] => rfl
  | [_] => rfl
  | z :: x :: s =>
      by_cases hpre : z = ch '0' ∧ (x = ch 'x' ∨ x = ch 'X')
      · rcases hpre with ⟨rfl, rfl | rfl⟩ <;> rfl
      · simp [isHexPrefix, hpre, Radix.ofHex, Radix.mark]

theorem base_ofHex {hex : Bool} {s : Text} : (Radix.ofHex hex s).base = if hex then 16 else 10 := by
  cases hex with
  | false => rfl
  | true =>
      rw [Radix.ofHex, if_pos rfl]
      split <;> rfl

/-- The sign that is stripped is the sign of the text. -/
theorem head_minus {neg inner : Bool} {r : Radix} {ds : Text} (hds : IsDigits r.base ds)
    (hinner : inner = true → neg = true ∨ r ≠ .dec) :
    decide ((sign neg ++ (r.mark ++ (sign inner ++ ds))).head? = some (ch '-')) = neg := by
  cases neg with
  | true => rfl
  | false =>
      cases r with
      | hexLower => rfl
      | hexUpper => rfl
      | dec =>
          cases inner with
          | true => exact absurd rfl ((hinner rfl).resolve_left (by simp))
          | false => exact decide_eq_false hds.head_ne_minus

/-- The texts that are read: a sign, a prefix, a second sign that only something stripped makes
room for, and digits whose signed value is an `std::int64_t`. -/
theorem readInteger_eq_ok {s : Text} {neg : Bool} {v : Int64} :
    readInteger s = .ok (neg, v) ↔
      ∃ r inner ds, s = sign neg ++ (Radix.mark r ++ (sign inner ++ ds)) ∧
        (inner = true → neg = true ∨ r ≠ .dec) ∧ IsDigits r.base ds ∧
        -2 ^ 63 ≤ signed inner (digitsValue r.base ds) ∧
        signed inner (digitsValue r.base ds) ≤ 2 ^ 63 - 1 ∧
        v = Int64.ofInt (signed inner (digitsValue r.base ds)) := by
  constructor
  · intro h
    unfold readInteger at h
    dsimp only at h
    generalize hneg : decide (s.head? = some (ch '-')) = neg' at h
    have hs : sign neg' ++ s.drop (if neg' then 1 else 0) = s := by
      have htail : sign neg' ++ (if neg' then s.tail else s) = s :=
        sign_append_tail fun hn => by simp_all
      cases neg' <;> simpa using htail
    generalize s.drop (if neg' then 1 else 0) = t at h hs
    have ht := mark_ofHex (s := t)
    have hbase := @base_ofHex (isHexPrefix t) t
    generalize Radix.ofHex (isHexPrefix t) t = r at ht hbase
    generalize t.drop (if isHexPrefix t then 2 else 0) = u at h ht
    rw [← hbase] at h
    split at h
    · rename_i x hx
      obtain ⟨inner, ds, -, rfl, hds, rfl, hlo, hhi⟩ := fromChars_whole.mp hx
      obtain ⟨rfl, rfl⟩ : neg' = neg ∧ Int64.ofInt _ = v := by simpa using h
      refine ⟨r, inner, ds, by rw [ht, hs], fun hinner => ?_, hds, hlo, hhi, rfl⟩
      -- With nothing stripped the second sign would be the first.
      by_contra hnot
      obtain ⟨hneg', hr⟩ := not_or.mp hnot
      obtain rfl := not_not.mp hr
      obtain rfl := Bool.not_eq_true _ ▸ hneg'
      subst hinner
      rw [← hs, ← ht] at hneg
      exact absurd hneg (by simp [sign, Radix.mark])
    · cases h
  · rintro ⟨r, inner, ds, rfl, hinner, hds, hlo, hhi, rfl⟩
    have hdrop : (sign neg ++ (r.mark ++ (sign inner ++ ds))).drop (if neg then 1 else 0) =
        r.mark ++ (sign inner ++ ds) := by cases neg <;> rfl
    have hrest : (r.mark ++ (sign inner ++ ds)).drop (if decide (r ≠ .dec) then 2 else 0) =
        sign inner ++ ds := by cases r <;> rfl
    have hbase : (if decide (r ≠ .dec) then 16 else 10) = r.base := by cases r <;> rfl
    have hread : fromChars (-2 ^ 63) (2 ^ 63 - 1) r.base (sign inner ++ ds) =
        .ok (signed inner (digitsValue r.base ds)) [] :=
      fromChars_whole.mpr ⟨inner, ds, fun _ => by decide, rfl, hds, rfl, hlo, hhi⟩
    unfold readInteger
    simp only [head_minus hds hinner, hdrop, isHexPrefix_mark hds, hrest, hbase, hread]

theorem toInteger_text {s : Text} {w : Int64} :
    toInteger { text := some s } = .ok w ↔
      ∃ neg v, readInteger s = .ok (neg, v) ∧ w = if neg then -v else v := by
  refine Lib.bind_eq_ok.trans ⟨?_, ?_⟩
  · rintro ⟨⟨neg, v⟩, hread, hw⟩
    exact ⟨neg, v, hread, (Except.ok.inj hw).symm⟩
  · rintro ⟨neg, v, hread, rfl⟩
    exact ⟨(neg, v), hread, rfl⟩

/-! ### The grammar -/

theorem not_mem_digits {base : Nat} {ds : Text} (h : IsDigits base ds) : ch '-' ∉ ds :=
  fun hmem => Bool.noConfusion (not_isDigit_minus.symm.trans (h.2 _ hmem))

/-- A text of the grammar has a minus sign at its head only. -/
theorem Denotes.not_mem_tail {s : Text} {x : Int} (h : Denotes s x) : ch '-' ∉ s.tail := by
  obtain ⟨neg, r, ds, rfl, hds, -⟩ := h
  have hds' : ch '-' ∉ ds := not_mem_digits hds
  have hmark : ch '-' ∉ r.mark := by cases r <;> decide
  have hrest : ch '-' ∉ r.mark ++ ds := fun hmem => (List.mem_append.mp hmem).elim hmark hds'
  cases neg with
  | true => exact hrest
  | false => exact fun hmem => hrest (List.mem_of_mem_tail hmem)

theorem ExtraSign.mem_tail {s : Text} (h : ExtraSign s) : ch '-' ∈ s.tail := by
  obtain ⟨neg, r, ds, rfl, hstrip, -⟩ := h
  cases neg with
  | true => simp [sign]
  | false =>
      cases r with
      | dec => exact absurd rfl (hstrip.resolve_left (by simp))
      | hexLower => simp [sign, Radix.mark]
      | hexUpper => simp [sign, Radix.mark]

/-- A number that fits, and its negation. -/
theorem toInt_signed {neg : Bool} {n : Nat} (hn : n ≤ 2 ^ 63 - 1) :
    (if neg then -Int64.ofInt n else Int64.ofInt n).toInt = signed neg n := by
  cases neg with
  | false => exact Int64.toInt_ofInt_of_le (by omega) (by omega)
  | true =>
      rw [if_pos rfl, Int64.neg_ofInt]
      exact Int64.toInt_ofInt_of_le (by omega) (by omega)

theorem abs_signed (neg : Bool) (n : Nat) : |signed neg n| = n := by
  cases neg <;> simp [signed]

/-- Without a second sign, a text is read if and only if it is in the grammar and its magnitude
fits. -/
theorem readInteger_iff_denotes {s : Text} (hs : ¬ExtraSign s) {neg : Bool} {v : Int64} :
    readInteger s = .ok (neg, v) ↔
      ∃ r ds, s = sign neg ++ (Radix.mark r ++ ds) ∧ IsDigits r.base ds ∧
        digitsValue r.base ds ≤ 2 ^ 63 - 1 ∧ v = Int64.ofInt (digitsValue r.base ds) := by
  rw [readInteger_eq_ok]
  constructor
  · rintro ⟨r, inner, ds, rfl, hstrip, hds, hlo, hhi, rfl⟩
    cases inner with
    | true =>
        have hlo : (-2 ^ 63 : Int) ≤ -(digitsValue r.base ds : Int) := hlo
        exact absurd ⟨neg, r, ds, rfl, hstrip rfl, hds, by omega⟩ hs
    | false =>
        have hhi : (digitsValue r.base ds : Int) ≤ 2 ^ 63 - 1 := hhi
        exact ⟨r, ds, rfl, hds, by omega, rfl⟩
  · rintro ⟨r, ds, rfl, hds, hn, rfl⟩
    refine ⟨r, false, ds, rfl, fun h => absurd h (by simp), hds, ?_, ?_, rfl⟩
    · show (-2 ^ 63 : Int) ≤ (digitsValue r.base ds : Int)
      omega
    · show (digitsValue r.base ds : Int) ≤ 2 ^ 63 - 1
      omega

/-- `to_integer` parses a text by exactly its grammar if and only if the text has no minus sign
behind the part that is stripped. -/
theorem integer_text_exact (s : Text) : ParsedExactly s ↔ ¬ExtraSign s := by
  constructor
  · intro h hs
    have hnot := hs.mem_tail
    obtain ⟨neg, r, ds, rfl, hstrip, hds, hn⟩ := hs
    have hread := readInteger_eq_ok.mpr ⟨r, true, ds, rfl, fun _ => hstrip, hds,
      show (-2 ^ 63 : Int) ≤ -(digitsValue r.base ds : Int) by omega,
      show -(digitsValue r.base ds : Int) ≤ 2 ^ 63 - 1 by omega, rfl⟩
    have hok := toInteger_text.mpr ⟨_, _, hread, rfl⟩
    exact ((h.result _).mp hok).1.not_mem_tail hnot
  · intro hs
    constructor
    · intro w
      rw [toInteger_text]
      constructor
      · rintro ⟨neg, v, hread, rfl⟩
        obtain ⟨r, ds, rfl, hds, hn, rfl⟩ := (readInteger_iff_denotes hs).mp hread
        rw [toInt_signed hn, abs_signed]
        exact ⟨⟨neg, r, ds, rfl, hds, rfl⟩, by omega⟩
      · rintro ⟨⟨neg, r, ds, rfl, hds, hx⟩, habs⟩
        rw [hx, abs_signed] at habs
        have hn : digitsValue r.base ds ≤ 2 ^ 63 - 1 := by omega
        refine ⟨neg, _, (readInteger_iff_denotes hs).mpr ⟨r, ds, rfl, hds, hn, rfl⟩, ?_⟩
        exact Int64.toInt_inj.mp (hx.trans (toInt_signed hn).symm)
    · rintro neg v hread - rfl
      obtain ⟨r, ds, -, -, hn, hv⟩ := (readInteger_iff_denotes hs).mp hread
      have hmin := congrArg Int64.toInt hv
      rw [Int64.toInt_minValue, Int64.toInt_ofInt_of_le (by omega) (by omega)] at hmin
      omega

/-- Two minus signs are read as one number, that of the digits. -/
theorem integer_text_two_signs : ¬∀ s, ParsedExactly s := by
  intro h
  have hread : toInteger { text := some (ascii "--5") } = .ok 5 := by decide
  exact (((h (ascii "--5")).result 5).mp hread).1.not_mem_tail (by decide)

end ViamEthercat.Servo
