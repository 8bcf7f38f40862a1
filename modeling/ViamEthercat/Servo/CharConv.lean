import Mathlib.Algebra.Order.Ring.Int
import Mathlib.Data.List.TakeWhile

/-!
# `ViamEthercat.Servo.CharConv`: numbers in texts

The two parsers of the C++ standard library that the repository uses, by their documented
behaviour: `std::from_chars` for an integer type, and `std::stoul` with base 0.

A `std::string` is a list of bytes. Both parsers read the longest prefix that has the form of a
number, and say where it ends. They differ in what a number may start with: `from_chars` takes a
minus sign alone, and for a signed type only, while `stoul` skips white space, takes either sign
and finds the base from the prefix.
-/

set_option autoImplicit false

namespace ViamEthercat.Servo

/-- A `std::string` or a `std::string_view`. -/
abbrev Text := List UInt8

/-- The byte of an ASCII character. -/
def ch (c : Char) : UInt8 := UInt8.ofNat c.toNat

/-- A string literal. -/
def ascii (s : String) : Text := s.toList.map ch

/-! ### Digits -/

/-- The value of a digit in a base of at most 36. -/
def digitValue (base : Nat) (c : UInt8) : Option Nat :=
  let d :=
    if ch '0' ≤ c ∧ c ≤ ch '9' then c.toNat - (ch '0').toNat
    else if ch 'a' ≤ c ∧ c ≤ ch 'z' then c.toNat - (ch 'a').toNat + 10
    else if ch 'A' ≤ c ∧ c ≤ ch 'Z' then c.toNat - (ch 'A').toNat + 10
    else base
  if d < base then some d else none

def isDigit (base : Nat) (c : UInt8) : Bool := (digitValue base c).isSome

/-- The number of a string of digits. -/
def digitsValue (base : Nat) (ds : Text) : Nat :=
  ds.foldl (fun n c => n * base + (digitValue base c).getD 0) 0

/-- One or more digits. -/
def IsDigits (base : Nat) (ds : Text) : Prop := ds ≠ [] ∧ ∀ c ∈ ds, isDigit base c = true

instance (base : Nat) : DecidablePred (IsDigits base) :=
  fun _ => inferInstanceAs (Decidable (_ ∧ _))

/-- An optional minus sign. -/
def sign (neg : Bool) : Text := if neg then [ch '-'] else []

/-- The number behind it. -/
def signed (neg : Bool) (n : Nat) : Int := if neg then -n else n

/-! ### `std::from_chars` -/

/-- `std::from_chars_result`, with the rest of the text for `ptr`. -/
inductive FromChars where
  | invalidArgument
  | outOfRange
  | ok (value : Int) (rest : Text)
deriving DecidableEq, Repr

/-- `std::from_chars` for an integer type with values from `lo` to `hi`. -/
def fromChars (lo hi : Int) (base : Nat) (s : Text) : FromChars :=
  -- The minus sign is the only sign, and only a signed type has it.
  let neg := decide (lo < 0) && decide (s.head? = some (ch '-'))
  let s := if neg then s.tail else s
  let digits := s.takeWhile (isDigit base)
  if digits = [] then .invalidArgument
  else
    let v := signed neg (digitsValue base digits)
    if lo ≤ v ∧ v ≤ hi then .ok v (s.dropWhile (isDigit base)) else .outOfRange

/-! ### `std::stoul` -/

/-- `std::isspace` in the C locale. -/
def isSpace (c : UInt8) : Bool := c == ch ' ' || (ch '\t' ≤ c && c ≤ ch '\r')

/-- The base that a prefix names, and what follows it. A hexadecimal prefix counts only before a
digit. -/
def baseOf (s : Text) : Nat × Text :=
  match s with
  | z :: x :: c :: rest =>
      if z = ch '0' ∧ (x = ch 'x' ∨ x = ch 'X') ∧ isDigit 16 c = true then (16, c :: rest)
      else if z = ch '0' then (8, s) else (10, s)
  | z :: _ => if z = ch '0' then (8, s) else (10, s)
  | [] => (10, s)

/-- `std::stoul(s, nullptr, 0)`: the value and the rest of the text, or `none` when it throws. A
minus sign negates the value in `unsigned long`. -/
def stoul (s : Text) : Option (Nat × Text) :=
  let s := s.dropWhile isSpace
  let neg := decide (s.head? = some (ch '-'))
  let s := if neg || decide (s.head? = some (ch '+')) then s.tail else s
  let (base, s) := baseOf s
  let digits := s.takeWhile (isDigit base)
  let n := digitsValue base digits
  if digits = [] ∨ 2 ^ 64 ≤ n then none
  else some (if neg then (2 ^ 64 - n) % 2 ^ 64 else n, s.dropWhile (isDigit base))

/-! ### Digits and signs -/

theorem not_isDigit_minus {base : Nat} : isDigit base (ch '-') = false := by
  have h : digitValue base (ch '-') = if base < base then some base else none := rfl
  simp [isDigit, h]

theorem not_isDigit_x {c : UInt8} (hc : c = ch 'x' ∨ c = ch 'X') : isDigit 10 c = false := by
  rcases hc with rfl | rfl <;> rfl

/-- A run of digits starts with no minus sign. -/
theorem IsDigits.head_ne_minus {base : Nat} {ds : Text} (h : IsDigits base ds) :
    ds.head? ≠ some (ch '-') := by
  obtain ⟨hne, hall⟩ := h
  cases ds with
  | nil => exact absurd rfl hne
  | cons c ds =>
      intro hc
      obtain rfl : c = ch '-' := Option.some.inj hc
      exact Bool.noConfusion (not_isDigit_minus.symm.trans (hall _ List.mem_cons_self))

theorem takeWhile_of_isDigits {base : Nat} {ds : Text} (h : IsDigits base ds) :
    ds.takeWhile (isDigit base) = ds :=
  List.takeWhile_eq_self_iff.mpr h.2

theorem dropWhile_of_isDigits {base : Nat} {ds : Text} (h : IsDigits base ds) :
    ds.dropWhile (isDigit base) = [] :=
  List.dropWhile_eq_nil_iff.mpr h.2

/-- The minus sign that `from_chars` takes, and what follows it. -/
theorem sign_append_tail {s : Text} {neg : Bool} (h : neg = true → s.head? = some (ch '-')) :
    sign neg ++ (if neg then s.tail else s) = s := by
  cases neg with
  | false => rfl
  | true =>
      cases s with
      | nil => exact absurd (h rfl) (by simp)
      | cons c s =>
          obtain rfl : c = ch '-' := Option.some.inj (h rfl)
          rfl

/-- `from_chars` on an optional minus sign and digits, and nothing else. -/
theorem fromChars_digits {lo hi : Int} {base : Nat} {neg : Bool} {ds : Text}
    (hneg : neg = true → lo < 0) (hds : IsDigits base ds) :
    fromChars lo hi base (sign neg ++ ds) =
      if lo ≤ signed neg (digitsValue base ds) ∧ signed neg (digitsValue base ds) ≤ hi then
        .ok (signed neg (digitsValue base ds)) []
      else .outOfRange := by
  have hsign : (decide (lo < 0) && decide ((sign neg ++ ds).head? = some (ch '-'))) = neg := by
    cases neg with
    | true => simp [sign, hneg rfl]
    | false => simp [sign, hds.head_ne_minus]
  have hrest : (if neg then (sign neg ++ ds).tail else sign neg ++ ds) = ds := by
    cases neg <;> rfl
  unfold fromChars
  simp only [hsign, hrest, takeWhile_of_isDigits hds, dropWhile_of_isDigits hds, if_neg hds.1]

/-- `from_chars` reads a whole text if and only if it is an optional minus sign, for a signed
type, and one or more digits, and the number is in the range of the type. -/
theorem fromChars_whole {lo hi : Int} {base : Nat} {s : Text} {v : Int} :
    fromChars lo hi base s = .ok v [] ↔
      ∃ neg ds, (neg = true → lo < 0) ∧ s = sign neg ++ ds ∧ IsDigits base ds ∧
        v = signed neg (digitsValue base ds) ∧ lo ≤ v ∧ v ≤ hi := by
  constructor
  · intro h
    unfold fromChars at h
    dsimp only at h
    generalize hneg : (decide (lo < 0) && decide (s.head? = some (ch '-'))) = neg at h
    have hs : sign neg ++ (if neg then s.tail else s) = s :=
      sign_append_tail fun hn => by simp_all
    generalize (if neg then s.tail else s) = t at h hs
    split at h
    · cases h
    · rename_i hne
      split at h
      · rename_i hin
        obtain ⟨hv, hrest⟩ := FromChars.ok.inj h
        have hall := List.dropWhile_eq_nil_iff.mp hrest
        have htake := List.takeWhile_eq_self_iff.mpr hall
        rw [htake] at hne hv hin
        refine ⟨neg, t, fun hn => by simp_all, hs.symm, ⟨hne, hall⟩, hv.symm, ?_⟩
        exact hv ▸ hin
      · cases h
  · rintro ⟨neg, ds, hneg, rfl, hds, rfl, hin⟩
    rw [fromChars_digits hneg hds, if_pos hin]

end ViamEthercat.Servo
