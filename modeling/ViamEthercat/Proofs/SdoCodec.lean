import ViamEthercat.Lib.Checked
import ViamEthercat.Servo.SdoCodec

/-!
# `ViamEthercat.Proofs.SdoCodec`: the round trips of the SDO codec

Each type of `kTypes` reads back what it writes and writes back what it reads. The six integer
types are one argument over `IntScalar` (`integerCodec`). The encoder and the decoder of a byte
string are written apart and agree on the digits (`digitsOf_hexBytes`): spaces are dropped by one
and put in by the other.
-/

set_option autoImplicit false

namespace ViamEthercat.Servo

open PdoScalar IntScalar

/-- An integer codec: it takes the whole numbers of its range, and both directions return what
they were given. -/
structure IntegerCodec (t : TypeInfo) (lo hi : Int) : Prop where
  accepts : ∀ x : Int, |x| < 2 ^ 63 →
    ((∃ b, t.encode { number := some (.fin x) } = .ok b) ↔ lo ≤ x ∧ x ≤ hi)
  decode_encode : ∀ x : Int, |x| < 2 ^ 63 → ∀ b, t.encode { number := some (.fin x) } = .ok b →
    t.decode b = .ok { number := some (.fin x) }
  encode_decode : ∀ b : List UInt8, b.length = t.width →
    ∃ d, t.decode b = .ok d ∧ t.encode d.input = .ok b

/-- The codec of byte strings: the text of any bytes encodes to them, and the encoder takes an even
number of hex digits, with spaces anywhere. -/
structure BytesCodec (t : TypeInfo) : Prop where
  accepts : ∀ s : Text, (∃ b, t.encode { text := some s } = .ok b) ↔
    (digitsOf s).length % 2 = 0 ∧ ∀ c ∈ digitsOf s, isDigit 16 c = true
  encode_decode : ∀ b : List UInt8, ∃ d, t.decode b = .ok d ∧ t.encode d.input = .ok b

/-- The codec of strings: a text without NUL reads back. -/
def StringCodec (t : TypeInfo) : Prop :=
  ∀ s : Text, 0 ∉ s → ∃ b, t.encode { text := some s } = .ok b ∧ t.decode b = .ok { text := s }

/-! ### Integers -/

theorem toInteger_number {x : Int} (hlo : -2 ^ 63 ≤ x) (hhi : x < 2 ^ 63) (text : Option Text) :
    toInteger ⟨some (.fin x), text⟩ = .ok (Int64.ofInt x) := by
  have hwhole : isWhole (.fin (x : ℚ)) = true := by simp [isWhole]
  have hvalue : toInt64 (.fin (x : ℚ)) = Int64.ofInt x := by
    have htrunc : (if (0 : ℚ) ≤ x then ⌊(x : ℚ)⌋ else ⌈(x : ℚ)⌉) = x := by simp
    simp only [toInt64, htrunc, if_pos (And.intro hlo hhi)]
  simp [toInteger, hwhole, hvalue]

section
variable {T : Type} [IntScalar T]

theorem encodeInt_number {x : Int} (hlo : -2 ^ 63 ≤ x) (hhi : x < 2 ^ 63) (text : Option Text) :
    encodeInt T ⟨some (.fin x), text⟩ =
      if x < lo T ∨ hi T < x then .error (.outOfRange x (lo T) (hi T))
      else .ok (storeLe (List.replicate (size T) 0) 0 (ofInt x : T)) := by
  unfold encodeInt
  rw [toInteger_number hlo hhi]
  show (if (Int64.ofInt x).toInt < lo T ∨ hi T < (Int64.ofInt x).toInt then _ else _) = _
  rw [Int64.toInt_ofInt_of_le hlo hhi]
  rfl

/-- What an integer type takes of a number: the whole ones of its range. -/
theorem encodeInt_accepts {v : Double} (hlo : -2 ^ 63 < lo T) (hhi : hi T < 2 ^ 63)
    (text : Option Text) : (∃ b, encodeInt T ⟨some v, text⟩ = .ok b) ↔
      ∃ x : Int, v = .fin x ∧ lo T ≤ x ∧ x ≤ hi T := by
  cases hwhole : isWhole v with
  | false =>
      have hthrows : encodeInt T ⟨some v, text⟩ = .error .notWhole := by
        simp [encodeInt, toInteger, hwhole, bind, Except.bind]
      rw [hthrows]
      constructor
      · rintro ⟨b, hb⟩
        cases hb
      · rintro ⟨x, rfl, -⟩
        simp [isWhole] at hwhole
  | true =>
      obtain ⟨x, rfl⟩ : ∃ x : Int, v = .fin x := by
        cases v with
        | fin q => exact ⟨⌊q⌋, congrArg Double.fin (of_decide_eq_true hwhole).symm⟩
        | _ => cases hwhole
      by_cases hx : -2 ^ 63 ≤ x ∧ x < 2 ^ 63
      · rw [encodeInt_number hx.1 hx.2]
        split
        · rename_i hout
          refine ⟨fun h => absurd h.choose_spec (by simp), ?_⟩
          rintro ⟨y, hxy, hy⟩
          obtain rfl : x = y := by simpa using hxy
          omega
        · rename_i hin
          exact ⟨fun _ => ⟨x, rfl, by omega, by omega⟩, fun _ => ⟨_, rfl⟩⟩
      · -- Outside of `std::int64_t` the cast gives the least value, which no type takes.
        have hcast : toInt64 (.fin (x : ℚ)) = Int64.minValue := by
          have htrunc : (if (0 : ℚ) ≤ x then ⌊(x : ℚ)⌋ else ⌈(x : ℚ)⌉) = x := by simp
          simp only [toInt64, htrunc, if_neg hx]
        have hthrows : encodeInt T ⟨some (.fin x), text⟩ =
            .error (.outOfRange Int64.minValue.toInt (lo T) (hi T)) := by
          have hvalue : toInteger ⟨some (.fin x), text⟩ = .ok Int64.minValue := by
            simp [toInteger, hwhole, hcast]
          have hlow : Int64.minValue.toInt < lo T := by
            rw [Int64.toInt_minValue]
            exact hlo
          unfold encodeInt
          rw [hvalue]
          exact if_pos (.inl hlow)
        rw [hthrows]
        constructor
        · rintro ⟨b, hb⟩
          cases hb
        · rintro ⟨y, hxy, hy⟩
          obtain rfl : x = y := by simpa using hxy
          omega

theorem decodeInt_eq {b : List UInt8} (hb : size T ≤ b.length) :
    decodeInt T b = .ok { number := some (.fin (toInt (loadLe T b 0))) } := by
  rw [decodeInt, if_neg (by omega)]
  rfl

/-- A codec of a type that is narrower than `std::int64_t` has all the laws. -/
theorem integerCodec (name : String) (hlo : -2 ^ 63 ≤ lo T) (hhi : hi T < 2 ^ 63) :
    IntegerCodec ⟨name, size T, encodeInt T, decodeInt T⟩ (lo T) (hi T) where
  accepts x hx := by
    obtain ⟨h0, h1⟩ := abs_lt.mp hx
    show (∃ b, encodeInt T _ = .ok b) ↔ _
    rw [encodeInt_number (by omega) h1]
    split
    · rename_i hout
      exact ⟨fun h => absurd h.choose_spec (by simp), fun hin => by omega⟩
    · rename_i hin
      exact ⟨fun _ => by omega, fun _ => ⟨_, rfl⟩⟩
  decode_encode x hx b hb := by
    obtain ⟨h0, h1⟩ := abs_lt.mp hx
    change encodeInt T _ = .ok b at hb
    show decodeInt T b = _
    rw [encodeInt_number (by omega) h1] at hb
    split at hb
    · cases hb
    · rename_i hin
      obtain rfl := Except.ok.inj hb
      rw [decodeInt_eq (by simp), loadLe_storeLe _ (by simp),
        toInt_ofInt x (by omega) (by omega)]
  encode_decode b hb := by
    change b.length = size T at hb
    obtain ⟨h0, h1⟩ := toInt_mem (loadLe T b 0)
    refine ⟨_, decodeInt_eq hb.ge, ?_⟩
    show encodeInt T ⟨some (.fin (toInt (loadLe T b 0) : ℚ)), some []⟩ = .ok b
    rw [encodeInt_number (by omega) (by omega), if_neg (by omega), ofInt_toInt]
    -- The store covers the vector, so the zeros in it do not matter.
    rw [storeLe_covers _ List.length_replicate hb, storeLe_loadLe (by omega)]

end

/-! ### Byte strings -/

theorem hexDigit_spec : ∀ v : Fin 16,
    hexDigit v ≠ ch ' ' ∧ digitValue 16 (hexDigit v) = some v.val := by decide

theorem digitValue_lt {base n : Nat} {c : UInt8} (h : digitValue base c = some n) : n < base := by
  obtain ⟨hlt, hd⟩ := Option.ite_none_right_eq_some.mp h
  exact Option.some.inj hd ▸ hlt

/-- `from_chars` reads a pair whole if and only if both are digits. -/
theorem fromChars_pair {a b : UInt8} {v : Int} :
    fromChars 0 (2 ^ 32 - 1) 16 [a, b] = .ok v [] ↔
      ∃ m n, digitValue 16 a = some m ∧ digitValue 16 b = some n ∧ v = 16 * m + n := by
  rw [fromChars_whole]
  constructor
  · rintro ⟨neg, ds, hneg, hs, hds, rfl, -⟩
    obtain rfl : neg = false := by
      cases neg with
      | false => rfl
      | true => exact absurd (hneg rfl) (by decide)
    obtain rfl : [a, b] = ds := hs
    obtain ⟨m, hm⟩ := Option.isSome_iff_exists.mp (hds.2 a (by simp))
    obtain ⟨n, hn⟩ := Option.isSome_iff_exists.mp (hds.2 b (by simp))
    refine ⟨m, n, hm, hn, ?_⟩
    simp only [signed, digitsValue, List.foldl_cons, List.foldl_nil, hm, hn, Option.getD_some]
    push_cast
    simp
    omega
  · rintro ⟨m, n, hm, hn, rfl⟩
    have hm' := digitValue_lt hm
    have hn' := digitValue_lt hn
    refine ⟨false, [a, b], fun h => absurd h (by simp), rfl, ⟨by simp, ?_⟩, ?_, by omega, by omega⟩
    · simp [isDigit, hm, hn]
    · simp only [signed, digitsValue, List.foldl_cons, List.foldl_nil, hm, hn, Option.getD_some]
      push_cast
      simp
      omega

/-- The digits of a byte, as `hex_bytes` writes them. -/
def hexPair (b : UInt8) : Text := [hexDigit (b.toNat / 16), hexDigit (b.toNat % 16)]

/-- Without its spaces the text of `hex_bytes` is the digits of the bytes in turn. -/
theorem digitsOf_hexBytes (bs : List UInt8) : digitsOf (hexBytes bs) = bs.flatMap hexPair := by
  have hpush : ∀ s b, digitsOf (pushHex s b) = digitsOf s ++ hexPair b := by
    intro s b
    have hlt := b.toNat_lt
    have hhi := (hexDigit_spec ⟨b.toNat / 16, by omega⟩).1
    have hlo := (hexDigit_spec ⟨b.toNat % 16, by omega⟩).1
    unfold pushHex digitsOf
    split <;> simp_all [hexPair]
  have hfold : ∀ s, digitsOf (bs.foldl pushHex s) = digitsOf s ++ bs.flatMap hexPair := by
    induction bs with
    | nil => simp
    | cons b bs ih =>
        intro s
        rw [List.foldl_cons, ih, hpush, List.flatMap_cons, List.append_assoc]
  exact hfold []

/-- The loop of `encode_bytes` undoes `hexPair`. -/
theorem hexPairs_flatMap (text : Text) (bs : List UInt8) :
    hexPairs text (bs.flatMap hexPair) = .ok bs := by
  induction bs with
  | nil => rfl
  | cons b bs ih =>
      have hlt := b.toNat_lt
      have hpair := fromChars_pair.mpr ⟨_, _, (hexDigit_spec ⟨b.toNat / 16, by omega⟩).2,
        (hexDigit_spec ⟨b.toNat % 16, by omega⟩).2, rfl⟩
      have hvalue : (16 * (b.toNat / 16 : Nat) + (b.toNat % 16 : Nat) : Int) = b.toNat := by omega
      dsimp only at hpair
      rw [hvalue] at hpair
      show hexPairs text (hexDigit (b.toNat / 16) :: hexDigit (b.toNat % 16) ::
        bs.flatMap hexPair) = _
      rw [hexPairs, hpair, ih]
      exact congrArg (fun x => Except.ok (x :: bs)) (ofInt_toInt (T := UInt8) b)

/-- The loop runs through if and only if every character is a digit. -/
theorem hexPairs_ok {text : Text} : ∀ ds : Text, ds.length % 2 = 0 →
    ((∃ bs, hexPairs text ds = .ok bs) ↔ ∀ c ∈ ds, isDigit 16 c = true)
  | [], _ => ⟨fun _ _ hc => absurd hc (by simp), fun _ => ⟨[], rfl⟩⟩
  | [_], h => absurd h (by simp)
  | a :: b :: ds, h => by
      have hlen : (ds.length + 2) % 2 = 0 := h
      have ih := @hexPairs_ok text ds (by omega)
      rw [hexPairs]
      constructor
      · rintro ⟨bs, hbs⟩
        split at hbs
        · rename_i v hv
          obtain ⟨m, n, hm, hn, -⟩ := fromChars_pair.mp hv
          obtain ⟨rest, hrest, -⟩ := Lib.bind_eq_ok.mp hbs
          have hds := ih.mp ⟨rest, hrest⟩
          simpa [isDigit, hm, hn] using hds
        · cases hbs
      · intro hall
        obtain ⟨m, hm⟩ := Option.isSome_iff_exists.mp (hall a (by simp))
        obtain ⟨n, hn⟩ := Option.isSome_iff_exists.mp (hall b (by simp))
        obtain ⟨rest, hrest⟩ := ih.mpr fun c hc => hall c (by simp [hc])
        rw [fromChars_pair.mpr ⟨m, n, hm, hn, rfl⟩, hrest]
        exact ⟨_, rfl⟩

theorem bytesCodec : BytesCodec ⟨"bytes", 0, encodeBytes, decodeBytes⟩ where
  accepts s := by
    show (∃ b, encodeBytes { text := some s } = .ok b) ↔ _
    have hencode : encodeBytes { text := some s } =
        if (digitsOf s).length % 2 ≠ 0 then .error .oddDigits else hexPairs s (digitsOf s) := rfl
    rw [hencode]
    split
    · rename_i hodd
      exact ⟨fun h => absurd h.choose_spec (by simp), fun h => absurd h.1 hodd⟩
    · rename_i heven
      rw [hexPairs_ok _ (not_not.mp heven)]
      exact ⟨fun h => ⟨not_not.mp heven, h⟩, fun h => h.2⟩
  encode_decode b := by
    refine ⟨_, rfl, ?_⟩
    show (if (digitsOf (hexBytes b)).length % 2 ≠ 0 then Except.error CodecError.oddDigits
      else hexPairs (hexBytes b) (digitsOf (hexBytes b))) = .ok b
    have heven : (b.flatMap hexPair).length % 2 = 0 := by
      simp [List.length_flatMap, hexPair]
    rw [digitsOf_hexBytes, if_neg (by omega), hexPairs_flatMap]

/-! ### Strings -/

theorem stringCodec : StringCodec ⟨"string", 0, encodeString, decodeString⟩ := by
  intro s hs
  refine ⟨s, rfl, ?_⟩
  have htake : s.takeWhile (fun b => b ≠ 0) = s := by
    refine List.takeWhile_eq_self_iff.mpr fun b hb => ?_
    exact decide_eq_true (ne_of_mem_of_not_mem hb hs)
  exact congrArg (fun text => Except.ok (Decoded.mk none text)) htake

/-! ### The types -/

/-- Every type of the codec round-trips over its whole format. -/
theorem codec_round_trip :
    (∃ t, findType "u8" = some t ∧ t.width = 1 ∧ IntegerCodec t 0 (2 ^ 8 - 1)) ∧
    (∃ t, findType "i8" = some t ∧ t.width = 1 ∧ IntegerCodec t (-2 ^ 7) (2 ^ 7 - 1)) ∧
    (∃ t, findType "u16" = some t ∧ t.width = 2 ∧ IntegerCodec t 0 (2 ^ 16 - 1)) ∧
    (∃ t, findType "i16" = some t ∧ t.width = 2 ∧ IntegerCodec t (-2 ^ 15) (2 ^ 15 - 1)) ∧
    (∃ t, findType "u32" = some t ∧ t.width = 4 ∧ IntegerCodec t 0 (2 ^ 32 - 1)) ∧
    (∃ t, findType "i32" = some t ∧ t.width = 4 ∧ IntegerCodec t (-2 ^ 31) (2 ^ 31 - 1)) ∧
    (∃ t, findType "bytes" = some t ∧ BytesCodec t) ∧
    (∃ t, findType "string" = some t ∧ StringCodec t) :=
  ⟨⟨_, rfl, rfl, integerCodec (T := UInt8) "u8" (by decide) (by decide)⟩,
    ⟨_, rfl, rfl, integerCodec (T := Int8) "i8" (by decide) (by decide)⟩,
    ⟨_, rfl, rfl, integerCodec (T := UInt16) "u16" (by decide) (by decide)⟩,
    ⟨_, rfl, rfl, integerCodec (T := Int16) "i16" (by decide) (by decide)⟩,
    ⟨_, rfl, rfl, integerCodec (T := UInt32) "u32" (by decide) (by decide)⟩,
    ⟨_, rfl, rfl, integerCodec (T := Int32) "i32" (by decide) (by decide)⟩,
    ⟨_, rfl, bytesCodec⟩, ⟨_, rfl, stringCodec⟩⟩

/-- The range of an integer type, by its name. -/
def integerRange : String → Option (Int × Int)
  | "u8" => some (0, 255)
  | "i8" => some (-128, 127)
  | "u16" => some (0, 65535)
  | "i16" => some (-32768, 32767)
  | "u32" => some (0, 4294967295)
  | "i32" => some (-2147483648, 2147483647)
  | _ => none

theorem findType_cases {name : String} {t : TypeInfo} (h : findType name = some t) :
    t.name = name ∧ t ∈ kTypes := by
  refine ⟨?_, List.mem_of_find?_eq_some h⟩
  have hname := List.find?_some (p := fun t : TypeInfo => t.name == name) h
  exact eq_of_beq hname

/-- A type encodes a number if and only if it is an integer type, and the number a whole one of
its range. -/
theorem encode_number_accepts {name : String} {t : TypeInfo} (h : findType name = some t)
    (v : Double) : (∃ b, t.encode { number := some v } = .ok b) ↔
      ∃ lo hi, integerRange name = some (lo, hi) ∧ ∃ x : Int, v = .fin x ∧ lo ≤ x ∧ x ≤ hi := by
  obtain ⟨rfl, hmem⟩ := findType_cases h
  have hinteger : ∀ {T : Type} [IntScalar T] {lo hi : Int}, -2 ^ 63 < lo → hi < 2 ^ 63 →
      lo = IntScalar.lo T → hi = IntScalar.hi T →
      ((∃ b, encodeInt T { number := some v } = .ok b) ↔
        ∃ lo' hi', some (lo, hi) = some (lo', hi') ∧
          ∃ x : Int, v = .fin x ∧ lo' ≤ x ∧ x ≤ hi') := by
    rintro T _ _ _ hlo hhi rfl rfl
    rw [encodeInt_accepts hlo hhi]
    simp
  have hnone : ¬∃ lo hi, (none : Option (Int × Int)) = some (lo, hi) ∧
      ∃ x : Int, v = .fin x ∧ lo ≤ x ∧ x ≤ hi := by simp
  simp only [kTypes, List.mem_cons, List.not_mem_nil, or_false] at hmem
  rcases hmem with rfl | rfl | rfl | rfl | rfl | rfl | rfl | rfl
  · exact hinteger (T := UInt8) (by decide) (by decide) rfl rfl
  · exact hinteger (T := Int8) (by decide) (by decide) rfl rfl
  · exact hinteger (T := UInt16) (by decide) (by decide) rfl rfl
  · exact hinteger (T := Int16) (by decide) (by decide) rfl rfl
  · exact hinteger (T := UInt32) (by decide) (by decide) rfl rfl
  · exact hinteger (T := Int32) (by decide) (by decide) rfl rfl
  -- A text is needed.
  · exact iff_of_false (fun h => absurd h.choose_spec nofun) hnone
  · exact iff_of_false (fun h => absurd h.choose_spec nofun) hnone

end ViamEthercat.Servo
