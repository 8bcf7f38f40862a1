import ViamEthercat.Ethercat.PdoBuffer
import ViamEthercat.Ethercat.Util
import ViamEthercat.Servo.CharConv

/-!
# `ViamEthercat.Servo.SdoCodec`: typed SDO payloads

The model of `viam/lib/sdo_codec.cpp`, with `hex_bytes` of `ethercat/log.cpp`: the types by which
the SDO commands and the homing block name the content of an object, and for each its encoder and
its decoder.

The integer types share `encodeInt` and `decodeInt`, over `IntScalar`: a `PdoScalar` together with
`std::numeric_limits` and the conversions from and to an integer. The text of an integer is read by
`toInteger`, which strips a sign and a prefix and leaves the rest to `fromChars`.
-/

set_option autoImplicit false

namespace ViamEthercat.Servo

/-! ### Values -/

/-- `Input`: a JSON number, or a string. -/
structure Input where
  number : Option Double := none
  text : Option Text := none
deriving DecidableEq, Repr

/-- `Decoded`: an integer type gives a number, the others a text. -/
structure Decoded where
  number : Option Double := none
  text : Text := []
deriving DecidableEq, Repr

/-- A decoded value, given back to an encoder. -/
def Decoded.input (d : Decoded) : Input := ⟨d.number, some d.text⟩

/-- What the codec throws. -/
inductive CodecError where
  | notWhole
  | missing
  | notAnInteger (text : Text)
  | outOfRange (v lo hi : Int)
  | short (size expected : Nat)
  | notText
  | oddDigits
  | notHex (text : Text)
deriving DecidableEq, Repr

/-- The message. -/
def CodecError.what : CodecError → Text
  | .notWhole => ascii "integer value must be a whole number"
  | .missing => ascii "value is missing"
  | .notAnInteger text =>
      ascii "integer value '" ++ text ++ ascii "' is not a decimal or 0x-prefixed integer"
  | .outOfRange v lo hi => ascii s!"value {v} out of range [{lo}, {hi}]"
  | .short size expected => ascii s!"drive returned {size} byte(s), expected {expected}"
  | .notText => ascii "string/bytes value must be a string"
  | .oddDigits => ascii "bytes value must have an even number of hex digits"
  | .notHex text => ascii "bytes value '" ++ text ++ ascii "' is not a hex byte string"

/-! ### Integers -/

/-- `static_cast<std::int64_t>` of a `double`. Outside the range it is undefined; the value is the
one of x86-64. -/
def toInt64 (v : Double) : Int64 :=
  match v with
  | .fin q =>
      let x : Int := if 0 ≤ q then ⌊q⌋ else ⌈q⌉
      if -2 ^ 63 ≤ x ∧ x < 2 ^ 63 then Int64.ofInt x else Int64.minValue
  | _ => Int64.minValue

/-- `std::isfinite(v) && std::floor(v) == v`. -/
def isWhole : Double → Bool
  | .fin q => decide ((⌊q⌋ : ℚ) = q)
  | _ => false

/-- The prefix of a hexadecimal number. -/
def isHexPrefix : Text → Bool
  | z :: x :: _ => decide (z = ch '0' ∧ (x = ch 'x' ∨ x = ch 'X'))
  | _ => false

/-- The part of `to_integer` that reads a text: the sign it strips, and the value behind it. -/
def readInteger (text : Text) : Except CodecError (Bool × Int64) :=
  let neg := decide (text.head? = some (ch '-'))
  let s := text.drop (if neg then 1 else 0)
  let hex := isHexPrefix s
  let s := s.drop (if hex then 2 else 0)
  match fromChars (-2 ^ 63) (2 ^ 63 - 1) (if hex then 16 else 10) s with
  | .ok v [] => .ok (neg, Int64.ofInt v)
  | _ => .error (.notAnInteger text)

/-- `to_integer`. -/
def toInteger (value : Input) : Except CodecError Int64 :=
  match value.number, value.text with
  | some number, _ => if isWhole number then .ok (toInt64 number) else .error .notWhole
  | none, none => .error .missing
  | none, some text => do
      let (neg, v) ← readInteger text
      -- The negation overflows on the least value.
      return if neg then -v else v

/-- An integer type: `std::numeric_limits`, and the conversions from and to an integer. -/
class IntScalar (T : Type) extends PdoScalar T where
  lo : Int
  hi : Int
  toInt : T → Int
  ofInt : Int → T
  toInt_mem : ∀ v, lo ≤ toInt v ∧ toInt v ≤ hi
  toInt_ofInt : ∀ x, lo ≤ x → x ≤ hi → toInt (ofInt x) = x
  ofInt_toInt : ∀ v, ofInt (toInt v) = v

theorem toNat_ofInt8 {x : Int} (h0 : 0 ≤ x) (h1 : x < 256) :
    ((UInt8.ofInt x).toNat : Int) = x := by
  have hlt : (x % 2 ^ 8).toNat < UInt8.size := by
    show _ < 256
    omega
  rw [UInt8.ofInt, UInt8.toNat_ofNat_of_lt' hlt]
  omega

theorem toNat_ofInt16 {x : Int} (h0 : 0 ≤ x) (h1 : x < 65536) :
    ((UInt16.ofInt x).toNat : Int) = x := by
  have hlt : (x % 2 ^ 16).toNat < UInt16.size := by
    show _ < 65536
    omega
  rw [UInt16.ofInt, UInt16.toNat_ofNat_of_lt' hlt]
  omega

theorem toNat_ofInt32 {x : Int} (h0 : 0 ≤ x) (h1 : x < 4294967296) :
    ((UInt32.ofInt x).toNat : Int) = x := by
  have hlt : (x % 2 ^ 32).toNat < UInt32.size := by
    show _ < 4294967296
    omega
  rw [UInt32.ofInt, UInt32.toNat_ofNat_of_lt' hlt]
  omega

instance : IntScalar UInt8 where
  lo := 0
  hi := 255
  toInt v := v.toNat
  ofInt := UInt8.ofInt
  toInt_mem v := by have := v.toNat_lt; omega
  toInt_ofInt _ h0 h1 := toNat_ofInt8 h0 (by omega)
  ofInt_toInt v := by
    have := v.toNat_lt
    exact UInt8.toNat_inj.mp (Int.ofNat.inj (toNat_ofInt8 (by omega) (by omega)))

instance : IntScalar Int8 where
  lo := -128
  hi := 127
  toInt := Int8.toInt
  ofInt := Int8.ofInt
  toInt_mem v := by have := v.le_toInt; have := v.toInt_lt; omega
  toInt_ofInt _ h0 h1 := Int8.toInt_ofInt_of_le h0 (by omega)
  ofInt_toInt := Int8.ofInt_toInt

instance : IntScalar UInt16 where
  lo := 0
  hi := 65535
  toInt v := v.toNat
  ofInt := UInt16.ofInt
  toInt_mem v := by have := v.toNat_lt; omega
  toInt_ofInt _ h0 h1 := toNat_ofInt16 h0 (by omega)
  ofInt_toInt v := by
    have := v.toNat_lt
    exact UInt16.toNat_inj.mp (Int.ofNat.inj (toNat_ofInt16 (by omega) (by omega)))

instance : IntScalar Int16 where
  lo := -32768
  hi := 32767
  toInt := Int16.toInt
  ofInt := Int16.ofInt
  toInt_mem v := by have := v.le_toInt; have := v.toInt_lt; omega
  toInt_ofInt _ h0 h1 := Int16.toInt_ofInt_of_le h0 (by omega)
  ofInt_toInt := Int16.ofInt_toInt

instance : IntScalar UInt32 where
  lo := 0
  hi := 4294967295
  toInt v := v.toNat
  ofInt := UInt32.ofInt
  toInt_mem v := by have := v.toNat_lt; omega
  toInt_ofInt _ h0 h1 := toNat_ofInt32 h0 (by omega)
  ofInt_toInt v := by
    have := v.toNat_lt
    exact UInt32.toNat_inj.mp (Int.ofNat.inj (toNat_ofInt32 (by omega) (by omega)))

instance : IntScalar Int32 where
  lo := -2147483648
  hi := 2147483647
  toInt := Int32.toInt
  ofInt := Int32.ofInt
  toInt_mem v := by have := v.le_toInt; have := v.toInt_lt; omega
  toInt_ofInt _ h0 h1 := Int32.toInt_ofInt_of_le h0 (by omega)
  ofInt_toInt := Int32.ofInt_toInt

section
variable (T : Type) [IntScalar T]

open PdoScalar IntScalar

/-- `encode_int`. -/
def encodeInt (value : Input) : Except CodecError (List UInt8) := do
  let v ← toInteger value
  if v.toInt < lo T ∨ hi T < v.toInt then .error (.outOfRange v.toInt (lo T) (hi T))
  else return storeLe (List.replicate (size T) 0) 0 (ofInt v.toInt : T)

/-- `decode_int`. -/
def decodeInt (bytes : List UInt8) : Except CodecError Decoded :=
  if bytes.length < size T then .error (.short bytes.length (size T))
  else return { number := some (.fin (toInt (loadLe T bytes 0))) }

end

/-! ### Strings and byte strings -/

/-- `text_of`. -/
def textOf (value : Input) : Except CodecError Text :=
  match value.text with
  | none => .error .notText
  | some text => .ok text

/-- `encode_string`. -/
def encodeString (value : Input) : Except CodecError (List UInt8) := textOf value

/-- `decode_string`: the text ends before the first NUL. -/
def decodeString (bytes : List UInt8) : Except CodecError Decoded :=
  return { text := bytes.takeWhile fun b => b ≠ 0 }

/-- The hex digits of a byte string. -/
def digitsOf (text : Text) : Text := text.filter fun c => c ≠ ch ' '

/-- The loop of `encode_bytes`, two digits a byte. -/
def hexPairs (text : Text) : Text → Except CodecError (List UInt8)
  | hi :: lo :: digits =>
      match fromChars 0 (2 ^ 32 - 1) 16 [hi, lo] with
      | .ok v [] => do
          let out ← hexPairs text digits
          return UInt8.ofInt v :: out
      | _ => .error (.notHex text)
  | _ => return []

/-- `encode_bytes`. -/
def encodeBytes (value : Input) : Except CodecError (List UInt8) := do
  let text ← textOf value
  let digits := digitsOf text
  if digits.length % 2 ≠ 0 then .error .oddDigits else hexPairs text digits

/-- `kDigits`. -/
def hexDigit (v : Nat) : UInt8 := (ascii "0123456789ABCDEF").getD v 0

/-- One byte of `hex_bytes`. -/
def pushHex (s : Text) (b : UInt8) : Text :=
  (if s ≠ [] then s ++ [ch ' '] else s) ++ [hexDigit (b.toNat / 16), hexDigit (b.toNat % 16)]

/-- `log::hex_bytes`. -/
def hexBytes (bytes : List UInt8) : Text := bytes.foldl pushHex []

/-- `decode_bytes`. -/
def decodeBytes (bytes : List UInt8) : Except CodecError Decoded :=
  return { text := hexBytes bytes }

/-! ### The types -/

/-- `TypeInfo`. The width 0 stands for a variable one. -/
structure TypeInfo where
  name : String
  width : Nat
  encode : Input → Except CodecError (List UInt8)
  decode : List UInt8 → Except CodecError Decoded

/-- `kTypes`. -/
def kTypes : List TypeInfo :=
  [⟨"u8", 1, encodeInt UInt8, decodeInt UInt8⟩,
    ⟨"i8", 1, encodeInt Int8, decodeInt Int8⟩,
    ⟨"u16", 2, encodeInt UInt16, decodeInt UInt16⟩,
    ⟨"i16", 2, encodeInt Int16, decodeInt Int16⟩,
    ⟨"u32", 4, encodeInt UInt32, decodeInt UInt32⟩,
    ⟨"i32", 4, encodeInt Int32, decodeInt Int32⟩,
    ⟨"string", 0, encodeString, decodeString⟩,
    ⟨"bytes", 0, encodeBytes, decodeBytes⟩]

/-- `find_type`. -/
def findType (name : String) : Option TypeInfo := kTypes.find? fun t => t.name == name

end ViamEthercat.Servo
