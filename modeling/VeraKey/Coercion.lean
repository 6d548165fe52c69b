/-
How a script turns texts and numbers into integers: `trim`, and `BigInt` of a text or a
number.
-/
import VeraKey.Json
import VeraKey.SdkText

namespace VeraKey

open ByteCodec TextCodec

namespace Sdk

/-- The characters of white space and the line terminators. -/
def spaces : List Bytes :=
  [[0x09], [0x0a], [0x0b], [0x0c], [0x0d], [0x20], [0xc2, 0xa0], [0xe1, 0x9a, 0x80],
    [0xe2, 0x80, 0x80], [0xe2, 0x80, 0x81], [0xe2, 0x80, 0x82], [0xe2, 0x80, 0x83],
    [0xe2, 0x80, 0x84], [0xe2, 0x80, 0x85], [0xe2, 0x80, 0x86], [0xe2, 0x80, 0x87],
    [0xe2, 0x80, 0x88], [0xe2, 0x80, 0x89], [0xe2, 0x80, 0x8a], [0xe2, 0x80, 0xa8],
    [0xe2, 0x80, 0xa9], [0xe2, 0x80, 0xaf], [0xe2, 0x81, 0x9f], [0xe3, 0x80, 0x80],
    [0xef, 0xbb, 0xbf]]

/-- The text after `skip` more bytes and the characters of `dropped` that follow. -/
def trimFrom (dropped : List Bytes) : (skip : ℕ) → Bytes → Bytes
  | skip + 1, _ :: rest => trimFrom dropped skip rest
  | 0, c :: rest =>
      match dropped.find? fun space => space.isPrefixOf (c :: rest) with
      | some space => trimFrom dropped (space.length - 1) rest
      | none => c :: rest
  | _, [] => []

/-- `trim`. -/
def trim (text : Bytes) : Bytes :=
  (trimFrom (spaces.map List.reverse) 0 (trimFrom spaces 0 text).reverse).reverse

/-- The number that digits of a radix spell; nothing without a digit. -/
def digitsNumber (radix : ℕ) (digits : Bytes) : Option ℕ :=
  if digits = [] then none
  else digits.foldlM (fun n c => ((hexValue c).filter (· < radix)).map (n * radix + ·)) 0

/-- The radix after the 0 of a prefix. -/
def radix? (c : UInt8) : Option ℕ :=
  if c = 0x78 ∨ c = 0x58 then some 16
  else if c = 0x6f ∨ c = 0x4f then some 8
  else if c = 0x62 ∨ c = 0x42 then some 2
  else none

/-- `BigInt` of a text; nothing when it throws. -/
def stringToBigInt (text : Bytes) : Option ℤ :=
  match trim text with
  | [] => some 0
  | 0x2b :: digits => (digitsNumber 10 digits).map fun n : ℕ => (n : ℤ)
  | 0x2d :: digits => (digitsNumber 10 digits).map fun n : ℕ => -(n : ℤ)
  | 0x30 :: c :: digits =>
      match radix? c with
      | some radix => (digitsNumber radix digits).map fun n : ℕ => (n : ℤ)
      | none => (digitsNumber 10 (c :: digits)).map fun n : ℕ => (n : ℤ)
  | digits => (digitsNumber 10 digits).map fun n : ℕ => (n : ℤ)

/-- `BigInt` of a number, which throws unless it is an integer. -/
def numberToBigInt (value : Option ℚ) : Option ℤ :=
  (value.filter fun value => value.den = 1).map fun value : ℚ => value.num

end Sdk

end VeraKey
