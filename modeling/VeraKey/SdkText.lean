/-
What the SDK does with texts: the hex and address predicates, letter case, UTF-8 and
base64url.  A text is the bytes of its characters, where half of a surrogate pair that
stands alone has three bytes of its own.
-/
import VeraKey.Base64Url
import VeraKey.Field
import VeraKey.SdkBytes

namespace VeraKey

open ByteCodec TextCodec

namespace Sdk

/-- `isHex` of a text: `0x` and hexadecimal digits of either case. -/
def isHex (text : Bytes) : Bool :=
  text.take 2 = ascii "0x" && (text.drop 2).all fun c => (hexValue c).isSome

/-- The bytes of a hex text; an odd digit stands alone at the front. -/
def hexToBytes (text : Bytes) : Option Bytes :=
  let digits := text.drop 2
  let digits := if digits.length % 2 = 1 then hexDigit 0 :: digits else digits
  (hexNat digits).map (beBytes (digits.length / 2))

/-- A hex text has bytes. -/
theorem isSome_hexToBytes {text : Bytes} (hhex : isHex text = true) :
    (hexToBytes text).isSome = true := by
  rw [isHex, Bool.and_eq_true, List.all_eq_true] at hhex
  rw [hexToBytes, Option.isSome_map]
  apply isSome_hexNat.mpr
  intro c hc
  split at hc
  · rcases List.mem_cons.mp hc with rfl | hc
    · decide
    · exact hhex.2 c hc
  · exact hhex.2 c hc

/-- `toLowerCase` of a text of ASCII characters. -/
def toLowerCase (text : Bytes) : Bytes := lower text

def upperByte (c : UInt8) : UInt8 := if 97 ≤ c ∧ c ≤ 122 then c - 32 else c

/-- `checksumAddress`: a letter is a capital where the hash has a digit above 7. -/
def checksumAddress (keccak : Bytes → B256) (text : Bytes) : Bytes :=
  let digits := (toLowerCase text).drop 2
  let hash := hexText (keccak digits).bytes
  ascii "0x" ++ List.zipWith
    (fun c h => if (hexValue h).any (8 ≤ ·) then upperByte c else c) digits hash

/-- `isAddress`, strict: forty digits in lowercase or in the checksum's case. -/
def isAddress (keccak : Bytes → B256) (text : Bytes) : Bool :=
  isHex text && text.length = 42 &&
    (toLowerCase text = text || checksumAddress keccak text = text)

/-- `isAddress` with `strict: false`. -/
def isAnyAddress (text : Bytes) : Bool := isHex text && text.length = 42

/-- The 20 bytes of an address text. -/
def addressOf (text : Bytes) : Option Address :=
  (hexToBytes text).bind (FixedBytes.ofSlice? 20)

/-- The bytes after `skip` more that belong to a character already written. -/
def utf8From : (skip : ℕ) → Bytes → Bytes
  | skip + 1, _ :: rest => utf8From skip rest
  | 0, a :: rest =>
      -- half a surrogate pair becomes the replacement character
      if a = 0xed ∧ rest.head?.any (0xa0 ≤ ·) then 0xef :: 0xbf :: 0xbd :: utf8From 2 rest
      else a :: utf8From 0 rest
  | _, [] => []

/-- `TextEncoder.encode`. -/
def utf8 (text : Bytes) : Bytes := utf8From 0 text

/-- `btoa` of bytes, with padding. -/
def btoa : Bytes → Bytes
  | a :: b :: c :: rest =>
      let n := Base64Url.pack a b c
      base64Digit (n / 2 ^ 18) :: base64Digit (n / 2 ^ 12) :: base64Digit (n / 2 ^ 6) ::
        base64Digit n :: btoa rest
  | [a, b] =>
      let n := Base64Url.pack a b 0
      [base64Digit (n / 2 ^ 18), base64Digit (n / 2 ^ 12), base64Digit (n / 2 ^ 6), 0x3d]
  | [a] =>
      let n := Base64Url.pack a 0 0
      [base64Digit (n / 2 ^ 18), base64Digit (n / 2 ^ 12), 0x3d, 0x3d]
  | [] => []
where
  base64Digit (n : ℕ) : UInt8 :=
    (ascii "ABCDEFGHIJKLMNOPQRSTUVWXYZabcdefghijklmnopqrstuvwxyz0123456789+/").getD (n % 64) 0

/-- `btoa`, then `+` and `/` replaced and the padding cut off. -/
def base64UrlEncode (bytes : Bytes) : Bytes :=
  let text := (btoa bytes).map fun c => if c = 0x2b then 0x2d else if c = 0x2f then 0x5f else c
  (text.reverse.dropWhile fun c => c = 0x3d).reverse

/-- A hex text of a 32-byte value. -/
def isBytes32 (text : Bytes) : Bool := isHex text && text.length = 66

/-- A hex text of a canonical field element. -/
def isField (text : Bytes) : Bool :=
  isHex text && text.length = 66 && (bigInt text).any fun value => value < bn254R

end Sdk

end VeraKey
