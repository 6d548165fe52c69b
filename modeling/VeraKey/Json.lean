/-
JSON values as a parser leaves them, read the way a script reads them: a property of
what has none is undefined, and so is a property of no object.
-/
import VeraKey.ByteCodec

open ByteCodec in
/-- A JSON value.  A text is its bytes; a number beyond the range of doubles has no
value. -/
inductive Json
  | null
  | bool (value : Bool)
  | num (value : Option ℚ)
  | str (text : Bytes)
  | arr (items : List Json)
  | obj (fields : List (Bytes × Json))

namespace Json

open ByteCodec

/-- A property, or undefined. -/
def get? (key : String) : Json → Option Json
  | obj fields => fields.lookup (ascii key)
  | _ => none

def text? : Json → Option Bytes
  | str text => some text
  | _ => none

def isTrue : Json → Bool
  | bool value => value
  | _ => false

def items? : Json → Option (List Json)
  | arr items => some items
  | _ => none

/-- `typeof value === "object" && value !== null`. -/
def isObject : Json → Bool
  | arr _ | obj _ => true
  | _ => false

/-- A number that `Number.isSafeInteger` accepts. -/
def safeInteger? : Json → Option ℤ
  | num (some value) =>
      if value.den = 1 ∧ |value.num| < 2 ^ 53 then some value.num else none
  | _ => none

end Json
