/-
The standard ABI encoding of two byte strings: their offsets, then each one's length and
bytes, in whole words.
-/
import VeraKey.ByteCodec

namespace Abi

open ByteCodec

/-- A byte string with zeros up to the end of a word. -/
def padded (data : Bytes) : Bytes :=
  data ++ List.replicate ((32 - data.length % 32) % 32) 0

def tail (data : Bytes) : Bytes := beBytes 32 data.length ++ padded data

/-- `abi.encode` of two `bytes`. -/
def encodePair (first second : Bytes) : Bytes :=
  beBytes 32 64 ++ (beBytes 32 (64 + (tail first).length) ++ (tail first ++ tail second))

/-- The number in the word at an offset. -/
def wordAt (data : Bytes) (offset : ℕ) : ℕ := beNat ((data.drop offset).take 32)

/-- The `bytes` at an offset.  Neither the offset nor the length is beyond 64 bits. -/
def decodeBytes (data : Bytes) (offset : ℕ) : Option Bytes :=
  if 0xffffffffffffffff < offset then none
  else if data.length ≤ offset + 31 then none
  else if 0xffffffffffffffff < wordAt data offset then none
  else if data.length < offset + 32 + wordAt data offset then none
  else some ((data.drop (offset + 32)).take (wordAt data offset))

/-- `abi.decode(data, (bytes, bytes))`, or nothing where it reverts. -/
def decodePair (data : Bytes) : Option (Bytes × Bytes) := do
  if data.length < 64 then none
  let first ← decodeBytes data (wordAt data 0)
  let second ← decodeBytes data (wordAt data 32)
  return (first, second)

variable {data first second : Bytes} {offset : ℕ}

theorem length_encodePair : (encodePair first second).length =
    64 + (tail first).length + (tail second).length := by
  simp only [encodePair, List.length_append, length_beBytes]
  omega

/-- The offsets of an encoded pair are where its strings stand. -/
theorem drop_encodePair : (encodePair first second).drop 64 = tail first ++ tail second ∧
    (encodePair first second).drop (64 + (tail first).length) = tail second := by
  have hfirst : (encodePair first second).drop 64 = tail first ++ tail second := by
    rw [encodePair, ← List.append_assoc, List.drop_left']
    rw [List.length_append, length_beBytes, length_beBytes]
  refine ⟨hfirst, ?_⟩
  rw [← List.drop_drop, hfirst, List.drop_left]

/-- In data of less than 64 bits' length, what is decoded is what lies inside it. -/
theorem decodeBytes_eq_some {field : Bytes} (hfits : data.length < 2 ^ 64) :
    decodeBytes data offset = some field ↔ offset + 32 + wordAt data offset ≤ data.length ∧
      (data.drop (offset + 32)).take (wordAt data offset) = field := by
  rw [decodeBytes]
  split
  · simp only [reduceCtorEq, false_iff, not_and]
    omega
  · split
    · simp only [reduceCtorEq, false_iff, not_and]
      omega
    · split
      · simp only [reduceCtorEq, false_iff, not_and]
        omega
      · split
        · simp only [reduceCtorEq, false_iff, not_and]
          omega
        · rw [Option.some.injEq]
          exact (and_iff_right (by omega)).symm

end Abi
