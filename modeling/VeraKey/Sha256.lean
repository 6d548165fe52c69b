/-
SHA-256 of a byte string: its padding, the blocks it is cut into, the compression of one block
into the state, and the bytes of the last state.
-/
import VeraKey.ByteCodec

namespace Sha256

open ByteCodec

/-! ## Padding -/

/-- A one bit, zeros up to eight bytes before the end of a block, and the length in bits. -/
def padding (length : ℕ) : Bytes :=
  0x80 :: (List.replicate ((119 - length % 64) % 64) 0 ++ beBytes 8 (8 * length))

def pad (message : Bytes) : Bytes := message ++ padding message.length

/-- The word at a place, most significant byte first. -/
def wordAt (data : Bytes) (i : ℕ) : UInt32 := .ofNat (beNat ((data.drop (4 * i)).take 4))

/-- The sixteen words of each block of 64 bytes. -/
def blocks (padded : Bytes) : List (List UInt32) :=
  (List.range (padded.length / 64)).map fun block =>
    (List.range 16).map fun i => wordAt padded (16 * block + i)

/-! ## Compression -/

def rotr (n : UInt32) (x : UInt32) : UInt32 := x >>> n ||| x <<< (32 - n)

def ch (x y z : UInt32) : UInt32 := x &&& y ^^^ ~~~x &&& z

def maj (x y z : UInt32) : UInt32 := x &&& y ^^^ x &&& z ^^^ y &&& z

def bigSigma0 (x : UInt32) : UInt32 := rotr 2 x ^^^ rotr 13 x ^^^ rotr 22 x

def bigSigma1 (x : UInt32) : UInt32 := rotr 6 x ^^^ rotr 11 x ^^^ rotr 25 x

def smallSigma0 (x : UInt32) : UInt32 := rotr 7 x ^^^ rotr 18 x ^^^ x >>> 3

def smallSigma1 (x : UInt32) : UInt32 := rotr 17 x ^^^ rotr 19 x ^^^ x >>> 10

/-- The first 32 bits of the fractional parts of the cube roots of the first 64 primes. -/
def constants : List UInt32 :=
  [0x428a2f98, 0x71374491, 0xb5c0fbcf, 0xe9b5dba5, 0x3956c25b, 0x59f111f1, 0x923f82a4,
    0xab1c5ed5, 0xd807aa98, 0x12835b01, 0x243185be, 0x550c7dc3, 0x72be5d74, 0x80deb1fe,
    0x9bdc06a7, 0xc19bf174, 0xe49b69c1, 0xefbe4786, 0x0fc19dc6, 0x240ca1cc, 0x2de92c6f,
    0x4a7484aa, 0x5cb0a9dc, 0x76f988da, 0x983e5152, 0xa831c66d, 0xb00327c8, 0xbf597fc7,
    0xc6e00bf3, 0xd5a79147, 0x06ca6351, 0x14292967, 0x27b70a85, 0x2e1b2138, 0x4d2c6dfc,
    0x53380d13, 0x650a7354, 0x766a0abb, 0x81c2c92e, 0x92722c85, 0xa2bfe8a1, 0xa81a664b,
    0xc24b8b70, 0xc76c51a3, 0xd192e819, 0xd6990624, 0xf40e3585, 0x106aa070, 0x19a4c116,
    0x1e376c08, 0x2748774c, 0x34b0bcb5, 0x391c0cb3, 0x4ed8aa4a, 0x5b9cca4f, 0x682e6ff3,
    0x748f82ee, 0x78a5636f, 0x84c87814, 0x8cc70208, 0x90befffa, 0xa4506ceb, 0xbef9a3f7,
    0xc67178f2]

/-- The first 32 bits of the fractional parts of the square roots of the first 8 primes. -/
def initial : List UInt32 :=
  [0x6a09e667, 0xbb67ae85, 0x3c6ef372, 0xa54ff53a, 0x510e527f, 0x9b05688c, 0x1f83d9ab,
    0x5be0cd19]

/-- The words of a block, and those that follow from them. -/
def schedule (block : List UInt32) : List UInt32 :=
  (List.range 48).foldl (fun words i =>
    words ++ [smallSigma1 (words.getD (i + 14) 0) + words.getD (i + 9) 0 +
      smallSigma0 (words.getD (i + 1) 0) + words.getD i 0]) block

/-- One round, with a word of the schedule and a constant. -/
def round (state : List UInt32) (word constant : UInt32) : List UInt32 :=
  match state with
  | [a, b, c, d, e, f, g, h] =>
      let t1 := h + bigSigma1 e + ch e f g + constant + word
      let t2 := bigSigma0 a + maj a b c
      [t1 + t2, a, b, c, d + t1, e, f, g]
  | _ => state

/-- The state after one more block. -/
def compression (block state : List UInt32) : List UInt32 :=
  let last := ((schedule block).zip constants).foldl (fun state step =>
    round state step.1 step.2) state
  List.zipWith (· + ·) state last

/-! ## The hash -/

def digest (state : List UInt32) : Bytes := state.flatMap fun word => beBytes 4 word.toNat

def hash (message : Bytes) : Bytes :=
  digest ((blocks (pad message)).foldl (fun state block => compression block state) initial)

example : hash (ascii "abc") =
    [0xba, 0x78, 0x16, 0xbf, 0x8f, 0x01, 0xcf, 0xea, 0x41, 0x41, 0x40, 0xde, 0x5d, 0xae, 0x22,
      0x23, 0xb0, 0x03, 0x61, 0xa3, 0x96, 0x17, 0x7a, 0x9c, 0xb4, 0x10, 0xff, 0x61, 0xf2, 0x00,
      0x15, 0xad] := by
  decide +kernel

theorem length_round (state : List UInt32) (word constant : UInt32) :
    (round state word constant).length = state.length := by
  unfold round
  split <;> rfl

theorem length_compression (block state : List UInt32) :
    (compression block state).length = state.length := by
  have hrounds : ∀ (steps : List (UInt32 × UInt32)) (state : List UInt32),
      (steps.foldl (fun state step => round state step.1 step.2) state).length =
        state.length := by
    intro steps
    induction steps with
    | nil =>
        intro state
        rfl
    | cons step steps ih =>
        intro state
        rw [List.foldl_cons, ih, length_round]
  rw [compression, List.length_zipWith, hrounds, min_self]

theorem length_digest (state : List UInt32) : (digest state).length = 4 * state.length := by
  simp [digest, List.length_flatMap, Nat.mul_comm]

theorem length_hash (message : Bytes) : (hash message).length = 32 := by
  have hblocks : ∀ (blocks : List (List UInt32)) (state : List UInt32),
      (blocks.foldl (fun state block => compression block state) state).length =
        state.length := by
    intro blocks
    induction blocks with
    | nil =>
        intro state
        rfl
    | cons block blocks ih =>
        intro state
        rw [List.foldl_cons, ih, length_compression]
  rw [hash, length_digest, hblocks]
  rfl

end Sha256
