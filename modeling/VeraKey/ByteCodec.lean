/-
Byte strings, their big-endian reading as numbers, and byte strings of one
fixed length.  Nothing here belongs to a particular program.
-/
import Mathlib

namespace ByteCodec

/-- A byte string of any length. -/
abbrev Bytes := List UInt8

/-- The bytes of an ASCII text. -/
def ascii (text : String) : Bytes :=
  text.toList.map fun char => char.val.toUInt8

/-- The number a byte string spells, most significant byte first. -/
def beNat (bytes : Bytes) : Nat :=
  bytes.foldl (fun acc byte => acc * 256 + byte.toNat) 0

/-- The `width` low bytes of a number, most significant byte first. -/
def beBytes : (width : Nat) → Nat → Bytes
  | 0, _ => []
  | width + 1, value => beBytes width (value / 256) ++ [UInt8.ofNat value]

@[simp]
theorem length_beBytes (width value : Nat) :
    (beBytes width value).length = width := by
  induction width generalizing value with
  | zero => rfl
  | succ width ih => simp [beBytes, ih]

@[simp]
theorem beNat_nil : beNat [] = 0 := rfl

@[simp]
theorem beNat_concat (bytes : Bytes) (byte : UInt8) :
    beNat (bytes ++ [byte]) = beNat bytes * 256 + byte.toNat := by
  simp [beNat]

theorem beNat_lt (bytes : Bytes) : beNat bytes < 256 ^ bytes.length := by
  induction bytes using List.reverseRecOn with
  | nil => simp
  | append_singleton bytes byte ih =>
      have hbyte := byte.toNat_lt
      rw [beNat_concat, List.length_append, List.length_singleton, pow_succ]
      omega

theorem beNat_beBytes {width value : Nat} (hvalue : value < 256 ^ width) :
    beNat (beBytes width value) = value := by
  induction width generalizing value with
  | zero =>
      have hzero : value = 0 := by simpa using hvalue
      simp [beBytes, hzero]
  | succ width ih =>
      have hdiv : value / 256 < 256 ^ width := by
        rw [pow_succ] at hvalue
        omega
      rw [beBytes, beNat_concat, ih hdiv, UInt8.toNat_ofNat']
      omega

theorem beBytes_beNat (bytes : Bytes) :
    beBytes bytes.length (beNat bytes) = bytes := by
  induction bytes using List.reverseRecOn with
  | nil => rfl
  | append_singleton bytes byte ih =>
      have hbyte := byte.toNat_lt
      have hdiv : (beNat bytes * 256 + byte.toNat) / 256 = beNat bytes := by
        omega
      have hlast : UInt8.ofNat (beNat bytes * 256 + byte.toNat) = byte := by
        apply UInt8.toNat_inj.mp
        rw [UInt8.toNat_ofNat']
        omega
      rw [List.length_append, List.length_singleton, beNat_concat, beBytes,
        hdiv, ih, hlast]

@[simp]
theorem beNat_zeros_append (zeros : Nat) (bytes : Bytes) :
    beNat (List.replicate zeros 0 ++ bytes) = beNat bytes := by
  induction bytes using List.reverseRecOn with
  | nil =>
      induction zeros with
      | zero => rfl
      | succ zeros ih =>
          rw [List.append_nil] at ih ⊢
          rw [List.replicate_succ', beNat_concat, ih]
          rfl
  | append_singleton bytes byte ih =>
      rw [← List.append_assoc, beNat_concat, beNat_concat, ih]

theorem beNat_append (left right : Bytes) :
    beNat (left ++ right) = beNat left * 256 ^ right.length + beNat right := by
  induction right using List.reverseRecOn with
  | nil => simp
  | append_singleton right byte ih =>
      rw [← List.append_assoc, beNat_concat, beNat_concat, ih, List.length_append,
        List.length_singleton, pow_succ]
      ring

/-- Byte strings of one length are told apart by the numbers they spell. -/
theorem beNat_inj {left right : Bytes} (hlength : left.length = right.length)
    (heq : beNat left = beNat right) : left = right := by
  rw [← beBytes_beNat left, ← beBytes_beNat right, hlength, heq]

/-- Numbers that fit the width are told apart by their bytes. -/
theorem beBytes_inj {width left right : Nat} (hleft : left < 256 ^ width)
    (hright : right < 256 ^ width)
    (heq : beBytes width left = beBytes width right) : left = right := by
  rw [← beNat_beBytes hleft, ← beNat_beBytes hright, heq]

/-- A number that fits fewer bytes starts with zeros. -/
theorem beBytes_of_lt {width total value : Nat} (hwidth : width ≤ total)
    (hvalue : value < 256 ^ width) :
    beBytes total value = List.replicate (total - width) 0 ++ beBytes width value := by
  have hfits : value < 256 ^ total :=
    hvalue.trans_le (Nat.pow_le_pow_right (by decide) hwidth)
  apply beNat_inj
  · simp [hwidth]
  · rw [beNat_zeros_append, beNat_beBytes hvalue, beNat_beBytes hfits]

/-- A concatenation of words of one positive width determines the words. -/
theorem flatten_inj {width : Nat} (hwidth : 0 < width) {left right : List Bytes}
    (hleft : ∀ word ∈ left, word.length = width)
    (hright : ∀ word ∈ right, word.length = width)
    (heq : left.flatten = right.flatten) : left = right := by
  induction left generalizing right with
  | nil =>
      cases right with
      | nil => rfl
      | cons word right =>
          have hword := hright word List.mem_cons_self
          have hzero := congrArg List.length heq
          simp only [List.flatten_nil, List.length_nil, List.flatten_cons,
            List.length_append] at hzero
          omega
  | cons word left ih =>
      have hword := hleft word List.mem_cons_self
      cases right with
      | nil =>
          have hzero := congrArg List.length heq
          simp only [List.flatten_nil, List.length_nil, List.flatten_cons,
            List.length_append] at hzero
          omega
      | cons word' right =>
          have hword' := hright word' List.mem_cons_self
          obtain ⟨hhead, htail⟩ :=
            List.append_inj heq (hword.trans hword'.symm)
          rw [hhead, ih (fun w hw => hleft w (List.mem_cons_of_mem _ hw))
            (fun w hw => hright w (List.mem_cons_of_mem _ hw)) htail]

/-- A byte string of exactly `n` bytes. -/
@[ext]
structure FixedBytes (n : Nat) where
  bytes : Bytes
  length_eq : bytes.length = n
deriving DecidableEq

namespace FixedBytes

variable {n : Nat}

/-- All bytes zero. -/
instance : Zero (FixedBytes n) := ⟨⟨List.replicate n 0, List.length_replicate⟩⟩

instance : Inhabited (FixedBytes n) := ⟨0⟩

@[simp]
theorem length_bytes (value : FixedBytes n) : value.bytes.length = n :=
  value.length_eq

/-- The bytes of a slice of exactly `n` bytes. -/
def ofSlice? (n : Nat) (bytes : Bytes) : Option (FixedBytes n) :=
  if h : bytes.length = n then some ⟨bytes, h⟩ else none

@[simp]
theorem ofSlice?_bytes (value : FixedBytes n) : ofSlice? n value.bytes = some value := by
  simp [ofSlice?]

theorem ofSlice?_eq_some {bytes : Bytes} {value : FixedBytes n} :
    ofSlice? n bytes = some value ↔ value.bytes = bytes := by
  constructor
  · intro h
    unfold ofSlice? at h
    split at h
    · rw [← Option.some.inj h]
    · contradiction
  · rintro rfl
    exact ofSlice?_bytes value

/-- The big-endian bytes of a number; only the low `n` bytes are kept. -/
def ofNat (n value : Nat) : FixedBytes n :=
  ⟨beBytes n value, length_beBytes n value⟩

/-- The number the bytes spell. -/
def toNat (value : FixedBytes n) : Nat := beNat value.bytes

theorem toNat_lt (value : FixedBytes n) : value.toNat < 256 ^ n := by
  have h := beNat_lt value.bytes
  rwa [length_bytes] at h

@[simp]
theorem ofNat_toNat (value : FixedBytes n) : ofNat n value.toNat = value := by
  apply FixedBytes.ext
  have h := beBytes_beNat value.bytes
  rwa [length_bytes] at h

theorem toNat_injective : Function.Injective (toNat : FixedBytes n → Nat) := by
  intro left right heq
  rw [← ofNat_toNat left, ← ofNat_toNat right, heq]

@[simp]
theorem toNat_zero : (0 : FixedBytes n).toNat = 0 := by
  have h := beNat_zeros_append n []
  rwa [List.append_nil] at h

theorem toNat_ne_zero {value : FixedBytes n} : value.toNat ≠ 0 ↔ value ≠ 0 := by
  rw [← toNat_injective.ne_iff, toNat_zero]

instance : Finite (FixedBytes n) :=
  Finite.of_injective
    (fun value : FixedBytes n => (⟨value.toNat, value.toNat_lt⟩ : Fin (256 ^ n)))
    fun _ _ heq => toNat_injective (Fin.mk.inj heq)

end FixedBytes

end ByteCodec
