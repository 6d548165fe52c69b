/-
The limbs of the WebAuthn circuit: its field, the public inputs of `main` in their
order, and the two conversions between 32 bytes and a pair of field elements.
-/
import VeraKey.Field

namespace VeraKey

open ByteCodec

namespace Circuit

/-- The field that circuits compute in. -/
abbrev Field := ZMod bn254R

instance : NeZero bn254R := ⟨by decide⟩

/-- The `pub` parameters of `main`. -/
structure PublicInputs (α : Type) where
  clientDataHashHi : α
  clientDataHashLo : α
  rpIdHashHi : α
  rpIdHashLo : α
  appId : α
  nullifier : α

/-- The vector a verifier takes, in the order of the parameters. -/
def PublicInputs.toList {α : Type} (inputs : PublicInputs α) : List α :=
  [inputs.clientDataHashHi, inputs.clientDataHashLo, inputs.rpIdHashHi, inputs.rpIdHashLo,
    inputs.appId, inputs.nullifier]

/-- `to_be_bytes` into `width` bytes; a larger value has no witness. -/
def toBeBytes (width : ℕ) (value : Field) : Option Bytes :=
  if value.val < 256 ^ width then some (beBytes width value.val) else none

theorem length_of_toBeBytes {width : ℕ} {value : Field} {bytes : Bytes}
    (hbytes : toBeBytes width value = some bytes) : bytes.length = width := by
  unfold toBeBytes at hbytes
  split at hbytes
  · rw [← Option.some.inj hbytes, length_beBytes]
  · contradiction

/-- The 32 bytes of two big-endian 16-byte limbs. -/
def bytes32FromLimbs (hi lo : Field) : Option Bytes := do
  let h ← toBeBytes 16 hi
  let l ← toBeBytes 16 lo
  return h ++ l

/-- One round for each of the 16 places. -/
def limbsFromBytes32 (b : B256) : Field × Field :=
  (List.range 16).foldl (fun limbs i =>
    (limbs.1 * 256 + (b.bytes.getD i 0).toNat,
      limbs.2 * 256 + (b.bytes.getD (16 + i) 0).toNat)) (0, 0)

theorem limbs_range {b : B256} {count : ℕ} (hcount : count ≤ 16) :
    (List.range count).foldl (fun (limbs : Field × Field) i =>
      (limbs.1 * 256 + (b.bytes.getD i 0).toNat,
        limbs.2 * 256 + (b.bytes.getD (16 + i) 0).toNat)) (0, 0) =
      ((beNat (b.bytes.take count) : Field), (beNat ((b.bytes.drop 16).take count) : Field)) := by
  have hlength := b.length_eq
  induction count with
  | zero => simp
  | succ count ih =>
      have hhi : count < b.bytes.length := by omega
      have hlo : 16 + count < b.bytes.length := by omega
      have hdrop : count < (b.bytes.drop 16).length := by
        rw [List.length_drop]
        omega
      rw [List.range_succ, List.foldl_append, ih (by omega), List.foldl_cons, List.foldl_nil,
        List.take_succ_eq_append_getElem hhi, List.take_succ_eq_append_getElem hdrop,
        beNat_concat, beNat_concat, List.getElem_drop, List.getD_eq_getElem _ _ hhi,
        List.getD_eq_getElem _ _ hlo]
      push_cast
      rfl

/-- The loop reads the two halves as numbers. -/
theorem limbsFromBytes32_eq (b : B256) :
    limbsFromBytes32 b =
      ((beNat (b.bytes.take 16) : Field), (beNat (b.bytes.drop 16) : Field)) := by
  have htake : (b.bytes.drop 16).take 16 = b.bytes.drop 16 :=
    List.take_of_length_le (by rw [List.length_drop, b.length_eq])
  rw [limbsFromBytes32, limbs_range le_rfl, htake]

theorem toBeBytes_natCast {bytes : Bytes} (hlength : bytes.length = 16) :
    toBeBytes 16 (beNat bytes : Field) = some bytes := by
  have hlt := beNat_lt bytes
  have hbytes := beBytes_beNat bytes
  rw [hlength] at hlt hbytes
  have hval : (beNat bytes : Field).val = beNat bytes :=
    ZMod.val_natCast_of_lt (hlt.trans (by decide))
  rw [toBeBytes, hval, if_pos hlt, hbytes]

theorem toBeBytes_eq_some {bytes : Bytes} {value : Field}
    (hbytes : toBeBytes 16 value = some bytes) : (beNat bytes : Field) = value := by
  unfold toBeBytes at hbytes
  split at hbytes
  · rename_i hlt
    rw [← Option.some.inj hbytes, beNat_beBytes hlt, ZMod.natCast_zmod_val]
  · contradiction

/-- The conversions are inverse to each other: the limbs of 32 bytes give the bytes
back, and only they do. -/
theorem bytes32FromLimbs_eq_some {b : B256} {hi lo : Field} :
    bytes32FromLimbs hi lo = some b.bytes ↔ limbsFromBytes32 b = (hi, lo) := by
  have htake : (b.bytes.take 16).length = 16 := by simp [b.length_eq]
  have hdrop : (b.bytes.drop 16).length = 16 := by simp [b.length_eq]
  rw [limbsFromBytes32_eq]
  constructor
  · intro hbytes
    unfold bytes32FromLimbs at hbytes
    simp only [Option.pure_def, Option.bind_eq_bind, Option.bind_eq_some_iff,
      Option.some.injEq] at hbytes
    obtain ⟨h, hhi, l, hlo, happend⟩ := hbytes
    have hlength := length_of_toBeBytes hhi
    rw [← happend, List.take_left' hlength, List.drop_left' hlength, toBeBytes_eq_some hhi,
      toBeBytes_eq_some hlo]
  · intro heq
    obtain ⟨rfl, rfl⟩ := Prod.mk.inj heq
    rw [bytes32FromLimbs, toBeBytes_natCast htake, toBeBytes_natCast hdrop]
    exact congrArg some (List.take_append_drop 16 b.bytes)

end Circuit

end VeraKey
