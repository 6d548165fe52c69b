/-
The memory of the Ethereum virtual machine and slices of call data, as far as a
contract's inline assembly uses them: whole words, single bytes, and a loop that
writes one byte a round.
-/
import VeraKey.ByteCodec

namespace Evm

open ByteCodec

abbrev Word := BitVec 256

/-- Every address holds a byte; what was never written may hold any. -/
abbrev Memory := ℕ → UInt8

/-- The word that 32 bytes spell. -/
def ofBytes (bytes : Bytes) : Word := BitVec.ofNat 256 (beNat bytes)

def toBytes (word : Word) : Bytes := beBytes 32 word.toNat

/-- The bytes of a memory range. -/
def readRange (m : Memory) (start count : ℕ) : Bytes :=
  (List.range count).map fun i => m (start + i)

def mload (m : Memory) (start : ℕ) : Word := ofBytes (readRange m start 32)

def mstore (m : Memory) (start : ℕ) (word : Word) : Memory := fun address =>
  if start ≤ address then (toBytes word).getD (address - start) (m address)
  else m address

def mstore8 (m : Memory) (start : ℕ) (word : Word) : Memory :=
  Function.update m start (UInt8.ofNat word.toNat)

/-- The `i`th byte of a word, the most significant one first. -/
def byte (i : ℕ) (word : Word) : Word := word >>> (248 - 8 * i) &&& 0xff

@[simp]
theorem length_toBytes (word : Word) : (toBytes word).length = 32 :=
  length_beBytes 32 word.toNat

@[simp]
theorem length_readRange (m : Memory) (start count : ℕ) :
    (readRange m start count).length = count := by
  simp [readRange]

theorem readRange_succ (m : Memory) (start count : ℕ) :
    readRange m start (count + 1) = m start :: readRange m (start + 1) count := by
  have hshift : ∀ i, (fun i => m (start + i)) (i + 1) = m (start + 1 + i) := fun i =>
    congrArg m (by omega)
  rw [readRange, List.range_succ_eq_map, List.map_cons, List.map_map]
  exact congrArg (m start :: ·) (List.map_congr_left fun i _ => hshift i)

/-- A range is its first part and the rest. -/
theorem readRange_add (m : Memory) (start first rest : ℕ) :
    readRange m start (first + rest) =
      readRange m start first ++ readRange m (start + first) rest := by
  rw [readRange, List.range_add, List.map_append, List.map_map]
  exact congrArg (readRange m start first ++ ·)
    (List.map_congr_left fun i _ => congrArg m (Nat.add_assoc start first i).symm)

@[simp]
theorem toBytes_ofBytes {bytes : Bytes} (hlength : bytes.length = 32) :
    toBytes (ofBytes bytes) = bytes := by
  have hlt : beNat bytes < 2 ^ 256 := by
    have h := beNat_lt bytes
    rwa [hlength] at h
  have hbytes := beBytes_beNat bytes
  rw [hlength] at hbytes
  rw [toBytes, ofBytes, BitVec.toNat_ofNat, Nat.mod_eq_of_lt hlt, hbytes]

theorem ofBytes_inj {left right : Bytes} (hleft : left.length = 32)
    (hright : right.length = 32) : ofBytes left = ofBytes right ↔ left = right := by
  refine ⟨fun heq => ?_, fun heq => heq ▸ rfl⟩
  rw [← toBytes_ofBytes hleft, ← toBytes_ofBytes hright, heq]

/-- The first byte of a loaded word is the byte at its address. -/
theorem toNat_byte_zero_mload (m : Memory) (start : ℕ) :
    (byte 0 (mload m start)).toNat = (m start).toNat := by
  have hread : readRange m start 32 = m start :: readRange m (start + 1) 31 :=
    readRange_succ m start 31
  have hrest := beNat_lt (readRange m (start + 1) 31)
  have hhead := (m start).toNat_lt
  have hsplit : beNat (readRange m start 32) =
      (m start).toNat * 2 ^ 248 + beNat (readRange m (start + 1) 31) := by
    rw [hread, ← List.singleton_append, beNat_append, length_readRange]
    simp [beNat]
  rw [length_readRange] at hrest
  have hmask : (0xff : Word).toNat = 2 ^ 8 - 1 := by simp
  rw [byte, BitVec.toNat_and, BitVec.toNat_ushiftRight, mload, ofBytes, BitVec.toNat_ofNat,
    hmask, Nat.and_two_pow_sub_one_eq_mod, Nat.shiftRight_eq_div_pow, hsplit]
  omega

/-! ## Writes -/

theorem mstore_of_lt {m : Memory} {start address : ℕ} (word : Word) (h : address < start) :
    mstore m start word address = m address :=
  if_neg (Nat.not_le_of_lt h)

/-- Inside the word that was stored, its bytes. -/
theorem mstore_add {m : Memory} {start i : ℕ} (word : Word) (h : i < 32) :
    mstore m start word (start + i) = (toBytes word).getD i 0 := by
  have hlength : i < (toBytes word).length := by rwa [length_toBytes]
  rw [mstore, if_pos (Nat.le_add_right start i), Nat.add_sub_cancel_left,
    List.getD_eq_getElem _ _ hlength, List.getD_eq_getElem _ _ hlength]

@[simp]
theorem mstore8_self (m : Memory) (start : ℕ) (word : Word) :
    mstore8 m start word start = UInt8.ofNat word.toNat :=
  Function.update_self _ _ _

theorem mstore8_of_ne {m : Memory} {start address : ℕ} (word : Word)
    (h : address ≠ start) : mstore8 m start word address = m address :=
  Function.update_of_ne h _ _

/-- Write one byte a round, from `start` on. -/
def fill (start : ℕ) (value : Memory → ℕ → Word) (count : ℕ) (m : Memory) : Memory :=
  (List.range count).foldl (fun m i => mstore8 m (start + i) (value m i)) m

theorem fill_succ (start : ℕ) (value : Memory → ℕ → Word) (count : ℕ) (m : Memory) :
    fill start value (count + 1) m =
      mstore8 (fill start value count m) (start + count)
        (value (fill start value count m) count) := by
  simp [fill, List.range_succ]

/-- A loop whose rounds read only memory it does not write fills its range and
changes nothing before it or from `bound` on. -/
theorem fill_spec {start bound : ℕ} {value : Memory → ℕ → Word} {m : Memory} {g : ℕ → UInt8}
    (count : ℕ) (hbound : start + count ≤ bound)
    (hvalue : ∀ m' i, i < count → (∀ a, a < start ∨ bound ≤ a → m' a = m a) →
      UInt8.ofNat (value m' i).toNat = g i) :
    (∀ i < count, fill start value count m (start + i) = g i) ∧
      ∀ a, a < start ∨ bound ≤ a → fill start value count m a = m a := by
  induction count with
  | zero => exact ⟨fun i hi => absurd hi i.not_lt_zero, fun a _ => rfl⟩
  | succ count ih =>
      obtain ⟨hfilled, houtside⟩ :=
        ih (by omega) fun m' i hi => hvalue m' i (Nat.lt_succ_of_lt hi)
      simp only [fill_succ]
      refine ⟨fun i hi => ?_, fun a ha => ?_⟩
      · rcases Nat.lt_succ_iff_lt_or_eq.mp hi with hlt | rfl
        · rw [mstore8_of_ne _ (by omega)]
          exact hfilled i hlt
        · rw [mstore8_self]
          exact hvalue _ i i.lt_succ_self houtside
      · rw [mstore8_of_ne _ (by omega)]
        exact houtside a ha

/-! ## Call data -/

/-- `data[start:stop]`, which reverts when it points outside. -/
def slice (data : Bytes) (start stop : ℕ) : Option Bytes :=
  if start ≤ stop ∧ stop ≤ data.length then some ((data.drop start).take (stop - start))
  else none

/-- `bytesN(data)`: the first `n` bytes, left-aligned in their word. -/
def bytesN (n : ℕ) (data : Bytes) : Word :=
  ofBytes ((data ++ List.replicate n 0).take n ++ List.replicate (32 - n) 0)

theorem slice_eq {data : Bytes} {start stop : ℕ} (hstart : start ≤ stop)
    (hstop : stop ≤ data.length) :
    slice data start stop = some ((data.drop start).take (stop - start)) :=
  if_pos ⟨hstart, hstop⟩

/-- A slice inside the data is read without reverting. -/
theorem slice_bind {α : Type} {data : Bytes} {start stop : ℕ} {f : Bytes → Option α}
    (hstart : start ≤ stop) (hstop : stop ≤ data.length) :
    (slice data start stop >>= f) = f ((data.drop start).take (stop - start)) := by
  rw [slice_eq hstart hstop]
  rfl

/-- So is a byte of it. -/
theorem getElem?_bind {α : Type} {data : Bytes} {i : ℕ} {f : UInt8 → Option α}
    (h : i < data.length) : (data[i]? >>= f) = f data[i] := by
  rw [List.getElem?_eq_getElem h]
  rfl

/-- What stands between two places of the data, read off its tails. -/
theorem take_drop_eq_iff {data part : Bytes} {start stop : ℕ} (hstart : start ≤ stop)
    (hpart : part.length = stop - start) :
    (data.drop start).take (stop - start) = part ↔
      data.drop start = part ++ data.drop stop := by
  have hdrop : (data.drop start).drop (stop - start) = data.drop stop := by
    rw [List.drop_drop, Nat.add_sub_cancel' hstart]
  constructor
  · intro htake
    rw [← htake, ← hdrop, List.take_append_drop]
  · intro happend
    rw [happend, List.take_left' hpart]

theorem bytesN_eq {n : ℕ} {data : Bytes} (hlength : data.length = n) :
    bytesN n data = ofBytes (data ++ List.replicate (32 - n) 0) := by
  rw [bytesN, List.take_left' hlength]

/-- Words of equally long byte strings are equal only if the strings are. -/
theorem bytesN_inj {n : ℕ} {left right : Bytes} (hn : n ≤ 32) (hleft : left.length = n)
    (hright : right.length = n) : bytesN n left = bytesN n right ↔ left = right := by
  have hlength : ∀ {data : Bytes}, data.length = n →
      (data ++ List.replicate (32 - n) 0).length = 32 := by
    intro data hdata
    rw [List.length_append, List.length_replicate, hdata]
    omega
  rw [bytesN_eq hleft, bytesN_eq hright, ofBytes_inj (hlength hleft) (hlength hright),
    List.append_left_inj]

theorem and_highMask (word : Word) (shift : ℕ) :
    word &&& (~~~0 : Word) <<< shift = (word >>> shift) <<< shift := by
  have hones : (~~~0 : Word) = BitVec.allOnes 256 := rfl
  rw [hones]
  apply BitVec.eq_of_getLsbD_eq
  intro i hi
  by_cases hshift : i < shift
  · simp only [BitVec.getLsbD_and, BitVec.getLsbD_shiftLeft, hshift, decide_true,
      Bool.not_true, Bool.and_false, Bool.false_and]
  · have hback : shift + (i - shift) = i := by omega
    have hlt : i - shift < 256 := by omega
    simp only [BitVec.getLsbD_and, BitVec.getLsbD_shiftLeft, BitVec.getLsbD_ushiftRight,
      BitVec.getLsbD_allOnes, hi, hshift, hback, hlt, decide_true, decide_false,
      Bool.not_false, Bool.and_true, Bool.true_and]

/-- A mask of the high bytes drops the low ones. -/
theorem ofBytes_and_mask (kept dropped : Bytes) (hlength : kept.length + dropped.length = 32) :
    ofBytes (kept ++ dropped) &&& (~~~0 : Word) <<< (8 * dropped.length) =
      ofBytes (kept ++ List.replicate dropped.length 0) := by
  have hwidth : (256 : ℕ) ^ dropped.length = 2 ^ (8 * dropped.length) := by
    rw [pow_mul]
    rfl
  have hdropped := beNat_lt dropped
  have hzeros : beNat (List.replicate dropped.length (0 : UInt8)) = 0 := by
    have h := beNat_zeros_append dropped.length []
    rwa [List.append_nil, beNat_nil] at h
  have hfits : ∀ rest : Bytes, rest.length = dropped.length →
      beNat (kept ++ rest) < 2 ^ 256 := by
    intro rest hrest
    have h := beNat_lt (kept ++ rest)
    rwa [List.length_append, hrest, hlength] at h
  have hhigh : (beNat kept * 256 ^ dropped.length + beNat dropped) /
      256 ^ dropped.length = beNat kept := by
    rw [Nat.add_comm, Nat.add_mul_div_right _ _ (Nat.pow_pos (by decide)),
      Nat.div_eq_of_lt hdropped, Nat.zero_add]
  have hwhole := hfits (List.replicate dropped.length 0) List.length_replicate
  rw [beNat_append, hzeros, List.length_replicate, Nat.add_zero] at hwhole
  apply BitVec.eq_of_toNat_eq
  rw [and_highMask, BitVec.toNat_shiftLeft, BitVec.toNat_ushiftRight, ofBytes,
    BitVec.toNat_ofNat, Nat.mod_eq_of_lt (hfits dropped rfl), ofBytes, BitVec.toNat_ofNat,
    Nat.mod_eq_of_lt (hfits _ List.length_replicate), Nat.shiftRight_eq_div_pow,
    Nat.shiftLeft_eq, ← hwidth, beNat_append, hhigh, Nat.mod_eq_of_lt hwhole, beNat_append,
    hzeros, List.length_replicate, Nat.add_zero]

end Evm
