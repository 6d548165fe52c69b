/-
The message hash of the circuit: two blocks laid out by hand are the padded message of SHA-256.
-/
import VeraKey.Circuit
import VeraKey.Sha256

namespace VeraKey

open ByteCodec

namespace Circuit

def sha256Iv : List UInt32 :=
  [0x6a09e667, 0xbb67ae85, 0x3c6ef372, 0xa54ff53a, 0x510e527f, 0x9b05688c, 0x1f83d9ab,
    0x5be0cd19]

def beWord (b0 b1 b2 b3 : UInt8) : UInt32 :=
  b0.toUInt32 <<< 24 ||| b1.toUInt32 <<< 16 ||| b2.toUInt32 <<< 8 ||| b3.toUInt32

/-- The word `i` of the block of a message that starts at a place. -/
def wordFrom (msg : Bytes) (start i : ℕ) : UInt32 :=
  beWord (msg.getD (start + 4 * i) 0) (msg.getD (start + 4 * i + 1) 0)
    (msg.getD (start + 4 * i + 2) 0) (msg.getD (start + 4 * i + 3) 0)

/-- SHA-256 of the 69-byte WebAuthn signing input: two compression rounds. -/
def webauthnMessageHash (sha256Compression : List UInt32 → List UInt32 → List UInt32)
    (auth : FixedBytes 37) (clientDataHash : B256) : Bytes :=
  let msg := List.replicate 128 0
  let msg := (List.range 37).foldl (fun msg i => msg.set i (auth.bytes.getD i 0)) msg
  let msg := (List.range 32).foldl
    (fun msg i => msg.set (37 + i) (clientDataHash.bytes.getD i 0)) msg
  let msg := msg.set 69 0x80
  -- the message length in bits: 69 * 8 = 552 = 0x0228
  let msg := (msg.set 126 0x02).set 127 0x28
  let (block1, block2) := (List.range 16).foldl
    (fun (blocks : List UInt32 × List UInt32) i =>
      (blocks.1.set i (wordFrom msg 0 i), blocks.2.set i (wordFrom msg 64 i)))
    (List.replicate 16 0, List.replicate 16 0)
  let state := sha256Compression block2 (sha256Compression block1 sha256Iv)
  (List.range 8).foldl (fun out i =>
    let w := state.getD i 0
    (((out.set (4 * i) (w >>> 24).toUInt8).set (4 * i + 1) (w >>> 16).toUInt8).set
      (4 * i + 2) (w >>> 8).toUInt8).set (4 * i + 3) w.toUInt8) (List.replicate 32 0)

/-! ## Loops that fill an array -/

/-- A loop over consecutive places writes its values there. -/
theorem foldl_set {α : Type} {start count : ℕ} {out : List α} (value : ℕ → α)
    (hle : start + count ≤ out.length) :
    (List.range count).foldl (fun out i => out.set (start + i) (value i)) out =
      out.take start ++ ((List.range count).map value ++ out.drop (start + count)) := by
  induction count with
  | zero => simp
  | succ count ih =>
      have hmid : (out.take start ++ ((List.range count).map value)).length = start + count := by
        rw [List.length_append, List.length_take, List.length_map, List.length_range]
        omega
      have hdrop : out.drop (start + count) =
          out[start + count] :: out.drop (start + (count + 1)) :=
        List.drop_eq_getElem_cons (by omega)
      rw [List.range_succ, List.foldl_append, ih (by omega), List.foldl_cons, List.foldl_nil,
        ← List.append_assoc, List.set_append_right _ _ hmid.le, hmid, Nat.sub_self, hdrop,
        List.set_cons_zero, List.map_append, List.append_assoc, List.append_assoc]
      rfl

theorem map_getD_range (bytes : Bytes) :
    (List.range bytes.length).map (fun i => bytes.getD i 0) = bytes := by
  apply List.ext_getElem
  · rw [List.length_map, List.length_range]
  · intro i hi hi'
    rw [List.getElem_map, List.getElem_range, List.getD_eq_getElem _ _ hi']

/-- Two loops in one. -/
theorem foldl_pair {α : Type} (first second : List α → ℕ → List α) (indices : List ℕ)
    (left right : List α) :
    indices.foldl (fun (pair : List α × List α) i => (first pair.1 i, second pair.2 i))
      (left, right) = (indices.foldl first left, indices.foldl second right) := by
  induction indices generalizing left right with
  | nil => rfl
  | cons i indices ih => exact ih (first left i) (second right i)

/-! ## Words and bytes -/

theorem toNat_beWord (b0 b1 b2 b3 : UInt8) : (beWord b0 b1 b2 b3).toNat =
    ((b0.toNat * 256 + b1.toNat) * 256 + b2.toNat) * 256 + b3.toNat := by
  have h0 := b0.toNat_lt
  have h1 := b1.toNat_lt
  have h2 := b2.toNat_lt
  have h3 := b3.toNat_lt
  have hbytes : (beWord b0 b1 b2 b3).toNat =
      b0.toNat <<< 24 ||| b1.toNat <<< 16 ||| b2.toNat <<< 8 ||| b3.toNat := by
    have hfits : ∀ {n shift : ℕ}, n < 256 → shift ≤ 24 → n <<< shift % 2 ^ 32 = n <<< shift := by
      intro n shift hn hshift
      apply Nat.mod_eq_of_lt
      rw [Nat.shiftLeft_eq]
      calc n * 2 ^ shift < 256 * 2 ^ shift := Nat.mul_lt_mul_of_pos_right hn (by positivity)
        _ ≤ 256 * 2 ^ 24 := Nat.mul_le_mul_left _ (Nat.pow_le_pow_right (by decide) hshift)
        _ = 2 ^ 32 := by decide
    simp only [beWord, UInt32.toNat_or, UInt32.toNat_shiftLeft, UInt8.toNat_toUInt32]
    rw [← hfits h0 (le_refl 24), ← hfits h1 (by decide : 16 ≤ 24),
      ← hfits h2 (by decide : 8 ≤ 24)]
    rfl
  -- each byte fills the bits below the shifted ones
  have hstep (high shift : ℕ) {low : ℕ} (hlow : low < 2 ^ 8) :
      high <<< (8 + shift) ||| low <<< shift = (high * 256 + low) <<< shift := by
    rw [Nat.shiftLeft_add, ← Nat.shiftLeft_or_distrib, ← Nat.shiftLeft_add_eq_or_of_lt hlow,
      Nat.shiftLeft_eq high 8]
  calc (beWord b0 b1 b2 b3).toNat
      = b0.toNat <<< (8 + 16) ||| b1.toNat <<< 16 ||| b2.toNat <<< 8 ||| b3.toNat <<< 0 := hbytes
    _ = (b0.toNat * 256 + b1.toNat) <<< (8 + 8) ||| b2.toNat <<< 8 ||| b3.toNat <<< 0 := by
        rw [hstep _ 16 h1]
    _ = ((b0.toNat * 256 + b1.toNat) * 256 + b2.toNat) <<< (8 + 0) ||| b3.toNat <<< 0 := by
        rw [hstep _ 8 h2]
    _ = ((b0.toNat * 256 + b1.toNat) * 256 + b2.toNat) * 256 + b3.toNat := by
        rw [hstep _ 0 h3, Nat.shiftLeft_zero]

theorem beWord_eq (b0 b1 b2 b3 : UInt8) :
    beWord b0 b1 b2 b3 = .ofNat (beNat [b0, b1, b2, b3]) := by
  apply UInt32.toNat_inj.mp
  have hlt : beNat [b0, b1, b2, b3] < 2 ^ 32 :=
    (beNat_lt [b0, b1, b2, b3]).trans_eq (by norm_num)
  rw [toNat_beWord, UInt32.toNat_ofNat', Nat.mod_eq_of_lt hlt]
  simp [beNat]

theorem beBytes_word (w : UInt32) : beBytes 4 w.toNat =
    [(w >>> 24).toUInt8, (w >>> 16).toUInt8, (w >>> 8).toUInt8, w.toUInt8] := by
  simp [beBytes, ← UInt8.toNat_inj, UInt32.toNat_shiftRight, Nat.shiftRight_eq_div_pow,
    Nat.div_div_eq_div_mul]

/-- The word at a place, read byte by byte. -/
theorem beWord_eq_wordAt {data : Bytes} {i : ℕ} (hlt : 4 * i + 3 < data.length) :
    beWord (data.getD (4 * i) 0) (data.getD (4 * i + 1) 0) (data.getD (4 * i + 2) 0)
      (data.getD (4 * i + 3) 0) = Sha256.wordAt data i := by
  have hfour : (data.drop (4 * i)).take 4 =
      [data.getD (4 * i) 0, data.getD (4 * i + 1) 0, data.getD (4 * i + 2) 0,
        data.getD (4 * i + 3) 0] := by
    rw [List.drop_eq_getElem_cons (by omega), List.drop_eq_getElem_cons (by omega),
      List.drop_eq_getElem_cons (by omega), List.drop_eq_getElem_cons (by omega),
      List.getD_eq_getElem _ _ (by omega), List.getD_eq_getElem _ _ (by omega),
      List.getD_eq_getElem _ _ (by omega), List.getD_eq_getElem _ _ (by omega)]
    rfl
  rw [beWord_eq, Sha256.wordAt, hfour]

/-! ## The two blocks -/

/-- What the circuit writes into the 128 bytes is the padded message. -/
theorem message_eq_pad {auth cdh : Bytes} (hauth : auth.length = 37) (hcdh : cdh.length = 32) :
    ((((List.range 32).foldl (fun msg i => msg.set (37 + i) (cdh.getD i 0))
      ((List.range 37).foldl (fun msg i => msg.set i (auth.getD i 0))
        (List.replicate 128 0))).set 69 0x80).set 126 0x02).set 127 0x28 =
      Sha256.pad (auth ++ cdh) := by
  have hfirst : (List.range 37).foldl (fun msg i => msg.set i (auth.getD i 0))
      (List.replicate 128 0) = auth ++ List.replicate 91 0 := by
    have hset := @foldl_set UInt8 0 37 (List.replicate 128 0) (fun i => auth.getD i 0) (by simp)
    simp only [Nat.zero_add, List.take_zero, List.nil_append] at hset
    rw [hset, ← hauth, map_getD_range, List.drop_replicate, hauth]
  have hsecond : (List.range 32).foldl (fun msg i => msg.set (37 + i) (cdh.getD i 0))
      (auth ++ List.replicate 91 0) = auth ++ cdh ++ List.replicate 59 0 := by
    rw [foldl_set (fun i => cdh.getD i 0) (by simp [hauth]), List.take_left' hauth, ← hcdh,
      map_getD_range, hcdh, ← List.drop_drop, List.drop_left' hauth, List.drop_replicate,
      List.append_assoc]
  have hlength : (auth ++ cdh).length = 69 := by rw [List.length_append, hauth, hcdh]
  rw [hfirst, hsecond, Sha256.pad, hlength, List.set_append_right _ _ (by omega),
    List.set_append_right _ _ (by omega), List.set_append_right _ _ (by omega), hlength]
  congr 1

/-- The loop over both blocks collects their words. -/
theorem blockLoop_eq {message : Bytes} (hlength : message.length = 128) :
    (List.range 16).foldl (fun (blocks : List UInt32 × List UInt32) i =>
      (blocks.1.set i (wordFrom message 0 i), blocks.2.set i (wordFrom message 64 i)))
      (List.replicate 16 0, List.replicate 16 0) =
        ((List.range 16).map fun i => Sha256.wordAt message (16 * 0 + i),
          (List.range 16).map fun i => Sha256.wordAt message (16 * 1 + i)) := by
  have hloop {start block : ℕ} (hstart : start = 64 * block) (hlt : block < 2) :
      (List.range 16).foldl (fun words i => words.set i (wordFrom message start i))
        (List.replicate 16 0) =
          (List.range 16).map fun i => Sha256.wordAt message (16 * block + i) := by
    have hset := @foldl_set UInt32 0 16 (List.replicate 16 0) (wordFrom message start) (by simp)
    simp only [Nat.zero_add, List.take_zero, List.nil_append, List.drop_replicate, Nat.sub_self,
      List.replicate_zero, List.append_nil] at hset
    rw [hset]
    apply List.map_congr_left
    intro i hi
    have hi := List.mem_range.mp hi
    rw [← beWord_eq_wordAt (by omega), show 4 * (16 * block + i) = start + 4 * i by omega]
    rfl
  rw [foldl_pair (fun words i => words.set i (wordFrom message 0 i))
      (fun words i => words.set i (wordFrom message 64 i)),
    hloop (Nat.mul_zero 64).symm Nat.two_pos, hloop (Nat.mul_one 64).symm Nat.one_lt_two]

theorem blocks_of_length {message : Bytes} (hlength : message.length = 128) :
    Sha256.blocks message =
      [(List.range 16).map fun i => Sha256.wordAt message (16 * 0 + i),
        (List.range 16).map fun i => Sha256.wordAt message (16 * 1 + i)] := by
  rw [Sha256.blocks, hlength]
  rfl

/-- Four writes in a row. -/
theorem set_word (out rest : Bytes) (a b c d a' b' c' d' : UInt8) :
    ((((out ++ (a :: b :: c :: d :: rest)).set out.length a').set (out.length + 1) b').set
      (out.length + 2) c').set (out.length + 3) d' = out ++ ([a', b', c', d'] ++ rest) := by
  rw [List.set_append_right _ _ le_rfl, List.set_append_right _ _ (by omega),
    List.set_append_right _ _ (by omega), List.set_append_right _ _ (by omega), Nat.sub_self,
    Nat.add_sub_cancel_left, Nat.add_sub_cancel_left, Nat.add_sub_cancel_left]
  rfl

/-- The last loop writes the bytes of each word of the state in turn. -/
theorem output_eq {state : List UInt32} {count : ℕ} (hcount : count ≤ state.length) (spare : ℕ) :
    (List.range count).foldl (fun out i =>
      let w := state.getD i 0
      (((out.set (4 * i) (w >>> 24).toUInt8).set (4 * i + 1) (w >>> 16).toUInt8).set
        (4 * i + 2) (w >>> 8).toUInt8).set (4 * i + 3) w.toUInt8)
      (List.replicate (4 * count + spare) 0) =
        Sha256.digest (state.take count) ++ List.replicate spare 0 := by
  induction count generalizing spare with
  | zero =>
      rw [Nat.mul_zero, Nat.zero_add]
      rfl
  | succ count ih =>
      have hlength : (Sha256.digest (state.take count)).length = 4 * count := by
        rw [Sha256.length_digest, List.length_take, min_eq_left (Nat.le_of_succ_le hcount)]
      have hword : state.getD count 0 = state[count] := List.getD_eq_getElem _ _ (by omega)
      have hspare : 4 * (count + 1) + spare = 4 * count + (spare + 4) := by ring
      have hset := set_word (Sha256.digest (state.take count)) (List.replicate spare 0) 0 0 0 0
        (state[count] >>> 24).toUInt8 (state[count] >>> 16).toUInt8
        (state[count] >>> 8).toUInt8 state[count].toUInt8
      rw [hlength] at hset
      rw [List.range_succ, List.foldl_append, hspare, ih (by omega), List.foldl_cons,
        List.foldl_nil, hword]
      refine hset.trans ?_
      rw [List.take_succ_eq_append_getElem (by omega), Sha256.digest, Sha256.digest,
        List.flatMap_append, List.flatMap_singleton, beBytes_word, List.append_assoc]

theorem digestLoop_eq {state : List UInt32} (hlength : state.length = 8) :
    (List.range 8).foldl (fun out i =>
      let w := state.getD i 0
      (((out.set (4 * i) (w >>> 24).toUInt8).set (4 * i + 1) (w >>> 16).toUInt8).set
        (4 * i + 2) (w >>> 8).toUInt8).set (4 * i + 3) w.toUInt8) (List.replicate 32 0) =
      Sha256.digest state := by
  have houtput := output_eq hlength.ge 0
  rw [List.take_of_length_le hlength.le, List.replicate_zero, List.append_nil] at houtput
  exact houtput

/-- The layout by hand is that of the standard. -/
theorem webauthnMessageHash_eq {sha256Compression : List UInt32 → List UInt32 → List UInt32}
    (hcompression : ∀ block state, block.length = 16 → state.length = 8 →
      sha256Compression block state = Sha256.compression block state)
    (auth : FixedBytes 37) (cdh : B256) :
    webauthnMessageHash sha256Compression auth cdh = Sha256.hash (auth.bytes ++ cdh.bytes) := by
  have hpad : (Sha256.pad (auth.bytes ++ cdh.bytes)).length = 128 := by
    simp [Sha256.pad, Sha256.padding, auth.length_eq, cdh.length_eq]
  have hwords (value : ℕ → UInt32) : ((List.range 16).map value).length = 16 := by
    rw [List.length_map, List.length_range]
  have hstate {block state : List UInt32} (hlength : state.length = 8) :
      (Sha256.compression block state).length = 8 :=
    (Sha256.length_compression block state).trans hlength
  have hiv : sha256Iv = Sha256.initial := rfl
  have hinitial : Sha256.initial.length = 8 := rfl
  rw [webauthnMessageHash, Sha256.hash, blocks_of_length hpad, List.foldl_cons, List.foldl_cons,
    List.foldl_nil]
  dsimp only
  rw [message_eq_pad auth.length_eq cdh.length_eq, blockLoop_eq hpad]
  dsimp only
  rw [hiv, hcompression _ _ (hwords _) hinitial, hcompression _ _ (hwords _) (hstate hinitial)]
  exact digestLoop_eq (hstate (hstate hinitial))

/-! ## The digest of the SDK -/

/-- The digest a passkey signs. -/
def webauthnDigest (sha256 : Bytes → B256) (authenticatorData clientDataJson : Bytes) : B256 :=
  sha256 (authenticatorData ++ (sha256 clientDataJson).bytes)

/-- The circuit hashes what the standard hashes, and so what the SDK hashes. -/
theorem messageHash_is_sha256 {sha256Compression : List UInt32 → List UInt32 → List UInt32}
    (hcompression : ∀ block state, block.length = 16 → state.length = 8 →
      sha256Compression block state = Sha256.compression block state) :
    ∀ auth : FixedBytes 37,
      (∀ clientDataHash : B256, webauthnMessageHash sha256Compression auth clientDataHash =
        Sha256.hash (auth.bytes ++ clientDataHash.bytes)) ∧
      ∀ sha256 : Bytes → B256,
        (∀ message, message.length < 2 ^ 61 → (sha256 message).bytes = Sha256.hash message) →
        ∀ clientDataJson : Bytes,
          webauthnMessageHash sha256Compression auth (sha256 clientDataJson) =
            (webauthnDigest sha256 auth.bytes clientDataJson).bytes := by
  intro auth
  refine ⟨webauthnMessageHash_eq hcompression auth, ?_⟩
  intro sha256 hsha256 clientDataJson
  have hlength : (auth.bytes ++ (sha256 clientDataJson).bytes).length = 69 := by
    rw [List.length_append, auth.length_eq, (sha256 clientDataJson).length_eq]
  have hbound : (auth.bytes ++ (sha256 clientDataJson).bytes).length < 2 ^ 61 := by
    rw [hlength]
    decide
  rw [webauthnMessageHash_eq hcompression, webauthnDigest, hsha256 _ hbound]

def sampleDigest (message : Bytes) : B256 := ⟨Sha256.hash message, Sha256.length_hash message⟩

theorem messageHash_is_sha256_sample :
    webauthnMessageHash Sha256.compression ⟨List.replicate 37 5, rfl⟩
        (sampleDigest (ascii "\x7b\x7d")) =
      (webauthnDigest sampleDigest (List.replicate 37 5) (ascii "\x7b\x7d")).bytes :=
  (messageHash_is_sha256 (fun _ _ _ _ => rfl) ⟨List.replicate 37 5, rfl⟩).2 sampleDigest
    (fun _ _ => rfl) (ascii "\x7b\x7d")

end Circuit

end VeraKey
