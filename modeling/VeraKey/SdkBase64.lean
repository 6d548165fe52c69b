/-
The three base64url encoders agree with each other and with the standard's grouping, and the
SDK's decoder undoes its encoder on byte arrays of every length.
-/
import VeraKey.ClientDataAgree
import VeraKey.SdkText

namespace VeraKey

open ByteCodec Evm

namespace Sdk

/-! ## The decoder -/

/-- The number of a base64 character. -/
def base64Value (c : UInt8) : Option ℕ :=
  (ascii "ABCDEFGHIJKLMNOPQRSTUVWXYZabcdefghijklmnopqrstuvwxyz0123456789+/").idxOf? c

def isAsciiWhitespace (c : UInt8) : Bool := c = 9 || c = 10 || c = 12 || c = 13 || c = 32

/-- The text without one or two `=` at its end. -/
def dropPadding (text : Bytes) : Bytes :=
  let cut := fun text : Bytes => if text.getLast? = some 0x3d then text.dropLast else text
  cut (cut text)

/-- The bytes of sextets, three for each four; bits that do not fill a byte are dropped. -/
def joinSextets : List ℕ → Bytes
  | a :: b :: c :: d :: rest =>
      let n := ((a * 64 + b) * 64 + c) * 64 + d
      UInt8.ofNat (n / 65536) :: UInt8.ofNat (n / 256) :: UInt8.ofNat n :: joinSextets rest
  | [a, b, c] =>
      let n := (a * 64 + b) * 64 + c
      [UInt8.ofNat (n / 1024), UInt8.ofNat (n / 4)]
  | [a, b] => [UInt8.ofNat ((a * 64 + b) / 16)]
  | _ => []

/-- `atob`, which throws on a character of another alphabet or a lone last one. -/
def atob (text : Bytes) : Option Bytes := do
  let text := text.filter fun c => !isAsciiWhitespace c
  let text := if text.length % 4 = 0 then dropPadding text else text
  guard (text.length % 4 ≠ 1)
  return joinSextets (← text.mapM base64Value)

/-- The padding put back, then `atob`. -/
def base64UrlDecode (value : Bytes) : Option Bytes :=
  let base64 := value.map fun c => if c = 0x2d then 0x2b else if c = 0x5f then 0x2f else c
  atob (base64 ++ (ascii "===").drop ((value.length + 3) % 4))

/-! ## The sextets of a byte string -/

/-- The sextets that an encoder writes, without padding. -/
def sextets : Bytes → List ℕ
  | a :: b :: c :: rest =>
      let n := Base64Url.pack a b c
      n / 2 ^ 18 % 64 :: n / 2 ^ 12 % 64 :: n / 2 ^ 6 % 64 :: n % 64 :: sextets rest
  | [a, b] =>
      let n := Base64Url.pack a b 0
      [n / 2 ^ 18 % 64, n / 2 ^ 12 % 64, n / 2 ^ 6 % 64]
  | [a] =>
      let n := Base64Url.pack a 0 0
      [n / 2 ^ 18 % 64, n / 2 ^ 12 % 64]
  | [] => []

def padding (length : ℕ) : Bytes := List.replicate ((3 - length % 3) % 3) 0x3d

theorem sextet_lt : ∀ bytes, ∀ s ∈ sextets bytes, s < 64
  | a :: b :: c :: rest => by
      intro s hs
      simp only [sextets, List.mem_cons] at hs
      rcases hs with rfl | rfl | rfl | rfl | hs
      · exact Nat.mod_lt _ (by decide)
      · exact Nat.mod_lt _ (by decide)
      · exact Nat.mod_lt _ (by decide)
      · exact Nat.mod_lt _ (by decide)
      · exact sextet_lt rest s hs
  | [a, b] => by
      intro s hs
      simp only [sextets, List.mem_cons, List.not_mem_nil, or_false] at hs
      omega
  | [a] => by
      intro s hs
      simp only [sextets, List.mem_cons, List.not_mem_nil, or_false] at hs
      omega
  | [] => nofun

theorem length_sextets : ∀ bytes : Bytes,
    (sextets bytes).length + (padding bytes.length).length = 4 * ((bytes.length + 2) / 3) ∧
      (sextets bytes).length % 4 ≠ 1
  | a :: b :: c :: rest => by
      obtain ⟨hlength, hone⟩ := length_sextets rest
      simp only [padding, List.length_replicate, sextets, List.length_cons] at hlength hone ⊢
      omega
  | [a, b] => ⟨by simp [sextets, padding], (by decide : 3 % 4 ≠ 1)⟩
  | [a] => ⟨by simp [sextets, padding], (by decide : 2 % 4 ≠ 1)⟩
  | [] => ⟨rfl, (by decide : 0 % 4 ≠ 1)⟩

theorem joinSextets_sextets : ∀ bytes, joinSextets (sextets bytes) = bytes
  | a :: b :: c :: rest => by
      have ha := a.toNat_lt
      have hb := b.toNat_lt
      have hc := c.toNat_lt
      simp only [sextets, joinSextets, joinSextets_sextets rest, Base64Url.pack]
      congr 1
      · apply UInt8.toNat_inj.mp
        rw [UInt8.toNat_ofNat']
        omega
      congr 1
      · apply UInt8.toNat_inj.mp
        rw [UInt8.toNat_ofNat']
        omega
      congr 1
      apply UInt8.toNat_inj.mp
      rw [UInt8.toNat_ofNat']
      omega
  | [a, b] => by
      have ha := a.toNat_lt
      have hb := b.toNat_lt
      simp only [sextets, joinSextets, Base64Url.pack, UInt8.toNat_zero]
      congr 1
      · apply UInt8.toNat_inj.mp
        rw [UInt8.toNat_ofNat']
        omega
      congr 1
      apply UInt8.toNat_inj.mp
      rw [UInt8.toNat_ofNat']
      omega
  | [a] => by
      have ha := a.toNat_lt
      simp only [sextets, joinSextets, Base64Url.pack, UInt8.toNat_zero]
      congr 1
      apply UInt8.toNat_inj.mp
      rw [UInt8.toNat_ofNat']
      omega
  | [] => rfl

/-! ## The characters -/

theorem encode_eq_sextets : ∀ bytes, Base64Url.encode bytes = (sextets bytes).map Base64Url.digit
  | a :: b :: c :: rest => by
      simp [Base64Url.encode, sextets, encode_eq_sextets rest, Base64Url.digit]
  | [a, b] => by simp [Base64Url.encode, sextets, Base64Url.digit]
  | [a] => by simp [Base64Url.encode, sextets, Base64Url.digit]
  | [] => rfl

theorem btoa_eq_sextets : ∀ bytes,
    btoa bytes = (sextets bytes).map btoa.base64Digit ++ padding bytes.length
  | a :: b :: c :: rest => by
      have hlength : (a :: b :: c :: rest).length % 3 = rest.length % 3 := by
        simp only [List.length_cons]
        omega
      have hpadding : padding (a :: b :: c :: rest).length = padding rest.length := by
        rw [padding, padding, hlength]
      rw [hpadding]
      simp [btoa, sextets, btoa_eq_sextets rest, btoa.base64Digit]
  | [a, b] => by simp [btoa, sextets, btoa.base64Digit, padding]
  | [a] => by simp [btoa, sextets, btoa.base64Digit, padding]
  | [] => rfl

/-- The characters of a sextet in both alphabets. -/
theorem sextet_characters : ∀ s < 64,
    (if btoa.base64Digit s = 0x2b then 0x2d else
      if btoa.base64Digit s = 0x2f then 0x5f else btoa.base64Digit s) = Base64Url.digit s ∧
    (if Base64Url.digit s = 0x2d then 0x2b else
      if Base64Url.digit s = 0x5f then 0x2f else Base64Url.digit s) = btoa.base64Digit s ∧
    base64Value (btoa.base64Digit s) = some s ∧ btoa.base64Digit s ≠ 0x3d ∧
    Base64Url.digit s ≠ 0x3d ∧ isAsciiWhitespace (btoa.base64Digit s) = false ∧
    Base64Url.digit s ∈ Base64Url.alphabet := by
  decide +kernel

theorem base64UrlEncode_eq_encode (bytes : Bytes) :
    base64UrlEncode bytes = Base64Url.encode bytes := by
  have hreplaced : (btoa bytes).map (fun c => if c = 0x2b then 0x2d else
      if c = 0x2f then 0x5f else c) = Base64Url.encode bytes ++ padding bytes.length := by
    rw [btoa_eq_sextets, encode_eq_sextets, List.map_append, List.map_map, padding,
      List.map_replicate]
    congr 1
    apply List.map_congr_left
    intro s hs
    exact (sextet_characters s (sextet_lt bytes s hs)).1
  have hcut : ∀ c ∈ (Base64Url.encode bytes).reverse.head?, ¬ c = 0x3d := by
    intro c hc
    have hmem := List.mem_reverse.mp (List.mem_of_mem_head? hc)
    rw [encode_eq_sextets] at hmem
    obtain ⟨s, hs, rfl⟩ := List.mem_map.mp hmem
    exact (sextet_characters s (sextet_lt bytes s hs)).2.2.2.2.1
  rw [base64UrlEncode, hreplaced, List.reverse_append, padding, List.reverse_replicate,
    List.dropWhile_append_of_pos]
  · cases htext : (Base64Url.encode bytes).reverse with
    | nil =>
        rw [List.reverse_eq_nil_iff.mp htext]
        rfl
    | cons c rest =>
        have hc : ¬ c = 0x3d := hcut c (by rw [htext]; rfl)
        rw [List.dropWhile_cons_of_neg (by simpa using hc), ← htext, List.reverse_reverse]
  · intro c hc
    simpa using List.eq_of_mem_replicate hc

/-- Without its padding a base64 text is left as it is. -/
theorem dropPadding_btoa (bytes : Bytes) :
    dropPadding ((sextets bytes).map btoa.base64Digit ++ padding bytes.length) =
      (sextets bytes).map btoa.base64Digit := by
  have hlast : ((sextets bytes).map btoa.base64Digit).getLast? ≠ some 0x3d := by
    intro hlast
    obtain ⟨s, hs, heq⟩ := List.mem_map.mp (List.mem_of_getLast? hlast)
    exact (sextet_characters s (sextet_lt bytes s hs)).2.2.2.1 heq
  have hcount : (3 - bytes.length % 3) % 3 = 0 ∨ (3 - bytes.length % 3) % 3 = 1 ∨
      (3 - bytes.length % 3) % 3 = 2 := by omega
  generalize (sextets bytes).map btoa.base64Digit = text at hlast
  rcases hcount with hcount | hcount | hcount
  · simp [dropPadding, padding, hcount, hlast]
  · simp [dropPadding, padding, hcount, hlast]
  · have htwo : text ++ List.replicate 2 (0x3d : UInt8) = (text ++ [0x3d]) ++ [0x3d] := by simp
    simp only [dropPadding, padding, hcount, htwo, List.getLast?_concat, List.dropLast_concat,
      if_true]

theorem base64UrlDecode_encode (bytes : Bytes) :
    base64UrlDecode (Base64Url.encode bytes) = some bytes := by
  obtain ⟨hlength, hone⟩ := length_sextets bytes
  have hpadded : ((Base64Url.encode bytes).map fun c => if c = 0x2d then 0x2b else
      if c = 0x5f then 0x2f else c) ++
        (ascii "===").drop (((Base64Url.encode bytes).length + 3) % 4) =
      (sextets bytes).map btoa.base64Digit ++ padding bytes.length := by
    rw [encode_eq_sextets, List.map_map, List.length_map]
    congr 1
    · apply List.map_congr_left
      intro s hs
      exact (sextet_characters s (sextet_lt bytes s hs)).2.1
    · have hdrop : ∀ n, (ascii "===").drop n = List.replicate (3 - n) 0x3d := by
        intro n
        rw [show ascii "===" = List.replicate 3 0x3d from rfl, List.drop_replicate]
      rw [padding, List.length_replicate] at hlength
      rw [hdrop, padding]
      congr 1
      omega
  have hclean : ((sextets bytes).map btoa.base64Digit ++ padding bytes.length).filter
      (fun c => !isAsciiWhitespace c) =
        (sextets bytes).map btoa.base64Digit ++ padding bytes.length := by
    apply List.filter_eq_self.mpr
    intro c hc
    rcases List.mem_append.mp hc with hc | hc
    · obtain ⟨s, hs, rfl⟩ := List.mem_map.mp hc
      rw [(sextet_characters s (sextet_lt bytes s hs)).2.2.2.2.2.1]
      rfl
    · rw [List.eq_of_mem_replicate hc]
      rfl
  have hfour : ((sextets bytes).map btoa.base64Digit ++ padding bytes.length).length % 4 = 0 := by
    rw [List.length_append, List.length_map, hlength]
    exact Nat.mul_mod_right 4 _
  have hvalues : ((sextets bytes).map btoa.base64Digit).mapM base64Value = some (sextets bytes) := by
    rw [List.mapM_map]
    have hall : ∀ l : List ℕ, (∀ s ∈ l, s < 64) →
        l.mapM (base64Value ∘ btoa.base64Digit) = some l := by
      intro l hl
      induction l with
      | nil => rfl
      | cons s l ih =>
          have hs := (sextet_characters s (hl s List.mem_cons_self)).2.2.1
          simp [List.mapM_cons, hs, ih fun t ht => hl t (List.mem_cons_of_mem s ht)]
    exact hall _ (sextet_lt bytes)
  rw [base64UrlDecode, hpadded, atob]
  simp only [hclean, if_pos hfour, dropPadding_btoa, hvalues, List.length_map]
  simp [hone, joinSextets_sextets]

/-- The characters of the words that the assembly returns. -/
theorem base64Url_characters (memory : Memory) (value : B256) :
    toBytes (VeraKeyValidator.base64Url memory (Validator.wordOf value)).1 ++
      (toBytes (VeraKeyValidator.base64Url memory (Validator.wordOf value)).2).take 11 =
        encode32 value := by
  have hhead : ((encode32 value).take 32).length = 32 := by simp [length_encode32]
  have htail : ((encode32 value).drop 32).length = 11 := by simp [length_encode32]
  rw [VeraKeyValidator.base64Url_eq, bytesN_eq hhead, bytesN_eq htail, toBytes_ofBytes,
    toBytes_ofBytes, List.take_left' htail]
  · simp
  · rw [List.length_append, htail]
    rfl
  · simpa using hhead

/-- The encoders of the account, the validator and the SDK write the same 43 characters of
the URL-safe alphabet for 32 bytes, which tell the bytes apart; the SDK decodes whatever it
encodes. -/
theorem base64url_encoders_agree :
    (∀ (memory : Memory) (value : B256),
      base64UrlEncode value.bytes = encode32 value ∧
      toBytes (VeraKeyValidator.base64Url memory (Validator.wordOf value)).1 ++
        (toBytes (VeraKeyValidator.base64Url memory (Validator.wordOf value)).2).take 11 =
          encode32 value ∧
      encode32 value = Base64Url.encode value.bytes ∧
      (encode32 value).length = 43 ∧ ∀ c ∈ encode32 value, c ∈ Base64Url.alphabet) ∧
    Function.Injective encode32 ∧
    ∀ bytes, base64UrlDecode (base64UrlEncode bytes) = some bytes := by
  refine ⟨?_, fun _ _ => encode32_inj, ?_⟩
  · intro memory value
    have hencode := encode32_eq_encode value
    refine ⟨?_, base64Url_characters memory value, hencode, length_encode32 value, ?_⟩
    · rw [base64UrlEncode_eq_encode, hencode]
    · intro c hc
      rw [hencode, encode_eq_sextets] at hc
      obtain ⟨s, hs, rfl⟩ := List.mem_map.mp hc
      exact (sextet_characters s (sextet_lt value.bytes s hs)).2.2.2.2.2.2
  · intro bytes
    rw [base64UrlEncode_eq_encode, base64UrlDecode_encode]

end Sdk

end VeraKey
