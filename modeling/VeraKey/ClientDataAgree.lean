/-
The two client-data checks agree: the validator's fixed offsets, hashed origin and
own base64url encoder accept exactly what the account's byte-level check accepts.
-/
import VeraKey.ClientData
import VeraKey.Validator

namespace VeraKey

open ByteCodec Evm

namespace VeraKeyValidator

/-! ## The encoder -/

/-- The alphabet as it stands in memory. -/
theorem alphabet_stored (memory : Memory) (table : ℕ) {i : ℕ} (hi : i < 64) :
    mstore (mstore memory table (ofBytes (ascii "ABCDEFGHIJKLMNOPQRSTUVWXYZabcdef")))
      (table + 0x20) (ofBytes (ascii "ghijklmnopqrstuvwxyz0123456789-_")) (table + i) =
        Base64Url.alphabet.getD i 0 := by
  have hsplit : Base64Url.alphabet = ascii "ABCDEFGHIJKLMNOPQRSTUVWXYZabcdef" ++
      ascii "ghijklmnopqrstuvwxyz0123456789-_" := by decide
  rw [hsplit]
  by_cases hlow : i < 32
  · rw [mstore_of_lt _ (by omega), mstore_add _ hlow, toBytes_ofBytes (by decide),
      List.getD_append _ _ _ _ (by exact hlow)]
  · have hoffset : table + i = table + 0x20 + (i - 32) := by omega
    rw [hoffset, mstore_add _ (by omega), toBytes_ofBytes (by decide),
      List.getD_append_right _ _ _ _ (by exact Nat.le_of_not_lt hlow)]
    rfl

/-- A masked shift reads six bits. -/
theorem toNat_sextet (value : Word) (shift : ℕ) :
    (value >>> shift &&& 0x3f).toNat = value.toNat / 2 ^ shift % 64 := by
  have hmask : (0x3f : Word).toNat = 2 ^ 6 - 1 := by simp
  rw [BitVec.toNat_and, hmask, Nat.and_two_pow_sub_one_eq_mod, BitVec.toNat_ushiftRight,
    Nat.shiftRight_eq_div_pow]

/-- The last four bits, shifted to a sextet. -/
theorem toNat_lastSextet (value : Word) :
    ((value &&& 0x0f) <<< 2).toNat = value.toNat * 4 % 64 := by
  have hmask : (0x0f : Word).toNat = 2 ^ 4 - 1 := by simp
  rw [BitVec.toNat_shiftLeft, BitVec.toNat_and, hmask, Nat.and_two_pow_sub_one_eq_mod,
    Nat.shiftLeft_eq]
  omega

/-- The 43 characters of the encoder, as they stand in memory before the two loads. -/
theorem read_encoded {m : Memory} {out : ℕ} {value : B256}
    (hchars : ∀ i < 42, m (out + i) =
      Base64Url.digit (value.toNat / 2 ^ (250 - 6 * i)))
    (hlast : m (out + 42) = Base64Url.digit (value.toNat * 4)) :
    readRange m out 43 = encode32 value := by
  rw [encode32_eq_encode, Base64Url.encode_eq_digits 10 _ value.length_eq, readRange,
    List.range_succ, List.map_append]
  have hfirst : (List.range 42).map (fun i => m (out + i)) =
      (List.range (4 * 10 + 2)).map fun i =>
        Base64Url.digit (beNat value.bytes / 2 ^ (24 * 10 + 10 - 6 * i)) :=
    List.map_congr_left fun i hi => hchars i (List.mem_range.mp hi)
  rw [hfirst, List.map_singleton, hlast]
  rfl

/-- The assembly encodes the 32 bytes, whatever the memory held before. -/
theorem base64Url_eq (memory : Memory) (value : B256) :
    base64Url memory (Validator.wordOf value) =
      (bytesN 32 ((encode32 value).take 32), bytesN 11 ((encode32 value).drop 32)) := by
  have hvalue : (Validator.wordOf value).toNat = value.toNat :=
    Nat.mod_eq_of_lt value.toNat_lt
  unfold base64Url
  dsimp only
  generalize (mload memory 0x40).toNat = table
  have hstored := fun i (hi : i < 64) => alphabet_stored memory table hi
  generalize mstore (mstore memory table _) (table + 0x20) _ = m at hstored ⊢
  have hlookup : ∀ (m' : Memory) (sextet : ℕ), sextet < 64 →
      (∀ a, a < table + 0x40 ∨ table + 0x40 + 42 ≤ a → m' a = m a) →
      UInt8.ofNat (byte 0 (mload m' (table + sextet))).toNat =
        Base64Url.alphabet.getD sextet 0 := by
    intro m' sextet hsextet hsame
    rw [toNat_byte_zero_mload, UInt8.ofNat_toNat, hsame _ (Or.inl (by omega)),
      hstored sextet hsextet]
  have hround : ∀ (m' : Memory) (i : ℕ), i < 42 →
      (∀ a, a < table + 0x40 ∨ table + 0x40 + 42 ≤ a → m' a = m a) →
      UInt8.ofNat (byte 0 (mload m' (table +
        ((Validator.wordOf value) >>> (250 - 6 * i) &&& 0x3f).toNat))).toNat =
          Base64Url.digit (value.toNat / 2 ^ (250 - 6 * i)) := by
    intro m' i _ hsame
    rw [toNat_sextet, hvalue]
    exact hlookup m' _ (Nat.mod_lt _ (by decide)) hsame
  obtain ⟨hfilled, houtside⟩ := fill_spec 42 le_rfl hround
  generalize fill _ _ _ m = m' at hfilled houtside ⊢
  have hlast := hlookup m' _ (Nat.mod_lt (value.toNat * 4) (by decide : 0 < 64)) houtside
  rw [toNat_lastSextet, hvalue]
  have hread : readRange (mstore8 m' (table + 0x40 + 42) (byte 0 (mload m'
      (table + value.toNat * 4 % 64)))) (table + 0x40) 43 = encode32 value := by
    refine read_encoded (fun i hi => ?_) ?_
    · rw [mstore8_of_ne _ (by omega)]
      exact hfilled i hi
    · rw [mstore8_self]
      exact hlast
  generalize mstore8 m' _ _ = m'' at hread ⊢
  rw [readRange_add m'' _ 32 11] at hread
  rw [← hread, List.take_left' (length_readRange _ _ _), List.drop_left' (length_readRange _ _ _),
    bytesN_eq (length_readRange _ _ _), bytesN_eq (length_readRange _ _ _), mload, mload,
    readRange_add m'' (table + 0x40 + 0x20) 11 21]
  have hmask := ofBytes_and_mask (readRange m'' (table + 0x40 + 0x20) 11)
    (readRange m'' (table + 0x40 + 0x20 + 11) 21) (by simp)
  rw [length_readRange] at hmask
  exact Prod.ext (by simp) hmask

/-! ## The check -/

variable {v : VeraKeyValidator} {keccak : Bytes → B256} {memory : Memory}
  {json : Bytes} {challenge : B256}

theorem isSome_ite {c : Prop} [Decidable c] {first : Bool} {rest : Option Bool}
    (h : ¬ c → rest.isSome = true) : (if c then some first else rest).isSome = true := by
  split
  · rfl
  · exact h ‹¬ c›

/-- No slice points outside the client data, so the check never reverts. -/
theorem isSome_checkClientData :
    (v.checkClientData keccak memory json challenge).isSome = true := by
  unfold checkClientData
  generalize base64Url memory _ = chars
  obtain ⟨challengeHead, challengeTail⟩ := chars
  simp only [Validator.originStart, Option.pure_def]
  refine isSome_ite fun hlength => ?_
  have hquote : 91 + v.originLength < json.length := by omega
  have hnext : 91 + v.originLength + 1 < json.length := by omega
  rw [slice_bind (by omega) (by omega)]
  refine isSome_ite fun _ => ?_
  rw [slice_bind (by omega) (by omega)]
  refine isSome_ite fun _ => ?_
  rw [slice_bind (by omega) (by omega)]
  refine isSome_ite fun _ => ?_
  rw [slice_bind (by omega) (by omega)]
  refine isSome_ite fun _ => ?_
  rw [slice_bind (by omega) (by omega)]
  refine isSome_ite fun _ => ?_
  rw [slice_bind (by omega) (by omega)]
  refine isSome_ite fun _ => ?_
  rw [getElem?_bind hquote]
  refine isSome_ite fun _ => ?_
  rw [getElem?_bind hnext]
  refine isSome_ite fun _ => isSome_ite fun _ => isSome_ite fun htail => ?_
  rw [slice_bind (by omega) (by omega)]
  rfl

/-- A check that returns `false` on a mismatch accepts if the match holds and the rest
accepts. -/
theorem reject_iff {c P Q : Prop} [Decidable c] {rest : Option Bool} (hmatch : ¬ c ↔ P)
    (hrest : P → (rest = some true ↔ Q)) :
    (if c then some false else rest) = some true ↔ P ∧ Q := by
  by_cases hc : c
  · simp [hc, ← hmatch]
  · have hp : P := hmatch.mp hc
    rw [if_neg hc, hrest hp, and_iff_right hp]

/-- The byte string between two places of the client data. -/
def part (json : Bytes) (start stop : ℕ) : Bytes := (json.drop start).take (stop - start)

theorem length_part {json : Bytes} {start stop : ℕ} (hstop : stop ≤ json.length) :
    (part json start stop).length = stop - start := by
  rw [part, List.length_take, List.length_drop]
  omega

/-- Comparing the words of two equally long byte strings compares the strings. -/
theorem bytesN_part_ne {json text : Bytes} {n start stop : ℕ} (hn : n ≤ 32)
    (htext : text.length = n) (hstop : stop ≤ json.length) (hlength : stop - start = n) :
    ¬ bytesN n (part json start stop) ≠ bytesN n text ↔ part json start stop = text := by
  rw [not_ne_iff, bytesN_inj hn ((length_part hstop).trans hlength) htext]

/-- What the check compares, place by place. -/
structure Matches (v : VeraKeyValidator) (keccak : Bytes → B256) (json : Bytes)
    (challenge : B256) : Prop where
  length_le : json.length ≤ 1024
  length_ge : 91 + v.originLength + 2 ≤ json.length
  keyHead : part json 0 32 = ascii "\x7b\"type\":\"webauthn.get\",\"challeng"
  keyTail : part json 32 36 = ascii "e\":\""
  challengeHead : part json 36 68 = (encode32 challenge).take 32
  challengeTail : part json 68 79 = (encode32 challenge).drop 32
  originKey : part json 79 91 = ClientData.originKey
  origin : keccak (part json 91 (91 + v.originLength)) = v.originHash
  quote : json[91 + v.originLength]? = some ClientData.quote
  ends : ClientData.EndsOrigin (json.drop (91 + v.originLength + 1))

/-- The end of the check is the rule for what may follow the origin. -/
theorem ends_iff {rest : ℕ} (hrest : rest < json.length) :
    ((if json[rest] = 0x7d then some true
      else if json[rest] ≠ 0x2c then some false
      else if json.length < rest + 19 then some true
      else do
        let tail ← slice json rest (rest + 19)
        some (decide (bytesN 19 tail ≠ Validator.crossOriginTrue))) = some true) ↔
      ClientData.EndsOrigin (json.drop rest) := by
  have hhead : (json.drop rest).head? = some json[rest] := by
    rw [List.head?_drop, List.getElem?_eq_getElem hrest]
  have hcross : ClientData.crossOriginTrue.length = 19 := by decide
  unfold ClientData.EndsOrigin
  rw [hhead, Option.some_inj, Option.some_inj, List.prefix_iff_eq_take, hcross]
  by_cases hbrace : json[rest] = ClientData.closingBrace
  · simp [hbrace, ClientData.closingBrace]
  have hopen : ¬ json[rest] = 0x7d := hbrace
  by_cases hcomma : json[rest] = ClientData.comma
  · have hnext : ¬ json[rest] ≠ 0x2c := not_ne_iff.mpr hcomma
    rw [if_neg hopen, if_neg hnext]
    by_cases hshort : json.length < rest + 19
    · have hne : ¬ ClientData.crossOriginTrue = (json.drop rest).take 19 := by
        intro heq
        have hlength := congrArg List.length heq
        rw [hcross, List.length_take, List.length_drop] at hlength
        omega
      simp [hshort, hcomma, hne]
    · have hstop : rest + 19 ≤ json.length := Nat.le_of_not_lt hshort
      have htail :=
        bytesN_part_ne (n := 19) (by decide) hcross hstop (Nat.add_sub_cancel_left rest 19)
      rw [part, Nat.add_sub_cancel_left] at htail
      rw [if_neg hshort, slice_bind (Nat.le_add_right rest 19) hstop, Nat.add_sub_cancel_left,
        Option.some_inj, decide_eq_true_iff, eq_comm (a := ClientData.crossOriginTrue), ← htail,
        not_not]
      exact ⟨fun hdiffers => Or.inr ⟨hcomma, hdiffers⟩, fun hends => (hends.resolve_left hbrace).2⟩
  · have hnext : json[rest] ≠ 0x2c := hcomma
    simp [hopen, hnext, hbrace, hcomma]

theorem length_encode32_head (challenge : B256) : ((encode32 challenge).take 32).length = 32 := by
  simp [length_encode32]

theorem length_encode32_tail (challenge : B256) : ((encode32 challenge).drop 32).length = 11 := by
  simp [length_encode32]

theorem checkClientData_iff_matches :
    v.checkClientData keccak memory json challenge = some true ↔
      v.Matches keccak json challenge := by
  have hhead := length_encode32_head challenge
  have htail := length_encode32_tail challenge
  have hsteps : v.checkClientData keccak memory json challenge = some true ↔
      (json.length ≤ 1024 ∧ 91 + v.originLength + 2 ≤ json.length) ∧
      part json 0 32 = ascii "\x7b\"type\":\"webauthn.get\",\"challeng" ∧
      part json 32 36 = ascii "e\":\"" ∧
      part json 36 68 = (encode32 challenge).take 32 ∧
      part json 68 79 = (encode32 challenge).drop 32 ∧
      part json 79 91 = ClientData.originKey ∧
      keccak (part json 91 (91 + v.originLength)) = v.originHash ∧
      json[91 + v.originLength]? = some ClientData.quote ∧
      ClientData.EndsOrigin (json.drop (91 + v.originLength + 1)) := by
    have hstart : Validator.originStart = 91 := rfl
    unfold checkClientData
    rw [base64Url_eq]
    dsimp only
    refine reject_iff (by rw [not_or, not_lt, not_lt]; rfl) fun hlength => ?_
    obtain ⟨-, hlength⟩ := hlength
    rw [slice_bind (by omega) (by omega)]
    refine reject_iff (bytesN_part_ne le_rfl (by decide) (by omega) rfl) fun _ => ?_
    rw [slice_bind (by omega) (by omega)]
    refine reject_iff (bytesN_part_ne (by decide) (by decide) (by omega) rfl) fun _ => ?_
    rw [slice_bind (by omega) (by omega)]
    refine reject_iff (bytesN_part_ne le_rfl hhead (by omega) rfl) fun _ => ?_
    rw [slice_bind (by omega) (by omega)]
    refine reject_iff (bytesN_part_ne (by decide) htail (by omega) rfl) fun _ => ?_
    rw [slice_bind (by omega) (by omega)]
    refine reject_iff (bytesN_part_ne (by decide) (by decide) (by omega) rfl) fun _ => ?_
    rw [slice_bind (by omega) (by omega)]
    refine reject_iff not_ne_iff fun _ => ?_
    rw [getElem?_bind (by omega)]
    refine reject_iff
      (by rw [not_ne_iff, ← Option.some_inj, ← List.getElem?_eq_getElem]; rfl) fun _ => ?_
    rw [getElem?_bind (by omega)]
    exact ends_iff (by omega)
  rw [hsteps]
  constructor
  · rintro ⟨⟨hle, hge⟩, hkeyHead, hkeyTail, hchallengeHead, hchallengeTail, horiginKey,
      horigin, hquote, hends⟩
    exact ⟨hle, hge, hkeyHead, hkeyTail, hchallengeHead, hchallengeTail, horiginKey,
      horigin, hquote, hends⟩
  · intro h
    exact ⟨⟨h.length_le, h.length_ge⟩, h.keyHead, h.keyTail, h.challengeHead,
      h.challengeTail, h.originKey, h.origin, h.quote, h.ends⟩

/-! ## The layout -/

theorem part_eq_iff {text : Bytes} {start stop : ℕ} (hstop : start + text.length = stop) :
    part json start stop = text ↔ json.drop start = text ++ json.drop stop :=
  take_drop_eq_iff (by omega) (by omega)

/-- What follows a known part of the client data. -/
theorem drop_of_append {text rest : Bytes} {start stop : ℕ} (hstop : start + text.length = stop)
    (hdrop : json.drop start = text ++ rest) : json.drop stop = rest := by
  rw [← hstop, ← List.drop_drop, hdrop, List.drop_left]

theorem typeAndChallengeKey_eq :
    ClientData.typeAndChallengeKey =
      ascii "\x7b\"type\":\"webauthn.get\",\"challeng" ++ ascii "e\":\"" := by
  decide

variable {origin : Bytes}

/-- The compared places, put together, are the client data. -/
theorem Matches.eq_layout (h : v.Matches keccak json challenge)
    (horiginLength : v.originLength = origin.length)
    (hplace : part json 91 (91 + origin.length) = origin) :
    json = ClientData.typeAndChallengeKey ++ (encode32 challenge ++
      (ClientData.originKey ++ (origin ++ ([ClientData.quote] ++
        json.drop (91 + origin.length + 1))))) := by
  have hhead := length_encode32_head challenge
  have htail := length_encode32_tail challenge
  have hquote := h.quote
  rw [horiginLength] at hquote
  obtain ⟨hshort, hquoted⟩ := List.getElem?_eq_some_iff.mp hquote
  calc json = json.drop 0 := rfl
    _ = _ := (part_eq_iff (by decide)).mp h.keyHead
    _ = _ := congrArg _ ((part_eq_iff (by decide)).mp h.keyTail)
    _ = ClientData.typeAndChallengeKey ++ json.drop 36 := by
      rw [typeAndChallengeKey_eq, List.append_assoc]
    _ = _ := congrArg _ ((part_eq_iff (by rw [hhead])).mp h.challengeHead)
    _ = _ := congrArg _ (congrArg _ ((part_eq_iff (by rw [htail])).mp h.challengeTail))
    _ = ClientData.typeAndChallengeKey ++ (encode32 challenge ++ json.drop 79) := by
      rw [← List.append_assoc ((encode32 challenge).take 32), List.take_append_drop]
    _ = _ := congrArg _ (congrArg _ ((part_eq_iff (by decide)).mp h.originKey))
    _ = _ := congrArg _ (congrArg _ (congrArg _ ((part_eq_iff rfl).mp hplace)))
    _ = _ := by rw [List.drop_eq_getElem_cons hshort, hquoted, List.singleton_append]

/-- A client data of the layout has the right bytes at every compared place. -/
theorem matches_of_layout (horiginLength : v.originLength = origin.length)
    (horigin : part json 91 (91 + origin.length) = origin →
      keccak (part json 91 (91 + origin.length)) = v.originHash)
    (hle : json.length ≤ ClientData.maxClientDataLen) {tail : Bytes}
    (hends : ClientData.EndsOrigin tail)
    (heq : json = ClientData.typeAndChallengeKey ++ (encode32 challenge ++
      (ClientData.originKey ++ (origin ++ ([ClientData.quote] ++ tail))))) :
    v.Matches keccak json challenge := by
  have hhead := length_encode32_head challenge
  have htail := length_encode32_tail challenge
  rw [typeAndChallengeKey_eq, ← List.take_append_drop 32 (encode32 challenge),
    List.append_assoc, List.append_assoc] at heq
  have h0 : json.drop 0 = _ := heq
  have h32 : json.drop 32 = _ := drop_of_append (by decide) h0
  have h36 : json.drop 36 = _ := drop_of_append (by decide) h32
  have h68 : json.drop 68 = _ := drop_of_append (by rw [hhead]) h36
  have h79 : json.drop 79 = _ := drop_of_append (by rw [htail]) h68
  have h91 : json.drop 91 = _ := drop_of_append (by decide) h79
  have hclose : json.drop (91 + origin.length) = _ := drop_of_append rfl h91
  have hrest : json.drop (91 + origin.length + 1) = tail := drop_of_append rfl hclose
  have hnext : 91 + origin.length + 1 < json.length := by
    by_contra hshort
    rw [List.drop_eq_nil_of_le (Nat.le_of_not_lt hshort)] at hrest
    subst hrest
    rcases hends with hbrace | ⟨hcomma, _⟩
    · exact absurd hbrace (by decide)
    · exact absurd hcomma (by decide)
  have hquoted : json[91 + origin.length]? = some ClientData.quote := by
    rw [← List.head?_drop, hclose]
    rfl
  have hplace : part json 91 (91 + origin.length) = origin :=
    (part_eq_iff rfl).mpr (h91.trans (congrArg _ hclose.symm))
  exact {
    length_le := hle
    length_ge := by omega
    keyHead := (part_eq_iff (by decide)).mpr (h0.trans (congrArg _ h32.symm))
    keyTail := (part_eq_iff (by decide)).mpr (h32.trans (congrArg _ h36.symm))
    challengeHead := (part_eq_iff (by rw [hhead])).mpr (h36.trans (congrArg _ h68.symm))
    challengeTail := (part_eq_iff (by rw [htail])).mpr (h68.trans (congrArg _ h79.symm))
    originKey := (part_eq_iff (by decide)).mpr (h79.trans (congrArg _ h91.symm))
    origin := by rw [horiginLength]; exact horigin hplace
    quote := by rw [horiginLength, hquoted]
    ends := by rw [horiginLength, hrest]; exact hends }

theorem matches_iff_layout (horiginLength : v.originLength = origin.length)
    (horigin : keccak (part json 91 (91 + origin.length)) = v.originHash ↔
      part json 91 (91 + origin.length) = origin) :
    v.Matches keccak json challenge ↔
      json.length ≤ ClientData.maxClientDataLen ∧ ∃ tail, ClientData.EndsOrigin tail ∧
        json = ClientData.typeAndChallengeKey ++ (encode32 challenge ++
          (ClientData.originKey ++ (origin ++ ([ClientData.quote] ++ tail)))) := by
  constructor
  · intro h
    have hplace := h.origin
    rw [horiginLength, horigin] at hplace
    exact ⟨h.length_le, json.drop (91 + origin.length + 1), horiginLength ▸ h.ends,
      h.eq_layout horiginLength hplace⟩
  · rintro ⟨hle, tail, hends, heq⟩
    exact matches_of_layout horiginLength horigin.mpr hle hends heq

/-- The constructor takes every origin of 1 to 128 bytes. -/
theorem deploy_eq_ok {hasCode : Bool} {verifier : Address} {rpIdHash : B256} :
    deploy keccak hasCode verifier rpIdHash origin = .ok v ↔
      hasCode = true ∧ (1 ≤ origin.length ∧ origin.length ≤ 128) ∧
        v = ⟨verifier, rpIdHash, keccak origin, origin.length⟩ := by
  unfold deploy
  by_cases hcode : hasCode = true
  · by_cases horigin : 1 ≤ origin.length ∧ origin.length ≤ 128
    · have hfits : ¬ (origin.length = 0 ∨ origin.length > Validator.maxOriginLength) := by
        rw [Validator.maxOriginLength]
        omega
      rw [if_neg (not_not.mpr hcode), if_neg hfits, Except.ok.injEq, eq_comm]
      simp only [hcode, horigin, and_self, true_and]
    · have hfails : origin.length = 0 ∨ origin.length > Validator.maxOriginLength := by
        rw [Validator.maxOriginLength]
        omega
      rw [if_neg (not_not.mpr hcode), if_pos hfails]
      simp [horigin]
  · simp [hcode]

/-- The account's check and the validator's accept the same client data, and the
validator's never reverts. -/
theorem client_data_checks_agree {hasCode : Bool} {verifier : Address} {rpIdHash : B256}
    (hdeploy : deploy keccak hasCode verifier rpIdHash origin = .ok v)
    (hcollision : Set.InjOn keccak {part json 91 (91 + origin.length), origin}) :
    (v.checkClientData keccak memory json challenge).isSome = true ∧
      (v.checkClientData keccak memory json challenge = some true ↔
        ClientData.verify json challenge origin = .ok ()) := by
  refine ⟨isSome_checkClientData, ?_⟩
  obtain ⟨-, -, rfl⟩ := deploy_eq_ok.mp hdeploy
  have horigin : keccak (part json 91 (91 + origin.length)) = keccak origin ↔
      part json 91 (91 + origin.length) = origin :=
    hcollision.eq_iff (Set.mem_insert _ _) (Set.mem_insert_of_mem _ rfl)
  rw [checkClientData_iff_matches, matches_iff_layout rfl horigin, ClientData.verify_eq_ok]

end VeraKeyValidator

/-! A deployment and a client data it accepts. -/

namespace Deployed

open VeraKeyValidator

def origin : Bytes := ascii "https://pay.example"

def originHash : B256 :=
  .ofNat 32 0xc4794c9702f329f15696afdd5ba78dc33dc021fd095d5a5d829c025d84f75e02

def validator : VeraKeyValidator := ⟨.ofNat 20 7, .ofNat 32 9, originHash, 19⟩

def challenge : B256 :=
  .ofNat 32 0x8eb59c36ff61178e86099ea231f150d9213c883f6f820628bd6dc1b5ce140ddd

def json : Bytes :=
  ascii "\x7b\"type\":\"webauthn.get\",\"challenge\":\"" ++
    ascii "jrWcNv9hF46GCZ6iMfFQ2SE8iD9vggYovW3Btc4UDd0" ++
    ascii "\",\"origin\":\"https://pay.example\"\x7d"

theorem client_data_checks_agree_sample :
    validator.checkClientData (fun _ => originHash) (fun _ => 0) json challenge =
      some true := by
  have hdeploy : deploy (fun _ => originHash) true (.ofNat 20 7) (.ofNat 32 9) origin =
      .ok validator := rfl
  have horigin : part json 91 (91 + origin.length) = origin := by decide
  have hcollision : Set.InjOn (fun _ => originHash)
      {part json 91 (91 + origin.length), origin} := by
    rw [horigin, Set.pair_eq_singleton]
    exact Set.injOn_singleton _ _
  have haccepts : ClientData.verify json challenge origin = .ok () := by decide +kernel
  exact (client_data_checks_agree hdeploy hcollision).2.mpr haccepts

end Deployed

end VeraKey
