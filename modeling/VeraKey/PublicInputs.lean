/-
The proof's public inputs are the same six field elements wherever they are computed:
by the account, by the validator, by the SDK's prover and by its sign-in check.
-/
import VeraKey.Circuit
import VeraKey.Internals
import VeraKey.SdkBytes
import VeraKey.Validator

namespace VeraKey

open ByteCodec Circuit

namespace Sdk

/-- The public inputs that `prove` hands to the circuit by name. -/
def provedInputs (sha256 : Bytes → B256) (clientDataJson rpIdHash : Bytes)
    (appId nullifier : ℕ) : Option (PublicInputs Bytes) := do
  let (cdhHi, cdhLo) ← limbs (sha256 clientDataJson).bytes
  let (rpHi, rpLo) ← limbs rpIdHash
  return {
    clientDataHashHi := toFieldHex cdhHi
    clientDataHashLo := toFieldHex cdhLo
    rpIdHashHi := toFieldHex rpHi
    rpIdHashLo := toFieldHex rpLo
    appId := toFieldHex appId
    nullifier := toFieldHex nullifier }

/-- The public inputs that `checkSignIn` expects and hands to the verifier. -/
def expectedInputs (sha256 : Bytes → B256) (clientDataJson rpIdHash : Bytes)
    (appId nullifier : ℕ) : Option (List Bytes) := do
  let (cdhHi, cdhLo) ← limbs (sha256 clientDataJson).bytes
  let (rpHi, rpLo) ← limbs rpIdHash
  return [cdhHi, cdhLo, rpHi, rpLo, appId, nullifier].map toFieldHex

end Sdk

/-! ## Limbs -/

/-- The two halves of a hash, as numbers. -/
theorem toNat_splitLimbs (hash : B256) :
    (splitLimbs hash).1.toNat = beNat (hash.bytes.take 16) ∧
      (splitLimbs hash).2.toNat = beNat (hash.bytes.drop 16) :=
  ⟨beNat_zeros_append 16 _, beNat_zeros_append 16 _⟩

theorem splitLimbs_lt (hash : B256) :
    (splitLimbs hash).1.toNat < 2 ^ 128 ∧ (splitLimbs hash).2.toNat < 2 ^ 128 := by
  obtain ⟨hhi, hlo⟩ := toNat_splitLimbs hash
  have htake := beNat_lt (hash.bytes.take 16)
  have hdrop := beNat_lt (hash.bytes.drop 16)
  rw [List.length_take, hash.length_eq] at htake
  rw [List.length_drop, hash.length_eq] at hdrop
  rw [hhi, hlo]
  exact ⟨htake, hdrop⟩

/-- A shift and a mask give the same halves. -/
theorem splitLimbs_eq_div_mod (hash : B256) :
    (splitLimbs hash).1.toNat = hash.toNat / 2 ^ 128 ∧
      (splitLimbs hash).2.toNat = hash.toNat % 2 ^ 128 := by
  obtain ⟨hhi, hlo⟩ := toNat_splitLimbs hash
  have hlt := (splitLimbs_lt hash).2
  have hwhole : hash.toNat =
      beNat (hash.bytes.take 16) * 2 ^ 128 + beNat (hash.bytes.drop 16) := by
    have happend := beNat_append (hash.bytes.take 16) (hash.bytes.drop 16)
    rw [List.take_append_drop, List.length_drop, hash.length_eq] at happend
    exact happend
  rw [hlo] at hlt
  rw [hhi, hlo, hwhole]
  omega

theorem splitLimbs_inj {left right : B256} (heq : splitLimbs left = splitLimbs right) :
    left = right := by
  have hhi : (splitLimbs left).1.toNat = (splitLimbs right).1.toNat := by rw [heq]
  have hlo : (splitLimbs left).2.toNat = (splitLimbs right).2.toNat := by rw [heq]
  rw [(splitLimbs_eq_div_mod left).1, (splitLimbs_eq_div_mod right).1] at hhi
  rw [(splitLimbs_eq_div_mod left).2, (splitLimbs_eq_div_mod right).2] at hlo
  apply FixedBytes.toNat_injective
  rw [← Nat.div_add_mod left.toNat (2 ^ 128), hhi, hlo, Nat.div_add_mod]

theorem isFieldElement_splitLimbs (hash : B256) :
    isFieldElement (splitLimbs hash).1 = true ∧ isFieldElement (splitLimbs hash).2 = true := by
  have hmodulus : 2 ^ 128 < bn254R := by decide
  obtain ⟨hhi, hlo⟩ := splitLimbs_lt hash
  exact ⟨decide_eq_true (hhi.trans hmodulus), decide_eq_true (hlo.trans hmodulus)⟩

/-! ## The four computations -/

theorem toNat_bytes32 (word : Evm.Word) : (Validator.bytes32 word).toNat = word.toNat :=
  beNat_beBytes word.isLt

/-- The validator's shift and mask are the account's limbs. -/
theorem bytes32_limbs (hash : B256) :
    Validator.bytes32 (Validator.wordOf hash >>> 128) = (splitLimbs hash).1 ∧
      Validator.bytes32 (Validator.wordOf hash &&& Validator.uint128Max) =
        (splitLimbs hash).2 := by
  have hword : (Validator.wordOf hash).toNat = hash.toNat := Nat.mod_eq_of_lt hash.toNat_lt
  have hmask : Validator.uint128Max.toNat = 2 ^ 128 - 1 := rfl
  obtain ⟨hhi, hlo⟩ := splitLimbs_eq_div_mod hash
  constructor
  · apply FixedBytes.toNat_injective
    rw [toNat_bytes32, BitVec.toNat_ushiftRight, hword, hhi, Nat.shiftRight_eq_div_pow]
  · apply FixedBytes.toNat_injective
    rw [toNat_bytes32, BitVec.toNat_and, hword, hlo, hmask, Nat.and_two_pow_sub_one_eq_mod]

/-- The SDK's limbs are numbers, of the same value. -/
theorem limbs_bytes (hash : B256) :
    Sdk.limbs hash.bytes = some ((splitLimbs hash).1.toNat, (splitLimbs hash).2.toNat) := by
  obtain ⟨hhi, hlo⟩ := toNat_splitLimbs hash
  rw [Sdk.limbs_eq hash.length_eq, hhi, hlo]

/-- The field element of a public input. -/
def fieldOf (input : B256) : Circuit.Field := (input.toNat : Circuit.Field)

/-- The circuit gets the hash back from its limbs. -/
theorem bytes32FromLimbs_splitLimbs (hash : B256) :
    bytes32FromLimbs (fieldOf (splitLimbs hash).1) (fieldOf (splitLimbs hash).2) =
      some hash.bytes := by
  obtain ⟨hhi, hlo⟩ := toNat_splitLimbs hash
  rw [bytes32FromLimbs_eq_some, limbsFromBytes32_eq, fieldOf, fieldOf, hhi, hlo]

variable {s : VeraKeyAccount} {v : VeraKeyValidator} {sha256 : Bytes → B256} {json : Bytes}
  {nullifier : B256}

/-- A vector of the account comes from one digest, one relying party, one app and one
nullifier. -/
theorem VeraKeyAccount.publicInputs_inj {s s' : VeraKeyAccount}
    {digest digest' nullifier nullifier' : B256}
    (heq : s.publicInputs digest nullifier = s'.publicInputs digest' nullifier') :
    digest = digest' ∧ s.rpIdHash = s'.rpIdHash ∧ s.appId = s'.appId ∧
      nullifier = nullifier' := by
  unfold publicInputs at heq
  simp only [List.cons.injEq, and_true] at heq
  obtain ⟨hcdhHi, hcdhLo, hrpHi, hrpLo, happId, hnullifier⟩ := heq
  exact ⟨splitLimbs_inj (Prod.ext hcdhHi hcdhLo), splitLimbs_inj (Prod.ext hrpHi hrpLo),
    happId, hnullifier⟩

theorem expectedInputs_eq :
    Sdk.expectedInputs sha256 json s.rpIdHash.bytes s.appId.toNat nullifier.toNat =
      some ((s.publicInputs (sha256 json) nullifier).map fun input =>
        Sdk.bytesToHex input.bytes) := by
  rw [Sdk.expectedInputs, limbs_bytes, limbs_bytes]
  simp only [Option.bind_eq_bind, Option.bind_some, Option.pure_def, List.map_cons,
    List.map_nil, Sdk.toFieldHex_toNat, VeraKeyAccount.publicInputs]

/-- The names the prover gives its inputs put them in the circuit's order. -/
theorem toList_provedInputs :
    (Sdk.provedInputs sha256 json s.rpIdHash.bytes s.appId.toNat nullifier.toNat).map
        PublicInputs.toList =
      Sdk.expectedInputs sha256 json s.rpIdHash.bytes s.appId.toNat nullifier.toNat := by
  rw [Sdk.provedInputs, Sdk.expectedInputs, limbs_bytes, limbs_bytes]
  rfl

/-- One vector everywhere: canonical, in the circuit's order, read back by the circuit,
and different for different approvals. -/
theorem public_inputs_agree (sha256 : Bytes → B256) (json : Bytes)
    (hrpId : v.rpIdHash = s.rpIdHash) (happId : isFieldElement s.appId = true)
    (hnullifier : isFieldElement nullifier = true) :
    v.publicInputs sha256 json s.appId nullifier = s.publicInputs (sha256 json) nullifier ∧
    (Sdk.provedInputs sha256 json s.rpIdHash.bytes s.appId.toNat nullifier.toNat).map
        PublicInputs.toList =
      some ((s.publicInputs (sha256 json) nullifier).map fun input =>
        Sdk.bytesToHex input.bytes) ∧
    Sdk.expectedInputs sha256 json s.rpIdHash.bytes s.appId.toNat nullifier.toNat =
      some ((s.publicInputs (sha256 json) nullifier).map fun input =>
        Sdk.bytesToHex input.bytes) ∧
    (∀ input ∈ s.publicInputs (sha256 json) nullifier, isFieldElement input = true) ∧
    (∃ cdhHi cdhLo rpHi rpLo,
      s.publicInputs (sha256 json) nullifier = [cdhHi, cdhLo, rpHi, rpLo, s.appId, nullifier] ∧
      bytes32FromLimbs (fieldOf cdhHi) (fieldOf cdhLo) = some (sha256 json).bytes ∧
      bytes32FromLimbs (fieldOf rpHi) (fieldOf rpLo) = some s.rpIdHash.bytes) ∧
    (∀ (b : B256) (hi lo : Circuit.Field),
      bytes32FromLimbs hi lo = some b.bytes ↔ limbsFromBytes32 b = (hi, lo)) ∧
    (∀ (s' : VeraKeyAccount) (digest' nullifier' : B256),
      s'.publicInputs digest' nullifier' = s.publicInputs (sha256 json) nullifier →
      digest' = sha256 json ∧ s'.rpIdHash = s.rpIdHash ∧ s'.appId = s.appId ∧
        nullifier' = nullifier) := by
  obtain ⟨hshift, hmask⟩ := bytes32_limbs (sha256 json)
  obtain ⟨hrpShift, hrpMask⟩ := bytes32_limbs s.rpIdHash
  refine ⟨?_, ?_, ?_, ?_, ?_, ?_, ?_⟩
  · rw [VeraKeyValidator.publicInputs, hrpId, hshift, hmask, hrpShift, hrpMask]
    rfl
  · rw [toList_provedInputs, expectedInputs_eq]
  · exact expectedInputs_eq
  · obtain ⟨hhi, hlo⟩ := isFieldElement_splitLimbs (sha256 json)
    obtain ⟨hrpHi, hrpLo⟩ := isFieldElement_splitLimbs s.rpIdHash
    simp [VeraKeyAccount.publicInputs, hhi, hlo, hrpHi, hrpLo, happId, hnullifier]
  · exact ⟨_, _, _, _, rfl, bytes32FromLimbs_splitLimbs _, bytes32FromLimbs_splitLimbs _⟩
  · intro b hi lo
    exact bytes32FromLimbs_eq_some
  · intro s' digest' nullifier' heq
    exact VeraKeyAccount.publicInputs_inj heq

namespace EmptyJson

/-- The digest of the empty byte string. -/
def digest : B256 :=
  .ofNat 32 0xe3b0c44298fc1c149afbf4c8996fb92427ae41e4649b934ca495991b7852b855

def account : VeraKeyAccount :=
  { VeraKeyAccount.fresh with rpIdHash := .ofNat 32 9, appId := .ofNat 32 5 }

def validator : VeraKeyValidator := ⟨.ofNat 20 7, .ofNat 32 9, .ofNat 32 1, 19⟩

theorem public_inputs_agree_sample :
    validator.publicInputs (fun _ => digest) [] (.ofNat 32 5) (.ofNat 32 6) =
      account.publicInputs digest (.ofNat 32 6) := by
  have hrpId : validator.rpIdHash = account.rpIdHash := rfl
  have happId : isFieldElement account.appId = true := by decide
  have hnullifier : isFieldElement (.ofNat 32 6) = true := by decide
  exact (public_inputs_agree (fun _ => digest) [] hrpId happId hnullifier).1

end EmptyJson

end VeraKey
