/-
The nullifier's preimage: the SDK, the prover and the circuit split a passkey's key and PRF
secret into the same eight field elements, and no two inputs have the same ones.
-/
import VeraKey.PublicInputs
import VeraKey.SdkText

namespace VeraKey

open ByteCodec TextCodec

/-! ## The circuit -/

namespace Circuit

/-- "VERAKEY_NULLIFIER_V1" as a big-endian field element. -/
def nullifierDomain : Field := 0x564552414b45595f4e554c4c49464945525f5631

/-- What `compute_nullifier` hashes. -/
def nullifierPreimage (pubKeyX pubKeyY : B256) (prfSecretHi prfSecretLo appId : Field) :
    List Field :=
  let (xHi, xLo) := limbsFromBytes32 pubKeyX
  let (yHi, yLo) := limbsFromBytes32 pubKeyY
  [nullifierDomain, xHi, xLo, yHi, yLo, prfSecretHi, prfSecretLo, appId]

end Circuit

namespace Sdk

/-- The proving libraries: how they read field elements, and their Poseidon2. -/
structure ProofLibraries where
  /-- A text among the prover's inputs. -/
  ofText : Bytes → Option Circuit.Field
  /-- A buffer that is hashed. -/
  ofBytes : Bytes → Circuit.Field
  poseidon2 : List Circuit.Field → Circuit.Field
  ofText_toFieldHex : ∀ value < bn254R, ofText (toFieldHex value) = some (value : Circuit.Field)
  ofBytes_beBytes : ∀ value < bn254R, ofBytes (beBytes 32 value) = (value : Circuit.Field)

/-- `poseidon2Hash` of Barretenberg. -/
def ProofLibraries.poseidon2Hash (libraries : ProofLibraries) (inputs : List Bytes) : Bytes :=
  beBytes 32 (libraries.poseidon2 (inputs.map libraries.ofBytes)).val

def nullifierDomain : ℕ := 0x564552414b45595f4e554c4c49464945525f5631

structure PasskeyPublicKey where
  x : Bytes
  y : Bytes

def bigintToBytes32 (value : ℕ) : Option Bytes := do
  if 2 ^ 256 ≤ value then failure
  hexToBytes (ascii "0x" ++ padStart 64 48 (hexNumber value))

/-- What `computeNullifier` hashes. -/
def nullifierInputs (publicKey : PasskeyPublicKey) (prfSecret : Bytes) (appId : ℕ) :
    Option (List Bytes) := do
  if prfSecret.length ≠ 32 then failure
  let (xHi, xLo) ← limbs publicKey.x
  let (yHi, yLo) ← limbs publicKey.y
  let (sHi, sLo) ← limbs prfSecret
  [nullifierDomain, xHi, xLo, yHi, yLo, sHi, sLo, appId].mapM bigintToBytes32

def computeNullifier (libraries : ProofLibraries) (publicKey : PasskeyPublicKey)
    (prfSecret : Bytes) (appId : ℕ) : Option ℕ := do
  bytesToBigint (libraries.poseidon2Hash (← nullifierInputs publicKey prfSecret appId))

/-- The private inputs of `prove` that reach the nullifier, and the app id. -/
structure KeyWitness where
  pubKeyX : Bytes
  pubKeyY : Bytes
  prfSecretHi : Bytes
  prfSecretLo : Bytes
  appId : Bytes

def provedKey (publicKey : PasskeyPublicKey) (prfSecret : Bytes) (appId : ℕ) :
    Option KeyWitness := do
  let (sHi, sLo) ← limbs prfSecret
  return {
    pubKeyX := publicKey.x
    pubKeyY := publicKey.y
    prfSecretHi := toFieldHex sHi
    prfSecretLo := toFieldHex sLo
    appId := toFieldHex appId }

/-- What the circuit hashes when it runs on these inputs. -/
def KeyWitness.preimage (libraries : ProofLibraries) (witness : KeyWitness) :
    Option (List Circuit.Field) := do
  let x ← FixedBytes.ofSlice? 32 witness.pubKeyX
  let y ← FixedBytes.ofSlice? 32 witness.pubKeyY
  return Circuit.nullifierPreimage x y (← libraries.ofText witness.prfSecretHi)
    (← libraries.ofText witness.prfSecretLo) (← libraries.ofText witness.appId)

/-! ## One preimage -/

theorem bigintToBytes32_eq {value : ℕ} (hvalue : value < 2 ^ 256) :
    bigintToBytes32 value = some (beBytes 32 value) := by
  have hpad : padStart 64 48 (hexNumber value) = hexText (beBytes 32 value) := by
    rw [hexText_beBytes, ← padStart_hexNumber (by decide) hvalue]
    rfl
  have hlength : (hexText (beBytes 32 value)).length = 64 := by
    rw [length_hexText, length_beBytes]
  have hdrop : (ascii "0x" ++ hexText (beBytes 32 value)).drop 2 = hexText (beBytes 32 value) :=
    List.drop_left' rfl
  have hnat : hexNat (hexText (beBytes 32 value)) = some value := by
    rw [hexNat_hexText, beNat_beBytes hvalue]
  rw [bigintToBytes32, if_neg (Nat.not_le.mpr hvalue), hpad, hexToBytes, hdrop]
  simp [hlength, hnat]

/-- The numbers of a preimage. -/
def preimageNumbers (x y secret : B256) (appId : ℕ) : List ℕ :=
  [nullifierDomain, (splitLimbs x).1.toNat, (splitLimbs x).2.toNat, (splitLimbs y).1.toNat,
    (splitLimbs y).2.toNat, (splitLimbs secret).1.toNat, (splitLimbs secret).2.toNat, appId]

variable {x y secret x' y' secret' : B256} {appId appId' : ℕ}

theorem preimageNumbers_lt (happId : appId < bn254R) :
    ∀ value ∈ preimageNumbers x y secret appId, value < bn254R := by
  have hlimbs : ∀ hash : B256, (splitLimbs hash).1.toNat < bn254R ∧
      (splitLimbs hash).2.toNat < bn254R := by
    intro hash
    obtain ⟨hhi, hlo⟩ := isFieldElement_splitLimbs hash
    exact ⟨of_decide_eq_true hhi, of_decide_eq_true hlo⟩
  have hdomain : nullifierDomain < bn254R := by decide
  obtain ⟨hxHi, hxLo⟩ := hlimbs x
  obtain ⟨hyHi, hyLo⟩ := hlimbs y
  obtain ⟨hsHi, hsLo⟩ := hlimbs secret
  intro value hvalue
  simp only [preimageNumbers, List.mem_cons, List.not_mem_nil, or_false] at hvalue
  rcases hvalue with rfl | rfl | rfl | rfl | rfl | rfl | rfl | rfl <;> assumption

theorem preimageNumbers_inj
    (heq : preimageNumbers x y secret appId = preimageNumbers x' y' secret' appId') :
    x = x' ∧ y = y' ∧ secret = secret' ∧ appId = appId' := by
  simp only [preimageNumbers, List.cons.injEq, and_true, true_and] at heq
  obtain ⟨hxHi, hxLo, hyHi, hyLo, hsHi, hsLo, happId⟩ := heq
  have hinj : ∀ {left right : B256}, (splitLimbs left).1.toNat = (splitLimbs right).1.toNat →
      (splitLimbs left).2.toNat = (splitLimbs right).2.toNat → left = right := by
    intro left right hhi hlo
    exact splitLimbs_inj (Prod.ext (FixedBytes.toNat_injective hhi)
      (FixedBytes.toNat_injective hlo))
  exact ⟨hinj hxHi hxLo, hinj hyHi hyLo, hinj hsHi hsLo, happId⟩

theorem nullifierInputs_eq (happId : appId < bn254R) :
    nullifierInputs ⟨x.bytes, y.bytes⟩ secret.bytes appId =
      some ((preimageNumbers x y secret appId).map (beBytes 32)) := by
  have hmapM : ∀ values : List ℕ, (∀ value ∈ values, value < bn254R) →
      values.mapM bigintToBytes32 = some (values.map (beBytes 32)) := by
    intro values hvalues
    induction values with
    | nil => rfl
    | cons value values ih =>
        have hmodulus : bn254R < 2 ^ 256 := by decide
        have hvalue := (hvalues value List.mem_cons_self).trans hmodulus
        rw [List.mapM_cons, bigintToBytes32_eq hvalue,
          ih fun v hv => hvalues v (List.mem_cons_of_mem value hv)]
        rfl
  rw [← hmapM _ (preimageNumbers_lt happId), nullifierInputs,
    if_neg (not_not.mpr secret.length_eq), limbs_bytes, limbs_bytes, limbs_bytes]
  rfl

theorem preimage_provedKey (libraries : ProofLibraries) (happId : appId < bn254R) :
    (provedKey ⟨x.bytes, y.bytes⟩ secret.bytes appId).bind (KeyWitness.preimage libraries) =
      some ((preimageNumbers x y secret appId).map fun value : ℕ => (value : Circuit.Field)) := by
  obtain ⟨hsHi, hsLo⟩ := isFieldElement_splitLimbs secret
  obtain ⟨hxHi, hxLo⟩ := toNat_splitLimbs x
  obtain ⟨hyHi, hyLo⟩ := toNat_splitLimbs y
  rw [provedKey, limbs_bytes]
  simp only [Option.bind_eq_bind, Option.bind_some, Option.pure_def, KeyWitness.preimage,
    FixedBytes.ofSlice?_bytes, libraries.ofText_toFieldHex _ (of_decide_eq_true hsHi),
    libraries.ofText_toFieldHex _ (of_decide_eq_true hsLo),
    libraries.ofText_toFieldHex _ happId, Circuit.nullifierPreimage,
    Circuit.limbsFromBytes32_eq, preimageNumbers, List.map_cons, List.map_nil, hxHi, hxLo, hyHi,
    hyLo]
  rfl

/-- The field elements that `computeNullifier` hashes. -/
def hashedElements (libraries : ProofLibraries) (publicKey : PasskeyPublicKey)
    (prfSecret : Bytes) (appId : ℕ) : Option (List Circuit.Field) :=
  (nullifierInputs publicKey prfSecret appId).map (List.map libraries.ofBytes)

theorem hashedElements_eq (libraries : ProofLibraries) (happId : appId < bn254R) :
    hashedElements libraries ⟨x.bytes, y.bytes⟩ secret.bytes appId =
      some ((preimageNumbers x y secret appId).map fun value : ℕ => (value : Circuit.Field)) := by
  rw [hashedElements, nullifierInputs_eq happId, Option.map_some, List.map_map]
  congr 1
  apply List.map_congr_left
  intro value hvalue
  exact libraries.ofBytes_beBytes value (preimageNumbers_lt happId value hvalue)

theorem hashedElements_inj (libraries : ProofLibraries) (happId : appId < bn254R)
    (happId' : appId' < bn254R)
    (heq : hashedElements libraries ⟨x.bytes, y.bytes⟩ secret.bytes appId =
      hashedElements libraries ⟨x'.bytes, y'.bytes⟩ secret'.bytes appId') :
    x = x' ∧ y = y' ∧ secret = secret' ∧ appId = appId' := by
  rw [hashedElements_eq libraries happId, hashedElements_eq libraries happId'] at heq
  apply preimageNumbers_inj
  -- canonical numbers are determined by their field elements
  have hvals : ∀ values : List ℕ, (∀ value ∈ values, value < bn254R) →
      (values.map fun value : ℕ => (value : Circuit.Field)).map ZMod.val = values := by
    intro values hvalues
    rw [List.map_map]
    nth_rewrite 2 [← List.map_id values]
    apply List.map_congr_left
    intro value hvalue
    exact ZMod.val_natCast_of_lt (hvalues value hvalue)
  rw [← hvals _ (preimageNumbers_lt happId), Option.some.inj heq,
    hvals _ (preimageNumbers_lt happId')]

theorem computeNullifier_eq (libraries : ProofLibraries) {elements : List Circuit.Field}
    (helements : hashedElements libraries ⟨x.bytes, y.bytes⟩ secret.bytes appId = some elements) :
    computeNullifier libraries ⟨x.bytes, y.bytes⟩ secret.bytes appId =
      some (libraries.poseidon2 elements).val := by
  obtain ⟨inputs, hinputs, rfl⟩ := Option.map_eq_some_iff.mp helements
  have hmodulus : bn254R < 256 ^ 32 := by decide
  have hval := (ZMod.val_lt (libraries.poseidon2 (inputs.map libraries.ofBytes))).trans hmodulus
  rw [computeNullifier, hinputs]
  simp only [Option.bind_eq_bind, Option.bind_some, bytesToBigint_eq,
    ProofLibraries.poseidon2Hash, beNat_beBytes hval]

/-- The SDK and, on the prover's inputs, the circuit hash the same eight canonical field
elements, which determine the passkey, the secret and the app; so two of these with one
nullifier would be a collision. -/
theorem nullifier_preimages_agree (libraries : ProofLibraries) :
    (∀ (x y secret : B256) (appId : ℕ), appId < bn254R → ∃ inputs elements,
      nullifierInputs ⟨x.bytes, y.bytes⟩ secret.bytes appId = some inputs ∧
      inputs.length = 8 ∧ (∀ input ∈ inputs, input.length = 32 ∧ beNat input < bn254R) ∧
      inputs.map libraries.ofBytes = elements ∧
      (provedKey ⟨x.bytes, y.bytes⟩ secret.bytes appId).bind (KeyWitness.preimage libraries) =
        some elements ∧
      computeNullifier libraries ⟨x.bytes, y.bytes⟩ secret.bytes appId =
        some (libraries.poseidon2 elements).val) ∧
    ∀ (x y secret x' y' secret' : B256) (appId appId' : ℕ), appId < bn254R → appId' < bn254R →
      (hashedElements libraries ⟨x.bytes, y.bytes⟩ secret.bytes appId =
          hashedElements libraries ⟨x'.bytes, y'.bytes⟩ secret'.bytes appId' →
        x = x' ∧ y = y' ∧ secret = secret' ∧ appId = appId') ∧
      (computeNullifier libraries ⟨x.bytes, y.bytes⟩ secret.bytes appId =
          computeNullifier libraries ⟨x'.bytes, y'.bytes⟩ secret'.bytes appId' →
        (x = x' ∧ y = y' ∧ secret = secret' ∧ appId = appId') ∨
        ∃ elements elements',
          hashedElements libraries ⟨x.bytes, y.bytes⟩ secret.bytes appId = some elements ∧
          hashedElements libraries ⟨x'.bytes, y'.bytes⟩ secret'.bytes appId' =
            some elements' ∧
          elements ≠ elements' ∧
          libraries.poseidon2 elements = libraries.poseidon2 elements') := by
  constructor
  · intro x y secret appId happId
    have helements := @hashedElements_eq x y secret appId libraries happId
    have hinputs := @nullifierInputs_eq x y secret appId happId
    refine ⟨_, _, hinputs, rfl, ?_, ?_, preimage_provedKey libraries happId,
      computeNullifier_eq libraries helements⟩
    · intro input hinput
      obtain ⟨value, hvalue, rfl⟩ := List.mem_map.mp hinput
      have hlt := preimageNumbers_lt happId value hvalue
      have hmodulus : bn254R < 256 ^ 32 := by decide
      rw [beNat_beBytes (hlt.trans hmodulus)]
      exact ⟨length_beBytes 32 value, hlt⟩
    · rw [hashedElements, hinputs, Option.map_some] at helements
      exact Option.some.inj helements
  · intro x y secret x' y' secret' appId appId' happId happId'
    refine ⟨hashedElements_inj libraries happId happId', ?_⟩
    intro hnullifier
    have helements := @hashedElements_eq x y secret appId libraries happId
    have helements' := @hashedElements_eq x' y' secret' appId' libraries happId'
    have hvalue := computeNullifier_eq libraries helements
    have hvalue' := computeNullifier_eq libraries helements'
    have hhash := Option.some.inj (hvalue.symm.trans (hnullifier.trans hvalue'))
    by_cases hsame : hashedElements libraries ⟨x.bytes, y.bytes⟩ secret.bytes appId =
        hashedElements libraries ⟨x'.bytes, y'.bytes⟩ secret'.bytes appId'
    · exact Or.inl (hashedElements_inj libraries happId happId' hsame)
    · refine Or.inr ⟨_, _, helements, helements', ?_, ZMod.val_injective _ hhash⟩
      intro heq
      rw [helements, helements', heq] at hsame
      exact hsame rfl

theorem bigInt_toFieldHex {value : ℕ} (hvalue : value < 256 ^ 32) :
    bigInt (toFieldHex value) = some value := by
  have hnumber : (FixedBytes.ofNat 32 value).toNat = value := beNat_beBytes hvalue
  have htext := toFieldHex_toNat (FixedBytes.ofNat 32 value)
  have hnonempty : (FixedBytes.ofNat 32 value).bytes ≠ [] := by
    intro hnil
    have hlength := (FixedBytes.ofNat 32 value).length_eq
    rw [hnil, List.length_nil] at hlength
    exact absurd hlength (by decide)
  rw [hnumber] at htext
  rw [htext, bigInt_bytesToHex hnonempty]
  exact congrArg some hnumber

/-- Libraries that read big-endian numbers, with any hash. -/
def ProofLibraries.ofPoseidon2 (poseidon2 : List Circuit.Field → Circuit.Field) :
    ProofLibraries where
  ofText := fun text => (bigInt text).map fun value : ℕ => (value : Circuit.Field)
  ofBytes := fun bytes => (beNat bytes : Circuit.Field)
  poseidon2 := poseidon2
  ofText_toFieldHex := by
    intro value hvalue
    have hmodulus : bn254R < 256 ^ 32 := by decide
    rw [bigInt_toFieldHex (hvalue.trans hmodulus), Option.map_some]
  ofBytes_beBytes := by
    intro value hvalue
    have hmodulus : bn254R < 256 ^ 32 := by decide
    rw [beNat_beBytes (hvalue.trans hmodulus)]

theorem nullifier_preimages_agree_sample :
    ∃ inputs elements,
      nullifierInputs ⟨(.ofNat 32 7 : B256).bytes, (.ofNat 32 8 : B256).bytes⟩
        (.ofNat 32 9 : B256).bytes 5 = some inputs ∧
      inputs.length = 8 ∧ (∀ input ∈ inputs, input.length = 32 ∧ beNat input < bn254R) ∧
      inputs.map (ProofLibraries.ofPoseidon2 List.sum).ofBytes = elements ∧
      (provedKey ⟨(.ofNat 32 7 : B256).bytes, (.ofNat 32 8 : B256).bytes⟩
        (.ofNat 32 9 : B256).bytes 5).bind
          (KeyWitness.preimage (ProofLibraries.ofPoseidon2 List.sum)) = some elements ∧
      computeNullifier (ProofLibraries.ofPoseidon2 List.sum)
        ⟨(.ofNat 32 7 : B256).bytes, (.ofNat 32 8 : B256).bytes⟩ (.ofNat 32 9 : B256).bytes 5 =
          some ((ProofLibraries.ofPoseidon2 List.sum).poseidon2 elements).val :=
  (nullifier_preimages_agree (ProofLibraries.ofPoseidon2 List.sum)).1 (.ofNat 32 7) (.ofNat 32 8)
    (.ofNat 32 9) 5 (by decide)

end Sdk

end VeraKey
