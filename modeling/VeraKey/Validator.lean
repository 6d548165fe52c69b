/-
The ERC-7579 validator contract: what its constructor fixes, what accounts install, its
check of the client data with its own base64url encoder, the public inputs it hands to the
verifier, and its two entry points.
-/
import VeraKey.EvmMemory
import VeraKey.Field
import VeraKey.Guard

namespace VeraKey

open ByteCodec Evm Guard

namespace Validator

def maxClientDataLength : ℕ := 1024
def maxOriginLength : ℕ := 128

/-- `{"type":"webauthn.get","challeng`, then `e":"`. -/
def typeAndChallengeKeyHead : Word :=
  bytesN 32 (ascii "\x7b\"type\":\"webauthn.get\",\"challeng")

def typeAndChallengeKeyTail : Word := bytesN 4 (ascii "e\":\"")

def originKey : Word := bytesN 12 (ascii "\",\"origin\":\"")

def crossOriginTrue : Word := bytesN 19 (ascii ",\"crossOrigin\":true")

def originStart : ℕ := 91

/-- The type hash of `VeraKeyERC1271`, hashed by the compiler. -/
def erc1271Type : Bytes :=
  ascii "VeraKeyERC1271(uint256 chainId,address account,bytes32 hash)"

/-- A 32-byte value as a word. -/
def wordOf (value : B256) : Word := BitVec.ofNat 256 value.toNat

/-- A word as a 32-byte value. -/
def bytes32 (word : Word) : B256 := .ofNat 32 word.toNat

/-- `type(uint128).max`. -/
def uint128Max : Word := BitVec.ofNat 256 (2 ^ 128 - 1)

inductive ValidatorError
  | invalidVerifier
  | invalidOrigin
deriving DecidableEq

inductive ModuleError
  | alreadyInitialized (smartAccount : Address)
  | invalidConfig
deriving DecidableEq

/-- What an account installed; zero when it installed nothing. -/
structure Config where
  appId : B256
  nullifier : B256
deriving DecidableEq

/-- `_configs`. -/
abbrev Configs : Type := Address → Config

/-- Checked subtraction, which reverts below zero. -/
def checkedSub (left right : ℕ) : Option ℕ := if right ≤ left then some (left - right) else none

/-- Checked addition, which reverts beyond a word. -/
def checkedAdd (left right : ℕ) : Option ℕ :=
  if left + right < 2 ^ 256 then some (left + right) else none

/-- `onInstall`, called by `account`. -/
def onInstall (configs : Configs) (account : Address) (data : Bytes) :
    Except ModuleError Configs := do
  rejectIf ((configs account).nullifier ≠ 0) (.alreadyInitialized account)
  rejectIf (data.length ≠ 64) .invalidConfig
  let appId := .ofNat 32 (beNat (data.take 32))
  let nullifier := .ofNat 32 (beNat (data.drop 32))
  rejectIf (bn254R ≤ appId.toNat ∨ bn254R ≤ nullifier.toNat ∨ nullifier = 0) .invalidConfig
  return Function.update configs account ⟨appId, nullifier⟩

/-- `onUninstall`, called by `account`. -/
def onUninstall (configs : Configs) (account : Address) : Configs :=
  Function.update configs account ⟨0, 0⟩

/-- The `bytes` whose length word sits at `offset`, if they lie inside `data`. -/
def dynamicBytes (data : Bytes) (offset : ℕ) : Option (Bool × Bytes) := do
  if offset > (← checkedSub data.length 32) then return (false, ← slice data 0 0)
  let start ← checkedAdd offset 32
  let length := (bytesN 32 (← slice data offset start)).toNat
  if length > (← checkedSub data.length start) then return (false, ← slice data 0 0)
  return (true, ← slice data start (← checkedAdd start length))

/-- Decodes `abi.encode(bytes proof, bytes clientDataJSON)`. -/
def decodeSignature (signature : Bytes) : Option (Bool × Bytes × Bytes) := do
  if signature.length < 64 then
    return (false, ← slice signature 0 0, ← slice signature 0 0)
  let (proofOk, proof) ←
    dynamicBytes signature (bytesN 32 (← slice signature 0 32)).toNat
  let (clientDataOk, clientDataJson) ←
    dynamicBytes signature (bytesN 32 (← slice signature 32 64)).toNat
  return (proofOk && clientDataOk, proof, clientDataJson)

def validationSuccess : ℕ := 0
def sigValidationFailed : ℕ := 1
def erc1271MagicValue : ℕ := 0x1626ba7e
def erc1271Invalid : ℕ := 0xffffffff

/-- The bytes of an argument; their length is a word. -/
structure CallData where
  bytes : Bytes
  length_lt : bytes.length < 2 ^ 256

/-- The fields of a user operation that the validator reads. -/
structure PackedUserOperation where
  sender : Address
  signature : CallData

/-- What a call sees of the chain.  The verifier answers, or its call reverts. -/
structure Env where
  keccak : Bytes → B256
  sha256 : Bytes → B256
  chainId : U256
  memory : Memory
  verify : Address → (proof : Bytes) → (publicInputs : List B256) → Option Bool

end Validator

/-- What the constructor fixes for good. -/
structure VeraKeyValidator where
  verifier : Address
  rpIdHash : B256
  originHash : B256
  originLength : ℕ

namespace VeraKeyValidator

open Validator

/-- The contract's constructor; `hasCode` says whether the verifier has code. -/
def deploy (keccak : Bytes → B256) (hasCode : Bool) (verifier : Address)
    (rpIdHash : B256) (origin : Bytes) : Except ValidatorError VeraKeyValidator :=
  if ¬ hasCode then .error .invalidVerifier
  else if origin.length = 0 ∨ origin.length > maxOriginLength then .error .invalidOrigin
  else .ok {
    verifier := verifier
    rpIdHash := rpIdHash
    originHash := keccak origin
    originLength := origin.length }

/-- Unpadded base64url of 32 bytes, as the first 32 characters and the last 11.  The
alphabet and the output stand in memory from the free memory pointer on. -/
def base64Url (memory : Memory) (value : Word) : Word × Word :=
  let table := (mload memory 0x40).toNat
  let m := mstore memory table (ofBytes (ascii "ABCDEFGHIJKLMNOPQRSTUVWXYZabcdef"))
  let m := mstore m (table + 0x20) (ofBytes (ascii "ghijklmnopqrstuvwxyz0123456789-_"))
  let out := table + 0x40
  -- characters 0..41 hold the first 252 bits, six at a time
  let m := fill out (fun m i =>
    let sextet := value >>> (250 - 6 * i) &&& 0x3f
    byte 0 (mload m (table + sextet.toNat))) 42 m
  let m := mstore8 m (out + 42) (byte 0 (mload m (table + ((value &&& 0x0f) <<< 2).toNat)))
  (mload m out, mload m (out + 0x20) &&& (~~~0 : Word) <<< 168)

/-- `_checkClientData`; a slice that points outside the client data reverts. -/
def checkClientData (v : VeraKeyValidator) (keccak : Bytes → B256) (memory : Memory)
    (clientDataJson : Bytes) (challenge : B256) : Option Bool := do
  let length := clientDataJson.length
  let quote := originStart + v.originLength
  if length > maxClientDataLength ∨ length < quote + 2 then return false
  if bytesN 32 (← slice clientDataJson 0 32) ≠ typeAndChallengeKeyHead then return false
  if bytesN 4 (← slice clientDataJson 32 36) ≠ typeAndChallengeKeyTail then return false
  let (challengeHead, challengeTail) := base64Url memory (wordOf challenge)
  if bytesN 32 (← slice clientDataJson 36 68) ≠ challengeHead then return false
  if bytesN 11 (← slice clientDataJson 68 79) ≠ challengeTail then return false
  if bytesN 12 (← slice clientDataJson 79 originStart) ≠ originKey then return false
  if keccak (← slice clientDataJson originStart quote) ≠ v.originHash then return false
  if (← clientDataJson[quote]?) ≠ 0x22 then return false
  let next ← clientDataJson[quote + 1]?
  if next = 0x7d then return true
  if next ≠ 0x2c then return false
  let rest := quote + 1
  if length < rest + 19 then return true
  return bytesN 19 (← slice clientDataJson rest (rest + 19)) ≠ crossOriginTrue

/-- `_publicInputs`: the proof's public inputs, in order. -/
def publicInputs (v : VeraKeyValidator) (sha256 : Bytes → B256) (clientDataJson : Bytes)
    (appId nullifier : B256) : List B256 :=
  let clientDataHash := wordOf (sha256 clientDataJson)
  let rpId := wordOf v.rpIdHash
  [bytes32 (clientDataHash >>> 128), bytes32 (clientDataHash &&& uint128Max),
    bytes32 (rpId >>> 128), bytes32 (rpId &&& uint128Max), appId, nullifier]

/-- The words of `abi.encode(ERC1271_TYPEHASH, block.chainid, account, hash)`. -/
def erc1271Words (keccak : Bytes → B256) (chainId : U256) (account : Address)
    (hash : B256) : List Bytes :=
  [(keccak erc1271Type).bytes, chainId.toBeBytes, addressWord account, hash.bytes]

def erc1271Preimage (keccak : Bytes → B256) (chainId : U256) (account : Address)
    (hash : B256) : Bytes :=
  (erc1271Words keccak chainId account hash).flatten

/-- The challenge that authorizes `hash` for `account` on this chain. -/
def erc1271Challenge (keccak : Bytes → B256) (chainId : U256) (account : Address)
    (hash : B256) : B256 :=
  keccak (erc1271Preimage keccak chainId account hash)

variable (v : VeraKeyValidator) (env : Env) (configs : Configs)

/-- `_isValid`. -/
def isValid (account : Address) (challenge : B256) (signature : CallData) : Option Bool := do
  let config := configs account
  if config.nullifier = 0 then return false
  let (decoded, proof, clientDataJson) ← decodeSignature signature.bytes
  if ¬ decoded then return false
  if ¬ (← v.checkClientData env.keccak env.memory clientDataJson challenge) then return false
  let publicInputs := v.publicInputs env.sha256 clientDataJson config.appId config.nullifier
  match env.verify v.verifier proof publicInputs with
  | some verified => return verified
  | none => return false

/-- `validateUserOp`, called by `msgSender`. -/
def validateUserOp (msgSender : Address) (userOp : PackedUserOperation) (userOpHash : B256) :
    Option ℕ := do
  if userOp.sender ≠ msgSender then return sigValidationFailed
  let valid ← v.isValid env configs msgSender userOpHash userOp.signature
  return if valid then validationSuccess else sigValidationFailed

/-- `isValidSignatureWithSender`, called by `msgSender`. -/
def isValidSignatureWithSender (msgSender : Address) (hash : B256) (data : CallData) :
    Option ℕ := do
  let challenge := erc1271Challenge env.keccak env.chainId msgSender hash
  let valid ← v.isValid env configs msgSender challenge data
  return if valid then erc1271MagicValue else erc1271Invalid

end VeraKeyValidator

end VeraKey
