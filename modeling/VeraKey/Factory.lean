/-
The factory contract: its storage, its constructor, the address it derives for an
account, and the call that deploys and initializes one.
-/
import VeraKey.Clone
import VeraKey.Entry

namespace VeraKey

open ByteCodec Guard

inductive FactoryError
  | invalidConfig
  | invalidIdentifier
  | deploymentFailed
  | initializationFailed
deriving DecidableEq

/-- The arguments of the factory's constructor. -/
@[ext]
structure FactoryConfig where
  implementation : Address
  verifier : Address
  usdg : Address
  rpIdHash : B256
  origin : Bytes
  perTxCap : U256
  dailyCap : U256
  newPayeeCap : U256
  changeDelay : UInt64
  recoveryDelay : UInt64
  feeRecipient : Address
  maxFee : U256
deriving DecidableEq

namespace FactoryConfig

variable (c : FactoryConfig)

def policy : Config.Policy where
  perTxCap := c.perTxCap
  dailyCap := c.dailyCap
  newPayeeCap := c.newPayeeCap
  changeDelay := c.changeDelay
  recoveryDelay := c.recoveryDelay
  maxFee := c.maxFee
  originLen := c.origin.length

/-- The check of the constructor. -/
def valid : Bool :=
  c.implementation ≠ 0 && c.verifier ≠ 0 && c.usdg ≠ 0 && c.feeRecipient ≠ 0 &&
    Config.isValidPolicy c.policy

/-- `abi.encode` of the configuration, with the origin's hash for the origin. -/
def words (keccak : Bytes → B256) : List Bytes :=
  [addressWord c.implementation, addressWord c.verifier, addressWord c.usdg, c.rpIdHash.bytes,
    (keccak c.origin).bytes, c.perTxCap.toBeBytes, c.dailyCap.toBeBytes, c.newPayeeCap.toBeBytes,
    (U256.ofU64 c.changeDelay).toBeBytes, (U256.ofU64 c.recoveryDelay).toBeBytes,
    addressWord c.feeRecipient, c.maxFee.toBeBytes]

def encoded (keccak : Bytes → B256) : Bytes := (c.words keccak).flatten

theorem length_words (keccak : Bytes → B256) : ∀ text ∈ c.words keccak, text.length = 32 := by
  simp only [words, List.forall_mem_cons, length_addressWord, FixedBytes.length_bytes,
    U256.length_toBeBytes, true_and]
  exact fun _ htext => absurd htext List.not_mem_nil

/-- The encoding determines the configuration, up to the hash of its origin. -/
theorem encoded_inj {keccak : Bytes → B256} {c c' : FactoryConfig}
    (heq : c.encoded keccak = c'.encoded keccak) :
    c' = { c with origin := c'.origin } ∧ keccak c.origin = keccak c'.origin := by
  have hwords := flatten_inj (by decide : 0 < 32) (c.length_words keccak)
    (c'.length_words keccak) heq
  simp only [words, List.cons.injEq, and_true] at hwords
  obtain ⟨himplementation, hverifier, husdg, hrpId, horigin, hperTx, hdaily, hnewPayee, hchange,
    hrecovery, hrecipient, hmaxFee⟩ := hwords
  have hconfig : { c with origin := c'.origin } = c' :=
    FactoryConfig.ext (addressWord_inj himplementation) (addressWord_inj hverifier)
      (addressWord_inj husdg) (FixedBytes.ext hrpId) rfl (U256.toBeBytes_inj hperTx)
      (U256.toBeBytes_inj hdaily) (U256.toBeBytes_inj hnewPayee)
      (U256.ofU64_inj (U256.toBeBytes_inj hchange))
      (U256.ofU64_inj (U256.toBeBytes_inj hrecovery)) (addressWord_inj hrecipient)
      (U256.toBeBytes_inj hmaxFee)
  exact ⟨hconfig.symm, FixedBytes.ext horigin⟩

/-- The arguments of `initialize` for the account of a pair. -/
def configuration (appId nullifier : B256) : Configuration where
  appId := appId
  ownerNullifier := nullifier
  verifier := c.verifier
  usdg := c.usdg
  rpIdHash := c.rpIdHash
  origin := c.origin
  perTxCap := c.perTxCap
  dailyCap := c.dailyCap
  newPayeeCap := c.newPayeeCap
  changeDelay := c.changeDelay
  recoveryDelay := c.recoveryDelay
  feeRecipient := c.feeRecipient
  maxFee := c.maxFee

end FactoryConfig

/-- The factory's storage. -/
structure VeraKeyFactory extends FactoryConfig where
  configHash : B256

/-! ## Addresses -/

/-- The last 20 bytes of a hash. -/
def lowAddress (hash : B256) : Address :=
  ⟨hash.bytes.drop 12, by rw [List.length_drop, hash.length_eq]⟩

def accountSalt (keccak : Bytes → B256) (appId nullifier configHash : B256) : B256 :=
  keccak (Clone.saltPreimage appId nullifier configHash)

def create2Address (keccak : Bytes → B256) (deployer : Address) (salt : B256)
    (initCode : Bytes) : Address :=
  lowAddress (keccak (Clone.create2Preimage deployer salt (keccak initCode)))

namespace VeraKeyFactory

/-- What the constructor stores. -/
def configured (keccak : Bytes → B256) (c : FactoryConfig) : VeraKeyFactory :=
  { c with configHash := keccak (c.encoded keccak) }

def constructor (keccak : Bytes → B256) (c : FactoryConfig) :
    Except FactoryError VeraKeyFactory := do
  rejectIf (¬ c.valid) .invalidConfig
  return configured keccak c

/-- The counterfactual address of the account for `(appId, nullifier)`. -/
def accountAddress (keccak : Bytes → B256) (self : Address) (f : VeraKeyFactory)
    (appId nullifier : B256) : Address :=
  create2Address keccak self (accountSalt keccak appId nullifier f.configHash)
    (Clone.initCode f.implementation)

end VeraKeyFactory

end VeraKey
