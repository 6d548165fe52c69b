/-
The address of an account, derived by the factory and by the SDK, and the code the
relayer asks of an account.
-/
import VeraKey.Factory
import VeraKey.SdkText

namespace VeraKey

open ByteCodec TextCodec

namespace Sdk

/-! ## The SDK -/

/-- `concat` of hex texts. -/
def concatHex (texts : List Bytes) : Bytes := ascii "0x" ++ texts.flatMap (·.drop 2)

/-- `keccak256` of a hex text. -/
def keccak256 (keccak : Bytes → B256) (text : Bytes) : Option Bytes :=
  (hexToBytes text).map fun bytes => bytesToHex (keccak bytes).bytes

/-- The text of an address, in the checksum's case. -/
def addressText (keccak : Bytes → B256) (address : Address) : Bytes :=
  checksumAddress keccak (bytesToHex address.bytes)

/-- `getContractAddress` of a CREATE2 deployment. -/
def getCreate2Address (keccak : Bytes → B256) (deployer salt bytecode : Bytes) :
    Option Bytes := do
  guard (isAnyAddress deployer)
  let deployer ← hexToBytes deployer
  let salt ← hexToBytes salt
  let bytecode ← hexToBytes bytecode
  let hash := keccak (0xff :: deployer ++ salt ++ (keccak bytecode).bytes)
  return checksumAddress keccak (bytesToHex (hash.bytes.drop 12))

structure AccountDeployment where
  factory : Bytes
  accountImplementation : Bytes
  configHash : Bytes

def clonePrefix : Bytes := ascii "0x3d602d80600a3d3981f3363d3d373d3d3d363d73"

def cloneSuffix : Bytes := ascii "0x5af43d82803e903d91602b57fd5bf3"

/-- The account address for `(appId, nullifier)`, computed without an RPC call. -/
def accountAddressOf (keccak : Bytes → B256) (deployment : AccountDeployment)
    (appId nullifier : ℕ) : Option Bytes := do
  let salt ← keccak256 keccak
    (concatHex [toFieldHex appId, toFieldHex nullifier, deployment.configHash])
  let bytecode := concatHex [clonePrefix, deployment.accountImplementation, cloneSuffix]
  getCreate2Address keccak deployment.factory salt bytecode

/-! ## The relayer -/

/-- The code that `assertOurAccount` asks for. -/
def accountCode (accountImplementation : Bytes) : Bytes :=
  ascii "0x363d3d373d3d3d363d73" ++ toLowerCase (accountImplementation.drop 2) ++
    ascii "5af43d82803e903d91602b57fd5bf3"

/-- Whether `assertOurAccount` takes the code for an account's. -/
def isAccountCode (accountImplementation code : Bytes) : Bool :=
  toLowerCase code = accountCode accountImplementation

/-! ## Hex texts -/

/-- The hex text of `bytes`, in either case. -/
def Spells (text bytes : Bytes) : Prop :=
  text.take 2 = ascii "0x" ∧ lower (text.drop 2) = hexText bytes

theorem spells_bytesToHex (bytes : Bytes) : Spells (bytesToHex bytes) bytes :=
  ⟨rfl, lower_hexText bytes⟩

/-- A text spells the bytes it is read as. -/
theorem hexToBytes_of_spells {text bytes : Bytes} (hspells : Spells text bytes) :
    hexToBytes text = some bytes := by
  have hlength : (text.drop 2).length = 2 * bytes.length := by
    rw [← length_hexText, ← hspells.2, lower, List.length_map]
  have heven : ¬ (text.drop 2).length % 2 = 1 := by
    rw [hlength, Nat.mul_mod_right]
    decide
  have hnat : hexNat (text.drop 2) = some (beNat bytes) := by
    rw [← hexNat_lower, hspells.2, hexNat_hexText]
  simp only [hexToBytes, if_neg heven]
  rw [hnat, Option.map_some, hlength, Nat.mul_div_right _ Nat.two_pos, beBytes_beNat]

theorem isAnyAddress_of_spells {text : Bytes} {address : Address}
    (hspells : Spells text address.bytes) : isAnyAddress text = true := by
  have hnat : hexNat (text.drop 2) = some (beNat address.bytes) := by
    rw [← hexNat_lower, hspells.2, hexNat_hexText]
  have hdigits := isSome_hexNat.mp (Option.isSome_of_eq_some hnat)
  have hfront := congrArg List.length hspells.1
  have hback := congrArg List.length hspells.2
  rw [lower, List.length_map, length_hexText, address.length_eq, List.length_drop] at hback
  have hlength : text.length = 42 := by omega
  rw [isAnyAddress, isHex, hspells.1, List.all_eq_true.mpr hdigits, hlength]
  decide

theorem spells_concatHex {texts parts : List Bytes} (hspells : List.Forall₂ Spells texts parts) :
    Spells (concatHex texts) parts.flatten := by
  refine ⟨rfl, ?_⟩
  change lower (texts.flatMap (·.drop 2)) = _
  induction hspells with
  | nil => rfl
  | cons hfirst _ ih =>
      rw [List.flatMap_cons, List.flatten_cons, hexText_append, lower, List.map_append, ← lower,
        ← lower, hfirst.2, ih]

theorem keccak256_of_spells {keccak : Bytes → B256} {text bytes : Bytes}
    (hspells : Spells text bytes) :
    keccak256 keccak text = some (bytesToHex (keccak bytes).bytes) := by
  rw [keccak256, hexToBytes_of_spells hspells, Option.map_some]

/-- The halves of the creation code, as the SDK writes them. -/
theorem clonePrefix_eq : clonePrefix = bytesToHex Clone.creationPrefix := by
  decide

theorem cloneSuffix_eq : cloneSuffix = bytesToHex Clone.creationSuffix := by
  decide

theorem spells_initCode {text : Bytes} {implementation : Address}
    (himplementation : Spells text implementation.bytes) :
    Spells (concatHex [clonePrefix, text, cloneSuffix]) (Clone.initCode implementation) := by
  have hprefix : Spells clonePrefix Clone.creationPrefix := by
    rw [clonePrefix_eq]
    exact spells_bytesToHex _
  have hsuffix : Spells cloneSuffix Clone.creationSuffix := by
    rw [cloneSuffix_eq]
    exact spells_bytesToHex _
  have hcode := spells_concatHex (.cons hprefix (.cons himplementation (.cons hsuffix .nil)))
  rwa [List.flatten_cons, List.flatten_cons, List.flatten_cons, List.flatten_nil,
    List.append_nil, ← List.append_assoc] at hcode

theorem spells_saltPreimage {text : Bytes} {configHash : B256} (appId nullifier : B256)
    (hconfig : Spells text configHash.bytes) :
    Spells (concatHex [toFieldHex appId.toNat, toFieldHex nullifier.toNat, text])
      (Clone.saltPreimage appId nullifier configHash) := by
  have hsalt := spells_concatHex (.cons (spells_bytesToHex appId.bytes)
    (.cons (spells_bytesToHex nullifier.bytes) (.cons hconfig .nil)))
  rw [toFieldHex_toNat, toFieldHex_toNat]
  rwa [List.flatten_cons, List.flatten_cons, List.flatten_cons, List.flatten_nil,
    List.append_nil, ← List.append_assoc] at hsalt

/-- The relayer's template is the text of a clone's code. -/
theorem accountCode_eq {text : Bytes} {implementation : Address}
    (himplementation : Spells text implementation.bytes) :
    accountCode text = bytesToHex (Clone.runtimeCode implementation) := by
  have hfront : ascii "0x363d3d373d3d3d363d73" =
      ascii "0x" ++ hexText (Clone.creationPrefix.drop 10) := by
    decide
  have hback : ascii "5af43d82803e903d91602b57fd5bf3" = hexText Clone.creationSuffix := by
    decide
  have hcode : Clone.runtimeCode implementation =
      Clone.creationPrefix.drop 10 ++ implementation.bytes ++ Clone.creationSuffix := rfl
  rw [accountCode, toLowerCase, himplementation.2, hcode, bytesToHex, hexText_append,
    hexText_append, hfront, hback]
  simp only [List.append_assoc]

/-- The relayer takes exactly a clone's code for an account's. -/
theorem isAccountCode_iff {text code : Bytes} {implementation : Address}
    (himplementation : Spells text implementation.bytes) :
    isAccountCode text (bytesToHex code) = true ↔ code = Clone.runtimeCode implementation := by
  have hlower : toLowerCase (bytesToHex code) = bytesToHex code := by
    rw [toLowerCase, bytesToHex, lower, List.map_append, ← lower, ← lower, lower_hexText]
    rfl
  rw [isAccountCode, decide_eq_true_eq, hlower, accountCode_eq himplementation]
  constructor
  · intro heq
    exact hexText_inj (List.append_cancel_left heq)
  · rintro rfl
    rfl

/-- The SDK derives the factory's address. -/
theorem accountAddressOf_eq {keccak : Bytes → B256} {deployment : AccountDeployment}
    {self : Address} {f : VeraKeyFactory} (appId nullifier : B256)
    (hfactory : Spells deployment.factory self.bytes)
    (himplementation : Spells deployment.accountImplementation f.implementation.bytes)
    (hconfig : Spells deployment.configHash f.configHash.bytes) :
    accountAddressOf keccak deployment appId.toNat nullifier.toNat =
      some (addressText keccak (f.accountAddress keccak self appId nullifier)) := by
  have hguard : isAnyAddress deployment.factory = true := isAnyAddress_of_spells hfactory
  rw [accountAddressOf, keccak256_of_spells (spells_saltPreimage appId nullifier hconfig)]
  simp only [Option.bind_eq_bind, Option.bind_some, getCreate2Address, hguard, guard_true,
    hexToBytes_of_spells hfactory, hexToBytes_of_spells (spells_initCode himplementation),
    hexToBytes_of_spells (spells_bytesToHex _)]
  rfl

end Sdk

/-! ## What an address binds -/

/-- An address as it is derived: by which factory, of which configuration, for which pair. -/
structure Derivation where
  deployer : Address
  config : FactoryConfig
  appId : B256
  nullifier : B256

namespace Derivation

variable (keccak : Bytes → B256) (d d' : Derivation)

def factory : VeraKeyFactory := .configured keccak d.config

def address : Address := (d.factory keccak).accountAddress keccak d.deployer d.appId d.nullifier

def saltPreimage : Bytes := Clone.saltPreimage d.appId d.nullifier (d.factory keccak).configHash

/-- What is hashed on the way to the last hash. -/
def hashed : List Bytes :=
  [d.config.encoded keccak, d.saltPreimage keccak, Clone.initCode d.config.implementation]

/-- What the last hash is of. -/
def create2Preimage : Bytes :=
  Clone.create2Preimage d.deployer (keccak (d.saltPreimage keccak))
    (keccak (Clone.initCode d.config.implementation))

/-- No two of the hashes on the way to some addresses are the same, nor the last 20 bytes of two
last ones. -/
structure CollisionFree (derivations : Set Derivation) : Prop where
  hashes : Set.InjOn keccak {preimage | ∃ d ∈ derivations, preimage ∈ d.hashed keccak}
  addresses : Set.InjOn (fun preimage => lowAddress (keccak preimage))
    {preimage | ∃ d ∈ derivations, preimage = d.create2Preimage keccak}

/-- Two derivations agree on everything but the origin itself, of which on the hash. -/
structure Agree : Prop where
  deployer : d'.deployer = d.deployer
  config : d'.config = { d.config with origin := d'.config.origin }
  origin : keccak d.config.origin = keccak d'.config.origin
  appId : d'.appId = d.appId
  nullifier : d'.nullifier = d.nullifier

variable {keccak d d'}

/-- An address comes from one derivation. -/
theorem agree_of_address_eq {derivations : Set Derivation}
    (hfree : CollisionFree keccak derivations) (hd : d ∈ derivations) (hd' : d' ∈ derivations)
    (heq : d.address keccak = d'.address keccak) : Agree keccak d d' := by
  have hpreimage : d.create2Preimage keccak = d'.create2Preimage keccak :=
    hfree.addresses ⟨d, hd, rfl⟩ ⟨d', hd', rfl⟩ heq
  obtain ⟨hdeployer, hsaltHash, hcodeHash⟩ := Clone.create2Preimage_inj hpreimage
  have hsalt : d.saltPreimage keccak = d'.saltPreimage keccak :=
    hfree.hashes ⟨d, hd, by simp [hashed]⟩ ⟨d', hd', by simp [hashed]⟩ hsaltHash
  obtain ⟨happId, hnullifier, hconfigHash⟩ := Clone.saltPreimage_inj hsalt
  have hencoded : d.config.encoded keccak = d'.config.encoded keccak :=
    hfree.hashes ⟨d, hd, by simp [hashed]⟩ ⟨d', hd', by simp [hashed]⟩ hconfigHash
  obtain ⟨hconfig, horigin⟩ := FactoryConfig.encoded_inj hencoded
  exact ⟨hdeployer.symm, hconfig, horigin, happId.symm, hnullifier.symm⟩

end Derivation

/-- One address everywhere.  The SDK's is the factory's; the code that the relayer asks for is
the last 45 bytes of the creation code; and an address binds its factory, the configuration and
the pair. -/
theorem account_address_agrees (keccak : Bytes → B256) :
    (∀ (d : Derivation) (deployment : Sdk.AccountDeployment),
      Sdk.Spells deployment.factory d.deployer.bytes →
      Sdk.Spells deployment.accountImplementation d.config.implementation.bytes →
      Sdk.Spells deployment.configHash (d.factory keccak).configHash.bytes →
      Sdk.accountAddressOf keccak deployment d.appId.toNat d.nullifier.toNat =
        some (Sdk.addressText keccak (d.address keccak))) ∧
    (∀ (text : Bytes) (implementation : Address), Sdk.Spells text implementation.bytes →
      ∃ creation runtime, Clone.initCode implementation = creation ++ runtime ∧
        runtime.length = 45 ∧ Sdk.accountCode text = Sdk.bytesToHex runtime ∧
        ∀ code, Sdk.isAccountCode text (Sdk.bytesToHex code) = true ↔ code = runtime) ∧
    ∀ derivations, Derivation.CollisionFree keccak derivations →
      ∀ d ∈ derivations, ∀ d' ∈ derivations, d.address keccak = d'.address keccak →
        Derivation.Agree keccak d d' := by
  refine ⟨?_, ?_, ?_⟩
  · intro d deployment hfactory himplementation hconfig
    exact Sdk.accountAddressOf_eq d.appId d.nullifier hfactory himplementation hconfig
  · intro text implementation himplementation
    exact ⟨(Clone.initCode implementation).take 10, Clone.runtimeCode implementation,
      (List.take_append_drop 10 _).symm, Clone.length_runtimeCode implementation,
      Sdk.accountCode_eq himplementation, fun _ => Sdk.isAccountCode_iff himplementation⟩
  · intro derivations hfree d hd d' hd' heq
    exact Derivation.agree_of_address_eq hfree hd hd' heq

namespace Sepolia

/-! ### The accounts of two pairs of a deployment -/

def config : FactoryConfig where
  implementation := .ofNat 20 0xfb14e3accc7a1296ecb2b6003f935566fbd5f8c6
  verifier := .ofNat 20 0x6158fc3c9f78f78ea780f30ab3e8515ad04bd834
  usdg := .ofNat 20 0xffc95faa3d63cde504a05b567c600b78c0b41892
  rpIdHash := .ofNat 32 0x57bea8798cb14a63fbde043755cfe53f5f7c3ed90da0d3cbbbbfee14af74c88c
  origin := ascii "https://verakey.xyz"
  perTxCap := 10000000
  dailyCap := 25000000
  newPayeeCap := 2000000
  changeDelay := 120
  recoveryDelay := 300
  feeRecipient := .ofNat 20 0x6d377a3927df664fda9946aa0e6fb8f707844fa8
  maxFee := 250000

def deployment : Sdk.AccountDeployment where
  factory := ascii "0x3b570f82108f16bb9e59b409b618d6cb422757b7"
  accountImplementation := ascii "0xfb14e3accc7a1296ecb2b6003f935566fbd5f8c6"
  configHash := ascii "0xda38b760b0e8178c9a64cff2e28e76f150b3c751c4b22430cbac80b7fd15677e"

/-- The hashes that are computed for the app 1 and the nullifiers 2 and 3. -/
def keccak (bytes : Bytes) : B256 := .ofNat 32 <|
  match bytes.length with
  | 19 => 0x71d4f76d5ec255e486ed5a7c2977b9c0f85972897f11de71e6efbdabb0a448ca
  | 384 => 0xda38b760b0e8178c9a64cff2e28e76f150b3c751c4b22430cbac80b7fd15677e
  | 55 => 0xc03025f4e2ecb4b312049d9ef095638a5bba5cbee99693acb15b0b80edc45605
  | 96 =>
      if bytes.getD 63 0 = 2 then
        0xaa2d696830846b5f5f76cf78c8304a456e0b0d4562ccbd644b0e243e81f7fc4b
      else 0x5f0f16fcefddc8c447f1c6a696968e1c5da338d0b36b5d3eb0a5a2f987fdbc50
  | 85 =>
      if bytes.getD 21 0 = 0xaa then
        0x1d5a1fadc41628ca0f195de184d71fbeeabf106923c282ddadb572a90861a13c
      else 0x3fcdd7a04d754e43dc9dbc64926de35226b2fe920f8d4d774fd6dee4fa37c5d7
  | _ => 0x63e5825ae2701abe439cdc8ac4a0a3bb6687d1ebf859145bac31f94f3082c3e6

def derivation (nullifier : ℕ) : Derivation where
  deployer := .ofNat 20 0x3b570f82108f16bb9e59b409b618d6cb422757b7
  config := config
  appId := .ofNat 32 1
  nullifier := .ofNat 32 nullifier

def derivations : List Derivation := [derivation 2, derivation 3]

theorem collisionFree : Derivation.CollisionFree keccak {d | d ∈ derivations} := by
  have hhashes : ∀ d ∈ derivations, ∀ d' ∈ derivations, ∀ preimage ∈ d.hashed keccak,
      ∀ preimage' ∈ d'.hashed keccak,
        keccak preimage = keccak preimage' → preimage = preimage' := by
    decide +kernel
  have haddresses : ∀ d ∈ derivations, ∀ d' ∈ derivations,
      d.address keccak = d'.address keccak →
        d.create2Preimage keccak = d'.create2Preimage keccak := by
    decide +kernel
  constructor
  · rintro preimage ⟨d, hd, hpreimage⟩ preimage' ⟨d', hd', hpreimage'⟩ heq
    exact hhashes d hd d' hd' preimage hpreimage preimage' hpreimage' heq
  · rintro preimage ⟨d, hd, rfl⟩ preimage' ⟨d', hd', rfl⟩ heq
    exact haddresses d hd d' hd' heq

theorem account_address_agrees_sample :
    Sdk.accountAddressOf keccak deployment 1 2 =
        some (ascii "0x84D71fbEEabf106923C282DDAdB572A90861A13C") ∧
      (derivation 2).address keccak ≠ (derivation 3).address keccak := by
  obtain ⟨hsdk, -, hbinds⟩ := account_address_agrees keccak
  constructor
  · have hfactory : Sdk.Spells deployment.factory (derivation 2).deployer.bytes := by
      exact ⟨rfl, by decide +kernel⟩
    have himplementation : Sdk.Spells deployment.accountImplementation
        (derivation 2).config.implementation.bytes := by
      exact ⟨rfl, by decide +kernel⟩
    have hconfig : Sdk.Spells deployment.configHash
        ((derivation 2).factory keccak).configHash.bytes := by
      exact ⟨rfl, by decide +kernel⟩
    have haddress : Sdk.addressText keccak ((derivation 2).address keccak) =
        ascii "0x84D71fbEEabf106923C282DDAdB572A90861A13C" := by
      decide +kernel
    have hderived := hsdk (derivation 2) deployment hfactory himplementation hconfig
    rw [haddress] at hderived
    exact hderived
  · intro heq
    have hagree := hbinds _ collisionFree (derivation 2) List.mem_cons_self
      (derivation 3) (List.mem_cons_of_mem _ List.mem_cons_self) heq
    exact absurd hagree.nullifier (by decide +kernel)

end Sepolia

end VeraKey
