/-
EIP-1167 minimal-proxy creation code and CREATE2 preimages for the accounts: what each
holds, and that it determines its parts.
-/
import VeraKey.Word

namespace VeraKey

open ByteCodec

namespace Clone

def creationPrefix : Bytes :=
  [0x3d, 0x60, 0x2d, 0x80, 0x60, 0x0a, 0x3d, 0x39, 0x81, 0xf3, 0x36, 0x3d, 0x3d, 0x37, 0x3d, 0x3d,
    0x3d, 0x36, 0x3d, 0x73]

def creationSuffix : Bytes :=
  [0x5a, 0xf4, 0x3d, 0x82, 0x80, 0x3e, 0x90, 0x3d, 0x91, 0x60, 0x2b, 0x57, 0xfd, 0x5b, 0xf3]

/-- EIP-1167 creation code. -/
def initCode (implementation : Address) : Bytes :=
  creationPrefix ++ implementation.bytes ++ creationSuffix

/-- `abi.encode(appId, nullifier, configHash)`. -/
def saltPreimage (appId nullifier configHash : B256) : Bytes :=
  appId.bytes ++ nullifier.bytes ++ configHash.bytes

/-- `0xff ‖ deployer ‖ salt ‖ keccak256(initCode)`. -/
def create2Preimage (deployer : Address) (salt initCodeHash : B256) : Bytes :=
  0xff :: deployer.bytes ++ salt.bytes ++ initCodeHash.bytes

theorem initCode_inj {implementation implementation' : Address}
    (heq : initCode implementation = initCode implementation') :
    implementation = implementation' := by
  rw [initCode, initCode, List.append_left_inj, List.append_right_inj] at heq
  exact FixedBytes.ext heq

theorem saltPreimage_inj {appId appId' nullifier nullifier' configHash configHash' : B256}
    (heq : saltPreimage appId nullifier configHash = saltPreimage appId' nullifier' configHash') :
    appId = appId' ∧ nullifier = nullifier' ∧ configHash = configHash' := by
  obtain ⟨hpair, hconfig⟩ := List.append_inj heq (by simp)
  obtain ⟨happId, hnullifier⟩ := List.append_inj hpair (by simp)
  exact ⟨FixedBytes.ext happId, FixedBytes.ext hnullifier, FixedBytes.ext hconfig⟩

theorem create2Preimage_inj {deployer deployer' : Address} {salt salt' hash hash' : B256}
    (heq : create2Preimage deployer salt hash = create2Preimage deployer' salt' hash') :
    deployer = deployer' ∧ salt = salt' ∧ hash = hash' := by
  obtain ⟨hfront, hhash⟩ := List.append_inj heq (by simp)
  obtain ⟨hdeployer, hsalt⟩ := List.append_inj hfront (by simp)
  exact ⟨FixedBytes.ext (List.tail_eq_of_cons_eq hdeployer), FixedBytes.ext hsalt,
    FixedBytes.ext hhash⟩

/-- The code a clone runs: what the creation code returns. -/
def runtimeCode (implementation : Address) : Bytes := (initCode implementation).drop 10

theorem length_runtimeCode (implementation : Address) :
    (runtimeCode implementation).length = 45 := by
  simp [runtimeCode, initCode, creationPrefix, creationSuffix]

end Clone

end VeraKey
