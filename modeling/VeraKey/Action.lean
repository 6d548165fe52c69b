/-
The action a passkey authorizes, and the ABI encoding that becomes the WebAuthn
challenge.  Every field is one word of the encoding, so the encoding determines
the action.
-/
import VeraKey.Word

namespace VeraKey

open ByteCodec

/-- The signature of the typed `VeraKeyAction` statement. -/
def actionType : Bytes :=
  ascii "VeraKeyAction(uint256 chainId,address account,uint256 nonce,uint8 kind," ++
    ascii "address target,uint256 amount,bytes32 dataHash,uint256 fee,uint64 deadline)"

/-- The hashed signature of the typed `VeraKeyAction` statement. -/
def actionTypehash : Bytes :=
  [0x49, 0xb7, 0x51, 0x85, 0x11, 0x22, 0x3f, 0xf2, 0x4d, 0x5b, 0xc3, 0x1d,
    0x13, 0x7c, 0xf0, 0xf6, 0x57, 0x84, 0xf0, 0x57, 0x0d, 0x50, 0xae, 0xe3,
    0x8d, 0xc0, 0x53, 0x78, 0x4e, 0x2b, 0x51, 0x4d]

namespace Kind

abbrev pay : UInt8 := 1
abbrev scheduleChange : UInt8 := 2
abbrev cancelChange : UInt8 := 3
abbrev cancelRecovery : UInt8 := 4
abbrev restrict : UInt8 := 5

end Kind

/-- The typed fields of an action, before hashing. -/
@[ext]
structure Action where
  chainId : UInt64
  account : Address
  nonce : U256
  kind : UInt8
  target : Address
  amount : U256
  dataHash : B256
  fee : U256
  deadline : UInt64
deriving DecidableEq

namespace Action

/-- The ten words of an action, the type hash first. -/
def words (action : Action) : List Bytes :=
  [actionTypehash,
    (U256.ofU64 action.chainId).toBeBytes,
    addressWord action.account,
    action.nonce.toBeBytes,
    (U256.ofU8 action.kind).toBeBytes,
    addressWord action.target,
    action.amount.toBeBytes,
    action.dataHash.bytes,
    action.fee.toBeBytes,
    (U256.ofU64 action.deadline).toBeBytes]

/-- `abi.encode(ACTION_TYPEHASH, chainId, account, nonce, kind, target, amount,
dataHash, fee, deadline)`. -/
def encode (action : Action) : Bytes := action.words.flatten

theorem length_of_mem_words (action : Action) :
    ∀ word ∈ action.words, word.length = 32 := by
  simp [words, actionTypehash]

theorem words_inj {left right : Action} (heq : left.words = right.words) :
    left = right := by
  simp only [words, List.cons.injEq, true_and, and_true] at heq
  obtain ⟨hchain, haccount, hnonce, hkind, htarget, hamount, hdata, hfee, hdeadline⟩ :=
    heq
  exact Action.ext (U256.ofU64_inj (U256.toBeBytes_inj hchain))
    (addressWord_inj haccount) (U256.toBeBytes_inj hnonce)
    (U256.ofU8_inj (U256.toBeBytes_inj hkind)) (addressWord_inj htarget)
    (U256.toBeBytes_inj hamount) (FixedBytes.ext hdata) (U256.toBeBytes_inj hfee)
    (U256.ofU64_inj (U256.toBeBytes_inj hdeadline))

/-- The encoding determines the action. -/
theorem encode_inj {left right : Action} (heq : left.encode = right.encode) :
    left = right :=
  words_inj (flatten_inj (by decide : 0 < 32) left.length_of_mem_words
    right.length_of_mem_words heq)

end Action

end VeraKey
