/-
The SDK's codec of actions and configuration changes, and that it is the chain's: the
same payloads, decoded to the same arguments, and the same hashes.
-/
import VeraKey.Abi
import VeraKey.Action
import VeraKey.Applied

namespace VeraKey

open ByteCodec

namespace Sdk

/-! ## Changes -/

namespace ChangeKind

abbrev addOwner : UInt8 := 1
abbrev removeOwner : UInt8 := 2
abbrev setLimits : UInt8 := 3
abbrev setRecipient : UInt8 := 4
abbrev setAllowlist : UInt8 := 5
abbrev setGuardian : UInt8 := 6
abbrev setNewPayeeCap : UInt8 := 7
abbrev freeze : UInt8 := 8
abbrev unfreeze : UInt8 := 9
abbrev setPaymentSheet : UInt8 := 10

end ChangeKind

/-- A call of one of `changePayload`'s functions; a hex text stands as its bytes. -/
inductive ChangeArgument
  | addOwner (nullifier : Bytes)
  | removeOwner (nullifier : Bytes)
  | setLimits (perTxCap dailyCap : ℤ)
  | setRecipient (recipient : Address) (allowed : Bool)
  | setAllowlist (enabled : Bool)
  | setGuardian (commitment : Bytes)
  | setNewPayeeCap (cap : ℤ)
  | freeze
  | unfreeze
  | setPaymentSheet (required : Bool)
deriving DecidableEq

/-- The kind and the payload; nothing when the encoder throws. -/
def changePayload : ChangeArgument → Option (UInt8 × Bytes)
  | .addOwner nullifier => some (ChangeKind.addOwner, nullifier)
  | .removeOwner nullifier => some (ChangeKind.removeOwner, nullifier)
  | .setLimits perTxCap dailyCap =>
      (Abi.encode [.uint 256, .uint 256] [.int perTxCap, .int dailyCap]).map
        (ChangeKind.setLimits, ·)
  | .setRecipient recipient allowed =>
      (Abi.encode [.address, .bool] [.address recipient, .bool allowed]).map
        (ChangeKind.setRecipient, ·)
  | .setAllowlist enabled =>
      (Abi.encode [.bool] [.bool enabled]).map (ChangeKind.setAllowlist, ·)
  | .setGuardian commitment => some (ChangeKind.setGuardian, commitment)
  | .setNewPayeeCap cap =>
      (Abi.encode [.uint 256] [.int cap]).map (ChangeKind.setNewPayeeCap, ·)
  | .freeze => some (ChangeKind.freeze, [])
  | .unfreeze => some (ChangeKind.unfreeze, [])
  | .setPaymentSheet required =>
      (Abi.encode [.bool] [.bool required]).map (ChangeKind.setPaymentSheet, ·)

/-- `keccak256(concat([toHex(kind, { size: 1 }), payload]))`. -/
def changeDataHash (keccak : Bytes → B256) (kind : UInt8) (payload : Bytes) : B256 :=
  keccak ([kind] ++ payload)

/-- An argument that an account can apply. -/
def ChangeArgument.InRange : ChangeArgument → Prop
  | addOwner nullifier | removeOwner nullifier =>
      nullifier.length = 32 ∧ beNat nullifier ≠ 0 ∧ beNat nullifier < bn254R
  | setLimits perTxCap dailyCap => 0 < perTxCap ∧ perTxCap ≤ dailyCap ∧ dailyCap < 2 ^ 128
  | setRecipient recipient _ => recipient ≠ 0
  | setGuardian commitment => commitment.length = 32
  | setNewPayeeCap cap => 0 ≤ cap ∧ cap < 2 ^ 128
  | setAllowlist _ | freeze | unfreeze | setPaymentSheet _ => True

/-! ## Actions -/

@[ext]
structure Action where
  chainId : ℤ
  account : Address
  nonce : ℤ
  kind : ℤ
  target : Address
  amount : ℤ
  dataHash : Bytes
  fee : ℤ
  deadline : ℤ
deriving DecidableEq

/-- `ACTION_TYPEHASH`. -/
def actionTypehash : B256 :=
  .ofNat 32 0x49b7518511223ff24d5bc31d137cf0f65784f0570d50aee38dc053784e2b514d

def actionLayout : List Abi.StaticType :=
  [.bytes32, .uint 256, .address, .uint 256, .uint 8, .address, .uint 256, .bytes32,
    .uint 256, .uint 64]

def encodeAction (action : Action) : Option Bytes :=
  Abi.encode actionLayout [.bytes actionTypehash.bytes, .int action.chainId,
    .address action.account, .int action.nonce, .int action.kind, .address action.target,
    .int action.amount, .bytes action.dataHash, .int action.fee, .int action.deadline]

/-- The 32-byte WebAuthn challenge. -/
def hashAction (keccak : Bytes → B256) (action : Action) : Option B256 :=
  (encodeAction action).map keccak

/-- The fields fit the account's own types. -/
structure Action.InRange (action : Action) : Prop where
  chainId : 0 ≤ action.chainId ∧ action.chainId < 2 ^ 64
  nonce : 0 ≤ action.nonce ∧ action.nonce < 2 ^ 256
  kind : 0 ≤ action.kind ∧ action.kind < 2 ^ 8
  amount : 0 ≤ action.amount ∧ action.amount < 2 ^ 256
  dataHash : action.dataHash.length = 32
  fee : 0 ≤ action.fee ∧ action.fee < 2 ^ 256
  deadline : 0 ≤ action.deadline ∧ action.deadline < 2 ^ 64

end Sdk

/-! ## The chain's side -/

/-- The decoders `apply` uses for a kind, before any default. -/
def Changes.decode (kind : UInt8) (payload : Bytes) : Option Sdk.ChangeArgument :=
  if kind = addOwner then
    (FixedBytes.ofSlice? 32 payload).map fun nullifier => .addOwner nullifier.bytes
  else if kind = removeOwner then
    (FixedBytes.ofSlice? 32 payload).map fun nullifier => .removeOwner nullifier.bytes
  else if kind = setLimits then do
    let perTx ← wordU128 (payload.take 32)
    let daily ← wordU128 (payload.drop 32)
    return .setLimits perTx.toNat daily.toNat
  else if kind = setRecipient then do
    let recipient ← wordAddress (payload.take 32)
    let allowed ← wordBool (payload.drop 32)
    return .setRecipient recipient allowed
  else if kind = setAllowlist then (wordBool payload).map .setAllowlist
  else if kind = setGuardian then
    (FixedBytes.ofSlice? 32 payload).map fun commitment => .setGuardian commitment.bytes
  else if kind = setNewPayeeCap then
    (wordU128 payload).map fun cap => .setNewPayeeCap cap.toNat
  else if kind = setPaymentSheet then (wordBool payload).map .setPaymentSheet
  else if kind = freeze then some .freeze
  else if kind = unfreeze then some .unfreeze
  else none

/-- The argument a typed change was made from. -/
def Change.argument : Change → Sdk.ChangeArgument
  | addOwner nullifier => .addOwner nullifier.value.bytes
  | removeOwner nullifier => .removeOwner nullifier.value.bytes
  | setLimits perTx daily .. => .setLimits perTx.toNat daily.toNat
  | setRecipient recipient _ allowed => .setRecipient recipient allowed
  | setAllowlist enabled => .setAllowlist enabled
  | setGuardian commitment => .setGuardian commitment.bytes
  | setNewPayeeCap cap => .setNewPayeeCap cap.toNat
  | freeze => .freeze
  | unfreeze => .unfreeze
  | setPaymentSheet required => .setPaymentSheet required

/-- The SDK's form of an account's action. -/
def Action.toSdk (action : Action) : Sdk.Action where
  chainId := action.chainId.toNat
  account := action.account
  nonce := action.nonce.toNat
  kind := action.kind.toNat
  target := action.target
  amount := action.amount.toNat
  dataHash := action.dataHash.bytes
  fee := action.fee.toNat
  deadline := action.deadline.toNat

/-! ## Payloads -/

namespace Change

theorem word_u128 (value : U128) :
    Abi.word (.uint 256) (.int value.toNat) = some (Changes.u128Word value) := by
  have hlt : value.toNat < 256 ^ 16 := value.isLt
  rw [Abi.word_natCast (hlt.trans (by decide)), Changes.u128Word,
    beBytes_of_lt (by decide : 16 ≤ 32) hlt]

theorem word_bool (value : Bool) :
    Abi.word .bool (.bool value) = some (Changes.boolWord value) := by
  cases value <;> rfl

/-- The SDK encodes a change as the account does. -/
theorem changePayload_argument (c : Change) :
    Sdk.changePayload c.argument = some (c.kind, c.payload) := by
  cases c with
  | setLimits perTx daily pos le =>
      rw [argument, Sdk.changePayload, Abi.encode_pair (word_u128 perTx) (word_u128 daily)]
      rfl
  | setRecipient recipient ne_zero allowed =>
      rw [argument, Sdk.changePayload, Abi.encode_pair rfl (word_bool allowed)]
      rfl
  | setAllowlist enabled =>
      rw [argument, Sdk.changePayload, Abi.encode_singleton, word_bool]
      rfl
  | setNewPayeeCap cap =>
      rw [argument, Sdk.changePayload, Abi.encode_singleton, word_u128]
      rfl
  | setPaymentSheet required =>
      rw [argument, Sdk.changePayload, Abi.encode_singleton, word_bool]
      rfl
  | addOwner | removeOwner | setGuardian | freeze | unfreeze => rfl

/-- The decoders return the argument. -/
theorem decode_payload (c : Change) : Changes.decode c.kind c.payload = some c.argument := by
  cases c <;> simp +decide [Changes.decode, kind, payload, argument]

end Change

/-- An integer of 128 bits. -/
theorem exists_toNat_eq {n : ℤ} (hpos : 0 ≤ n) (hlt : n < 2 ^ 128) :
    ∃ value : U128, (value.toNat : ℤ) = n := by
  obtain ⟨m, rfl⟩ := Int.eq_ofNat_of_zero_le hpos
  have hm : m < 2 ^ 128 := by exact_mod_cast hlt
  refine ⟨.ofNat 128 m, ?_⟩
  rw [BitVec.toNat_ofNat, Nat.mod_eq_of_lt hm]

/-- Every argument in range is that of a change the account can hold. -/
theorem Change.exists_of_inRange {arg : Sdk.ChangeArgument} (hrange : arg.InRange) :
    ∃ c : Change, c.argument = arg := by
  cases arg with
  | addOwner nullifier =>
      obtain ⟨hlength, hzero, hlt⟩ := hrange
      exact ⟨.addOwner ⟨⟨nullifier, hlength⟩, FixedBytes.toNat_ne_zero.mp hzero,
        decide_eq_true hlt⟩, rfl⟩
  | removeOwner nullifier =>
      obtain ⟨hlength, hzero, hlt⟩ := hrange
      exact ⟨.removeOwner ⟨⟨nullifier, hlength⟩, FixedBytes.toNat_ne_zero.mp hzero,
        decide_eq_true hlt⟩, rfl⟩
  | setLimits perTxCap dailyCap =>
      obtain ⟨hpos, hle, hlt⟩ := hrange
      obtain ⟨perTx, rfl⟩ := exists_toNat_eq hpos.le (hle.trans_lt hlt)
      obtain ⟨daily, rfl⟩ := exists_toNat_eq (hpos.le.trans hle) hlt
      have hne : perTx ≠ 0 := by
        intro hzero
        rw [hzero] at hpos
        exact absurd hpos (lt_irrefl 0)
      have hcaps : perTx ≤ daily := BitVec.le_def.mpr (by exact_mod_cast hle)
      exact ⟨.setLimits perTx daily hne hcaps, rfl⟩
  | setRecipient recipient allowed => exact ⟨.setRecipient recipient hrange allowed, rfl⟩
  | setAllowlist enabled => exact ⟨.setAllowlist enabled, rfl⟩
  | setGuardian commitment => exact ⟨.setGuardian ⟨commitment, hrange⟩, rfl⟩
  | setNewPayeeCap cap =>
      obtain ⟨hpos, hlt⟩ := hrange
      obtain ⟨cap, rfl⟩ := exists_toNat_eq hpos hlt
      exact ⟨.setNewPayeeCap cap, rfl⟩
  | freeze => exact ⟨.freeze, rfl⟩
  | unfreeze => exact ⟨.unfreeze, rfl⟩
  | setPaymentSheet required => exact ⟨.setPaymentSheet required, rfl⟩

theorem Change.inRange_argument (c : Change) : c.argument.InRange := by
  cases c with
  | addOwner nullifier =>
      exact ⟨nullifier.value.length_eq, FixedBytes.toNat_ne_zero.mpr nullifier.ne_zero,
        of_decide_eq_true nullifier.canonical⟩
  | removeOwner nullifier =>
      exact ⟨nullifier.value.length_eq, FixedBytes.toNat_ne_zero.mpr nullifier.ne_zero,
        of_decide_eq_true nullifier.canonical⟩
  | setLimits perTx daily pos le =>
      have hpos : 0 < perTx.toNat := Nat.pos_of_ne_zero fun hzero =>
        pos (BitVec.eq_of_toNat_eq hzero)
      refine ⟨by exact_mod_cast hpos, ?_, by exact_mod_cast daily.isLt⟩
      exact_mod_cast BitVec.le_def.mp le
  | setRecipient recipient ne_zero allowed => exact ne_zero
  | setGuardian commitment => exact commitment.length_eq
  | setNewPayeeCap cap => exact ⟨Int.natCast_nonneg _, by exact_mod_cast cap.isLt⟩
  | setAllowlist | freeze | unfreeze | setPaymentSheet => trivial

theorem Sdk.ChangeArgument.inRange_iff {arg : Sdk.ChangeArgument} :
    arg.InRange ↔ ∃ c : Change, c.argument = arg := by
  constructor
  · intro hrange
    exact Change.exists_of_inRange hrange
  · rintro ⟨c, rfl⟩
    exact c.inRange_argument

/-! ## Actions -/

namespace Action

theorem typehash_eq : Sdk.actionTypehash.bytes = actionTypehash := by
  decide

/-- Both sides encode an action in the same ten words. -/
theorem encodeAction_toSdk (action : Action) :
    Sdk.encodeAction action.toSdk = some action.encode := by
  have hchain := action.chainId.toNat_lt
  have hdeadline := action.deadline.toNat_lt
  have hkind := action.kind.toNat_lt
  have hwords : Abi.words Sdk.actionLayout [.bytes Sdk.actionTypehash.bytes,
      .int action.chainId.toNat, .address action.account, .int action.nonce.toNat,
      .int action.kind.toNat, .address action.target, .int action.amount.toNat,
      .bytes action.dataHash.bytes, .int action.fee.toNat, .int action.deadline.toNat] =
        some action.words := by
    simp only [words, U256.toBeBytes, U256.toNat_ofU64, U256.toNat_ofU8]
    apply Abi.words_cons (Abi.word_bytes32.mpr ⟨rfl, congrArg Abi.Value.bytes typehash_eq⟩)
    apply Abi.words_cons (Abi.word_natCast (hchain.trans (by decide)))
    apply Abi.words_cons (Abi.word_address.mpr ⟨_, rfl, rfl⟩)
    apply Abi.words_cons (Abi.word_natCast action.nonce.isLt)
    apply Abi.words_cons (Abi.word_natCast hkind)
    apply Abi.words_cons (Abi.word_address.mpr ⟨_, rfl, rfl⟩)
    apply Abi.words_cons (Abi.word_natCast action.amount.isLt)
    apply Abi.words_cons (Abi.word_bytes32.mpr ⟨action.dataHash.length_eq, rfl⟩)
    apply Abi.words_cons (Abi.word_natCast action.fee.isLt)
    exact Abi.words_cons (Abi.word_natCast hdeadline) rfl
  exact Abi.encode_eq_some.mpr ⟨_, hwords, rfl⟩

end Action

theorem intCast_ofNat_u64 {i : ℤ} (hrange : 0 ≤ i ∧ i < 2 ^ 64) :
    ((UInt64.ofNat i.toNat).toNat : ℤ) = i := by
  rw [UInt64.toNat_ofNat']
  omega

theorem intCast_ofNat_u8 {i : ℤ} (hrange : 0 ≤ i ∧ i < 2 ^ 8) :
    ((UInt8.ofNat i.toNat).toNat : ℤ) = i := by
  rw [UInt8.toNat_ofNat']
  omega

theorem intCast_ofNat_u256 {i : ℤ} (hrange : 0 ≤ i ∧ i < 2 ^ 256) :
    ((BitVec.ofNat 256 i.toNat).toNat : ℤ) = i := by
  rw [BitVec.toNat_ofNat]
  omega

theorem natCast_inRange {n bits : ℕ} (hn : n < 2 ^ bits) : 0 ≤ (n : ℤ) ∧ (n : ℤ) < 2 ^ bits :=
  ⟨Int.natCast_nonneg n, by exact_mod_cast hn⟩

/-- The actions in range are the account's. -/
theorem Sdk.Action.inRange_iff {action : Sdk.Action} :
    action.InRange ↔ ∃ a : VeraKey.Action, a.toSdk = action := by
  constructor
  · intro hrange
    refine ⟨⟨.ofNat action.chainId.toNat, action.account, .ofNat 256 action.nonce.toNat,
      .ofNat action.kind.toNat, action.target, .ofNat 256 action.amount.toNat,
      ⟨action.dataHash, hrange.dataHash⟩, .ofNat 256 action.fee.toNat,
      .ofNat action.deadline.toNat⟩, ?_⟩
    exact Sdk.Action.ext (intCast_ofNat_u64 hrange.chainId) rfl
      (intCast_ofNat_u256 hrange.nonce) (intCast_ofNat_u8 hrange.kind) rfl
      (intCast_ofNat_u256 hrange.amount) rfl (intCast_ofNat_u256 hrange.fee)
      (intCast_ofNat_u64 hrange.deadline)
  · rintro ⟨a, rfl⟩
    exact {
      chainId := natCast_inRange a.chainId.toNat_lt
      nonce := natCast_inRange a.nonce.isLt
      kind := natCast_inRange a.kind.toNat_lt
      amount := natCast_inRange a.amount.isLt
      dataHash := a.dataHash.length_eq
      fee := natCast_inRange a.fee.isLt
      deadline := natCast_inRange a.deadline.toNat_lt }

/-! ## One codec -/

/-- An argument in range becomes a valid payload, which the account decodes to it and
applies as such. -/
theorem Sdk.payload_of_inRange {arg : Sdk.ChangeArgument} (hrange : arg.InRange) :
    ∃ (c : Change) (kind : UInt8) (payload : Bytes), c.argument = arg ∧
      Sdk.changePayload arg = some (kind, payload) ∧
      Changes.isValid kind payload = true ∧ Changes.decode kind payload = some arg ∧
      ∀ (host : Host) (s : VeraKeyAccount) (result : VeraKeyAccount × List Event),
        s.apply host kind payload = .ok result ↔
          s.Applicable host c ∧ result = (s.applied host c, s.appliedLogs c) := by
  obtain ⟨c, rfl⟩ := Sdk.ChangeArgument.inRange_iff.mp hrange
  exact ⟨c, c.kind, c.payload, rfl, c.changePayload_argument, c.isValid_payload,
    c.decode_payload, fun host s result => VeraKeyAccount.apply_payload_eq_ok c⟩

/-- A valid payload encodes one argument. -/
theorem Sdk.existsUnique_of_isValid {kind : UInt8} {payload : Bytes}
    (hvalid : Changes.isValid kind payload = true) :
    ∃! arg : Sdk.ChangeArgument, arg.InRange ∧
      Sdk.changePayload arg = some (kind, payload) := by
  obtain ⟨c, rfl, rfl⟩ := Change.exists_of_isValid hvalid
  refine ⟨c.argument, ⟨Sdk.ChangeArgument.inRange_iff.mpr ⟨c, rfl⟩,
    c.changePayload_argument⟩, ?_⟩
  rintro arg ⟨hrange, hpayload⟩
  obtain ⟨c', rfl⟩ := Sdk.ChangeArgument.inRange_iff.mp hrange
  rw [c'.changePayload_argument, Option.some.injEq, Prod.mk.injEq] at hpayload
  have hdecode := c'.decode_payload
  rw [hpayload.1, hpayload.2, c.decode_payload] at hdecode
  exact (Option.some.inj hdecode).symm

/-- SDK and account speak one codec, of changes and of actions. -/
theorem sdk_codec_agrees (keccak : Bytes → B256) :
    (∀ arg : Sdk.ChangeArgument, arg.InRange →
      ∃ (c : Change) (kind : UInt8) (payload : Bytes), c.argument = arg ∧
        Sdk.changePayload arg = some (kind, payload) ∧
        Changes.isValid kind payload = true ∧ Changes.decode kind payload = some arg ∧
        ∀ (host : Host) (s : VeraKeyAccount) (result : VeraKeyAccount × List Event),
          s.apply host kind payload = .ok result ↔
            s.Applicable host c ∧ result = (s.applied host c, s.appliedLogs c)) ∧
    (∀ (kind : UInt8) (payload : Bytes), Changes.isValid kind payload = true →
      (Changes.decode kind payload).isSome = true ∧
      ∃! arg : Sdk.ChangeArgument, arg.InRange ∧
        Sdk.changePayload arg = some (kind, payload)) ∧
    (∀ (host : Host) (kind : UInt8) (payload : Bytes), host.keccak = keccak →
      Sdk.changeDataHash keccak kind payload = changeDataHash host kind payload) ∧
    (∀ (kind kind' : UInt8) (payload payload' : Bytes),
      Set.InjOn keccak {kind :: payload, kind' :: payload'} →
      Sdk.changeDataHash keccak kind payload = Sdk.changeDataHash keccak kind' payload' →
      kind = kind' ∧ payload = payload') ∧
    (∀ action : Sdk.Action, action.InRange → ∃ a : Action, a.toSdk = action ∧
      Sdk.hashAction keccak action = some (keccak a.encode)) := by
  refine ⟨?_, ?_, ?_, ?_, ?_⟩
  · intro arg hrange
    exact Sdk.payload_of_inRange hrange
  · intro kind payload hvalid
    have hdecode : (Changes.decode kind payload).isSome = true := by
      obtain ⟨c, rfl, rfl⟩ := Change.exists_of_isValid hvalid
      rw [c.decode_payload, Option.isSome_some]
    exact ⟨hdecode, Sdk.existsUnique_of_isValid hvalid⟩
  · rintro host kind payload rfl
    rfl
  · intro kind kind' payload payload' hcollision heq
    exact List.cons.inj
      (hcollision (Set.mem_insert _ _) (Set.mem_insert_of_mem _ rfl) heq)
  · intro action hrange
    obtain ⟨a, rfl⟩ := Sdk.Action.inRange_iff.mp hrange
    exact ⟨a, rfl, by rw [Sdk.hashAction, a.encodeAction_toSdk, Option.map_some]⟩

end VeraKey
