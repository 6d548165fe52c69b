/-
A relayed action on its way from the client to the account: the request's body, what the relayer
reads in it, and the call that the account gets.
-/
import VeraKey.ClientActions
import VeraKey.Entry
import VeraKey.WireText

namespace VeraKey

open ByteCodec Guard TextCodec

namespace Client

open Relay (RelayableFunction RelayBody)
open Sdk (addressText bytesToHex decimalNumber)

/-! ## The request -/

/-- `toString` of a big integer. -/
def bigintText (value : ℤ) : Bytes :=
  (if value < 0 then [45] else []) ++ decimalNumber value.natAbs

/-- An argument in the body of a request. -/
def CallArg.json : CallArg → Json
  | bigint value => .str (bigintText value)
  | number value => .num (some value)
  | hex bytes => .str (bytesToHex bytes)

/-- The body of a relay request; the account is in the checksum's case. -/
def relayBody (keccak : Bytes → B256) (account : Address) (functionName : RelayableFunction)
    (args : List CallArg) : RelayBody where
  account := addressText keccak account
  functionName := ascii functionName.name
  args := .arr (args.map CallArg.json)

end Client

/-! ## The call -/

namespace Relay

open Sdk (isAddress addressOf bytesToHex hexToBytes stringToBigInt numberToBigInt)

namespace RelayArg

/-- An argument as the ABI takes it for an unsigned integer. -/
def uint? (bits : ℕ) : RelayArg → Option ℕ
  | .int value => if 0 ≤ value ∧ value < 2 ^ bits then some value.toNat else none
  | .hex _ => none

def bytes? : RelayArg → Option Bytes
  | .hex text => hexToBytes text
  | .int _ => none

def bytes32? (arg : RelayArg) : Option B256 := arg.bytes?.bind (FixedBytes.ofSlice? 32)

def address? (keccak : Bytes → B256) : RelayArg → Option Address
  | .hex text => if isAddress keccak text = true then addressOf text else none
  | .int _ => none

end RelayArg

/-- The arguments of an authorized call after its own. -/
def approval? : List RelayArg → Option Approval
  | [fee, deadline, nullifier, clientDataJson, proof] => do
      return {
        fee := .ofNat 256 (← fee.uint? 256)
        deadline := .ofNat (← deadline.uint? 64)
        nullifier := ← nullifier.bytes32?
        clientDataJson := ← clientDataJson.bytes?
        proof := ← proof.bytes? }
  | _ => none

/-- The call that the account gets; nothing when an argument cannot be encoded. -/
def RelayCall.chainCall (keccak : Bytes → B256) (call : RelayCall) : Option Call :=
  match call.function, call.args with
  | .pay, recipient :: amount :: rest => do
      return .pay (← recipient.address? keccak) (.ofNat 256 (← amount.uint? 256))
        (← approval? rest)
  | .scheduleChange, kind :: payload :: rest => do
      return .scheduleChange (.ofNat (← kind.uint? 8)) (← payload.bytes?) (← approval? rest)
  | .restrict, kind :: payload :: rest => do
      return .restrict (.ofNat (← kind.uint? 8)) (← payload.bytes?) (← approval? rest)
  | .applyChange, [changeId, kind, payload] => do
      return .applyChange (← changeId.bytes32?) (.ofNat (← kind.uint? 8)) (← payload.bytes?)
  | .cancelChange, changeId :: rest => do
      return .cancelChange (← changeId.bytes32?) (← approval? rest)
  | .cancelRecovery, rest => do return .cancelRecovery (← approval? rest)
  | .executeRecovery, [] => some .executeRecovery
  | _, _ => none

/-- A function is found by its name. -/
theorem RelayableFunction.find_name (function : RelayableFunction) :
    RelayableFunction.all.find? (fun other => ascii other.name = ascii function.name) =
      some function := by
  cases function <;> decide +kernel

/-! ## One argument -/

section Args

variable {name : String} {bits : ℕ} {bytes : Bytes}

open Client (CallArg)

theorem relayArg_bigint {value : ℤ} (hvalue : 0 ≤ value) :
    relayArg ⟨name, .uint bits⟩ (CallArg.bigint value).json = .ok (.int value) := by
  have hread : stringToBigInt (Client.bigintText value) = some value := by
    rw [Client.bigintText, if_neg (Int.not_lt.mpr hvalue), List.nil_append,
      Sdk.stringToBigInt_decimalNumber]
    exact congrArg some (Int.natAbs_of_nonneg hvalue)
  change (orElse (stringToBigInt (Client.bigintText value)) Thrown.other).map RelayArg.int = _
  rw [hread]
  rfl

theorem relayArg_number {value : ℕ} :
    relayArg ⟨name, .uint bits⟩ (CallArg.number value).json = .ok (.int value) := rfl

theorem relayArg_bytes (hlength : bytes.length ≤ 16384) :
    relayArg ⟨name, .bytes⟩ (CallArg.hex bytes).json = .ok (.hex (bytesToHex bytes)) := by
  have hhex := Sdk.isHex_of_spells (Sdk.spells_bytesToHex bytes)
  have htext : (bytesToHex bytes).length = 2 * bytes.length + 2 := by
    rw [bytesToHex, List.length_append, length_hexText]
    exact Nat.add_comm _ _
  change (if ¬ Sdk.isHex (bytesToHex bytes) = true then _ else if AbiType.bytes = .bytes ∧
    (bytesToHex bytes).length > 2 * 16384 + 2 then _ else _) = _
  rw [if_neg (not_not.mpr hhex), if_neg (by omega)]

theorem relayArg_fixed {type : AbiType} (htype : type = .bytes32 ∨ type = .address) :
    relayArg ⟨name, type⟩ (CallArg.hex bytes).json = .ok (.hex (bytesToHex bytes)) := by
  have hhex := Sdk.isHex_of_spells (Sdk.spells_bytesToHex bytes)
  rcases htype with rfl | rfl
  · change (if ¬ Sdk.isHex (bytesToHex bytes) = true then _ else _) = _
    exact if_neg (not_not.mpr hhex)
  · change (if ¬ Sdk.isHex (bytesToHex bytes) = true then _ else _) = _
    exact if_neg (not_not.mpr hhex)

theorem relayArgs_cons {input : AbiInput} {inputs : List AbiInput} {value : Json}
    {values : List Json} {arg : RelayArg} {args : List RelayArg}
    (harg : relayArg input value = .ok arg) (hargs : relayArgs inputs values = .ok args) :
    relayArgs (input :: inputs) (value :: values) = .ok (arg :: args) := by
  rw [relayArgs, harg, Guard.ok_bind, hargs]
  rfl

theorem uint?_int {value : ℤ} (hvalue : 0 ≤ value ∧ value < 2 ^ bits) :
    (RelayArg.int value).uint? bits = some value.toNat := if_pos hvalue

theorem bytes?_hex : (RelayArg.hex (bytesToHex bytes)).bytes? = some bytes :=
  Sdk.hexToBytes_of_spells (Sdk.spells_bytesToHex bytes)

theorem bytes32?_hex (value : B256) :
    (RelayArg.hex (bytesToHex value.bytes)).bytes32? = some value := by
  rw [RelayArg.bytes32?, bytes?_hex, Option.bind_some, FixedBytes.ofSlice?_bytes]

theorem address?_hex {keccak : Bytes → B256} (address : Address) :
    (RelayArg.hex (bytesToHex address.bytes)).address? keccak = some address := by
  rw [RelayArg.address?, if_pos (Sdk.isAddress_bytesToHex address)]
  exact Sdk.addressOf_of_spells (Sdk.spells_bytesToHex address.bytes)

end Args

end Relay

/-! ## One action -/

namespace Client

open Relay (RelayCall RelayArg checkRelay relayArg relayArgs approval?)
open Sdk (addressText bytesToHex)

/-- The approval that an authorization carries. -/
def Authorization.approval (auth : Authorization) : Approval where
  fee := .ofNat 256 auth.fee.toNat
  deadline := .ofNat auth.deadline.toNat
  nullifier := .ofNat 32 auth.nullifier
  clientDataJson := auth.clientDataJson
  proof := auth.proof

/-- The call that an action is, once it is approved. -/
def ClientAction.call (approval : Approval) : ClientAction → Option VeraKey.Call
  | pay recipient amount => some (.pay recipient (.ofNat 256 amount.toNat) approval)
  | scheduleChange kind payload => some (.scheduleChange kind payload approval)
  | restrict kind payload => some (.restrict kind payload approval)
  | cancelChange changeId =>
      (FixedBytes.ofSlice? 32 changeId).map fun changeId => .cancelChange changeId approval
  | cancelRecovery _ => some (.cancelRecovery approval)

/-- What the ABI and the relayer ask of an action's own arguments. -/
def ClientAction.Fits : ClientAction → Prop
  | pay _ amount => 0 ≤ amount ∧ amount < 2 ^ 256
  | scheduleChange _ payload => payload.length ≤ 16384
  | restrict _ payload => payload.length ≤ 16384
  | cancelChange changeId => changeId.length = 32
  | cancelRecovery _ => True

/-- What the ABI and the relayer ask of the arguments after the action's own. -/
structure Authorization.Fits (auth : Authorization) : Prop where
  fee : 0 ≤ auth.fee ∧ auth.fee < 2 ^ 256
  deadline : 0 ≤ auth.deadline ∧ auth.deadline < 2 ^ 64
  clientDataJson : auth.clientDataJson.length ≤ 16384
  proof : auth.proof.length ≤ 16384

variable {keccak : Bytes → B256} {action : ClientAction} {auth : Authorization}

/-- The arguments that the relayer reads after the action's own. -/
def Authorization.relayArgs (auth : Authorization) : List RelayArg :=
  [.int auth.fee, .int auth.deadline, .hex (bytesToHex (beBytes 32 auth.nullifier)),
    .hex (bytesToHex auth.clientDataJson), .hex (bytesToHex auth.proof)]

theorem relayArgs_authorization (hfits : auth.Fits) :
    Relay.relayArgs Relay.RelayableFunction.authorization (auth.args.map CallArg.json) =
      .ok auth.relayArgs :=
  Relay.relayArgs_cons (Relay.relayArg_bigint hfits.fee.1)
    (Relay.relayArgs_cons (Relay.relayArg_bigint hfits.deadline.1)
      (Relay.relayArgs_cons (Relay.relayArg_fixed (.inl rfl))
        (Relay.relayArgs_cons (Relay.relayArg_bytes hfits.clientDataJson)
          (Relay.relayArgs_cons (Relay.relayArg_bytes hfits.proof) rfl))))

theorem approval?_relayArgs (hfits : auth.Fits) :
    approval? auth.relayArgs = some auth.approval := by
  have hnullifier : (RelayArg.hex (bytesToHex (beBytes 32 auth.nullifier))).bytes32? =
      some (.ofNat 32 auth.nullifier) := Relay.bytes32?_hex (.ofNat 32 auth.nullifier)
  rw [Authorization.relayArgs, approval?, Relay.uint?_int hfits.fee,
    Relay.uint?_int hfits.deadline, hnullifier, Relay.bytes?_hex, Relay.bytes?_hex]
  rfl

/-- The arguments of the action itself, as the relayer reads them. -/
def ClientAction.relayArgs : ClientAction → List RelayArg
  | pay recipient amount => [.hex (bytesToHex recipient.bytes), .int amount]
  | scheduleChange kind payload => [.int kind.toNat, .hex (bytesToHex payload)]
  | restrict kind payload => [.int kind.toNat, .hex (bytesToHex payload)]
  | cancelChange changeId => [.hex (bytesToHex changeId)]
  | cancelRecovery _ => []

theorem relayArgs_action (haction : action.Fits) (hfits : auth.Fits) :
    Relay.relayArgs action.functionName.inputs ((action.args ++ auth.args).map CallArg.json) =
      .ok (action.relayArgs ++ auth.relayArgs) := by
  have hauth := relayArgs_authorization hfits
  cases action with
  | pay recipient amount =>
      exact Relay.relayArgs_cons (Relay.relayArg_fixed (.inr rfl))
        (Relay.relayArgs_cons (Relay.relayArg_bigint haction.1) hauth)
  | scheduleChange kind payload =>
      exact Relay.relayArgs_cons Relay.relayArg_number
        (Relay.relayArgs_cons (Relay.relayArg_bytes haction) hauth)
  | restrict kind payload =>
      exact Relay.relayArgs_cons Relay.relayArg_number
        (Relay.relayArgs_cons (Relay.relayArg_bytes haction) hauth)
  | cancelChange changeId =>
      exact Relay.relayArgs_cons (Relay.relayArg_fixed (.inl rfl)) hauth
  | cancelRecovery pendingNullifier => exact hauth

/-- The fee that the relayer reads is the one that was signed. -/
theorem fee_relayCall (account : Bytes) :
    RelayCall.fee ⟨account, action.functionName, action.relayArgs ++ auth.relayArgs⟩ =
      some auth.fee := by
  cases action <;> rfl

theorem chainCall_relayCall (account : Bytes) (haction : action.Fits) (hfits : auth.Fits) :
    RelayCall.chainCall keccak
        ⟨account, action.functionName, action.relayArgs ++ auth.relayArgs⟩ =
      action.call auth.approval := by
  have happroval := approval?_relayArgs hfits
  have hkind : ∀ kind : UInt8, (RelayArg.int kind.toNat).uint? 8 = some kind.toNat := by
    intro kind
    have hlt := kind.toNat_lt
    rw [Relay.uint?_int ⟨Int.natCast_nonneg _, by exact_mod_cast hlt⟩, Int.toNat_natCast]
  cases action with
  | pay recipient amount =>
      change (do
        return VeraKey.Call.pay (← (RelayArg.hex (bytesToHex recipient.bytes)).address? keccak)
          (.ofNat 256 (← (RelayArg.int amount).uint? 256)) (← approval? auth.relayArgs)) = _
      rw [Relay.address?_hex, Relay.uint?_int haction, happroval]
      rfl
  | scheduleChange kind payload =>
      change (do
        return VeraKey.Call.scheduleChange (.ofNat (← (RelayArg.int kind.toNat).uint? 8))
          (← (RelayArg.hex (bytesToHex payload)).bytes?) (← approval? auth.relayArgs)) = _
      rw [hkind, Relay.bytes?_hex, happroval, ClientAction.call]
      exact congrArg (fun kind => some (VeraKey.Call.scheduleChange kind payload auth.approval))
        (UInt8.ofNat_toNat)
  | restrict kind payload =>
      change (do
        return VeraKey.Call.restrict (.ofNat (← (RelayArg.int kind.toNat).uint? 8))
          (← (RelayArg.hex (bytesToHex payload)).bytes?) (← approval? auth.relayArgs)) = _
      rw [hkind, Relay.bytes?_hex, happroval, ClientAction.call]
      exact congrArg (fun kind => some (VeraKey.Call.restrict kind payload auth.approval))
        (UInt8.ofNat_toNat)
  | cancelChange changeId =>
      change (do
        return VeraKey.Call.cancelChange (← (RelayArg.hex (bytesToHex changeId)).bytes32?)
          (← approval? auth.relayArgs)) = _
      have hid : (RelayArg.hex (bytesToHex changeId)).bytes32? =
          FixedBytes.ofSlice? 32 changeId := by
        rw [RelayArg.bytes32?, Relay.bytes?_hex, Option.bind_some]
      rw [hid, happroval, ClientAction.call]
      cases FixedBytes.ofSlice? 32 changeId <;> rfl
  | cancelRecovery pendingNullifier =>
      change (do return VeraKey.Call.cancelRecovery (← approval? auth.relayArgs)) = _
      rw [happroval]
      rfl

theorem call_isSome (haction : action.Fits) (approval : Approval) :
    ∃ call, action.call approval = some call := by
  cases action with
  | cancelChange changeId =>
      refine ⟨.cancelChange ⟨changeId, haction⟩ approval, ?_⟩
      have hid : FixedBytes.ofSlice? 32 changeId = some ⟨changeId, haction⟩ :=
        FixedBytes.ofSlice?_eq_some.mpr rfl
      rw [ClientAction.call, hid, Option.map_some]
  | _ => exact ⟨_, rfl⟩

/-- What the client sends is a request that the relayer accepts, for the call that was approved. -/
theorem checkRelay_relayBody (account : Address) (haction : action.Fits) (hfits : auth.Fits)
    {relayerFee : ℤ} (hfee : relayerFee ≤ auth.fee) :
    ∃ relayed call, checkRelay keccak relayerFee
        (relayBody keccak account action.functionName (action.args ++ auth.args)) =
          .ok relayed ∧ relayed.account = addressText keccak account ∧
      relayed.chainCall keccak = some call ∧ action.call auth.approval = some call := by
  obtain ⟨call, hcall⟩ := call_isSome haction auth.approval
  refine ⟨⟨addressText keccak account, action.functionName, action.relayArgs ++ auth.relayArgs⟩,
    call, ?_, rfl, (chainCall_relayCall _ haction hfits).trans hcall, hcall⟩
  have hfunction := Relay.RelayableFunction.find_name action.functionName
  have hlength : ((action.args ++ auth.args).map CallArg.json).length =
      action.functionName.inputs.length := by
    cases action <;> rfl
  have haddress := @Sdk.isAddress_addressText keccak account
  have hargs := relayArgs_action haction hfits
  simp only [checkRelay, bind_eq_ok, rejectIf_eq_ok, orElse_eq_ok, pure_eq_ok, not_not]
  refine ⟨⟨⟩, haddress, action.functionName, hfunction, _, rfl, ⟨⟩, hlength, _, hargs, ⟨⟩, ?_, rfl⟩
  rw [fee_relayCall]
  simpa using hfee

end Client

end VeraKey
