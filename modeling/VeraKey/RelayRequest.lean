/-
What the relayer is asked to relay: the functions it submits, their arguments, and the
checks of a request that need no chain.
-/
import VeraKey.Coercion
import VeraKey.Guard
import VeraKey.SdkAction

namespace VeraKey

open ByteCodec Guard TextCodec

namespace Relay

structure RelayError where
  status : ℕ
  message : Bytes
  revert : Option Bytes
deriving DecidableEq

/-- What a request can throw. -/
inductive Thrown
  | relay (error : RelayError)
  /-- Any other error. -/
  | other
deriving DecidableEq

namespace Thrown

/-- The status of the response. -/
def status : Thrown → ℕ
  | .relay error => error.status
  | .other => 500

end Thrown

def relayError (status : ℕ) (message : String) : Thrown := .relay ⟨status, ascii message, none⟩

/-! ## The functions -/

inductive RelayableFunction
  | pay
  | scheduleChange
  | restrict
  | applyChange
  | cancelChange
  | cancelRecovery
  | executeRecovery
deriving DecidableEq

inductive AbiType
  | address
  | bytes
  | bytes32
  | uint (bits : ℕ)
deriving DecidableEq

structure AbiInput where
  name : String
  type : AbiType
deriving DecidableEq

namespace RelayableFunction

def name : RelayableFunction → String
  | .pay => "pay"
  | .scheduleChange => "scheduleChange"
  | .restrict => "restrict"
  | .applyChange => "applyChange"
  | .cancelChange => "cancelChange"
  | .cancelRecovery => "cancelRecovery"
  | .executeRecovery => "executeRecovery"

/-- `RELAYABLE_FUNCTIONS`. -/
def all : List RelayableFunction :=
  [.pay, .scheduleChange, .restrict, .applyChange, .cancelChange, .cancelRecovery,
    .executeRecovery]

/-- What a proof authorizes an action with. -/
def authorization : List AbiInput :=
  [⟨"fee", .uint 256⟩, ⟨"deadline", .uint 64⟩, ⟨"nullifier", .bytes32⟩,
    ⟨"client_data_json", .bytes⟩, ⟨"proof", .bytes⟩]

/-- The inputs in `veraKeyAccountAbi`. -/
def inputs : RelayableFunction → List AbiInput
  | .pay => ⟨"to", .address⟩ :: ⟨"amount", .uint 256⟩ :: authorization
  | .scheduleChange => ⟨"change_kind", .uint 8⟩ :: ⟨"payload", .bytes⟩ :: authorization
  | .restrict => ⟨"change_kind", .uint 8⟩ :: ⟨"payload", .bytes⟩ :: authorization
  | .applyChange => [⟨"change_id", .bytes32⟩, ⟨"change_kind", .uint 8⟩, ⟨"payload", .bytes⟩]
  | .cancelChange => ⟨"change_id", .bytes32⟩ :: authorization
  | .cancelRecovery => authorization
  | .executeRecovery => []

/-- `SAFETY_ACTIONS`. -/
def isSafetyAction : RelayableFunction → Bool
  | .restrict => true
  | .cancelChange => true
  | .cancelRecovery => true
  | _ => false

end RelayableFunction

/-! ## The arguments -/

inductive RelayArg
  | int (value : ℤ)
  | hex (text : Bytes)
deriving DecidableEq

namespace RelayArg

def int? : RelayArg → Option ℤ
  | .int value => some value
  | .hex _ => none

end RelayArg

def badArg (input : AbiInput) : Thrown := relayError 400 ("Bad " ++ input.name ++ ".")

/-- One argument, as the wallet takes it. -/
def relayArg (input : AbiInput) (value : Json) : Except Thrown RelayArg :=
  match input.type, value with
  | .uint _, .str text => (orElse (Sdk.stringToBigInt text) .other).map .int
  | .uint _, .num number => (orElse (Sdk.numberToBigInt number) .other).map .int
  | .uint _, _ => .error (badArg input)
  | type, .str text =>
      if ¬ Sdk.isHex text then .error (badArg input)
      else if type = .bytes ∧ text.length > 2 * 16384 + 2 then
        .error (relayError 413 (input.name ++ " is too large."))
      else .ok (.hex text)
  | _, _ => .error (badArg input)

/-- The arguments, in order, up to the first that is bad. -/
def relayArgs : List AbiInput → List Json → Except Thrown (List RelayArg)
  | input :: inputs, value :: values => do
      let arg ← relayArg input value
      return arg :: (← relayArgs inputs values)
  | _, _ => .ok []

/-! ## The request -/

/-- A body whose account and function name are texts. -/
structure RelayBody where
  account : Bytes
  functionName : Bytes
  args : Json

structure RelayCall where
  account : Bytes
  function : RelayableFunction
  args : List RelayArg
deriving DecidableEq

namespace RelayCall

/-- The signed fee, where the function has one. -/
def fee (call : RelayCall) : Option ℤ :=
  (call.args[call.function.inputs.findIdx fun input => input.name = "fee"]?).bind RelayArg.int?

/-- The account's key in `inFlight`. -/
def busy (call : RelayCall) : Bytes := Sdk.toLowerCase call.account

/-- A restrict whose change is a freeze. -/
def isFreeze (call : RelayCall) : Bool :=
  call.function = .restrict &&
    (call.args.head?.bind RelayArg.int?).any fun kind =>
      kind = (Sdk.ChangeKind.freeze.toNat : ℤ)

end RelayCall

/-- The checks of `relay` before it asks the chain. -/
def checkRelay (keccak : Bytes → B256) (relayerFee : ℤ) (body : RelayBody) :
    Except Thrown RelayCall := do
  let unsupported := relayError 400 "Unsupported relay request."
  rejectIf (¬ Sdk.isAddress keccak body.account) unsupported
  let function ← orElse
    (RelayableFunction.all.find? fun function => ascii function.name = body.functionName)
    unsupported
  let mismatch := relayError 400 "Arguments do not match the function."
  let values ← orElse body.args.items? mismatch
  rejectIf (values.length ≠ function.inputs.length) mismatch
  let args ← relayArgs function.inputs values
  let call : RelayCall := ⟨body.account, function, args⟩
  rejectIf (call.fee.any (· < relayerFee))
    (relayError 402 "The signed relayer fee is too low.")
  return call

end Relay

end VeraKey
