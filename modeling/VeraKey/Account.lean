/-
The account contract's storage, its errors and events, and what a call sees of
the chain around it: the block, the caller, and the contracts it calls.
-/
import VeraKey.Action
import VeraKey.Changes
import VeraKey.ClientData
import VeraKey.Config
import VeraKey.SlotTable
import VeraKey.Spending

namespace VeraKey

open ByteCodec Guard

/-- Longest validity an authorization may request. -/
def maxDeadlineWindow : UInt64 := 600

/-- Most scheduled changes that may wait at once. -/
abbrev maxPending : ℕ := 8

inductive AccountError
  | alreadyInitialized
  | notInitialized
  | invalidConfig
  | deadlineExpired
  | deadlineTooFar
  | notOwner
  | invalidClientData (code : UInt8)
  | invalidProof
  | invalidAmount
  | invalidRecipient
  | recipientNotAllowed
  | perTxCapExceeded
  | dailyCapExceeded
  | newPayeeCapExceeded (cap : U256)
  | feeTooHigh (maxFee : U256)
  | paymentSheetRequired
  | accountFrozen
  | invalidChange
  | notRestrictive
  | unknownChange
  | changeNotReady (eta : UInt64)
  | tooManyPendingChanges
  | notGuardian
  | cannotVetoGuardianChange
  | noRecovery
  | recoveryNotReady (eta : UInt64)
  | lastOwner
  | alreadyOwner
  | tokenTransferFailed
  | changeAlreadyPending
deriving DecidableEq

/-- A call that does not succeed reverts with an error or aborts; its effects
are undone either way. -/
inductive Failure
  | revert (error : AccountError)
  | abort
deriving DecidableEq

def Failure.ofSpendError : Spending.SpendError → Failure
  | .perTxCapExceeded => .revert .perTxCapExceeded
  | .dailyCapExceeded => .revert .dailyCapExceeded

def Failure.ofClientDataError (error : ClientData.ClientDataError) : Failure :=
  .revert (.invalidClientData error.code)

inductive Event
  | initialized (appId ownerNullifier : B256) (factory : Address)
  | paid (nonce : U256) (recipient : Address) (amount fee : U256) (submitter : Address)
  | changeScheduled (changeId : B256) (changeKind : UInt8) (payload : Bytes)
      (eta : UInt64)
  | changeApplied (changeId : B256) (changeKind : UInt8)
  | changeCancelled (changeId : B256)
  | restricted (restrictionId : B256) (changeKind : UInt8) (payload : Bytes)
  | guardianFroze
  | recoveryInitiated (newNullifier : B256) (eta : UInt64)
  | recoveryExecuted (newNullifier : B256) (ownerEpoch : U256)
  | recoveryCancelled (newNullifier : B256)
deriving DecidableEq

/-! ## Storage -/

/-- A scheduled change; all zero when there is none. -/
structure PendingChange where
  changeKind : UInt8
  eta : UInt64
  payloadHash : B256
  ownerEpoch : U256
deriving DecidableEq

instance : Zero PendingChange := ⟨⟨0, 0, 0, 0⟩⟩

/-- The storage of one account, in the order of its slots. -/
structure VeraKeyAccount where
  initialized : Bool
  factory : Address
  changeDelay : UInt64
  frozen : Bool
  allowlistEnabled : Bool
  paymentSheetRequired : Bool
  verifier : Address
  recoveryDelay : UInt64
  usdg : Address
  ownerCount : UInt64
  perTxCap : U128
  dailyCap : U128
  newPayeeCap : U128
  recoveryEta : UInt64
  maxFee : UInt64
  nonce : UInt64
  spendDay : UInt64
  spentToday : U128
  feeRecipient : Address
  appId : B256
  rpIdHash : B256
  origin : Bytes
  ownerEpoch : U256
  guardianCommitment : B256
  recoveryNullifier : B256
  pendingIds : Fin maxPending → B256
  owners : B256 → Bool
  allowedRecipients : Address → Bool
  knownRecipients : Address → Bool
  pending : B256 → PendingChange

namespace VeraKeyAccount

/-- A clone right after it was deployed: nothing is written yet. -/
def fresh : VeraKeyAccount where
  initialized := false
  factory := 0
  changeDelay := 0
  frozen := false
  allowlistEnabled := false
  paymentSheetRequired := false
  verifier := 0
  recoveryDelay := 0
  usdg := 0
  ownerCount := 0
  perTxCap := 0
  dailyCap := 0
  newPayeeCap := 0
  recoveryEta := 0
  maxFee := 0
  nonce := 0
  spendDay := 0
  spentToday := 0
  feeRecipient := 0
  appId := 0
  rpIdHash := 0
  origin := []
  ownerEpoch := 0
  guardianCommitment := 0
  recoveryNullifier := 0
  pendingIds := fun _ => 0
  owners := fun _ => false
  allowedRecipients := fun _ => false
  knownRecipients := fun _ => false
  pending := fun _ => 0

end VeraKeyAccount

/-! ## The chain around a call -/

/-- What is fixed for one account: the chain it is on, its own address, and the
hash function. -/
structure Host where
  keccak : Bytes → B256
  chainId : UInt64
  contractAddress : Address

/-- One token transfer out of the account. -/
structure Transfer where
  token : Address
  recipient : Address
  amount : U256
deriving DecidableEq

/-- What one call sees: the block time, the caller, the SHA-256 precompile
(`none` when that call fails), the proof verifier, and whether the token accepts
a transfer after the transfers this call already made. -/
structure Vm where
  blockTimestamp : UInt64
  msgSender : Address
  sha256 : Bytes → Option Bytes
  verify : Address → Bytes → List B256 → Bool
  transfer : List Transfer → Transfer → Bool

/-- The owner's part of a proof-authorized call. -/
structure Approval where
  fee : U256
  deadline : UInt64
  nullifier : B256
  clientDataJson : Bytes
  proof : Bytes

/-- What a successful call leaves behind and returns. -/
structure Outcome where
  account : VeraKeyAccount
  transfers : List Transfer
  logs : List Event
  returned : Option B256

end VeraKey
