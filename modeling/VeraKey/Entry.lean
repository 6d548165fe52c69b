/-
The account's entry points.  Each returns what a successful call leaves behind;
a call that fails leaves nothing.
-/
import VeraKey.Internals

namespace VeraKey

open ByteCodec Guard

/-- The arguments of `initialize`. -/
structure Configuration where
  appId : B256
  ownerNullifier : B256
  verifier : Address
  usdg : Address
  rpIdHash : B256
  origin : Bytes
  perTxCap : U256
  dailyCap : U256
  newPayeeCap : U256
  changeDelay : UInt64
  recoveryDelay : UInt64
  feeRecipient : Address
  maxFee : U256

def Configuration.policy (c : Configuration) : Config.Policy where
  perTxCap := c.perTxCap
  dailyCap := c.dailyCap
  newPayeeCap := c.newPayeeCap
  changeDelay := c.changeDelay
  recoveryDelay := c.recoveryDelay
  maxFee := c.maxFee
  originLen := c.origin.length

/-- The check of `initialize`. -/
def Configuration.valid (c : Configuration) : Bool :=
  isFieldElement c.appId && isFieldElement c.ownerNullifier &&
    c.ownerNullifier ≠ 0 && c.verifier ≠ 0 && c.usdg ≠ 0 && c.feeRecipient ≠ 0 &&
    Config.isValidPolicy c.policy

namespace VeraKeyAccount

variable (host : Host) (vm : Vm) (s : VeraKeyAccount)

/-- The entry point `initialize`, called by the factory when it deploys a clone. -/
def initializeAccount (c : Configuration) : Except Failure Outcome := do
  rejectIf s.initialized (.revert .alreadyInitialized)
  rejectIf (¬ c.valid) (.revert .invalidConfig)
  let perTxCap ← orElse c.perTxCap.toU128? .abort
  let dailyCap ← orElse c.dailyCap.toU128? .abort
  let newPayeeCap ← orElse c.newPayeeCap.toU128? .abort
  let maxFee ← orElse c.maxFee.toU64? .abort
  let s := { s with
    initialized := true
    factory := vm.msgSender
    changeDelay := c.changeDelay
    verifier := c.verifier
    recoveryDelay := c.recoveryDelay
    usdg := c.usdg
    ownerCount := 1
    perTxCap := perTxCap
    dailyCap := dailyCap
    newPayeeCap := newPayeeCap
    maxFee := maxFee
    feeRecipient := c.feeRecipient
    appId := c.appId
    rpIdHash := c.rpIdHash
    origin := c.origin }
  return {
    account := s.setOwner host c.ownerNullifier true
    transfers := []
    logs := [.initialized c.appId c.ownerNullifier vm.msgSender]
    returned := none }

/-- Pays `amount` to `recipient`, plus the fee to the fee recipient. -/
def pay (recipient : Address) (amount : U256) (approval : Approval) :
    Except Failure Outcome := do
  rejectIf s.frozen (.revert .accountFrozen)
  rejectIf (amount = 0) (.revert .invalidAmount)
  rejectIf (recipient = 0 ∨ recipient = host.contractAddress) (.revert .invalidRecipient)
  let allowlisted := s.allowedRecipients recipient
  rejectIf (s.allowlistEnabled ∧ ¬ allowlisted) (.revert .recipientNotAllowed)
  rejectIf (s.paymentSheetRequired ∧ ¬ ClientData.spcPrefix <+: approval.clientDataJson)
    (.revert .paymentSheetRequired)
  let total ← orElse (amount.checkedAdd approval.fee) (.revert .invalidAmount)
  let window ← s.checkSpend vm total
  let known := s.knownRecipients recipient
  rejectIf (¬ known ∧ ¬ allowlisted ∧ amount > .ofU128 s.newPayeeCap)
    (.revert (.newPayeeCapExceeded (.ofU128 s.newPayeeCap)))
  let nonce := s.currentNonce
  let shown ← orElse total.toU128? .abort
  let (s, _) ← s.authorize host vm Kind.pay recipient amount 0 approval
    (some ⟨recipient, shown⟩)
  let s ← s.recordSpend window
  let s := if known then s else s.setKnownRecipient recipient
  let transfers ← s.transferUsdg vm [] recipient amount
  let transfers ← s.payFee vm transfers approval.fee
  return {
    account := s
    transfers := transfers
    logs := [.paid nonce recipient amount approval.fee vm.msgSender]
    returned := none }

/-- How long a change waits: a change to the guardian waits for the recovery
delay on top. -/
def scheduleDelay (changeKind : UInt8) : UInt64 :=
  if changeKind = Changes.setGuardian then s.changeDelay + s.recoveryDelay
  else s.changeDelay

/-- Schedules a change; it can be applied after the change delay. -/
def scheduleChange (changeKind : UInt8) (payload : Bytes) (approval : Approval) :
    Except Failure Outcome := do
  s.checkSchedule host changeKind payload
  let dataHash := changeDataHash host changeKind payload
  let window ← s.checkSpend vm approval.fee
  let (s, changeId) ← s.authorize host vm Kind.scheduleChange 0 0 dataHash approval none
  let s ← s.recordSpend window
  let s ← s.trackPending changeId
  let eta := vm.blockTimestamp + s.scheduleDelay changeKind
  let s := s.setPending changeId {
    changeKind := changeKind
    eta := eta
    payloadHash := dataHash
    ownerEpoch := s.ownerEpoch }
  let transfers ← s.payFee vm [] approval.fee
  return {
    account := s
    transfers := transfers
    logs := [.changeScheduled changeId changeKind payload eta]
    returned := some changeId }

/-- Applies a tightening change at once. -/
def restrict (changeKind : UInt8) (payload : Bytes) (approval : Approval) :
    Except Failure Outcome := do
  rejectIf (¬ Changes.isRestrictive changeKind payload s.limits) (.revert .notRestrictive)
  rejectIf (¬ Changes.keepsFeesPayable changeKind payload s.feeCeiling)
    (.revert .invalidChange)
  let dataHash := changeDataHash host changeKind payload
  let (s, restrictionId) ← s.authorize host vm Kind.restrict 0 0 dataHash approval none
  let (s, charged) ← s.chargeFee vm approval.fee
  let (s, applied) ← s.apply host changeKind payload
  let (s, cancelled) :=
    if changeKind = Changes.freeze then s.cancelPendingChanges false else (s, [])
  let transfers ← s.payFee vm [] charged
  return {
    account := s
    transfers := transfers
    logs := applied ++ cancelled ++ [.restricted restrictionId changeKind payload]
    returned := some restrictionId }

/-- Applies a scheduled change once its timelock has passed; anyone may call. -/
def applyChange (changeId : B256) (changeKind : UInt8) (payload : Bytes) :
    Except Failure Outcome := do
  rejectIf (¬ s.initialized) (.revert .notInitialized)
  let pending := s.pending changeId
  rejectIf (pending.eta = 0 ∨ pending.changeKind ≠ changeKind ∨
    pending.payloadHash ≠ changeDataHash host changeKind payload ∨
    pending.ownerEpoch ≠ s.ownerEpoch) (.revert .unknownChange)
  rejectIf (vm.blockTimestamp < pending.eta) (.revert (.changeNotReady pending.eta))
  let s := s.clearPending changeId
  let (s, applied) ← s.apply host changeKind payload
  return {
    account := s
    transfers := []
    logs := applied ++ [.changeApplied changeId changeKind]
    returned := none }

/-- Cancels a scheduled change with an owner's proof. -/
def cancelChange (changeId : B256) (approval : Approval) : Except Failure Outcome := do
  rejectIf (s.pendingEta changeId = 0) (.revert .unknownChange)
  let (s, _) ← s.authorize host vm Kind.cancelChange 0 0 changeId approval none
  let (s, charged) ← s.chargeFee vm approval.fee
  let s := s.clearPending changeId
  let transfers ← s.payFee vm [] charged
  return {
    account := s
    transfers := transfers
    logs := [.changeCancelled changeId]
    returned := none }

/-- Lets the guardian veto a scheduled change, except a change to itself. -/
def guardianCancelChange (changeId salt : B256) : Except Failure Outcome := do
  s.requireGuardian host vm salt
  rejectIf (s.pendingEta changeId = 0) (.revert .unknownChange)
  rejectIf ((s.pending changeId).changeKind = Changes.setGuardian)
    (.revert .cannotVetoGuardianChange)
  return {
    account := s.clearPending changeId
    transfers := []
    logs := [.changeCancelled changeId]
    returned := none }

/-- Lets the guardian stop all payments at once. -/
def guardianFreeze (salt : B256) : Except Failure Outcome := do
  rejectIf (¬ s.initialized) (.revert .notInitialized)
  s.requireGuardian host vm salt
  let (s, cancelled) := { s with frozen := true }.cancelPendingChanges true
  return {
    account := s
    transfers := []
    logs := cancelled ++ [.guardianFroze]
    returned := none }

/-- Starts replacing every owner, effective after the recovery delay. -/
def initiateRecovery (newNullifier salt : B256) : Except Failure Outcome := do
  rejectIf (¬ s.initialized) (.revert .notInitialized)
  s.requireGuardian host vm salt
  rejectIf (newNullifier = 0 ∨ ¬ isFieldElement newNullifier) (.revert .invalidChange)
  let eta := vm.blockTimestamp + s.recoveryDelay
  return {
    account := { s with recoveryNullifier := newNullifier, recoveryEta := eta }
    transfers := []
    logs := [.recoveryInitiated newNullifier eta]
    returned := none }

/-- Completes a recovery after its delay; anyone may call. -/
def executeRecovery : Except Failure Outcome := do
  let eta := s.recoveryEta
  rejectIf (eta = 0) (.revert .noRecovery)
  rejectIf (vm.blockTimestamp < eta) (.revert (.recoveryNotReady eta))
  let (s, nullifier) := s.clearRecovery
  let (s, cancelled) := s.cancelPendingChanges false
  let s := { s with ownerEpoch := s.ownerEpoch + 1 }
  let s := { s.setOwner host nullifier true with ownerCount := 1 }
  return {
    account := s
    transfers := []
    logs := cancelled ++ [.recoveryExecuted nullifier s.ownerEpoch]
    returned := none }

/-- Cancels a pending recovery with an owner's proof. -/
def cancelRecovery (approval : Approval) : Except Failure Outcome := do
  let pending := s.recoveryNullifier
  rejectIf (s.recoveryEta = 0) (.revert .noRecovery)
  let (s, _) ← s.authorize host vm Kind.cancelRecovery 0 0 pending approval none
  let (s, charged) ← s.chargeFee vm approval.fee
  let (s, _) := s.clearRecovery
  let transfers ← s.payFee vm [] charged
  return {
    account := s
    transfers := transfers
    logs := [.recoveryCancelled pending]
    returned := none }

/-- Lets the guardian withdraw its own recovery. -/
def guardianCancelRecovery (salt : B256) : Except Failure Outcome := do
  s.requireGuardian host vm salt
  rejectIf (s.recoveryEta = 0) (.revert .noRecovery)
  let (s, nullifier) := s.clearRecovery
  return {
    account := s
    transfers := []
    logs := [.recoveryCancelled nullifier]
    returned := none }

end VeraKeyAccount

/-- A call to one of the entry points. -/
inductive Call
  | initializeAccount (configuration : Configuration)
  | pay (recipient : Address) (amount : U256) (approval : Approval)
  | scheduleChange (changeKind : UInt8) (payload : Bytes) (approval : Approval)
  | restrict (changeKind : UInt8) (payload : Bytes) (approval : Approval)
  | applyChange (changeId : B256) (changeKind : UInt8) (payload : Bytes)
  | cancelChange (changeId : B256) (approval : Approval)
  | guardianCancelChange (changeId salt : B256)
  | guardianFreeze (salt : B256)
  | initiateRecovery (newNullifier salt : B256)
  | executeRecovery
  | cancelRecovery (approval : Approval)
  | guardianCancelRecovery (salt : B256)

/-- Run one call on an account. -/
def VeraKeyAccount.exec (host : Host) (vm : Vm) (s : VeraKeyAccount) :
    Call → Except Failure Outcome
  | .initializeAccount configuration => s.initializeAccount host vm configuration
  | .pay recipient amount approval => s.pay host vm recipient amount approval
  | .scheduleChange changeKind payload approval =>
      s.scheduleChange host vm changeKind payload approval
  | .restrict changeKind payload approval => s.restrict host vm changeKind payload approval
  | .applyChange changeId changeKind payload =>
      s.applyChange host vm changeId changeKind payload
  | .cancelChange changeId approval => s.cancelChange host vm changeId approval
  | .guardianCancelChange changeId salt => s.guardianCancelChange host vm changeId salt
  | .guardianFreeze salt => s.guardianFreeze host vm salt
  | .initiateRecovery newNullifier salt => s.initiateRecovery host vm newNullifier salt
  | .executeRecovery => s.executeRecovery host vm
  | .cancelRecovery approval => s.cancelRecovery host vm approval
  | .guardianCancelRecovery salt => s.guardianCancelRecovery host vm salt

end VeraKey
