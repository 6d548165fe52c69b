/-
The account's private methods, with every check in the order of the source.
-/
import VeraKey.Account

namespace VeraKey

open ByteCodec Guard

/-- What identifies a change: its kind, then its payload. -/
def changeDataHash (host : Host) (changeKind : UInt8) (payload : Bytes) : B256 :=
  host.keccak (changeKind :: payload)

/-- `B256::from_slice`, which aborts unless the slice is 32 bytes long. -/
def fromSlice (slice : Bytes) : Except Failure B256 :=
  orElse (FixedBytes.ofSlice? 32 slice) .abort

/-- The SHA-256 precompile; its answer is read up to 32 bytes. -/
def sha256 (vm : Vm) (data : Bytes) : Except Failure B256 :=
  match vm.sha256 data with
  | none => .error (.revert (.invalidClientData 0))
  | some out => fromSlice (out.take 32)

namespace VeraKeyAccount

variable (host : Host) (vm : Vm) (s : VeraKeyAccount)

/-! ## Owners -/

def ownerKeyPreimage (epoch : U256) (nullifier : B256) : Bytes :=
  epoch.toBeBytes ++ nullifier.bytes

def ownerKey (epoch : U256) (nullifier : B256) : B256 :=
  host.keccak (ownerKeyPreimage epoch nullifier)

/-- Owners are the entries under the current epoch. -/
def owner (nullifier : B256) : Bool :=
  s.owners (ownerKey host s.ownerEpoch nullifier)

def setOwner (nullifier : B256) (isOwner : Bool) : VeraKeyAccount :=
  { s with
    owners := Function.update s.owners (ownerKey host s.ownerEpoch nullifier) isOwner }

/-! ## Authorization -/

def currentNonce : U256 := .ofU64 s.nonce

def limits : Changes.Limits where
  perTxCap := .ofU128 s.perTxCap
  dailyCap := .ofU128 s.dailyCap
  newPayeeCap := .ofU128 s.newPayeeCap

/-- The largest fee any action may carry. -/
def feeCeiling : U256 := .ofU64 s.maxFee

def buildAction (actionKind : UInt8) (target : Address) (amount : U256)
    (dataHash : B256) (fee : U256) (deadline : UInt64) : Action where
  chainId := host.chainId
  account := host.contractAddress
  nonce := s.currentNonce
  kind := actionKind
  target := target
  amount := amount
  dataHash := dataHash
  fee := fee
  deadline := deadline

/-- The action a proof-authorized call asks the owner to approve. -/
def approvedAction (actionKind : UInt8) (target : Address) (amount : U256)
    (dataHash : B256) (approval : Approval) : Action :=
  s.buildAction host actionKind target amount dataHash approval.fee approval.deadline

/-- The client-data branch of `authorize`. -/
def checkClientData (actionHash : B256) (json : Bytes)
    (payment : Option ClientData.Payment) : Except Failure Unit :=
  if ClientData.spcPrefix <+: json then do
    let payment ← orElse payment (.ofClientDataError .notAnAssertion)
    let rpId ← (ClientData.verifyPayment json actionHash s.origin payment).mapError
      .ofClientDataError
    let digest ← sha256 vm rpId
    rejectIf (digest ≠ s.rpIdHash) (.ofClientDataError .rpIdMismatch)
  else (ClientData.verify json actionHash s.origin).mapError .ofClientDataError

/-- The proof's public inputs. -/
def publicInputs (clientDataHash nullifier : B256) : List B256 :=
  let (cdhHi, cdhLo) := splitLimbs clientDataHash
  let (rpHi, rpLo) := splitLimbs s.rpIdHash
  [cdhHi, cdhLo, rpHi, rpLo, s.appId, nullifier]

/-- Verifies that an owner's passkey authorized exactly this action, then
consumes the nonce.  Returns the action hash. -/
def authorize (actionKind : UInt8) (target : Address) (amount : U256)
    (dataHash : B256) (approval : Approval) (payment : Option ClientData.Payment) :
    Except Failure (VeraKeyAccount × B256) := do
  rejectIf (¬ s.initialized) (.revert .notInitialized)
  rejectIf (approval.fee > s.feeCeiling) (.revert (.feeTooHigh s.feeCeiling))
  let now := vm.blockTimestamp
  rejectIf (approval.deadline < now) (.revert .deadlineExpired)
  rejectIf (approval.deadline > now + maxDeadlineWindow) (.revert .deadlineTooFar)
  rejectIf (¬ s.owner host approval.nullifier) (.revert .notOwner)
  let action := s.approvedAction host actionKind target amount dataHash approval
  let actionHash := host.keccak action.encode
  s.checkClientData vm actionHash approval.clientDataJson payment
  let clientDataHash ← sha256 vm approval.clientDataJson
  rejectIf (¬ vm.verify s.verifier approval.proof
    (s.publicInputs clientDataHash approval.nullifier)) (.revert .invalidProof)
  return ({ s with nonce := s.nonce + 1 }, actionHash)

/-! ## Spending -/

def window : Spending.Window := ⟨s.spendDay, .ofU128 s.spentToday⟩

def checkSpend (amount : U256) : Except Failure Spending.Window :=
  (Spending.spend (.ofU128 s.perTxCap) (.ofU128 s.dailyCap) s.window
    vm.blockTimestamp amount).mapError .ofSpendError

def recordSpend (window : Spending.Window) : Except Failure VeraKeyAccount := do
  let spent ← orElse window.spent.toU128? .abort
  return { s with spendDay := window.day, spentToday := spent }

/-- Charges a safety action's fee; returns the part of `fee` to pay. -/
def chargeFee (fee : U256) : Except Failure (VeraKeyAccount × U256) := do
  let (window, charged) :=
    Spending.chargeFee (.ofU128 s.dailyCap) s.window vm.blockTimestamp fee
  let s ← s.recordSpend window
  return (s, charged)

/-- Appends the transfer to those `made` by this call. -/
def transferUsdg (made : List Transfer) (recipient : Address) (amount : U256) :
    Except Failure (List Transfer) :=
  if amount = 0 then return made
  else do
    let transfer : Transfer := ⟨s.usdg, recipient, amount⟩
    rejectIf (¬ vm.transfer made transfer) (.revert .tokenTransferFailed)
    return made ++ [transfer]

/-- Fees go to the fee recipient, never to the caller. -/
def payFee (made : List Transfer) (fee : U256) : Except Failure (List Transfer) :=
  s.transferUsdg vm made s.feeRecipient fee

/-! ## The pending table -/

/-- One round of the loop of `check_schedule`, with the removals seen so far. -/
def checkSlot (dataHash : B256) (pendingRemovals : UInt64) (index : Fin maxPending) :
    Except Failure UInt64 :=
  let id := s.pendingIds index
  if id = 0 then return pendingRemovals
  else do
    rejectIf ((s.pending id).payloadHash = dataHash) (.revert .changeAlreadyPending)
    return if (s.pending id).changeKind = Changes.removeOwner then pendingRemovals + 1
      else pendingRemovals

/-- A change can be scheduled only if it could apply. -/
def checkSchedule (changeKind : UInt8) (payload : Bytes) : Except Failure Unit := do
  rejectIf (changeKind = Changes.freeze ∨ ¬ Changes.isValid changeKind payload ∨
    ¬ Changes.keepsFeesPayable changeKind payload s.feeCeiling) (.revert .invalidChange)
  let dataHash := changeDataHash host changeKind payload
  let pendingRemovals ← (List.finRange maxPending).foldlM (s.checkSlot dataHash) 0
  if changeKind = Changes.addOwner then do
    let nullifier ← fromSlice payload
    rejectIf (s.owner host nullifier) (.revert .alreadyOwner)
  else if changeKind = Changes.removeOwner then do
    let nullifier ← fromSlice payload
    rejectIf (¬ s.owner host nullifier) (.revert .notOwner)
    rejectIf (s.ownerCount ≤ 1 + pendingRemovals) (.revert .lastOwner)
  else return ()

def setPendingId (index : Fin maxPending) (id : B256) : VeraKeyAccount :=
  { s with pendingIds := Function.update s.pendingIds index id }

@[simps -fullyApplied]
def setPending (changeId : B256) (change : PendingChange) : VeraKeyAccount :=
  { s with pending := Function.update s.pending changeId change }

/-- The first slot that holds `id`, as the loops look for it. -/
def findPending (id : B256) : Option (Fin maxPending) :=
  (List.finRange maxPending).find? fun index => s.pendingIds index = id

def trackPending (changeId : B256) : Except Failure VeraKeyAccount := do
  let index ← orElse (s.findPending 0) (.revert .tooManyPendingChanges)
  return s.setPendingId index changeId

def clearPending (changeId : B256) : VeraKeyAccount :=
  let s := s.setPending changeId 0
  match s.findPending changeId with
  | some index => s.setPendingId index 0
  | none => s

/-- One round of the loop of `cancel_pending_changes`. -/
def cancelSlot (keepGuardianChanges : Bool) :
    VeraKeyAccount × List Event → Fin maxPending → VeraKeyAccount × List Event :=
  fun (s, logs) index =>
    let changeId := s.pendingIds index
    if changeId = 0 then (s, logs)
    else if keepGuardianChanges ∧
        (s.pending changeId).changeKind = Changes.setGuardian then (s, logs)
    else (s.clearPending changeId, logs ++ [.changeCancelled changeId])

/-- Cancels every scheduled change, or all but changes to the guardian. -/
def cancelPendingChanges (keepGuardianChanges : Bool) : VeraKeyAccount × List Event :=
  (List.finRange maxPending).foldl (cancelSlot keepGuardianChanges) (s, [])

def pendingEta (changeId : B256) : UInt64 := (s.pending changeId).eta

/-- The scheduled changes that are still waiting. -/
def pendingChangeIds : List B256 :=
  ((List.finRange maxPending).map s.pendingIds).filter (· ≠ 0)

@[simps -fullyApplied]
def setKnownRecipient (recipient : Address) : VeraKeyAccount :=
  { s with knownRecipients := Function.update s.knownRecipients recipient true }

/-! ## The guardian and recovery -/

/-- The caller is the guardian if it opens the stored commitment. -/
def requireGuardian (salt : B256) : Except Failure Unit :=
  let claimed := host.keccak
    (Changes.guardianPreimage host.contractAddress vm.msgSender salt)
  rejectIf (s.guardianCommitment = 0 ∨ claimed ≠ s.guardianCommitment)
    (.revert .notGuardian)

/-- Also returns the nullifier that was waiting. -/
def clearRecovery : VeraKeyAccount × B256 :=
  ({ s with recoveryNullifier := 0, recoveryEta := 0 }, s.recoveryNullifier)

/-! ## Applying a change -/

/-- Applies a change, which is validated again so that no path can apply a
malformed one. -/
def apply (changeKind : UInt8) (payload : Bytes) :
    Except Failure (VeraKeyAccount × List Event) := do
  rejectIf (¬ Changes.isValid changeKind payload) (.revert .invalidChange)
  if changeKind = Changes.addOwner then do
    let nullifier ← fromSlice payload
    rejectIf (s.owner host nullifier) (.revert .alreadyOwner)
    return ({ s.setOwner host nullifier true with ownerCount := s.ownerCount + 1 }, [])
  else if changeKind = Changes.removeOwner then do
    let nullifier ← fromSlice payload
    rejectIf (¬ s.owner host nullifier) (.revert .notOwner)
    rejectIf (s.ownerCount ≤ 1) (.revert .lastOwner)
    return ({ s.setOwner host nullifier false with ownerCount := s.ownerCount - 1 }, [])
  else if changeKind = Changes.setLimits then
    let perTx := (Changes.wordU128 (payload.take 32)).getD 0
    let daily := (Changes.wordU128 (payload.drop 32)).getD 0
    return ({ s with perTxCap := perTx, dailyCap := daily }, [])
  else if changeKind = Changes.setRecipient then
    let recipient := (Changes.wordAddress (payload.take 32)).getD 0
    let allowed := (Changes.wordBool (payload.drop 32)).getD false
    return ({ s with
      allowedRecipients := Function.update s.allowedRecipients recipient allowed }, [])
  else if changeKind = Changes.setAllowlist then
    return ({ s with allowlistEnabled := (Changes.wordBool payload).getD false }, [])
  else if changeKind = Changes.setGuardian then do
    let commitment ← fromSlice payload
    let s := { s with guardianCommitment := commitment }
    -- a recovery belongs to the guardian that started it
    if s.recoveryEta ≠ 0 then
      let (s, nullifier) := s.clearRecovery
      return (s, [.recoveryCancelled nullifier])
    else return (s, [])
  else if changeKind = Changes.setNewPayeeCap then
    return ({ s with newPayeeCap := (Changes.wordU128 payload).getD 0 }, [])
  else if changeKind = Changes.setPaymentSheet then
    return ({ s with paymentSheetRequired := (Changes.wordBool payload).getD false }, [])
  else if changeKind = Changes.freeze then return ({ s with frozen := true }, [])
  else if changeKind = Changes.unfreeze then return ({ s with frozen := false }, [])
  else .error (.revert .invalidChange)

end VeraKeyAccount

end VeraKey
