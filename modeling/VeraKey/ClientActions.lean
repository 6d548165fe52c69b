/-
The client's actions, from the reads before the prompt to the relayed transaction.  The chain,
the authenticator, the prover and the relayer may answer anything, and other calls of the client
run while one waits.
-/
import VeraKey.Async
import VeraKey.FormatTotal
import VeraKey.PasskeyClient
import VeraKey.RelayRequest

namespace VeraKey

open ByteCodec TextCodec

namespace Client

open Relay (RelayableFunction)
open Sdk (PasskeyPublicKey StoredPasskey computeNullifier credentialIdBytes
  hashAction)

/-! ## What is thrown -/

inductive ClientThrown
  /-- A `VeraKeyError`, and the contract error it names. -/
  | described (error : VeraKeyError) (revert : Option Bytes)
  /-- A `RelayerError`. -/
  | relayer (message : Bytes) (status : ℕ) (revert : Option Bytes)
  | thrown (error : JsError)

def Failure.toThrown : Failure → ClientThrown
  | .described error => .described error none
  | .thrown error => .thrown error

/-- `POLICY_REVERTS`. -/
def policyReverts : List Bytes :=
  ["PerTxCapExceeded", "DailyCapExceeded", "RecipientNotAllowed", "InvalidRecipient",
    "InvalidAmount", "NotOwner", "ChangeNotReady", "UnknownChange", "LastOwner", "AlreadyOwner",
    "RecoveryNotReady", "NoRecovery", "NewPayeeCapExceeded", "AccountFrozen", "NotRestrictive",
    "FeeTooHigh", "PaymentSheetRequired", "TooManyPendingChanges", "CannotVetoGuardianChange",
    "ChangeAlreadyPending"].map ascii

/-- `formatUnits`. -/
def formatUnits (value : ℤ) (decimals : ℕ) : Bytes :=
  let digits := padStart decimals 48 (ascii (toString value.natAbs))
  let whole := digits.take (digits.length - decimals)
  let fraction := (digits.drop (digits.length - decimals)).rdropWhile (· = 48)
  (if value < 0 then ascii "-" else []) ++ (if whole = [] then ascii "0" else whole) ++
    if fraction = [] then [] else ascii "." ++ fraction

/-! ## What the client asks -/

/-- The configuration that the actions read. -/
structure ClientConfig where
  chainId : ℤ
  factory : Bytes
  /-- What account addresses are computed from, where it is configured. -/
  accountImplementation : Option Bytes
  configHash : Option Bytes
  rpId : Bytes
  rpIdHash : Bytes
  relayerFee : ℤ
  /-- Whether a payment instrument is configured. -/
  paymentInstrument : Bool

/-- What an account says of its nonce, of its protections and of its fees. -/
structure AccountView where
  nonce : ℤ
  paymentSheetRequired : Bool
  maxFee : ℤ

structure AssertionRequest where
  rpId : Bytes
  challenge : B256
  credentialIds : List Bytes

/-- What a payment sheet shows. -/
structure SheetRequest where
  payee : Bytes
  total : ℤ

/-- The inputs of `prove`. -/
structure WitnessInput where
  publicKey : PasskeyPublicKey
  signature : Bytes
  authenticatorData : Bytes
  prfSecret : Bytes
  clientDataJson : Bytes
  rpIdHash : Bytes
  appId : ℕ
  nullifier : ℕ

structure VeraKeyProof where
  proof : Bytes
  publicInputs : List Bytes
  provingMs : ℕ

/-- An argument on its way to the relayer; a hex text stands as the bytes it spells. -/
inductive CallArg
  | bigint (value : ℤ)
  | number (value : ℕ)
  | hex (bytes : Bytes)
deriving DecidableEq

inductive RelayerPost
  | accounts (appId nullifier : ℕ)
  | relay (account : Address) (functionName : RelayableFunction) (args : List CallArg)
deriving DecidableEq

/-- The fields of the relayer's answer that the client reads. -/
structure RelayerData where
  error : Option Bytes
  revert : Option Bytes
  hash : Option Bytes
  account : Address

/-- An answer; one that is no JSON has no fields, and JSON's null has no data. -/
inductive RelayerAnswer
  | offline (error : JsError)
  | answered (status : ℕ) (data : Option RelayerData)

structure TransactionReceipt where
  success : Bool
  /-- The id and the eta of its `ChangeScheduled`, and the id of its `Restricted`. -/
  scheduled : Option (B256 × ℤ)
  restricted : Option B256

inductive ProofState
  | idle
  | authenticating
  | proving (startedAt : ℤ)
  | relaying (provingMs : ℕ)
  | confirming (provingMs : ℕ) (hash : Option Bytes)
  | verified (provingMs : ℕ) (hash : Option Bytes) (input : Bytes) (publicKey : PasskeyPublicKey)
  | rejected (stage : RejectionStage) (message : Bytes) (revert : Option Bytes)

inductive ClientAsk
  /-- The ceremony of `authenticate`. -/
  | authenticate (passkey : Option StoredPasskey)
  | prover
  /-- The hash of a nullifier is computed. -/
  | poseidon2
  | predictAddress (appId nullifier : ℕ)
  | getCode (account : Address)
  | accountView (account : Address)
  | balanceOf (account : Address)
  /-- `Date.now()`. -/
  | now
  | spcAvailability
  | getAssertion (request : AssertionRequest)
  | getSpcAssertion (request : AssertionRequest) (sheet : SheetRequest)
  | prove (input : WitnessInput)
  | post (request : RelayerPost)
  /-- The time between two attempts. -/
  | pause
  | waitForTransactionReceipt (hash : Option Bytes)
  | getTransaction (hash : Option Bytes)
  | emit (state : ProofState)

abbrev ClientReply : ClientAsk → Type
  | .authenticate _ => Except Failure Session
  | .prover => Except JsError Unit
  | .poseidon2 => Unit
  | .predictAddress _ _ => Except JsError Address
  | .getCode _ => Except JsError (Option Bytes)
  | .accountView _ => Except JsError AccountView
  | .balanceOf _ => Except JsError ℤ
  | .now => ℤ
  | .spcAvailability => Bytes
  | .getAssertion _ => Except JsError (Option AssertedCredential)
  | .getSpcAssertion _ _ => Except JsError AssertedCredential
  -- what is no `ProofGenerationError` has no text
  | .prove _ => Except (Option Bytes) VeraKeyProof
  | .post _ => RelayerAnswer
  | .pause => Unit
  | .waitForTransactionReceipt _ => Except JsError TransactionReceipt
  | .getTransaction _ => Except JsError Bytes
  | .emit _ => Unit

/-! ## The client's state -/

deriving instance DecidableEq for Session

/-- A session, which is the object that its unlock made. -/
structure LiveSession extends Session where
  object : ℕ
deriving DecidableEq

structure ClientState where
  currentSession : Option LiveSession
  /-- The nullifiers of the current session. -/
  nullifiers : ℕ → Option ℕ
  /-- The sessions made so far. -/
  made : ℕ

def ClientState.fresh : ClientState := ⟨none, fun _ => none, 0⟩

/-- `session === this.currentSession`. -/
def ClientState.isCurrent (state : ClientState) (session : LiveSession) : Bool :=
  state.currentSession = some session

abbrev ClientAsync := Async ClientState ClientAsk ClientReply ClientThrown

section Functions

variable (config : ClientConfig) (libraries : Libraries) (keccak : Bytes → B256)

def ask (question : ClientAsk) : ClientAsync (ClientReply question) := Async.question question

/-- A reply that may be a failure. -/
def attempt {α : Type} (reply : Except JsError α) : ClientAsync α :=
  Async.lift (reply.mapError .thrown)

def reject {α : Type} (stage : RejectionStage) (message : Bytes) : ClientAsync α :=
  throw (.described ⟨stage, message⟩ none)

/-! ### Sessions -/

/-- A session becomes the client's. -/
def startSession (session : Session) : ClientAsync LiveSession := do
  let state ← Async.get
  let live : LiveSession := { session with object := state.made }
  Async.set ⟨some live, fun _ => none, state.made + 1⟩
  return live

def unlockSession (passkey : Option StoredPasskey) : ClientAsync LiveSession := do
  let session ← ask (.authenticate passkey)
  startSession (← Async.lift (session.mapError Failure.toThrown))

def lock : ClientAsync Unit := do
  let state ← Async.get
  Async.set ⟨none, fun _ => none, state.made⟩

def requireSession : ClientAsync LiveSession := do
  let state ← Async.get
  match state.currentSession with
  | some session => return session
  | none => reject .authentication (ascii "Unlock a passkey first.")

/-- The owner id of a session's passkey in an app. -/
def nullifierOf (appId : ℕ) (session : LiveSession) : ClientAsync ℕ := do
  let state ← Async.get
  match if state.isCurrent session then state.nullifiers appId else none with
  | some cached => return cached
  | none =>
      attempt (← ask .prover)
      ask .poseidon2
      match computeNullifier libraries.proofs session.publicKey session.prfSecret appId with
      | none => throw (.thrown .unread)
      | some value =>
          let state ← Async.get
          if state.isCurrent session then
            Async.set
              { state with nullifiers := Function.update state.nullifiers appId (some value) }
          return value

def nullifier (appId : ℕ) : ClientAsync ℕ := do
  nullifierOf libraries appId (← requireSession)

/-! ### The relayer -/

def nullError : JsError := .error (ascii "Cannot read properties of null")

/-- `post`. -/
def post (request : RelayerPost) : ClientAsync (Option RelayerData) := do
  match ← ask (.post request) with
  | .offline error => throw (.thrown error)
  | .answered status data =>
      if 200 ≤ status ∧ status ≤ 299 then return data
      else
        match data with
        | none => throw (.thrown nullError)
        | some data =>
            throw (.relayer
              (data.error.getD (ascii ("Relayer returned HTTP " ++ toString status)))
              status data.revert)

/-- `BUSY_RETRIES`. -/
def busyRetries : ℕ := 10

/-- `relay`, with so many attempts left after this one. -/
def relayAttempt (request : RelayerPost) : (retries : ℕ) → ClientAsync (Option RelayerData)
  | 0 => post request
  | retries + 1 =>
      tryCatch (post request) fun
        | .relayer _ 409 _ => do
            ask .pause
            relayAttempt request retries
        | thrown => throw thrown

def relay (account : Address) (functionName : RelayableFunction) (args : List CallArg) :
    ClientAsync (Option RelayerData) :=
  relayAttempt (.relay account functionName args) busyRetries

/-- `ensureAccount`. -/
def ensureAccount (appId : ℕ) : ClientAsync Address := do
  let nullifier ← nullifier libraries appId
  match ← post (.accounts appId nullifier) with
  | none => throw (.thrown nullError)
  | some data =>
      if data.hash.any (· ≠ []) then
        let _ ← attempt (← ask (.waitForTransactionReceipt data.hash))
      return data.account

/-! ### Authorizing -/

/-- The action that an approval is for, apart from what `authorize` adds. -/
structure ActionRequest where
  kind : ℤ
  target : Address
  amount : ℤ
  dataHash : Bytes

inductive ConfirmedBy
  | paymentSheet
  | passkey

/-- What an approval of an action comes to. -/
structure Authorization where
  account : Address
  nullifier : ℕ
  fee : ℤ
  deadline : ℤ
  actionHash : B256
  clientDataJson : Bytes
  proof : Bytes
  provingMs : ℕ
  confirmedBy : ConfirmedBy

def authenticatorDataLength : ℕ := 37

/-- `ActionKind.Pay`. -/
def actionPay : ℤ := 1

/-- The seconds from the prompt to the deadline, `MAX_DEADLINE_WINDOW / 2`. -/
def deadlineWindow : ℤ := 300

def canConfirmPayments (session : LiveSession) : ClientAsync Bool := do
  if session.passkey.payment = true ∧ config.paymentInstrument = true then
    return (← ask .spcAvailability) = ascii "available"
  else return false

/-- What the chain says before the prompt; an account that is not there yet says nothing. -/
def readAccount (account : Address) : ClientAsync (Option AccountView) := do
  let code ← attempt (← ask (.getCode account))
  if code.any fun code => code ≠ [] ∧ code ≠ ascii "0x" then
    return some (← attempt (← ask (.accountView account)))
  else return none

/-- A prompt whose result is an assertion, or the error that describes why not. -/
def plainPrompt (request : AssertionRequest) : ClientAsync PasskeyAssertion := do
  match getAssertion libraries false (← ask (.getAssertion request)) with
  | .ok assertion => return assertion
  | .error error => throw (.described (describeWebAuthnError error) none)

/-- The credential of a payment sheet. -/
def sheetAssertion (credential : AssertedCredential) : Except JsError PasskeyAssertion := do
  return {
    credentialId := credential.rawId
    authenticatorData := credential.authenticatorData
    clientDataJson := credential.clientDataJson
    signature := ← libraries.derToLowS credential.signature
    prfSecret := none }

/-- The payment sheet; there is no second chance through the plain prompt. -/
def sheetPrompt (request : AssertionRequest) (sheet : SheetRequest) :
    ClientAsync PasskeyAssertion := do
  match (← ask (.getSpcAssertion request sheet)).bind (sheetAssertion libraries) with
  | .ok assertion => return assertion
  | .error (.domException name message) =>
      if name = ascii "NotAllowedError" ∨ name = ascii "AbortError" then
        reject .authentication
          (ascii "The payment sheet was closed or timed out. Nothing was paid.")
      else throw (.described (describeWebAuthnError (.domException name message)) none)
  | .error error => throw (.described (describeWebAuthnError error) none)

/-- The proof of an assertion. -/
def proveAssertion (session : LiveSession) (assertion : PasskeyAssertion) (appId nullifier : ℕ) :
    ClientAsync VeraKeyProof := do
  let failed := ascii "Proof generation failed."
  match ← ask .prover with
  | .error _ => reject .proof failed
  | .ok () =>
      let input : WitnessInput :=
        { publicKey := session.publicKey
          signature := assertion.signature
          authenticatorData := assertion.authenticatorData
          prfSecret := session.prfSecret
          clientDataJson := assertion.clientDataJson
          rpIdHash := config.rpIdHash
          appId := appId
          nullifier := nullifier }
      match ← ask (.prove input) with
      | .error message => reject .proof (message.getD failed)
      | .ok proof => return proof

/-- The authenticator data is not what the circuit takes. -/
def rejectLength {α : Type} (assertion : PasskeyAssertion) : ClientAsync α :=
  reject .device (ascii ("This authenticator returned " ++
    toString assertion.authenticatorData.length ++
    " bytes of authenticator data; VeraKey needs 37."))

/-- The action that is signed. -/
def signedAction (account : Address) (nonce deadline : ℤ) (action : ActionRequest) :
    Sdk.Action where
  chainId := config.chainId
  account := account
  nonce := nonce
  kind := action.kind
  target := action.target
  amount := action.amount
  dataHash := action.dataHash
  fee := config.relayerFee
  deadline := deadline

/-- What an approval is prepared from. -/
structure Preparation where
  session : LiveSession
  nullifier : ℕ
  account : Address
  /-- What the account says, if it is there. -/
  view : Option AccountView
  deadline : ℤ
  actionHash : B256

def Preparation.nonce (prep : Preparation) : ℤ := (prep.view.map (·.nonce)).getD 0

/-- The account wants its payments confirmed in the sheet. -/
def Preparation.sheetRequired (prep : Preparation) (action : ActionRequest) : Bool :=
  action.kind = actionPay && prep.view.any (·.paymentSheetRequired)

/-- The fee is not above the account's limit. -/
def checkFee (view : Option AccountView) : ClientAsync Unit :=
  match view.filter fun view => view.maxFee < config.relayerFee with
  | none => return ()
  | some view =>
      throw (.described ⟨.policy, ascii "The relayer asks " ++ formatUnits config.relayerFee 6 ++
        ascii " USDG, above this account's " ++ formatUnits view.maxFee 6 ++
        ascii " USDG fee limit."⟩ (some (ascii "FeeTooHigh")))

/-- The account can pay the fee. -/
def checkBalance (balance : ℤ) : ClientAsync Unit :=
  if balance < config.relayerFee then
    reject .funds (ascii "The account holds " ++ formatUnits balance 6 ++
      ascii " USDG and every action pays a " ++ formatUnits config.relayerFee 6 ++
      ascii " USDG relayer fee.")
  else return ()

/-- `authorize` before its prompt. -/
def prepare (appId : ℕ) (action : ActionRequest) : ClientAsync Preparation := do
  let session ← requireSession
  let nullifier ← nullifier libraries appId
  let account ← attempt (← ask (.predictAddress appId nullifier))
  let view ← readAccount account
  checkFee config view
  let balance ← attempt (← ask (.balanceOf account))
  checkBalance config balance
  let now ← ask .now
  let deadline := now / 1000 + deadlineWindow
  let nonce := (view.map (·.nonce)).getD 0
  match hashAction keccak (signedAction config account nonce deadline action) with
  | none => throw (.thrown .unread)
  | some actionHash => return ⟨session, nullifier, account, view, deadline, actionHash⟩

def sheetUnavailable : ClientThrown :=
  .described ⟨.policy, ascii ("This account only pays through the browser's payment sheet, " ++
    "which this browser cannot show for this passkey.")⟩ (some (ascii "PaymentSheetRequired"))

/-- Whether the prompt is the payment sheet. -/
def sheetAvailable (prep : Preparation) (action : ActionRequest) (secureConfirmation : Bool) :
    ClientAsync Bool :=
  if (secureConfirmation || prep.sheetRequired action) && action.kind = actionPay then
    canConfirmPayments config prep.session
  else return false

/-- The one prompt of an approval. -/
def confirm (prep : Preparation) (action : ActionRequest) (secureConfirmation : Bool) :
    ClientAsync (PasskeyAssertion × ConfirmedBy) :=
  match credentialIdBytes prep.session.passkey with
  | none => throw (.thrown .unread)
  | some credentialId => do
      let request : AssertionRequest := ⟨config.rpId, prep.actionHash, [credentialId]⟩
      if ← sheetAvailable config prep action secureConfirmation then
        let sheet : SheetRequest :=
          ⟨ClientData.payeeName action.target, action.amount + config.relayerFee⟩
        return (← sheetPrompt libraries request sheet, .paymentSheet)
      else if prep.sheetRequired action then throw sheetUnavailable
      else return (← plainPrompt libraries request, .passkey)

def authorize (appId : ℕ) (action : ActionRequest) (secureConfirmation : Bool) :
    ClientAsync Authorization := do
  let prep ← prepare config libraries keccak appId action
  ask (.emit .authenticating)
  let (assertion, confirmedBy) ← confirm config libraries prep action secureConfirmation
  if assertion.authenticatorData.length ≠ authenticatorDataLength then rejectLength assertion
  else
    ask (.emit (.proving (← ask .now)))
    let proof ← proveAssertion config prep.session assertion appId prep.nullifier
    return {
      account := prep.account
      nullifier := prep.nullifier
      fee := config.relayerFee
      deadline := prep.deadline
      actionHash := prep.actionHash
      clientDataJson := assertion.clientDataJson
      proof := proof.proof
      provingMs := proof.provingMs
      confirmedBy := confirmedBy }

/-! ### Submitting -/

def unreachable : ClientThrown :=
  .described ⟨.relay, ascii "The relayer could not be reached."⟩ none

/-- An error of the relayer, as the client shows it. -/
def relayFailure : ClientThrown → ClientThrown
  | .relayer message _ revert =>
      let stage := if revert.any (· ∈ policyReverts) then .policy else .relay
      .described ⟨stage, message⟩ revert
  | _ => unreachable

/-- The hash of a relayed transaction. -/
def relayHash (account : Address) (functionName : RelayableFunction) (args : List CallArg) :
    ClientAsync (Option Bytes) :=
  tryCatch (do
      match ← relay account functionName args with
      | some data => return data.hash
      | none => throw (.thrown nullError))
    fun thrown => throw (relayFailure thrown)

def submit (account : Address) (functionName : RelayableFunction) (args : List CallArg)
    (provingMs : ℕ) : ClientAsync TransactionReceipt := do
  ask (.emit (.relaying provingMs))
  let hash ← relayHash account functionName args
  ask (.emit (.confirming provingMs hash))
  let receipt ← attempt (← ask (.waitForTransactionReceipt hash))
  if receipt.success = false then reject .relay (ascii "The transaction reverted on-chain.")
  else
    let input ← attempt (← ask (.getTransaction hash))
    let session ← requireSession
    ask (.emit (.verified provingMs hash input session.publicKey))
    return receipt

/-- What `run` takes an error for. -/
def asFailure : ClientThrown → VeraKeyError × Option Bytes
  | .described error revert => (error, revert)
  | .relayer message _ _ => (⟨.relay, message⟩, none)
  | .thrown error => (⟨.relay, error.message⟩, none)

def run {α : Type} (job : ClientAsync α) : ClientAsync α :=
  tryCatch job fun thrown => do
    let (failure, revert) := asFailure thrown
    ask (.emit (.rejected failure.stage failure.message revert))
    throw (.described failure revert)

/-! ### The actions -/

/-- The arguments after the action's own. -/
def Authorization.args (auth : Authorization) : List CallArg :=
  [.bigint auth.fee, .bigint auth.deadline, .hex (beBytes 32 auth.nullifier),
    .hex auth.clientDataJson, .hex auth.proof]

def zeroHash : Bytes := List.replicate 32 0

/-- An action that a passkey authorizes; a payment, a change and a restriction make the account
first. -/
inductive ClientAction
  | pay (recipient : Address) (amount : ℤ)
  | scheduleChange (kind : UInt8) (payload : Bytes)
  | restrict (kind : UInt8) (payload : Bytes)
  | cancelChange (changeId : Bytes)
  | cancelRecovery (pendingNullifier : Bytes)
deriving DecidableEq

namespace ClientAction

/-- What is authorized. -/
def request : ClientAction → ActionRequest
  | pay recipient amount => ⟨1, recipient, amount, zeroHash⟩
  | scheduleChange kind payload => ⟨2, 0, 0, (Sdk.changeDataHash keccak kind payload).bytes⟩
  | restrict kind payload => ⟨5, 0, 0, (Sdk.changeDataHash keccak kind payload).bytes⟩
  | cancelChange changeId => ⟨3, 0, 0, changeId⟩
  | cancelRecovery pendingNullifier => ⟨4, 0, 0, pendingNullifier⟩

def functionName : ClientAction → RelayableFunction
  | pay _ _ => .pay
  | scheduleChange _ _ => .scheduleChange
  | restrict _ _ => .restrict
  | cancelChange _ => .cancelChange
  | cancelRecovery _ => .cancelRecovery

/-- The action's own arguments. -/
def args : ClientAction → List CallArg
  | pay recipient amount => [.hex recipient.bytes, .bigint amount]
  | scheduleChange kind payload => [.number kind.toNat, .hex payload]
  | restrict kind payload => [.number kind.toNat, .hex payload]
  | cancelChange changeId => [.hex changeId]
  | cancelRecovery _ => []

def ensures : ClientAction → Bool
  | pay _ _ | scheduleChange _ _ | restrict _ _ => true
  | cancelChange _ | cancelRecovery _ => false

end ClientAction

/-- The account is made first, where the action makes it. -/
def ensure (appId : ℕ) (action : ClientAction) : ClientAsync Unit :=
  if action.ensures then do
    let _ ← ensureAccount libraries appId
    return ()
  else return ()

/-- `pay`, `scheduleChange`, `restrict`, `cancelChange` and `cancelRecovery`, up to what they
read from the receipt. -/
def act (appId : ℕ) (action : ClientAction) (secureConfirmation : Bool) :
    ClientAsync TransactionReceipt :=
  run do
    ensure libraries appId action
    let auth ← authorize config libraries keccak appId (action.request keccak) secureConfirmation
    submit auth.account action.functionName (action.args ++ auth.args) auth.provingMs

end Functions

end Client

end VeraKey
