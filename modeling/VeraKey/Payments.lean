/-
Payments on a site's server: what the SDK reads of the chain, and the payment route, whose
requests wait for the chain, the store and the site in between, in any order.
-/
import VeraKey.JobTable
import VeraKey.Kit
import VeraKey.VeraKeyStore

namespace VeraKey

open ByteCodec Guard TextCodec

namespace Sdk

/-! ## The chain -/

/-- A log that parses as `Paid`.  An account uses each nonce once. -/
structure PaidLog where
  address : Bytes
  nonce : ℕ
  recipient : Bytes
  amount : ℕ
  fee : ℕ
deriving DecidableEq

/-- A log of a transaction. -/
inductive Log
  | paid (log : PaidLog)
  | other

/-- `parseEventLogs` for `Paid`. -/
def parsePaid (logs : List Log) : List PaidLog :=
  logs.filterMap fun log => match log with
    | .paid log => some log
    | .other => none

/-- A transaction and its receipt. -/
structure Transaction where
  hash : Bytes
  block : ℕ
  success : Bool
  logs : List Log

abbrev PaymentChain := List Transaction

/-- A `Paid` event on the chain. -/
structure PaidEvent where
  hash : Bytes
  log : PaidLog
deriving DecidableEq

namespace PaymentChain

variable (chain : PaymentChain)

/-- The transaction of a hash, in either letter case. -/
def transaction? (hash : Bytes) : Option Transaction :=
  chain.find? fun tx => toLowerCase tx.hash = toLowerCase hash

/-- What a node answers that knows the blocks up to `latest`. -/
def getTransactionReceipt (latest : ℕ) (hash : Bytes) : Option Transaction :=
  (chain.transaction? hash).filter (·.block ≤ latest)

/-- The `Paid` events of an account with an action nonce, in these blocks. -/
def getContractEvents (account : Bytes) (nonce fromBlock toBlock : ℕ) : List PaidEvent :=
  (chain.filter fun tx => fromBlock ≤ tx.block ∧ tx.block ≤ toBlock).flatMap fun tx =>
    ((parsePaid tx.logs).filter fun log =>
      toLowerCase log.address = toLowerCase account ∧ log.nonce = nonce).map (⟨tx.hash, ·⟩)

/-- The event is on the chain. -/
def Emitted (event : PaidEvent) : Prop :=
  ∃ tx ∈ chain, tx.hash = event.hash ∧ event.log ∈ parsePaid tx.logs

end PaymentChain

/-! ## Looking a payment up -/

/-- What one look of `findPayment` is answered, and whether its time is over after it. -/
structure FindLook where
  /-- The node's latest block, unless a call fails. -/
  latest : Option ℕ
  late : Bool

/-- Where a look leaves `findPayment`. -/
inductive Looked
  | failed
  | again
  | found (hash : Option Bytes)

def findPayment (chain : PaymentChain) (account : Bytes) (nonce : ℕ) (look : FindLook) : Looked :=
  match look.latest with
  | none => .failed
  | some latest =>
      let fromBlock := if latest > 10000 then latest - 10000 else 0
      match chain.getContractEvents account nonce fromBlock latest with
      | event :: _ => .found (some event.hash)
      | [] => if look.late then .found none else .again

/-- What `verifyPayment` is answered: the latest block of the node that each call reaches,
unless the call fails. -/
structure ReceiptAnswers where
  getTransactionReceipt : Option ℕ
  /-- Whether the transaction is known but in no block. -/
  getTransaction : Bool
  waitForTransactionReceipt : Option ℕ

/-- The receipt, waited for when the transaction is known. -/
def receiptOf (chain : PaymentChain) (hash : Bytes) (answers : ReceiptAnswers) :
    Option Transaction :=
  match answers.getTransactionReceipt.bind (chain.getTransactionReceipt · hash) with
  | some receipt => some receipt
  | none =>
      if answers.getTransaction then
        answers.waitForTransactionReceipt.bind (chain.getTransactionReceipt · hash)
      else none

structure PaymentVerdict where
  valid : Bool
  checks : List SignInCheck
  fee : Option ℕ

/-- The account's `Paid` logs. -/
def paidBy (receipt : Transaction) (account : Bytes) : List PaidLog :=
  (parsePaid receipt.logs).filter fun log => toLowerCase log.address = toLowerCase account

/-- The first `Paid` log of the account to this recipient for this amount. -/
def paidMatch (receipt : Transaction) (account recipient : Bytes) (amount : ℕ) : Option PaidLog :=
  (paidBy receipt account).find? fun log =>
    toLowerCase log.recipient = toLowerCase recipient ∧ log.amount = amount

def verifyPayment (receipt : Option Transaction) (account recipient : Bytes) (amount : ℕ) :
    PaymentVerdict :=
  match receipt with
  | none => ⟨false, [⟨ascii "Transaction succeeded", false, some (ascii "not found")⟩], none⟩
  | some receipt =>
      if receipt.success then
        let found := paidMatch receipt account recipient amount
        let checks := [⟨ascii "Transaction succeeded", true, some (ascii "success")⟩,
          ⟨ascii "Paid by this player's account", paidBy receipt account ≠ [], none⟩,
          ⟨ascii "To this recipient, for this amount", found.isSome, none⟩]
        let valid := checks.all (·.ok)
        ⟨valid, checks, if valid then found.map (·.fee) else none⟩
      else ⟨false, [⟨ascii "Transaction succeeded", false, some (ascii "reverted")⟩], none⟩

/-- A node behind the one the payment was sent to. -/
def PaymentVerdict.unknown (verdict : PaymentVerdict) : Bool :=
  match verdict.checks with
  | [check] => check.detail = some (ascii "not found")
  | _ => false

/-! ## The request -/

def isDigit (c : UInt8) : Bool := 48 ≤ c && c ≤ 57

/-- `BigInt` of a text of digits. -/
def decimal (digits : Bytes) : ℕ :=
  digits.foldl (fun value c => 10 * value + (c.toNat - 48)) 0

/-- `/^[1-9][0-9]{0,38}$/`. -/
def isAmount (text : Bytes) : Bool :=
  text.head?.any (fun c => 49 ≤ c && c ≤ 57) && text.all isDigit && text.length ≤ 39

/-- `/^[0-9]{1,20}$/`. -/
def isNonceText (text : Bytes) : Bool := text ≠ [] && text.all isDigit && text.length ≤ 20

/-- How a request names its payment. -/
inductive PaymentName
  | hash (hash : Bytes)
  | nonce (nonce : ℕ)
deriving DecidableEq

/-- The amount and the name in the body of a request. -/
def readPayment (p : Platform) (request : KitRequest) : Except HttpError (ℕ × PaymentName) := do
  let body ← readBody p request
  let amount ← orElse (checkedText? isAmount (body.get? "amount"))
    ⟨400, ascii "amount must be a whole number of USDG base units, as a string.", none⟩
  match checkedText? isBytes32 (body.get? "hash"), checkedText? isNonceText (body.get? "nonce") with
  | some hash, _ => return (decimal amount, .hash hash)
  | none, some nonce => return (decimal amount, .nonce (decimal nonce))
  | none, none =>
      throw ⟨400, ascii "Send the payment's hash, or the nonce of a payment the popup was sending.",
        none⟩

/-! ## The route -/

structure VerifiedPayment where
  player : VeraKeyPlayer
  hash : Bytes
  recipient : Bytes
  amount : ℕ
  fee : ℕ
deriving DecidableEq

/-- What `acceptPayment` waits for. -/
inductive PaymentStage
  | reading
  | finding (amount nonce : ℕ)
  | verifying (amount : ℕ) (found : Bytes) (tries : ℕ)
  | claiming (payment : VerifiedPayment)
  | fulfilling (payment : VerifiedPayment)
  | releasing (payment : VerifiedPayment) (message : Bytes)
  | answered (answer : Except HttpError VerifiedPayment)
deriving DecidableEq

/-- What comes in. -/
inductive PaymentAnswer
  | body
  | look (look : FindLook)
  | receipt (answers : ReceiptAnswers)
  /-- The store's, or that it failed, with or without its effect. -/
  | claimed (failure : Option Bool)
  /-- The message with which `onPayment` refused. -/
  | fulfilled (refusal : Option Bytes)
  | released (failure : Option Bool)

structure PaymentJob where
  process : ℕ
  request : KitRequest
  player : VeraKeyPlayer
  merchant : Bytes
  stage : PaymentStage
deriving DecidableEq

def receiptRetries : ℕ := 5

def alreadyAccepted : HttpError := ⟨409, ascii "This payment was already accepted.", none⟩

/-- The claim of a payment, which has no lifetime. -/
def VerifiedPayment.key (payment : VerifiedPayment) : Bytes := (Claim.payment payment.hash).key

namespace PaymentJob

variable (p : Platform) (chain : PaymentChain) (store : VeraKeyStore) (job : PaymentJob)

/-- `acceptPayment` after the body has been read. -/
def afterBody : PaymentStage :=
  match readPayment p job.request with
  | .error error => .answered (.error error)
  | .ok (amount, .hash found) => .verifying amount found 0
  | .ok (amount, .nonce nonce) => .finding amount nonce

def afterLook (amount nonce : ℕ) (look : FindLook) : PaymentStage :=
  match findPayment chain job.player.account nonce look with
  | .failed => .answered (.error routeFailed)
  | .again => .finding amount nonce
  | .found hash =>
      match hash.filter (· ≠ []) with
      | none => .answered (.error ⟨400, ascii "No payment was found.", none⟩)
      | some found => .verifying amount found 0

def afterReceipt (amount : ℕ) (found : Bytes) (tries : ℕ) (answers : ReceiptAnswers) :
    PaymentStage :=
  let verdict :=
    verifyPayment (receiptOf chain found answers) job.player.account job.merchant amount
  if tries < receiptRetries ∧ verdict.unknown then .verifying amount found (tries + 1)
  else if verdict.valid then
    .claiming ⟨job.player, found, job.merchant, amount, verdict.fee.getD 0⟩
  else .answered (.error ⟨400, ascii "The payment did not verify.", some verdict.checks⟩)

def afterClaim (payment : VerifiedPayment) (now : ℤ) (s : store.State) :
    Option Bool → PaymentStage × store.State
  | none =>
      let (first, s') := store.claim s now payment.key none
      (if first then .fulfilling payment else .answered (.error alreadyAccepted), s')
  | some recorded =>
      (.answered (.error routeFailed),
        if recorded then (store.claim s now payment.key none).2 else s)

def afterFulfilment (payment : VerifiedPayment) : Option Bytes → PaymentStage
  | none => .answered (.ok payment)
  | some message => .releasing payment message

def afterRelease (payment : VerifiedPayment) (message : Bytes) (s : store.State) :
    Option Bool → PaymentStage × store.State
  | none => (.answered (.error ⟨400, message, none⟩), store.release s payment.key)
  | some removed =>
      (.answered (.error routeFailed), if removed then store.release s payment.key else s)

/-- Where the answer it waits for takes `acceptPayment`, and the store. -/
def step (now : ℤ) (s : store.State) (answer : PaymentAnswer) : PaymentStage × store.State :=
  match job.stage, answer with
  | .reading, .body => (job.afterBody p, s)
  | .finding amount nonce, .look look => (job.afterLook chain amount nonce look, s)
  | .verifying amount found tries, .receipt answers =>
      (job.afterReceipt chain amount found tries answers, s)
  | .claiming payment, .claimed failure => afterClaim store payment now s failure
  | .fulfilling payment, .fulfilled refusal => (afterFulfilment payment refusal, s)
  | .releasing payment message, .released failure => afterRelease store payment message s failure
  | stage, _ => (stage, s)

end PaymentJob

/-! ## The processes -/

/-- A site's processes with the store they share.  Requests are numbered as they come. -/
structure PaymentServer (store : VeraKeyStore) where
  now : ℤ
  state : store.State
  paying : ℕ → Paying
  jobs : JobTable PaymentJob

/-- What can happen next: a request reaches `paying` in a process, one gets what it waits
for, another route claims something, or time passes. -/
inductive PaymentEvent
  | arrives (process : ℕ) (request : KitRequest) (answers : SessionAnswers)
  | step (number : ℕ) (answer : PaymentAnswer)
  | signIn (issued : Bytes) (ttlSeconds : ℤ)
  | signOut (sid : Bytes) (ttlSeconds : ℤ)
  | wait (ms : ℕ)

namespace PaymentServer

variable {store : VeraKeyStore}

def fresh (store : VeraKeyStore) : PaymentServer store where
  now := 0
  state := store.empty
  paying := fun _ => KeyedLock.idle
  jobs := JobTable.empty

/-- `finally`: an answered request leaves `paying`. -/
def settle (paying : ℕ → Paying) (number : ℕ) (job : PaymentJob) : ℕ → Paying :=
  match job.stage with
  | .answered _ =>
      Function.update paying job.process ((paying job.process).release ⟨number, job.player⟩)
  | _ => paying

def next (p : Platform) (options : VeraKeyServerOptions) (chain : PaymentChain)
    (server : PaymentServer store) : PaymentEvent → PaymentServer store
  | .arrives process request answers =>
      match startPayment options (server.paying process) server.jobs.started request answers,
        readSession answers request, options.merchant with
      | .ok paying, some session, some merchant =>
          { server with
            paying := Function.update server.paying process paying
            jobs := server.jobs.start ⟨process, request, session.player, merchant, .reading⟩ }
      | _, _, _ => server
  | .step number answer =>
      match server.jobs.job? number with
      | none => server
      | some job =>
          let (stage, state) := job.step p chain store server.now server.state answer
          let job := { job with stage := stage }
          { server with
            state := state
            paying := settle server.paying number job
            jobs := server.jobs.set number job }
  | .signIn issued ttlSeconds =>
      { server with
        state := (store.claim server.state server.now (Claim.nonce issued).key
          (some ttlSeconds)).2 }
  | .signOut sid ttlSeconds =>
      { server with
        state := (store.claim server.state server.now (Claim.signOut sid).key
          (some ttlSeconds)).2 }
  | .wait ms => { server with now := server.now + ms }

/-- The server after the first `n` events. -/
def after (p : Platform) (options : VeraKeyServerOptions) (chain : PaymentChain)
    (store : VeraKeyStore) (events : ℕ → PaymentEvent) (n : ℕ) : PaymentServer store :=
  History.run (next p options chain) (fresh store) events n

/-- The payment of a request whose `onPayment` call succeeded. -/
def fulfilled (server : PaymentServer store) (number : ℕ) : Option VerifiedPayment :=
  match server.jobs.job? number with
  | some ⟨_, _, _, _, .answered (.ok payment)⟩ => some payment
  | _ => none

end PaymentServer

end Sdk

end VeraKey
