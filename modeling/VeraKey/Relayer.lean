/-
The relayer: relayed actions, new accounts and demo grants, each a request that waits for
the chain, for its turn to send and for the wallet in between, with others in any order.
-/
import VeraKey.AccountAddress
import VeraKey.History
import VeraKey.JobTable
import VeraKey.RateLimiter
import VeraKey.RelayRequest

namespace VeraKey

open ByteCodec TextCodec

namespace Relay

/-- Refuse anything that would need more gas than a proof-authorized account call. -/
def maxGas : ℕ := 2500000

def dayMs : ℤ := 24 * 60 * 60000

/-! ## The limits of a day -/

inductive DailyLimit
  | unpaidSafetyActions
  | accountsPerIp
  | newAccountsPerDay
  | faucetGrantsPerDay
  | gasPerDay
deriving DecidableEq

namespace DailyLimit

/-- What a request is told that the limit refuses. -/
def refusal : DailyLimit → Thrown
  | .unpaidSafetyActions => relayError 429
      ("This account has spent today's cap, so it pays no fee for this change, and the " ++
        "relayer has sent today's share of those for it. Try again tomorrow: freezing and " ++
        "cancelling still go through.")
  | .accountsPerIp => relayError 429 "Too many new accounts from this visitor today."
  | .newAccountsPerDay => relayError 429
      "The relayer has created as many accounts as it will today. Try again tomorrow."
  | .faucetGrantsPerDay => relayError 429
      "The demo faucet has given out today's USDG. Try again tomorrow."
  | .gasPerDay => relayError 429
      ("The relayer has spent today's gas. Try again tomorrow: freezing and cancelling " ++
        "still go through.")

end DailyLimit

/-- The counters of the daily limits. -/
structure DailyLimits where
  limiter : DailyLimit → RateLimiter Bytes
  windowMs_eq : ∀ limit, (limiter limit).windowMs = dayMs

/-- What a request takes of one limit. -/
structure Charge where
  limit : DailyLimit
  key : Bytes
  weight : ℚ
deriving DecidableEq

namespace DailyLimits

def fresh (limit : DailyLimit → ℚ) : DailyLimits where
  limiter := fun name => RateLimiter.fresh (limit name) dayMs
  windowMs_eq := fun _ => rfl

/-- Whether the limit grants the charge. -/
def grants (limits : DailyLimits) (now : ℤ) (charge : Charge) : Bool :=
  ((limits.limiter charge.limit).take now charge.key charge.weight).1

/-- The limits after the charge was asked for. -/
def take (limits : DailyLimits) (now : ℤ) (charge : Charge) : DailyLimits where
  limiter := Function.update limits.limiter charge.limit
    ((limits.limiter charge.limit).take now charge.key charge.weight).2
  windowMs_eq := by
    intro limit
    by_cases hsame : limit = charge.limit
    · rw [hsame, Function.update_self, RateLimiter.windowMs_take]
      exact limits.windowMs_eq charge.limit
    · rw [Function.update_of_ne hsame]
      exact limits.windowMs_eq limit

/-- Takes one limit after the other, up to the first that refuses. -/
def takeAll (limits : DailyLimits) (now : ℤ) : List Charge → Option DailyLimit × DailyLimits
  | [] => (none, limits)
  | charge :: charges =>
      if limits.grants now charge then (limits.take now charge).takeAll now charges
      else (some charge.limit, limits.take now charge)

end DailyLimits

/-! ## Requests -/

structure RelayerConfig where
  keccak : Bytes → B256
  accountImplementation : Bytes
  factory : Bytes
  /-- The fee the relayer expects. -/
  fee : ℤ
  faucetAmount : ℕ
  mintableUsdg : Bool
  /-- `RELAY_JITTER_MAX_MS`. -/
  jitterMaxMs : ℚ
  /-- The daily limits, and those of a minute for an account and a day for a visitor. -/
  limit : DailyLimit → ℚ
  perAccount : ℚ
  faucetPerIp : ℚ
  faucetPerIpText : Bytes
  /-- `visitors.key` at a time. -/
  visitorKey : (now : ℤ) → (ip : Bytes) → Bytes

/-- What a request asks for. -/
inductive Task
  | relay (call : RelayCall)
  | createAccount (appId nullifier ip : Bytes)
  | faucet (account : Bytes)
  /-- Nothing: it was refused as it arrived. -/
  | refused
deriving DecidableEq

/-- What is asked of the limits just before a transaction is sent. -/
inductive SendPlan
  /-- An action that defends its account. -/
  | defends
  /-- A safety action whose fee the account waives. -/
  | waived (busy : Bytes)
  | paid
  /-- The account, deployed for a visitor. -/
  | newAccount (ip account : Bytes)
  | grant
deriving DecidableEq

/-- The charges of `beforeSend`, in order. -/
def SendPlan.charges (config : RelayerConfig) (now : ℤ) (gas : ℕ) : SendPlan → List Charge
  | .defends => []
  | .waived busy => [⟨.unpaidSafetyActions, busy, 1⟩, ⟨.gasPerDay, ascii "all", gas⟩]
  | .paid => [⟨.gasPerDay, ascii "all", gas⟩]
  | .newAccount ip _ =>
      [⟨.accountsPerIp, ascii "accounts:" ++ config.visitorKey now ip, 1⟩,
        ⟨.newAccountsPerDay, ascii "all", 1⟩, ⟨.gasPerDay, ascii "all", gas⟩]
  | .grant => [⟨.faucetGrantsPerDay, ascii "all", 1⟩, ⟨.gasPerDay, ascii "all", gas⟩]

inductive Response
  | hash (hash : Bytes)
  /-- A new account, or one that was there. -/
  | account (hash : Option Bytes) (account : Bytes)
  | failed (thrown : Thrown)
deriving DecidableEq

/-- What a request waits for. -/
inductive RelayStage
  /-- The two reads of `assertOurAccount`. -/
  | code
  | config
  /-- The reads of `defends` and `feeWaived`. -/
  | protections
  | pendingChanges
  | policy
  | jitter (plan : SendPlan)
  | accountAddress
  | deployed (account : Bytes)
  | treasury
  /-- The stages of `submit`. -/
  | simulating (plan : SendPlan)
  | queued (plan : SendPlan)
  | estimating (plan : SendPlan)
  | sending (plan : SendPlan)
  /-- The hash was returned, and the receipt is waited for. -/
  | sent (hash : Bytes)
  | done (response : Response)
deriving DecidableEq

structure RelayJob where
  task : Task
  stage : RelayStage
deriving DecidableEq

/-- What a request hears. -/
inductive RelayAnswer
  | code (code : Option Bytes)
  | config (factory : Bytes)
  | protections (frozen : Bool)
  | pendingChanges (ids : List ℕ)
  | policy (dailyCap spentToday : ℕ)
  /-- The random delay is over. -/
  | wakes
  | account (account : Bytes)
  | balance (treasury : ℕ)
  | simulated
  /-- It is its turn to send. -/
  | turn
  | gas (gas : ℕ)
  /-- The hash, and whether the faucet file can be written. -/
  | hash (hash : Bytes) (written : Bool)
  /-- The wait for the receipt is over, with or without one. -/
  | receipt
  /-- What was called fails, perhaps with the name of a revert. -/
  | failed (revert : Option Bytes)

/-- A transaction handed to the wallet. -/
structure Handed where
  number : ℕ
  plan : SendPlan
  gas : ℕ
  time : ℤ
deriving DecidableEq

structure Relayer where
  now : ℤ
  daily : DailyLimits
  perAccount : RateLimiter Bytes
  faucetPerIp : RateLimiter Bytes
  /-- Accounts with a relayed transaction not yet in a block. -/
  inFlight : Finset Bytes
  /-- Accounts that the faucet pays now, those it has paid, and those in its file. -/
  granting : Finset Bytes
  funded : Finset Bytes
  faucetFile : Finset Bytes
  /-- Who has the turn to send and who waits for it, in order. -/
  sendLock : List ℕ
  jobs : JobTable RelayJob
  handed : List Handed

inductive RelayerEvent
  | relay (body : RelayBody)
  | createAccount (appId nullifier ip : Bytes)
  | faucet (account ip : Bytes)
  | step (number : ℕ) (answer : RelayAnswer)
  | wait (ms : ℕ)

/-! ## What a request holds -/

namespace RelayStage

/-- Between the reservation of a relayed account and its release. -/
def reserved : RelayStage → Bool
  | .protections => true
  | .pendingChanges => true
  | .policy => true
  | .jitter _ => true
  | .simulating _ => true
  | .queued _ => true
  | .estimating _ => true
  | .sending _ => true
  | .sent _ => true
  | _ => false

/-- Between the reservation of a grant and its release. -/
def paying : RelayStage → Bool
  | .treasury => true
  | .simulating _ => true
  | .queued _ => true
  | .estimating _ => true
  | .sending _ => true
  | _ => false

end RelayStage

namespace RelayJob

/-- The key that the request has in `inFlight`. -/
def busy? (job : RelayJob) : Option Bytes :=
  match job.task with
  | .relay call => if job.stage.reserved then some call.busy else none
  | _ => none

/-- The key that the request has in `granting`. -/
def granting? (job : RelayJob) : Option Bytes :=
  match job.task with
  | .faucet account => if job.stage.paying then some (Sdk.toLowerCase account) else none
  | _ => none

end RelayJob

/-! ## The steps of a request -/

/-- What a failed call throws; nothing where no call is made. -/
def RelayStage.failure? : RelayStage → (revert : Option Bytes) → Option Thrown
  | .config, _ => some (relayError 400 "Not a VeraKey account.")
  | .simulating _, some revert => some (simulationReverted revert)
  | .simulating _, none =>
      some (relayError 502 "The RPC endpoint could not simulate the transaction.")
  | .estimating _, some revert => some (simulationReverted revert)
  | .estimating _, none =>
      some (relayError 502 "The RPC endpoint could not estimate the transaction's gas.")
  | .jitter _, _ => none
  | .queued _, _ => none
  | .sent _, _ => none
  | .done _, _ => none
  | _, _ => some .other
where
  simulationReverted (revert : Bytes) : Thrown :=
    .relay ⟨422, ascii "Simulation reverted: " ++ revert, some revert⟩

namespace RelayCall

/-- Reads for `relay`, then `submit`, perhaps after a delay. -/
def submit (config : RelayerConfig) (plan : SendPlan) : RelayStage :=
  if 0 < config.jitterMaxMs then .jitter plan else .simulating plan

/-- What follows the answer of `defends`. -/
def afterDefends (config : RelayerConfig) (call : RelayCall) (defends : Bool) : RelayStage :=
  if defends then submit config .defends
  else if call.fee.isSome ∧ call.function.isSafetyAction then .policy
  else submit config .paid

/-- What follows the reservation: the first read of `defends`, if it makes one. -/
def afterReserve (config : RelayerConfig) (call : RelayCall) : RelayStage :=
  if call.function = .cancelChange ∨ call.function = .cancelRecovery then
    call.afterDefends config true
  else if call.isFreeze then .protections
  else call.afterDefends config false

/-- What follows the answer of `feeWaived`. -/
def afterPolicy (config : RelayerConfig) (call : RelayCall) (dailyCap spentToday : ℕ) :
    RelayStage :=
  submit config
    (if (dailyCap : ℤ) < (spentToday : ℤ) + call.fee.getD 0 then .waived call.busy else .paid)

end RelayCall

namespace Relayer

variable (config : RelayerConfig) (server : Relayer) (number : ℕ) (job : RelayJob)

/-- The request goes on. -/
def goOn (stage : RelayStage) : Relayer :=
  { server with jobs := server.jobs.set number { job with stage := stage } }

/-- The request throws: what it reserved is released, and it leaves `sendLock`. -/
def fail (thrown : Thrown) : Relayer :=
  { server with
    jobs := server.jobs.set number { job with stage := .done (.failed thrown) }
    inFlight := match job.busy? with
      | some busy => server.inFlight.erase busy
      | none => server.inFlight
    granting := match job.granting? with
      | some key => server.granting.erase key
      | none => server.granting
    sendLock := server.sendLock.erase number }

/-- The first read of `assertOurAccount`. -/
def readCode (code : Option Bytes) : Relayer :=
  match code.filter fun code => code ≠ [] ∧ code ≠ ascii "0x" with
  | none => server.fail number job (relayError 404 "Account is not deployed.")
  | some code =>
      if Sdk.isAccountCode config.accountImplementation code then
        server.goOn number job .config
      else server.fail number job (relayError 400 "Not a VeraKey account.")

/-- The account's turn in `inFlight`. -/
def reserve (call : RelayCall) : Relayer :=
  if call.busy ∈ server.inFlight then
    server.fail number job (relayError 409
      "Another transaction for this account is on its way. Try again in a moment.")
  else
    { server.goOn number job (call.afterReserve config) with
      inFlight := insert call.busy server.inFlight }

/-- The account's turn at the faucet. -/
def grant (account : Bytes) : Relayer :=
  let key := Sdk.toLowerCase account
  if key ∈ server.funded ∨ key ∈ server.granting then
    server.fail number job (relayError 409 "This account already received demo USDG.")
  else
    { server.goOn number job (if config.mintableUsdg then .simulating .grant else .treasury)
      with granting := insert key server.granting }

/-- The second read of `assertOurAccount`, and what comes after it. -/
def readConfig (factory : Bytes) : Relayer :=
  if Sdk.toLowerCase factory ≠ Sdk.toLowerCase config.factory then
    server.fail number job
      (relayError 400 "Account belongs to a different VeraKey deployment.")
  else
    match job.task with
    | .relay call => server.reserve config number job call
    | .faucet account => server.grant config number job account
    | _ => server

/-- The estimate is known: the limits are asked, and the wallet is given the transaction. -/
def beforeSend (plan : SendPlan) (gas : ℕ) : Relayer :=
  if maxGas < gas then
    server.fail number job (relayError 422 "Transaction needs too much gas.")
  else
    match server.daily.takeAll server.now (plan.charges config server.now gas) with
    | (some limit, daily) => { server with daily := daily }.fail number job limit.refusal
    | (none, daily) =>
        { server.goOn number job (.sending plan) with
          daily := daily
          handed := ⟨number, plan, gas, server.now⟩ :: server.handed }

/-- The wallet returns the hash. -/
def finish (plan : SendPlan) (hash : Bytes) (written : Bool) : Relayer :=
  match job.task, plan with
  | .relay _, _ =>
      { server.goOn number job (.sent hash) with sendLock := server.sendLock.erase number }
  | .createAccount _ _ _, .newAccount _ account =>
      { server.goOn number job (.done (.account (some hash) account)) with
        sendLock := server.sendLock.erase number }
  | .faucet account, _ =>
      let key := Sdk.toLowerCase account
      let response := if written then .hash hash else .failed .other
      { server.goOn number job (.done response) with
        -- only grants that were sent are remembered, also when the file cannot be written
        funded := insert key server.funded
        faucetFile := if written then insert key server.funded else server.faucetFile
        granting := server.granting.erase key
        sendLock := server.sendLock.erase number }
  | _, _ => server

/-- The receipt is there, or is not waited for any longer. -/
def settle (hash : Bytes) : Relayer :=
  { server.goOn number job (.done (.hash hash)) with
    inFlight := match job.busy? with
      | some busy => server.inFlight.erase busy
      | none => server.inFlight }

/-- What a request does with what it hears. -/
def step (answer : RelayAnswer) : Relayer :=
  match job.task, job.stage, answer with
  | _, .code, .code code => server.readCode config number job code
  | _, .config, .config factory => server.readConfig config number job factory
  | .relay call, .protections, .protections frozen =>
      server.goOn number job
        (if frozen then .pendingChanges else call.afterDefends config true)
  | .relay call, .pendingChanges, .pendingChanges ids =>
      server.goOn number job (call.afterDefends config (ids.any (· ≠ 0)))
  | .relay call, .policy, .policy dailyCap spentToday =>
      server.goOn number job (call.afterPolicy config dailyCap spentToday)
  | .relay _, .jitter plan, .wakes => server.goOn number job (.simulating plan)
  | _, .accountAddress, .account account => server.goOn number job (.deployed account)
  | .createAccount _ _ ip, .deployed account, .code code =>
      server.goOn number job
        (if code.any fun code => code ≠ [] ∧ code ≠ ascii "0x" then
          .done (.account none account) else .simulating (.newAccount ip account))
  | .faucet _, .treasury, .balance treasury =>
      if treasury < config.faucetAmount then
        server.fail number job
          (relayError 503 "The demo faucet is out of USDG. Try again later.")
      else server.goOn number job (.simulating .grant)
  | _, .simulating plan, .simulated =>
      { server.goOn number job (.queued plan) with
        sendLock := server.sendLock ++ [number] }
  | _, .queued plan, .turn =>
      if server.sendLock.head? = some number then
        server.goOn number job (.estimating plan) else server
  | _, .estimating plan, .gas gas => server.beforeSend config number job plan gas
  | _, .sending plan, .hash hash written => server.finish number job plan hash written
  | _, .sent hash, .receipt => server.settle number job hash
  | _, stage, .failed revert =>
      match stage.failure? revert with
      | some thrown => server.fail number job thrown
      | none => server
  | _, _, _ => server

/-! ## Requests that arrive -/

/-- A request starts, or is refused at once. -/
def start (task : Except Thrown Task) : Relayer :=
  { server with
    jobs := server.jobs.start (match task with
      | .ok task =>
          ⟨task, match task with
            | .createAccount _ _ _ => .accountAddress
            | _ => .code⟩
      | .error thrown => ⟨.refused, .done (.failed thrown)⟩) }

def arriveRelay (body : RelayBody) : Relayer :=
  let (granted, perAccount) := server.perAccount.take server.now
    (ascii "relay:" ++ Sdk.toLowerCase body.account) 1
  { server with perAccount := perAccount }.start
    (if granted then (checkRelay config.keccak config.fee body).map .relay
      else .error (relayError 429 "Too many requests for this account."))

def arriveCreateAccount (appId nullifier ip : Bytes) : Relayer :=
  let (granted, perAccount) := server.perAccount.take server.now
    (ascii "create:" ++ Sdk.toLowerCase nullifier) 1
  { server with perAccount := perAccount }.start
    (if ¬ granted then .error (relayError 429 "Too many requests for this account.")
      else if Sdk.isField appId ∧ Sdk.isField nullifier ∧ Sdk.bigInt nullifier ≠ some 0 then
        .ok (.createAccount appId nullifier ip)
      else
        .error (relayError 400 "appId and nullifier must be 32-byte BN254 field elements."))

def arriveFaucet (account ip : Bytes) : Relayer :=
  let (granted, faucetPerIp) := server.faucetPerIp.take server.now
    (ascii "faucet:" ++ config.visitorKey server.now ip) 1
  { server with faucetPerIp := faucetPerIp }.start
    (if ¬ granted then
        .error (.relay ⟨429, ascii "The faucet allows " ++ config.faucetPerIpText ++
          ascii " accounts per day per visitor.", none⟩)
      else if Sdk.isAddress config.keccak account then .ok (.faucet account)
      else .error (relayError 400 "Invalid account."))

/-! ## Runs -/

/-- A new process, which reads the faucet file. -/
def fresh (file : Finset Bytes) : Relayer where
  now := 0
  daily := DailyLimits.fresh config.limit
  perAccount := RateLimiter.fresh config.perAccount 60000
  faucetPerIp := RateLimiter.fresh config.faucetPerIp dayMs
  inFlight := ∅
  granting := ∅
  funded := file.image Sdk.toLowerCase
  faucetFile := file
  sendLock := []
  jobs := JobTable.empty
  handed := []

def next : RelayerEvent → Relayer
  | .relay body => server.arriveRelay config body
  | .createAccount appId nullifier ip => server.arriveCreateAccount appId nullifier ip
  | .faucet account ip => server.arriveFaucet config account ip
  | .step number answer =>
      match server.jobs.job? number with
      | some job => server.step config number job answer
      | none => server
  | .wait ms => { server with now := server.now + ms }

/-- The server after the first `n` events. -/
def after (file : Finset Bytes) (events : ℕ → RelayerEvent) (n : ℕ) : Relayer :=
  History.run (next config) (fresh config file) events n

end Relayer

end Relay

end VeraKey
