/-
The kit in the page: what a site's own script asks of its server and of VeraKey's popup, and
the player's state it keeps.  Loads, sign-ins, sign-outs and payments overlap, and each step
of each is one event.
-/
import VeraKey.Coercion
import VeraKey.Connect

namespace VeraKey

open ByteCodec

namespace Sdk

/-! ## What is thrown -/

inductive VeraKeySessionErrorCode
  | connect (code : ConnectErrorCode)
  | server
  | network
  | signedOut
deriving DecidableEq

/-- A payment the popup sent, or may have sent, that the server has not accepted yet. -/
inductive VeraKeySentPayment
  | hash (amount : ℤ) (hash : Option Bytes)
  | nonce (amount : ℤ) (nonce : ℕ)
deriving DecidableEq

structure VeraKeySessionError where
  code : VeraKeySessionErrorCode
  message : Bytes
  status : Option ℕ
  /-- Why the server refused a sign-in or a payment. -/
  checks : Option (List SignInCheck)
  /-- A payment that left the player's account and is not accepted yet. -/
  payment : Option VeraKeySentPayment
deriving DecidableEq

def sessionError (code : VeraKeySessionErrorCode) (message : Bytes) : VeraKeySessionError :=
  ⟨code, message, none, none, none⟩

/-- What a call of the site's server throws, and what comes of its answer. -/
inductive CallThrown
  | session (error : VeraKeySessionError)
  | other (message : Bytes)
deriving DecidableEq

inductive PageThrown
  | call (thrown : CallThrown)
  | connect (error : VeraKeyConnectError CallThrown)
deriving DecidableEq

def CallThrown.asSessionError : CallThrown → VeraKeySessionError
  | .session error => error
  | .other message => sessionError .server message

/-- The nonce callback failed: its cause is what the page's own server answered. -/
def PageThrown.asSessionError : PageThrown → VeraKeySessionError
  | .call thrown => thrown.asSessionError
  | .connect error =>
      match error.code, error.cause with
      | .request, some (.session cause) => cause
      | code, _ => sessionError (.connect code) error.message

/-- The player cancelled, or closed the popup before anything was sent. -/
def PageThrown.quiet : PageThrown → Bool
  | .call _ => false
  | .connect error => error.code = .cancelled || error.code = .closed

/-! ## The site's server, as the page sees it -/

/-- The fields of an answer that the page reads; each may be missing. -/
structure AnswerData where
  error : Option Bytes
  checks : Option (List SignInCheck)
  verakeyUrl : Option Bytes
  merchant : Option Bytes
  player : Option VeraKeyPlayer
  nonce : Option Bytes
  hash : Option Bytes
  amount : Option Bytes
  fee : Option Bytes
  result : Option Bytes
deriving DecidableEq

/-- An answer; one that is no JSON has no fields, and JSON's null has no data. -/
inductive ServerAnswer
  | offline
  | answered (status : ℕ) (data : Option AnswerData)
deriving DecidableEq

namespace ServerAnswer

/-- The session has ended, as every route but `sign-in` understands it. -/
def signsOut : ServerAnswer → Bool
  | .offline => false
  | .answered status _ => status = 401

/-- A property of null. -/
def nullError : CallThrown := .other (ascii "Cannot read properties of null")

/-- `call`, apart from what a 401 does to the state. -/
def call (signIn : Bool) : ServerAnswer → Except CallThrown (Option AnswerData)
  | .offline =>
      .error (.session (sessionError .network (ascii "This site's server did not answer.")))
  | .answered status data =>
      if status = 401 ∧ signIn = false then do
        let data ← Guard.orElse data nullError
        throw (.session { sessionError .signedOut (data.error.getD (ascii "Sign in first.")) with
          status := some 401 })
      else if status < 200 ∨ 299 < status then do
        let data ← Guard.orElse data nullError
        let message := data.error.getD
          (ascii ("This site's server answered " ++ toString status ++ "."))
        throw (.session { sessionError .server message with
          status := some status
          checks := data.checks })
      else .ok data

end ServerAnswer

/-- A payment the server verified. -/
structure VeraKeyPaymentReceipt where
  hash : Option Bytes
  amount : ℤ
  fee : ℤ
  result : Option Bytes
deriving DecidableEq

/-- The receipt in the answer of the server; `BigInt` throws for what is no number. -/
def readReceipt (data : Option AnswerData) : Except CallThrown VeraKeyPaymentReceipt := do
  let receipt ← Guard.orElse data ServerAnswer.nullError
  let bigInt := fun text : Option Bytes =>
    Guard.orElse (text.bind stringToBigInt) (.other (ascii "Cannot convert to a BigInt"))
  return ⟨receipt.hash, ← bigInt receipt.amount, ← bigInt receipt.fee, receipt.result⟩

/-! ## What the page does -/

inductive VeraKeySessionStatus
  | loading
  | signedOut
  | signingIn
  | signedIn
deriving DecidableEq

structure VeraKeySessionState where
  status : VeraKeySessionStatus
  player : Option VeraKeyPlayer
  paying : Bool
  error : Option VeraKeySessionError
deriving DecidableEq

/-- What the popup returns. -/
inductive PopupResult
  | signIn (result : Bytes)
  | payment (hash : Bytes)
deriving DecidableEq

def PopupResult.hash? : PopupResult → Option Bytes
  | .signIn _ => none
  | .payment hash => some hash

abbrev PageRequest := SiteRequest PopupResult CallThrown

abbrev PageCall := SiteCall PopupResult CallThrown

inductive LoadStage
  | asking
  | failed (thrown : CallThrown)
  | done

inductive SignInStage
  /-- Waits for the popup. -/
  | window
  /-- Waits for the server, which has the result. -/
  | checking
  | failed (thrown : CallThrown)
  | done (outcome : Except VeraKeySessionError (Option VeraKeyPlayer))

structure SignInJob where
  /-- The `VeraKeyConnect` of the call. -/
  connect : ℕ
  call : PageCall
  stage : SignInStage

abbrev PayOutcome := Except VeraKeySessionError (Option VeraKeyPaymentReceipt)

inductive PayStage
  /-- Waits for the popup. -/
  | window
  /-- Waits for the server, which has the payment. -/
  | confirming (sent : VeraKeySentPayment)
  | unconfirmed (sent : VeraKeySentPayment) (thrown : CallThrown)
  /-- `paying` is cleared next. -/
  | finished (outcome : PayOutcome)
  | done (outcome : PayOutcome)

structure PayJob where
  connect : ℕ
  amount : ℤ
  call : PageCall
  /-- What was posted to the server. -/
  posted : List VeraKeySentPayment
  stage : PayStage

inductive PageJob
  /-- A call that was refused at once. -/
  | refused (error : VeraKeySessionError)
  | load (stage : LoadStage)
  | signIn (job : SignInJob)
  | signOut (outcome : Option (Except CallThrown Unit))
  | pay (job : PayJob)
  | confirmPayment (payment : VeraKeySentPayment)
      (outcome : Option (Except CallThrown VeraKeyPaymentReceipt))

/-- A `VeraKeyConnect` of the session. -/
structure PageConnect where
  number : ℕ
  origin : Bytes
deriving DecidableEq

structure VeraKeySession where
  /-- Every load that succeeds makes a new `VeraKeyConnect`. -/
  created : ℕ
  connect : Option PageConnect
  /-- The `VeraKeyConnect`s whose request is still open. -/
  pending : Finset ℕ
  merchant : Option Bytes
  current : VeraKeySessionState
  jobs : JobTable PageJob

inductive PageEvent
  | load
  /-- What the browser would open, and a random id. -/
  | signIn (popup? : Option ℕ) (id : Bytes)
  | signOut
  | pay (amount : ℤ) (popup? : Option ℕ) (id : Bytes)
  | confirmPayment (payment : VeraKeySentPayment)
  /-- Something happens to the request of a call. -/
  | window (number : ℕ) (event : RequestEvent PopupResult CallThrown)
  /-- The answer to the nonce callback of a sign-in. -/
  | nonce (number : ℕ) (answer : ServerAnswer)
  | answer (number : ℕ) (answer : ServerAnswer)
  /-- A function goes on after what it awaited. -/
  | resume (number : ℕ)

/-! ## The steps -/

/-- The id that a message names. -/
def PopupMessage.id? {ρ : Type*} : PopupMessage ρ → Option Bytes
  | .ready => none
  | .sending id _ _ => some id
  | .submitted id _ => some id
  | .result id _ => some id
  | .error id _ _ _ => some id

/-- A message names the id of a request that was not posted: ids are random, so nobody can
have sent it. -/
def SiteRequest.guesses (request : PageRequest) : RequestEvent PopupResult CallThrown → Bool
  | .message event =>
      request.posted.isEmpty && (event.data.bind PopupMessage.id?).any (· = request.id)
  | _ => false

/-- What the page takes from its environment. -/
structure Page where
  browser : Browser
  /-- `JSON.stringify` of the first 80 characters. -/
  shownNonce : Bytes → Bytes

/-- The parameters of a call, which are there at once. -/
def SiteCall.give {ρ χ : Type*} (call : SiteCall ρ χ) (params : ConnectParams) : SiteCall ρ χ :=
  match call with
  | .opened request => .opened (request.takeValues (.ok params))
  | .refused error => .refused error

namespace VeraKeySession

variable (page : Page) (session : VeraKeySession) (number : ℕ)

def fresh : VeraKeySession where
  created := 0
  connect := none
  pending := ∅
  merchant := none
  current := ⟨.loading, none, false, none⟩
  jobs := .empty

def start (job : PageJob) : VeraKeySession := { session with jobs := session.jobs.start job }

def set (job : PageJob) : VeraKeySession := { session with jobs := session.jobs.set number job }

/-- What a 401 does to the state. -/
def hear (answer : ServerAnswer) : VeraKeySession :=
  if answer.signsOut then
    { session with current := { session.current with status := .signedOut, player := none } }
  else session

/-- `request` of a `VeraKeyConnect`. -/
def request (connect : PageConnect) (popup? : Option ℕ) (id : Bytes) : PageCall :=
  .request (connect.number ∈ session.pending) connect.origin popup? id

/-- The call is under way. -/
def opens (connect : PageConnect) (call : PageCall) : VeraKeySession :=
  if call.isOpen then { session with pending := insert connect.number session.pending }
  else session

def signIn (popup? : Option ℕ) (id : Bytes) : VeraKeySession :=
  if session.current.status ≠ .signedOut then
    session.start (.refused (sessionError (.connect .busy)
      (ascii "Cannot sign in while " ++ statusText session.current.status ++ ascii ".")))
  else
    match session.connect with
    | none =>
        -- the popup must open inside the click: fail, and load again
        let error := sessionError .network (ascii "This site's server did not answer.")
        ({ session with current := { session.current with error := some error } }.start
          (.load .asking)).start (.refused error)
    | some connect =>
        let call := session.request connect popup? id
        { (session.opens connect call).start (.signIn ⟨connect.number, call, .window⟩) with
          current := { session.current with status := .signingIn, error := none } }
where
  statusText : VeraKeySessionStatus → Bytes
    | .loading => ascii "loading"
    | .signedOut => ascii "signed-out"
    | .signingIn => ascii "signing-in"
    | .signedIn => ascii "signed-in"

def pay (amount : ℤ) (popup? : Option ℕ) (id : Bytes) : VeraKeySession :=
  match session.current.player.filter fun _ => session.current.status = .signedIn with
  | none => session.start (.refused (sessionError .signedOut (ascii "Sign in first.")))
  | some player =>
      if session.current.paying then
        session.start (.refused (sessionError (.connect .busy)
          (ascii "A payment is already under way.")))
      else
        match session.connect, session.merchant.filter (· ≠ []) with
        | some connect, some merchant =>
            let call := (session.request connect popup? id).give
              (.pay merchant (intText amount) ((some player.account).filter (· ≠ [])))
            { (session.opens connect call).start
                (.pay ⟨connect.number, amount, call, [], .window⟩) with
              current := { session.current with paying := true } }
        | _, _ =>
            session.start (.refused (sessionError .server (ascii "This site takes no payments.")))

/-! ### Loading -/

/-- `load`, once the server has answered. -/
def loaded (answer : ServerAnswer) : VeraKeySession :=
  match (answer.call false).bind fun data => Guard.orElse data ServerAnswer.nullError with
  | .error thrown => (session.hear answer).set number (.load (.failed thrown))
  | .ok data =>
      match page.browser.parseUrl (data.verakeyUrl.getD (ascii "undefined")) with
      | none => session.set number (.load (.failed (.other (ascii "Invalid URL"))))
      | some url =>
          { session.set number (.load .done) with
            created := session.created + 1
            connect := some ⟨session.created, url.origin⟩
            merchant := data.merchant
            current :=
              { session.current with
                status := if data.player.isSome then .signedIn else .signedOut
                player := data.player
                error := none } }

def loadFailed (thrown : CallThrown) : VeraKeySession :=
  { session.set number (.load .done) with
    current :=
      { session.current with
        status := .signedOut
        player := none
        error := some thrown.asSessionError } }

/-! ### Signing in and out -/

/-- The error that ends a sign-in. -/
def signInFailed (job : SignInJob) (thrown : PageThrown) : VeraKeySession :=
  if thrown.quiet then
    { session.set number (.signIn { job with stage := .done (.ok none) }) with
      current := { session.current with status := .signedOut, error := none } }
  else
    let failure := thrown.asSessionError
    { session.set number (.signIn { job with stage := .done (.error failure) }) with
      current :=
        { session.current with
          status := .signedOut
          player := none
          error := some failure } }

/-- The popup's answer to a sign-in. -/
def signInAnswered (job : SignInJob) : VeraKeySession :=
  match job.call.settlements with
  | .resolved _ :: _ => session.set number (.signIn { job with stage := .checking })
  | .rejected error :: _ => session.signInFailed number job (.connect error)
  | [] => session

/-- The server's answer to a sign-in. -/
def signInChecked (job : SignInJob) (answer : ServerAnswer) : VeraKeySession :=
  match (answer.call true).bind fun data => Guard.orElse data ServerAnswer.nullError with
  | .error thrown => session.set number (.signIn { job with stage := .failed thrown })
  | .ok data =>
      { session.set number (.signIn { job with stage := .done (.ok data.player) }) with
        current :=
          { session.current with
            status := .signedIn
            player := data.player
            error := none } }

/-- The parameters of a sign-in; a nonce that VeraKey's window would refuse is refused here. -/
def signInParams (answer : ServerAnswer) : Except CallThrown ConnectParams := do
  let data ← answer.call false
  let data ← Guard.orElse data ServerAnswer.nullError
  match data.nonce.filter isBytes32 with
  | some nonce => return .signIn nonce
  | none =>
      throw (.other (ascii "The nonce must be 32 bytes of hex (0x and 64 hex digits), not " ++
        (data.nonce.map page.shownNonce).getD (ascii "undefined") ++ ascii "."))

/-- The server's answer to the nonce callback. -/
def nonceAnswered (job : SignInJob) (answer : ServerAnswer) : VeraKeySession :=
  match job.call with
  | .refused _ => session
  | .opened request =>
      match request.values with
      | .waiting =>
          (session.hear answer).set number (.signIn
            { job with call := .opened (request.takeValues (signInParams page answer)) })
      | _ => session

def signedOut (answer : ServerAnswer) : VeraKeySession :=
  match answer.call false with
  | .error thrown => (session.hear answer).set number (.signOut (some (.error thrown)))
  | .ok _ =>
      { session.set number (.signOut (some (.ok ()))) with
        current := { session.current with status := .signedOut, player := none, error := none } }

/-! ### Paying -/

/-- The payment that goes to the server, whatever ended the popup's request. -/
def sentPayment (amount : ℤ) : Settlement PopupResult CallThrown → Option VeraKeySentPayment
  | .resolved result => some (.hash amount result.hash?)
  | .rejected error =>
      match error.hash, error.pending with
      | some hash, _ => some (.hash amount (some hash))
      | none, some pending => some (.nonce amount pending.nonce)
      | none, none => none

/-- The popup's answer to a payment: what was sent, or may have been, goes to the server. -/
def payAnswered (job : PayJob) : VeraKeySession :=
  match job.call.settlements with
  | [] => session
  | settlement :: _ =>
      match sentPayment job.amount settlement, settlement with
      | some sent, _ =>
          session.set number (.pay
            { job with
              posted := job.posted ++ [sent]
              stage := .confirming sent })
      | none, .rejected error =>
          let outcome : PayOutcome :=
            if (PageThrown.connect error).quiet then .ok none
            else .error (PageThrown.connect error).asSessionError
          session.set number (.pay { job with stage := .finished outcome })
      | none, .resolved _ => session

/-- The error keeps the payment, so the page can confirm it later. -/
def unconfirmed (sent : VeraKeySentPayment) (thrown : CallThrown) : PayOutcome :=
  let failure := thrown.asSessionError
  .error ⟨failure.code, failure.message, failure.status, failure.checks, some sent⟩

/-- The server's answer to a payment. -/
def payConfirmed (job : PayJob) (sent : VeraKeySentPayment) (answer : ServerAnswer) :
    VeraKeySession :=
  match (answer.call false).bind readReceipt with
  | .ok receipt => session.set number (.pay { job with stage := .finished (.ok (some receipt)) })
  | .error thrown =>
      (session.hear answer).set number (.pay { job with stage := .unconfirmed sent thrown })

def paid (job : PayJob) (outcome : PayOutcome) : VeraKeySession :=
  { session.set number (.pay { job with stage := .done outcome }) with
    current := { session.current with paying := false } }

/-! ### Events -/

/-- The request of a call changes. -/
def happens (connect : ℕ) (call : PageCall) (event : RequestEvent PopupResult CallThrown) :
    PageCall × Finset ℕ :=
  match call, event with
  | .opened request, .values _ => (.opened request, session.pending)
  | .opened request, event =>
      if request.guesses event then (.opened request, session.pending)
      else
        let after := request.step page.browser.keccak
          (fun thrown : CallThrown => some thrown.asSessionError.message) event
        (.opened after,
          if after.settled && !request.settled then session.pending.erase connect
          else session.pending)
  | .refused error, _ => (.refused error, session.pending)

def answered (answer : ServerAnswer) : PageJob → VeraKeySession
  | .load .asking => session.loaded page number answer
  | .signIn ⟨connect, call, .checking⟩ =>
      session.signInChecked number ⟨connect, call, .checking⟩ answer
  | .signOut none => session.signedOut number answer
  | .pay ⟨connect, amount, call, posted, .confirming sent⟩ =>
      session.payConfirmed number ⟨connect, amount, call, posted, .confirming sent⟩ sent answer
  | .confirmPayment payment none =>
      (session.hear answer).set number
        (.confirmPayment payment (some ((answer.call false).bind readReceipt)))
  | _ => session

def resumed : PageJob → VeraKeySession
  | .load (.failed thrown) => session.loadFailed number thrown
  | .signIn ⟨connect, call, .window⟩ => session.signInAnswered number ⟨connect, call, .window⟩
  | .signIn ⟨connect, call, .failed thrown⟩ =>
      session.signInFailed number ⟨connect, call, .failed thrown⟩ (.call thrown)
  | .pay ⟨connect, amount, call, posted, .window⟩ =>
      session.payAnswered number ⟨connect, amount, call, posted, .window⟩
  | .pay ⟨connect, amount, call, posted, .unconfirmed sent thrown⟩ =>
      session.set number
        (.pay ⟨connect, amount, call, posted, .finished (unconfirmed sent thrown)⟩)
  | .pay ⟨connect, amount, call, posted, .finished outcome⟩ =>
      session.paid number ⟨connect, amount, call, posted, .finished outcome⟩ outcome
  | _ => session

def windowed (event : RequestEvent PopupResult CallThrown) : PageJob → VeraKeySession
  | .signIn job =>
      let (call, pending) := session.happens page job.connect job.call event
      { session.set number (.signIn { job with call := call }) with pending := pending }
  | .pay job =>
      let (call, pending) := session.happens page job.connect job.call event
      { session.set number (.pay { job with call := call }) with pending := pending }
  | _ => session

/-- The state after an event. -/
def next : PageEvent → VeraKeySession
  | .load => session.start (.load .asking)
  | .signIn popup? id => session.signIn popup? id
  | .signOut => session.start (.signOut none)
  | .pay amount popup? id => session.pay amount popup? id
  | .confirmPayment payment => session.start (.confirmPayment payment none)
  | .window number event =>
      ((session.jobs.job? number).map (session.windowed page number event)).getD session
  | .nonce number answer =>
      match session.jobs.job? number with
      | some (.signIn job) => session.nonceAnswered page number job answer
      | _ => session
  | .answer number answer =>
      ((session.jobs.job? number).map (session.answered page number answer)).getD session
  | .resume number =>
      ((session.jobs.job? number).map (session.resumed number)).getD session

/-- The state after the first `n` events. -/
def after (events : ℕ → PageEvent) (n : ℕ) : VeraKeySession :=
  History.run (next page) fresh events n

theorem after_succ {page : Page} {events : ℕ → PageEvent} (n : ℕ) :
    after page events (n + 1) = (after page events n).next page (events n) := rfl

end VeraKeySession

end Sdk

end VeraKey
