/-
The messages between a site and the "Sign in with VeraKey" popup, the popup's gate, and the
site's side of them: it opens VeraKey's window, sends one request and returns the answer.
Timers, the popup and the site's own callback come in any order.
-/
import VeraKey.AnswerLog
import VeraKey.History
import VeraKey.JobTable
import VeraKey.Payments

namespace VeraKey

open ByteCodec TextCodec

namespace Sdk

/-! ## The messages -/

inductive ConnectErrorCode
  | blocked
  | unavailable
  | closed
  | busy
  | origin
  | request
  | cancelled
  | funds
  | policy
  | device
  | proof
  | relay
deriving DecidableEq

/-- The method of a request and its parameters. -/
inductive ConnectParams
  | signIn (nonce : Bytes)
  | pay (recipient amount : Bytes) (account : Option Bytes)
deriving DecidableEq

structure ConnectRequest where
  id : Bytes
  params : ConnectParams
deriving DecidableEq

/-- A payment the popup was sending when the request ended. -/
structure PendingPayment where
  account : Bytes
  nonce : ℕ
deriving DecidableEq

universe u v

/-- What VeraKey's window tells the site. -/
inductive PopupMessage (ρ : Type u)
  | ready
  | sending (id account nonce : Bytes)
  | submitted (id hash : Bytes)
  | result (id : Bytes) (result : ρ)
  | error (id : Bytes) (code : ConnectErrorCode) (message : Bytes) (revert : Option Bytes)
deriving DecidableEq

/-- A message as the browser delivers it: it names the window and the origin it is from. -/
structure MessageEvent (δ : Type u) where
  source : Option ℕ
  origin : Bytes
  data : δ

/-! ## The popup's gate -/

/-- A parsed URL. -/
structure Url where
  origin : Bytes
  protocol : Bytes
  hostname : Bytes

/-- What both windows take from the browser. -/
structure Browser where
  keccak : Bytes → B256
  /-- `new URL(url)`; nothing when it throws. -/
  parseUrl : Bytes → Option Url

def isEnvelope (data : Json) : Bool :=
  data.isObject &&
    (data.get? "protocol").bind Json.text? = some (ascii "verakey-connect") &&
    (data.get? "version").bind Json.safeInteger? = some 1 &&
    ((data.get? "type").bind Json.text?).isSome

/-- Sites the popup answers: https, and plain http only on this computer. -/
def isAllowedRequesterOrigin (browser : Browser) (origin : Bytes) : Bool :=
  match browser.parseUrl origin with
  | none => false
  | some url =>
      url.origin = origin &&
        (url.protocol = ascii "https:" ||
          url.protocol = ascii "http:" &&
            (url.hostname = ascii "localhost" || url.hostname = ascii "127.0.0.1"))

/-- The length of a text in UTF-16 units. -/
def utf16Length (text : Bytes) : ℕ :=
  (text.map fun c => if c < 0x80 then 1 else if c < 0xc0 then 0 else if c < 0xf0 then 1 else 2).sum

/-- The account that a payment names, if it names one. -/
def paymentAccount (browser : Browser) (params : Json) : Option (Option Bytes) :=
  match params.get? "account" with
  | none => some none
  | some account => (account.text?.filter (isAddress browser.keccak)).map some

def parseParams (browser : Browser) (method : Bytes) (params : Json) : Option ConnectParams :=
  if method = ascii "signIn" then
    (((params.get? "nonce").bind Json.text?).filter isBytes32).map .signIn
  else if method = ascii "pay" then do
    let recipient ← ((params.get? "to").bind Json.text?).filter (isAddress browser.keccak)
    let amount ← ((params.get? "amount").bind Json.text?).filter isAmount
    let account ← paymentAccount browser params
    -- `MAX_AMOUNT`
    guard (decimal amount < 2 ^ 128)
    return .pay recipient amount account
  else none

def parseRequest (browser : Browser) (data : Json) : Option ConnectRequest := do
  let id ← ((data.get? "id").bind Json.text?).filter fun id => id ≠ [] ∧ utf16Length id ≤ 64
  let params ← (data.get? "params").filter Json.isObject
  let method ← (data.get? "method").bind Json.text?
  return ⟨id, ← parseParams browser method params⟩

inductive RequestVerdict
  | ignore
  | reject (origin id : Bytes) (code : ConnectErrorCode) (message : Bytes)
  | accept (origin : Bytes) (request : ConnectRequest)
deriving DecidableEq

/-- The popup's gate: only the window that opened it, only this protocol, only allowed
origins, one request per window, and only a well-formed one. -/
def acceptRequest (browser : Browser) (event : MessageEvent Json) (opener : Option ℕ)
    (handled : Bool) : RequestVerdict :=
  let type := (event.data.get? "type").bind Json.text?
  if opener = none ∨ event.source ≠ opener ∨ isEnvelope event.data = false ∨
      type ≠ some (ascii "request") then
    .ignore
  else
    let id := ((event.data.get? "id").bind Json.text?).getD []
    let reject := RequestVerdict.reject event.origin id
    if isAllowedRequesterOrigin browser event.origin = false then
      reject .origin (ascii "VeraKey answers https sites, and localhost while developing, not " ++
        event.origin ++ ascii ".")
    else if handled then reject .busy (ascii "This VeraKey window already has a request.")
    else
      match parseRequest browser event.data with
      | some request => .accept event.origin request
      | none => reject .request (ascii "The request is malformed.")

/-! ## A request of the site -/

/-- `χ` is what the site's own callback can throw. -/
structure VeraKeyConnectError (χ : Type v) where
  code : ConnectErrorCode
  message : Bytes
  revert : Option Bytes
  /-- The popup had already sent the payment. -/
  hash : Option Bytes
  /-- The request ended while the payment was being sent. -/
  pending : Option PendingPayment
  cause : Option χ
deriving DecidableEq

/-- A call of `resolve` or `reject`. -/
inductive Settlement (ρ : Type u) (χ : Type v)
  | resolved (result : ρ)
  | rejected (error : VeraKeyConnectError χ)
deriving DecidableEq

/-- The parameters that the site's callback is asked for. -/
inductive Values (χ : Type v)
  | waiting
  | given (params : ConnectParams)
  | failed (cause : χ)
deriving DecidableEq

/-- A message that the site posts, and the origin it is for. -/
structure SitePost where
  request : ConnectRequest
  targetOrigin : Bytes
deriving DecidableEq

/-- A request whose window is open. -/
structure SiteRequest (ρ : Type u) (χ : Type v) where
  origin : Bytes
  popup : ℕ
  id : Bytes
  values : Values χ
  ready : Bool
  /-- What waits for the parameters since the popup is ready has run. -/
  asked : Bool
  sent : Option Bytes
  sending : Option PendingPayment
  posted : List SitePost
  /-- Calls of `popup.close`. -/
  closes : ℕ
  settlement : AnswerLog (Settlement ρ χ) fun _ => true

inductive RequestEvent (ρ : Type u) (χ : Type v)
  /-- The site's callback has returned or thrown. -/
  | values (result : Except χ ConnectParams)
  /-- The handlers of `values.catch` and `values.then`. -/
  | failed
  | given
  /-- A message; without data it is none of this protocol. -/
  | message (event : MessageEvent (Option (PopupMessage ρ)))
  | readyTimer
  | closedPoll (closed : Bool)

def unavailable : Bytes := ascii
  ("The VeraKey window did not answer. If this page sends Cross-Origin-Opener-Policy: " ++
    "same-origin, send same-origin-allow-popups instead; also check the VeraKey URL.")

/-- `/^[0-9]{1,78}$/`. -/
def isActionNonce (text : Bytes) : Bool :=
  text ≠ [] && text.all isDigit && text.length ≤ 78

namespace SiteRequest

variable {ρ : Type u} {χ : Type v}

def fresh (origin : Bytes) (popup : ℕ) (id : Bytes) : SiteRequest ρ χ where
  origin := origin
  popup := popup
  id := id
  values := .waiting
  ready := false
  asked := false
  sent := none
  sending := none
  posted := []
  closes := 0
  settlement := .empty

def settled (request : SiteRequest ρ χ) : Bool := request.settlement.answered

/-- `settle`: only the first one counts. -/
def settle (request : SiteRequest ρ χ) (settlement : Settlement ρ χ) : SiteRequest ρ χ :=
  { request with settlement := request.settlement.post settlement }

/-- Without a hash, a payment the popup was sending may still land. -/
def pendingAt (request : SiteRequest ρ χ) (code : ConnectErrorCode) : Option PendingPayment :=
  if request.sent.isSome ∨ (code ≠ .closed ∧ code ≠ .relay) then none else request.sending

def fail (request : SiteRequest ρ χ) (code : ConnectErrorCode) (message : Bytes)
    (revert : Option Bytes) (cause : Option χ) : SiteRequest ρ χ :=
  request.settle (.rejected
    { code := code
      message := message
      revert := revert
      hash := request.sent
      pending := request.pendingAt code
      cause := cause })

/-- The site's callback is over. -/
def takeValues (request : SiteRequest ρ χ) (result : Except χ ConnectParams) : SiteRequest ρ χ :=
  match request.values, result with
  | .waiting, .ok params => { request with values := .given params }
  | .waiting, .error cause => { request with values := .failed cause }
  | _, _ => request

/-- The site's callback failed: the window is closed, but not once the request has ended,
since a retry may already be using it.  What was thrown may have no text. -/
def onFailed (messageOf : χ → Option Bytes) (request : SiteRequest ρ χ) : SiteRequest ρ χ :=
  match request.values with
  | .failed cause =>
      if request.settled then request
      else
        match messageOf cause with
        | some message =>
            { request.fail .request message none (some cause) with closes := request.closes + 1 }
        | none => request
  | _ => request

/-- The popup is ready, and the parameters are there. -/
def onGiven (request : SiteRequest ρ χ) : SiteRequest ρ χ :=
  match request.values with
  | .given params =>
      if request.ready && !request.asked then
        if request.settled then { request with asked := true }
        else
          { request with
            asked := true
            posted := request.posted ++ [⟨⟨request.id, params⟩, request.origin⟩] }
      else request
  | _ => request

/-- A message of the request's window. -/
def receive (keccak : Bytes → B256) (request : SiteRequest ρ χ) :
    PopupMessage ρ → SiteRequest ρ χ
  | .ready => { request with ready := true }
  | .submitted id hash =>
      if id = request.id ∧ isHex hash = true then { request with sent := some hash } else request
  | .sending id account nonce =>
      if id = request.id ∧ isAddress keccak account = true ∧ isActionNonce nonce = true then
        { request with sending := some ⟨account, decimal nonce⟩ }
      else request
  | .result id result => if id = request.id then request.settle (.resolved result) else request
  | .error id code message revert =>
      if id = request.id then request.fail code message revert none else request

/-- The listener, which is removed once the request has ended. -/
def onMessage (keccak : Bytes → B256) (request : SiteRequest ρ χ)
    (event : MessageEvent (Option (PopupMessage ρ))) : SiteRequest ρ χ :=
  if request.settled then request
  else if event.origin ≠ request.origin ∨ event.source ≠ some request.popup then request
  else
    match event.data with
    | some message => request.receive keccak message
    | none => request

def onReadyTimer (request : SiteRequest ρ χ) : SiteRequest ρ χ :=
  if request.ready then request else request.fail .unavailable unavailable none none

/-- A popup that closes before it ever answered was cut off. -/
def onClosedPoll (request : SiteRequest ρ χ) (closed : Bool) : SiteRequest ρ χ :=
  if closed && !request.ready then request.fail .unavailable unavailable none none
  else if closed then
    request.fail .closed
      (if request.sent.isSome then
        ascii ("The VeraKey window closed after the payment was sent: verify it before asking " ++
          "again.")
      else if request.sending.isSome then
        ascii ("The VeraKey window closed while the payment was being sent: find it with " ++
          "findPayment before asking again.")
      else ascii "The VeraKey window was closed.")
      none none
  else request

/-- What one event does to a request. -/
def step (keccak : Bytes → B256) (messageOf : χ → Option Bytes) (request : SiteRequest ρ χ) :
    RequestEvent ρ χ → SiteRequest ρ χ
  | .values result => request.takeValues result
  | .failed => request.onFailed messageOf
  | .given => request.onGiven
  | .message event => request.onMessage keccak event
  | .readyTimer => request.onReadyTimer
  | .closedPoll closed => request.onClosedPoll closed

end SiteRequest

/-! ## The site's side -/

/-- A call of `signIn` or `pay`: refused at once, or a request with a window. -/
inductive SiteCall (ρ : Type u) (χ : Type v)
  | refused (error : VeraKeyConnectError χ)
  | opened (request : SiteRequest ρ χ)

namespace SiteCall

variable {ρ : Type u} {χ : Type v}

def refuse (code : ConnectErrorCode) (message : String) : SiteCall ρ χ :=
  .refused ⟨code, ascii message, none, none, none, none⟩

/-- `request`, where `popup?` is what the browser opens, and `id` a random id. -/
def request (pending : Bool) (origin : Bytes) (popup? : Option ℕ) (id : Bytes) : SiteCall ρ χ :=
  if pending then refuse .busy "Another VeraKey request is still open."
  else
    match popup? with
    | none =>
        refuse .blocked
          "The browser blocked the VeraKey window. Call signIn() and pay() from a click."
    | some popup => .opened (.fresh origin popup id)

/-- How the promise of the call was settled, each time it was. -/
def settlements : SiteCall ρ χ → List (Settlement ρ χ)
  | .refused error => [.rejected error]
  | .opened request => request.settlement.posted

def posted : SiteCall ρ χ → List SitePost
  | .refused _ => []
  | .opened request => request.posted

/-- The call has opened a window and is not settled. -/
def isOpen : SiteCall ρ χ → Bool
  | .refused _ => false
  | .opened request => !request.settled

end SiteCall

structure VeraKeyConnect (ρ : Type u) (χ : Type v) where
  origin : Bytes
  pending : Bool
  calls : JobTable (SiteCall ρ χ)

inductive ConnectEvent (ρ : Type u) (χ : Type v)
  | request (popup? : Option ℕ) (id : Bytes)
  | happens (number : ℕ) (event : RequestEvent ρ χ)

namespace VeraKeyConnect

variable {ρ : Type u} {χ : Type v}

def fresh (origin : Bytes) : VeraKeyConnect ρ χ where
  origin := origin
  pending := false
  calls := .empty

/-- The state after an event. -/
def next (keccak : Bytes → B256) (messageOf : χ → Option Bytes) (connect : VeraKeyConnect ρ χ) :
    ConnectEvent ρ χ → VeraKeyConnect ρ χ
  | .request popup? id =>
      let call := .request connect.pending connect.origin popup? id
      { connect with
        pending := connect.pending || call.isOpen
        calls := connect.calls.start call }
  | .happens number event =>
      match connect.calls.job? number with
      | some (.opened request) =>
          let after := request.step keccak messageOf event
          { connect with
            -- settling clears it
            pending := connect.pending && (request.settled || !after.settled)
            calls := connect.calls.set number (.opened after) }
      | _ => connect

/-- The state after the first `n` events. -/
def after (keccak : Bytes → B256) (messageOf : χ → Option Bytes) (origin : Bytes)
    (events : ℕ → ConnectEvent ρ χ) (n : ℕ) : VeraKeyConnect ρ χ :=
  History.run (next keccak messageOf) (fresh origin) events n

theorem after_succ {keccak : Bytes → B256} {messageOf : χ → Option Bytes} {origin : Bytes}
    {events : ℕ → ConnectEvent ρ χ} (n : ℕ) :
    after keccak messageOf origin events (n + 1) =
      (after keccak messageOf origin events n).next keccak messageOf (events n) := rfl

end VeraKeyConnect

end Sdk

end VeraKey
