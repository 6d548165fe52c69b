/-
The kit on a site's server: its sign-in and payment routes, each check in the order of
the source, over the sessions it has signed and the payment checks it is running.
-/
import VeraKey.Guard
import VeraKey.History
import VeraKey.KeyedLock
import VeraKey.SignIn

namespace VeraKey

open ByteCodec Guard TextCodec

namespace Sdk

/-! ## Requests and answers -/

structure VeraKeyPlayer where
  id : Bytes
  account : Bytes
deriving DecidableEq

/-- A signed-in player's session. -/
structure Session where
  player : VeraKeyPlayer
  sid : Bytes
  exp : ℤ
deriving DecidableEq

structure IssuedNonce where
  nonce : Bytes
  expiresAt : ℤ
deriving DecidableEq

structure VeraKeyServerOptions where
  origin : Bytes
  deployment : SignInDeployment
  merchant : Option Bytes
  sessionTtlSeconds : Option ℤ

/-- A request to the kit.  A cookie is what it carries if its MAC is valid. -/
structure KitRequest where
  origin : Option Bytes
  /-- As the header says; zero when it says nothing. -/
  contentLength : ℕ
  body : Bytes
  nonceCookie : Option IssuedNonce
  sessionCookie : Option Session
deriving DecidableEq

structure HttpError where
  status : ℕ
  message : Bytes
  checks : Option (List SignInCheck)
deriving DecidableEq

def maxBodyBytes : ℕ := 64 * 1024

def defaultSessionTtlSeconds : ℤ := 7 * 24 * 60 * 60

/-- What `handle` answers when a route throws anything but an `HttpError`. -/
def routeFailed : HttpError := ⟨500, ascii "The VeraKey route failed.", none⟩

def requireOrigin (options : VeraKeyServerOptions) (request : KitRequest) :
    Except HttpError Unit :=
  rejectIf (request.origin ≠ some options.origin) ⟨403,
    match request.origin.filter (· ≠ []) with
    | some sender =>
        ascii "Open this site at " ++ options.origin ++ ascii ": this request came from " ++
          sender ++ ascii "."
    | none => ascii "Requests to VeraKey's routes must come from " ++ options.origin ++ ascii ".",
    none⟩

def readBody (p : Platform) (request : KitRequest) : Except HttpError Json := do
  rejectIf (maxBodyBytes < request.contentLength ∨ maxBodyBytes < request.body.length)
    ⟨413, ascii "The request is too large.", none⟩
  orElse (p.parseJson request.body) ⟨400, ascii "The request is not JSON.", none⟩

/-- The nonce this browser was issued, before it expires. -/
def readNonce (now : ℤ) (cookie : Option IssuedNonce) : Option Bytes := do
  let issued ← cookie
  guard (isBytes32 issued.nonce ∧ now < issued.expiresAt)
  return issued.nonce

/-- `/^[0-9a-f]{32}$/`. -/
def isSid (text : Bytes) : Bool :=
  text.length = 32 && text.all fun c => (hexValue c).isSome && lowerByte c = c

/-- An unexpired session. -/
def decodeSession (now : ℤ) (cookie : Option Session) : Option Session :=
  cookie.filter fun session =>
    isBytes32 session.player.id && isAnyAddress session.player.account && isSid session.sid &&
      now < session.exp

/-- The answers to one read of a session. -/
structure SessionAnswers where
  now : ℤ
  signedOut : Bool
  stillOwner : Bool

/-- The request's session, unless it was signed out or its passkey is no longer an owner. -/
def readSession (answers : SessionAnswers) (request : KitRequest) : Option Session :=
  (decodeSession answers.now request.sessionCookie).filter fun _ =>
    !answers.signedOut && answers.stillOwner

/-! ## Sign-in -/

/-- The answers to one sign-in: clock readings, the store, the chain, the site and the
random session id. -/
structure SignInAnswers where
  readAt : ℤ
  /-- Whether the store's claim was the first, unless the store failed. -/
  claim : Option Bool
  verifiedAt : ℤ
  chain : ChainClient
  /-- The message with which `onSignIn` refused. -/
  refusal : Option Bytes
  sid : Bytes
  signedAt : ℤ

/-- What the kit asks of `verifySignIn`. -/
def signInOptions (options : VeraKeyServerOptions) (issued : Bytes) (now : ℤ) :
    VerifySignInOptions where
  origin := options.origin
  nonce := issued
  deployment := options.deployment
  prover := none
  skipOnChainProof := false
  now := now
  maxTtlSeconds := none
  clockSkewSeconds := none

/-- The session that `sessionCookie` signs. -/
def newSession (options : VeraKeyServerOptions) (answers : SignInAnswers)
    (player : VeraKeyPlayer) : Session where
  player := player
  sid := answers.sid
  exp := answers.signedAt + options.sessionTtlSeconds.getD defaultSessionTtlSeconds

/-- The player of a verdict that holds. -/
def SignInVerdict.player (verdict : SignInVerdict) : Option VeraKeyPlayer := do
  guard verdict.valid
  return ⟨← verdict.playerId, ← verdict.account⟩

/-- `POST sign-in`: the session it starts. -/
def signIn (p : Platform) (options : VeraKeyServerOptions) (request : KitRequest)
    (answers : SignInAnswers) : Except HttpError Session := do
  requireOrigin options request
  let result ← readBody p request
  let nonce ← orElse (checkedText? isBytes32 ((result.get? "statement").bind (Json.get? "nonce")))
    ⟨400, ascii "This is not a VeraKey sign-in.", none⟩
  let issued ← orElse (readNonce answers.readAt request.nonceCookie)
    ⟨403, ascii "This browser has no current sign-in request: sign in again.", none⟩
  rejectIf (toLowerCase issued ≠ toLowerCase nonce)
    ⟨403, ascii "This sign-in answers an older request from this browser: sign in again.", none⟩
  let first ← orElse answers.claim routeFailed
  rejectIf (first = false) ⟨409, ascii "This sign-in was already used.", none⟩
  let verdict :=
    verifySignIn p answers.chain (signInOptions options issued answers.verifiedAt) result
  let player ← orElse verdict.player
    ⟨401, ascii "The sign-in did not verify.", some verdict.checks⟩
  match answers.refusal with
  | some message => throw ⟨400, message, none⟩
  | none => return newSession options answers player

/-- What the check of an accepted sign-in says of its session. -/
theorem signIn_eq_ok {p : Platform} {options : VeraKeyServerOptions} {request : KitRequest}
    {answers : SignInAnswers} {session : Session}
    (hsession : signIn p options request answers = .ok session) :
    isField session.player.id = true ∧
      (p.parseJson request.body).bind nullifierText = some session.player.id := by
  simp only [signIn, bind_eq_ok, orElse_eq_ok] at hsession
  obtain ⟨-, -, result, hresult, nonce, -, issued, -, -, -, first, -, -, -, player, hplayer,
    hsession⟩ := hsession
  have hparse : p.parseJson request.body = some result := by
    simp only [readBody, bind_eq_ok, orElse_eq_ok] at hresult
    obtain ⟨-, -, hparse⟩ := hresult
    exact hparse
  have hid : session.player = player := by
    split at hsession
    · contradiction
    · rw [← pure_eq_ok.mp hsession]
      rfl
  simp only [SignInVerdict.player, do_eq_some_iff] at hplayer
  obtain ⟨passed, hvalid, id, hverdict, account, -, hplayer⟩ := hplayer
  obtain ⟨id', hverdict', hfield, htext⟩ :=
    playerId_verifySignIn ((Option.guard_eq_some' passed).mp hvalid)
  have heq : session.player.id = id' := by
    rw [hid, ← Option.some.inj hplayer]
    exact Option.some.inj (hverdict.symm.trans hverdict')
  rw [heq, hparse]
  exact ⟨hfield, htext⟩

/-! ## Payments -/

/-- A payment request whose check is running. -/
structure PaymentCheck where
  number : ℕ
  player : VeraKeyPlayer
deriving DecidableEq

/-- `paying` and the checks it is there for. -/
abbrev Paying : Type := KeyedLock fun check : PaymentCheck => check.player.id

/-- `POST payment` up to `acceptPayment`. -/
def startPayment (options : VeraKeyServerOptions) (paying : Paying) (number : ℕ)
    (request : KitRequest) (answers : SessionAnswers) : Except HttpError Paying := do
  requireOrigin options request
  let session ← orElse (readSession answers request) ⟨401, ascii "Sign in first.", none⟩
  rejectIf (options.merchant = none) ⟨404, ascii "This site takes no payments.", none⟩
  orElse (paying.acquire ⟨number, session.player⟩)
    ⟨429, ascii "A payment for this player is being checked. Try again in a moment.", none⟩

theorem startPayment_eq_ok {options : VeraKeyServerOptions} {paying paying' : Paying} {number : ℕ}
    {request : KitRequest} {answers : SessionAnswers}
    (hstart : startPayment options paying number request answers = .ok paying') :
    ∃ session, request.sessionCookie = some session ∧
      paying'.running = ⟨number, session.player⟩ :: paying.running := by
  simp only [startPayment, bind_eq_ok, orElse_eq_ok] at hstart
  obtain ⟨-, -, session, hsession, -, -, hacquire⟩ := hstart
  have hdecoded := (Option.filter_eq_some_iff.mp hsession).1
  exact ⟨session, (Option.filter_eq_some_iff.mp hdecoded).1, KeyedLock.running_acquire hacquire⟩

/-! ## The server -/

/-- One process: every session it has signed, and the payment checks under way. -/
structure VeraKeyServer where
  sessions : List Session
  paying : Paying
  payments : ℕ

/-- What can happen next: a sign-in ends, a payment request reaches `paying`, a payment
check ends, or a route does none of these. -/
inductive KitEvent
  -- until it signs the session a sign-in shares nothing with other requests but the store
  | signIn (request : KitRequest) (answers : SignInAnswers)
  | payment (request : KitRequest) (answers : SessionAnswers)
  | paymentAnswered (check : PaymentCheck)
  | other

namespace VeraKeyServer

def fresh : VeraKeyServer := ⟨[], KeyedLock.idle, 0⟩

def next (p : Platform) (options : VeraKeyServerOptions) (server : VeraKeyServer) :
    KitEvent → VeraKeyServer
  | .signIn request answers =>
      match signIn p options request answers with
      | .ok session => { server with sessions := session :: server.sessions }
      | .error _ => server
  | .payment request answers =>
      match startPayment options server.paying server.payments request answers with
      | .ok paying => { server with paying := paying, payments := server.payments + 1 }
      | .error _ => server
  | .paymentAnswered check => { server with paying := server.paying.release check }
  | .other => server

section Next

variable {p : Platform} {options : VeraKeyServerOptions} {server : VeraKeyServer}
variable {request : KitRequest}

theorem next_signIn {answers : SignInAnswers} {session : Session}
    (hroute : signIn p options request answers = .ok session) :
    server.next p options (.signIn request answers) =
      { server with sessions := session :: server.sessions } := by
  simp only [next, hroute]

theorem next_payment {answers : SessionAnswers} {paying : Paying}
    (hroute : startPayment options server.paying server.payments request answers = .ok paying) :
    server.next p options (.payment request answers) =
      { server with paying := paying, payments := server.payments + 1 } := by
  simp only [next, hroute]

@[simp]
theorem sessions_next_payment (answers : SessionAnswers) :
    (server.next p options (.payment request answers)).sessions = server.sessions := by
  cases hroute : startPayment options server.paying server.payments request answers with
  | ok paying => rw [next_payment hroute]
  | error error => simp only [next, hroute]

end Next

section Run

variable (p : Platform) (options : VeraKeyServerOptions) (events : ℕ → KitEvent)

/-- The server after the first `n` events. -/
def after (n : ℕ) : VeraKeyServer := History.run (VeraKeyServer.next p options) fresh events n

@[simp]
theorem after_zero : after p options events 0 = fresh := rfl

theorem after_succ (n : ℕ) :
    after p options events (n + 1) = (after p options events n).next p options (events n) := rfl

end Run

end VeraKeyServer

end Sdk

end VeraKey
