/-
Nonces, sign-ins, sign-outs and the reading of sessions on a site's server, as requests
that wait for their bodies, the store, the chain and the site in between, in any order.
-/
import VeraKey.JobTable
import VeraKey.Kit
import VeraKey.VeraKeyStore

namespace VeraKey

open ByteCodec Guard TextCodec

namespace Sdk

def nonceTtlSeconds : ℤ := 300

def nonceClaimSeconds : ℤ := 360

/-- What the request waits for. -/
inductive KitStage
  -- `POST sign-in`
  | reading
  | matching (cookie : IssuedNonce)
  | claiming (cookie : IssuedNonce)
  | verifying (cookie : IssuedNonce)
  | admitting (cookie : IssuedNonce) (player : VeraKeyPlayer)
  | signedIn (cookie : IssuedNonce) (session : Session)
  | refused (error : HttpError)
  -- `POST sign-out`
  | leaving
  | revoking (session : Session)
  | recording (session : Session) (ttlSeconds : ℤ)
  | signedOut (session : Option Session)
  -- `readSession`
  | decoding
  | asking (session : Session)
  | checking (session : Session)
  | read (session : Option Session)
deriving DecidableEq

/-- What comes in. -/
inductive KitAnswer
  | body
  /-- Whether the cookie's MAC is valid. -/
  | mac
  /-- What the request does next on its own. -/
  | turn
  | claimed
  | verdict (chain : ChainClient)
  /-- The message with which `onSignIn` refused, and the random session id if it did not. -/
  | admitted (refusal : Option Bytes) (drawn : FixedBytes 16)
  | has
  | stillOwner (owner : Bool)

structure KitJob where
  request : KitRequest
  stage : KitStage

/-- One process with its store.  A MAC is valid for what the server has signed and for
nothing else. -/
structure SessionServer (store : VeraKeyStore) where
  now : ℤ
  state : store.State
  issued : List IssuedNonce
  sessions : List Session
  jobs : JobTable KitJob

namespace SessionServer

variable {store : VeraKeyStore}

def nowSeconds (server : SessionServer store) : ℤ := server.now / 1000

end SessionServer

/-- The nonce in the statement of a sign-in. -/
def statementNonce (result : Json) : Option Bytes :=
  checkedText? isBytes32 ((result.get? "statement").bind (Json.get? "nonce"))

namespace KitJob

variable (p : Platform) (options : VeraKeyServerOptions)
variable {store : VeraKeyStore} (server : SessionServer store) (job : KitJob)

/-- The sign-in and its statement's nonce, then the cookie, as long as it has not expired. -/
def readSignIn : Except HttpError (Bytes × IssuedNonce) := do
  let result ← readBody p job.request
  let nonce ← orElse (statementNonce result) ⟨400, ascii "This is not a VeraKey sign-in.", none⟩
  let cookie ← orElse
    (job.request.nonceCookie.filter fun cookie =>
      (readNonce server.nowSeconds (some cookie)).isSome)
    ⟨403, ascii "This browser has no current sign-in request: sign in again.", none⟩
  return (nonce, cookie)

def afterBody : KitStage :=
  match job.readSignIn p server with
  | .error error => .refused error
  | .ok (_, cookie) => .matching cookie

/-- The rest of `readNonce`, and the comparison with the statement. -/
def afterMac (cookie : IssuedNonce) : KitStage :=
  if cookie ∉ server.issued then
    .refused ⟨403, ascii "This browser has no current sign-in request: sign in again.", none⟩
  else
    match (readBody p job.request).map statementNonce with
    | .ok (some nonce) =>
        if toLowerCase cookie.nonce ≠ toLowerCase nonce then
          .refused ⟨403,
            ascii "This sign-in answers an older request from this browser: sign in again.", none⟩
        else .claiming cookie
    | _ => .refused routeFailed

def afterClaim (cookie : IssuedNonce) : KitStage × store.State :=
  let (first, state) := store.claim server.state server.now (Claim.nonce cookie.nonce).key
    (some nonceClaimSeconds)
  (if first then .verifying cookie
    else .refused ⟨409, ascii "This sign-in was already used.", none⟩, state)

def afterVerdict (cookie : IssuedNonce) (chain : ChainClient) : KitStage :=
  match readBody p job.request with
  | .error error => .refused error
  | .ok result =>
      let verdict := verifySignIn p chain (signInOptions options cookie.nonce server.nowSeconds)
        result
      match verdict.player with
      | none => .refused ⟨401, ascii "The sign-in did not verify.", some verdict.checks⟩
      | some player => .admitting cookie player

/-- `sessionCookie`. -/
def newSession (player : VeraKeyPlayer) (drawn : FixedBytes 16) : Session where
  player := player
  sid := hexText drawn.bytes
  exp := server.nowSeconds + options.sessionTtlSeconds.getD defaultSessionTtlSeconds

def afterAdmission (cookie : IssuedNonce) (player : VeraKeyPlayer) (drawn : FixedBytes 16) :
    Option Bytes → KitStage × List Session
  | some message => (.refused ⟨400, message, none⟩, server.sessions)
  | none =>
      let session := newSession options server player drawn
      -- 128 random bits are not drawn twice
      if session.sid ∈ server.sessions.map (·.sid) then (.admitting cookie player, server.sessions)
      else (.signedIn cookie session, session :: server.sessions)

/-- `decodeSession`. -/
def session? : Option Session :=
  decodeSession server.nowSeconds (job.request.sessionCookie.filter (· ∈ server.sessions))

/-- Where the answer it waits for takes a request, the store and the signed sessions. -/
def step (answer : KitAnswer) : KitStage × store.State × List Session :=
  let quiet := fun stage : KitStage => (stage, server.state, server.sessions)
  match job.stage, answer with
  | .reading, .body => quiet (job.afterBody p server)
  | .matching cookie, .mac => quiet (job.afterMac p server cookie)
  | .claiming cookie, .claimed =>
      let (stage, state) := afterClaim server cookie
      (stage, state, server.sessions)
  | .verifying cookie, .verdict chain => quiet (job.afterVerdict p options server cookie chain)
  | .admitting cookie player, .admitted refusal drawn =>
      let (stage, sessions) := afterAdmission options server cookie player drawn refusal
      (stage, server.state, sessions)
  | .leaving, .mac =>
      quiet (match job.session? server with
        | none => .signedOut none
        | some session => .revoking session)
  | .revoking session, .turn =>
      quiet (.recording session (max 1 (session.exp - server.nowSeconds)))
  | .recording session ttlSeconds, .claimed =>
      (.signedOut (some session),
        (store.claim server.state server.now (Claim.signOut session.sid).key
          (some ttlSeconds)).2, server.sessions)
  | .decoding, .mac =>
      quiet (match job.session? server with
        | none => .read none
        | some session => .asking session)
  | .asking session, .has =>
      quiet (if store.has server.state server.now (Claim.signOut session.sid).key then .read none
        else .checking session)
  | .checking session, .stillOwner owner => quiet (.read (if owner then some session else none))
  | stage, _ => quiet stage

end KitJob

/-! ## The process -/

/-- What a request starts with. -/
inductive KitRoute
  | signIn
  | signOut
  /-- Any route or page that reads the session. -/
  | session
deriving DecidableEq

/-- `requireOrigin`, where a route asks for it. -/
def KitRoute.start (options : VeraKeyServerOptions) (request : KitRequest) : KitRoute → KitStage
  | .signIn =>
      match requireOrigin options request with
      | .error error => .refused error
      | .ok _ => .reading
  | .signOut =>
      match requireOrigin options request with
      | .error error => .refused error
      | .ok _ => .leaving
  | .session => .decoding

/-- What can happen next: a nonce is drawn and issued, a request arrives or gets what it waits for, a
payment uses the store, or time passes. -/
inductive SessionEvent
  | issue (drawn : B256)
  | arrives (route : KitRoute) (request : KitRequest)
  | step (number : ℕ) (answer : KitAnswer)
  | claimPayment (found : Bytes)
  | releasePayment (found : Bytes)
  | wait (ms : ℕ)

namespace SessionServer

variable {store : VeraKeyStore}

def fresh (store : VeraKeyStore) : SessionServer store where
  now := 0
  state := store.empty
  issued := []
  sessions := []
  jobs := JobTable.empty

/-- `POST nonce`. -/
def issue (server : SessionServer store) (drawn : B256) : IssuedNonce where
  nonce := bytesToHex drawn.bytes
  expiresAt := server.nowSeconds + nonceTtlSeconds

def next (p : Platform) (options : VeraKeyServerOptions) (server : SessionServer store) :
    SessionEvent → SessionServer store
  | .issue drawn =>
      -- 256 random bits are not drawn twice
      if bytesToHex drawn.bytes ∈ server.issued.map (·.nonce) then server
      else { server with issued := server.issue drawn :: server.issued }
  | .arrives route request =>
      { server with jobs := server.jobs.start ⟨request, route.start options request⟩ }
  | .step number answer =>
      match server.jobs.job? number with
      | none => server
      | some job =>
          let (stage, state, sessions) := job.step p options server answer
          { server with
            state := state
            sessions := sessions
            jobs := server.jobs.set number { job with stage := stage } }
  | .claimPayment found =>
      { server with
        state := (store.claim server.state server.now (Claim.payment found).key none).2 }
  | .releasePayment found =>
      { server with state := store.release server.state (Claim.payment found).key }
  | .wait ms => { server with now := server.now + ms }

/-- The server after the first `n` events. -/
def after (p : Platform) (options : VeraKeyServerOptions) (store : VeraKeyStore)
    (events : ℕ → SessionEvent) (n : ℕ) : SessionServer store :=
  History.run (next p options) (fresh store) events n

end SessionServer

end Sdk

end VeraKey
