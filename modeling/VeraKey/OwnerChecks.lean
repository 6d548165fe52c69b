/-
The checks whether a session's passkey still owns its account: what the server remembers of
them, the checks under way, and the requests that wait for one.
-/
import VeraKey.History
import VeraKey.JobTable
import VeraKey.Kit
import VeraKey.RecentMap

namespace VeraKey

open ByteCodec TextCodec

namespace Sdk

def defaultOwnerCheckSeconds : WithTop ℚ := 600

/-- How long one check may take before the session is kept without its answer. -/
def ownerCheckTimeoutMs : ℤ := 2000

/-- After a check that the chain did not answer, when to ask again at the latest. -/
def ownerRetrySeconds : WithTop ℚ := 60

def maxOwnerEntries : ℕ := 10000

/-- Whether the passkey owned the account, and when to ask the chain again. -/
structure OwnerEntry where
  owner : Bool
  next : WithTop ℚ
deriving DecidableEq

/-- How a check ended. -/
inductive CheckAnswer
  | owner (owner : Bool)
  /-- The chain failed, or took too long. -/
  | failed
deriving DecidableEq

namespace CheckAnswer

/-- What `checkOwner` returns. -/
def keeps : CheckAnswer → Bool
  | .owner answered => answered
  | .failed => true

/-- How long it is remembered. -/
def lasts (ownerCheck : WithTop ℚ) : CheckAnswer → WithTop ℚ
  | .owner _ => ownerCheck
  | .failed => min ownerRetrySeconds ownerCheck

end CheckAnswer

/-- What the check waits for. -/
inductive CheckStage
  | code
  | contract
  | ended (answer : CheckAnswer)
  /-- The check is over and no longer among `ownerChecks`. -/
  | settled (answer : CheckAnswer)
deriving DecidableEq

namespace CheckStage

def answer? : CheckStage → Option CheckAnswer
  | .ended answer => some answer
  | .settled answer => some answer
  | _ => none

end CheckStage

structure OwnerCheck where
  session : Session
  /-- When it started, in milliseconds. -/
  began : ℤ
  stage : CheckStage
deriving DecidableEq

/-- `now` in `checkOwner`. -/
def OwnerCheck.beganSeconds (check : OwnerCheck) : ℤ := check.began / 1000

/-- What a check hears, early or late. -/
inductive ChainAnswer
  /-- The account's code, which may be undefined. -/
  | code (code : Option Bytes)
  | isOwner (owner : Bool)
  | failure
  | timeout

/-- The race of the chain with the timeout: what comes after its end changes nothing. -/
def CheckStage.hear (elapsed : ℤ) : CheckStage → ChainAnswer → CheckStage
  | .code, .code found =>
      if found.any fun text => text ≠ [] ∧ text ≠ ascii "0x" then .contract
      -- an account that is not deployed has had no owner changes
      else .ended (.owner true)
  | .contract, .isOwner owner => .ended (.owner owner)
  | .code, .failure => .ended .failed
  | .contract, .failure => .ended .failed
  | .code, .timeout => if ownerCheckTimeoutMs ≤ elapsed then .ended .failed else .code
  | .contract, .timeout => if ownerCheckTimeoutMs ≤ elapsed then .ended .failed else .contract
  | stage, _ => stage

/-- What a request for a session goes by. -/
inductive OwnerStanding
  | seen (owner : Bool)
  | waits (check : ℕ)
deriving DecidableEq

structure OwnerRequest where
  session : Session
  standing : OwnerStanding
deriving DecidableEq

/-- Sessions that were signed with the secret, each with an id of its own. -/
structure SignedSessions where
  signed : List Session
  nodup_sids : (signed.map (·.sid)).Nodup

namespace SignedSessions

def sign (sessions : SignedSessions) (session : Session)
    (hsid : session.sid ∉ sessions.signed.map (·.sid)) : SignedSessions where
  signed := session :: sessions.signed
  nodup_sids := List.nodup_cons.mpr ⟨hsid, sessions.nodup_sids⟩

theorem eq_of_sid_eq (sessions : SignedSessions) {session other : Session}
    (hsession : session ∈ sessions.signed) (hother : other ∈ sessions.signed)
    (hsid : session.sid = other.sid) : session = other :=
  List.inj_on_of_nodup_map sessions.nodup_sids hsession hother hsid

end SignedSessions

/-- One process. -/
structure OwnerServer where
  now : ℤ
  sessions : SignedSessions
  ownerSeen : RecentMap Bytes OwnerEntry
  /-- The checks under way, by session id. -/
  ownerChecks : AList fun _ : Bytes => ℕ
  checks : JobTable OwnerCheck
  requests : JobTable OwnerRequest

/-- What can happen next: a sign-in starts a session, a request asks whether its session's
passkey still owns the account, the chain or the timeout comes to a check, a check that has
ended leaves `ownerChecks`, or time passes. -/
inductive OwnerEvent
  | creates (session : Session)
  | asks (session : Session)
  | chain (check : ℕ) (answer : ChainAnswer)
  | settles (check : ℕ)
  | wait (ms : ℕ)

namespace OwnerServer

/-- A new process, with sessions that an earlier one signed. -/
def fresh (earlier : SignedSessions) : OwnerServer where
  now := 0
  sessions := earlier
  ownerSeen := ∅
  ownerChecks := ∅
  checks := JobTable.empty
  requests := JobTable.empty

def nowSeconds (server : OwnerServer) : ℤ := server.now / 1000

def rememberOwner (seen : RecentMap Bytes OwnerEntry) (sid : Bytes) (entry : OwnerEntry) :
    RecentMap Bytes OwnerEntry :=
  seen.remember maxOwnerEntries sid entry

variable (ownerCheck : WithTop ℚ) (server : OwnerServer)

/-- `sessionCookie`. -/
def create (session : Session) : OwnerServer :=
  -- 128 random bits are not drawn twice
  if hsid : session.sid ∈ server.sessions.signed.map (·.sid) then server
  else { server with
    sessions := server.sessions.sign session hsid
    ownerSeen :=
      if ownerCheck = ⊤ then server.ownerSeen
      else rememberOwner server.ownerSeen session.sid
        ⟨true, ((server.nowSeconds : ℚ) : WithTop ℚ) + ownerCheck⟩ }

/-- What is remembered of the session, unless it is time to ask again. -/
def seen? (session : Session) : Option OwnerEntry :=
  (server.ownerSeen.lookup session.sid).filter fun seen =>
    !seen.owner || ((server.nowSeconds : ℚ) : WithTop ℚ) < seen.next

def request (session : Session) (standing : OwnerStanding) : JobTable OwnerRequest :=
  server.requests.start ⟨session, standing⟩

def stillOwner (session : Session) : OwnerServer :=
  if ownerCheck = ⊤ then { server with requests := server.request session (.seen true) }
  else
    match server.seen? session with
    | some seen => { server with requests := server.request session (.seen seen.owner) }
    | none =>
        match server.ownerChecks.lookup session.sid with
        | some number => { server with requests := server.request session (.waits number) }
        | none =>
            { server with
              ownerChecks := server.ownerChecks.insert session.sid server.checks.started
              checks := server.checks.start ⟨session, server.now, .code⟩
              requests := server.request session (.waits server.checks.started) }

/-- The rest of `checkOwner`. -/
def hear (number : ℕ) (check : OwnerCheck) (answer : ChainAnswer) : OwnerServer :=
  let stage := check.stage.hear (server.now - check.began) answer
  { server with
    checks := server.checks.set number { check with stage := stage }
    ownerSeen :=
      match stage with
      | .ended answer => rememberOwner server.ownerSeen check.session.sid
          ⟨answer.keeps, ((check.beganSeconds : ℚ) : WithTop ℚ) + answer.lasts ownerCheck⟩
      | _ => server.ownerSeen }

def next : OwnerEvent → OwnerServer
  | .creates session => server.create ownerCheck session
  | .asks session =>
      if session ∈ server.sessions.signed then server.stillOwner ownerCheck session else server
  | .chain number answer =>
      match server.checks.job? number with
      | some check =>
          if check.stage.answer? = none then server.hear ownerCheck number check answer
          else server
      | none => server
  | .settles number =>
      match server.checks.job? number with
      | some ⟨session, began, .ended answer⟩ =>
          { server with
            checks := server.checks.set number ⟨session, began, .settled answer⟩
            ownerChecks := server.ownerChecks.erase session.sid }
      | _ => server
  | .wait ms => { server with now := server.now + ms }

/-- The answer of a check, when it has one. -/
def answer? (number : ℕ) : Option CheckAnswer :=
  (server.checks.job? number).bind fun check => check.stage.answer?

/-- What `stillOwner` answers a request: the answer of a check reaches all who wait for it. -/
def owner? (number : ℕ) : Option Bool :=
  (server.requests.job? number).bind fun request =>
    match request.standing with
    | .seen owner => some owner
    | .waits check => (server.answer? check).map CheckAnswer.keeps

/-- The server after the first `n` events. -/
def after (earlier : SignedSessions) (events : ℕ → OwnerEvent) (n : ℕ) : OwnerServer :=
  History.run (next ownerCheck) (fresh earlier) events n

end OwnerServer

end Sdk

end VeraKey
