/-
What one event can do to the nonces, the sessions and the requests of a server: the moves
of a request, and what no event takes back.
-/
import VeraKey.Sessions

namespace VeraKey

open ByteCodec Guard TextCodec

namespace Sdk

variable {p : Platform} {options : VeraKeyServerOptions}
variable {store : VeraKeyStore}

/-! ## One step of a request -/

/-- The sign-in's statement names the nonce of the cookie. -/
def KitRequest.Names (p : Platform) (request : KitRequest) (cookie : IssuedNonce) : Prop :=
  ∃ result nonce, readBody p request = .ok result ∧ statementNonce result = some nonce ∧
    toLowerCase nonce = toLowerCase cookie.nonce

/-- The request is over, refused or without a session. -/
def KitStage.Ended : KitStage → Prop
  | .refused _ => True
  | .signedOut none => True
  | .read none => True
  | _ => False

/-- What a step of a request can do. -/
inductive KitMove (p : Platform) (options : VeraKeyServerOptions)
    (server : SessionServer store) (request : KitRequest) :
    KitStage → KitAnswer → KitStage → store.State → List Session → Prop
  | idle {stage answer} :
      KitMove p options server request stage answer stage server.state server.sessions
  | ended {stage answer stage'} (hended : stage'.Ended)
      (hclaiming : ∀ cookie, stage ≠ .claiming cookie)
      (hsignedOut : ∀ session, stage ≠ .signedOut session) :
      KitMove p options server request stage answer stage' server.state server.sessions
  | current {cookie} (hcookie : request.nonceCookie = some cookie)
      (hcurrent : server.nowSeconds < cookie.expiresAt) :
      KitMove p options server request .reading .body (.matching cookie) server.state
        server.sessions
  | matched {cookie} (hissued : cookie ∈ server.issued) (hnames : request.Names p cookie) :
      KitMove p options server request (.matching cookie) .mac (.claiming cookie)
        server.state server.sessions
  | used {cookie error} (hhas : store.has server.state server.now
        (Claim.nonce cookie.nonce).key = true) :
      KitMove p options server request (.claiming cookie) .claimed (.refused error)
        server.state server.sessions
  | claimed {cookie} (hfree : store.has server.state server.now
        (Claim.nonce cookie.nonce).key = false) :
      KitMove p options server request (.claiming cookie) .claimed (.verifying cookie)
        (store.claim server.state server.now (Claim.nonce cookie.nonce).key
          (some nonceClaimSeconds)).2 server.sessions
  | verified {cookie chain result player} (hresult : readBody p request = .ok result)
      (hplayer : (verifySignIn p chain (signInOptions options cookie.nonce server.nowSeconds)
        result).player = some player) :
      KitMove p options server request (.verifying cookie) (.verdict chain)
        (.admitting cookie player) server.state server.sessions
  | admitted {cookie player drawn}
      (hdrawn : (KitJob.newSession options server player drawn).sid ∉
        server.sessions.map (·.sid)) :
      KitMove p options server request (.admitting cookie player) (.admitted none drawn)
        (.signedIn cookie (KitJob.newSession options server player drawn)) server.state
        (KitJob.newSession options server player drawn :: server.sessions)
  | leaves {session} (hsession : KitJob.session? server ⟨request, .leaving⟩ = some session) :
      KitMove p options server request .leaving .mac (.revoking session) server.state
        server.sessions
  | revokes {session} :
      KitMove p options server request (.revoking session) .turn
        (.recording session (max 1 (session.exp - server.nowSeconds))) server.state
        server.sessions
  | records {session ttlSeconds} :
      KitMove p options server request (.recording session ttlSeconds) .claimed
        (.signedOut (some session)) (store.claim server.state server.now
          (Claim.signOut session.sid).key (some ttlSeconds)).2 server.sessions
  | decodes {session} (hsession : KitJob.session? server ⟨request, .decoding⟩ = some session) :
      KitMove p options server request .decoding .mac (.asking session) server.state
        server.sessions
  | asks {session} (hfree : store.has server.state server.now
        (Claim.signOut session.sid).key = false) :
      KitMove p options server request (.asking session) .has (.checking session)
        server.state server.sessions
  | owns {session} :
      KitMove p options server request (.checking session) (.stillOwner true)
        (.read (some session)) server.state server.sessions

namespace KitJob

variable {server : SessionServer store} {job : KitJob} {answer : KitAnswer}

theorem readSignIn_eq_ok {nonce : Bytes} {cookie : IssuedNonce}
    (hread : job.readSignIn p server = .ok (nonce, cookie)) :
    job.request.nonceCookie = some cookie ∧ server.nowSeconds < cookie.expiresAt := by
  simp only [readSignIn, bind_eq_ok, orElse_eq_ok, pure_eq_ok, Prod.mk.injEq] at hread
  obtain ⟨result, -, named, -, found, hfound, -, rfl⟩ := hread
  obtain ⟨hcookie, hcurrent⟩ := Option.filter_eq_some_iff.mp hfound
  refine ⟨hcookie, ?_⟩
  obtain ⟨text, htext⟩ := Option.isSome_iff_exists.mp hcurrent
  simp only [readNonce, Option.bind_eq_bind, Option.bind_some, Option.bind_eq_some_iff] at htext
  obtain ⟨passed, hguard, -⟩ := htext
  exact ((Option.guard_eq_some' passed).mp hguard).2

theorem move_body : KitMove p options server job.request .reading .body
    (job.afterBody p server) server.state server.sessions := by
  rw [afterBody]
  split
  · exact .ended trivial nofun nofun
  · next nonce cookie hread =>
      obtain ⟨hcookie, hcurrent⟩ := readSignIn_eq_ok hread
      exact .current hcookie hcurrent

theorem move_mac (cookie : IssuedNonce) :
    KitMove p options server job.request (.matching cookie) .mac
      (job.afterMac p server cookie) server.state server.sessions := by
  rw [afterMac]
  split
  · exact .ended trivial nofun nofun
  · next hissued =>
      split
      · next nonce hnonce =>
          split
          · exact .ended trivial nofun nofun
          · next hsame =>
              obtain ⟨result, hresult, hnamed⟩ := map_eq_ok.mp hnonce
              exact .matched (not_not.mp hissued)
                ⟨result, nonce, hresult, hnamed, (not_not.mp hsame).symm⟩
      · exact .ended trivial nofun nofun

theorem move_claim (cookie : IssuedNonce) :
    KitMove p options server job.request (.claiming cookie) .claimed
      (afterClaim server cookie).1 (afterClaim server cookie).2 server.sessions := by
  have hfirst := store.claim_fst server.state server.now (Claim.nonce cookie.nonce).key
    (some nonceClaimSeconds)
  simp only [afterClaim, hfirst]
  cases hhas : store.has server.state server.now (Claim.nonce cookie.nonce).key with
  | false => exact .claimed hhas
  | true =>
      rw [store.claim_of_has server.state server.now _ _ hhas]
      exact .used hhas

theorem move_verdict (cookie : IssuedNonce) (chain : ChainClient) :
    KitMove p options server job.request (.verifying cookie) (.verdict chain)
      (job.afterVerdict p options server cookie chain) server.state server.sessions := by
  rw [afterVerdict]
  split
  · exact .ended trivial nofun nofun
  · next result hresult =>
      simp only
      split
      · exact .ended trivial nofun nofun
      · next player hplayer => exact .verified hresult hplayer

theorem move_admission (cookie : IssuedNonce) (player : VeraKeyPlayer) (refusal : Option Bytes)
    (drawn : FixedBytes 16) :
    KitMove p options server job.request (.admitting cookie player) (.admitted refusal drawn)
      (afterAdmission options server cookie player drawn refusal).1 server.state
      (afterAdmission options server cookie player drawn refusal).2 := by
  cases refusal with
  | none =>
      rw [afterAdmission]
      split
      · exact .idle
      · next hdrawn => exact .admitted hdrawn
  | some message => exact .ended trivial nofun nofun

/-- Everything a step of a request can do. -/
theorem move_step : KitMove p options server job.request job.stage answer
    (job.step p options server answer).1 (job.step p options server answer).2.1
    (job.step p options server answer).2.2 := by
  obtain ⟨request, stage⟩ := job
  cases stage with
  | reading =>
      cases answer with
      | body => exact move_body
      | _ => exact .idle
  | matching cookie =>
      cases answer with
      | mac => exact move_mac cookie
      | _ => exact .idle
  | claiming cookie =>
      cases answer with
      | claimed => exact move_claim cookie
      | _ => exact .idle
  | verifying cookie =>
      cases answer with
      | verdict chain => exact move_verdict cookie chain
      | _ => exact .idle
  | admitting cookie player =>
      cases answer with
      | admitted refusal drawn => exact move_admission cookie player refusal drawn
      | _ => exact .idle
  | leaving =>
      cases answer with
      | mac =>
          cases hsession : session? server ⟨request, .leaving⟩ with
          | none =>
              simp only [step, hsession]
              exact .ended trivial nofun nofun
          | some session =>
              simp only [step, hsession]
              exact .leaves hsession
      | _ => exact .idle
  | revoking session =>
      cases answer with
      | turn => exact .revokes
      | _ => exact .idle
  | recording session ttlSeconds =>
      cases answer with
      | claimed => exact .records
      | _ => exact .idle
  | decoding =>
      cases answer with
      | mac =>
          cases hsession : session? server ⟨request, .decoding⟩ with
          | none =>
              simp only [step, hsession]
              exact .ended trivial nofun nofun
          | some session =>
              simp only [step, hsession]
              exact .decodes hsession
      | _ => exact .idle
  | asking session =>
      cases answer with
      | has =>
          cases hhas : store.has server.state server.now (Claim.signOut session.sid).key with
          | true =>
              simp only [step, hhas]
              exact .ended trivial nofun nofun
          | false =>
              simp only [step, hhas]
              exact .asks hhas
      | _ => exact .idle
  | checking session =>
      cases answer with
      | stillOwner owner =>
          cases owner with
          | true => exact .owns
          | false => exact .ended trivial nofun nofun
      | _ => exact .idle
  | _ => exact .idle

end KitJob

/-- The milliseconds that pass with an event. -/
def SessionEvent.elapsed : SessionEvent → ℤ
  | .wait ms => ms
  | _ => 0

namespace SessionServer

variable {server : SessionServer store} {event : SessionEvent} {number : ℕ}

def stage (server : SessionServer store) (number : ℕ) : Option KitStage :=
  (server.jobs.job? number).map (·.stage)

theorem stage_eq_some {stage : KitStage} : server.stage number = some stage ↔
    ∃ request, server.jobs.job? number = some ⟨request, stage⟩ := by
  rw [SessionServer.stage, Option.map_eq_some_iff]
  constructor
  · rintro ⟨⟨request, stage⟩, hjob, rfl⟩
    exact ⟨request, hjob⟩
  · rintro ⟨request, hjob⟩
    exact ⟨_, hjob, rfl⟩

variable (p options) in
/-- A step of a request that is there. -/
theorem next_step {job : KitJob} (answer : KitAnswer)
    (hjob : server.jobs.job? number = some job) :
    ∃ stage' s' sessions', KitMove p options server job.request job.stage answer stage' s'
        sessions' ∧
      server.next p options (.step number answer) =
        ⟨server.now, s', server.issued, sessions',
          server.jobs.set number { job with stage := stage' }⟩ := by
  have hmove : KitMove p options server job.request job.stage answer
      (job.step p options server answer).1 (job.step p options server answer).2.1
      (job.step p options server answer).2.2 := KitJob.move_step
  refine ⟨_, _, _, hmove, ?_⟩
  rw [next]
  simp only [hjob]

/-- A step of a request that is not there. -/
theorem next_step_none {answer : KitAnswer} (hnone : server.jobs.job? number = none) :
    server.next p options (.step number answer) = server := by
  rw [next]
  simp only [hnone]

variable (p options server) in
/-- Only the list of what was issued grows with a nonce. -/
theorem next_issue (drawn : B256) : ∃ issued, server.next p options (.issue drawn) =
    { server with issued := issued } := by
  rw [next]
  split
  · exact ⟨server.issued, rfl⟩
  · exact ⟨_, rfl⟩

variable (p options server) in
/-- The event is a step of this request, to this stage. -/
def Steps (event : SessionEvent) (number : ℕ) (request : KitRequest) (stage' : KitStage) : Prop :=
  ∃ answer stage s' sessions', event = .step number answer ∧
    server.jobs.job? number = some ⟨request, stage⟩ ∧
    (server.next p options event).now = server.now ∧
    (server.next p options event).state = s' ∧
    (server.next p options event).sessions = sessions' ∧
    KitMove p options server request stage answer stage' s' sessions'

/-- Where a request comes from. -/
theorem job?_next {request : KitRequest} {stage' : KitStage}
    (hjob' : (server.next p options event).jobs.job? number = some ⟨request, stage'⟩) :
    server.jobs.job? number = some ⟨request, stage'⟩ ∨
      (number = server.jobs.started ∧ ∃ route, event = .arrives route request ∧
        stage' = route.start options request) ∨
      server.Steps p options event number request stage' := by
  cases event with
  | issue drawn =>
      obtain ⟨issued, hissue⟩ := next_issue p options server drawn
      rw [hissue] at hjob'
      exact Or.inl hjob'
  | arrives route request' =>
      rcases JobTable.job?_start.mp hjob' with ⟨hnumber, hjob⟩ | hbefore
      · injection hjob with hrequest hstage
        subst hrequest
        exact Or.inr (Or.inl ⟨hnumber, route, rfl, hstage⟩)
      · exact Or.inl hbefore
  | step other answer =>
      cases hjob : server.jobs.job? other with
      | none =>
          rw [next_step_none hjob] at hjob'
          exact Or.inl hjob'
      | some job =>
          obtain ⟨stage, s', sessions', hmove, hnext⟩ := next_step p options answer hjob
          rw [hnext] at hjob'
          by_cases hnumber : number = other
          · subst hnumber
            have hsame := (JobTable.job?_set_self hjob).symm.trans hjob'
            obtain ⟨request', before⟩ := job
            injection Option.some.inj hsame with hrequest hstage
            subst hrequest hstage
            refine Or.inr (Or.inr ⟨answer, before, s', sessions', rfl, hjob, ?_⟩)
            rw [hnext]
            exact ⟨rfl, rfl, rfl, hmove⟩
          · exact Or.inl ((JobTable.job?_set_of_ne hnumber).symm.trans hjob')
  | _ => exact Or.inl hjob'

/-- Time passes only between the events that use it. -/
theorem now_next : (server.next p options event).now = server.now + event.elapsed := by
  cases event with
  | issue drawn =>
      obtain ⟨issued, hissue⟩ := next_issue p options server drawn
      rw [hissue]
      exact (Int.add_zero server.now).symm
  | step number answer =>
      cases hjob : server.jobs.job? number with
      | none =>
          rw [next_step_none hjob]
          exact (Int.add_zero server.now).symm
      | some job =>
          obtain ⟨stage, s', sessions', -, hnext⟩ := next_step p options answer hjob
          rw [hnext]
          exact (Int.add_zero server.now).symm
  | wait ms => rfl
  | _ => exact (Int.add_zero server.now).symm

theorem now_le_next : server.now ≤ (server.next p options event).now := by
  rw [now_next]
  apply Int.le_add_of_nonneg_right
  cases event with
  | wait ms => exact Int.natCast_nonneg ms
  | _ => exact le_rfl

variable (p options server event) in
theorem issued_next : (server.next p options event).issued = server.issued ∨
    ∃ drawn, event = .issue drawn ∧ (server.issue drawn).nonce ∉ server.issued.map (·.nonce) ∧
      server.next p options event =
        { server with issued := server.issue drawn :: server.issued } := by
  cases event with
  | issue drawn =>
      rw [next]
      split
      · exact Or.inl rfl
      · next hdrawn => exact Or.inr ⟨drawn, rfl, hdrawn, rfl⟩
  | step number answer =>
      left
      cases hjob : server.jobs.job? number with
      | none => rw [next_step_none hjob]
      | some job =>
          obtain ⟨stage, s', sessions', -, hnext⟩ := next_step p options answer hjob
          rw [hnext]
  | _ => exact Or.inl rfl

variable (p options server event) in
theorem sessions_next : (server.next p options event).sessions = server.sessions ∨
    ∃ session, session.sid ∉ server.sessions.map (·.sid) ∧
      (server.next p options event).sessions = session :: server.sessions := by
  cases event with
  | issue drawn =>
      obtain ⟨issued, hissue⟩ := next_issue p options server drawn
      rw [hissue]
      exact Or.inl rfl
  | step number answer =>
      cases hjob : server.jobs.job? number with
      | none =>
          rw [next_step_none hjob]
          exact Or.inl rfl
      | some job =>
          obtain ⟨stage, s', sessions', hmove, hnext⟩ := next_step p options answer hjob
          rw [hnext]
          generalize job.stage = before at hmove
          cases hmove with
          | admitted hdrawn => exact Or.inr ⟨_, hdrawn, rfl⟩
          | _ => exact Or.inl rfl
  | _ => exact Or.inl rfl

/-- A sign-out stays recorded. -/
theorem stage_next_signedOut {session : Option Session}
    (hstage : server.stage number = some (.signedOut session)) :
    (server.next p options event).stage number = some (.signedOut session) := by
  obtain ⟨request, hjob⟩ := stage_eq_some.mp hstage
  apply stage_eq_some.mpr
  refine ⟨request, ?_⟩
  cases event with
  | issue drawn =>
      obtain ⟨issued, hissue⟩ := next_issue p options server drawn
      rwa [hissue]
  | arrives route request' => exact JobTable.job?_start.mpr (Or.inr hjob)
  | step other answer =>
      cases hother : server.jobs.job? other with
      | none => rwa [next_step_none hother]
      | some job =>
          obtain ⟨stage, s', sessions', hmove, hnext⟩ := next_step p options answer hother
          rw [hnext]
          by_cases hnumber : number = other
          · subst hnumber
            obtain rfl := Option.some.inj (hjob.symm.trans hother)
            rw [JobTable.job?_set_self hother]
            cases hmove with
            | idle => rfl
            | ended _ _ hsignedOut => exact absurd rfl (hsignedOut session)
          · rwa [JobTable.job?_set_of_ne hnumber]
  | _ => exact hjob

/-- Only a sign-out claims the key of a sign-out. -/
theorem has_next {sid : Bytes}
    (hhas : store.has (server.next p options event).state (server.next p options event).now
      (Claim.signOut sid).key = true) :
    store.has server.state server.now (Claim.signOut sid).key = true ∨
      ∃ number session, session.sid = sid ∧
        (server.next p options event).stage number = some (.signedOut (some session)) := by
  have hclaim : ∀ claim : Claim, ∀ ttlSeconds, (∀ session, claim ≠ .signOut session) →
      store.has (store.claim server.state server.now claim.key ttlSeconds).2 server.now
        (Claim.signOut sid).key = true →
      store.has server.state server.now (Claim.signOut sid).key = true := by
    intro claim ttlSeconds hother hclaimed
    rcases ClaimStore.has_of_has_change (c := .claim claim.key ttlSeconds) hclaimed with
      hbefore | ⟨_, hsame⟩
    · exact hbefore
    · injection hsame with hkey
      have hinj := Claim.key_inj hkey
      cases claim with
      | signOut session => exact absurd rfl (hother session)
      | _ => exact hinj.elim
  cases event with
  | issue drawn =>
      obtain ⟨issued, hissue⟩ := next_issue p options server drawn
      rw [hissue] at hhas
      exact Or.inl hhas
  | step number answer =>
      cases hjob : server.jobs.job? number with
      | none =>
          rw [next_step_none hjob] at hhas
          exact Or.inl hhas
      | some job =>
          obtain ⟨stage', s', sessions', hmove, hnext⟩ := next_step p options answer hjob
          rw [hnext] at hhas ⊢
          obtain ⟨request, stage⟩ := job
          cases hmove with
          | @claimed cookie => exact Or.inl (hclaim (.nonce cookie.nonce) _ nofun hhas)
          | @records session ttlSeconds =>
              rcases ClaimStore.has_of_has_change
                  (c := .claim (Claim.signOut session.sid).key (some ttlSeconds)) hhas with
                hbefore | ⟨_, hsame⟩
              · exact Or.inl hbefore
              · injection hsame with hkey
                refine Or.inr ⟨number, session, Claim.key_inj hkey, ?_⟩
                exact stage_eq_some.mpr ⟨request, JobTable.job?_set_self hjob⟩
          | _ => exact Or.inl hhas
  | claimPayment found => exact Or.inl (hclaim (.payment found) none nofun hhas)
  | releasePayment found =>
      rcases ClaimStore.has_of_has_change (c := .release (Claim.payment found).key) hhas with
        hbefore | ⟨_, hsame⟩
      · exact Or.inl hbefore
      · contradiction
  | wait ms =>
      left
      have hle : server.now ≤ server.now + ms :=
        Int.le_add_of_nonneg_right (Int.natCast_nonneg ms)
      exact store.has_of_le _ _ _ _ hle hhas
  | _ => exact Or.inl hhas

/-- No event ends the claim of a nonce or of a sign-out early. -/
theorem heldUntil_next {key : Bytes} {ending : WithTop ℤ}
    (hkey : ∀ found, key ≠ (Claim.payment found).key)
    (hheld : store.HeldUntil server.state server.now ending key) :
    store.HeldUntil (server.next p options event).state
      (server.next p options event).now ending key := by
  have hclaim : ∀ other ttlSeconds, store.HeldUntil
      (store.claim server.state server.now other ttlSeconds).2 server.now ending key := by
    intro other ttlSeconds
    exact hheld.change (c := .claim other ttlSeconds) nofun
  cases event with
  | issue drawn =>
      obtain ⟨issued, hissue⟩ := next_issue p options server drawn
      rwa [hissue]
  | step number answer =>
      cases hjob : server.jobs.job? number with
      | none => rwa [next_step_none hjob]
      | some job =>
          obtain ⟨stage', s', sessions', hmove, hnext⟩ := next_step p options answer hjob
          rw [hnext]
          generalize job.stage = stage at hmove
          cases hmove with
          | claimed => exact hclaim _ _
          | records => exact hclaim _ _
          | _ => exact hheld
  | claimPayment found => exact hclaim _ _
  | releasePayment found =>
      apply hheld.change (c := .release (Claim.payment found).key)
      intro hsame
      injection hsame with hsame
      exact hkey found hsame.symm
  | wait ms => exact hheld.wait (Int.le_add_of_nonneg_right (Int.natCast_nonneg ms))
  | _ => exact hheld

/-! ## Runs -/

variable (p options store) (events : ℕ → SessionEvent)

theorem after_succ (n : ℕ) : after p options store events (n + 1) =
    (after p options store events n).next p options (events n) := rfl

variable {p options store events} {m n : ℕ}

theorem now_mono (hle : m ≤ n) : (after p options store events m).now ≤
    (after p options store events n).now := by
  induction n, hle using Nat.le_induction with
  | base => exact le_rfl
  | succ n _ ih => exact ih.trans now_le_next

theorem issued_mono (hle : m ≤ n) {cookie : IssuedNonce}
    (hissued : cookie ∈ (after p options store events m).issued) :
    cookie ∈ (after p options store events n).issued := by
  induction n, hle using Nat.le_induction with
  | base => exact hissued
  | succ n _ ih =>
      rw [after_succ]
      rcases issued_next p options (after p options store events n) (events n) with
        hsame | ⟨drawn, -, -, hnew⟩
      · rw [hsame]
        exact ih
      · rw [hnew]
        exact List.mem_cons_of_mem _ ih

theorem heldUntil_mono {key : Bytes} {ending : WithTop ℤ} (hle : m ≤ n)
    (hkey : ∀ found, key ≠ (Claim.payment found).key)
    (hheld : store.HeldUntil (after p options store events m).state
      (after p options store events m).now ending key) :
    store.HeldUntil (after p options store events n).state
      (after p options store events n).now ending key := by
  induction n, hle using Nat.le_induction with
  | base => exact hheld
  | succ n _ ih => exact heldUntil_next hkey ih

/-- A request came to its stage by a step, unless it started there. -/
theorem exists_step {request : KitRequest} {stage' : KitStage}
    (hjob : (after p options store events n).jobs.job? number = some ⟨request, stage'⟩) :
    ∃ m < n, (∃ route, events m = .arrives route request ∧ stage' = route.start options request) ∨
      (after p options store events m).Steps p options (events m) number request
          stage' ∧
        (after p options store events m).jobs.job? number ≠ some ⟨request, stage'⟩ := by
  obtain ⟨m, -, hm, hbefore, hafter⟩ := History.exists_last_rise
    (p := fun k => (after p options store events k).jobs.job? number =
      some ⟨request, stage'⟩) n.zero_le nofun hjob
  refine ⟨m, hm, ?_⟩
  rcases job?_next (hafter (m + 1) m.lt_succ_self hm) with
    hsame | ⟨-, route, hevent, hstart⟩ | hsteps
  · exact absurd hsame hbefore
  · exact Or.inl ⟨route, hevent, hstart⟩
  · exact Or.inr ⟨hsteps, hbefore⟩

end SessionServer

end Sdk

end VeraKey
