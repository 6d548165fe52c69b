/-
A sign-out revokes every copy of its cookie.  The store keeps its claim for the rest of the
cookie's life, whatever else it serves, so a request that starts later is refused while the
cookie lasts; a session that was not signed out itself is not.
-/
import VeraKey.NonceOnce

namespace VeraKey

open ByteCodec Guard TextCodec

namespace Sdk

/-- The session of the cookie that a request came with, once it is decoded. -/
def KitStage.presented : KitStage → Option Session
  | .revoking session => some session
  | .recording session _ => some session
  | .signedOut session => session
  | .asking session => some session
  | .checking session => some session
  | .read session => session
  | _ => none

/-- The session that the store let past. -/
def KitStage.accepted : KitStage → Option Session
  | .checking session => some session
  | .read session => session
  | _ => none

namespace KitStage

variable {stage : KitStage} {options : VeraKeyServerOptions} {request : KitRequest}

theorem presented_of_accepted {session : Session} (haccepted : stage.accepted = some session) :
    stage.presented = some session := by
  cases stage with
  | checking other => exact haccepted
  | read other => exact haccepted
  | _ => contradiction

theorem presented_of_ended (hended : stage.Ended) : stage.presented = none := by
  cases stage with
  | refused error => rfl
  | signedOut session =>
      cases session with
      | none => rfl
      | some session => exact hended.elim
  | read session =>
      cases session with
      | none => rfl
      | some session => exact hended.elim
  | _ => exact hended.elim

theorem presented_start (options : VeraKeyServerOptions) (request : KitRequest)
    (route : KitRoute) : (route.start options request).presented = none := by
  cases route with
  | session => rfl
  | _ =>
      rw [KitRoute.start]
      split <;> rfl

end KitStage

namespace SessionServer

variable {p : Platform} {options : VeraKeyServerOptions}
variable {store : VeraKeyStore} {server : SessionServer store}
variable {event : SessionEvent} {events : ℕ → SessionEvent} {m n number : ℕ}
variable {request : KitRequest} {session : Session} {stage : KitStage}

/-- A sign-out of the session has returned. -/
def SignedOut (server : SessionServer store) (sid : Bytes) : Prop :=
  ∃ number session, session.sid = sid ∧
    server.stage number = some (.signedOut (some session))

/-- The sign-outs of a server agree with its store. -/
structure SoundSignOuts (server : SessionServer store) : Prop where
  once : ∀ session ∈ server.sessions, ∀ other ∈ server.sessions,
    session.sid = other.sid → session = other
  signed : ∀ number request stage session, server.jobs.job? number = some ⟨request, stage⟩ →
    stage.presented = some session →
    request.sessionCookie = some session ∧ session ∈ server.sessions
  /-- Rounded up, a claim's lifetime reaches the cookie's expiry. -/
  outlasts : ∀ number session ttlSeconds,
    server.stage number = some (.recording session ttlSeconds) →
    session.exp * 1000 ≤ server.now + ttlSeconds * 1000
  recorded : ∀ number session, server.stage number = some (.signedOut (some session)) →
    store.HeldUntil server.state server.now ((session.exp * 1000 : ℤ) : WithTop ℤ)
      (Claim.signOut session.sid).key
  claimed : ∀ sid, store.has server.state server.now (Claim.signOut sid).key = true →
    server.SignedOut sid

theorem session?_eq_some (hsession : KitJob.session? server ⟨request, stage⟩ = some session) :
    request.sessionCookie = some session ∧ session ∈ server.sessions := by
  have hfilter := (Option.filter_eq_some_iff.mp hsession).1
  obtain ⟨hcookie, hsigned⟩ := Option.filter_eq_some_iff.mp hfilter
  exact ⟨hcookie, of_decide_eq_true hsigned⟩

theorem sessions_subset_next (hsession : session ∈ server.sessions) :
    session ∈ (server.next p options event).sessions := by
  rcases sessions_next p options server event with hsame | ⟨new, -, hnew⟩
  · rwa [hsame]
  · rw [hnew]
    exact List.mem_cons_of_mem _ hsession

namespace SoundSignOuts

theorem once_next (hsound : server.SoundSignOuts) {other : Session}
    (hsession : session ∈ (server.next p options event).sessions)
    (hother : other ∈ (server.next p options event).sessions) (hsid : session.sid = other.sid) :
    session = other := by
  rcases sessions_next p options server event with hsame | ⟨new, hfresh, hnew⟩
  · rw [hsame] at hsession hother
    exact hsound.once session hsession other hother hsid
  · rw [hnew] at hsession hother
    rcases List.mem_cons.mp hsession with rfl | hbefore <;>
      rcases List.mem_cons.mp hother with rfl | hbefore'
    · rfl
    · exact absurd (List.mem_map.mpr ⟨other, hbefore', hsid.symm⟩) hfresh
    · exact absurd (List.mem_map.mpr ⟨session, hbefore, hsid⟩) hfresh
    · exact hsound.once session hbefore other hbefore' hsid

theorem signed_next (hsound : server.SoundSignOuts)
    (hjob' : (server.next p options event).jobs.job? number = some ⟨request, stage⟩)
    (hpresented : stage.presented = some session) :
    request.sessionCookie = some session ∧
      session ∈ (server.next p options event).sessions := by
  have hbefore : ∀ before, server.jobs.job? number = some ⟨request, before⟩ →
      before.presented = some session →
      request.sessionCookie = some session ∧
        session ∈ (server.next p options event).sessions := by
    intro before hjob hpresented
    obtain ⟨hcookie, hsigned⟩ := hsound.signed number request before session hjob hpresented
    exact ⟨hcookie, sessions_subset_next hsigned⟩
  have hdecoded : ∀ before, KitJob.session? server ⟨request, before⟩ = some session →
      request.sessionCookie = some session ∧
        session ∈ (server.next p options event).sessions := by
    intro before hsession
    obtain ⟨hcookie, hsigned⟩ := session?_eq_some hsession
    exact ⟨hcookie, sessions_subset_next hsigned⟩
  rcases job?_next hjob' with hjob | ⟨-, route, -, rfl⟩ | hsteps
  · exact hbefore stage hjob hpresented
  · rw [KitStage.presented_start] at hpresented
    contradiction
  · obtain ⟨answer, before, s', sessions', -, hjob, -, -, -, hmove⟩ := hsteps
    cases hmove with
    | idle => exact hbefore stage hjob hpresented
    | ended hended =>
        rw [KitStage.presented_of_ended hended] at hpresented
        contradiction
    | leaves hsession => exact hdecoded .leaving (hsession.trans hpresented)
    | decodes hsession => exact hdecoded .decoding (hsession.trans hpresented)
    | revokes => exact hbefore _ hjob hpresented
    | records => exact hbefore _ hjob hpresented
    | asks => exact hbefore _ hjob hpresented
    | owns => exact hbefore _ hjob hpresented
    | _ => contradiction

theorem outlasts_next (hsound : server.SoundSignOuts) {ttlSeconds : ℤ}
    (hstage' : (server.next p options event).stage number =
      some (.recording session ttlSeconds)) :
    session.exp * 1000 ≤ (server.next p options event).now + ttlSeconds * 1000 := by
  have hbefore : server.stage number = some (.recording session ttlSeconds) →
      session.exp * 1000 ≤ (server.next p options event).now + ttlSeconds * 1000 := by
    intro hstage
    exact (hsound.outlasts number session ttlSeconds hstage).trans
      (Int.add_le_add_right now_le_next _)
  obtain ⟨request, hjob'⟩ := stage_eq_some.mp hstage'
  rcases job?_next hjob' with hjob | ⟨-, route, -, hstart⟩ | hsteps
  · exact hbefore (stage_eq_some.mpr ⟨request, hjob⟩)
  · have hpresented := KitStage.presented_start options request route
    rw [← hstart] at hpresented
    contradiction
  · obtain ⟨answer, before, s', sessions', -, hjob, hnow, -, -, hmove⟩ := hsteps
    cases hmove with
    | idle => exact hbefore (stage_eq_some.mpr ⟨request, hjob⟩)
    | ended hended => exact hended.elim
    | revokes =>
        -- the clock is read in whole seconds, rounded down
        rw [hnow]
        simp only [nowSeconds]
        omega

/-- A claim of a sign-out lasts as long as its cookie, also when it was there before. -/
theorem heldUntil_claim (hsound : server.SoundSignOuts) (hsession : session ∈ server.sessions)
    {ttlSeconds : ℤ} (houtlasts : session.exp * 1000 ≤ server.now + ttlSeconds * 1000) :
    store.HeldUntil (store.claim server.state server.now (Claim.signOut session.sid).key
        (some ttlSeconds)).2 server.now ((session.exp * 1000 : ℤ) : WithTop ℤ)
      (Claim.signOut session.sid).key := by
  cases hhas : store.has server.state server.now (Claim.signOut session.sid).key with
  | false =>
      apply ClaimStore.heldUntil_claim hhas
      intro ttl httl
      rw [← Option.some.inj httl]
      exact WithTop.coe_le_coe.mpr houtlasts
  | true =>
      rw [store.claim_of_has server.state server.now _ _ hhas]
      obtain ⟨number, other, hsid, hstage⟩ := hsound.claimed session.sid hhas
      obtain ⟨request, hjob⟩ := stage_eq_some.mp hstage
      have hother := (hsound.signed number request _ other hjob rfl).2
      obtain rfl := hsound.once other hother session hsession hsid
      exact hsound.recorded number other hstage

theorem recorded_next (hsound : server.SoundSignOuts)
    (hstage' : (server.next p options event).stage number = some (.signedOut (some session))) :
    store.HeldUntil (server.next p options event).state (server.next p options event).now
      ((session.exp * 1000 : ℤ) : WithTop ℤ) (Claim.signOut session.sid).key := by
  have hbefore : server.stage number = some (.signedOut (some session)) →
      store.HeldUntil (server.next p options event).state (server.next p options event).now
        ((session.exp * 1000 : ℤ) : WithTop ℤ) (Claim.signOut session.sid).key := by
    intro hstage
    apply heldUntil_next _ (hsound.recorded number session hstage)
    intro found heq
    exact Claim.key_inj heq
  obtain ⟨request, hjob'⟩ := stage_eq_some.mp hstage'
  rcases job?_next hjob' with hjob | ⟨-, route, -, hstart⟩ | hsteps
  · exact hbefore (stage_eq_some.mpr ⟨request, hjob⟩)
  · have hpresented := KitStage.presented_start options request route
    rw [← hstart] at hpresented
    contradiction
  · obtain ⟨answer, before, s', sessions', -, hjob, hnow, hstate, -, hmove⟩ := hsteps
    cases hmove with
    | idle => exact hbefore (stage_eq_some.mpr ⟨request, hjob⟩)
    | ended hended => exact hended.elim
    | @records session ttlSeconds =>
        rw [hnow, hstate]
        have hsession := (hsound.signed number request _ session hjob rfl).2
        exact hsound.heldUntil_claim hsession
          (hsound.outlasts number session ttlSeconds (stage_eq_some.mpr ⟨request, hjob⟩))

theorem claimed_next (hsound : server.SoundSignOuts) {sid : Bytes}
    (hhas : store.has (server.next p options event).state (server.next p options event).now
      (Claim.signOut sid).key = true) :
    (server.next p options event).SignedOut sid := by
  rcases has_next hhas with hbefore | hrecords
  · obtain ⟨number, session, hsid, hstage⟩ := hsound.claimed sid hbefore
    exact ⟨number, session, hsid, stage_next_signedOut hstage⟩
  · exact hrecords

end SoundSignOuts

theorem soundSignOuts_after (n : ℕ) : (after p options store events n).SoundSignOuts := by
  induction n with
  | zero =>
      refine ⟨nofun, nofun, nofun, nofun, ?_⟩
      intro sid hhas
      change store.has store.empty 0 _ = true at hhas
      rw [store.has_empty] at hhas
      contradiction
  | succ n ih =>
      rw [after_succ]
      constructor
      · intro session hsession other hother
        exact ih.once_next hsession hother
      · intro number request stage session hjob
        exact ih.signed_next hjob
      · intro number session ttlSeconds hstage
        exact ih.outlasts_next hstage
      · intro number session hstage
        exact ih.recorded_next hstage
      · intro sid hhas
        exact ih.claimed_next hhas

/-! ## What a sign-out revokes -/

/-- A sign-out that has returned holds its claim until its cookie expires. -/
theorem heldUntil_signedOut
    (hsignedOut : (after p options store events n).stage number =
      some (.signedOut (some session))) (hle : n ≤ m) :
    store.HeldUntil (after p options store events m).state
      (after p options store events m).now ((session.exp * 1000 : ℤ) : WithTop ℤ)
      (Claim.signOut session.sid).key := by
  apply heldUntil_mono hle _ ((soundSignOuts_after n).recorded number session hsignedOut)
  intro found heq
  exact Claim.key_inj heq

/-- The store lets a request with the cookie past only when the cookie has expired. -/
theorem exp_le_of_accepted
    (hsignedOut : (after p options store events n).stage number =
      some (.signedOut (some session))) (hle : n ≤ m) {later : ℕ}
    (hlater : (after p options store events n).jobs.started ≤ later)
    (hjob' : (after p options store events m).jobs.job? later = some ⟨request, stage⟩)
    (haccepted : stage.accepted = some session) :
    session.exp * 1000 ≤ (after p options store events m).now := by
  induction m, hle using Nat.le_induction generalizing stage with
  | base =>
      rw [JobTable.unnumbered _ later hlater] at hjob'
      contradiction
  | succ m hle ih =>
      rw [after_succ] at hjob' ⊢
      have hbefore : ∀ before,
          (after p options store events m).jobs.job? later = some ⟨request, before⟩ →
          before.accepted = some session →
          session.exp * 1000 ≤
            ((after p options store events m).next p options (events m)).now := by
        intro before hjob haccepted
        exact (ih hjob haccepted).trans now_le_next
      rcases job?_next hjob' with hsame | ⟨-, route, -, rfl⟩ | hsteps
      · exact hbefore stage hsame haccepted
      · have hpresented := KitStage.presented_of_accepted haccepted
        rw [KitStage.presented_start] at hpresented
        contradiction
      · obtain ⟨answer, before, s', sessions', -, hjob, hnow, -, -, hmove⟩ := hsteps
        cases hmove with
        | idle => exact hbefore stage hjob haccepted
        | ended hended =>
            have hpresented := KitStage.presented_of_accepted haccepted
            rw [KitStage.presented_of_ended hended] at hpresented
            contradiction
        | asks hfree =>
            obtain rfl := Option.some.inj haccepted
            rw [hnow]
            by_contra hlt
            have hhas := (heldUntil_signedOut hsignedOut hle).has
              (WithTop.coe_lt_coe.mpr (Int.not_le.mp hlt))
            exact absurd (hhas.symm.trans hfree) Bool.noConfusion
        | owns => exact hbefore _ hjob haccepted
        | _ => contradiction

/-- What the store's answer makes of a request. -/
theorem stage_next_has (hstage : server.stage number = some (.asking session)) :
    (server.next p options (.step number .has)).stage number =
      some (if store.has server.state server.now (Claim.signOut session.sid).key then .read none
        else .checking session) := by
  obtain ⟨request, hjob⟩ := stage_eq_some.mp hstage
  apply stage_eq_some.mpr
  refine ⟨request, ?_⟩
  rw [next]
  simp only [hjob]
  exact JobTable.job?_set_self hjob

/-- A sign-out revokes every copy of its cookie.  Once it has returned, its claim lasts
until the cookie expires, and as long as the cookie lasts no request that starts later with
a copy of it gets past the store, which refuses each that asks; a session that was not
signed out itself gets past. -/
theorem sign_out_revokes_every_copy
    (hsignedOut : (after p options store events n).stage number =
      some (.signedOut (some session))) (hle : n ≤ m) :
    store.HeldUntil (after p options store events m).state
        (after p options store events m).now ((session.exp * 1000 : ℤ) : WithTop ℤ)
        (Claim.signOut session.sid).key ∧
      (∀ later request stage, (after p options store events n).jobs.started ≤ later →
        (after p options store events m).jobs.job? later = some ⟨request, stage⟩ →
        request.sessionCookie = some session →
        (after p options store events m).now < session.exp * 1000 → stage.accepted = none) ∧
      (∀ other, (after p options store events m).stage other = some (.asking session) →
        events m = .step other .has →
        (after p options store events m).now < session.exp * 1000 →
        (after p options store events (m + 1)).stage other = some (.read none)) ∧
      ∀ other session', (after p options store events m).stage other =
          some (.asking session') →
        events m = .step other .has →
        ¬ (after p options store events m).SignedOut session'.sid →
        (after p options store events (m + 1)).stage other = some (.checking session') := by
  have hheld := heldUntil_signedOut hsignedOut hle
  refine ⟨hheld, ?_, ?_, ?_⟩
  · intro later request stage hlater hjob hcookie hlt
    cases haccepted : stage.accepted with
    | none => rfl
    | some accepted =>
        have hpresented := KitStage.presented_of_accepted haccepted
        obtain ⟨hcookie', -⟩ :=
          (soundSignOuts_after m).signed later request stage accepted hjob hpresented
        obtain rfl := Option.some.inj (hcookie.symm.trans hcookie')
        have hexp := exp_le_of_accepted hsignedOut hle hlater hjob haccepted
        exact absurd hlt (Int.not_lt.mpr hexp)
  · intro other hasking hevent hlt
    rw [after_succ, hevent, stage_next_has hasking, if_pos]
    exact hheld.has (WithTop.coe_lt_coe.mpr hlt)
  · intro other session' hasking hevent hunsigned
    rw [after_succ, hevent, stage_next_has hasking, if_neg]
    intro hhas
    exact hunsigned ((soundSignOuts_after m).claimed session'.sid hhas)

end SessionServer

/-! ## A cookie used after its sign-out -/

namespace RevokedCookie

open SessionServer SpelledTwice StalledSignIn

def request : KitRequest :=
  { StalledSignIn.request with sessionCookie := some (session 0 1789999999) }

/-- The session of the first sign-in is signed out, and read again in another second. -/
def signsOut : ℕ → SessionEvent
  | 9 => .wait 500
  | 10 => .arrives .signOut request
  | 11 => .step 2 .mac
  | 12 => .step 2 .turn
  | 13 => .wait 700
  | 14 => .step 2 .claimed
  | 15 => .arrives .session request
  | 16 => .step 3 .mac
  | 17 => .step 3 .has
  | n => if n < 9 then signIns 0 n else .wait 0

theorem signedOut_asking :
    (after platform serverOptions memoryStore signsOut 15).stage 2 =
        some (.signedOut (some (session 0 1789999999))) ∧
      (after platform serverOptions memoryStore signsOut 17).stage 3 =
        some (.asking (session 0 1789999999)) ∧
      (after platform serverOptions memoryStore signsOut 17).now <
        (session 0 1789999999).exp * 1000 := by
  decide +kernel

theorem sign_out_revokes_every_copy_sample :
    (after platform serverOptions memoryStore signsOut (17 + 1)).stage 3 = some (.read none) := by
  obtain ⟨hsignedOut, hasking, hlt⟩ := signedOut_asking
  have hfifteen : 15 ≤ 17 := by decide
  exact (sign_out_revokes_every_copy hsignedOut hfifteen).2.2.1 3 hasking rfl hlt

end RevokedCookie

end Sdk

end VeraKey
