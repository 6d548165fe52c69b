/-
A nonce signs in once.  Its claim outlives its cookie by a minute, so a sign-in finds the
claim of another unless more than that minute passes between the check of its cookie and
its own claim.
-/
import VeraKey.PlayerId
import VeraKey.SessionMoves

namespace VeraKey

open ByteCodec Guard TextCodec

namespace Sdk

/-- The cookie whose nonce a sign-in has claimed. -/
def KitStage.used : KitStage → Option IssuedNonce
  | .verifying cookie => some cookie
  | .admitting cookie _ => some cookie
  | .signedIn cookie _ => some cookie
  | _ => none

namespace SessionServer

variable {p : Platform} {options : VeraKeyServerOptions}
variable {store : VeraKeyStore} {events : ℕ → SessionEvent} {n number : ℕ}
variable {request : KitRequest} {cookie : IssuedNonce} {stage : KitStage}

/-! ## The nonces that were issued -/

theorem toLowerCase_bytesToHex (bytes : Bytes) :
    toLowerCase (bytesToHex bytes) = bytesToHex bytes := by
  rw [toLowerCase, bytesToHex, lower, List.map_append, ← lower, ← lower, lower_hexText]
  rfl

/-- What the server issued: random nonces, each in one cookie, that expire in time. -/
structure SoundNonces (server : SessionServer store) : Prop where
  drawn : ∀ cookie ∈ server.issued, ∃ drawn : B256, cookie.nonce = bytesToHex drawn.bytes
  once : ∀ cookie ∈ server.issued, ∀ other ∈ server.issued,
    toLowerCase cookie.nonce = toLowerCase other.nonce → cookie = other
  expires : ∀ cookie ∈ server.issued, cookie.expiresAt * 1000 ≤ server.now + 300000

theorem SoundNonces.issue {server : SessionServer store} (hsound : server.SoundNonces)
    {drawn : B256} (hdrawn : (server.issue drawn).nonce ∉ server.issued.map (·.nonce)) :
    ({ server with issued := server.issue drawn :: server.issued } :
      SessionServer store).SoundNonces := by
  have hnew : ∀ cookie ∈ server.issued,
      toLowerCase cookie.nonce ≠ toLowerCase (server.issue drawn).nonce := by
    intro cookie hcookie hsame
    obtain ⟨before, hnonce⟩ := hsound.drawn cookie hcookie
    rw [hnonce, SessionServer.issue, toLowerCase_bytesToHex, toLowerCase_bytesToHex] at hsame
    exact hdrawn (List.mem_map.mpr ⟨cookie, hcookie, hnonce.trans hsame⟩)
  constructor
  · intro cookie hcookie
    rcases List.mem_cons.mp hcookie with rfl | hcookie
    · exact ⟨drawn, rfl⟩
    · exact hsound.drawn cookie hcookie
  · intro cookie hcookie other hother hsame
    rcases List.mem_cons.mp hcookie with rfl | hcookie <;>
      rcases List.mem_cons.mp hother with rfl | hother
    · rfl
    · exact absurd hsame.symm (hnew other hother)
    · exact absurd hsame (hnew cookie hcookie)
    · exact hsound.once cookie hcookie other hother hsame
  · intro cookie hcookie
    rcases List.mem_cons.mp hcookie with rfl | hcookie
    · simp only [SessionServer.issue, nowSeconds, nonceTtlSeconds]
      omega
    · exact hsound.expires cookie hcookie

theorem soundNonces_after (n : ℕ) :
    (after p options store events n).SoundNonces := by
  induction n with
  | zero => exact ⟨nofun, nofun, nofun⟩
  | succ n ih =>
      rw [after_succ]
      rcases issued_next p options (after p options store events n) (events n) with
        hsame | ⟨drawn, -, hdrawn, hissue⟩
      · refine ⟨?_, ?_, ?_⟩
        · rw [hsame]
          exact ih.drawn
        · rw [hsame]
          exact ih.once
        · rw [hsame]
          intro cookie hcookie
          exact (ih.expires cookie hcookie).trans (Int.add_le_add_right now_le_next 300000)
      · rw [hissue]
        exact ih.issue hdrawn

/-! ## The way of a sign-in -/

theorem used_start (route : KitRoute) : (route.start options request).used = none := by
  cases route with
  | session => rfl
  | _ =>
      rw [KitRoute.start]
      split <;> rfl

theorem used_of_ended (hended : stage.Ended) : stage.used = none := by
  cases stage with
  | verifying cookie => exact hended.elim
  | admitting cookie player => exact hended.elim
  | signedIn cookie session => exact hended.elim
  | _ => rfl

/-- A nonce is used only after a claim that nobody had made. -/
theorem exists_claim
    (hjob : (after p options store events n).jobs.job? number = some ⟨request, stage⟩)
    (hused : stage.used = some cookie) :
    ∃ m < n, events m = .step number .claimed ∧
      (after p options store events m).jobs.job? number =
        some ⟨request, .claiming cookie⟩ ∧
      store.has (after p options store events m).state
        (after p options store events m).now (Claim.nonce cookie.nonce).key = false ∧
      store.HeldUntil (after p options store events (m + 1)).state
        (after p options store events (m + 1)).now
        (((after p options store events m).now + nonceClaimSeconds * 1000 : ℤ) :
          WithTop ℤ) (Claim.nonce cookie.nonce).key := by
  obtain ⟨m, -, hm, hbefore, hafter⟩ := History.exists_last_rise
    (p := fun k => ∃ stage, (after p options store events k).jobs.job? number =
      some ⟨request, stage⟩ ∧ stage.used = some cookie) n.zero_le nofun ⟨stage, hjob, hused⟩
  refine ⟨m, hm, ?_⟩
  obtain ⟨stage', hjob', hused'⟩ := hafter (m + 1) m.lt_succ_self hm
  rw [after_succ] at hjob'
  rcases job?_next hjob' with hsame | ⟨-, route, -, rfl⟩ | hsteps
  · exact absurd ⟨stage', hsame, hused'⟩ hbefore
  · rw [used_start] at hused'
    contradiction
  · obtain ⟨answer, before, s', sessions', hevent, hjob, hnow, hstate, -, hmove⟩ := hsteps
    cases hmove with
    | idle => exact absurd ⟨stage', hjob, hused'⟩ hbefore
    | ended hended =>
        rw [used_of_ended hended] at hused'
        contradiction
    | claimed hfree =>
        obtain rfl := Option.some.inj hused'
        refine ⟨hevent, hjob, hfree, ?_⟩
        rw [after_succ, hnow, hstate]
        apply ClaimStore.heldUntil_claim hfree
        intro ttl httl
        rw [← Option.some.inj httl]
    | verified => exact absurd ⟨_, hjob, hused'⟩ hbefore
    | admitted => exact absurd ⟨_, hjob, hused'⟩ hbefore
    | _ => contradiction

/-- A sign-in claims only a nonce that was issued to it and that its statement names. -/
theorem exists_match
    (hjob : (after p options store events n).jobs.job? number =
      some ⟨request, .claiming cookie⟩) :
    ∃ m < n, (after p options store events m).jobs.job? number =
        some ⟨request, .matching cookie⟩ ∧
      cookie ∈ (after p options store events m).issued ∧ request.Names p cookie := by
  obtain ⟨m, hm, hstart | ⟨⟨_, before, _, _, -, hbefore, -, -, -, hmove⟩, hnew⟩⟩ :=
    exists_step hjob
  · obtain ⟨route, -, hstart⟩ := hstart
    cases route with
    | session => contradiction
    | _ =>
        rw [KitRoute.start] at hstart
        split at hstart <;> contradiction
  · refine ⟨m, hm, ?_⟩
    cases hmove with
    | idle => exact absurd hbefore hnew
    | ended hended => exact hended.elim
    | matched hissued hnames => exact ⟨hbefore, hissued, hnames⟩

/-- A sign-in reads its cookie before the cookie expires. -/
theorem exists_body
    (hjob : (after p options store events n).jobs.job? number =
      some ⟨request, .matching cookie⟩) :
    ∃ m < n, events m = .step number .body ∧
      (after p options store events m).stage number = some .reading ∧
      request.nonceCookie = some cookie ∧
      (after p options store events m).nowSeconds < cookie.expiresAt := by
  obtain ⟨m, hm, hstart | ⟨⟨_, before, _, _, hevent, hbefore, -, -, -, hmove⟩, hnew⟩⟩ :=
    exists_step hjob
  · obtain ⟨route, -, hstart⟩ := hstart
    cases route with
    | session => contradiction
    | _ =>
        rw [KitRoute.start] at hstart
        split at hstart <;> contradiction
  · refine ⟨m, hm, ?_⟩
    cases hmove with
    | idle => exact absurd hbefore hnew
    | ended hended => exact hended.elim
    | current hcookie hcurrent =>
        exact ⟨hevent, stage_eq_some.mpr ⟨request, hbefore⟩, hcookie, hcurrent⟩

/-- The claim of a sign-in follows the check of its cookie within a minute. -/
def Prompt (p : Platform) (options : VeraKeyServerOptions)
    (store : VeraKeyStore) (events : ℕ → SessionEvent) : Prop :=
  ∀ read claimed number cookie, read < claimed → events read = .step number .body →
    (after p options store events read).stage number = some .reading →
    events claimed = .step number .claimed →
    (after p options store events claimed).stage number = some (.claiming cookie) →
    (after p options store events claimed).now ≤
      (after p options store events read).now + 60000

/-- Nothing of two claims of one nonce but their order remains: the second finds the first. -/
theorem claim_before_claim (hprompt : Prompt p options store events) {number other : ℕ}
    {m m' : ℕ} {request' : KitRequest} {cookie' : IssuedNonce} (hlt : m < m')
    (hsame : toLowerCase cookie.nonce = toLowerCase cookie'.nonce)
    (hjob : (after p options store events m).jobs.job? number =
      some ⟨request, .claiming cookie⟩)
    (hheld : store.HeldUntil (after p options store events (m + 1)).state
      (after p options store events (m + 1)).now
      (((after p options store events m).now + nonceClaimSeconds * 1000 : ℤ) :
        WithTop ℤ) (Claim.nonce cookie.nonce).key)
    (hevent' : events m' = .step other .claimed)
    (hjob' : (after p options store events m').jobs.job? other =
      some ⟨request', .claiming cookie'⟩) :
    store.has (after p options store events m').state
      (after p options store events m').now (Claim.nonce cookie'.nonce).key = true := by
  have hkey : (Claim.nonce cookie'.nonce).key = (Claim.nonce cookie.nonce).key := by
    rw [Claim.key, Claim.key, hsame]
  have hpayment : ∀ found, (Claim.nonce cookie.nonce).key ≠ (Claim.payment found).key := by
    intro found heq
    exact Claim.key_inj heq
  -- the first sign-in had its cookie when it claimed, the second before it claimed
  obtain ⟨k, hk, -, hissued, -⟩ := exists_match hjob
  obtain ⟨k', hk', hmatching', hissued', -⟩ := exists_match hjob'
  obtain ⟨l', hl', hbody', hreading', -, hcurrent'⟩ := exists_body hmatching'
  have hcookies : cookie = cookie' := (soundNonces_after m').once cookie
    (issued_mono (hk.trans hlt).le hissued) cookie' (issued_mono hk'.le hissued') hsame
  have hexpires := (soundNonces_after k).expires cookie hissued
  have hnow : (after p options store events k).now ≤
      (after p options store events m).now := now_mono hk.le
  have hstall := hprompt l' m' other cookie' (hl'.trans hk') hbody' hreading' hevent'
    (stage_eq_some.mpr ⟨request', hjob'⟩)
  rw [hkey]
  apply (heldUntil_mono hlt hpayment hheld).has
  rw [WithTop.coe_lt_coe]
  rw [nowSeconds, ← hcookies] at hcurrent'
  simp only [nonceClaimSeconds]
  omega

end SessionServer

/-! ## A sign-in that stalls -/

namespace StalledSignIn

open SessionServer SpelledTwice

/-- The cookie of a nonce that was issued a second before the sign-in's statement. -/
def cookie : IssuedNonce := ⟨bytesToHex small.nonce, 1790000299⟩

def request : KitRequest := { small.signInRequest with nonceCookie := some cookie }

/-- The session of the sign-in that is number `number`, from the second `now` on. -/
def session (number : ℕ) (now : ℤ) : Session where
  player := small.session.player
  sid := hexText (FixedBytes.ofNat 16 number).bytes
  exp := now + defaultSessionTtlSeconds

/-- Two sign-ins with one nonce.  The second has its cookie checked in the last second and
then stalls. -/
def signIns (stall : ℕ) : ℕ → SessionEvent
  | 0 => .wait 1789999999000
  | 1 => .issue ⟨small.nonce, rfl⟩
  | 2 => .arrives .signIn request
  | 3 => .arrives .signIn request
  | 4 => .step 0 .body
  | 5 => .step 0 .mac
  | 6 => .step 0 .claimed
  | 7 => .step 0 (.verdict chain)
  | 8 => .step 0 (.admitted none (.ofNat 16 0))
  | 9 => .wait 299000
  | 10 => .step 1 .body
  | 11 => .step 1 .mac
  | 12 => .wait stall
  | 13 => .step 1 .claimed
  | 14 => .step 1 (.verdict chain)
  | 15 => .step 1 (.admitted none (.ofNat 16 1))
  | _ => .wait 0

theorem signedIn_stalled :
    (after platform serverOptions memoryStore (signIns 61000) 16).stage 0 =
        some (.signedIn cookie (session 0 1789999999)) ∧
      (after platform serverOptions memoryStore (signIns 61000) 16).stage 1 =
        some (.signedIn cookie (session 1 1790000359)) := by
  decide +kernel

theorem reads_body {stall read number : ℕ} (hread : signIns stall read = .step number .body) :
    (read = 4 ∧ number = 0) ∨ (read = 10 ∧ number = 1) := by
  match read, hread with
  | 4, hread =>
      injection hread with hnumber
      exact Or.inl ⟨rfl, hnumber.symm⟩
  | 10, hread =>
      injection hread with hnumber
      exact Or.inr ⟨rfl, hnumber.symm⟩
  | _ + 16, hread => contradiction

theorem claims_nonce {stall claimed number : ℕ}
    (hclaimed : signIns stall claimed = .step number .claimed) :
    (claimed = 6 ∧ number = 0) ∨ (claimed = 13 ∧ number = 1) := by
  match claimed, hclaimed with
  | 6, hclaimed =>
      injection hclaimed with hnumber
      exact Or.inl ⟨rfl, hnumber.symm⟩
  | 13, hclaimed =>
      injection hclaimed with hnumber
      exact Or.inr ⟨rfl, hnumber.symm⟩
  | _ + 16, hclaimed => contradiction

theorem prompt_signIns : Prompt platform serverOptions memoryStore (signIns 60000) := by
  intro read claimed number _ _ hread _ hclaimed _
  rcases reads_body hread with ⟨rfl, rfl⟩ | ⟨rfl, rfl⟩ <;>
    rcases claims_nonce hclaimed with ⟨rfl, hnumber⟩ | ⟨rfl, hnumber⟩
  · rw [after_succ _ _ _ _ 5, after_succ _ _ _ _ 4, now_next, now_next, signIns, signIns]
    simp only [SessionEvent.elapsed]
    omega
  · exact absurd hnumber Nat.zero_ne_one
  · exact absurd hnumber Nat.one_ne_zero
  · rw [after_succ _ _ _ _ 12, after_succ _ _ _ _ 11, after_succ _ _ _ _ 10, now_next, now_next,
      now_next, signIns, signIns, signIns]
    simp only [SessionEvent.elapsed]
    omega

theorem signedIn_prompt : (after platform serverOptions memoryStore (signIns 60000) 16).stage 0 =
    some (.signedIn cookie (session 0 1789999999)) := by
  decide +kernel

end StalledSignIn

end Sdk

end VeraKey
