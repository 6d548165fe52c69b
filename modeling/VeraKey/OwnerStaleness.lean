/-
How stale the answer may be that lets a session through.  What is remembered was vouched for
by a sign-in or a check not long ago, and a check that says no is remembered until too many
other sessions have come after it.
-/
import VeraKey.OwnerCheckMoves

namespace VeraKey

open ByteCodec

namespace Sdk

/-- `began` is less than `seconds` before `now` on the server's clock, which reads whole
seconds. -/
structure Recent (seconds : ℚ) (began now : ℤ) : Prop where
  read : ((now / 1000 : ℤ) : ℚ) < ((began / 1000 : ℤ) : ℚ) + seconds
  elapsed : now < began + ⌈seconds⌉ * 1000

theorem recent_of_read {seconds : ℚ} {began now : ℤ}
    (hread : ((now / 1000 : ℤ) : ℚ) < ((began / 1000 : ℤ) : ℚ) + seconds) :
    Recent seconds began now := by
  refine ⟨hread, ?_⟩
  have hceil : ((now / 1000 : ℤ) : ℚ) < ((began / 1000 + ⌈seconds⌉ : ℤ) : ℚ) := by
    rw [Int.cast_add]
    exact hread.trans_le (add_le_add_right (Int.le_ceil seconds) _)
  have hwhole : now / 1000 < began / 1000 + ⌈seconds⌉ := Int.cast_lt.mp hceil
  omega

namespace OwnerServer

variable {T : ℚ} {server server' : OwnerServer} {event : OwnerEvent} {session : Session}
variable {earlier : SignedSessions} {events : ℕ → OwnerEvent} {n m number : ℕ}
variable {standing : OwnerStanding}

/-! ## What is remembered -/

/-- The session that an event enters in `ownerSeen`. -/
def remembered? (server : OwnerServer) : OwnerEvent → Option Bytes
  | .creates session =>
      if session.sid ∈ server.sessions.signed.map (·.sid) then none else some session.sid
  | .chain number heard =>
      (server.checks.job? number).bind fun check =>
        if check.stage.answer? = none ∧
            (check.stage.hear (server.now - check.began) heard).answer? ≠ none then
          some check.session.sid
        else none
  | _ => none

/-- What vouches for an entry that says yes. -/
inductive Vouches (T : ℚ) (earlier : SignedSessions) (events : ℕ → OwnerEvent) (n : ℕ)
    (sid : Bytes) : WithTop ℚ → Prop
  | created {k session} (hk : k < n) (hevent : events k = .creates session)
      (hsid : session.sid = sid)
      (hnew : sid ∉ (after T earlier events k).sessions.signed.map (·.sid)) :
      Vouches T earlier events n sid
        ((((after T earlier events k).nowSeconds : ℚ) + T : ℚ) : WithTop ℚ)
  | checked {check session began stage answer}
      (hcheck : (after T earlier events n).checks.job? check = some ⟨session, began, stage⟩)
      (hsid : session.sid = sid) (hanswer : stage.answer? = some answer)
      (hkeeps : answer.keeps = true) :
      Vouches T earlier events n sid
        ((((began / 1000 : ℤ) : ℚ) : WithTop ℚ) + answer.lasts T)

theorem Vouches.succ {sid : Bytes} {next : WithTop ℚ}
    (hvouches : Vouches T earlier events n sid next) :
    Vouches T earlier events (n + 1) sid next := by
  cases hvouches with
  | created hk hevent hsid hnew => exact .created (Nat.lt_succ_of_lt hk) hevent hsid hnew
  | checked hcheck hsid hanswer hkeeps =>
      obtain ⟨stage, hstage, hkept⟩ := check_move (move_next (T := T) (events n)) hcheck
      exact .checked hstage hsid (hkept _ hanswer) hkeeps

theorem lookup_rememberOwner {seen : RecentMap Bytes OwnerEntry} {sid other : Bytes}
    {entry entry' : OwnerEntry}
    (hlookup : (rememberOwner seen sid entry).lookup other = some entry') :
    (other = sid ∧ entry' = entry) ∨ seen.lookup other = some entry' := by
  by_cases hother : other = sid
  · subst hother
    exact .inl ⟨rfl, Option.some.inj (hlookup.symm.trans RecentMap.lookup_remember_self)⟩
  · exact .inr (RecentMap.lookup_of_remember hother hlookup)

/-- Every entry was vouched for. -/
theorem vouches_after (n : ℕ) {sid : Bytes} {entry : OwnerEntry}
    (hlookup : (after T earlier events n).ownerSeen.lookup sid = some entry)
    (howner : entry.owner = true) : Vouches T earlier events n sid entry.next := by
  induction n generalizing sid entry with
  | zero => exact absurd hlookup nofun
  | succ n ih =>
      have hkept : (after T earlier events n).ownerSeen.lookup sid = some entry →
          Vouches T earlier events (n + 1) sid entry.next :=
        fun hbefore => (ih hbefore howner).succ
      have hmove : OwnerMove T (after T earlier events n) (events n)
        (after T earlier events (n + 1)) := move_next (events n)
      generalize hevent : events n = event at hmove
      generalize hafter : after T earlier events (n + 1) = server' at hmove hlookup
      cases hmove with
      | creates hsid =>
          rcases lookup_rememberOwner hlookup with ⟨rfl, rfl⟩ | hbefore
          · exact .created n.lt_succ_self hevent rfl hsid
          · exact hkept hbefore
      | @ends check found heard answer hcheck hrunning hended =>
          rcases lookup_rememberOwner hlookup with ⟨rfl, rfl⟩ | hbefore
          · have hfound : (after T earlier events (n + 1)).checks.job? check =
                some { found with stage := .ended answer } := by
              rw [hafter]
              exact JobTable.job?_set_self hcheck
            exact .checked hfound rfl rfl howner
          · exact hkept hbefore
      | _ => exact hkept hlookup

/-- A check began when a request asked for it. -/
theorem exists_began {check : OwnerCheck}
    (hcheck : (after T earlier events n).checks.job? number = some check) :
    ∃ k < n, events k = .asks check.session ∧
      check.began = (after T earlier events k).now := by
  induction n generalizing check with
  | zero => exact absurd hcheck nofun
  | succ n ih =>
      rcases check_of_move (move_next (events n)) hcheck with
        ⟨hevent, hbegan, -⟩ | ⟨stage, hbefore⟩
      · exact ⟨n, n.lt_succ_self, hevent, hbegan⟩
      · obtain ⟨k, hk, hevent, hbegan⟩ := ih hbefore
        exact ⟨k, Nat.lt_succ_of_lt hk, hevent, hbegan⟩

/-- A request that waits asked for the check when it was listed. -/
theorem exists_asked {check : ℕ}
    (hrequest : (after T earlier events n).requests.job? number =
      some ⟨session, .waits check⟩) :
    ∃ k < n, events k = .asks session ∧
      (after T earlier events (k + 1)).ownerChecks.lookup session.sid = some check := by
  induction n with
  | zero => exact absurd hrequest nofun
  | succ n ih =>
      rcases request_of_move (move_next (events n)) hrequest with
        hbefore | ⟨hevent, -, ⟨seen, -, hstanding⟩ | ⟨-, found, hstanding, hchecks⟩⟩
      · obtain ⟨k, hk, hasked⟩ := ih hbefore
        exact ⟨k, Nat.lt_succ_of_lt hk, hasked⟩
      · contradiction
      · injection hstanding with hfound
        subst hfound
        exact ⟨n, n.lt_succ_self, hevent, hchecks⟩

/-! ## Acceptance -/

/-- A request is let through at the event `n`. -/
structure Accepts (T : ℚ) (earlier : SignedSessions) (events : ℕ → OwnerEvent) (n : ℕ)
    (number : ℕ) (request : OwnerRequest) : Prop where
  before : (after T earlier events n).owner? number ≠ some true
  request : (after T earlier events (n + 1)).requests.job? number = some request
  after : (after T earlier events (n + 1)).owner? number = some true

/-- Why a request is let through at the event `n`. -/
inductive Admitted (T : ℚ) (earlier : SignedSessions) (events : ℕ → OwnerEvent) (n : ℕ)
    (session : Session) : OwnerStanding → Prop
  /-- The session was created not long ago. -/
  | created {k created} (hk : k < n) (hevent : events k = .creates created)
      (hsid : created.sid = session.sid)
      (hnew : session.sid ∉ (after T earlier events k).sessions.signed.map (·.sid))
      (hrecent : Recent T (after T earlier events k).now (after T earlier events n).now) :
      Admitted T earlier events n session (.seen true)
  /-- A check that began not long ago found the owner. -/
  | owned {k check stage} (hk : k < n) (hevent : events k = .asks session)
      (hcheck : (after T earlier events n).checks.job? check =
        some ⟨session, (after T earlier events k).now, stage⟩)
      (hanswer : stage.answer? = some (.owner true))
      (hrecent : Recent T (after T earlier events k).now (after T earlier events n).now) :
      Admitted T earlier events n session (.seen true)
  /-- A check that began less than a minute ago failed. -/
  | failed {k check stage} (hk : k < n) (hevent : events k = .asks session)
      (hcheck : (after T earlier events n).checks.job? check =
        some ⟨session, (after T earlier events k).now, stage⟩)
      (hanswer : stage.answer? = some .failed)
      (hrecent : Recent (min 60 T) (after T earlier events k).now
        (after T earlier events n).now) :
      Admitted T earlier events n session (.seen true)
  /-- The request waited for a check of its session. -/
  | waited {k check found answer} (hk : k ≤ n) (hevent : events k = .asks session)
      (hlisted : (after T earlier events (k + 1)).ownerChecks.lookup session.sid = some check)
      (hcheck : (after T earlier events (n + 1)).checks.job? check = some found)
      (hsession : found.session = session) (hanswer : found.stage.answer? = some answer)
      (hkeeps : answer.keeps = true) :
      Admitted T earlier events n session (.waits check)

theorem owner?_of_request {request : OwnerRequest}
    (hrequest : server.requests.job? number = some request) :
    server.owner? number = match request.standing with
      | .seen owner => some owner
      | .waits check => (server.answer? check).map CheckAnswer.keeps := by
  rw [owner?, hrequest]
  rfl

theorem lt_of_seen? {seen : OwnerEntry} (hseen : server.seen? session = some seen)
    (howner : seen.owner = true) :
    ((server.nowSeconds : ℚ) : WithTop ℚ) < seen.next := by
  obtain ⟨-, hnext⟩ := Option.filter_eq_some_iff.mp hseen
  simpa [howner] using hnext

/-- An entry that is still good was vouched for not long ago. -/
theorem Vouches.admitted {next : WithTop ℚ}
    (hsigned : session ∈ (after T earlier events n).sessions.signed)
    (hvouches : Vouches T earlier events n session.sid next)
    (hnext : (((after T earlier events n).nowSeconds : ℚ) : WithTop ℚ) < next) :
    Admitted T earlier events n session (.seen true) := by
  cases hvouches with
  | created hk hevent hsid hnew =>
      exact .created hk hevent hsid hnew (recent_of_read (WithTop.coe_lt_coe.mp hnext))
  | @checked check found began stage answer hcheck hsid hanswer hkeeps =>
      obtain rfl : found = session := (after T earlier events n).sessions.eq_of_sid_eq
        ((soundChecks_after n).signed check _ hcheck) hsigned hsid
      obtain ⟨k, hk, hevent, hbegan⟩ := exists_began hcheck
      obtain rfl : began = (after T earlier events k).now := hbegan
      cases answer with
      | owner answered =>
          cases answered with
          | true =>
              exact .owned hk hevent hcheck hanswer
                (recent_of_read (WithTop.coe_lt_coe.mp hnext))
          | false => contradiction
      | failed =>
          exact .failed hk hevent hcheck hanswer
            (recent_of_read (WithTop.coe_lt_coe.mp hnext))

theorem Accepts.admitted (haccepts : Accepts T earlier events n number ⟨session, standing⟩) :
    Admitted T earlier events n session standing := by
  obtain ⟨hbefore, hrequest, hafter⟩ := haccepts
  rw [owner?_of_request hrequest] at hafter
  cases standing with
  | waits check =>
      obtain ⟨answer, hanswer, hkeeps⟩ := Option.map_eq_some_iff.mp hafter
      obtain ⟨found, hcheck, hanswer⟩ := Option.bind_eq_some_iff.mp hanswer
      obtain ⟨waited, hwaited, hsession⟩ := (soundChecks_after _).waits _ _ _ hrequest
      obtain rfl := Option.some.inj (hwaited.symm.trans hcheck)
      obtain ⟨k, hk, hevent, hlisted⟩ := exists_asked hrequest
      exact .waited (Nat.le_of_lt_succ hk) hevent hlisted hcheck hsession hanswer hkeeps
  | seen owner =>
      obtain rfl : owner = true := Option.some.inj hafter
      rcases request_of_move (move_next (events n)) hrequest with
        hold | ⟨-, hsigned, ⟨seen, hseen, hstanding⟩ | ⟨-, check, hstanding, -⟩⟩
      · exact absurd (owner?_of_request hold) hbefore
      · have howner : seen.owner = true := (OwnerStanding.seen.inj hstanding).symm
        have hlookup := (Option.filter_eq_some_iff.mp hseen).1
        exact (vouches_after n hlookup howner).admitted hsigned (lt_of_seen? hseen howner)
      · contradiction

/-! ## After a check that says no -/

/-- The session is remembered as no longer the owner's, with only `others` remembered
since, and every check of it is over. -/
structure Dropped (session : Session) (others : Finset Bytes) (server : OwnerServer) :
    Prop where
  signed : session ∈ server.sessions.signed
  kept : ∃ next, server.ownerSeen.KeptSince session.sid ⟨false, next⟩ others
  answered : ∀ number check, server.checks.job? number = some check →
    check.session = session → check.stage.answer? ≠ none

theorem ownerSeen_move (hmove : OwnerMove T server event server') :
    server'.ownerSeen = server.ownerSeen ∨ ∃ sid entry, server.remembered? event = some sid ∧
      server'.ownerSeen = rememberOwner server.ownerSeen sid entry := by
  cases hmove with
  | creates hsid => exact .inr ⟨_, _, if_neg hsid, rfl⟩
  | ends hcheck hrunning hended =>
      refine .inr ⟨_, _, ?_, rfl⟩
      rw [remembered?, hcheck, Option.bind_some, hended, if_pos ⟨hrunning, nofun⟩]
  | _ => exact .inl rfl

namespace Dropped

variable {others : Finset Bytes}

theorem seen? (hdropped : Dropped session others server) :
    ∃ next, server.seen? session = some ⟨false, next⟩ := by
  obtain ⟨next, hkept⟩ := hdropped.kept
  exact ⟨next, Option.filter_eq_some_iff.mpr ⟨hkept.lookup_eq, rfl⟩⟩

/-- Nothing is remembered of the session itself. -/
theorem remembered?_ne (hdropped : Dropped session others server)
    (hmove : OwnerMove T server event server') (hsound : server.SoundChecks) {sid : Bytes}
    (hsid : server.remembered? event = some sid) : sid ≠ session.sid := by
  rintro rfl
  cases event with
  | creates created =>
      obtain ⟨hnew, hsame⟩ := Option.ite_none_left_eq_some.mp hsid
      rw [Option.some.inj hsame] at hnew
      exact hnew (List.mem_map_of_mem hdropped.signed)
  | chain number heard =>
      obtain ⟨check, hcheck, hended⟩ := Option.bind_eq_some_iff.mp hsid
      obtain ⟨⟨hrunning, -⟩, hsame⟩ := Option.ite_none_right_eq_some.mp hended
      have hsession := server.sessions.eq_of_sid_eq (hsound.signed number check hcheck)
        hdropped.signed (Option.some.inj hsame)
      exact hdropped.answered number check hcheck hsession hrunning
  | _ => contradiction

theorem move (hdropped : Dropped session others server) (hsound : server.SoundChecks)
    (hmove : OwnerMove T server event server') (hroom : others.card < maxOwnerEntries)
    (hothers : ∀ sid, server.remembered? event = some sid → sid ≠ session.sid →
      sid ∈ others) : Dropped session others server' := by
  constructor
  · exact signed_move hmove hdropped.signed
  · obtain ⟨next, hkept⟩ := hdropped.kept
    refine ⟨next, ?_⟩
    rcases ownerSeen_move hmove with hsame | ⟨sid, entry, hsid, hseen⟩
    · rwa [hsame]
    · have hne := hdropped.remembered?_ne hmove hsound hsid
      have hinsert := Finset.insert_eq_of_mem (hothers sid hsid hne)
      rw [hseen, ← hinsert]
      apply hkept.remember hne
      rwa [hinsert]
  · intro number check hcheck hsession hnone
    rcases check_of_move hmove hcheck with ⟨-, -, hseen⟩ | ⟨stage, hbefore⟩
    · obtain ⟨next, hdenied⟩ := hdropped.seen?
      rw [hsession, hdenied] at hseen
      contradiction
    · obtain ⟨answer, hanswer⟩ :=
        Option.ne_none_iff_exists'.mp (hdropped.answered number _ hbefore hsession)
      obtain ⟨stage', hcheck', hkept⟩ := check_move hmove hbefore
      have hstage := Option.some.inj (hcheck'.symm.trans hcheck)
      rw [← hstage, hkept answer hanswer] at hnone
      contradiction

end Dropped

theorem owner?_move (hmove : OwnerMove T server event server') {owner : Bool}
    (howner : server.owner? number = some owner) : server'.owner? number = some owner := by
  obtain ⟨request, hrequest, howner⟩ := Option.bind_eq_some_iff.mp howner
  rw [owner?_of_request (request_move hmove hrequest)]
  cases hstanding : request.standing with
  | seen answered =>
      rw [hstanding] at howner
      exact howner
  | waits check =>
      rw [hstanding] at howner
      obtain ⟨answer, hanswer, hkeeps⟩ := Option.map_eq_some_iff.mp howner
      exact Option.map_eq_some_iff.mpr ⟨answer, answer?_move hmove hanswer, hkeeps⟩

/-- The event that ends a check makes its answer known. -/
theorem ends_of_answer (hmove : OwnerMove T server event server') {check : OwnerCheck}
    {answer : CheckAnswer} (hcheck : server.checks.job? number = some check)
    (hrunning : check.stage.answer? = none) (hanswer : server'.answer? number = some answer) :
    (∃ heard, event = .chain number heard) ∧ server' = { server with
      checks := server.checks.set number { check with stage := .ended answer }
      ownerSeen := rememberOwner server.ownerSeen check.session.sid
        ⟨answer.keeps, ((check.beganSeconds : ℚ) : WithTop ℚ) + answer.lasts T⟩ } := by
  have hchanged : server'.checks.job? number ≠ server.checks.job? number := by
    intro hsame
    rw [answer?, hsame, hcheck] at hanswer
    exact absurd (hrunning.symm.trans hanswer) nofun
  cases hmove with
  | begins =>
      have hother := Nat.ne_of_lt (JobTable.lt_started hcheck)
      exact absurd (JobTable.job?_start_of_ne hother) hchanged
  | @hears other found heard stage hfound hbefore hstage =>
      obtain rfl : number = other := by
        by_contra hother
        exact hchanged (JobTable.job?_set_of_ne hother)
      rw [answer?, JobTable.job?_set_self hfound] at hanswer
      exact absurd (hstage.symm.trans hanswer) nofun
  | @ends other found heard ended hfound hbefore hended =>
      obtain rfl : number = other := by
        by_contra hother
        exact hchanged (JobTable.job?_set_of_ne hother)
      obtain rfl := Option.some.inj (hcheck.symm.trans hfound)
      rw [answer?, JobTable.job?_set_self hfound] at hanswer
      obtain rfl := Option.some.inj hanswer
      exact ⟨⟨heard, rfl⟩, rfl⟩
  | @settles other found began ended hfound =>
      obtain rfl : number = other := by
        by_contra hother
        exact hchanged (JobTable.job?_set_of_ne hother)
      obtain rfl := Option.some.inj (hcheck.symm.trans hfound)
      contradiction
  | _ => exact absurd rfl hchanged

/-- All checks of the session but the one that runs are over. -/
theorem answered_of_ne (hsound : server.SoundChecks) {check found : OwnerCheck} {other : ℕ}
    (hcheck : server.checks.job? number = some check) (hrunning : check.stage.answer? = none)
    (hfound : server.checks.job? other = some found) (hsession : found.session = check.session)
    (hother : other ≠ number) : found.stage.answer? ≠ none := by
  intro hnone
  have hlisted := hsound.listed other found hfound
    (CheckStage.underWay_of_answer?_eq_none hnone)
  rw [hsession, hsound.listed number check hcheck
    (CheckStage.underWay_of_answer?_eq_none hrunning)] at hlisted
  exact hother (Option.some.inj hlisted).symm

/-- A check that says no drops its session. -/
theorem dropped_of_denied (hsound : server.SoundChecks)
    (hmove : OwnerMove T server event server') {check : OwnerCheck}
    (hcheck : server.checks.job? number = some check) (hrunning : check.stage.answer? = none)
    (hdenied : server'.answer? number = some (.owner false)) :
    Dropped check.session ∅ server' := by
  obtain ⟨-, rfl⟩ := ends_of_answer hmove hcheck hrunning hdenied
  refine ⟨hsound.signed number check hcheck, ⟨_, RecentMap.keptSince_remember⟩, ?_⟩
  intro other found hfound hsession
  by_cases hother : other = number
  · subst hother
    obtain rfl := Option.some.inj ((JobTable.job?_set_self hcheck).symm.trans hfound)
    exact nofun
  · rw [JobTable.job?_set_of_ne hother] at hfound
    exact answered_of_ne hsound hcheck hrunning hfound hsession hother

/-- A request that asked before is let through only by a check that ends now. -/
theorem Accepts.exists_ends (haccepts : Accepts T earlier events n number ⟨session, standing⟩)
    (hold : (OwnerServer.after T earlier events n).requests.job? number =
      some ⟨session, standing⟩) :
    ∃ check found, standing = .waits check ∧
      (OwnerServer.after T earlier events n).checks.job? check = some found ∧
      found.session = session ∧ found.stage.answer? = none := by
  obtain ⟨hbefore, -, hafter⟩ := haccepts
  cases howner : (OwnerServer.after T earlier events n).owner? number with
  | some owner =>
      have hkept := owner?_move (move_next (T := T) (events n)) howner
      obtain rfl := Option.some.inj (hkept.symm.trans hafter)
      exact absurd howner hbefore
  | none =>
      rw [owner?_of_request hold] at howner
      cases standing with
      | seen owner => contradiction
      | waits check =>
          obtain ⟨found, hfound, hsession⟩ := (soundChecks_after n).waits _ _ _ hold
          refine ⟨check, found, rfl, hfound, hsession, ?_⟩
          have hnone := Option.map_eq_none_iff.mp howner
          rw [answer?, hfound] at hnone
          exact hnone

theorem Dropped.not_accepts {others : Finset Bytes}
    (hdropped : Dropped session others (after T earlier events n)) :
    ¬ Accepts T earlier events n number ⟨session, standing⟩ := by
  intro haccepts
  rcases request_of_move (move_next (events n)) haccepts.request with
    hold | ⟨-, -, ⟨seen, hseen, hstanding⟩ | ⟨hseen, -⟩⟩
  · obtain ⟨check, found, -, hfound, hsession, hnone⟩ := haccepts.exists_ends hold
    exact hdropped.answered check found hfound hsession hnone
  · obtain ⟨next, hdenied⟩ := hdropped.seen?
    obtain rfl := Option.some.inj (hdenied.symm.trans hseen)
    obtain rfl : standing = .seen false := hstanding
    have hafter := haccepts.after
    rw [owner?_of_request haccepts.request] at hafter
    exact absurd (Option.some.inj hafter) Bool.noConfusion
  · obtain ⟨next, hdenied⟩ := hdropped.seen?
    exact absurd (hdenied.symm.trans hseen) nofun

/-- A session stays dropped until too many others have been remembered. -/
theorem dropped_after {check : OwnerCheck} {others : Finset Bytes}
    (hcheck : (after T earlier events n).checks.job? number = some check)
    (hrunning : check.stage.answer? = none)
    (hdenied : (after T earlier events (n + 1)).answer? number = some (.owner false))
    (hroom : others.card < maxOwnerEntries) (hle : n + 1 ≤ m)
    (hothers : ∀ k, n < k → k < m → ∀ sid,
      (after T earlier events k).remembered? (events k) = some sid →
      sid ≠ check.session.sid → sid ∈ others) :
    Dropped check.session others (after T earlier events m) := by
  induction m, hle using Nat.le_induction with
  | base =>
      have hdropped := dropped_of_denied (soundChecks_after n) (move_next (T := T) (events n))
        hcheck hrunning hdenied
      obtain ⟨next, hkept⟩ := hdropped.kept
      exact ⟨hdropped.signed, ⟨next, hkept.mono (Finset.empty_subset others)⟩,
        hdropped.answered⟩
  | succ m hle ih =>
      have hdropped := ih fun k hnk hkm => hothers k hnk (Nat.lt_succ_of_lt hkm)
      exact hdropped.move (soundChecks_after m) (move_next (events m)) hroom
        (hothers m hle m.lt_succ_self)

end OwnerServer

/-! ## A session that passes until its passkey is replaced -/

namespace ReplacedPasskey

open OwnerServer TextCodec

def session : Session := ⟨⟨ascii "0x01", ascii "0x02"⟩, ascii "00", 1800000000⟩

/-- The session passes when it was just created, and a check says no ten minutes later. -/
def replaced : ℕ → OwnerEvent
  | 0 => .creates session
  | 1 => .asks session
  | 2 => .wait 601000
  | 3 => .asks session
  | 4 => .chain 0 (.code (some (ascii "0x60")))
  | 5 => .chain 0 (.isOwner false)
  | 6 => .asks session
  | _ => .wait 0

def earlier : SignedSessions := ⟨[], List.nodup_nil⟩

theorem accepts_created : Accepts 600 earlier replaced 1 0 ⟨session, .seen true⟩ := by
  constructor <;> decide +kernel

theorem denied_replaced :
    (after (600 : ℚ) earlier replaced 5).checks.job? 0 = some ⟨session, 601000, .contract⟩ ∧
      (after (600 : ℚ) earlier replaced (5 + 1)).answer? 0 = some (.owner false) := by
  decide +kernel

end ReplacedPasskey

end Sdk

end VeraKey
