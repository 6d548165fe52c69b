/-
What one event can do to the owner checks of a server, and what holds of them in any run:
a session has one check under way at most, and it is the one that its requests wait for.
-/
import VeraKey.OwnerChecks

namespace VeraKey

open ByteCodec

namespace Sdk

/-! ## The stages of a check -/

namespace CheckStage

variable {stage : CheckStage} {answer : CheckAnswer} {heard : ChainAnswer} {elapsed : ℤ}

/-- A check is under way until it has left `ownerChecks`. -/
def UnderWay : CheckStage → Prop
  | .settled _ => False
  | _ => True

theorem underWay_of_answer?_eq_none (hrunning : stage.answer? = none) : stage.UnderWay := by
  cases stage with
  | settled answer => contradiction
  | _ => trivial

theorem answer?_eq_some : stage.answer? = some answer ↔
    stage = .ended answer ∨ stage = .settled answer := by
  cases stage with
  | ended found => simp [answer?]
  | settled found => simp [answer?]
  | _ => simp [answer?]

/-- A check that hears something has ended or still runs. -/
theorem hear_cases (elapsed : ℤ) (heard : ChainAnswer) (hrunning : stage.answer? = none) :
    (stage.hear elapsed heard).answer? = none ∨
      ∃ answer, stage.hear elapsed heard = .ended answer := by
  cases stage with
  | ended answer => contradiction
  | settled answer => contradiction
  | code =>
      cases heard with
      | code found =>
          rw [hear]
          split
          · exact .inl rfl
          · exact .inr ⟨_, rfl⟩
      | isOwner owner => exact .inl rfl
      | failure => exact .inr ⟨_, rfl⟩
      | timeout =>
          rw [hear]
          split
          · exact .inr ⟨_, rfl⟩
          · exact .inl rfl
  | contract =>
      cases heard with
      | code found => exact .inl rfl
      | isOwner owner => exact .inr ⟨_, rfl⟩
      | failure => exact .inr ⟨_, rfl⟩
      | timeout =>
          rw [hear]
          split
          · exact .inr ⟨_, rfl⟩
          · exact .inl rfl

end CheckStage

/-! ## One event -/

/-- What an event can do, where `ownerCheckSeconds` is `T`. -/
inductive OwnerMove (T : ℚ) (server : OwnerServer) : OwnerEvent → OwnerServer → Prop
  | idle {event} : OwnerMove T server event server
  | wait {ms} : OwnerMove T server (.wait ms) { server with now := server.now + ms }
  | creates {session} (hsid : session.sid ∉ server.sessions.signed.map (·.sid)) :
      OwnerMove T server (.creates session)
        { server with
          sessions := server.sessions.sign session hsid
          ownerSeen := OwnerServer.rememberOwner server.ownerSeen session.sid
            ⟨true, ((server.nowSeconds : ℚ) : WithTop ℚ) + T⟩ }
  | seen {session seen} (hsigned : session ∈ server.sessions.signed)
      (hseen : server.seen? session = some seen) :
      OwnerMove T server (.asks session)
        { server with requests := server.request session (.seen seen.owner) }
  | joins {session number} (hsigned : session ∈ server.sessions.signed)
      (hseen : server.seen? session = none)
      (hchecks : server.ownerChecks.lookup session.sid = some number) :
      OwnerMove T server (.asks session)
        { server with requests := server.request session (.waits number) }
  | begins {session} (hsigned : session ∈ server.sessions.signed)
      (hseen : server.seen? session = none)
      (hchecks : server.ownerChecks.lookup session.sid = none) :
      OwnerMove T server (.asks session)
        { server with
          ownerChecks := server.ownerChecks.insert session.sid server.checks.started
          checks := server.checks.start ⟨session, server.now, .code⟩
          requests := server.request session (.waits server.checks.started) }
  | hears {number check heard stage} (hcheck : server.checks.job? number = some check)
      (hrunning : check.stage.answer? = none) (hstage : stage.answer? = none) :
      OwnerMove T server (.chain number heard)
        { server with checks := server.checks.set number { check with stage := stage } }
  | ends {number check heard answer} (hcheck : server.checks.job? number = some check)
      (hrunning : check.stage.answer? = none)
      (hended : check.stage.hear (server.now - check.began) heard = .ended answer) :
      OwnerMove T server (.chain number heard)
        { server with
          checks := server.checks.set number { check with stage := .ended answer }
          ownerSeen := OwnerServer.rememberOwner server.ownerSeen check.session.sid
            ⟨answer.keeps, ((check.beganSeconds : ℚ) : WithTop ℚ) + answer.lasts T⟩ }
  | settles {number session began answer}
      (hcheck : server.checks.job? number = some ⟨session, began, .ended answer⟩) :
      OwnerMove T server (.settles number)
        { server with
          checks := server.checks.set number ⟨session, began, .settled answer⟩
          ownerChecks := server.ownerChecks.erase session.sid }

namespace OwnerServer

variable {T : ℚ} {server : OwnerServer} {session : Session} {number : ℕ}

theorem move_create :
    OwnerMove T server (.creates session) (server.create T session) := by
  rw [create]
  split
  · exact .idle
  · next hsid =>
      rw [if_neg (WithTop.coe_ne_top)]
      exact .creates hsid

theorem move_stillOwner (hsigned : session ∈ server.sessions.signed) :
    OwnerMove T server (.asks session) (server.stillOwner T session) := by
  rw [stillOwner, if_neg (WithTop.coe_ne_top)]
  split
  · next seen hseen => exact .seen hsigned hseen
  · next hseen =>
      split
      · next number hchecks => exact .joins hsigned hseen hchecks
      · next hchecks => exact .begins hsigned hseen hchecks

theorem move_hear {check : OwnerCheck} {heard : ChainAnswer}
    (hcheck : server.checks.job? number = some check)
    (hrunning : check.stage.answer? = none) :
    OwnerMove T server (.chain number heard) (server.hear T number check heard) := by
  rcases CheckStage.hear_cases (server.now - check.began) heard hrunning with hstage | ⟨answer, hstage⟩
  · have hunheard : server.hear T number check heard =
        { server with
          checks := server.checks.set number
            { check with stage := check.stage.hear (server.now - check.began) heard } } := by
      rw [hear]
      split
      · next answer hended =>
          rw [hended] at hstage
          contradiction
      · rfl
    rw [hunheard]
    exact .hears hcheck hrunning hstage
  · rw [hear, hstage]
    exact .ends hcheck hrunning hstage

theorem move_next (event : OwnerEvent) : OwnerMove T server event (server.next T event) := by
  cases event with
  | creates session => exact move_create
  | asks session =>
      rw [next]
      split
      · next hsigned => exact move_stillOwner hsigned
      · exact .idle
  | chain number heard =>
      rw [next]
      split
      · next check hcheck =>
          split
          · next hrunning => exact move_hear hcheck hrunning
          · exact .idle
      · exact .idle
  | settles number =>
      rw [next]
      split
      · next session began answer hcheck => exact .settles hcheck
      · exact .idle
  | wait ms => exact .wait

/-! ## The checks under way -/

/-- What `ownerChecks` holds is what is under way, and requests wait for checks of their
session. -/
structure SoundChecks (server : OwnerServer) : Prop where
  signed : ∀ number check, server.checks.job? number = some check →
    check.session ∈ server.sessions.signed
  listed : ∀ number check, server.checks.job? number = some check →
    check.stage.UnderWay → server.ownerChecks.lookup check.session.sid = some number
  underWay : ∀ sid number, server.ownerChecks.lookup sid = some number →
    ∃ check, server.checks.job? number = some check ∧ check.session.sid = sid ∧
      check.stage.UnderWay
  waits : ∀ number session check,
    server.requests.job? number = some ⟨session, .waits check⟩ →
    ∃ waited, server.checks.job? check = some waited ∧ waited.session = session

namespace SoundChecks

variable {check : OwnerCheck} {stage : CheckStage} {seen : RecentMap Bytes OwnerEntry}

/-- A check that stays under way is in another stage. -/
theorem hears (hsound : server.SoundChecks) (hcheck : server.checks.job? number = some check)
    (hbefore : check.stage.UnderWay) (hstage : stage.UnderWay) :
    ({ server with
      checks := server.checks.set number { check with stage := stage }
      ownerSeen := seen } : OwnerServer).SoundChecks := by
  constructor
  · intro other found hfound
    by_cases hother : other = number
    · subst hother
      obtain rfl := Option.some.inj ((JobTable.job?_set_self hcheck).symm.trans hfound)
      exact hsound.signed other check hcheck
    · rw [JobTable.job?_set_of_ne hother] at hfound
      exact hsound.signed other found hfound
  · intro other found hfound hunderWay
    by_cases hother : other = number
    · subst hother
      obtain rfl := Option.some.inj ((JobTable.job?_set_self hcheck).symm.trans hfound)
      exact hsound.listed other check hcheck hbefore
    · rw [JobTable.job?_set_of_ne hother] at hfound
      exact hsound.listed other found hfound hunderWay
  · intro sid other hchecks
    obtain ⟨found, hfound, hsid, hunderWay⟩ := hsound.underWay sid other hchecks
    by_cases hother : other = number
    · subst hother
      obtain rfl := Option.some.inj (hcheck.symm.trans hfound)
      exact ⟨_, JobTable.job?_set_self hcheck, hsid, hstage⟩
    · exact ⟨found, (JobTable.job?_set_of_ne hother).trans hfound, hsid, hunderWay⟩
  · intro request session waited hrequest
    obtain ⟨found, hfound, hsession⟩ := hsound.waits request session waited hrequest
    by_cases hother : waited = number
    · subst hother
      obtain rfl := Option.some.inj (hcheck.symm.trans hfound)
      exact ⟨_, JobTable.job?_set_self hcheck, hsession⟩
    · exact ⟨found, (JobTable.job?_set_of_ne hother).trans hfound, hsession⟩

/-- A request of the session waits for the check that its id lists. -/
theorem joins (hsound : server.SoundChecks) (hsigned : session ∈ server.sessions.signed)
    (hchecks : server.ownerChecks.lookup session.sid = some number) :
    ∃ waited, server.checks.job? number = some waited ∧ waited.session = session := by
  obtain ⟨check, hcheck, hsid, -⟩ := hsound.underWay session.sid number hchecks
  refine ⟨check, hcheck, ?_⟩
  exact server.sessions.eq_of_sid_eq (hsound.signed number check hcheck) hsigned hsid

/-- A check begins for a session that has none. -/
theorem begins (hsound : server.SoundChecks) (hsigned : session ∈ server.sessions.signed)
    (hchecks : server.ownerChecks.lookup session.sid = none) :
    ({ server with
      ownerChecks := server.ownerChecks.insert session.sid server.checks.started
      checks := server.checks.start ⟨session, server.now, .code⟩
      requests := server.request session (.waits server.checks.started) } :
      OwnerServer).SoundChecks := by
  have hkept : ∀ other found, server.checks.job? other = some found →
      (server.checks.start ⟨session, server.now, .code⟩).job? other = some found := by
    intro other found hfound
    exact JobTable.job?_start.mpr (.inr hfound)
  have hnew : (server.checks.start ⟨session, server.now, .code⟩).job?
      server.checks.started = some ⟨session, server.now, .code⟩ :=
    JobTable.job?_start.mpr (.inl ⟨rfl, rfl⟩)
  constructor
  · intro other found hfound
    rcases JobTable.job?_start.mp hfound with ⟨-, rfl⟩ | hfound
    · exact hsigned
    · exact hsound.signed other found hfound
  · intro other found hfound hunderWay
    rcases JobTable.job?_start.mp hfound with ⟨rfl, rfl⟩ | hfound
    · exact AList.lookup_insert _
    · have hlisted := hsound.listed other found hfound hunderWay
      have hother : found.session.sid ≠ session.sid := by
        intro hsid
        rw [hsid, hchecks] at hlisted
        contradiction
      exact (AList.lookup_insert_ne hother).trans hlisted
  · intro sid other hlisted
    by_cases hsid : sid = session.sid
    · subst hsid
      obtain rfl := Option.some.inj ((AList.lookup_insert _).symm.trans hlisted)
      exact ⟨_, hnew, rfl, trivial⟩
    · obtain ⟨found, hfound, hfoundSid, hunderWay⟩ :=
        hsound.underWay sid other ((AList.lookup_insert_ne hsid).symm.trans hlisted)
      exact ⟨found, hkept other found hfound, hfoundSid, hunderWay⟩
  · intro request waiting waited hrequest
    rcases JobTable.job?_start.mp hrequest with ⟨-, hrequest⟩ | hrequest
    · injection hrequest with hsession hstanding
      injection hstanding with hwaited
      subst hsession hwaited
      exact ⟨_, hnew, rfl⟩
    · obtain ⟨found, hfound, hsession⟩ := hsound.waits request waiting waited hrequest
      exact ⟨found, hkept waited found hfound, hsession⟩

/-- A check leaves `ownerChecks`, where it was the only one of its session. -/
theorem settles (hsound : server.SoundChecks) {began : ℤ} {answer : CheckAnswer}
    (hcheck : server.checks.job? number = some ⟨session, began, .ended answer⟩) :
    ({ server with
      checks := server.checks.set number ⟨session, began, .settled answer⟩
      ownerChecks := server.ownerChecks.erase session.sid } : OwnerServer).SoundChecks := by
  have hnumber := hsound.listed number _ hcheck trivial
  constructor
  · intro other found hfound
    by_cases hother : other = number
    · subst hother
      obtain rfl := Option.some.inj ((JobTable.job?_set_self hcheck).symm.trans hfound)
      exact hsound.signed other ⟨session, began, .ended answer⟩ hcheck
    · rw [JobTable.job?_set_of_ne hother] at hfound
      exact hsound.signed other found hfound
  · intro other found hfound hunderWay
    by_cases hother : other = number
    · subst hother
      obtain rfl := Option.some.inj ((JobTable.job?_set_self hcheck).symm.trans hfound)
      exact hunderWay.elim
    · rw [JobTable.job?_set_of_ne hother] at hfound
      have hlisted := hsound.listed other found hfound hunderWay
      have hsid : found.session.sid ≠ session.sid := by
        intro hsid
        rw [hsid] at hlisted
        exact hother (Option.some.inj (hlisted.symm.trans hnumber))
      exact (AList.lookup_erase_ne hsid).trans hlisted
  · intro sid other hlisted
    have hsid : sid ≠ session.sid := by
      rintro rfl
      rw [AList.lookup_erase] at hlisted
      contradiction
    rw [AList.lookup_erase_ne hsid] at hlisted
    obtain ⟨found, hfound, hfoundSid, hunderWay⟩ := hsound.underWay sid other hlisted
    have hother : other ≠ number := by
      rintro rfl
      obtain rfl := Option.some.inj (hcheck.symm.trans hfound)
      exact hsid hfoundSid.symm
    exact ⟨found, (JobTable.job?_set_of_ne hother).trans hfound, hfoundSid, hunderWay⟩
  · intro request waiting waited hrequest
    obtain ⟨found, hfound, hsession⟩ := hsound.waits request waiting waited hrequest
    by_cases hother : waited = number
    · subst hother
      obtain rfl := Option.some.inj (hcheck.symm.trans hfound)
      exact ⟨_, JobTable.job?_set_self hcheck, hsession⟩
    · exact ⟨found, (JobTable.job?_set_of_ne hother).trans hfound, hsession⟩

theorem move {server' : OwnerServer} {event : OwnerEvent} (hsound : server.SoundChecks)
    (hmove : OwnerMove T server event server') : server'.SoundChecks := by
  cases hmove with
  | idle => exact hsound
  | wait => exact ⟨hsound.signed, hsound.listed, hsound.underWay, hsound.waits⟩
  | creates hsid =>
      refine ⟨?_, hsound.listed, hsound.underWay, hsound.waits⟩
      intro number check hcheck
      exact List.mem_cons_of_mem _ (hsound.signed number check hcheck)
  | seen hsigned hseen =>
      refine ⟨hsound.signed, hsound.listed, hsound.underWay, ?_⟩
      intro request waiting waited hrequest
      rcases JobTable.job?_start.mp hrequest with ⟨-, hrequest⟩ | hrequest
      · injection hrequest with hsession hstanding
        contradiction
      · exact hsound.waits request waiting waited hrequest
  | joins hsigned hseen hchecks =>
      refine ⟨hsound.signed, hsound.listed, hsound.underWay, ?_⟩
      intro request waiting waited hrequest
      rcases JobTable.job?_start.mp hrequest with ⟨-, hrequest⟩ | hrequest
      · injection hrequest with hsession hstanding
        injection hstanding with hwaited
        subst hsession hwaited
        exact hsound.joins hsigned hchecks
      · exact hsound.waits request waiting waited hrequest
  | begins hsigned hseen hchecks => exact hsound.begins hsigned hchecks
  | hears hcheck hrunning hstage =>
      exact hsound.hears hcheck (CheckStage.underWay_of_answer?_eq_none hrunning)
        (CheckStage.underWay_of_answer?_eq_none hstage)
  | ends hcheck hrunning hended =>
      exact hsound.hears hcheck (CheckStage.underWay_of_answer?_eq_none hrunning) trivial
  | settles hcheck => exact hsound.settles hcheck

end SoundChecks

/-! ## What a check and a request keep -/

section Keeping

variable {server' : OwnerServer} {event : OwnerEvent} {check : OwnerCheck}
variable {request : OwnerRequest}

/-- A check keeps its session, its start and its answer. -/
theorem check_move (hmove : OwnerMove T server event server')
    (hcheck : server.checks.job? number = some check) :
    ∃ stage, server'.checks.job? number = some { check with stage := stage } ∧
      ∀ answer, check.stage.answer? = some answer → stage.answer? = some answer := by
  have hset : ∀ other before stage, server.checks.job? other = some before →
      (∀ answer, before.stage.answer? = some answer → stage.answer? = some answer) →
      ∃ stage', (server.checks.set other { before with stage := stage }).job? number =
          some { check with stage := stage' } ∧
        ∀ answer, check.stage.answer? = some answer → stage'.answer? = some answer := by
    intro other before stage hbefore hanswer
    by_cases hother : number = other
    · subst hother
      obtain rfl := Option.some.inj (hbefore.symm.trans hcheck)
      exact ⟨stage, JobTable.job?_set_self hbefore, hanswer⟩
    · exact ⟨check.stage, (JobTable.job?_set_of_ne hother).trans hcheck, fun _ h => h⟩
  have hrunning : ∀ {before : CheckStage} {stage : CheckStage}, before.answer? = none →
      ∀ answer, before.answer? = some answer → stage.answer? = some answer := by
    intro before stage hrunning answer hanswer
    rw [hrunning] at hanswer
    contradiction
  cases hmove with
  | begins =>
      exact ⟨check.stage, JobTable.job?_start.mpr (.inr hcheck), fun _ h => h⟩
  | hears hfound hnone hstage => exact hset _ _ _ hfound (hrunning hnone)
  | ends hfound hnone hended => exact hset _ _ _ hfound (hrunning hnone)
  | settles hfound => exact hset _ _ _ hfound (fun _ h => h)
  | _ => exact ⟨check.stage, hcheck, fun _ h => h⟩

/-- A check was there before, or a request for its session begins it. -/
theorem check_of_move (hmove : OwnerMove T server event server')
    (hcheck : server'.checks.job? number = some check) :
    (event = .asks check.session ∧ check.began = server.now ∧
        server.seen? check.session = none) ∨
      ∃ stage, server.checks.job? number = some { check with stage := stage } := by
  have hset : ∀ other before stage, server.checks.job? other = some before →
      (server.checks.set other { before with stage := stage }).job? number = some check →
      ∃ stage', server.checks.job? number = some { check with stage := stage' } := by
    intro other before stage hbefore hcheck
    by_cases hother : number = other
    · subst hother
      obtain rfl := Option.some.inj ((JobTable.job?_set_self hbefore).symm.trans hcheck)
      exact ⟨before.stage, hbefore⟩
    · rw [JobTable.job?_set_of_ne hother] at hcheck
      exact ⟨check.stage, hcheck⟩
  cases hmove with
  | begins hsigned hseen hchecks =>
      rcases JobTable.job?_start.mp hcheck with ⟨-, rfl⟩ | hcheck
      · exact .inl ⟨rfl, rfl, hseen⟩
      · exact .inr ⟨check.stage, hcheck⟩
  | hears hfound hnone hstage => exact .inr (hset _ _ _ hfound hcheck)
  | ends hfound hnone hended => exact .inr (hset _ _ _ hfound hcheck)
  | settles hfound => exact .inr (hset _ ⟨_, _, .ended _⟩ _ hfound hcheck)
  | _ => exact .inr ⟨check.stage, hcheck⟩

/-- A request was there before, or it asks now, of what is remembered or of a check. -/
theorem request_of_move (hmove : OwnerMove T server event server')
    (hrequest : server'.requests.job? number = some request) :
    server.requests.job? number = some request ∨
      event = .asks request.session ∧ request.session ∈ server.sessions.signed ∧
        ((∃ seen, server.seen? request.session = some seen ∧
            request.standing = .seen seen.owner) ∨
          server.seen? request.session = none ∧ ∃ check, request.standing = .waits check ∧
            server'.ownerChecks.lookup request.session.sid = some check) := by
  cases hmove with
  | seen hsigned hseen =>
      rcases JobTable.job?_start.mp hrequest with ⟨-, rfl⟩ | hrequest
      · exact .inr ⟨rfl, hsigned, .inl ⟨_, hseen, rfl⟩⟩
      · exact .inl hrequest
  | joins hsigned hseen hchecks =>
      rcases JobTable.job?_start.mp hrequest with ⟨-, rfl⟩ | hrequest
      · exact .inr ⟨rfl, hsigned, .inr ⟨hseen, _, rfl, hchecks⟩⟩
      · exact .inl hrequest
  | begins hsigned hseen hchecks =>
      rcases JobTable.job?_start.mp hrequest with ⟨-, rfl⟩ | hrequest
      · exact .inr ⟨rfl, hsigned, .inr ⟨hseen, _, rfl, AList.lookup_insert _⟩⟩
      · exact .inl hrequest
  | _ => exact .inl hrequest

theorem request_move (hmove : OwnerMove T server event server')
    (hrequest : server.requests.job? number = some request) :
    server'.requests.job? number = some request := by
  cases hmove with
  | seen => exact JobTable.job?_start.mpr (.inr hrequest)
  | joins => exact JobTable.job?_start.mpr (.inr hrequest)
  | begins => exact JobTable.job?_start.mpr (.inr hrequest)
  | _ => exact hrequest

theorem signed_move (hmove : OwnerMove T server event server')
    (hsigned : session ∈ server.sessions.signed) : session ∈ server'.sessions.signed := by
  cases hmove with
  | creates => exact List.mem_cons_of_mem _ hsigned
  | _ => exact hsigned

theorem answer?_move (hmove : OwnerMove T server event server') {answer : CheckAnswer}
    (hanswer : server.answer? number = some answer) :
    server'.answer? number = some answer := by
  obtain ⟨check, hcheck, hanswer⟩ := Option.bind_eq_some_iff.mp hanswer
  obtain ⟨stage, hstage, hkept⟩ := check_move hmove hcheck
  exact Option.bind_eq_some_iff.mpr ⟨_, hstage, hkept answer hanswer⟩

end Keeping

variable {earlier : SignedSessions} {events : ℕ → OwnerEvent} {n m : ℕ}

theorem after_succ (n : ℕ) : after T earlier events (n + 1) =
    (after T earlier events n).next T (events n) := rfl

theorem soundChecks_after (n : ℕ) : (after T earlier events n).SoundChecks := by
  induction n with
  | zero => exact ⟨nofun, nofun, nofun, nofun⟩
  | succ n ih => exact ih.move (move_next (events n))

end OwnerServer

end Sdk

end VeraKey
