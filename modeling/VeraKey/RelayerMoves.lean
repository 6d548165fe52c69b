/-
What one event can do to the relayer: the moves of a request, each from one stage to a later
one.
-/
import VeraKey.Relayer

namespace VeraKey

open ByteCodec

namespace Relay

/-! ## Stages -/

namespace RelayStage

/-- What is sent, once it is known what limits apply. -/
def plan? : RelayStage → Option SendPlan
  | .jitter plan => some plan
  | .simulating plan => some plan
  | .queued plan => some plan
  | .estimating plan => some plan
  | .sending plan => some plan
  | _ => none

/-- A request only goes to later stages. -/
def rank : RelayStage → ℕ
  | .code => 0
  | .accountAddress => 0
  | .config => 1
  | .deployed _ => 1
  | .protections => 2
  | .treasury => 2
  | .pendingChanges => 3
  | .policy => 4
  | .jitter _ => 5
  | .simulating _ => 6
  | .queued _ => 7
  | .estimating _ => 8
  | .sending _ => 9
  | .sent _ => 10
  | .done _ => 11

variable {stage : RelayStage} {revert : Option Bytes} {thrown : Thrown}

theorem rank_le (stage : RelayStage) : stage.rank ≤ 11 := by
  cases stage <;> simp [rank]

/-- No call is left once the hash is there. -/
theorem rank_of_failure? (hfailure : stage.failure? revert = some thrown) : stage.rank < 10 := by
  cases stage with
  | sent hash => contradiction
  | done response => contradiction
  | _ => simp [rank]

theorem status_of_failure? (hfailure : stage.failure? revert = some thrown) :
    thrown.status ≠ 429 := by
  cases stage <;> cases revert <;>
    simp only [failure?, Option.some.injEq, reduceCtorEq] at hfailure <;>
    subst hfailure <;> simp [Thrown.status, relayError, failure?.simulationReverted]

end RelayStage

/-! ## One event -/

/-- What an event can do. -/
inductive RelayerMove (config : RelayerConfig) (server : Relayer) : RelayerEvent → Relayer → Prop
  | idle {event} : RelayerMove config server event server
  | wait {ms} : RelayerMove config server (.wait ms) { server with now := server.now + ms }
  | arrives {event perAccount faucetPerIp job}
      (hevent : ∀ number answer, event ≠ .step number answer)
      (hstage : job.stage = .code ∨ job.stage = .accountAddress ∨
        ∃ thrown, job.stage = .done (.failed thrown)) :
      RelayerMove config server event
        { server with
          perAccount := perAccount
          faucetPerIp := faucetPerIp
          jobs := server.jobs.start job }
  | goesOn {number answer job stage} (hjob : server.jobs.job? number = some job)
      (hrank : job.stage.rank < stage.rank) (hsent : ∀ hash, job.stage ≠ .sent hash)
      (hbusy : ({ job with stage := stage } : RelayJob).busy? = job.busy?)
      (hgranting : ({ job with stage := stage } : RelayJob).granting? = job.granting?)
      (hplan : ∀ plan, job.stage.plan? = some plan → stage.plan? = some plan)
      (hdone : ∀ thrown, stage ≠ .done (.failed thrown)) :
      RelayerMove config server (.step number answer) (server.goOn number job stage)
  | reserves {number factory call} (hjob : server.jobs.job? number = some ⟨.relay call, .config⟩)
      (hfree : call.busy ∉ server.inFlight) :
      RelayerMove config server (.step number (.config factory))
        { server.goOn number ⟨.relay call, .config⟩ (call.afterReserve config) with
          inFlight := insert call.busy server.inFlight }
  | grants {number factory account stage}
      (hjob : server.jobs.job? number = some ⟨.faucet account, .config⟩)
      (hfree : Sdk.toLowerCase account ∉ server.funded ∧
        Sdk.toLowerCase account ∉ server.granting)
      (hstage : stage = .simulating .grant ∨ stage = .treasury) :
      RelayerMove config server (.step number (.config factory))
        { server.goOn number ⟨.faucet account, .config⟩ stage with
          granting := insert (Sdk.toLowerCase account) server.granting }
  | queues {number task plan}
      (hjob : server.jobs.job? number = some ⟨task, .simulating plan⟩) :
      RelayerMove config server (.step number .simulated)
        { server.goOn number ⟨task, .simulating plan⟩ (.queued plan) with
          sendLock := server.sendLock ++ [number] }
  | limited {number task plan gas limit daily}
      (hjob : server.jobs.job? number = some ⟨task, .estimating plan⟩) (hgas : gas ≤ maxGas)
      (hrefused : server.daily.takeAll server.now (plan.charges config server.now gas) =
        (some limit, daily)) :
      RelayerMove config server (.step number (.gas gas))
        ({ server with daily := daily }.fail number ⟨task, .estimating plan⟩ limit.refusal)
  | hands {number task plan gas daily}
      (hjob : server.jobs.job? number = some ⟨task, .estimating plan⟩) (hgas : gas ≤ maxGas)
      (hgranted : server.daily.takeAll server.now (plan.charges config server.now gas) =
        (none, daily)) :
      RelayerMove config server (.step number (.gas gas))
        { server.goOn number ⟨task, .estimating plan⟩ (.sending plan) with
          daily := daily
          handed := ⟨number, plan, gas, server.now⟩ :: server.handed }
  | returns {number call plan hash written}
      (hjob : server.jobs.job? number = some ⟨.relay call, .sending plan⟩) :
      RelayerMove config server (.step number (.hash hash written))
        { server.goOn number ⟨.relay call, .sending plan⟩ (.sent hash) with
          sendLock := server.sendLock.erase number }
  | creates {number appId nullifier ip visitor account hash written}
      (hjob : server.jobs.job? number =
        some ⟨.createAccount appId nullifier ip, .sending (.newAccount visitor account)⟩) :
      RelayerMove config server (.step number (.hash hash written))
        { server.goOn number
            ⟨.createAccount appId nullifier ip, .sending (.newAccount visitor account)⟩
            (.done (.account (some hash) account)) with
          sendLock := server.sendLock.erase number }
  | pays {number account plan hash written}
      (hjob : server.jobs.job? number = some ⟨.faucet account, .sending plan⟩) :
      RelayerMove config server (.step number (.hash hash written))
        (server.finish number ⟨.faucet account, .sending plan⟩ plan hash written)
  | settles {number task hash}
      (hjob : server.jobs.job? number = some ⟨task, .sent hash⟩) :
      RelayerMove config server (.step number .receipt)
        (server.settle number ⟨task, .sent hash⟩ hash)
  | fails {number answer job thrown} (hjob : server.jobs.job? number = some job)
      (hrank : job.stage.rank < 10) (hthrown : thrown.status ≠ 429) :
      RelayerMove config server (.step number answer) (server.fail number job thrown)

namespace Relayer

variable {config : RelayerConfig} {server : Relayer} {number : ℕ} {job : RelayJob}
variable {task : Task}

theorem move_readCode {code : Option Bytes}
    (hjob : server.jobs.job? number = some ⟨task, .code⟩) :
    RelayerMove config server (.step number (.code code))
      (server.readCode config number ⟨task, .code⟩ code) := by
  rw [readCode]
  split
  · exact .fails hjob (by decide : 0 < 10) (by decide)
  · split
    · refine .goesOn hjob (by decide : 0 < 1) nofun ?_ ?_ nofun nofun
      · cases task <;> rfl
      · cases task <;> rfl
    · exact .fails hjob (by decide : 0 < 10) (by decide)

theorem move_readConfig {factory : Bytes}
    (hjob : server.jobs.job? number = some ⟨task, .config⟩) :
    RelayerMove config server (.step number (.config factory))
      (server.readConfig config number ⟨task, .config⟩ factory) := by
  rw [readConfig]
  split
  · exact .fails hjob (by decide : 1 < 10) (by decide)
  · cases task with
    | relay call =>
        dsimp only
        rw [reserve]
        split
        · exact .fails hjob (by decide : 1 < 10) (by decide)
        · next hfree => exact .reserves hjob hfree
    | faucet account =>
        dsimp only
        rw [grant]
        dsimp only
        split
        · exact .fails hjob (by decide : 1 < 10) (by decide)
        · next hfree =>
            apply RelayerMove.grants hjob (not_or.mp hfree)
            split
            · exact .inl rfl
            · exact .inr rfl
    | _ => exact .idle

theorem move_beforeSend {plan : SendPlan} {gas : ℕ}
    (hjob : server.jobs.job? number = some ⟨task, .estimating plan⟩) :
    RelayerMove config server (.step number (.gas gas))
      (server.beforeSend config number ⟨task, .estimating plan⟩ plan gas) := by
  rw [beforeSend]
  split
  · exact .fails hjob (by decide : 8 < 10) (by decide)
  · next hgas =>
      split
      · next limit daily hrefused => exact .limited hjob (Nat.le_of_not_lt hgas) hrefused
      · next daily hgranted => exact .hands hjob (Nat.le_of_not_lt hgas) hgranted

theorem move_finish {plan : SendPlan} {hash : Bytes} {written : Bool}
    (hjob : server.jobs.job? number = some ⟨task, .sending plan⟩) :
    RelayerMove config server (.step number (.hash hash written))
      (server.finish number ⟨task, .sending plan⟩ plan hash written) := by
  cases task with
  | relay call => exact .returns hjob
  | createAccount appId nullifier ip =>
      cases plan with
      | newAccount visitor account => exact .creates hjob
      | _ => exact .idle
  | faucet account => exact .pays hjob
  | refused => exact .idle

/-- A relayed action goes on while its account is reserved. -/
theorem move_reserved {call : RelayCall} {before stage : RelayStage} {answer : RelayAnswer}
    (hjob : server.jobs.job? number = some ⟨.relay call, before⟩)
    (hbefore : before.reserved = true) (hplan : before.plan? = none)
    (hsent : ∀ hash, before ≠ .sent hash) (hrank : before.rank < stage.rank)
    (hstage : stage.rank < 10) (hreserved : stage.reserved = true) :
    RelayerMove config server (.step number answer)
      (server.goOn number ⟨.relay call, before⟩ stage) := by
  refine .goesOn hjob hrank hsent ?_ rfl ?_ ?_
  · rw [RelayJob.busy?, RelayJob.busy?, hbefore]
    dsimp only
    rw [hreserved]
  · intro plan hsome
    exact absurd (hplan.symm.trans hsome) nofun
  · rintro thrown rfl
    exact absurd hstage (by decide : ¬ 11 < 10)

theorem afterDefends_stage (config : RelayerConfig) (call : RelayCall) (defends : Bool) :
    (call.afterDefends config defends).reserved = true ∧
      3 < (call.afterDefends config defends).rank ∧
      (call.afterDefends config defends).rank < 10 := by
  rw [RelayCall.afterDefends, RelayCall.submit, RelayCall.submit]
  split
  · split <;> exact ⟨rfl, by decide, by decide⟩
  · split
    · exact ⟨rfl, by decide, by decide⟩
    · split <;> exact ⟨rfl, by decide, by decide⟩

theorem afterReserve_stage (config : RelayerConfig) (call : RelayCall) :
    (call.afterReserve config).reserved = true ∧ 1 < (call.afterReserve config).rank ∧
      (call.afterReserve config).rank < 10 := by
  have hdefends : ∀ defends, (call.afterDefends config defends).reserved = true ∧
      1 < (call.afterDefends config defends).rank ∧
      (call.afterDefends config defends).rank < 10 := by
    intro defends
    obtain ⟨hreserved, hafter, hbefore⟩ := afterDefends_stage config call defends
    exact ⟨hreserved, Nat.lt_of_lt_of_le (by decide) hafter, hbefore⟩
  rw [RelayCall.afterReserve]
  split
  · exact hdefends true
  · split
    · exact ⟨rfl, by decide, by decide⟩
    · exact hdefends false

theorem afterPolicy_stage (config : RelayerConfig) (call : RelayCall) (cap spent : ℕ) :
    (call.afterPolicy config cap spent).reserved = true ∧
      4 < (call.afterPolicy config cap spent).rank ∧
      (call.afterPolicy config cap spent).rank < 10 := by
  rw [RelayCall.afterPolicy, RelayCall.submit]
  split
  · exact ⟨rfl, (by decide : 4 < 5), (by decide : 5 < 10)⟩
  · exact ⟨rfl, (by decide : 4 < 6), (by decide : 6 < 10)⟩

theorem move_step (answer : RelayAnswer) (hjob : server.jobs.job? number = some job) :
    RelayerMove config server (.step number answer) (server.step config number job answer) := by
  obtain ⟨task, stage⟩ := job
  unfold step
  dsimp only
  split
  · exact move_readCode hjob
  · exact move_readConfig hjob
  · next call frozen =>
      cases frozen with
      | true =>
          exact move_reserved hjob rfl rfl nofun (by decide : 2 < 3) (by decide : 3 < 10) rfl
      | false =>
          obtain ⟨hreserved, hafter, hbefore⟩ := afterDefends_stage config call true
          exact move_reserved hjob rfl rfl nofun (Nat.lt_of_succ_lt hafter) hbefore hreserved
  · next call ids =>
      obtain ⟨hreserved, hafter, hbefore⟩ := afterDefends_stage config call (ids.any (· ≠ 0))
      exact move_reserved hjob rfl rfl nofun hafter hbefore hreserved
  · next call cap spent =>
      obtain ⟨hreserved, hafter, hbefore⟩ := afterPolicy_stage config call cap spent
      exact move_reserved hjob rfl rfl nofun hafter hbefore hreserved
  · exact .goesOn hjob (by decide : 5 < 6) nofun rfl rfl (fun _ h => h) nofun
  · refine .goesOn hjob (by decide : 0 < 1) nofun ?_ ?_ nofun nofun
    · cases task <;> rfl
    · cases task <;> rfl
  · next appId nullifier ip account code =>
      split
      · exact .goesOn hjob (by decide : 1 < 11) nofun rfl rfl nofun nofun
      · exact .goesOn hjob (by decide : 1 < 6) nofun rfl rfl nofun nofun
  · next treasury =>
      split
      · exact .fails hjob (by decide : 2 < 10) (by decide)
      · exact .goesOn hjob (by decide : 2 < 6) nofun rfl rfl nofun nofun
  · exact .queues hjob
  · split
    · refine .goesOn hjob (by decide : 7 < 8) nofun ?_ ?_ (fun _ h => h) nofun
      · cases task <;> rfl
      · cases task <;> rfl
    · exact .idle
  · exact move_beforeSend hjob
  · exact move_finish hjob
  · exact .settles hjob
  · next revert =>
      split
      · next thrown hfailure =>
          exact .fails hjob (RelayStage.rank_of_failure? hfailure)
            (RelayStage.status_of_failure? hfailure)
      · exact .idle
  · exact .idle

theorem move_start {event : RelayerEvent} (perAccount faucetPerIp : RateLimiter Bytes)
    (started : Except Thrown Task) (hevent : ∀ number answer, event ≠ .step number answer) :
    RelayerMove config server event
      ({ server with perAccount := perAccount, faucetPerIp := faucetPerIp }.start started) := by
  apply RelayerMove.arrives hevent
  cases started with
  | error thrown => exact .inr (.inr ⟨thrown, rfl⟩)
  | ok task =>
      cases task with
      | createAccount appId nullifier ip => exact .inr (.inl rfl)
      | _ => exact .inl rfl

theorem move_next (event : RelayerEvent) :
    RelayerMove config server event (server.next config event) := by
  cases event with
  | relay body => exact move_start _ server.faucetPerIp _ nofun
  | createAccount appId nullifier ip => exact move_start _ server.faucetPerIp _ nofun
  | faucet account ip => exact move_start server.perAccount _ _ nofun
  | step number answer =>
      rw [next]
      split
      · next job hjob => exact move_step answer hjob
      · exact .idle
  | wait ms => exact .wait

/-- Only its own events move a request, to a later stage. -/
theorem job_move {server' : Relayer} {event : RelayerEvent}
    (hmove : RelayerMove config server event server')
    (hjob : server.jobs.job? number = some job) :
    server'.jobs.job? number = some job ∨
      ∃ stage answer, event = .step number answer ∧ job.stage.rank < stage.rank ∧
        server'.jobs.job? number = some { job with stage := stage } := by
  have hset : ∀ {other : ℕ} {found : RelayJob} {stage : RelayStage} {answer : RelayAnswer},
      server.jobs.job? other = some found → found.stage.rank < stage.rank →
      (server.jobs.set other { found with stage := stage }).job? number = some job ∨
        ∃ stage' answer', RelayerEvent.step other answer = .step number answer' ∧
          job.stage.rank < stage'.rank ∧
          (server.jobs.set other { found with stage := stage }).job? number =
            some { job with stage := stage' } := by
    intro other found stage answer hfound hrank
    by_cases hother : number = other
    · subst hother
      obtain rfl := Option.some.inj (hjob.symm.trans hfound)
      exact .inr ⟨stage, answer, rfl, hrank, JobTable.job?_set_self hjob⟩
    · exact .inl ((JobTable.job?_set_of_ne hother).trans hjob)
  cases hmove with
  | idle => exact .inl hjob
  | wait => exact .inl hjob
  | arrives => exact .inl (JobTable.job?_start.mpr (.inr hjob))
  | goesOn hfound hrank => exact hset hfound hrank
  | @reserves other factory call hfound =>
      exact hset hfound (afterReserve_stage config call).2.1
  | grants hfound hfree hstage =>
      apply hset hfound
      rcases hstage with rfl | rfl
      · exact (by decide : 1 < 6)
      · exact (by decide : 1 < 2)
  | queues hfound => exact hset hfound (by decide : 6 < 7)
  | limited hfound => exact hset hfound (by decide : 8 < 11)
  | hands hfound => exact hset hfound (by decide : 8 < 9)
  | returns hfound => exact hset hfound (by decide : 9 < 10)
  | creates hfound => exact hset hfound (by decide : 9 < 11)
  | pays hfound => exact hset hfound (by decide : 9 < 11)
  | settles hfound => exact hset hfound (by decide : 10 < 11)
  | fails hfound hrank => exact hset hfound (Nat.lt_succ_of_lt hrank)

/-- A request that is over stays so. -/
theorem done_move {server' : Relayer} {event : RelayerEvent} {response : Response}
    (hmove : RelayerMove config server event server')
    (hjob : server.jobs.job? number = some ⟨task, .done response⟩) :
    server'.jobs.job? number = some ⟨task, .done response⟩ := by
  rcases job_move hmove hjob with hsame | ⟨stage, answer, -, hrank, -⟩
  · exact hsame
  · exact absurd hrank (Nat.not_lt_of_le stage.rank_le)

variable {file : Finset Bytes} {events : ℕ → RelayerEvent}

theorem after_succ (n : ℕ) : after config file events (n + 1) =
    (after config file events n).next config (events n) := rfl

theorem done_mono {n m : ℕ} {response : Response} (hle : n ≤ m)
    (hjob : (after config file events n).jobs.job? number = some ⟨task, .done response⟩) :
    (after config file events m).jobs.job? number = some ⟨task, .done response⟩ := by
  induction m, hle using Nat.le_induction with
  | base => exact hjob
  | succ m hle ih => exact done_move (move_next (events m)) ih

/-! ## Keys that requests hold -/

/-- The key that a request holds, by its stage. -/
def holder (held : RelayJob → Option Bytes) (server : Relayer) (number : ℕ) : Option Bytes :=
  (server.jobs.job? number).bind held

variable {held : RelayJob → Option Bytes} {server' : Relayer}

theorem holder_of_job (hjob : server.jobs.job? number = some job) :
    holder held server number = held job := by
  rw [holder, hjob, Option.bind_some]

/-- The keys after a request has gone to another stage. -/
theorem holder_set {stage : RelayStage} (hjob : server.jobs.job? number = some job)
    (hjobs : server'.jobs = server.jobs.set number { job with stage := stage }) :
    holder held server' =
      Function.update (holder held server) number (held { job with stage := stage }) := by
  funext other
  rw [holder, hjobs]
  by_cases hother : other = number
  · subst hother
    rw [Function.update_self, JobTable.job?_set_self hjob]
    rfl
  · rw [Function.update_of_ne hother, JobTable.job?_set_of_ne hother]
    rfl

/-- A request that starts holds nothing. -/
theorem holder_start (hjobs : server'.jobs = server.jobs.start job) (hnone : held job = none) :
    holder held server' = holder held server := by
  funext other
  rw [holder, hjobs]
  by_cases hother : other = server.jobs.started
  · subst hother
    rw [holder, JobTable.job?_start.mpr (.inl ⟨rfl, rfl⟩), server.jobs.unnumbered _ le_rfl]
    exact hnone
  · rw [JobTable.job?_start_of_ne hother]
    rfl

end Relayer

end Relay

end VeraKey
