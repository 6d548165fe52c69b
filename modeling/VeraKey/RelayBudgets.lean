/-
What the relayer's budgets bound: the gas of all it sends, except what defends an account,
within each window of its counter.
-/
import VeraKey.RelayOnce

namespace VeraKey

open ByteCodec

namespace Relay

/-! ## The charges of a request -/

namespace DailyLimits

variable {limits : DailyLimits} {now : ℤ} {charge : Charge} {charges : List Charge}
variable {limit : DailyLimit}

theorem ext {limits limits' : DailyLimits}
    (hsame : ∀ limit, limits.limiter limit = limits'.limiter limit) : limits = limits' := by
  obtain ⟨limiter, hwindow⟩ := limits
  obtain ⟨limiter', hwindow'⟩ := limits'
  obtain rfl : limiter = limiter' := funext hsame
  rfl

theorem limiter_take_self : (limits.take now charge).limiter charge.limit =
    ((limits.limiter charge.limit).take now charge.key charge.weight).2 :=
  Function.update_self _ _ _

theorem limiter_take_of_ne (limits : DailyLimits) (now : ℤ) (hlimit : limit ≠ charge.limit) :
    (limits.take now charge).limiter limit = limits.limiter limit :=
  Function.update_of_ne hlimit _ _

/-- A charge that is refused takes nothing. -/
theorem take_of_refused (hrefused : limits.grants now charge = false) :
    limits.take now charge = limits := by
  apply ext
  intro limit
  by_cases hlimit : limit = charge.limit
  · rw [hlimit, limiter_take_self, RateLimiter.take_snd_of_refused hrefused]
  · exact limits.limiter_take_of_ne now hlimit

theorem takeAll_cons (limits : DailyLimits) (now : ℤ) (charge : Charge)
    (charges : List Charge) : limits.takeAll now (charge :: charges) =
      if limits.grants now charge then (limits.take now charge).takeAll now charges
      else (some charge.limit, limits.take now charge) := rfl

/-- The limits that no charge names stay as they are. -/
theorem limiter_takeAll_of_ne (limits : DailyLimits) (now : ℤ)
    (hlimit : ∀ charge ∈ charges, limit ≠ charge.limit) :
    (limits.takeAll now charges).2.limiter limit = limits.limiter limit := by
  induction charges generalizing limits with
  | nil => rfl
  | cons charge charges ih =>
      have hrest := limiter_take_of_ne limits now (hlimit charge List.mem_cons_self)
      rw [takeAll_cons]
      split
      · rw [ih _ fun other hother => hlimit other (List.mem_cons_of_mem charge hother), hrest]
      · exact hrest

/-- The last charge is asked for when all others are granted. -/
theorem takeAll_concat (limits : DailyLimits) :
    limits.takeAll now (charges ++ [charge]) =
      match limits.takeAll now charges with
      | (some refused, limits') => (some refused, limits')
      | (none, limits') =>
          if limits'.grants now charge then (none, limits'.take now charge)
          else (some charge.limit, limits'.take now charge) := by
  induction charges generalizing limits with
  | nil => rfl
  | cons first charges ih =>
      rw [List.cons_append, takeAll_cons, takeAll_cons]
      split
      · exact ih (limits.take now first)
      · rfl

end DailyLimits

/-- The gas comes last, after limits that count requests. -/
theorem SendPlan.charges_eq (config : RelayerConfig) (now : ℤ) (gas : ℕ) {plan : SendPlan}
    (hplan : plan ≠ .defends) :
    ∃ front, plan.charges config now gas = front ++ [⟨.gasPerDay, ascii "all", gas⟩] ∧
      ∀ charge ∈ front, DailyLimit.gasPerDay ≠ charge.limit := by
  cases plan with
  | defends => exact absurd rfl hplan
  | waived busy => exact ⟨[_], rfl, by simp⟩
  | paid => exact ⟨[], rfl, nofun⟩
  | newAccount ip account => exact ⟨[_, _], rfl, by simp⟩
  | grant => exact ⟨[_], rfl, by simp⟩

namespace Relayer

variable {config : RelayerConfig} {server server' : Relayer} {event : RelayerEvent}
variable {file : Finset Bytes} {events : ℕ → RelayerEvent} {n m k number : ℕ}

/-! ## The gas of a window -/

/-- The gas of what was handed to the wallet from `start` to before `ending`, except what
defends an account. -/
def gasSpent (server : Relayer) (start ending : ℤ) : ℚ :=
  ((server.handed.filter fun sent =>
    sent.plan ≠ .defends ∧ start ≤ sent.time ∧ sent.time < ending).map
      fun sent => (sent.gas : ℚ)).sum

/-- The grants of `gasPerDay` are what was handed to the wallet. -/
structure Spends (config : RelayerConfig) (server : Relayer) (granted : List (Grant Bytes)) :
    Prop where
  accounts : (server.daily.limiter .gasPerDay).Accounts granted server.now
  limit_eq : (server.daily.limiter .gasPerDay).limit = config.limit .gasPerDay
  handed_eq : granted.map (fun grant => (grant.key, grant.weight, grant.time)) =
    (server.handed.filter (·.plan ≠ .defends)).map fun sent =>
      (ascii "all", (sent.gas : ℚ), sent.time)

theorem limited_gas {plan : SendPlan} {gas : ℕ} {limit : DailyLimit} {daily : DailyLimits}
    (hrefused : server.daily.takeAll server.now (plan.charges config server.now gas) =
      (some limit, daily)) :
    daily.limiter .gasPerDay = server.daily.limiter .gasPerDay := by
  by_cases hplan : plan = .defends
  · rw [hplan] at hrefused
    exact absurd (Prod.mk.inj hrefused).1 nofun
  · obtain ⟨front, hcharges, hfront⟩ := SendPlan.charges_eq config server.now gas hplan
    have hkept := DailyLimits.limiter_takeAll_of_ne server.daily server.now hfront
    rw [hcharges, DailyLimits.takeAll_concat] at hrefused
    split at hrefused
    · next refused daily' htaken =>
        obtain ⟨-, rfl⟩ := Prod.mk.inj hrefused
        rwa [htaken] at hkept
    · next daily' htaken =>
        rw [htaken] at hkept
        split at hrefused
        · exact absurd (Prod.mk.inj hrefused).1 nofun
        · next hgas =>
            obtain ⟨-, rfl⟩ := Prod.mk.inj hrefused
            rwa [DailyLimits.take_of_refused (Bool.eq_false_iff.mpr hgas)]

/-- What is handed to the wallet is granted its gas. -/
theorem handed_gas {plan : SendPlan} {gas : ℕ} {daily : DailyLimits}
    (hgranted : server.daily.takeAll server.now (plan.charges config server.now gas) =
      (none, daily)) :
    (plan = .defends ∧ daily = server.daily) ∨ plan ≠ .defends ∧
      ((server.daily.limiter .gasPerDay).take server.now (ascii "all") gas).1 = true ∧
      daily.limiter .gasPerDay =
        ((server.daily.limiter .gasPerDay).take server.now (ascii "all") gas).2 := by
  by_cases hplan : plan = .defends
  · rw [hplan] at hgranted
    exact .inl ⟨hplan, (Prod.mk.inj hgranted).2.symm⟩
  · obtain ⟨front, hcharges, hfront⟩ := SendPlan.charges_eq config server.now gas hplan
    have hkept := DailyLimits.limiter_takeAll_of_ne server.daily server.now hfront
    rw [hcharges, DailyLimits.takeAll_concat] at hgranted
    split at hgranted
    · exact absurd (Prod.mk.inj hgranted).1 nofun
    · next daily' htaken =>
        rw [htaken] at hkept
        split at hgranted
        · next hgas =>
            obtain ⟨-, rfl⟩ := Prod.mk.inj hgranted
            rw [DailyLimits.grants, hkept] at hgas
            refine .inr ⟨hplan, hgas, ?_⟩
            rw [← hkept]
            exact DailyLimits.limiter_take_self
        · exact absurd (Prod.mk.inj hgranted).1 nofun

namespace Spends

variable {granted : List (Grant Bytes)}

theorem same (hspends : Spends config server granted) (hnow : server.now ≤ server'.now)
    (hgas : server'.daily.limiter .gasPerDay = server.daily.limiter .gasPerDay)
    (hhanded : server'.handed = server.handed) : Spends config server' granted where
  accounts := by
    rw [hgas]
    exact hspends.accounts.wait hnow
  limit_eq := by
    rw [hgas]
    exact hspends.limit_eq
  handed_eq := by
    rw [hhanded]
    exact hspends.handed_eq

/-- What is granted stays granted. -/
theorem move (hspends : Spends config server granted)
    (hmove : RelayerMove config server event server') :
    ∃ granted', Spends config server' granted' ∧ ∀ grant ∈ granted, grant ∈ granted' := by
  cases hmove with
  | wait =>
      refine ⟨granted, hspends.same ?_ rfl rfl, fun _ hgrant => hgrant⟩
      exact Int.le_add_of_nonneg_right (Int.natCast_nonneg _)
  | limited hjob hgas hrefused =>
      exact ⟨granted, hspends.same le_rfl (limited_gas hrefused) rfl, fun _ hgrant => hgrant⟩
  | @hands number task plan gas daily hjob hgas hgranted =>
      rcases handed_gas hgranted with ⟨rfl, rfl⟩ | ⟨hplan, hgrants, hdaily⟩
      · refine ⟨granted, ⟨hspends.accounts, hspends.limit_eq, ?_⟩, fun _ hgrant => hgrant⟩
        exact hspends.handed_eq
      · have hpos : 0 < (server.daily.limiter .gasPerDay).windowMs := by
          rw [server.daily.windowMs_eq]
          decide
        obtain ⟨start, haccounts⟩ := hspends.accounts.take hpos hgrants
        refine ⟨⟨ascii "all", gas, server.now, start⟩ :: granted, ⟨?_, ?_, ?_⟩,
          fun _ hgrant => List.mem_cons_of_mem _ hgrant⟩
        · rw [hdaily]
          exact haccounts
        · rw [hdaily, RateLimiter.limit_take]
          exact hspends.limit_eq
        · rw [List.map_cons, hspends.handed_eq]
          simp [hplan]
  | _ => exact ⟨granted, hspends.same le_rfl rfl rfl, fun _ hgrant => hgrant⟩

/-- What was granted in an interval is the gas that was spent in it. -/
theorem gasSpent_eq (hspends : Spends config server granted) (start ending : ℤ) :
    server.gasSpent start ending =
      RateLimiter.grantedIn granted (ascii "all") start ending := by
  have hgranted : RateLimiter.grantedIn granted (ascii "all") start ending =
      (((granted.map fun grant => (grant.key, grant.weight, grant.time)).filter fun entry =>
        entry.1 = ascii "all" ∧ start ≤ entry.2.2 ∧ entry.2.2 < ending).map
          fun entry => entry.2.1).sum := by
    rw [List.filter_map, List.map_map]
    rfl
  rw [hgranted, hspends.handed_eq, List.filter_map, List.map_map, List.filter_filter, gasSpent]
  congr 2
  apply List.filter_congr
  intro sent hsent
  simp [Bool.and_comm]

end Spends

theorem spends_after (n : ℕ) :
    ∃ granted, Spends config (after config file events n) granted := by
  induction n with
  | zero => exact ⟨[], RateLimiter.Accounts.fresh, rfl, rfl⟩
  | succ n ih =>
      obtain ⟨granted, hspends⟩ := ih
      obtain ⟨granted', hspends', -⟩ := hspends.move (move_next (events n))
      exact ⟨granted', hspends'⟩

/-- A window of `gasPerDay` bounds what is spent while it lasts, also later. -/
theorem gasSpent_le {window : RateWindow} (hle : n ≤ m)
    (hwindow : ((after config file events n).daily.limiter .gasPerDay).windows.lookup
      (ascii "all") = some window) :
    (after config file events m).gasSpent window.start (window.start + dayMs) ≤
      config.limit .gasPerDay := by
  obtain ⟨granted, hspends⟩ := @spends_after config file events n
  obtain ⟨-, opening, hopening, hkey, hstart⟩ := hspends.accounts.current _ window hwindow
  have hlater : ∃ granted, Spends config (after config file events m) granted ∧
      opening ∈ granted := by
    induction m, hle using Nat.le_induction with
    | base => exact ⟨granted, hspends, hopening⟩
    | succ m hle ih =>
        obtain ⟨granted, hspends, hmem⟩ := ih
        obtain ⟨granted', hspends', hkept⟩ := hspends.move (move_next (events m))
        exact ⟨granted', hspends', hkept opening hmem⟩
  obtain ⟨granted', hspends', hmem⟩ := hlater
  have hbound := hspends'.accounts.grantedIn_le hmem
  rw [DailyLimits.windowMs_eq, hspends'.limit_eq, hkey, hstart] at hbound
  rwa [hspends'.gasSpent_eq]

theorem handed_move (hmove : RelayerMove config server event server') :
    server'.handed = server.handed ∨
      ∃ sent, server'.handed = sent :: server.handed ∧ sent.time = server'.now := by
  cases hmove with
  | hands => exact .inr ⟨_, rfl, rfl⟩
  | _ => exact .inl rfl

/-- Everything counts in some window. -/
theorem exists_window_of_handed {sent : Handed}
    (hsent : sent ∈ (after config file events n).handed) (hplan : sent.plan ≠ .defends) :
    ∃ k ≤ n, ∃ window,
      ((after config file events k).daily.limiter .gasPerDay).windows.lookup (ascii "all") =
        some window ∧ window.start ≤ sent.time ∧ sent.time < window.start + dayMs := by
  induction n with
  | zero => exact absurd hsent List.not_mem_nil
  | succ n ih =>
      by_cases hold : sent ∈ (after config file events n).handed
      · obtain ⟨k, hk, hwindow⟩ := ih hold
        exact ⟨k, Nat.le_succ_of_le hk, hwindow⟩
      · have htime : sent.time = (after config file events (n + 1)).now := by
          have hmove : RelayerMove config (after config file events n) (events n) _ :=
            move_next (events n)
          rcases handed_move hmove with hsame | ⟨new, hnew, htime⟩
          · exact absurd (hsame ▸ hsent) hold
          · have hcases := hsent
            rw [after_succ, hnew] at hcases
            obtain rfl := (List.mem_cons.mp hcases).resolve_right hold
            exact htime
        obtain ⟨granted, hspends⟩ := @spends_after config file events (n + 1)
        have hentry : (ascii "all", (sent.gas : ℚ), sent.time) ∈
            granted.map fun grant => (grant.key, grant.weight, grant.time) := by
          rw [hspends.handed_eq]
          exact List.mem_map_of_mem (List.mem_filter.mpr ⟨hsent, decide_eq_true hplan⟩)
        obtain ⟨grant, hgrant, heq⟩ := List.mem_map.mp hentry
        obtain ⟨hkey, hrest⟩ := Prod.mk.inj heq
        have hgranted : grant.time = sent.time := (Prod.mk.inj hrest).2
        obtain ⟨window, hwindow, hstart, hlive⟩ :=
          hspends.accounts.exists_window hgrant (hgranted.trans htime)
        rw [hkey] at hwindow
        rw [DailyLimits.windowMs_eq] at hlive
        exact ⟨n + 1, le_rfl, window, hwindow, htime ▸ hstart, htime ▸ hlive⟩

/-! ## Requests that are not sent -/

/-- Only a request that was estimated and may be sent changes a daily limit; it is sent, or
one of the limits refuses it. -/
theorem daily_move (hmove : RelayerMove config server event server') :
    server'.daily = server.daily ∨ ∃ number task plan gas stage,
      event = .step number (.gas gas) ∧ gas ≤ maxGas ∧
      server.jobs.job? number = some ⟨task, .estimating plan⟩ ∧
      server'.jobs.job? number = some ⟨task, stage⟩ ∧ 8 < stage.rank := by
  cases hmove with
  | limited hjob hgas hrefused =>
      exact .inr ⟨_, _, _, _, _, rfl, hgas, hjob, JobTable.job?_set_self hjob,
        (by decide : 8 < 11)⟩
  | hands hjob hgas hgranted =>
      exact .inr ⟨_, _, _, _, _, rfl, hgas, hjob, JobTable.job?_set_self hjob,
        (by decide : 8 < 9)⟩
  | _ => exact .inl rfl

/-- What keeps a request from being sent: its simulation or its estimate fails, or it needs
too much gas. -/
inductive Unsent (server : Relayer) (number : ℕ) : RelayAnswer → Prop
  | simulation {task plan revert}
      (hjob : server.jobs.job? number = some ⟨task, .simulating plan⟩) :
      Unsent server number (.failed revert)
  | estimate {task plan revert}
      (hjob : server.jobs.job? number = some ⟨task, .estimating plan⟩) :
      Unsent server number (.failed revert)
  | gas {task plan gas} (hjob : server.jobs.job? number = some ⟨task, .estimating plan⟩)
      (hgas : maxGas < gas) : Unsent server number (.gas gas)

theorem next_step (config : RelayerConfig) {job : RelayJob} (answer : RelayAnswer)
    (hjob : server.jobs.job? number = some job) :
    server.next config (.step number answer) = server.step config number job answer := by
  rw [next, hjob]

/-- Such a request is over. -/
theorem Unsent.next {answer : RelayAnswer} (hunsent : Unsent server number answer)
    (config : RelayerConfig) :
    ∃ task stage thrown, server.jobs.job? number = some ⟨task, stage⟩ ∧ stage.rank ≤ 8 ∧
      server.next config (.step number answer) = server.fail number ⟨task, stage⟩ thrown := by
  cases hunsent with
  | @simulation task plan revert hjob =>
      rw [next_step config _ hjob]
      cases revert with
      | none => exact ⟨task, _, _, hjob, (by decide : 6 ≤ 8), rfl⟩
      | some revert => exact ⟨task, _, _, hjob, (by decide : 6 ≤ 8), rfl⟩
  | @estimate task plan revert hjob =>
      rw [next_step config _ hjob]
      cases revert with
      | none => exact ⟨task, _, _, hjob, (by decide : 8 ≤ 8), rfl⟩
      | some revert => exact ⟨task, _, _, hjob, (by decide : 8 ≤ 8), rfl⟩
  | @gas task plan gas hjob hgas =>
      rw [next_step config _ hjob]
      exact ⟨task, _, _, hjob, (by decide : 8 ≤ 8), if_pos hgas⟩

/-- Requests only go to later stages. -/
theorem rank_mono (hle : n ≤ m) {task : Task} {stage : RelayStage}
    (hjob : (after config file events n).jobs.job? number = some ⟨task, stage⟩) :
    ∃ stage', (after config file events m).jobs.job? number = some ⟨task, stage'⟩ ∧
      stage.rank ≤ stage'.rank := by
  induction m, hle using Nat.le_induction with
  | base => exact ⟨stage, hjob, le_rfl⟩
  | succ m hle ih =>
      obtain ⟨stage', hjob', hrank⟩ := ih
      have hmove : RelayerMove config (after config file events m) (events m) _ :=
        move_next (events m)
      rcases job_move hmove hjob' with
        hsame | ⟨stage'', answer, -, hlater, hnext⟩
      · exact ⟨stage', hsame, hrank⟩
      · exact ⟨stage'', hnext, hrank.trans hlater.le⟩

/-- A request that is not sent uses up no daily limit, at any of its steps. -/
theorem daily_of_unsent {answer answer' : RelayAnswer}
    (hunsent : Unsent (after config file events n) number answer)
    (hevent : events n = .step number answer) (hevent' : events k = .step number answer') :
    (after config file events (k + 1)).daily = (after config file events k).daily := by
  obtain ⟨task, stage, thrown, hjob, hrank, hnext⟩ := hunsent.next config
  have hfail : after config file events (n + 1) =
      (after config file events n).fail number ⟨task, stage⟩ thrown := by
    rw [after_succ, hevent, hnext]
  have hmove : RelayerMove config (after config file events k) (events k) _ :=
    move_next (events k)
  rcases daily_move hmove with hsame | ⟨other, found, plan, gas, later, hgas, -, hbefore, hafter, hlater⟩
  · exact hsame
  · rw [hevent'] at hgas
    obtain ⟨rfl, -⟩ := RelayerEvent.step.inj hgas
    rcases Nat.lt_trichotomy k n with hlt | rfl | hlt
    · obtain ⟨stage', hjob', hle⟩ := rank_mono hlt hafter
      obtain ⟨-, rfl⟩ := RelayJob.mk.inj (Option.some.inj (hjob'.symm.trans hjob))
      exact absurd (hlater.trans_le (hle.trans hrank)) (Nat.lt_irrefl 8)
    · rw [hfail]
      rfl
    · have hdone : (after config file events (n + 1)).jobs.job? number =
          some ⟨task, .done (.failed thrown)⟩ := by
        rw [hfail]
        exact JobTable.job?_set_self hjob
      obtain ⟨-, hstage⟩ := RelayJob.mk.inj (Option.some.inj
        ((done_mono hlt hdone).symm.trans hbefore))
      contradiction

/-! ## Actions that defend an account -/

/-- What `defends` hears when it answers yes: nothing for a cancellation, and for a freeze
that the account is not frozen, or that a change waits. -/
inductive Defends (config : RelayerConfig) (server : Relayer) (number : ℕ)
    (call : RelayCall) : RelayAnswer → Prop
  | cancels {factory}
      (hfunction : call.function = .cancelChange ∨ call.function = .cancelRecovery)
      (hjob : server.jobs.job? number = some ⟨.relay call, .config⟩)
      (hfactory : Sdk.toLowerCase factory = Sdk.toLowerCase config.factory)
      (hfree : call.busy ∉ server.inFlight) : Defends config server number call (.config factory)
  | unfrozen (hjob : server.jobs.job? number = some ⟨.relay call, .protections⟩) :
      Defends config server number call (.protections false)
  | waiting {ids} (hjob : server.jobs.job? number = some ⟨.relay call, .pendingChanges⟩)
      (hids : ∃ id ∈ ids, id ≠ 0) : Defends config server number call (.pendingChanges ids)

/-- A request that is sent whatever the limits. -/
def Unlimited (stage : RelayStage) : Prop :=
  stage.plan? = some .defends ∨ (∃ hash, stage = .sent hash) ∨
    ∃ response, stage = .done response ∧
      ∀ thrown, response = .failed thrown → thrown.status ≠ 429

theorem plan?_submit (config : RelayerConfig) (plan : SendPlan) :
    (RelayCall.submit config plan).plan? = some plan := by
  rw [RelayCall.submit]
  split <;> rfl

theorem Defends.next {call : RelayCall} {answer : RelayAnswer}
    (hdefends : Defends config server number call answer) :
    ∃ stage, (server.next config (.step number answer)).jobs.job? number =
        some ⟨.relay call, stage⟩ ∧ Unlimited stage := by
  have hplan : Unlimited (call.afterDefends config true) := .inl (plan?_submit config .defends)
  refine ⟨call.afterDefends config true, ?_, hplan⟩
  cases hdefends with
  | cancels hfunction hjob hfactory hfree =>
      rw [next_step config _ hjob]
      change (server.readConfig config number _ _).jobs.job? number = _
      rw [readConfig, if_neg (not_not.mpr hfactory)]
      dsimp only
      rw [reserve, if_neg hfree, RelayCall.afterReserve, if_pos hfunction]
      exact JobTable.job?_set_self hjob
  | unfrozen hjob =>
      rw [next_step config _ hjob]
      exact JobTable.job?_set_self hjob
  | @waiting ids hjob hids =>
      have hany : (ids.any (· ≠ 0)) = true := by
        obtain ⟨id, hid, hne⟩ := hids
        exact List.any_eq_true.mpr ⟨id, hid, decide_eq_true hne⟩
      rw [next_step config _ hjob]
      change (server.goOn number _ (call.afterDefends config (ids.any (· ≠ 0)))).jobs.job?
        number = _
      rw [hany]
      exact JobTable.job?_set_self hjob

theorem Unlimited.move {call : RelayCall} {stage : RelayStage} (hunlimited : Unlimited stage)
    (hmove : RelayerMove config server event server')
    (hjob : server.jobs.job? number = some ⟨.relay call, stage⟩) :
    ∃ stage', server'.jobs.job? number = some ⟨.relay call, stage'⟩ ∧ Unlimited stage' := by
  have hset : ∀ {other : ℕ} {found : RelayJob} {stage' : RelayStage},
      server.jobs.job? other = some found →
      (found = ⟨.relay call, stage⟩ → Unlimited stage') →
      ∃ later, (server.jobs.set other { found with stage := stage' }).job? number =
        some ⟨.relay call, later⟩ ∧ Unlimited later := by
    intro other found stage' hfound hlater
    by_cases hother : number = other
    · subst hother
      obtain rfl := Option.some.inj (hjob.symm.trans hfound)
      exact ⟨stage', JobTable.job?_set_self hjob, hlater rfl⟩
    · exact ⟨stage, (JobTable.job?_set_of_ne hother).trans hjob, hunlimited⟩
  cases hmove with
  | idle => exact ⟨stage, hjob, hunlimited⟩
  | wait => exact ⟨stage, hjob, hunlimited⟩
  | arrives => exact ⟨stage, JobTable.job?_start.mpr (.inr hjob), hunlimited⟩
  | @goesOn other answer found later hfound hrank hsent hbusy hgranting hplan hdone =>
      apply hset hfound
      rintro rfl
      rcases hunlimited with hdefends | ⟨hash, hstage⟩ | ⟨response, rfl, -⟩
      · exact .inl (hplan _ hdefends)
      · exact absurd hstage (hsent hash)
      · exact absurd hrank (Nat.not_lt_of_le later.rank_le)
  | reserves hfound hfree =>
      apply hset hfound
      intro hsame
      obtain ⟨-, rfl⟩ := RelayJob.mk.inj hsame
      rcases hunlimited with hplan | ⟨hash, hstage⟩ | ⟨response, hstage, -⟩ <;> contradiction
  | grants hfound hfree hstage =>
      apply hset hfound
      intro hsame
      exact absurd (RelayJob.mk.inj hsame).1 nofun
  | queues hfound =>
      apply hset hfound
      intro hsame
      obtain ⟨-, rfl⟩ := RelayJob.mk.inj hsame
      rcases hunlimited with hplan | ⟨hash, hstage⟩ | ⟨response, hstage, -⟩
      · exact .inl hplan
      · contradiction
      · contradiction
  | limited hfound hgas hrefused =>
      apply hset hfound
      intro hsame
      obtain ⟨-, rfl⟩ := RelayJob.mk.inj hsame
      rcases hunlimited with hplan | ⟨hash, hstage⟩ | ⟨response, hstage, -⟩
      · obtain rfl := Option.some.inj hplan
        exact absurd (Prod.mk.inj hrefused).1 nofun
      · contradiction
      · contradiction
  | hands hfound hgas hgranted =>
      apply hset hfound
      intro hsame
      obtain ⟨-, rfl⟩ := RelayJob.mk.inj hsame
      rcases hunlimited with hplan | ⟨hash, hstage⟩ | ⟨response, hstage, -⟩
      · exact .inl hplan
      · contradiction
      · contradiction
  | @returns other found plan hash written hfound =>
      apply hset hfound
      exact fun _ => .inr (.inl ⟨hash, rfl⟩)
  | creates hfound =>
      apply hset hfound
      intro hsame
      exact absurd (RelayJob.mk.inj hsame).1 nofun
  | pays hfound =>
      apply hset hfound
      intro hsame
      exact absurd (RelayJob.mk.inj hsame).1 nofun
  | settles hfound =>
      apply hset hfound
      exact fun _ => .inr (.inr ⟨_, rfl, nofun⟩)
  | fails hfound hrank hthrown =>
      apply hset hfound
      refine fun _ => .inr (.inr ⟨_, rfl, ?_⟩)
      rintro thrown hsame
      rwa [← Response.failed.inj hsame]

/-- An action that defends its account is not refused by a limit, whatever the limits. -/
theorem status_of_defends {call : RelayCall} {answer : RelayAnswer} {thrown : Thrown}
    (hdefends : Defends config (after config file events n) number call answer)
    (hevent : events n = .step number answer)
    (hjob : (after config file events m).jobs.job? number =
      some ⟨.relay call, .done (.failed thrown)⟩) : thrown.status ≠ 429 := by
  have hunlimited : ∀ k, n + 1 ≤ k → ∃ stage,
      (after config file events k).jobs.job? number = some ⟨.relay call, stage⟩ ∧
        Unlimited stage := by
    intro k hle
    induction k, hle using Nat.le_induction with
    | base =>
        rw [after_succ, hevent]
        exact hdefends.next
    | succ k hle ih =>
        obtain ⟨stage, hstage, hunlimited⟩ := ih
        exact hunlimited.move (move_next (events k)) hstage
  obtain ⟨stage, hstage, hlater⟩ := hunlimited (max (n + 1) m) (le_max_left _ _)
  have hdone := done_mono (le_max_right (n + 1) m) hjob
  obtain ⟨-, rfl⟩ := RelayJob.mk.inj (Option.some.inj (hstage.symm.trans hdone))
  rcases hlater with hplan | ⟨hash, hsent⟩ | ⟨response, hresponse, hthrown⟩
  · contradiction
  · contradiction
  · exact hthrown thrown (RelayStage.done.inj hresponse).symm

/-- The relayer keeps to its budgets.  All that is handed to the wallet, except actions that
defend an account, is handed while a window of `gasPerDay` lasts, and while one lasts its gas
is no more than the limit; a request that
is not sent, because its simulation or estimate fails or it needs too much gas, uses up no
daily limit at any step; and an action that defends its account is never refused with 429. -/
theorem relayer_keeps_to_budgets (config : RelayerConfig) (file : Finset Bytes)
    (events : ℕ → RelayerEvent) :
    (∀ n sent, sent ∈ (after config file events n).handed → sent.plan ≠ .defends →
      ∃ k ≤ n, ∃ window,
        ((after config file events k).daily.limiter .gasPerDay).windows.lookup (ascii "all") =
          some window ∧ window.start ≤ sent.time ∧ sent.time < window.start + dayMs) ∧
    (∀ n m window, n ≤ m →
      ((after config file events n).daily.limiter .gasPerDay).windows.lookup (ascii "all") =
        some window →
      (after config file events m).gasSpent window.start (window.start + dayMs) ≤
        config.limit .gasPerDay) ∧
    (∀ n k number answer answer', Unsent (after config file events n) number answer →
      events n = .step number answer → events k = .step number answer' →
      (after config file events (k + 1)).daily = (after config file events k).daily) ∧
    ∀ n m number call answer thrown,
      Defends config (after config file events n) number call answer →
      events n = .step number answer →
      (after config file events m).jobs.job? number =
        some ⟨.relay call, .done (.failed thrown)⟩ → thrown.status ≠ 429 :=
  ⟨fun _ _ hsent hplan => exists_window_of_handed hsent hplan,
    fun _ _ _ hle hwindow => gasSpent_le hle hwindow,
    fun _ _ _ _ _ hunsent hevent hevent' => daily_of_unsent hunsent hevent hevent',
    fun _ _ _ _ _ _ hdefends hevent hjob => status_of_defends hdefends hevent hjob⟩

end Relayer

/-! ## A cancellation that there is nothing to cancel for -/

namespace TwoRelays

open Relayer

def cancel : RelayBody where
  account := small
  functionName := ascii "cancelRecovery"
  args := .arr [.str (ascii "20000"), .num (some 1), .str (ascii "0x00"), .str (ascii "0x"),
    .str (ascii "0x")]

def cancels : ℕ → RelayerEvent
  | 0 => .relay cancel
  | 1 => .step 0 (.code (some (Sdk.accountCode config.accountImplementation)))
  | 2 => .step 0 (.config config.factory)
  | 3 => .step 0 (.failed (some (ascii "NoRecovery")))
  | _ => .wait 0

def cancelCall : RelayCall where
  account := small
  function := .cancelRecovery
  args := [.int 20000, .int 1, .hex (ascii "0x00"), .hex (ascii "0x"), .hex (ascii "0x")]

def noRecovery : Thrown :=
  .relay ⟨422, ascii "Simulation reverted: NoRecovery", some (ascii "NoRecovery")⟩

theorem cancels_refused :
    (after config ∅ cancels 2).jobs.job? 0 = some ⟨.relay cancelCall, .config⟩ ∧
      cancelCall.busy ∉ (after config ∅ cancels 2).inFlight ∧
      (after config ∅ cancels 3).jobs.job? 0 =
        some ⟨.relay cancelCall, .simulating .defends⟩ ∧
      (after config ∅ cancels 4).jobs.job? 0 =
        some ⟨.relay cancelCall, .done (.failed noRecovery)⟩ := by
  decide +kernel

theorem relays_window :
    ((after config ∅ relays 9).daily.limiter .gasPerDay).windows.lookup (ascii "all") =
      some ⟨0, 300000⟩ := by
  decide +kernel

theorem relayer_keeps_to_budgets_sample :
    (after config ∅ relays 11).gasSpent 0 (0 + dayMs) ≤ config.limit .gasPerDay ∧
      (after config ∅ cancels (2 + 1)).daily = (after config ∅ cancels 2).daily ∧
      noRecovery.status ≠ 429 := by
  obtain ⟨-, hspent, -, -⟩ := relayer_keeps_to_budgets config ∅ relays
  obtain ⟨-, -, hunsent, hdefends⟩ := relayer_keeps_to_budgets config ∅ cancels
  obtain ⟨hconfig, hfree, hsimulating, hdone⟩ := cancels_refused
  have hle : 9 ≤ 11 := by decide
  refine ⟨hspent 9 11 ⟨0, 300000⟩ hle relays_window, ?_, ?_⟩
  · exact hunsent 3 2 0 _ _ (.simulation hsimulating) rfl rfl
  · exact hdefends 2 4 0 cancelCall _ noRecovery (.cancels (.inr rfl) hconfig rfl hfree) rfl
      hdone

end TwoRelays

end Relay

end VeraKey
