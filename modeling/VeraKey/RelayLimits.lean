/-
What a request uses up of the daily limits when one of them refuses it: nothing exactly when
the first limit that it asks is the one that refuses.
-/
import VeraKey.RelayBudgets

namespace VeraKey

open ByteCodec

namespace Relay

namespace DailyLimits

variable {limits : DailyLimits} {now : ℤ} {charge : Charge} {charges : List Charge}
variable {limit : DailyLimit}

/-- The limit has no room for the charge. -/
def Exhausted (limits : DailyLimits) (now : ℤ) (charge : Charge) : Prop :=
  (limits.limiter charge.limit).Exhausted now charge.key charge.weight

theorem take_ne (hweight : charge.weight ≠ 0) (hgranted : limits.grants now charge = true) :
    (limits.take now charge).limiter charge.limit ≠ limits.limiter charge.limit := by
  rw [limiter_take_self]
  refine RateLimiter.take_snd_ne ?_ hweight hgranted
  rw [limits.windowMs_eq]
  decide

/-- Charges on different limits that are refused take nothing exactly when the first of them
is refused. -/
theorem takeAll_eq_iff (hweight : charges ≠ [] → charge.weight ≠ 0)
    (hother : ∀ other ∈ charges, charge.limit ≠ other.limit)
    (hrefused : (limits.takeAll now (charge :: charges)).1 = some limit) :
    (limits.takeAll now (charge :: charges)).2 = limits ↔ limits.Exhausted now charge := by
  rw [takeAll_cons] at hrefused
  rw [Exhausted, ← RateLimiter.take_refused_iff, takeAll_cons]
  split
  · next hgranted =>
      have hcharges : charges ≠ [] := by
        rintro rfl
        rw [if_pos hgranted] at hrefused
        contradiction
      constructor
      · intro hsame
        have hkept := limiter_takeAll_of_ne (limits.take now charge) now hother
        rw [hsame] at hkept
        exact absurd hkept.symm (take_ne (hweight hcharges) hgranted)
      · intro hnone
        exact absurd (hnone.symm.trans hgranted) Bool.noConfusion
  · next hnone =>
      have hfirst := Bool.eq_false_iff.mpr hnone
      exact ⟨fun _ => hfirst, fun _ => take_of_refused hfirst⟩

end DailyLimits

/-- The first limit that a request asks has no room for it. -/
def FirstExhausted (config : RelayerConfig) (server : Relayer) (plan : SendPlan) (gas : ℕ) :
    Prop :=
  ∃ charge charges, plan.charges config server.now gas = charge :: charges ∧
    server.daily.Exhausted server.now charge

/-- The charges of one request are on different limits; only its gas may weigh nothing, and
what weighs nothing is the only charge. -/
theorem SendPlan.charges_cons (config : RelayerConfig) (now : ℤ) (gas : ℕ) {plan : SendPlan}
    {charge : Charge} {charges : List Charge}
    (hcharges : plan.charges config now gas = charge :: charges) :
    (∀ other ∈ charges, charge.limit ≠ other.limit) ∧ (charges ≠ [] → charge.weight ≠ 0) := by
  cases plan with
  | defends => contradiction
  | waived busy =>
      obtain ⟨rfl, rfl⟩ := List.cons.inj hcharges
      exact ⟨by simp, fun _ => one_ne_zero⟩
  | paid =>
      obtain ⟨rfl, rfl⟩ := List.cons.inj hcharges
      exact ⟨nofun, fun hne => absurd rfl hne⟩
  | newAccount ip account =>
      obtain ⟨rfl, rfl⟩ := List.cons.inj hcharges
      exact ⟨by simp, fun _ => one_ne_zero⟩
  | grant =>
      obtain ⟨rfl, rfl⟩ := List.cons.inj hcharges
      exact ⟨by simp, fun _ => one_ne_zero⟩

namespace Relayer

variable {config : RelayerConfig} {server : Relayer} {event : RelayerEvent} {number : ℕ}
variable {task : Task} {plan : SendPlan} {gas : ℕ} {limit : DailyLimit}

theorem status_refusal (limit : DailyLimit) : limit.refusal.status = 429 := by
  cases limit <;> rfl

/-- What a limit refuses was asked of it with gas that may be sent. -/
theorem takeAll_of_refused
    (hjob : server.jobs.job? number = some ⟨task, .estimating plan⟩)
    (hrefused : (server.next config (.step number (.gas gas))).jobs.job? number =
      some ⟨task, .done (.failed limit.refusal)⟩) :
    ∃ refused, (server.daily.takeAll server.now (plan.charges config server.now gas)).1 =
        some refused ∧
      (server.next config (.step number (.gas gas))).daily =
        (server.daily.takeAll server.now (plan.charges config server.now gas)).2 := by
  rw [next_step config _ hjob] at hrefused ⊢
  change (server.beforeSend config number _ plan gas).jobs.job? number = _ at hrefused
  change ∃ refused, _ ∧ (server.beforeSend config number _ plan gas).daily = _
  rw [beforeSend] at hrefused ⊢
  split at hrefused
  · -- too much gas has a status of its own
    rw [fail, JobTable.job?_set_self hjob] at hrefused
    have hstage := (RelayJob.mk.inj (Option.some.inj hrefused)).2
    have hstatus := congrArg Thrown.status (Response.failed.inj (RelayStage.done.inj hstage))
    rw [status_refusal] at hstatus
    exact absurd hstatus (by decide : 422 ≠ 429)
  · next hgas =>
      rw [if_neg hgas]
      split at hrefused
      · next refused daily htaken => exact ⟨refused, by rw [htaken], by rw [htaken]; rfl⟩
      · next daily htaken =>
          change (server.jobs.set number _).job? number = _ at hrefused
          rw [JobTable.job?_set_self hjob] at hrefused
          have hstage := (RelayJob.mk.inj (Option.some.inj hrefused)).2
          contradiction

/-- A request that a daily limit refuses uses up none of them if and only if the first limit
that it asks has no room for it; no other step uses up a daily limit. -/
theorem refused_request_takes_nothing_iff (config : RelayerConfig) (server : Relayer) :
    (∀ event, (∀ number task plan gas, event = .step number (.gas gas) →
        server.jobs.job? number ≠ some ⟨task, .estimating plan⟩) →
      (server.next config event).daily = server.daily) ∧
    ∀ number task plan gas limit,
      server.jobs.job? number = some ⟨task, .estimating plan⟩ →
      (server.next config (.step number (.gas gas))).jobs.job? number =
        some ⟨task, .done (.failed (DailyLimit.refusal limit))⟩ →
      ((server.next config (.step number (.gas gas))).daily = server.daily ↔
        FirstExhausted config server plan gas) := by
  constructor
  · intro event hother
    have hmove : RelayerMove config server event _ := move_next event
    rcases daily_move hmove with
      hsame | ⟨number, task, plan, gas, stage, hevent, -, hjob, -⟩
    · exact hsame
    · exact absurd hjob (hother number task plan gas hevent)
  · intro number task plan gas limit hjob hrefused
    obtain ⟨refused, htaken, hdaily⟩ := takeAll_of_refused hjob hrefused
    rw [hdaily]
    cases hcharges : plan.charges config server.now gas with
    | nil =>
        rw [hcharges] at htaken
        contradiction
    | cons charge charges =>
        rw [hcharges] at htaken
        obtain ⟨hother, hweight⟩ := SendPlan.charges_cons config server.now gas hcharges
        rw [DailyLimits.takeAll_eq_iff hweight hother htaken]
        constructor
        · intro hexhausted
          exact ⟨charge, charges, hcharges, hexhausted⟩
        · rintro ⟨first, rest, hfirst, hexhausted⟩
          obtain ⟨rfl, -⟩ := List.cons.inj (hcharges.symm.trans hfirst)
          exact hexhausted

end Relayer

/-! ## An account that is not created -/

namespace TwoRelays

open Relayer

def appId : Bytes := ascii "0x" ++ List.replicate 63 0x30 ++ ascii "1"

def nullifier (digit : UInt8) : Bytes := ascii "0x" ++ List.replicate 63 0x30 ++ [digit]

def visitor : Bytes := ascii "10.0.0.1"

/-- The gas of the day is enough for one new account; a second is refused, and then a
relayed action. -/
def creates : ℕ → RelayerEvent
  | 0 => .createAccount appId (nullifier 0x31) visitor
  | 1 => .step 0 (.account small)
  | 2 => .step 0 (.code none)
  | 3 => .step 0 .simulated
  | 4 => .step 0 .turn
  | 5 => .step 0 (.gas 300000)
  | 6 => .step 0 (.hash (ascii "0x01") true)
  | 7 => .createAccount appId (nullifier 0x32) visitor
  | 8 => .step 1 (.account capital)
  | 9 => .step 1 (.code none)
  | 10 => .step 1 .simulated
  | 11 => .step 1 .turn
  | 12 => .step 1 (.gas 300000)
  | 13 => .relay (execute small)
  | 14 => .step 2 (.code (some (Sdk.accountCode config.accountImplementation)))
  | 15 => .step 2 (.config config.factory)
  | 16 => .step 2 .simulated
  | 17 => .step 2 .turn
  | 18 => .step 2 (.gas 300000)
  | _ => .wait 0

/-- The second account is refused for its gas, and counts as a new account of its visitor and
of the day. -/
theorem refused_account_counts :
    (after config ∅ creates 12).jobs.job? 1 =
        some ⟨.createAccount appId (nullifier 0x32) visitor,
          .estimating (.newAccount visitor capital)⟩ ∧
      (after config ∅ creates (12 + 1)).jobs.job? 1 =
        some ⟨.createAccount appId (nullifier 0x32) visitor,
          .done (.failed (DailyLimit.refusal .gasPerDay))⟩ ∧
      (after config ∅ creates (12 + 1)).daily ≠ (after config ∅ creates 12).daily := by
  have hcounts : ((after config ∅ creates 12).daily.limiter .newAccountsPerDay).windows.lookup
        (ascii "all") = some ⟨0, 1⟩ ∧
      ((after config ∅ creates (12 + 1)).daily.limiter .newAccountsPerDay).windows.lookup
        (ascii "all") = some ⟨0, 2⟩ := by
    decide +kernel
  refine ⟨by decide +kernel, by decide +kernel, ?_⟩
  intro hsame
  rw [hsame, hcounts.1] at hcounts
  exact absurd hcounts.2 (by decide +kernel)

theorem refused_relay :
    (after config ∅ creates 18).jobs.job? 2 =
        some ⟨.relay ⟨small, .executeRecovery, []⟩, .estimating .paid⟩ ∧
      ((after config ∅ creates 18).next config (.step 2 (.gas 300000))).jobs.job? 2 =
        some ⟨.relay ⟨small, .executeRecovery, []⟩,
          .done (.failed (DailyLimit.refusal .gasPerDay))⟩ ∧
      (((after config ∅ creates 18).daily.limiter .gasPerDay).take
        (after config ∅ creates 18).now (ascii "all") (300000 : ℕ)).1 = false := by
  refine ⟨?_, ?_, ?_⟩ <;> decide +kernel

theorem refused_request_takes_nothing_iff_sample :
    ((after config ∅ creates 18).next config (.step 2 (.gas 300000))).daily =
      (after config ∅ creates 18).daily := by
  obtain ⟨hjob, hrefused, hgas⟩ := refused_relay
  apply ((refused_request_takes_nothing_iff config (after config ∅ creates 18)).2
    2 _ .paid 300000 .gasPerDay hjob hrefused).mpr
  refine ⟨⟨.gasPerDay, ascii "all", (300000 : ℕ)⟩, [], rfl, ?_⟩
  rw [DailyLimits.Exhausted, ← RateLimiter.take_refused_iff]
  dsimp only
  exact hgas

end TwoRelays

end Relay

end VeraKey
