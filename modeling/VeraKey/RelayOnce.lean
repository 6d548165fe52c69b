/-
One relayed transaction for each account: what is in flight is what the relayed requests
have reserved, each for itself.
-/
import VeraKey.RelayerMoves
import VeraKey.Reservation

namespace VeraKey

open ByteCodec

namespace Relay

namespace Relayer

/-- The key that a request has in `inFlight`. -/
def busy? (server : Relayer) (number : ℕ) : Option Bytes :=
  (server.jobs.job? number).bind RelayJob.busy?

/-- What one event does to the reservations. -/
inductive BusyMove (server : Relayer) : RelayerEvent → Relayer → Prop
  | same {event server'} (hbusy : server'.busy? = server.busy?)
      (hinFlight : server'.inFlight = server.inFlight) : BusyMove server event server'
  /-- A free account is reserved. -/
  | reserves {number answer busy server'} (hnumber : server.busy? number = none)
      (hfree : busy ∉ server.inFlight)
      (hbusy : server'.busy? = Function.update server.busy? number (some busy))
      (hinFlight : server'.inFlight = insert busy server.inFlight) :
      BusyMove server (.step number answer) server'
  /-- A request that fails, or is done waiting, releases its account. -/
  | releases {number answer busy server' task response}
      (hnumber : server.busy? number = some busy)
      (hbusy : server'.busy? = Function.update server.busy? number none)
      (hinFlight : server'.inFlight = server.inFlight.erase busy)
      (hdone : server'.jobs.job? number = some ⟨task, .done response⟩)
      (hreason : (∃ thrown, response = .failed thrown) ∨ answer = .receipt) :
      BusyMove server (.step number answer) server'

variable {config : RelayerConfig} {server server' : Relayer} {event : RelayerEvent}
variable {file : Finset Bytes} {events : ℕ → RelayerEvent} {n m number : ℕ} {busy : Bytes}
variable {job : RelayJob}

theorem busy?_of_job (hjob : server.jobs.job? number = some job) :
    server.busy? number = job.busy? :=
  holder_of_job hjob

theorem busy?_set {stage : RelayStage} (hjob : server.jobs.job? number = some job)
    (hjobs : server'.jobs = server.jobs.set number { job with stage := stage }) :
    server'.busy? = Function.update server.busy? number
      ({ job with stage := stage } : RelayJob).busy? :=
  holder_set hjob hjobs

theorem busyMove_set {answer : RelayAnswer} {stage : RelayStage}
    (hjob : server.jobs.job? number = some job)
    (hjobs : server'.jobs = server.jobs.set number { job with stage := stage })
    (hinFlight : server'.inFlight = server.inFlight)
    (hbusy : ({ job with stage := stage } : RelayJob).busy? = job.busy?) :
    BusyMove server (.step number answer) server' := by
  refine .same ?_ hinFlight
  rw [busy?_set hjob hjobs, hbusy, ← busy?_of_job hjob, Function.update_eq_self]

/-- A request that is over has released what it had. -/
theorem busyMove_release {answer : RelayAnswer} {response : Response}
    (hjob : server.jobs.job? number = some job)
    (hjobs : server'.jobs = server.jobs.set number { job with stage := .done response })
    (hinFlight : server'.inFlight = match job.busy? with
      | some busy => server.inFlight.erase busy
      | none => server.inFlight)
    (hreason : (∃ thrown, response = .failed thrown) ∨ answer = .receipt) :
    BusyMove server (.step number answer) server' := by
  have hdone : ({ job with stage := .done response } : RelayJob).busy? = none := by
    obtain ⟨task, stage⟩ := job
    cases task <;> rfl
  cases hbusy : job.busy? with
  | none =>
      rw [hbusy] at hinFlight
      exact busyMove_set hjob hjobs hinFlight (hdone.trans hbusy.symm)
  | some busy =>
      rw [hbusy] at hinFlight
      have hset : server'.jobs.job? number = some { job with stage := .done response } := by
        rw [hjobs]
        exact JobTable.job?_set_self hjob
      refine .releases ((busy?_of_job hjob).trans hbusy) ?_ hinFlight hset hreason
      rw [busy?_set hjob hjobs, hdone]

theorem busy?_start (task : Task) (stage : RelayStage)
    (hjobs : server'.jobs = server.jobs.start ⟨task, stage⟩) (hstage : stage.reserved = false) :
    server'.busy? = server.busy? := by
  apply holder_start hjobs
  cases task with
  | relay call =>
      rw [RelayJob.busy?, hstage]
      rfl
  | _ => rfl

theorem busyMove_of_move (hmove : RelayerMove config server event server') :
    BusyMove server event server' := by
  cases hmove with
  | idle => exact .same rfl rfl
  | wait => exact .same rfl rfl
  | @arrives event perAccount faucetPerIp job hevent hstage =>
      refine .same (busy?_start job.task job.stage rfl ?_) rfl
      rcases hstage with hstage | hstage | ⟨thrown, hstage⟩ <;> rw [hstage] <;> rfl
  | goesOn hjob hrank hsent hbusy => exact busyMove_set hjob rfl rfl hbusy
  | @reserves number factory call hjob hfree =>
      refine .reserves (busy?_of_job hjob) hfree ?_ rfl
      rw [busy?_set hjob rfl, RelayJob.busy?]
      dsimp only
      rw [(afterReserve_stage config call).1]
      rfl
  | grants hjob => exact busyMove_set hjob rfl rfl rfl
  | @queues number task plan hjob =>
      refine busyMove_set hjob rfl rfl ?_
      cases task <;> rfl
  | limited hjob => exact busyMove_release hjob rfl rfl (.inl ⟨_, rfl⟩)
  | @hands number task plan gas daily hjob =>
      refine busyMove_set hjob rfl rfl ?_
      cases task <;> rfl
  | returns hjob => exact busyMove_set hjob rfl rfl rfl
  | creates hjob => exact busyMove_set hjob rfl rfl rfl
  | pays hjob => exact busyMove_set hjob rfl rfl rfl
  | settles hjob => exact busyMove_release hjob rfl rfl (.inr rfl)
  | fails hjob => exact busyMove_release hjob rfl rfl (.inl ⟨_, rfl⟩)

theorem BusyMove.reservation (hmove : BusyMove server event server')
    (hreservation : Reservation server.inFlight server.busy?) :
    Reservation server'.inFlight server'.busy? := by
  cases hmove with
  | same hbusy hinFlight =>
      rw [hbusy, hinFlight]
      exact hreservation
  | reserves hnumber hfree hbusy hinFlight =>
      rw [hbusy, hinFlight]
      exact hreservation.reserve hfree hnumber
  | releases hnumber hbusy hinFlight =>
      rw [hbusy, hinFlight]
      exact hreservation.release hnumber

/-! ## Over a run -/

/-- What is in flight is what the requests have reserved, each for itself. -/
theorem reservation_after (n : ℕ) :
    Reservation (after config file events n).inFlight (after config file events n).busy? := by
  induction n with
  | zero => exact Reservation.empty
  | succ n ih => exact (busyMove_of_move (move_next (events n))).reservation ih

/-- At the event `n` a request releases its account, because it failed or its wait for the
receipt is over. -/
structure Releases (config : RelayerConfig) (file : Finset Bytes) (events : ℕ → RelayerEvent)
    (n number : ℕ) (busy : Bytes) : Prop where
  before : (after config file events n).busy? number = some busy
  after : (after config file events (n + 1)).busy? number = none
  inFlight : (Relayer.after config file events (n + 1)).inFlight =
    (Relayer.after config file events n).inFlight.erase busy
  done : ∃ task response,
    (Relayer.after config file events (n + 1)).jobs.job? number = some ⟨task, .done response⟩
  reason : (∃ task thrown, (Relayer.after config file events (n + 1)).jobs.job? number =
      some ⟨task, .done (.failed thrown)⟩) ∨ events n = .step number .receipt

/-- An account that is not reserved any longer was released by the request that had it. -/
theorem releases_of_busy? (hbefore : (after config file events n).busy? number = some busy)
    (hafter : (after config file events (n + 1)).busy? number ≠ some busy) :
    Releases config file events n number busy := by
  have hmove : BusyMove (after config file events n) (events n)
      ((after config file events n).next config (events n)) :=
    busyMove_of_move (move_next (events n))
  generalize hevent : events n = event at hmove
  rw [after_succ, hevent] at hafter
  generalize hserver : (after config file events n).next config event = server' at hmove hafter
  have hserver' : after config file events (n + 1) = server' := by
    rw [after_succ, hevent, hserver]
  cases hmove with
  | same hbusy hinFlight =>
      rw [hbusy] at hafter
      exact absurd hbefore hafter
  | @reserves other answer reserved _ hnumber hfree hbusy hinFlight =>
      have hother : number ≠ other := by
        rintro rfl
        rw [hnumber] at hbefore
        contradiction
      rw [hbusy, Function.update_of_ne hother] at hafter
      exact absurd hbefore hafter
  | @releases other answer released _ task response hnumber hbusy hinFlight hdone hreason =>
      obtain rfl : number = other := by
        by_contra hother
        rw [hbusy, Function.update_of_ne hother] at hafter
        exact hafter hbefore
      obtain rfl := Option.some.inj (hnumber.symm.trans hbefore)
      refine ⟨hbefore, ?_, ?_, ⟨task, response, ?_⟩, ?_⟩
      · rw [hserver', hbusy, Function.update_self]
      · rw [hserver', hinFlight]
      · rw [hserver', hdone]
      · rcases hreason with ⟨thrown, rfl⟩ | rfl
        · exact .inl ⟨task, thrown, hserver' ▸ hdone⟩
        · exact .inr hevent

theorem busy?_of_done {task : Task} {response : Response}
    (hjob : server.jobs.job? number = some ⟨task, .done response⟩) :
    server.busy? number = none := by
  rw [busy?_of_job hjob]
  cases task <;> rfl

/-- A request releases its account once. -/
theorem Releases.unique {k : ℕ} {busy' : Bytes}
    (hreleases : Releases config file events n number busy)
    (hreleases' : Releases config file events k number busy') : n = k := by
  have hover : ∀ {i j : ℕ} {busy busy' : Bytes}, i < j →
      Releases config file events i number busy →
      ¬ Releases config file events j number busy' := by
    intro i j busy busy' hlt hfirst hsecond
    obtain ⟨task, response, hdone⟩ := hfirst.done
    have hbefore := hsecond.before
    rw [busy?_of_done (done_mono hlt hdone)] at hbefore
    contradiction
  rcases Nat.lt_trichotomy n k with hlt | heq | hlt
  · exact absurd hreleases' (hover hlt hreleases)
  · exact heq
  · exact absurd hreleases (hover hlt hreleases')

/-- An account in flight keeps another request for it from getting past. -/
theorem job?_next_reserved {call : RelayCall} {factory : Bytes}
    (hbusy : call.busy ∈ server.inFlight)
    (hjob : server.jobs.job? number = some ⟨.relay call, .config⟩)
    (hfactory : Sdk.toLowerCase factory = Sdk.toLowerCase config.factory) :
    (server.next config (.step number (.config factory))).jobs.job? number =
      some ⟨.relay call, .done (.failed (relayError 409
        "Another transaction for this account is on its way. Try again in a moment."))⟩ := by
  rw [next]
  simp only [hjob, step, readConfig, hfactory, ne_eq, not_true_eq_false, if_false, reserve,
    hbusy, if_true]
  exact JobTable.job?_set_self hjob

end Relayer

/-! ## An account in two letter cases -/

namespace TwoRelays

open Relayer

/-- A relayer that sends 400,000 gas a day. -/
def config : RelayerConfig where
  keccak := fun _ => ⟨List.replicate 32 0xff, rfl⟩
  accountImplementation := ascii "0x1111111111111111111111111111111111111111"
  factory := ascii "0x2222222222222222222222222222222222222222"
  fee := 20000
  faucetAmount := 5000000
  mintableUsdg := true
  jitterMaxMs := 0
  limit := fun limit => match limit with
    | .unpaidSafetyActions => 10
    | .accountsPerIp => 10
    | .newAccountsPerDay => 100
    | .faucetGrantsPerDay => 20
    | .gasPerDay => 400000
  perAccount := 12
  faucetPerIp := 3
  faucetPerIpText := ascii "3"
  visitorKey := fun _ ip => ip

def small : Bytes := ascii "0xaaaaaaaaaaaaaaaaaaaaaaaaaaaaaaaaaaaaaaaa"

def capital : Bytes := ascii "0xAAAAAAAAAAAAAAAAAAAAAAAAAAAAAAAAAAAAAAAA"

def execute (account : Bytes) : RelayBody := ⟨account, ascii "executeRecovery", .arr []⟩

/-- A request that names the account in capitals, while another is on its way. -/
def relays : ℕ → RelayerEvent
  | 0 => .relay (execute small)
  | 1 => .relay (execute capital)
  | 2 => .step 0 (.code (some (Sdk.accountCode config.accountImplementation)))
  | 3 => .step 0 (.config config.factory)
  | 4 => .step 1 (.code (some (Sdk.accountCode config.accountImplementation)))
  | 5 => .step 1 (.config config.factory)
  | 6 => .step 0 .simulated
  | 7 => .step 0 .turn
  | 8 => .step 0 (.gas 300000)
  | 9 => .step 0 (.hash (ascii "0x01") true)
  | 10 => .step 0 .receipt
  | _ => .wait 0

theorem reserved_relays :
    (after config ∅ relays 5).busy? 0 = some (RelayCall.busy ⟨capital, .executeRecovery, []⟩) ∧
      (after config ∅ relays 5).jobs.job? 1 =
        some ⟨.relay ⟨capital, .executeRecovery, []⟩, .config⟩ ∧
      (after config ∅ relays 11).busy? 0 = none := by
  decide +kernel

end TwoRelays

end Relay

end VeraKey
