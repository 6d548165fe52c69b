/-
One demo grant for each account, over the requests of any number of processes that read one
faucet file after the other.
-/
import VeraKey.RelayOnce

namespace VeraKey

open ByteCodec

namespace Relay

/-- An event of the process that runs, or its replacement by a new one. -/
inductive LifeEvent
  | request (event : RelayerEvent)
  | restart

/-- The process that runs, and the accounts whose grant was sent, as their requests wrote
them, the last one first. -/
structure RelayerLife where
  server : Relayer
  sent : List Bytes

namespace Relayer

/-- A grant is in the wallet's hands: its hash is not known yet. -/
def sendsGrant (server : Relayer) : Bool :=
  (List.range server.jobs.started).any fun number =>
    match server.jobs.job? number with
    | some ⟨.faucet _, .sending _⟩ => true
    | _ => false

/-- The account whose grant the wallet has sent. -/
def grantOf (server : Relayer) : RelayerEvent → List Bytes
  | .step number (.hash _ _) =>
      match server.jobs.job? number with
      | some ⟨.faucet account, .sending _⟩ => [account]
      | _ => []
  | _ => []

/-- The key that a request has in `granting`. -/
def granting? (server : Relayer) : ℕ → Option Bytes := holder RelayJob.granting? server

end Relayer

namespace RelayerLife

def fresh (config : RelayerConfig) (file : Finset Bytes) : RelayerLife where
  server := Relayer.fresh config file
  sent := []

/-- A process is replaced when no grant is being sent; what else it was doing is lost. -/
def next (config : RelayerConfig) (life : RelayerLife) : LifeEvent → RelayerLife
  | .request event =>
      ⟨life.server.next config event, life.server.grantOf event ++ life.sent⟩
  | .restart =>
      if life.server.sendsGrant then life
      else { life with
        server := { Relayer.fresh config life.server.faucetFile with now := life.server.now } }

def after (config : RelayerConfig) (file : Finset Bytes) (events : ℕ → LifeEvent) (n : ℕ) :
    RelayerLife :=
  History.run (next config) (fresh config file) events n

theorem after_succ (config : RelayerConfig) (file : Finset Bytes) (events : ℕ → LifeEvent)
    (n : ℕ) : after config file events (n + 1) =
      (after config file events n).next config (events n) := rfl

end RelayerLife

namespace Relayer

/-! ## What one event does to the grants -/

inductive GrantMove (server : Relayer) : RelayerEvent → Relayer → Prop
  | same {event server'} (hgranting? : server'.granting? = server.granting?)
      (hgranting : server'.granting = server.granting) (hfunded : server'.funded = server.funded)
      (hfile : server'.faucetFile = server.faucetFile) (hsent : server.grantOf event = []) :
      GrantMove server event server'
  /-- An account that has no grant is reserved. -/
  | reserves {number answer key server'} (hnumber : server.granting? number = none)
      (hfree : key ∉ server.funded ∧ key ∉ server.granting)
      (hgranting? : server'.granting? = Function.update server.granting? number (some key))
      (hgranting : server'.granting = insert key server.granting)
      (hfunded : server'.funded = server.funded) (hfile : server'.faucetFile = server.faucetFile)
      (hsent : server.grantOf (.step number answer) = []) :
      GrantMove server (.step number answer) server'
  /-- A request that fails releases its account. -/
  | releases {number answer key server'} (hnumber : server.granting? number = some key)
      (hgranting? : server'.granting? = Function.update server.granting? number none)
      (hgranting : server'.granting = server.granting.erase key)
      (hfunded : server'.funded = server.funded) (hfile : server'.faucetFile = server.faucetFile)
      (hsent : server.grantOf (.step number answer) = []) :
      GrantMove server (.step number answer) server'
  /-- A grant is sent, and remembered. -/
  | pays {number hash written account server'}
      (hnumber : server.granting? number = some (Sdk.toLowerCase account))
      (hgranting? : server'.granting? = Function.update server.granting? number none)
      (hgranting : server'.granting = server.granting.erase (Sdk.toLowerCase account))
      (hfunded : server'.funded = insert (Sdk.toLowerCase account) server.funded)
      (hfile : server'.faucetFile = if written then server'.funded else server.faucetFile)
      (hsent : server.grantOf (.step number (.hash hash written)) = [account]) :
      GrantMove server (.step number (.hash hash written)) server'

variable {config : RelayerConfig} {server server' : Relayer} {event : RelayerEvent}
variable {number : ℕ} {job : RelayJob}

theorem granting?_of_job (hjob : server.jobs.job? number = some job) :
    server.granting? number = job.granting? :=
  holder_of_job hjob

theorem granting?_set {stage : RelayStage} (hjob : server.jobs.job? number = some job)
    (hjobs : server'.jobs = server.jobs.set number { job with stage := stage }) :
    server'.granting? = Function.update server.granting? number
      ({ job with stage := stage } : RelayJob).granting? :=
  holder_set hjob hjobs

theorem grantMove_set {answer : RelayAnswer} {stage : RelayStage}
    (hjob : server.jobs.job? number = some job)
    (hjobs : server'.jobs = server.jobs.set number { job with stage := stage })
    (hgranting : server'.granting = server.granting) (hfunded : server'.funded = server.funded)
    (hfile : server'.faucetFile = server.faucetFile)
    (hheld : ({ job with stage := stage } : RelayJob).granting? = job.granting?)
    (hsent : server.grantOf (.step number answer) = []) :
    GrantMove server (.step number answer) server' := by
  refine .same ?_ hgranting hfunded hfile hsent
  rw [granting?_set hjob hjobs, hheld, ← granting?_of_job hjob, Function.update_eq_self]

/-- A request that fails has released what it had. -/
theorem grantMove_fail {answer : RelayAnswer} {response : Response}
    (hjob : server.jobs.job? number = some job)
    (hjobs : server'.jobs = server.jobs.set number { job with stage := .done response })
    (hgranting : server'.granting = match job.granting? with
      | some key => server.granting.erase key
      | none => server.granting)
    (hfunded : server'.funded = server.funded) (hfile : server'.faucetFile = server.faucetFile)
    (hsent : server.grantOf (.step number answer) = []) :
    GrantMove server (.step number answer) server' := by
  have hdone : ({ job with stage := .done response } : RelayJob).granting? = none := by
    obtain ⟨task, stage⟩ := job
    cases task <;> rfl
  cases hheld : job.granting? with
  | none =>
      rw [hheld] at hgranting
      exact grantMove_set hjob hjobs hgranting hfunded hfile (hdone.trans hheld.symm) hsent
  | some key =>
      rw [hheld] at hgranting
      refine .releases ((granting?_of_job hjob).trans hheld) ?_ hgranting hfunded hfile hsent
      rw [granting?_set hjob hjobs, hdone]

theorem grantOf_sending {account hash : Bytes} {plan : SendPlan} {written : Bool}
    (hjob : server.jobs.job? number = some ⟨.faucet account, .sending plan⟩) :
    server.grantOf (.step number (.hash hash written)) = [account] := by
  rw [grantOf, hjob]

/-- An event that sends no grant. -/
theorem grantMove_of_move (hmove : RelayerMove config server event server')
    (hsent : server.grantOf event = []) : GrantMove server event server' := by
  cases hmove with
  | idle => exact .same rfl rfl rfl rfl hsent
  | wait => exact .same rfl rfl rfl rfl hsent
  | @arrives event perAccount faucetPerIp job hevent hstage =>
      refine .same (holder_start rfl ?_) rfl rfl rfl hsent
      obtain ⟨task, stage⟩ := job
      rcases hstage with rfl | rfl | ⟨thrown, rfl⟩ <;> cases task <;> rfl
  | goesOn hjob hrank hwaits hbusy hheld =>
      exact grantMove_set hjob rfl rfl rfl rfl hheld hsent
  | reserves hjob => exact grantMove_set hjob rfl rfl rfl rfl rfl hsent
  | grants hjob hfree hstage =>
      refine .reserves (granting?_of_job hjob) hfree ?_ rfl rfl rfl hsent
      rw [granting?_set hjob rfl]
      rcases hstage with rfl | rfl <;> rfl
  | @queues number task plan hjob =>
      refine grantMove_set hjob rfl rfl rfl rfl ?_ hsent
      cases task <;> rfl
  | limited hjob => exact grantMove_fail hjob rfl rfl rfl rfl hsent
  | @hands number task plan gas daily hjob =>
      refine grantMove_set hjob rfl rfl rfl rfl ?_ hsent
      cases task <;> rfl
  | returns hjob => exact grantMove_set hjob rfl rfl rfl rfl rfl hsent
  | creates hjob => exact grantMove_set hjob rfl rfl rfl rfl rfl hsent
  | pays hjob =>
      rw [grantOf_sending hjob] at hsent
      contradiction
  | @settles number task hash hjob =>
      refine grantMove_set hjob rfl rfl rfl rfl ?_ hsent
      cases task <;> rfl
  | fails hjob => exact grantMove_fail hjob rfl rfl rfl rfl hsent

theorem grantMove_next (config : RelayerConfig) (server : Relayer) (event : RelayerEvent) :
    GrantMove server event (server.next config event) := by
  by_cases hsent : server.grantOf event = []
  · exact grantMove_of_move (move_next event) hsent
  · obtain ⟨number, hash, written, account, plan, rfl, hjob⟩ : ∃ number hash written account plan,
        event = .step number (.hash hash written) ∧
          server.jobs.job? number = some ⟨.faucet account, .sending plan⟩ := by
      unfold grantOf at hsent
      split at hsent
      · next number hash written =>
          split at hsent
          · next account plan hjob => exact ⟨number, hash, written, account, plan, rfl, hjob⟩
          · contradiction
      · contradiction
    have hnext : server.next config (.step number (.hash hash written)) =
        server.finish number ⟨.faucet account, .sending plan⟩ plan hash written := by
      rw [next, hjob]
      rfl
    have hjobs : (server.finish number ⟨.faucet account, .sending plan⟩ plan hash written).jobs =
        server.jobs.set number
          ⟨.faucet account, .done (if written then .hash hash else .failed .other)⟩ := rfl
    rw [hnext]
    refine .pays (granting?_of_job hjob) ?_ rfl rfl rfl (grantOf_sending hjob)
    rw [granting?_set hjob hjobs]
    rfl

/-! ## What is granted -/

/-- The accounts that have their grant: those of the first file and those paid since. -/
def paid (file : Finset Bytes) (sent : List Bytes) : Finset Bytes :=
  file.image Sdk.toLowerCase ∪ (sent.map Sdk.toLowerCase).toFinset

/-- What is remembered is what was sent, and what is reserved is held by one request each. -/
structure SoundGrants (file : Finset Bytes) (life : RelayerLife) : Prop where
  reservation : Reservation life.server.granting life.server.granting?
  funded : life.server.funded = paid file life.sent
  written : life.server.faucetFile.image Sdk.toLowerCase = life.server.funded
  apart : ∀ key, key ∈ life.server.granting → key ∉ life.server.funded
  once : (life.sent.map Sdk.toLowerCase).Nodup
  new : ∀ account ∈ life.sent, Sdk.toLowerCase account ∉ file.image Sdk.toLowerCase

namespace SoundGrants

variable {file : Finset Bytes} {sent : List Bytes} {account key : Bytes} {life : RelayerLife}
variable {config : RelayerConfig} {event : RelayerEvent} {number : ℕ}

theorem mem_paid : key ∈ paid file sent ↔
    key ∈ file.image Sdk.toLowerCase ∨ key ∈ sent.map Sdk.toLowerCase := by
  rw [paid, Finset.mem_union, List.mem_toFinset]

theorem paid_cons : paid file (account :: sent) =
    insert (Sdk.toLowerCase account) (paid file sent) := by
  ext other
  rw [Finset.mem_insert, mem_paid, mem_paid, List.map_cons, List.mem_cons]
  tauto

theorem image_image (keys : Finset Bytes) :
    (keys.image Sdk.toLowerCase).image Sdk.toLowerCase = keys.image Sdk.toLowerCase := by
  rw [Finset.image_image]
  exact Finset.image_congr fun key _ => TextCodec.lower_lower key

theorem fresh (config : RelayerConfig) (file : Finset Bytes) :
    SoundGrants file (RelayerLife.fresh config file) where
  reservation := Reservation.empty
  funded := by
    ext key
    rw [mem_paid]
    exact (or_iff_left List.not_mem_nil).symm
  written := rfl
  apart := fun _ hkey => absurd hkey (Finset.notMem_empty _)
  once := List.nodup_nil
  new := nofun

theorem request (hsound : SoundGrants file life)
    (hwritten : ∀ number hash, event ≠ .step number (.hash hash false)) :
    SoundGrants file (life.next config (.request event)) := by
  have hmove := grantMove_next config life.server event
  rw [RelayerLife.next]
  generalize life.server.next config event = server' at hmove ⊢
  obtain ⟨hreservation, hfunded, hfile, hapart, honce, hnew⟩ := hsound
  cases hmove with
  | same hgranting? hgranting hfunded' hfile' hsent =>
      rw [hsent, List.nil_append]
      refine ⟨?_, ?_, ?_, ?_, honce, hnew⟩
      · rw [hgranting?, hgranting]
        exact hreservation
      · exact hfunded'.trans hfunded
      · rw [hfile', hfunded']
        exact hfile
      · rw [hgranting, hfunded']
        exact hapart
  | @reserves number answer key server' hnumber hfree hgranting? hgranting hfunded' hfile' hsent =>
      rw [hsent, List.nil_append]
      refine ⟨?_, ?_, ?_, ?_, honce, hnew⟩
      · rw [hgranting?, hgranting]
        exact hreservation.reserve hfree.2 hnumber
      · exact hfunded'.trans hfunded
      · rw [hfile', hfunded']
        exact hfile
      · rw [hgranting, hfunded']
        intro other hother
        rcases Finset.mem_insert.mp hother with rfl | hbefore
        · exact hfree.1
        · exact hapart other hbefore
  | releases hnumber hgranting? hgranting hfunded' hfile' hsent =>
      rw [hsent, List.nil_append]
      refine ⟨?_, ?_, ?_, ?_, honce, hnew⟩
      · rw [hgranting?, hgranting]
        exact hreservation.release hnumber
      · exact hfunded'.trans hfunded
      · rw [hfile', hfunded']
        exact hfile
      · rw [hgranting, hfunded']
        intro other hother
        exact hapart other (Finset.mem_of_mem_erase hother)
  | @pays number hash written account server' hnumber hgranting? hgranting hfunded' hfile' hsent =>
      have hheld : Sdk.toLowerCase account ∈ life.server.granting :=
        (hreservation.held _).mpr ⟨number, hnumber⟩
      have hunpaid : Sdk.toLowerCase account ∉ paid file life.sent :=
        hfunded ▸ hapart _ hheld
      rw [mem_paid, not_or] at hunpaid
      obtain rfl : written = true := by
        cases written with
        | true => rfl
        | false => exact absurd rfl (hwritten number hash)
      rw [hsent]
      refine ⟨?_, ?_, ?_, ?_, ?_, ?_⟩
      · rw [hgranting?, hgranting]
        exact hreservation.release hnumber
      · change server'.funded = paid file (account :: life.sent)
        rw [hfunded', hfunded, paid_cons]
      · change server'.faucetFile.image Sdk.toLowerCase = server'.funded
        rw [hfile', if_pos rfl, hfunded', Finset.image_insert, ← hfile, image_image]
        congr 1
        exact TextCodec.lower_lower account
      · intro other hother
        change other ∉ server'.funded
        change other ∈ server'.granting at hother
        rw [hgranting] at hother
        rw [hfunded', Finset.mem_insert, not_or]
        exact ⟨Finset.ne_of_mem_erase hother, hapart other (Finset.mem_of_mem_erase hother)⟩
      · exact List.nodup_cons.mpr ⟨hunpaid.2, honce⟩
      · intro other hother
        rcases List.mem_cons.mp hother with rfl | hbefore
        · exact hunpaid.1
        · exact hnew other hbefore

/-- A new process remembers what the last one wrote. -/
theorem restart (hsound : SoundGrants file life) :
    SoundGrants file (life.next config .restart) := by
  rw [RelayerLife.next]
  split
  · exact hsound
  · exact ⟨Reservation.empty, hsound.written.trans hsound.funded, rfl,
      fun _ hkey => absurd hkey (Finset.notMem_empty _), hsound.once, hsound.new⟩

theorem after {events : ℕ → LifeEvent} (hwritten : ∀ n number hash,
      events n ≠ .request (.step number (.hash hash false))) (n : ℕ) :
    SoundGrants file (RelayerLife.after config file events n) := by
  induction n with
  | zero => exact fresh config file
  | succ n ih =>
      rw [RelayerLife.after_succ]
      cases hevent : events n with
      | request event =>
          apply ih.request
          rintro number hash rfl
          exact hwritten n number hash hevent
      | restart => exact ih.restart

end SoundGrants

/-- What a request holds, only its own steps and a restart take from it. -/
theorem holds_on {config : RelayerConfig} {life : RelayerLife} {event : LifeEvent} {number : ℕ}
    {key : Bytes} (hheld : life.server.granting? number = some key)
    (hrestart : event ≠ .restart)
    (hother : ∀ answer, event ≠ .request (.step number answer)) :
    (life.next config event).server.granting? number = some key := by
  cases event with
  | restart => contradiction
  | request event =>
      have hmove := grantMove_next config life.server event
      change (life.server.next config event).granting? number = some key
      generalize life.server.next config event = server' at hmove
      cases hmove with
      | same hgranting? =>
          rw [hgranting?]
          exact hheld
      | @reserves other answer _ _ _ _ hgranting? =>
          have hne : number ≠ other := by
            rintro rfl
            exact hother answer rfl
          rw [hgranting?, Function.update_of_ne hne]
          exact hheld
      | @releases other answer _ _ _ hgranting? =>
          have hne : number ≠ other := by
            rintro rfl
            exact hother answer rfl
          rw [hgranting?, Function.update_of_ne hne]
          exact hheld
      | @pays other hash written _ _ _ hgranting? =>
          have hne : number ≠ other := by
            rintro rfl
            exact hother (.hash hash written) rfl
          rw [hgranting?, Function.update_of_ne hne]
          exact hheld

/-- One grant for each account, whatever the letter case of its address, before and after any
restart.  An account is refused only while it has its grant or another request is paying it,
and what that request reserved is its own. -/
theorem faucet_grants_once (config : RelayerConfig) (file : Finset Bytes)
    (events : ℕ → LifeEvent) (hwritten : ∀ n number hash,
      events n ≠ .request (.step number (.hash hash false))) (n : ℕ) :
    let life := RelayerLife.after config file events n
    (life.sent.map Sdk.toLowerCase).Nodup ∧
    (∀ account ∈ life.sent, Sdk.toLowerCase account ∉ file.image Sdk.toLowerCase) ∧
    (∀ i j key, life.server.granting? i = some key → life.server.granting? j = some key →
      i = j) ∧
    (∀ number key, life.server.granting? number = some key →
      key ∉ life.sent.map Sdk.toLowerCase ∧ key ∉ file.image Sdk.toLowerCase) ∧
    (∀ key, key ∈ life.server.funded ∨ key ∈ life.server.granting ↔
      (key ∈ file.image Sdk.toLowerCase ∨ key ∈ life.sent.map Sdk.toLowerCase) ∨
      ∃ number, life.server.granting? number = some key) ∧
    (∀ number task response, life.server.jobs.job? number = some ⟨task, .done response⟩ →
      life.server.granting? number = none) ∧
    (∀ number key, life.server.granting? number = some key → events n ≠ .restart →
      (∀ answer, events n ≠ .request (.step number answer)) →
      (RelayerLife.after config file events (n + 1)).server.granting? number = some key) := by
  have hsound : SoundGrants file (RelayerLife.after config file events n) := .after hwritten n
  refine ⟨hsound.once, hsound.new, hsound.reservation.once, ?_, ?_, ?_, ?_⟩
  · intro number key hheld
    have hunpaid := hsound.apart key ((hsound.reservation.held key).mpr ⟨number, hheld⟩)
    rw [hsound.funded, SoundGrants.mem_paid, not_or] at hunpaid
    exact hunpaid.symm
  · intro key
    rw [hsound.funded, SoundGrants.mem_paid, hsound.reservation.held key]
  · intro number task response hjob
    rw [granting?_of_job hjob]
    cases task <;> rfl
  · intro number key hheld hrestart hother
    rw [RelayerLife.after_succ]
    exact holds_on hheld hrestart hother

end Relayer

/-! ## One account, in two letter cases, before and after a restart -/

namespace TwoGrants

open TwoRelays

def clone : RelayAnswer := .code (some (Sdk.accountCode config.accountImplementation))

/-- A grant that is sent, a restart, and a request for the same account. -/
def grants : ℕ → LifeEvent
  | 0 => .request (.faucet small (ascii "ip"))
  | 1 => .request (.step 0 clone)
  | 2 => .request (.step 0 (.config config.factory))
  | 3 => .request (.step 0 .simulated)
  | 4 => .request (.step 0 .turn)
  | 5 => .request (.step 0 (.gas 300000))
  | 6 => .request (.step 0 (.hash (ascii "0x01") true))
  | 8 => .request (.faucet capital (ascii "ip"))
  | 9 => .request (.step 0 clone)
  | 10 => .request (.step 0 (.config config.factory))
  | _ => .restart

theorem written_grants (n number : ℕ) (hash : Bytes) :
    grants n ≠ .request (.step number (.hash hash false)) := by
  unfold grants
  split <;> simp [clone]

theorem faucet_grants_once_sample :
    ((RelayerLife.after config ∅ grants 11).sent.map Sdk.toLowerCase).Nodup ∧
      (RelayerLife.after config ∅ grants 11).sent = [small] ∧
      (RelayerLife.after config ∅ grants 11).server.jobs.job? 0 =
        some ⟨.faucet capital, .done (.failed
          (relayError 409 "This account already received demo USDG."))⟩ := by
  obtain ⟨honce, -⟩ := Relayer.faucet_grants_once config ∅ grants written_grants 11
  exact ⟨honce, by decide +kernel⟩

end TwoGrants

end Relay

end VeraKey
