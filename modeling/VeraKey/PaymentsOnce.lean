/-
Payments are fulfilled at most once.  A request that has verified a payment claims the
transaction for good before it asks the site, and gives the claim back only when the site
refused, so no two requests hold one transaction in any order of their steps.
-/
import VeraKey.Payments

namespace VeraKey

open ByteCodec Guard TextCodec

namespace Sdk

variable {p : Platform} {options : VeraKeyServerOptions} {chain : PaymentChain}
variable {store : VeraKeyStore}

/-! ## What a verified payment names -/

/-- The call is handed this event: its transaction, from the player's account to the
recipient, for the amount. -/
def VerifiedPayment.Hands (payment : VerifiedPayment) (event : PaidEvent) : Prop :=
  toLowerCase event.hash = toLowerCase payment.hash ∧
    toLowerCase event.log.address = toLowerCase payment.player.account ∧
    toLowerCase event.log.recipient = toLowerCase payment.recipient ∧
    event.log.amount = payment.amount

/-- The event that `verifyPayment` finds for a payment. -/
def PaymentChain.matched (chain : PaymentChain) (payment : VerifiedPayment) : Option PaidEvent :=
  (chain.transaction? payment.hash).bind fun tx =>
    (paidMatch tx payment.player.account payment.recipient payment.amount).map (⟨tx.hash, ·⟩)

theorem PaymentChain.of_transaction? {hash : Bytes} {tx : Transaction}
    (htx : chain.transaction? hash = some tx) :
    tx ∈ chain ∧ toLowerCase tx.hash = toLowerCase hash := by
  rw [transaction?] at htx
  have hhash := List.find?_some htx
  exact ⟨List.mem_of_find?_eq_some htx, of_decide_eq_true hhash⟩

theorem of_paidMatch {tx : Transaction} {account recipient : Bytes} {amount : ℕ} {log : PaidLog}
    (hlog : paidMatch tx account recipient amount = some log) :
    log ∈ parsePaid tx.logs ∧ toLowerCase log.address = toLowerCase account ∧
      toLowerCase log.recipient = toLowerCase recipient ∧ log.amount = amount := by
  rw [paidMatch] at hlog
  have hfields := List.find?_some hlog
  obtain ⟨hparsed, haddress⟩ := List.mem_filter.mp (List.mem_of_find?_eq_some hlog)
  exact ⟨hparsed, of_decide_eq_true haddress, of_decide_eq_true hfields⟩

theorem PaymentChain.of_matched {payment : VerifiedPayment} {event : PaidEvent}
    (hmatched : chain.matched payment = some event) :
    chain.Emitted event ∧ payment.Hands event := by
  rw [matched, Option.bind_eq_some_iff] at hmatched
  obtain ⟨tx, htx, hmap⟩ := hmatched
  obtain ⟨log, hlog, rfl⟩ := Option.map_eq_some_iff.mp hmap
  obtain ⟨hmem, hhash⟩ := of_transaction? htx
  obtain ⟨hparsed, hfields⟩ := of_paidMatch hlog
  exact ⟨⟨tx, hmem, rfl, hparsed⟩, hhash, hfields⟩

/-- A verdict holds only for a successful transaction with a matching log, whose fee it
gives. -/
theorem exists_of_valid {receipt : Option Transaction} {account recipient : Bytes} {amount : ℕ}
    (hvalid : (verifyPayment receipt account recipient amount).valid = true) :
    ∃ tx log, receipt = some tx ∧ paidMatch tx account recipient amount = some log ∧
      (verifyPayment receipt account recipient amount).fee = some log.fee := by
  cases receipt with
  | none => exact absurd hvalid Bool.false_ne_true
  | some tx =>
      rw [verifyPayment] at hvalid ⊢
      cases hsuccess : tx.success with
      | false =>
          simp only [hsuccess] at hvalid
          exact absurd hvalid Bool.false_ne_true
      | true =>
          simp only [hsuccess, if_true] at hvalid ⊢
          rw [hvalid]
          simp only [List.all_cons, Bool.and_eq_true] at hvalid
          obtain ⟨log, hlog⟩ := Option.isSome_iff_exists.mp hvalid.2.2.1
          exact ⟨tx, log, rfl, hlog, by rw [hlog]; rfl⟩

/-- Whatever the calls are answered, a receipt is the one of the hash. -/
theorem receiptOf_eq_some {found : Bytes} {answers : ReceiptAnswers} {receipt : Transaction}
    (hreceipt : receiptOf chain found answers = some receipt) :
    chain.transaction? found = some receipt := by
  have hanswer : ∀ latest : Option ℕ,
      latest.bind (chain.getTransactionReceipt · found) = some receipt →
        chain.transaction? found = some receipt := by
    intro latest hlatest
    obtain ⟨block, -, hblock⟩ := Option.bind_eq_some_iff.mp hlatest
    exact (Option.filter_eq_some_iff.mp hblock).1
  rw [receiptOf] at hreceipt
  cases hfirst : answers.getTransactionReceipt.bind (chain.getTransactionReceipt · found) with
  | some first =>
      simp only [hfirst] at hreceipt
      exact hanswer _ (hfirst.trans hreceipt)
  | none =>
      simp only [hfirst] at hreceipt
      split at hreceipt
      · exact hanswer _ hreceipt
      · contradiction

/-! ## One step of a request -/

namespace PaymentStage

/-- The payment whose claim the request has: its `onPayment` call is under way, has
failed, or has succeeded. -/
def holds : PaymentStage → Option VerifiedPayment
  | .fulfilling payment => some payment
  | .releasing payment _ => some payment
  | .answered (.ok payment) => some payment
  | _ => none

/-- The payment that the request has verified. -/
def verified : PaymentStage → Option VerifiedPayment
  | .claiming payment => some payment
  | stage => stage.holds

theorem holds_of_verified {stage : PaymentStage} (hnone : stage.verified = none) :
    stage.holds = none := by
  cases stage with
  | claiming payment => rfl
  | _ => exact hnone

end PaymentStage

/-- What a step of a request can do, to its hold on a payment and to the store. -/
inductive PaymentMove (store : VeraKeyStore) (now : ℤ) (s : store.State) :
    PaymentStage → PaymentAnswer → PaymentStage → store.State → Prop
  | idle {stage answer} : PaymentMove store now s stage answer stage s
  | free {stage answer stage'} (hbefore : stage.holds = none) (hafter : stage'.verified = none) :
      PaymentMove store now s stage answer stage' s
  | verified {amount found tries answers payment} :
      PaymentMove store now s (.verifying amount found tries) (.receipt answers)
        (.claiming payment) s
  | claimed {payment : VerifiedPayment} (hfree : store.has s now payment.key = false) :
      PaymentMove store now s (.claiming payment) (.claimed none) (.fulfilling payment)
        (store.claim s now payment.key none).2
  | recorded {payment : VerifiedPayment} {error} :
      PaymentMove store now s (.claiming payment) (.claimed (some true))
        (.answered (.error error)) (store.claim s now payment.key none).2
  | accepted {payment} :
      PaymentMove store now s (.fulfilling payment) (.fulfilled none) (.answered (.ok payment)) s
  | refused {payment message} :
      PaymentMove store now s (.fulfilling payment) (.fulfilled (some message))
        (.releasing payment message) s
  | released {payment : VerifiedPayment} {message failure error} (hdone : failure ≠ some false) :
      PaymentMove store now s (.releasing payment message) (.released failure)
        (.answered (.error error)) (store.release s payment.key)
  | kept {payment message error} :
      PaymentMove store now s (.releasing payment message) (.released (some false))
        (.answered (.error error)) s

namespace PaymentJob

variable {job : PaymentJob} {now : ℤ} {s : store.State} {answer : PaymentAnswer}

theorem verified_afterBody : (job.afterBody p).verified = none := by
  rw [afterBody]
  split <;> rfl

theorem verified_afterLook (amount nonce : ℕ) (look : FindLook) :
    (job.afterLook chain amount nonce look).verified = none := by
  rw [afterLook]
  split
  · rfl
  · rfl
  · split <;> rfl

theorem move_afterReceipt (amount : ℕ) (found : Bytes) (tries : ℕ) (answers : ReceiptAnswers) :
    PaymentMove store now s (.verifying amount found tries) (.receipt answers)
      (job.afterReceipt chain amount found tries answers) s := by
  rw [afterReceipt]
  split
  · exact .free rfl rfl
  · split
    · exact .verified
    · exact .free rfl rfl

theorem move_claim (payment : VerifiedPayment) (failure : Option Bool) :
    PaymentMove store now s (.claiming payment) (.claimed failure)
      (afterClaim store payment now s failure).1 (afterClaim store payment now s failure).2 := by
  cases failure with
  | none =>
      have hfirst := store.claim_fst s now payment.key none
      simp only [afterClaim, hfirst]
      cases hhas : store.has s now payment.key with
      | false => exact .claimed hhas
      | true =>
          rw [store.claim_of_has s now payment.key none hhas]
          exact .free rfl rfl
  | some recorded =>
      cases recorded with
      | true => exact .recorded
      | false => exact .free rfl rfl

theorem move_fulfilment (payment : VerifiedPayment) (refusal : Option Bytes) :
    PaymentMove store now s (.fulfilling payment) (.fulfilled refusal)
      (afterFulfilment payment refusal) s := by
  cases refusal with
  | none => exact .accepted
  | some message => exact .refused

theorem move_release (payment : VerifiedPayment) (message : Bytes) (failure : Option Bool) :
    PaymentMove store now s (.releasing payment message) (.released failure)
      (afterRelease store payment message s failure).1
      (afterRelease store payment message s failure).2 := by
  cases failure with
  | none => exact .released nofun
  | some removed =>
      cases removed with
      | true => exact .released (by simp)
      | false => exact .kept

/-- Everything a step of a request can do. -/
theorem move_step : PaymentMove store now s job.stage answer
    (job.step p chain store now s answer).1 (job.step p chain store now s answer).2 := by
  obtain ⟨process, request, player, merchant, stage⟩ := job
  cases stage with
  | reading =>
      cases answer with
      | body => exact .free rfl verified_afterBody
      | _ => exact .idle
  | finding amount nonce =>
      cases answer with
      | look look => exact .free rfl (verified_afterLook amount nonce look)
      | _ => exact .idle
  | verifying amount found tries =>
      cases answer with
      | receipt answers => exact move_afterReceipt amount found tries answers
      | _ => exact .idle
  | claiming payment =>
      cases answer with
      | claimed failure => exact move_claim payment failure
      | _ => exact .idle
  | fulfilling payment =>
      cases answer with
      | fulfilled refusal => exact move_fulfilment payment refusal
      | _ => exact .idle
  | releasing payment message =>
      cases answer with
      | released failure => exact move_release payment message failure
      | _ => exact .idle
  | answered answer => exact .idle

variable (chain job) in
/-- The request verified this payment: it is its player's, to the site, and there is an
event for it. -/
def Verified (payment : VerifiedPayment) : Prop :=
  payment.player = job.player ∧ payment.recipient = job.merchant ∧
    ∃ event, chain.matched payment = some event ∧ event.log.fee = payment.fee

theorem verified_afterReceipt {amount : ℕ} {found : Bytes} {tries : ℕ} {answers : ReceiptAnswers}
    {payment : VerifiedPayment}
    (hafter : (job.afterReceipt chain amount found tries answers).verified = some payment) :
    job.Verified chain payment := by
  rw [afterReceipt] at hafter
  split at hafter
  · contradiction
  · split at hafter
    · next hvalid =>
        obtain ⟨tx, log, hreceipt, hlog, hfee⟩ := exists_of_valid hvalid
        rw [hfee] at hafter
        obtain rfl := Option.some.inj hafter
        refine ⟨rfl, rfl, ⟨tx.hash, log⟩, ?_, rfl⟩
        rw [PaymentChain.matched, receiptOf_eq_some hreceipt, Option.bind_some, hlog]
        rfl
    · contradiction

/-- A request has no payment that it has not verified. -/
theorem verified_step {payment : VerifiedPayment}
    (hstage : ∀ payment, job.stage.verified = some payment → job.Verified chain payment)
    (hafter : (job.step p chain store now s answer).1.verified = some payment) :
    job.Verified chain payment := by
  have hmove : PaymentMove store now s job.stage answer
      (job.step p chain store now s answer).1 (job.step p chain store now s answer).2 := move_step
  obtain ⟨process, request, player, merchant, stage⟩ := job
  generalize hresult : step p chain store _ now s answer = result at hmove hafter
  obtain ⟨stage', s'⟩ := result
  cases hmove with
  | idle => exact hstage payment hafter
  | free _ hnone => exact absurd (hnone.symm.trans hafter) (Option.some_ne_none payment).symm
  | verified =>
      have hstage' := congrArg Prod.fst hresult
      apply verified_afterReceipt
      rw [← hafter]
      exact congrArg PaymentStage.verified hstage'
  | claimed => exact hstage payment hafter
  | recorded => contradiction
  | accepted => exact hstage payment hafter
  | refused => exact hstage payment hafter
  | released => contradiction
  | kept => contradiction

end PaymentJob

/-! ## The server -/

/-- The key of a payment. -/
def IsPayment (key : Bytes) : Prop := ∃ found, key = (Claim.payment found).key

theorem isPayment_key (payment : VerifiedPayment) : IsPayment payment.key :=
  ⟨payment.hash, rfl⟩

theorem not_isPayment_nonce (issued : Bytes) : ¬ IsPayment (Claim.nonce issued).key := by
  intro hkey
  obtain ⟨found, hkey⟩ := hkey
  exact Claim.key_inj hkey

theorem not_isPayment_signOut (sid : Bytes) : ¬ IsPayment (Claim.signOut sid).key := by
  intro hkey
  obtain ⟨found, hkey⟩ := hkey
  exact Claim.key_inj hkey

section Holder

/-- The key that each request holds. -/
def holder (jobs : JobTable PaymentJob) (number : ℕ) : Option Bytes :=
  (jobs.job? number).bind fun job => job.stage.holds.map VerifiedPayment.key

variable {jobs : JobTable PaymentJob} {number : ℕ} {job job' : PaymentJob}

theorem holder_eq (hjob : jobs.job? number = some job) :
    holder jobs number = job.stage.holds.map VerifiedPayment.key := by
  rw [holder, hjob]
  rfl

theorem holder_set (hjob : jobs.job? number = some job) :
    holder (jobs.set number job') =
      Function.update (holder jobs) number (job'.stage.holds.map VerifiedPayment.key) := by
  funext i
  by_cases hi : i = number
  · subst hi
    rw [Function.update_self]
    exact holder_eq (JobTable.job?_set_self hjob)
  · rw [holder, JobTable.job?_set_of_ne hi, Function.update_of_ne hi]
    rfl

/-- A request that has just arrived holds nothing. -/
theorem holder_start (hholds : job.stage.holds = none) : holder (jobs.start job) = holder jobs := by
  funext i
  by_cases hi : i = jobs.started
  · subst hi
    rw [holder_eq (JobTable.job?_start.mpr (Or.inl ⟨rfl, rfl⟩)), hholds, holder,
      jobs.unnumbered jobs.started le_rfl]
    rfl
  · rw [holder, JobTable.job?_start_of_ne hi]
    rfl

/-- A move of one request leaves every claim with one holder. -/
theorem exclusive_move {now : ℤ} {s s' : store.State} {answer : PaymentAnswer}
    {stage' : PaymentStage} (hold : store.Exclusive IsPayment s now (holder jobs))
    (hjob : jobs.job? number = some job)
    (hmove : PaymentMove store now s job.stage answer stage' s') :
    store.Exclusive IsPayment s' now
      (Function.update (holder jobs) number (stage'.holds.map VerifiedPayment.key)) := by
  have hholder := holder_eq hjob
  generalize job.stage = stage at hmove hholder
  have hsame : stage'.holds = stage.holds → Function.update (holder jobs) number
      (stage'.holds.map VerifiedPayment.key) = holder jobs := by
    intro hholds
    rw [hholds, ← hholder]
    exact Function.update_eq_self number (holder jobs)
  cases hmove with
  | idle => rwa [hsame rfl]
  | free hbefore hafter =>
      rwa [hsame]
      rw [hbefore, PaymentStage.holds_of_verified hafter]
  | verified => rwa [hsame rfl]
  | claimed hfree => exact hold.claim (isPayment_key _) hfree
  | recorded =>
      rw [hsame rfl]
      exact hold.claim_lasting _
  | accepted => rwa [hsame rfl]
  | refused => rwa [hsame rfl]
  | released => exact hold.release hholder
  | kept => exact hold.leave

end Holder

namespace PaymentServer

variable {server : PaymentServer store}

variable (p options chain) in
/-- A step of a request that is there. -/
theorem next_step {number : ℕ} {job : PaymentJob} (answer : PaymentAnswer)
    (hjob : server.jobs.job? number = some job) :
    ∃ stage' s' paying, job.step p chain store server.now server.state answer = (stage', s') ∧
      PaymentMove store server.now server.state job.stage answer stage' s' ∧
      server.next p options chain (.step number answer) =
        ⟨server.now, s', paying, server.jobs.set number { job with stage := stage' }⟩ := by
  have hmove : PaymentMove store server.now server.state job.stage answer
      (job.step p chain store server.now server.state answer).1
      (job.step p chain store server.now server.state answer).2 := PaymentJob.move_step
  rcases hstep : job.step p chain store server.now server.state answer with ⟨stage', s'⟩
  rw [hstep] at hmove
  refine ⟨stage', s', settle server.paying number { job with stage := stage' }, rfl, hmove, ?_⟩
  rw [next]
  simp only [hjob, hstep]

/-- A step of a request that is not there. -/
theorem next_step_none {number : ℕ} {answer : PaymentAnswer}
    (hnone : server.jobs.job? number = none) :
    server.next p options chain (.step number answer) = server := by
  rw [next]
  simp only [hnone]

variable (p options chain server) in
/-- An arrival starts a request of a signed-in player, or nothing. -/
theorem next_arrives (process : ℕ) (request : KitRequest) (answers : SessionAnswers) :
    server.next p options chain (.arrives process request answers) = server ∨
      ∃ session merchant paying, readSession answers request = some session ∧
        options.merchant = some merchant ∧
        server.next p options chain (.arrives process request answers) =
          ⟨server.now, server.state, paying,
            server.jobs.start ⟨process, request, session.player, merchant, .reading⟩⟩ := by
  rw [next]
  split
  · next session merchant _ hsession hmerchant =>
      exact Or.inr ⟨session, merchant, _, hsession, hmerchant, rfl⟩
  · exact Or.inl rfl

variable (options) in
/-- The next event starts this request. -/
def Starts (event : PaymentEvent) (job : PaymentJob) : Prop :=
  job.stage = .reading ∧ options.merchant = some job.merchant ∧
    ∃ answers session, event = .arrives job.process job.request answers ∧
      readSession answers job.request = some session ∧ session.player = job.player

variable (p chain server) in
/-- The next event is a step of this request. -/
def Steps (event : PaymentEvent) (number : ℕ) (job job' : PaymentJob) : Prop :=
  ∃ answer, event = .step number answer ∧ server.jobs.job? number = some job ∧
    job' = { job with stage := (job.step p chain store server.now server.state answer).1 }

/-- Where a request comes from. -/
theorem jobs_next {event : PaymentEvent} {number : ℕ} {job' : PaymentJob}
    (hjob' : (server.next p options chain event).jobs.job? number = some job') :
    server.jobs.job? number = some job' ∨ Starts options event job' ∨
      ∃ job, server.Steps p chain event number job job' := by
  cases event with
  | arrives process request answers =>
      rcases next_arrives p options chain server process request answers with
        hsame | ⟨session, merchant, paying, hsession, hmerchant, hnext⟩
      · rw [hsame] at hjob'
        exact Or.inl hjob'
      · rw [hnext] at hjob'
        rcases JobTable.job?_start.mp hjob' with ⟨-, rfl⟩ | hbefore
        · exact Or.inr (Or.inl ⟨rfl, hmerchant, answers, session, rfl, hsession, rfl⟩)
        · exact Or.inl hbefore
  | step other answer =>
      cases hjob : server.jobs.job? other with
      | none =>
          rw [next_step_none hjob] at hjob'
          exact Or.inl hjob'
      | some job =>
          obtain ⟨stage', s', paying, hstep, -, hnext⟩ := next_step p options chain answer hjob
          rw [hnext] at hjob'
          by_cases hnumber : number = other
          · subst hnumber
            refine Or.inr (Or.inr ⟨job, answer, rfl, hjob, ?_⟩)
            rw [hstep]
            exact (Option.some.inj ((JobTable.job?_set_self hjob).symm.trans hjob')).symm
          · exact Or.inl ((JobTable.job?_set_of_ne hnumber).symm.trans hjob')
  | _ => exact Or.inl hjob'

def stage (server : PaymentServer store) (number : ℕ) : Option PaymentStage :=
  (server.jobs.job? number).map (·.stage)

/-- Where a stage comes from. -/
theorem stage_next {event : PaymentEvent} {number : ℕ} {stage' : PaymentStage}
    (hstage' : (server.next p options chain event).stage number = some stage') :
    server.stage number = some stage' ∨ stage' = .reading ∨
      ∃ answer stage s', event = .step number answer ∧ server.stage number = some stage ∧
        PaymentMove store server.now server.state stage answer stage' s' := by
  obtain ⟨job', hjob', rfl⟩ := Option.map_eq_some_iff.mp hstage'
  rcases jobs_next hjob' with hbefore | hstarts | ⟨job, answer, hevent, hbefore, rfl⟩
  · exact Or.inl (Option.map_eq_some_iff.mpr ⟨job', hbefore, rfl⟩)
  · exact Or.inr (Or.inl hstarts.1)
  · exact Or.inr (Or.inr ⟨answer, job.stage, _, hevent,
      Option.map_eq_some_iff.mpr ⟨job, hbefore, rfl⟩, PaymentJob.move_step⟩)

/-- The store has the key now. -/
def has (server : PaymentServer store) (key : Bytes) : Bool :=
  store.has server.state server.now key

/-! ## What every event keeps -/

/-- What the events keep of a server. -/
structure Sound (chain : PaymentChain) (server : PaymentServer store) : Prop where
  exclusive : store.Exclusive IsPayment server.state server.now (holder server.jobs)
  verified : ∀ number job payment, server.jobs.job? number = some job →
    job.stage.verified = some payment → job.Verified chain payment

theorem sound_fresh : (fresh store).Sound chain where
  exclusive := .empty 0
  verified := nofun

theorem exclusive_next (hsound : server.Sound chain) (event : PaymentEvent) :
    store.Exclusive IsPayment (server.next p options chain event).state
      (server.next p options chain event).now
      (holder (server.next p options chain event).jobs) := by
  have hold := hsound.exclusive
  cases event with
  | arrives process request answers =>
      rcases next_arrives p options chain server process request answers with
        hsame | ⟨session, merchant, paying, -, -, hnext⟩
      · rwa [hsame]
      · rw [hnext, holder_start rfl]
        exact hold
  | step number answer =>
      cases hjob : server.jobs.job? number with
      | none => rwa [next_step_none hjob]
      | some job =>
          obtain ⟨stage', s', paying, -, hmove, hnext⟩ := next_step p options chain answer hjob
          rw [hnext, holder_set hjob]
          exact exclusive_move hold hjob hmove
  | signIn issued ttlSeconds => exact hold.claim_other (not_isPayment_nonce issued)
  | signOut sid ttlSeconds => exact hold.claim_other (not_isPayment_signOut sid)
  | wait ms => exact hold.wait (Int.le_add_of_nonneg_right (Int.natCast_nonneg ms))

theorem Sound.next (hsound : server.Sound chain) (event : PaymentEvent) :
    (server.next p options chain event).Sound chain := by
  constructor
  · exact exclusive_next hsound event
  · intro number job' payment hjob' hverified
    rcases jobs_next hjob' with hjob | hstarts | ⟨job, answer, -, hjob, rfl⟩
    · exact hsound.verified number job' payment hjob hverified
    · rw [hstarts.1] at hverified
      contradiction
    · have hstep : job.Verified chain payment :=
        PaymentJob.verified_step (hsound.verified number job · hjob) hverified
      exact hstep

/-- A payment's claim ends only where a request releases it. -/
theorem has_next (hsound : server.Sound chain) {event : PaymentEvent} {key : Bytes}
    (hkind : IsPayment key) (hhas : server.has key = true) :
    (server.next p options chain event).has key = true ∨
      ∃ number payment message failure, event = .step number (.released failure) ∧
        server.stage number = some (.releasing payment message) ∧ payment.key = key := by
  have hlasting := hsound.exclusive.lasting key hkind hhas
  have hclaim : ∀ other ttlSeconds, store.has
      (store.claim server.state server.now other ttlSeconds).2 server.now key = true := by
    intro other ttlSeconds
    have hkept := hlasting.change (c := .claim other ttlSeconds) nofun
    exact hkept.has (WithTop.coe_lt_top server.now)
  cases event with
  | arrives process request answers =>
      rcases next_arrives p options chain server process request answers with
        hsame | ⟨session, merchant, paying, -, -, hnext⟩
      · rw [hsame]
        exact Or.inl hhas
      · rw [hnext]
        exact Or.inl hhas
  | step number answer =>
      cases hjob : server.jobs.job? number with
      | none =>
          rw [next_step_none hjob]
          exact Or.inl hhas
      | some job =>
          obtain ⟨stage', s', paying, -, hmove, hnext⟩ := next_step p options chain answer hjob
          have hstage : server.stage number = some job.stage := by
            rw [stage, hjob]
            rfl
          rw [hnext]
          generalize job.stage = stage at hmove hstage
          cases hmove with
          | claimed => exact Or.inl (hclaim _ none)
          | recorded => exact Or.inl (hclaim _ none)
          | @released payment message failure error hdone =>
              by_cases hkey : payment.key = key
              · exact Or.inr ⟨number, payment, message, failure, rfl, hstage, hkey⟩
              · left
                rw [has, store.has_release_of_ne server.state payment.key server.now key
                  (Ne.symm hkey)]
                exact hhas
          | _ => exact Or.inl hhas
  | signIn issued ttlSeconds => exact Or.inl (hclaim _ _)
  | signOut sid ttlSeconds => exact Or.inl (hclaim _ _)
  | wait ms =>
      left
      exact hlasting _ (Int.le_add_of_nonneg_right (Int.natCast_nonneg ms)) (WithTop.coe_lt_top _)

/-! ## Runs -/

section Run

variable (p options chain store) (events : ℕ → PaymentEvent)

theorem after_succ (n : ℕ) : after p options chain store events (n + 1) =
    (after p options chain store events n).next p options chain (events n) := rfl

theorem sound_after (n : ℕ) : (after p options chain store events n).Sound chain := by
  induction n with
  | zero => exact sound_fresh
  | succ n ih => exact ih.next (events n)

variable {p options chain store events}

/-- Every request arrived with the session of its player. -/
theorem exists_arrival {n number : ℕ} {job : PaymentJob}
    (hjob : (after p options chain store events n).jobs.job? number = some job) :
    options.merchant = some job.merchant ∧ ∃ m < n, ∃ answers session,
      events m = .arrives job.process job.request answers ∧
        readSession answers job.request = some session ∧ session.player = job.player := by
  induction n generalizing job with
  | zero => contradiction
  | succ n ih =>
      rcases jobs_next hjob with hbefore | hstarts | ⟨job', answer, -, hbefore, rfl⟩
      · obtain ⟨hmerchant, m, hm, harrival⟩ := ih hbefore
        exact ⟨hmerchant, m, Nat.lt_succ_of_lt hm, harrival⟩
      · obtain ⟨-, hmerchant, harrival⟩ := hstarts
        exact ⟨hmerchant, n, Nat.lt_succ_self n, harrival⟩
      · obtain ⟨hmerchant, m, hm, harrival⟩ := ih hbefore
        exact ⟨hmerchant, m, Nat.lt_succ_of_lt hm, harrival⟩

/-- A call that succeeded keeps its claim. -/
theorem of_fulfilled {server : PaymentServer store} {number : ℕ} {payment : VerifiedPayment}
    (hfulfilled : server.fulfilled number = some payment) :
    ∃ job, server.jobs.job? number = some job ∧ job.stage = .answered (.ok payment) := by
  rw [fulfilled] at hfulfilled
  split at hfulfilled
  · next process request player merchant payment' hjob =>
      exact ⟨_, hjob, by rw [Option.some.inj hfulfilled]⟩
  · contradiction

theorem has_of_holds {n number : ℕ} {stage : PaymentStage} {payment : VerifiedPayment}
    (hstage : (after p options chain store events n).stage number = some stage)
    (hholds : stage.holds = some payment) :
    (after p options chain store events n).has payment.key = true := by
  obtain ⟨job, hjob, rfl⟩ := Option.map_eq_some_iff.mp hstage
  apply (sound_after p options chain store events n).exclusive.has_of_holder number
  rw [holder_eq hjob, hholds]
  rfl

/-- A request that is about to release a claim was refused by its own `onPayment`. -/
theorem exists_refused {n number : ℕ} {payment : VerifiedPayment} {message : Bytes}
    (hstage : (after p options chain store events n).stage number =
      some (.releasing payment message)) :
    ∃ m < n, events m = .step number (.fulfilled (some message)) ∧
      (after p options chain store events m).stage number = some (.fulfilling payment) ∧
      ∀ k, m < k → k ≤ n → (after p options chain store events k).stage number =
        some (.releasing payment message) := by
  obtain ⟨m, -, hm, hbefore, hafter⟩ := History.exists_last_rise
    (p := fun k => (after p options chain store events k).stage number =
      some (.releasing payment message)) n.zero_le nofun hstage
  refine ⟨m, hm, ?_⟩
  rcases stage_next (hafter (m + 1) m.lt_succ_self hm) with
    hsame | hreading | ⟨answer, stage, s', hevent, hstage', hmove⟩
  · exact absurd hsame hbefore
  · contradiction
  · cases hmove with
    | idle => exact absurd hstage' hbefore
    | free _ hnone => contradiction
    | refused => exact ⟨hevent, hstage', hafter⟩

/-- A request whose `onPayment` call is under way made its claim itself. -/
theorem exists_claimed {n number : ℕ} {payment : VerifiedPayment}
    (hstage : (after p options chain store events n).stage number = some (.fulfilling payment)) :
    ∃ m < n, events m = .step number (.claimed none) ∧
      (after p options chain store events m).stage number = some (.claiming payment) ∧
      (after p options chain store events m).has payment.key = false ∧
      ∀ k, m < k → k ≤ n →
        (after p options chain store events k).stage number = some (.fulfilling payment) := by
  obtain ⟨m, -, hm, hbefore, hafter⟩ := History.exists_last_rise
    (p := fun k => (after p options chain store events k).stage number =
      some (.fulfilling payment)) n.zero_le nofun hstage
  refine ⟨m, hm, ?_⟩
  rcases stage_next (hafter (m + 1) m.lt_succ_self hm) with
    hsame | hreading | ⟨answer, stage, s', hevent, hstage', hmove⟩
  · exact absurd hsame hbefore
  · contradiction
  · cases hmove with
    | idle => exact absurd hstage' hbefore
    | free _ hnone => contradiction
    | claimed hfree => exact ⟨hevent, hstage', hfree, hafter⟩

variable (p options chain store events) in
/-- At `n` a request releases the claim of a payment: the claim it made itself and has had
since, after its own `onPayment` call was refused. -/
structure OwnRelease (number : ℕ) (payment : VerifiedPayment) (made refused n : ℕ) : Prop where
  order : made < refused ∧ refused < n
  claims : events made = .step number (.claimed none) ∧
    (after p options chain store events made).stage number = some (.claiming payment) ∧
    (after p options chain store events made).has payment.key = false
  isRefused : ∃ message, events refused = .step number (.fulfilled (some message)) ∧
    (after p options chain store events refused).stage number = some (.fulfilling payment)
  releases : ∃ failure, events n = .step number (.released failure)
  held : ∀ k, made < k → k ≤ n → (after p options chain store events k).has payment.key = true

theorem exists_ownRelease {n number : ℕ} {payment : VerifiedPayment} {message : Bytes}
    {failure : Option Bool} (hevent : events n = .step number (.released failure))
    (hstage : (after p options chain store events n).stage number =
      some (.releasing payment message)) :
    ∃ made refused, OwnRelease p options chain store events number payment made refused n := by
  obtain ⟨refused, hrefused, hrefusal, hfulfilling, hreleasing⟩ := exists_refused hstage
  obtain ⟨made, hmade, hclaim, hclaiming, hfree, hheld⟩ := exists_claimed hfulfilling
  refine ⟨made, refused, ⟨hmade, hrefused⟩, ⟨hclaim, hclaiming, hfree⟩,
    ⟨message, hrefusal, hfulfilling⟩, ⟨failure, hevent⟩, ?_⟩
  intro k hmade hk
  rcases Nat.lt_or_ge refused k with hlt | hle
  · exact has_of_holds (hreleasing k hlt hk) rfl
  · exact has_of_holds (hheld k hmade hle) rfl

end Run

end PaymentServer

end Sdk

end VeraKey
