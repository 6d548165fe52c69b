/-
A payment that the player has made, or may have made, is not lost by the page: it goes to the
site's server, and the call ends with the server's receipt or with an error that carries it.
-/
import VeraKey.LeadsTo
import VeraKey.PagePayments

namespace VeraKey

open ByteCodec

namespace Sdk

open VeraKeySession (sentPayment unconfirmed)

/-! ## One payment -/

/-- An end of a call that does not lose what was sent. -/
inductive Settles (accepted : VeraKeySentPayment → VeraKeyPaymentReceipt → Prop)
    (sent : VeraKeySentPayment) : PayOutcome → Prop
  | receipt {receipt} (haccepted : accepted sent receipt) :
      Settles accepted sent (.ok (some receipt))
  | unconfirmed {error} (hpayment : error.payment = some sent) :
      Settles accepted sent (.error error)

namespace PayJob

/-- What ended the popup's request, once something has. -/
def settlement? (job : PayJob) : Option (Settlement PopupResult CallThrown) :=
  job.call.settlements.head?

/-- The payment that the server must hear of. -/
def owed (job : PayJob) : Option VeraKeySentPayment :=
  job.settlement?.bind (sentPayment job.amount)

/-- The call does not end before its request, and it keeps what it owes. -/
structure Ends (accepted : VeraKeySentPayment → VeraKeyPaymentReceipt → Prop) (job : PayJob)
    (outcome : PayOutcome) : Prop where
  settled : job.settlement? ≠ none
  posted_eq : job.posted = job.owed.toList
  settles : ∀ sent, job.owed = some sent → Settles accepted sent outcome

/-- What was posted, and how the call ends, follow what the popup said. -/
def Follows (accepted : VeraKeySentPayment → VeraKeyPaymentReceipt → Prop) (job : PayJob) : Prop :=
  match job.stage with
  | .window => job.posted = []
  | .confirming sent => job.owed = some sent ∧ job.posted = [sent]
  | .unconfirmed sent _ => job.owed = some sent ∧ job.posted = [sent]
  | .finished outcome => job.Ends accepted outcome
  | .done outcome => job.Ends accepted outcome

variable {accepted accepted' : VeraKeySentPayment → VeraKeyPaymentReceipt → Prop} {job : PayJob}

theorem settled_of_owed {sent : VeraKeySentPayment} (howed : job.owed = some sent) :
    job.settlement? ≠ none := by
  intro hnone
  rw [owed, hnone] at howed
  contradiction

theorem Ends.mono {outcome : PayOutcome} (hends : job.Ends accepted outcome)
    (hmono : ∀ sent receipt, accepted sent receipt → accepted' sent receipt) :
    job.Ends accepted' outcome := by
  refine ⟨hends.settled, hends.posted_eq, fun sent howed => ?_⟩
  cases hends.settles sent howed with
  | receipt haccepted => exact .receipt (hmono _ _ haccepted)
  | unconfirmed hpayment => exact .unconfirmed hpayment

theorem Follows.mono (hfollows : job.Follows accepted)
    (hmono : ∀ sent receipt, accepted sent receipt → accepted' sent receipt) :
    job.Follows accepted' := by
  obtain ⟨connect, amount, call, posted, stage⟩ := job
  cases stage with
  | finished outcome => exact Ends.mono hfollows hmono
  | done outcome => exact Ends.mono hfollows hmono
  | _ => exact hfollows

theorem New.follows (hnew : job.New) : job.Follows accepted := by
  rw [Follows, hnew.stage]
  exact hnew.posted

end PayJob

namespace PayMove

variable {page : Page} {number : ℕ} {job job' : PayJob} {event : PageEvent}

/-- The receipt that an event brings to a payment. -/
def Brings (number : ℕ) (job : PayJob) (event : PageEvent) (sent : VeraKeySentPayment)
    (receipt : VeraKeyPaymentReceipt) : Prop :=
  job.stage = .confirming sent ∧
    ∃ answer, event = .answer number answer ∧ (answer.call false).bind readReceipt = .ok receipt

theorem amount_eq (hmove : PayMove page number job event job') : job'.amount = job.amount := by
  cases hmove <;> rfl

/-- What ended the request does not change. -/
theorem settlement? {settlement : Settlement PopupResult CallThrown}
    (hmove : PayMove page number job event job') (hsettled : job.settlement? = some settlement) :
    job'.settlement? = some settlement := by
  cases hmove with
  | @window event request after hcall hknown hmove =>
      rw [PayJob.settlement?, hcall] at hsettled
      have hended : request.settled = true := by
        by_contra hopen
        have hnil := SiteRequest.settled_iff.mp (Bool.not_eq_true _ ▸ hopen)
        rw [SiteCall.settlements, hnil] at hsettled
        contradiction
      change after.settlement.posted.head? = some settlement
      rw [(hmove.ended hended).1]
      exact hsettled
  | _ => exact hsettled

theorem owed {sent : VeraKeySentPayment} (hmove : PayMove page number job event job')
    (howed : job.owed = some sent) : job'.owed = some sent := by
  obtain ⟨settlement, hsettled, hsent⟩ := Option.bind_eq_some_iff.mp howed
  rw [PayJob.owed, hmove.settlement? hsettled, hmove.amount_eq]
  exact hsent

/-- Once the request has ended, it is settled what the call owes. -/
theorem owed_eq (hmove : PayMove page number job event job') (hsettled : job.settlement? ≠ none) :
    job'.owed = job.owed := by
  obtain ⟨settlement, hsettlement⟩ := Option.ne_none_iff_exists'.mp hsettled
  rw [PayJob.owed, PayJob.owed, hmove.settlement? hsettlement, hsettlement, hmove.amount_eq]

theorem keeps_end {accepted : VeraKeySentPayment → VeraKeyPaymentReceipt → Prop}
    {outcome : PayOutcome} (hmove : PayMove page number job event job')
    (hends : job.Ends accepted outcome) (hposted : job'.posted = job.posted) :
    job'.Ends accepted outcome := by
  have howed := hmove.owed_eq hends.settled
  obtain ⟨settlement, hsettlement⟩ := Option.ne_none_iff_exists'.mp hends.settled
  constructor
  · rw [hmove.settlement? hsettlement]
    exact Option.some_ne_none _
  · rw [hposted, howed]
    exact hends.posted_eq
  · rw [howed]
    exact hends.settles

theorem follows {accepted accepted' : VeraKeySentPayment → VeraKeyPaymentReceipt → Prop}
    (hmove : PayMove page number job event job') (hfollows : job.Follows accepted)
    (hmono : ∀ sent receipt, accepted sent receipt → accepted' sent receipt)
    (hbrings : ∀ sent receipt, Brings number job event sent receipt → accepted' sent receipt) :
    job'.Follows accepted' := by
  have hfollows' : job.Follows accepted' := hfollows.mono hmono
  have hall := hmove
  cases hmove with
  | keeps => exact hfollows'
  | window hcall hknown hrequest =>
      obtain ⟨connect, amount, call, posted, stage⟩ := job
      cases stage with
      | window => exact hfollows'
      | confirming sent => exact ⟨hall.owed hfollows'.1, hfollows'.2⟩
      | unconfirmed sent thrown => exact ⟨hall.owed hfollows'.1, hfollows'.2⟩
      | finished outcome => exact hall.keeps_end hfollows' rfl
      | done outcome => exact hall.keeps_end hfollows' rfl
  | @sends settlement settlements sent hstage hsettled hsent =>
      rw [PayJob.Follows, hstage] at hfollows'
      constructor
      · change (job.call.settlements.head?).bind (sentPayment job.amount) = some sent
        rw [hsettled]
        exact hsent
      · change job.posted ++ [sent] = [sent]
        rw [hfollows', List.nil_append]
  | @ends error settlements outcome hstage hsettled hsent =>
      rw [PayJob.Follows, hstage] at hfollows'
      have howed : PayJob.owed { job with stage := .finished outcome } = none := by
        change (job.call.settlements.head?).bind (sentPayment job.amount) = none
        rw [hsettled]
        exact hsent
      constructor
      · change job.call.settlements.head? ≠ none
        rw [hsettled]
        exact Option.some_ne_none _
      · rw [howed]
        exact hfollows'
      · intro sent hsome
        rw [howed] at hsome
        contradiction
  | @confirms sent answer receipt hstage hreceipt =>
      rw [PayJob.Follows, hstage] at hfollows'
      obtain ⟨howed, hposted⟩ := hfollows'
      have howed' : PayJob.owed { job with stage := .finished (.ok (some receipt)) } = some sent :=
        howed
      refine ⟨PayJob.settled_of_owed howed', ?_, fun other hother => ?_⟩
      · rw [howed']
        exact hposted
      · obtain rfl := Option.some.inj (howed'.symm.trans hother)
        exact .receipt (hbrings _ _ ⟨hstage, answer, rfl, hreceipt⟩)
  | fails hstage =>
      rw [PayJob.Follows, hstage] at hfollows'
      exact hfollows'
  | @rejects sent thrown hstage =>
      rw [PayJob.Follows, hstage] at hfollows'
      obtain ⟨howed, hposted⟩ := hfollows'
      have howed' : PayJob.owed { job with stage := .finished (unconfirmed sent thrown) } =
          some sent := howed
      refine ⟨PayJob.settled_of_owed howed', ?_, fun other hother => ?_⟩
      · rw [howed']
        exact hposted
      · obtain rfl := Option.some.inj (howed'.symm.trans hother)
        exact .unconfirmed rfl
  | returns hstage =>
      rw [PayJob.Follows, hstage] at hfollows'
      exact ⟨hfollows'.settled, hfollows'.posted_eq, hfollows'.settles⟩

end PayMove

/-! ## What a request has heard -/

/-- A request has heard nothing before it was posted. -/
structure HeardRequest (request : PageRequest) : Prop where
  sound : SoundRequest request.origin request
  sent : request.sent ≠ none → request.posted ≠ []
  sending : request.sending ≠ none → request.posted ≠ []

theorem posted_of_known {request : PageRequest} {said : Bytes → PopupMessage PopupResult}
    (hid : (said request.id).id? = some request.id)
    (hknown : request.guesses (request.tells (said request.id)) = false) :
    request.posted ≠ [] := by
  intro hnil
  rw [SiteRequest.guesses, hnil, Option.bind_some, hid] at hknown
  simp at hknown

theorem HeardRequest.move {request later : PageRequest} {keccak : Bytes → B256}
    {happened : RequestEvent PopupResult CallThrown} (hheard : HeardRequest request)
    (hknown : request.guesses happened = false)
    (hmove : RequestMove keccak request happened later) : HeardRequest later := by
  obtain ⟨hsound, hsent, hsending⟩ := hheard
  have hsound' : SoundRequest later.origin later := by
    rw [hmove.fixed.2.2]
    exact hmove.sound hsound
  cases hmove with
  | @submits hash hopen hhash =>
      exact ⟨hsound', fun _ => @posted_of_known _ (.submitted · hash) rfl hknown, hsending⟩
  | @sends account nonce hopen haccount hnonce =>
      exact ⟨hsound', hsent,
        fun _ => @posted_of_known _ (.sending · account nonce) rfl hknown⟩
  | @posts params hopen hready hasked =>
      have hposted : request.posted ++ [⟨⟨request.id, params⟩, request.origin⟩] ≠ [] := by simp
      exact ⟨hsound', fun _ => hposted, fun _ => hposted⟩
  | _ => exact ⟨hsound', hsent, hsending⟩

/-! ## The payments of a run -/

namespace JobsMove

variable {page : Page} {jobs jobs' : JobTable PageJob} {event : PageEvent} {number : ℕ}
variable {job : PayJob}

/-- A payment goes on. -/
theorem pay_after (hmove : JobsMove page jobs event jobs')
    (hjob : jobs.job? number = some (.pay job)) :
    ∃ job', jobs'.job? number = some (.pay job') ∧ PayMove page number job event job' := by
  have hold : number < jobs.started := JobTable.lt_started hjob
  cases hmove with
  | same => exact ⟨job, hjob, .keeps⟩
  | starts hnew =>
      exact ⟨job, (JobTable.job?_start_of_ne (Nat.ne_of_lt hold)).trans hjob, .keeps⟩
  | reloads =>
      refine ⟨job, ?_, .keeps⟩
      rw [JobTable.job?_start_of_ne (Nat.ne_of_lt (Nat.lt_succ_of_lt hold)),
        JobTable.job?_start_of_ne (Nat.ne_of_lt hold)]
      exact hjob
  | @other other before after hbefore hpay hpay' =>
      by_cases hnumber : number = other
      · subst hnumber
        obtain rfl := Option.some.inj (hjob.symm.trans hbefore)
        contradiction
      · exact ⟨job, (JobTable.job?_set_of_ne hnumber).trans hjob, .keeps⟩
  | @pays other before after hbefore hmove =>
      by_cases hnumber : number = other
      · subst hnumber
        injection Option.some.inj (hjob.symm.trans hbefore) with hsame
        subst hsame
        exact ⟨after, JobTable.job?_set_self hbefore, hmove⟩
      · exact ⟨job, (JobTable.job?_set_of_ne hnumber).trans hjob, .keeps⟩

/-- Where a payment comes from. -/
theorem pay_before (hmove : JobsMove page jobs event jobs')
    (hjob : jobs'.job? number = some (.pay job)) :
    (number = jobs.started ∧ job.New) ∨ ∃ before, jobs.job? number = some (.pay before) ∧
      PayMove page number before event job := by
  cases hmove with
  | same => exact .inr ⟨job, hjob, .keeps⟩
  | starts hnew =>
      rcases JobTable.job?_start.mp hjob with ⟨hnumber, hstarted⟩ | hbefore
      · exact .inl ⟨hnumber, hnew job (hstarted ▸ rfl)⟩
      · exact .inr ⟨job, hbefore, .keeps⟩
  | reloads =>
      rcases JobTable.job?_start.mp hjob with ⟨-, hrefused⟩ | hloads
      · contradiction
      · rcases JobTable.job?_start.mp hloads with ⟨-, hload⟩ | hbefore
        · contradiction
        · exact .inr ⟨job, hbefore, .keeps⟩
  | @other other before after hbefore hpay hpay' =>
      by_cases hnumber : number = other
      · subst hnumber
        rw [JobTable.job?_set_self hbefore] at hjob
        obtain rfl := Option.some.inj hjob
        contradiction
      · exact .inr ⟨job, (JobTable.job?_set_of_ne hnumber).symm.trans hjob, .keeps⟩
  | @pays other before after hbefore hmove =>
      by_cases hnumber : number = other
      · subst hnumber
        rw [JobTable.job?_set_self hbefore] at hjob
        injection Option.some.inj hjob with hsame
        subst hsame
        exact .inr ⟨before, hbefore, hmove⟩
      · exact .inr ⟨job, (JobTable.job?_set_of_ne hnumber).symm.trans hjob, .keeps⟩

end JobsMove

theorem JobsMove.started_le {page : Page} {jobs jobs' : JobTable PageJob} {event : PageEvent}
    (hmove : JobsMove page jobs event jobs') : jobs.started ≤ jobs'.started := by
  cases hmove with
  | starts hnew => exact Nat.le_succ _
  | reloads => exact Nat.le_add_right _ 2
  | _ => exact le_rfl

namespace VeraKeySession

variable {page : Page} {session : VeraKeySession} {events : ℕ → PageEvent} {number n : ℕ}
variable {job : PayJob} {event : PageEvent}

theorem pay_next (hpay : session.pay? number = some job) :
    ∃ job', (session.next page event).pay? number = some job' ∧
      PayMove page number job event job' := by
  obtain ⟨job', hjob', hmove⟩ := (jobs_move event).pay_after (pay?_eq_some.mp hpay)
  exact ⟨job', pay?_eq_some.mpr hjob', hmove⟩

theorem pay_previous (hpay : (session.next page event).pay? number = some job) :
    (number = session.jobs.started ∧ job.New) ∨ ∃ before, session.pay? number = some before ∧
      PayMove page number before event job := by
  rcases (jobs_move event).pay_before (pay?_eq_some.mp hpay) with hnew | ⟨before, hbefore, hmove⟩
  · exact .inl hnew
  · exact .inr ⟨before, pay?_eq_some.mpr hbefore, hmove⟩

/-- A payment is there for good, and what it owes is settled once its request has ended. -/
theorem pay_later {m : ℕ} (hnm : n ≤ m) (hpay : (after page events n).pay? number = some job) :
    ∃ job', (after page events m).pay? number = some job' ∧
      ∀ sent, job.owed = some sent → job'.owed = some sent := by
  induction m, hnm using Nat.le_induction with
  | base => exact ⟨job, hpay, fun _ => id⟩
  | succ m hnm ih =>
      obtain ⟨before, hbefore, howed⟩ := ih
      obtain ⟨later, hlater, hmove⟩ := pay_next hbefore
      exact ⟨later, hlater, fun sent hsent => hmove.owed (howed sent hsent)⟩

theorem pay?_fresh : VeraKeySession.fresh.pay? number = none := rfl

/-- The server has accepted the payment that the call posted. -/
def Accepted (page : Page) (events : ℕ → PageEvent) (number n : ℕ) (sent : VeraKeySentPayment)
    (receipt : VeraKeyPaymentReceipt) : Prop :=
  ∃ k < n, ∃ job, (after page events k).pay? number = some job ∧
    PayMove.Brings number job (events k) sent receipt

/-- What a payment of a run posts and returns follows what its popup said. -/
theorem follows_after (hpay : (after page events n).pay? number = some job) :
    job.Follows (Accepted page events number n) := by
  induction n generalizing job with
  | zero =>
      rw [show after page events 0 = VeraKeySession.fresh from rfl, pay?_fresh] at hpay
      contradiction
  | succ n ih =>
      rw [after_succ] at hpay
      rcases pay_previous hpay with ⟨-, hnew⟩ | ⟨before, hbefore, hmove⟩
      · exact hnew.follows
      · refine hmove.follows (ih hbefore) ?_ ?_
        · rintro sent receipt ⟨k, hk, hbrought⟩
          exact ⟨k, Nat.lt_succ_of_lt hk, hbrought⟩
        · intro sent receipt hbrings
          exact ⟨n, Nat.lt_succ_self n, before, hbefore, hbrings⟩

/-! ## What the site hears of the popup -/

/-- The request of a payment that is not over. -/
def Asks (session : VeraKeySession) (number : ℕ) (request : PageRequest) : Prop :=
  ∃ job, session.pay? number = some job ∧ job.call = .opened request ∧ request.settled = false

/-- The request of a payment was posted, and its popup answers it. -/
def Hears (page : Page) (events : ℕ → PageEvent) (number n : ℕ)
    (said : Bytes → PopupMessage PopupResult) : Prop :=
  ∃ request, (after page events n).Asks number request ∧ request.posted ≠ [] ∧
    events n = .window number (request.tells (said request.id))

/-- The request of a payment was posted, and the poll finds its popup closed. -/
def Closes (page : Page) (events : ℕ → PageEvent) (number n : ℕ) : Prop :=
  ∃ request, (after page events n).Asks number request ∧ request.posted ≠ [] ∧
    events n = .window number (.closedPoll true)

/-- An end of the popup's request that is no result. -/
def Fails (page : Page) (events : ℕ → PageEvent) (number n : ℕ) (code : ConnectErrorCode) : Prop :=
  (code = .closed ∧ Closes page events number n) ∨
    ∃ message revert, Hears page events number n (.error · code message revert)

/-- What the popup's words leave the page with: a result; the last transaction it submitted; or,
where it submitted none, the last payment it was sending when it was closed or could not reach
its relayer. -/
inductive Owes (page : Page) (events : ℕ → PageEvent) (number : ℕ) (amount : ℤ) (last : ℕ) :
    VeraKeySentPayment → Prop
  | result {result} (hresult : Hears page events number last (.result · result)) :
      Owes page events number amount last (.hash amount result.hash?)
  | submitted {n hash code} (hhash : isHex hash = true) (hn : n < last)
      (hsubmitted : Hears page events number n (.submitted · hash))
      (hquiet : ∀ m, n < m → m < last → ∀ other, isHex other = true →
        ¬ Hears page events number m (.submitted · other))
      (hfails : Fails page events number last code) :
      Owes page events number amount last (.hash amount (some hash))
  | sending {n account nonce code} (haccount : isAddress page.browser.keccak account = true)
      (hnonce : isActionNonce nonce = true) (hn : n < last)
      (hsending : Hears page events number n (.sending · account nonce))
      (hquiet : ∀ m, n < m → m < last → ∀ account' nonce',
        isAddress page.browser.keccak account' = true → isActionNonce nonce' = true →
        ¬ Hears page events number m (.sending · account' nonce'))
      (hunsubmitted : ∀ m < last, ∀ hash, isHex hash = true →
        ¬ Hears page events number m (.submitted · hash))
      (hcode : code = .closed ∨ code = .relay) (hfails : Fails page events number last code) :
      Owes page events number amount last (.nonce amount (decimal nonce))

/-- The window of a payment answers its request. -/
theorem window_next {request : PageRequest} {happened : RequestEvent PopupResult CallThrown}
    (hpay : session.pay? number = some job) (hcall : job.call = .opened request)
    (hvalues : ∀ result, happened ≠ .values result) (hknown : request.guesses happened = false) :
    (session.next page (.window number happened)).pay? number =
      some { job with
        call := .opened (request.step page.browser.keccak
          (fun thrown : CallThrown => some thrown.asSessionError.message) happened) } := by
  have hjob := pay?_eq_some.mp hpay
  rw [pay?_eq_some, next, hjob]
  have hhappens : (session.happens page job.connect job.call happened).1 =
      .opened (request.step page.browser.keccak
        (fun thrown : CallThrown => some thrown.asSessionError.message) happened) := by
    rw [hcall]
    cases happened with
    | values result => exact absurd rfl (hvalues result)
    | _ =>
        rw [happens, hknown]
        · rfl
        · intro result hsame
          exact hvalues result hsame
  rw [← hhappens]
  exact JobTable.job?_set_self hjob

/-- A request that is open was open before, or is new. -/
theorem asks_previous {request : PageRequest}
    (hasks : (session.next page event).Asks number request) :
    (number = session.jobs.started ∧ ∃ origin popup id params,
      request = (SiteRequest.fresh origin popup id : PageRequest).takeValues (.ok params)) ∨
    ∃ before, session.Asks number before ∧ (request = before ∨ ∃ happened,
      event = .window number happened ∧ before.guesses happened = false ∧
      RequestMove page.browser.keccak before happened request) := by
  obtain ⟨job, hpay, hcall, hopen⟩ := hasks
  rcases pay_previous hpay with ⟨hnumber, hnew⟩ | ⟨before, hbefore, hmove⟩
  · exact .inl ⟨hnumber, hnew.opened request hcall⟩
  · right
    cases hmove with
    | @window happened earlier later hearlier hknown hrequest =>
        injection hcall with hlater
        subst hlater
        have hstill : earlier.settled = false := by
          by_contra hsettled
          have hsame := (hrequest.ended (Bool.not_eq_false _ ▸ hsettled)).1
          rw [SiteRequest.settled, hsame] at hopen
          exact hsettled hopen
        exact ⟨earlier, ⟨before, hbefore, hearlier, hstill⟩,
          .inr ⟨happened, rfl, hknown, hrequest⟩⟩
    | _ => exact ⟨request, ⟨_, hbefore, hcall, hopen⟩, .inl rfl⟩

theorem heard_after {request : PageRequest}
    (hasks : (after page events n).Asks number request) : HeardRequest request := by
  induction n generalizing request with
  | zero =>
      obtain ⟨job, hpay, -⟩ := hasks
      rw [show after page events 0 = VeraKeySession.fresh from rfl, pay?_fresh] at hpay
      contradiction
  | succ n ih =>
      rcases asks_previous hasks with
        ⟨-, origin, popup, id, params, rfl⟩ | ⟨before, hbefore, hsame⟩
      · have hfresh : HeardRequest (.fresh origin popup id : PageRequest) :=
          ⟨.fresh, fun hsent => absurd rfl hsent, fun hsending => absurd rfl hsending⟩
        exact @HeardRequest.move _ _ page.browser.keccak (.values (.ok params)) hfresh rfl .takes
      · rcases hsame with rfl | ⟨happened, -, hknown, hmove⟩
        · exact ih hbefore
        · exact (ih hbefore).move hknown hmove

/-- A request that was posted takes what its popup says. -/
theorem guesses_of_posted {request : PageRequest} {happened : RequestEvent PopupResult CallThrown}
    (hposted : request.posted ≠ []) : request.guesses happened = false := by
  cases happened with
  | message event =>
      rw [SiteRequest.guesses, List.isEmpty_eq_false_iff.mpr hposted]
      rfl
  | _ => rfl

/-- The listener of an open request takes a message of its window. -/
theorem step_tells {request : PageRequest} {keccak : Bytes → B256}
    {messageOf : CallThrown → Option Bytes} {said : PopupMessage PopupResult}
    (hopen : request.settled = false) :
    request.step keccak messageOf (request.tells said) = request.receive keccak said := by
  change request.onMessage keccak _ = _
  rw [SiteRequest.onMessage, if_neg (by simp [hopen]), if_neg (by simp)]

/-- What the site hears goes into its request. -/
theorem asks_heard {request : PageRequest} {said : PopupMessage PopupResult}
    (hpay : session.pay? number = some job) (hcall : job.call = .opened request)
    (hopen : request.settled = false) (hposted : request.posted ≠ []) :
    (session.next page (.window number (request.tells said))).pay? number =
      some { job with call := .opened (request.receive page.browser.keccak said) } := by
  have hvalues : ∀ result, request.tells said ≠ .values result := by
    intro result hsame
    cases hsame
  rw [window_next hpay hcall hvalues (guesses_of_posted hposted), step_tells hopen]

/-- A property of the request that a message brings, and that stays until another message. -/
theorem heard_until {said : Bytes → PopupMessage PopupResult} {p : PageRequest → Prop}
    {last : ℕ} {request : PageRequest} (hsaid : Hears page events number n said) (hn : n < last)
    (hbrings : ∀ request : PageRequest, p (request.receive page.browser.keccak (said request.id)))
    (hstays : ∀ m, n < m → m < last → ∀ before later happened,
      (after page events m).Asks number before → events m = .window number happened →
      before.guesses happened = false → RequestMove page.browser.keccak before happened later →
      p before → p later)
    (hasks : (after page events last).Asks number request) : p request := by
  induction last, hn using Nat.le_induction generalizing request with
  | base =>
      obtain ⟨before, ⟨job, hpay, hcall, hopen⟩, hposted, hevent⟩ := hsaid
      obtain ⟨later, hlater, hlaterCall, -⟩ := hasks
      rw [after_succ, hevent, asks_heard hpay hcall hopen hposted] at hlater
      obtain rfl := Option.some.inj hlater
      injection hlaterCall with hsame
      rw [← hsame]
      exact hbrings before
  | succ m hm ih =>
      rcases asks_previous hasks with ⟨hnumber, -⟩ | ⟨before, hbefore, hsame⟩
      · obtain ⟨asked, ⟨job, hpay, -⟩, -⟩ := hsaid
        obtain ⟨job', hpay', -⟩ := pay_later (Nat.le_of_lt hm) hpay
        exact absurd hnumber (Nat.ne_of_lt (JobTable.lt_started (pay?_eq_some.mp hpay')))
      · have hp : p before := ih (fun k hnk hkm => hstays k hnk (Nat.lt_succ_of_lt hkm)) hbefore
        rcases hsame with rfl | ⟨happened, hevent, hknown, hmove⟩
        · exact hp
        · exact hstays m hm (Nat.lt_succ_self m) before request happened hbefore hevent hknown
            hmove hp

/-- The popup's request of a payment fails. -/
theorem fails_next {last : ℕ} {code : ConnectErrorCode}
    (hfails : Fails page events number last code) :
    ∃ job request message revert, (after page events last).Asks number request ∧
      (after page events last).pay? number = some job ∧
      (after page events (last + 1)).pay? number =
        some { job with call := .opened (request.fail code message revert none) } := by
  rcases hfails with ⟨rfl, request, hasks, hposted, hevent⟩ |
    ⟨message, revert, request, hasks, hposted, hevent⟩
  · have hready := (heard_after hasks).sound.ready hposted
    obtain ⟨job, hpay, hcall, hopen⟩ := hasks
    have hvalues : ∀ result, (.closedPoll true : RequestEvent PopupResult CallThrown) ≠
        .values result := by
      intro result hsame
      cases hsame
    have hclosed : ∃ message, request.onClosedPoll true =
        request.fail .closed message none none := by
      rw [SiteRequest.onClosedPoll, hready]
      exact ⟨_, rfl⟩
    obtain ⟨message, hclosed⟩ := hclosed
    refine ⟨job, request, message, none, ⟨job, hpay, hcall, hopen⟩, hpay, ?_⟩
    rw [after_succ, hevent, window_next hpay hcall hvalues (guesses_of_posted hposted), ← hclosed]
    rfl
  · obtain ⟨job, hpay, hcall, hopen⟩ := hasks
    refine ⟨job, request, message, revert, ⟨job, hpay, hcall, hopen⟩, hpay, ?_⟩
    rw [after_succ, hevent, asks_heard hpay hcall hopen hposted, SiteRequest.receive, if_pos rfl]

/-- A request that fails keeps the last transaction it heard of, or else the payment that its
popup was sending. -/
theorem owed_of_fails {request : PageRequest} {code : ConnectErrorCode} {message : Bytes}
    {revert : Option Bytes} (hopen : request.settled = false) :
    PayJob.owed { job with call := .opened (request.fail code message revert none) } =
      sentPayment job.amount (.rejected
        ⟨code, message, revert, request.sent, request.pendingAt code, none⟩) := by
  have hsettled : PayJob.settlement?
      { job with call := .opened (request.fail code message revert none) } =
      some (.rejected ⟨code, message, revert, request.sent, request.pendingAt code, none⟩) := by
    change ((request.settlement.post _).posted).head? = _
    rw [AnswerLog.posted_post hopen, SiteRequest.settled_iff.mp hopen]
    rfl
  rw [PayJob.owed, hsettled]
  rfl

/-- Nothing was submitted before anything was heard. -/
theorem unsubmitted {last : ℕ} {request : PageRequest}
    (hquiet : ∀ m < last, ∀ hash, isHex hash = true →
      ¬ Hears page events number m (.submitted · hash))
    (hasks : (after page events last).Asks number request) : request.sent = none := by
  induction last generalizing request with
  | zero =>
      obtain ⟨job, hpay, -⟩ := hasks
      rw [show after page events 0 = VeraKeySession.fresh from rfl, pay?_fresh] at hpay
      contradiction
  | succ m ih =>
      rcases asks_previous hasks with
        ⟨-, origin, popup, id, params, rfl⟩ | ⟨before, hbefore, hsame⟩
      · rfl
      · have hnone := ih (fun k hk => hquiet k (Nat.lt_succ_of_lt hk)) hbefore
        rcases hsame with rfl | ⟨happened, hevent, hknown, hmove⟩
        · exact hnone
        · cases hmove with
          | @submits hash hopen hhash =>
              have hposted := @posted_of_known before (.submitted · hash) rfl hknown
              exact absurd ⟨before, hbefore, hposted, hevent⟩
                (hquiet m (Nat.lt_succ_self m) hash hhash)
          | _ => exact hnone

/-- The last transaction that the popup submitted is the one the request keeps. -/
theorem sent_of_submitted {last : ℕ} {hash : Bytes} {request : PageRequest} (hn : n < last)
    (hhash : isHex hash = true) (hsubmitted : Hears page events number n (.submitted · hash))
    (hquiet : ∀ m, n < m → m < last → ∀ other, isHex other = true →
      ¬ Hears page events number m (.submitted · other))
    (hasks : (after page events last).Asks number request) : request.sent = some hash := by
  refine heard_until (p := fun request => request.sent = some hash) hsubmitted hn ?_ ?_ hasks
  · intro before
    rw [SiteRequest.receive, if_pos ⟨rfl, hhash⟩]
  · intro m hnm hm before later happened hbefore hevent hknown hmove hsent
    cases hmove with
    | @submits other hopen hother =>
        have hposted := @posted_of_known before (.submitted · other) rfl hknown
        exact absurd ⟨before, hbefore, hposted, hevent⟩ (hquiet m hnm hm other hother)
    | _ => exact hsent

/-- The last payment that the popup was sending is the one the request keeps. -/
theorem sending_of_heard {last : ℕ} {account nonce : Bytes} {request : PageRequest}
    (hn : n < last) (haccount : isAddress page.browser.keccak account = true)
    (hnonce : isActionNonce nonce = true)
    (hsending : Hears page events number n (.sending · account nonce))
    (hquiet : ∀ m, n < m → m < last → ∀ account' nonce',
      isAddress page.browser.keccak account' = true → isActionNonce nonce' = true →
      ¬ Hears page events number m (.sending · account' nonce'))
    (hasks : (after page events last).Asks number request) :
    request.sending = some ⟨account, decimal nonce⟩ := by
  refine heard_until (p := fun request => request.sending = some ⟨account, decimal nonce⟩)
    hsending hn ?_ ?_ hasks
  · intro before
    rw [SiteRequest.receive, if_pos ⟨rfl, haccount, hnonce⟩]
  · intro m hnm hm before later happened hbefore hevent hknown hmove hsame
    cases hmove with
    | @sends account' nonce' hopen haccount' hnonce' =>
        have hposted := @posted_of_known before (.sending · account' nonce') rfl hknown
        exact absurd ⟨before, hbefore, hposted, hevent⟩
          (hquiet m hnm hm account' nonce' haccount' hnonce')
    | _ => exact hsame

/-- What the popup's words leave the page with is what the call owes. -/
theorem owed_of_owes {last : ℕ} {sent : VeraKeySentPayment} {amount : ℤ}
    (howes : Owes page events number amount last sent)
    (hamount : ∀ job, (after page events last).pay? number = some job → job.amount = amount) :
    ∃ job, (after page events (last + 1)).pay? number = some job ∧ job.owed = some sent := by
  cases howes with
  | @result result hresult =>
      obtain ⟨request, ⟨job, hpay, hcall, hopen⟩, hposted, hevent⟩ := hresult
      have hnext := @asks_heard page _ _ _ _ (.result request.id result) hpay hcall hopen hposted
      rw [← hevent, ← after_succ, SiteRequest.receive, if_pos rfl] at hnext
      refine ⟨_, hnext, ?_⟩
      have hsettled : PayJob.settlement?
          { job with call := .opened (request.settle (.resolved result)) } =
          some (.resolved result) := by
        change ((request.settlement.post _).posted).head? = _
        rw [AnswerLog.posted_post hopen, SiteRequest.settled_iff.mp hopen]
        rfl
      rw [PayJob.owed, hsettled, ← hamount job hpay]
      rfl
  | submitted hhash hn hsubmitted hquiet hfails =>
      obtain ⟨job, request, message, revert, hasks, hpay, hnext⟩ := fails_next hfails
      have hsent := sent_of_submitted hn hhash hsubmitted hquiet hasks
      obtain ⟨-, -, -, hopen⟩ := hasks
      refine ⟨_, hnext, ?_⟩
      rw [owed_of_fails hopen, hsent, ← hamount job hpay]
      rfl
  | sending haccount hnonce hn hsending hquiet hunsubmitted hcode hfails =>
      obtain ⟨job, request, message, revert, hasks, hpay, hnext⟩ := fails_next hfails
      have hsent := unsubmitted hunsubmitted hasks
      have hsending := sending_of_heard hn haccount hnonce hsending hquiet hasks
      obtain ⟨-, -, -, hopen⟩ := hasks
      have hpending : ∀ code, code = .closed ∨ code = .relay →
          request.pendingAt code = request.sending := by
        intro code hcode
        rw [SiteRequest.pendingAt, hsent]
        rcases hcode with rfl | rfl <;> rfl
      refine ⟨_, hnext, ?_⟩
      rw [owed_of_fails hopen, hsent, hpending _ hcode, hsending, ← hamount job hpay]
      rfl

/-! ## Every payment ends -/

/-- How far a call has come. -/
def progress : PayStage → ℕ
  | .window => 0
  | .confirming _ => 1
  | .unconfirmed _ _ => 2
  | .finished _ => 3
  | .done _ => 4

theorem progress_le {job' : PayJob} (hmove : PayMove page number job event job') :
    progress job.stage ≤ progress job'.stage := by
  cases hmove with
  | keeps => exact le_rfl
  | window hcall hknown hmove => exact le_rfl
  | sends hstage hsettled hsent => rw [hstage]; exact Nat.zero_le 1
  | ends hstage hsettled hsent => rw [hstage]; exact Nat.zero_le 3
  | confirms hstage hreceipt => rw [hstage]; exact Nat.le_add_right 1 2
  | fails hstage => rw [hstage]; exact Nat.le_succ 1
  | rejects hstage => rw [hstage]; exact Nat.le_succ 2
  | returns hstage => rw [hstage]; exact Nat.le_succ 3

theorem pay?_set {job' : PayJob} (hpay : session.pay? number = some job) :
    (session.set number (.pay job')).pay? number = some job' :=
  pay?_eq_some.mpr (JobTable.job?_set_self (pay?_eq_some.mp hpay))

/-- A call that has something to do goes on with it. -/
theorem resume_progress {sent : VeraKeySentPayment} (hpay : session.pay? number = some job)
    (howed : job.owed = some sent) (hidle : progress job.stage ≠ 1)
    (hopen : progress job.stage < 4) :
    ∃ job', (session.next page (.resume number)).pay? number = some job' ∧
      progress job.stage < progress job'.stage := by
  have hjob := pay?_eq_some.mp hpay
  rw [next, hjob]
  obtain ⟨connect, amount, call, posted, stage⟩ := job
  cases stage with
  | window =>
      obtain ⟨settlement, hsettled, hsent⟩ := Option.bind_eq_some_iff.mp howed
      obtain ⟨settlements, hcall⟩ := List.head?_eq_some_iff.mp hsettled
      change ∃ job', (session.payAnswered number _).pay? number = some job' ∧ _
      rw [payAnswered]
      change call.settlements = _ at hcall
      change sentPayment amount settlement = _ at hsent
      rw [hcall]
      dsimp only
      rw [hsent]
      exact ⟨_, pay?_set hpay, Nat.zero_lt_one⟩
  | confirming sent => exact absurd rfl hidle
  | unconfirmed sent thrown => exact ⟨_, pay?_set hpay, Nat.lt_succ_self 2⟩
  | finished outcome => exact ⟨_, pay?_set hpay, Nat.lt_succ_self 3⟩
  | done outcome => exact absurd hopen (Nat.lt_irrefl 4)

/-- The server's answer is heard. -/
theorem answer_progress {answer : ServerAnswer} (hpay : session.pay? number = some job)
    (hwaits : progress job.stage = 1) :
    ∃ job', (session.next page (.answer number answer)).pay? number = some job' ∧
      progress job.stage < progress job'.stage := by
  have hjob := pay?_eq_some.mp hpay
  rw [next, hjob]
  obtain ⟨connect, amount, call, posted, stage⟩ := job
  cases stage with
  | confirming sent =>
      change ∃ job', (session.payConfirmed number _ sent answer).pay? number = some job' ∧ _
      rw [payConfirmed]
      split
      · exact ⟨_, pay?_set hpay, Nat.lt_add_of_pos_right Nat.two_pos⟩
      · have hheard : (session.hear answer).pay? number =
            some ⟨connect, amount, call, posted, .confirming sent⟩ := by
          rw [pay?, jobs_hear]
          exact hpay
        exact ⟨_, pay?_set hheard, Nat.lt_succ_self 1⟩
  | _ => simp [progress] at hwaits

/-- The call owes the payment and has come this far. -/
def Reaches (page : Page) (events : ℕ → PageEvent) (number : ℕ) (sent : VeraKeySentPayment)
    (least n : ℕ) : Prop :=
  ∃ job, (after page events n).pay? number = some job ∧ job.owed = some sent ∧
    least ≤ progress job.stage

theorem Reaches.stays {sent : VeraKeySentPayment} {least : ℕ}
    (hreaches : Reaches page events number sent least n) :
    Reaches page events number sent least (n + 1) := by
  obtain ⟨job, hpay, howed, hleast⟩ := hreaches
  obtain ⟨later, hlater, hmove⟩ := pay_next hpay
  exact ⟨later, hlater, hmove.owed howed, hleast.trans (progress_le hmove)⟩

/-- The event that a stage waits for leads on from it. -/
theorem reaches_leadsTo {sent : VeraKeySentPayment} {least : ℕ} {p : PageEvent → Prop}
    (hrecurs : Recurs fun n => p (events n))
    (hturns : ∀ session job event, VeraKeySession.pay? session number = some job → p event →
      job.owed = some sent → progress job.stage = least →
      ∃ job', (session.next page event).pay? number = some job' ∧
        least < progress job'.stage) :
    LeadsTo (Reaches page events number sent least)
      (Reaches page events number sent (least + 1)) := by
  refine LeadsTo.of_recurs hrecurs (fun n hreaches _ => hreaches.stays) ?_
  intro n hreaches hevent
  obtain ⟨job, hpay, howed, hleast⟩ := hreaches
  obtain ⟨later, hlater, hmove⟩ := pay_next hpay
  refine ⟨later, hlater, hmove.owed howed, ?_⟩
  rcases Nat.eq_or_lt_of_le hleast with hsame | hmore
  · obtain ⟨turned, hturned, hmore⟩ := hturns _ job _ hpay hevent howed hsame.symm
    obtain rfl := Option.some.inj (hlater.symm.trans hturned)
    exact hmore
  · exact Nat.lt_of_lt_of_le hmore (progress_le hmove)

/-- A payment that the server must hear of ends, as the site's server answers in the end. -/
theorem owed_ends {sent : VeraKeySentPayment} (hresume : Recurs fun n => events n = .resume number)
    (hanswer : Recurs fun n => ∃ answer, events n = .answer number answer) :
    LeadsTo (Reaches page events number sent 0) (Reaches page events number sent 4) := by
  have hresumed : ∀ least, least ≠ 1 → least < 4 →
      LeadsTo (Reaches page events number sent least)
        (Reaches page events number sent (least + 1)) := by
    intro least hidle hopen
    refine reaches_leadsTo (p := (· = .resume number)) hresume ?_
    rintro session job event hpay rfl howed rfl
    exact resume_progress hpay howed hidle hopen
  have hanswered : LeadsTo (Reaches page events number sent 1)
      (Reaches page events number sent 2) := by
    refine reaches_leadsTo (p := fun event => ∃ answer, event = .answer number answer) hanswer ?_
    rintro session job event hpay ⟨answer, rfl⟩ - hwaits
    rw [← hwaits]
    exact answer_progress hpay hwaits
  have hposted := hresumed 0 Nat.zero_ne_one (by decide)
  have hfinished := hresumed 2 (by decide) (by decide)
  have hreturned := hresumed 3 (by decide) (by decide)
  exact ((hposted.chain hanswered).chain hfinished).chain hreturned

/-! ## A sent payment is kept -/

/-- The payment is not posted while the call waits for the popup's window, and then it is, once;
the call ends with the receipt that the server gave for it or with an error that carries it. -/
structure Keeps (accepted : VeraKeySentPayment → VeraKeyPaymentReceipt → Prop)
    (sent : VeraKeySentPayment) (job : PayJob) : Prop where
  waits : job.stage = .window → job.posted = []
  posts : job.stage ≠ .window → job.posted = [sent]
  settles : ∀ outcome, job.stage = .done outcome → Settles accepted sent outcome

theorem keeps_of_follows {accepted : VeraKeySentPayment → VeraKeyPaymentReceipt → Prop}
    {sent : VeraKeySentPayment} (howed : job.owed = some sent)
    (hfollows : job.Follows accepted) : Keeps accepted sent job := by
  obtain ⟨connect, amount, call, posted, stage⟩ := job
  have hends : ∀ outcome, PayJob.Ends accepted ⟨connect, amount, call, posted, stage⟩ outcome →
      posted = [sent] := by
    intro outcome hends
    have hposted := hends.posted_eq
    rw [howed] at hposted
    exact hposted
  have hposts : ∀ other, PayJob.owed ⟨connect, amount, call, posted, stage⟩ = some other →
      posted = [other] → posted = [sent] := by
    intro other hother hposted
    rw [hposted, Option.some.inj (hother.symm.trans howed)]
  cases stage with
  | window => exact ⟨fun _ => hfollows, fun hstage => absurd rfl hstage, nofun⟩
  | confirming other => exact ⟨nofun, fun _ => hposts other hfollows.1 hfollows.2, nofun⟩
  | unconfirmed other thrown => exact ⟨nofun, fun _ => hposts other hfollows.1 hfollows.2, nofun⟩
  | finished outcome => exact ⟨nofun, fun _ => hends outcome hfollows, nofun⟩
  | done outcome =>
      refine ⟨nofun, fun _ => hends outcome hfollows, ?_⟩
      rintro other hstage
      injection hstage with hsame
      rw [← hsame]
      exact hfollows.settles sent howed

theorem started_le {m : ℕ} (hnm : n ≤ m) :
    (after page events n).jobs.started ≤ (after page events m).jobs.started := by
  induction m, hnm using Nat.le_induction with
  | base => exact le_rfl
  | succ m hnm ih => exact ih.trans (jobs_move (events m)).started_le

/-- A call of `pay` is about its own amount. -/
theorem amount_of_pay {amount : ℤ} {popup? : Option ℕ} {id : Bytes}
    (hpay : (session.pay amount popup? id).pay? session.jobs.started = some job) :
    job.amount = amount := by
  have hnew {other : PageJob} {jobs : JobTable PageJob} (hjobs : jobs = session.jobs)
      (hjob : (jobs.start other).job? session.jobs.started = some (.pay job)) :
      other = .pay job := by
    subst hjobs
    rcases JobTable.job?_start.mp hjob with ⟨-, hother⟩ | hold
    · exact hother.symm
    · exact absurd rfl (Nat.ne_of_lt (JobTable.lt_started hold))
  rw [pay?_eq_some, pay] at hpay
  split at hpay
  · cases hnew rfl hpay
  · split at hpay
    · cases hnew rfl hpay
    · split at hpay
      · injection hnew jobs_opens' hpay with hjob
        rw [← hjob]
      · cases hnew rfl hpay

theorem started_pay {amount : ℤ} {popup? : Option ℕ} {id : Bytes} :
    (session.pay amount popup? id).jobs.started = session.jobs.started + 1 := by
  rw [pay]
  split
  · rfl
  · split
    · rfl
    · split
      · change ((session.opens _ _).jobs.start _).started = _
        rw [jobs_opens']
        rfl
      · rfl

theorem amount_after {amount : ℤ} {popup? : Option ℕ} {id : Bytes} {start m : ℕ}
    (hpays : events start = .pay amount popup? id)
    (hnumber : number = (after page events start).jobs.started)
    (hpay : (after page events m).pay? number = some job) : job.amount = amount := by
  have hstart : start < m := by
    by_contra hle
    have hold := JobTable.lt_started (pay?_eq_some.mp hpay)
    have hbefore := @started_le page events m start (Nat.le_of_not_lt hle)
    omega
  induction m, hstart using Nat.le_induction generalizing job with
  | base =>
      rw [after_succ, hpays, hnumber] at hpay
      exact amount_of_pay hpay
  | succ m hm ih =>
      rcases pay_previous hpay with ⟨hnew, -⟩ | ⟨before, hbefore, hmove⟩
      · have hlater := @started_le page events (start + 1) m hm
        rw [after_succ, hpays, next, started_pay, ← hnumber] at hlater
        exact absurd hnew (Nat.ne_of_lt hlater)
      · rw [hmove.amount_eq]
        exact ih hbefore

/-- Once the page has heard that a payment was sent, or may have been, it does not lose it, for
every order of messages, closures and answers; and the call ends, as long as the page goes on and
the server answers. -/
theorem sent_payment_is_kept {amount : ℤ} {popup? : Option ℕ} {id : Bytes} {start last : ℕ}
    {sent : VeraKeySentPayment} (hpays : events start = .pay amount popup? id)
    (hnumber : number = (after page events start).jobs.started)
    (howes : Owes page events number amount last sent) :
    (∀ n, last < n → ∃ job, (after page events n).pay? number = some job ∧
      Keeps (Accepted page events number n) sent job) ∧
    ((Recurs fun n => events n = .resume number) →
      (Recurs fun n => ∃ answer, events n = .answer number answer) →
      ∃ n, last < n ∧ ∃ job outcome, (after page events n).pay? number = some job ∧
        job.stage = .done outcome) := by
  obtain ⟨first, hfirst, howed⟩ :=
    owed_of_owes howes fun job hpay => amount_after hpays hnumber hpay
  constructor
  · intro n hn
    obtain ⟨job, hpay, hlater⟩ := pay_later hn hfirst
    exact ⟨job, hpay, keeps_of_follows (hlater sent howed) (follows_after hpay)⟩
  · intro hresume hanswer
    obtain ⟨n, hn, job, hpay, -, hdone⟩ := owed_ends hresume hanswer (last + 1)
      ⟨first, hfirst, howed, Nat.zero_le _⟩
    obtain ⟨connect, amount, call, posted, stage⟩ := job
    cases stage with
    | done outcome => exact ⟨n, hn, _, outcome, hpay, rfl⟩
    | _ => simp [progress] at hdone

end VeraKeySession

namespace KeptPayment

def page : Page where
  browser :=
    { keccak := fun _ => .ofNat 32 0
      parseUrl := fun url => some ⟨url, ascii "https:", url⟩ }
  shownNonce := id

def session : ServerAnswer :=
  .answered 200 (some ⟨none, none, some (ascii "v"), some (ascii "m"),
    some ⟨ascii "p", ascii "a"⟩, none, none, none, none, none⟩)

def receipt : ServerAnswer :=
  .answered 200 (some ⟨none, none, none, none, none, none, some (ascii "0x1"), some (ascii "5"),
    some (ascii "1"), none⟩)

/-- The popup submits a payment of 5 and is closed, and the server accepts it. -/
def events : ℕ → PageEvent
  | 0 => .load
  | 1 => .answer 0 session
  | 2 => .pay 5 (some 7) (ascii "i")
  | 3 => .window 1 (.message ⟨some 7, ascii "v", some .ready⟩)
  | 4 => .window 1 .given
  | 5 => .window 1 (.message ⟨some 7, ascii "v", some (.submitted (ascii "i") (ascii "0x1"))⟩)
  | 6 => .window 1 (.closedPoll true)
  | n => if n % 2 = 0 then .resume 1 else .answer 1 receipt

def request : PageRequest :=
  { (.fresh (ascii "v") 7 (ascii "i") : PageRequest) with
    values := .given (.pay (ascii "m") (ascii "5") (some (ascii "a")))
    ready := true
    asked := true
    posted := [⟨⟨ascii "i", .pay (ascii "m") (ascii "5") (some (ascii "a"))⟩, ascii "v"⟩] }

theorem hears_hash : VeraKeySession.Hears page events 1 5 (.submitted · (ascii "0x1")) :=
  ⟨request, ⟨⟨0, 5, .opened request, [], .window⟩, rfl, rfl, rfl⟩, List.cons_ne_nil _ _, rfl⟩

theorem closes : VeraKeySession.Closes page events 1 6 :=
  ⟨{ request with sent := some (ascii "0x1") },
    ⟨⟨0, 5, .opened { request with sent := some (ascii "0x1") }, [], .window⟩, rfl, rfl, rfl⟩,
    List.cons_ne_nil _ _, rfl⟩

theorem resumes : Recurs fun n => events n = .resume 1 := by
  intro n
  refine ⟨2 * n + 8, by omega, ?_⟩
  change (if (2 * n + 8) % 2 = 0 then PageEvent.resume 1 else .answer 1 receipt) = _
  rw [if_pos (by omega)]

theorem answers : Recurs fun n => ∃ answer, events n = .answer 1 answer := by
  intro n
  refine ⟨2 * n + 7, by omega, receipt, ?_⟩
  change (if (2 * n + 7) % 2 = 0 then PageEvent.resume 1 else .answer 1 receipt) = _
  rw [if_neg (by omega)]

/-- The page ends the call with the payment of the popup that was closed. -/
theorem hash_is_kept : ∃ n job outcome, 6 < n ∧
    (VeraKeySession.after page events n).pay? 1 = some job ∧ job.stage = .done outcome ∧
    VeraKeySession.Keeps (VeraKeySession.Accepted page events 1 n)
      (.hash 5 (some (ascii "0x1"))) job := by
  have hkept := VeraKeySession.sent_payment_is_kept
    (rfl : events 2 = .pay 5 (some 7) (ascii "i")) rfl
    (.submitted (by decide +kernel) (by decide) hears_hash (fun m h5 h6 => by omega)
      (.inl ⟨rfl, closes⟩))
  obtain ⟨n, hn, job, outcome, hpay, hdone⟩ := hkept.2 resumes answers
  obtain ⟨job', hpay', hkeeps⟩ := hkept.1 n hn
  obtain rfl := Option.some.inj (hpay.symm.trans hpay')
  exact ⟨n, job, outcome, hn, hpay, hdone, hkeeps⟩

end KeptPayment

end Sdk

end VeraKey
