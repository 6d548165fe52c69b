/-
What one event can do to a payment of the page, from the popup's window to the server's
answer.
-/
import VeraKey.ConnectMoves
import VeraKey.PageSession

namespace VeraKey

open ByteCodec

namespace Sdk

open VeraKeySession (sentPayment unconfirmed)

def PageJob.pay? : PageJob → Option PayJob
  | .pay job => some job
  | _ => none

/-- What an event can do to a payment. -/
inductive PayMove (page : Page) (number : ℕ) (job : PayJob) : PageEvent → PayJob → Prop
  | keeps {event} : PayMove page number job event job
  | window {event request after} (hcall : job.call = .opened request)
      (hknown : request.guesses event = false)
      (hmove : RequestMove page.browser.keccak request event after) :
      PayMove page number job (.window number event) { job with call := .opened after }
  | sends {settlement settlements sent} (hstage : job.stage = .window)
      (hsettled : job.call.settlements = settlement :: settlements)
      (hsent : sentPayment job.amount settlement = some sent) :
      PayMove page number job (.resume number)
        { job with
          posted := job.posted ++ [sent]
          stage := .confirming sent }
  | ends {error settlements outcome} (hstage : job.stage = .window)
      (hsettled : job.call.settlements = .rejected error :: settlements)
      (hsent : sentPayment job.amount (.rejected error) = none) :
      PayMove page number job (.resume number) { job with stage := .finished outcome }
  | confirms {sent answer receipt} (hstage : job.stage = .confirming sent)
      (hreceipt : (answer.call false).bind readReceipt = .ok receipt) :
      PayMove page number job (.answer number answer)
        { job with stage := .finished (.ok (some receipt)) }
  | fails {sent answer thrown} (hstage : job.stage = .confirming sent) :
      PayMove page number job (.answer number answer)
        { job with stage := .unconfirmed sent thrown }
  | rejects {sent thrown} (hstage : job.stage = .unconfirmed sent thrown) :
      PayMove page number job (.resume number)
        { job with stage := .finished (unconfirmed sent thrown) }
  | returns {outcome} (hstage : job.stage = .finished outcome) :
      PayMove page number job (.resume number) { job with stage := .done outcome }

/-- A payment as it starts: its parameters are there, and nothing was heard yet. -/
structure PayJob.New (job : PayJob) : Prop where
  stage : job.stage = .window
  posted : job.posted = []
  refused : ∀ error, job.call = .refused error → error.hash = none ∧ error.pending = none
  opened : ∀ request, job.call = .opened request →
    ∃ origin popup id params,
      request = (SiteRequest.fresh origin popup id : PageRequest).takeValues (.ok params)

/-- What an event can do to the jobs, as far as payments are concerned. -/
inductive JobsMove (page : Page) (jobs : JobTable PageJob) : PageEvent → JobTable PageJob → Prop
  | same {event} : JobsMove page jobs event jobs
  | starts {event job} (hnew : ∀ pay, job.pay? = some pay → pay.New) :
      JobsMove page jobs event (jobs.start job)
  | reloads {event error} :
      JobsMove page jobs event ((jobs.start (.load .asking)).start (.refused error))
  | other {event number job job'} (hjob : jobs.job? number = some job) (hpay : job.pay? = none)
      (hpay' : job'.pay? = none) : JobsMove page jobs event (jobs.set number job')
  | pays {event number job job'} (hjob : jobs.job? number = some (.pay job))
      (hmove : PayMove page number job event job') :
      JobsMove page jobs event (jobs.set number (.pay job'))

namespace VeraKeySession

/-- A payment of the page. -/
def pay? (session : VeraKeySession) (number : ℕ) : Option PayJob :=
  (session.jobs.job? number).bind PageJob.pay?

variable {page : Page} {session : VeraKeySession} {number : ℕ} {answer : ServerAnswer}

theorem pay?_eq_some {job : PayJob} :
    session.pay? number = some job ↔ session.jobs.job? number = some (.pay job) := by
  rw [pay?, Option.bind_eq_some_iff]
  constructor
  · rintro ⟨found, hfound, hpay⟩
    cases found with
    | pay other =>
        obtain rfl := Option.some.inj hpay
        exact hfound
    | _ => contradiction
  · intro hjob
    exact ⟨_, hjob, rfl⟩

/-! ## Starting -/

theorem jobs_opens' {connect : PageConnect} {call : PageCall} :
    (session.opens connect call).jobs = session.jobs := by
  rw [opens]
  split <;> rfl

/-- A call is refused at once, or opens a window. -/
theorem request_cases {ρ χ : Type*} (pending : Bool) (origin : Bytes) (popup? : Option ℕ)
    (id : Bytes) :
    (∃ code message, (SiteCall.request pending origin popup? id : SiteCall ρ χ) =
      .refuse code message) ∨
    ∃ popup, (SiteCall.request pending origin popup? id : SiteCall ρ χ) =
      .opened (.fresh origin popup id) := by
  cases pending with
  | true => exact .inl ⟨_, _, rfl⟩
  | false =>
      cases popup? with
      | none => exact .inl ⟨_, _, rfl⟩
      | some popup => exact .inr ⟨popup, rfl⟩

theorem new_pay {connect : PageConnect} {popup? : Option ℕ} {id : Bytes} {amount : ℤ}
    {params : ConnectParams} :
    PayJob.New ⟨connect.number, amount, (session.request connect popup? id).give params, [],
      .window⟩ := by
  rw [request]
  rcases request_cases (ρ := PopupResult) (χ := CallThrown) (connect.number ∈ session.pending)
    connect.origin popup? id with ⟨code, message, hcall⟩ | ⟨popup, hcall⟩ <;> rw [hcall]
  · refine ⟨rfl, rfl, ?_, ?_⟩
    · intro error hrefused
      injection hrefused with herror
      rw [← herror]
      exact ⟨rfl, rfl⟩
    · intro request hopened
      injection hopened
  · refine ⟨rfl, rfl, ?_, ?_⟩
    · intro error hrefused
      injection hrefused
    · intro request hopened
      injection hopened with hrequest
      exact ⟨connect.origin, popup, id, params, hrequest.symm⟩

theorem starts_other {job : PageJob} {event : PageEvent} (hpay : job.pay? = none) :
    JobsMove page session.jobs event (session.jobs.start job) := by
  refine .starts fun pay hsome => ?_
  rw [hpay] at hsome
  contradiction

theorem pay_jobs {amount : ℤ} {popup? : Option ℕ} {id : Bytes} {event : PageEvent} :
    JobsMove page session.jobs event (session.pay amount popup? id).jobs := by
  rw [pay]
  split
  · exact starts_other rfl
  · split
    · exact starts_other rfl
    · split
      · dsimp only [start]
        rw [jobs_opens']
        refine .starts ?_
        intro pay hpay
        obtain rfl := Option.some.inj hpay
        exact new_pay
      · exact starts_other rfl

theorem signIn_jobs {popup? : Option ℕ} {id : Bytes} {event : PageEvent} :
    JobsMove page session.jobs event (session.signIn popup? id).jobs := by
  rw [signIn]
  split
  · exact starts_other rfl
  · split
    · exact .reloads
    · dsimp only [start]
      rw [jobs_opens']
      exact starts_other rfl

/-! ## Going on -/

theorem jobs_hear : (session.hear answer).jobs = session.jobs := by
  rw [hear]
  split <;> rfl

theorem loaded_jobs (hjob : session.jobs.job? number = some (.load .asking)) :
    JobsMove page session.jobs (.answer number answer)
      (session.loaded page number answer).jobs := by
  rw [loaded]
  split
  · dsimp only [set]
    rw [jobs_hear]
    exact .other hjob rfl rfl
  · split
    · exact .other hjob rfl rfl
    · exact .other hjob rfl rfl

theorem signInFailed_jobs {job : SignInJob} {thrown : PageThrown} {event : PageEvent}
    (hjob : session.jobs.job? number = some (.signIn job)) :
    JobsMove page session.jobs event (session.signInFailed number job thrown).jobs := by
  rw [signInFailed]
  split
  · exact .other hjob rfl rfl
  · exact .other hjob rfl rfl

theorem answered_jobs {job : PageJob} (hjob : session.jobs.job? number = some job) :
    JobsMove page session.jobs (.answer number answer)
      (session.answered page number answer job).jobs := by
  cases job with
  | load stage =>
      cases stage with
      | asking => exact loaded_jobs hjob
      | _ => exact .same
  | signIn job =>
      obtain ⟨connect, call, stage⟩ := job
      cases stage with
      | checking =>
          change JobsMove page _ _ (session.signInChecked number _ answer).jobs
          rw [signInChecked]
          split
          · exact .other hjob rfl rfl
          · exact .other hjob rfl rfl
      | _ => exact .same
  | signOut outcome =>
      cases outcome with
      | none =>
          change JobsMove page _ _ (session.signedOut number answer).jobs
          rw [signedOut]
          split
          · dsimp only [set]
            rw [jobs_hear]
            exact .other hjob rfl rfl
          · exact .other hjob rfl rfl
      | some outcome => exact .same
  | pay job =>
      obtain ⟨connect, amount, call, posted, stage⟩ := job
      cases stage with
      | confirming sent =>
          change JobsMove page _ _ (session.payConfirmed number _ sent answer).jobs
          rw [payConfirmed]
          split
          · rename_i receipt hreceipt
            exact .pays hjob (.confirms rfl hreceipt)
          · dsimp only [set]
            rw [jobs_hear]
            exact .pays hjob (.fails rfl)
      | _ => exact .same
  | confirmPayment payment outcome =>
      cases outcome with
      | none =>
          change JobsMove page _ _ ((session.hear answer).set number _).jobs
          dsimp only [set]
          rw [jobs_hear]
          exact .other hjob rfl rfl
      | some outcome => exact .same
  | refused error => exact .same

theorem payAnswered_jobs {job : PayJob} (hjob : session.jobs.job? number = some (.pay job))
    (hstage : job.stage = .window) :
    JobsMove page session.jobs (.resume number) (session.payAnswered number job).jobs := by
  rw [payAnswered]
  split
  · exact .same
  · rename_i settlement settlements hsettled
    split
    · rename_i sent _ hsent
      exact .pays hjob (.sends hstage hsettled hsent)
    · rename_i error hsent
      exact .pays hjob (.ends hstage hsettled hsent)
    · exact .same

theorem resumed_jobs {job : PageJob} (hjob : session.jobs.job? number = some job) :
    JobsMove page session.jobs (.resume number) (session.resumed number job).jobs := by
  cases job with
  | load stage =>
      cases stage with
      | failed thrown => exact .other hjob rfl rfl
      | _ => exact .same
  | signIn job =>
      obtain ⟨connect, call, stage⟩ := job
      cases stage with
      | window =>
          change JobsMove page _ _ (session.signInAnswered number _).jobs
          rw [signInAnswered]
          split
          · exact .other hjob rfl rfl
          · exact signInFailed_jobs hjob
          · exact .same
      | failed thrown => exact signInFailed_jobs hjob
      | _ => exact .same
  | pay job =>
      obtain ⟨connect, amount, call, posted, stage⟩ := job
      cases stage with
      | window => exact payAnswered_jobs hjob rfl
      | unconfirmed sent thrown => exact .pays hjob (.rejects rfl)
      | finished outcome => exact .pays hjob (.returns rfl)
      | _ => exact .same
  | _ => exact .same

/-- The request of a payment changes as its window and its timers make it. -/
theorem happens_pay {job : PayJob} {event : RequestEvent PopupResult CallThrown} :
    PayMove page number job (.window number event)
      { job with call := (session.happens page job.connect job.call event).1 } := by
  obtain ⟨connect, amount, call, posted, stage⟩ := job
  cases call with
  | refused error => cases event <;> exact .keeps
  | opened request =>
      cases event with
      | values result => exact .keeps
      | _ =>
          dsimp only [happens]
          split
          · exact .keeps
          · rename_i hknown
            exact .window rfl (Bool.not_eq_true _ ▸ hknown) (SiteRequest.move_step _)

theorem windowed_jobs {job : PageJob} {event : RequestEvent PopupResult CallThrown}
    (hjob : session.jobs.job? number = some job) :
    JobsMove page session.jobs (.window number event)
      (session.windowed page number event job).jobs := by
  cases job with
  | signIn job => exact .other hjob rfl rfl
  | pay job => exact .pays hjob happens_pay
  | _ => exact .same

theorem jobs_move (event : PageEvent) :
    JobsMove page session.jobs event (session.next page event).jobs := by
  cases event with
  | load => exact starts_other rfl
  | signIn popup? id => exact signIn_jobs
  | signOut => exact starts_other rfl
  | pay amount popup? id => exact pay_jobs
  | confirmPayment payment => exact starts_other rfl
  | window number event =>
      rw [next]
      cases hjob : session.jobs.job? number with
      | none => exact .same
      | some job => exact windowed_jobs hjob
  | nonce number answer =>
      rw [next]
      split
      · rename_i job hjob
        rw [nonceAnswered]
        split
        · exact .same
        · split
          · dsimp only [set]
            rw [jobs_hear]
            exact .other hjob rfl rfl
          · exact .same
      · exact .same
  | answer number answer =>
      rw [next]
      cases hjob : session.jobs.job? number with
      | none => exact .same
      | some job => exact answered_jobs hjob
  | resume number =>
      rw [next]
      cases hjob : session.jobs.job? number with
      | none => exact .same
      | some job => exact resumed_jobs hjob

end VeraKeySession

end Sdk

end VeraKey
