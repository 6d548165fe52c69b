/-
Payments of one transaction.  What a request claims is its payment's transaction, and one
transaction can make several payments: the first to be accepted shuts the others out.
-/
import VeraKey.PaymentsOnce

namespace VeraKey

open ByteCodec Guard TextCodec

namespace Sdk

variable {p : Platform} {options : VeraKeyServerOptions} {chain : PaymentChain}
variable {store : VeraKeyStore}

/-! ## The payments a request names -/

def PaymentName.Names : PaymentName → PaidEvent → Prop
  | .hash text, event => toLowerCase event.hash = toLowerCase text
  | .nonce value, event => event.log.nonce = value

/-- The event is a payment from the player's account to the site, for the amount and under
the name that the request states. -/
def PaymentJob.Names (p : Platform) (chain : PaymentChain) (job : PaymentJob)
    (event : PaidEvent) : Prop :=
  chain.Emitted event ∧ toLowerCase event.log.address = toLowerCase job.player.account ∧
    toLowerCase event.log.recipient = toLowerCase job.merchant ∧
    ∃ amount name, readPayment p job.request = .ok (amount, name) ∧ event.log.amount = amount ∧
      name.Names event

namespace PaymentServer

/-- An `onPayment` call that was handed this event has succeeded. -/
def Accepted (chain : PaymentChain) (server : PaymentServer store) (event : PaidEvent) : Prop :=
  ∃ number payment, server.fulfilled number = some payment ∧ chain.matched payment = some event

/-- Another request for this event is in progress: it names it or has verified it. -/
def InProgress (p : Platform) (chain : PaymentChain) (server : PaymentServer store)
    (number : ℕ) (event : PaidEvent) : Prop :=
  ∃ other job, other ≠ number ∧ server.jobs.job? other = some job ∧
    (∀ answer, job.stage ≠ .answered answer) ∧
    (job.Names p chain event ∨
      ∃ payment, job.stage.verified = some payment ∧ chain.matched payment = some event)

/-- The store's calls go through, as far as requests wait for them. -/
def StoreAnswers : PaymentEvent → Prop
  | .step _ (.claimed failure) => failure = none
  | .step _ (.released failure) => failure = none
  | _ => True

/-- When a request reaches its claim, whoever has the claim of that transaction has it for
the payment that this request names, and it names no other. -/
def Unshared (p : Platform) (chain : PaymentChain) (server : PaymentServer store) :
    PaymentEvent → Prop
  | .step number (.claimed _) =>
      ∀ job payment, server.jobs.job? number = some job → job.stage = .claiming payment →
        ∀ other job' payment', server.jobs.job? other = some job' →
          job'.stage.holds = some payment' → payment'.key = payment.key →
            ∀ event, job.Names p chain event → chain.matched payment' = some event
  | _ => True

end PaymentServer

/-! ## Refusals -/

theorem status_readBody {request : KitRequest} {error : HttpError}
    (hread : readBody p request = .error error) : error.status ≠ 409 := by
  rw [readBody, bind_eq_error] at hread
  rcases hread with hlarge | ⟨_, -, hjson⟩
  · rw [← (rejectIf_eq_error.mp hlarge).2]
    decide
  · rw [← (orElse_eq_error.mp hjson).2]
    decide

theorem status_readPayment {request : KitRequest} {error : HttpError}
    (hread : readPayment p request = .error error) : error.status ≠ 409 := by
  rw [readPayment, bind_eq_error] at hread
  rcases hread with hbody | ⟨body, -, hread⟩
  · exact status_readBody hbody
  · rw [bind_eq_error] at hread
    rcases hread with hamount | ⟨amount, -, hname⟩
    · rw [← (orElse_eq_error.mp hamount).2]
      decide
    · split at hname
      · contradiction
      · contradiction
      · rw [← Except.error.inj hname]
        decide

namespace PaymentJob

variable {job : PaymentJob} {now : ℤ} {s : store.State} {answer : PaymentAnswer}

theorem status_of_refused {error : HttpError}
    (heq : PaymentStage.answered (.error error) = .answered (.error alreadyAccepted)) :
    error.status = 409 := by
  injection heq with heq
  rw [Except.error.inj heq]
  rfl

theorem afterBody_ne : job.afterBody p ≠ .answered (.error alreadyAccepted) := by
  intro hrefused
  rw [afterBody] at hrefused
  split at hrefused
  · next hread => exact status_readPayment hread (status_of_refused hrefused)
  · contradiction
  · contradiction

theorem afterLook_ne {amount nonce : ℕ} {look : FindLook} :
    job.afterLook chain amount nonce look ≠ .answered (.error alreadyAccepted) := by
  intro hrefused
  rw [afterLook] at hrefused
  split at hrefused
  · exact absurd (status_of_refused hrefused) (by decide)
  · contradiction
  · split at hrefused
    · exact absurd (status_of_refused hrefused) (by decide)
    · contradiction

theorem afterReceipt_ne {amount : ℕ} {found : Bytes} {tries : ℕ} {answers : ReceiptAnswers} :
    job.afterReceipt chain amount found tries answers ≠ .answered (.error alreadyAccepted) := by
  intro hrefused
  rw [afterReceipt] at hrefused
  split at hrefused
  · contradiction
  · split at hrefused
    · contradiction
    · exact absurd (status_of_refused hrefused) (show (400 : ℕ) ≠ 409 by decide)

theorem afterRelease_ne {payment : VerifiedPayment} {message : Bytes} {failure : Option Bool} :
    (afterRelease store payment message s failure).1 ≠ .answered (.error alreadyAccepted) := by
  intro hrefused
  cases failure with
  | none => exact absurd (status_of_refused hrefused) (show (400 : ℕ) ≠ 409 by decide)
  | some removed => exact absurd (status_of_refused hrefused) (by decide)

/-- A claim is refused exactly when the store has its key. -/
theorem afterClaim_eq_refused {payment : VerifiedPayment} {failure : Option Bool} :
    (afterClaim store payment now s failure).1 = .answered (.error alreadyAccepted) ↔
      failure = none ∧ store.has s now payment.key = true := by
  cases failure with
  | none =>
      simp only [afterClaim, store.claim_fst]
      cases store.has s now payment.key with
      | false => simp
      | true => simp
  | some recorded =>
      refine iff_of_false ?_ (by simp)
      intro hrefused
      exact absurd (status_of_refused hrefused) (by decide)

theorem step_claim {payment : VerifiedPayment} {failure : Option Bool}
    (hstage : job.stage = .claiming payment) :
    job.step p chain store now s (.claimed failure) = afterClaim store payment now s failure := by
  obtain ⟨process, request, player, merchant, stage⟩ := job
  subst hstage
  rfl

/-- Only a claim of a key that the store has is answered so. -/
theorem refused_step (hnew : job.stage ≠ .answered (.error alreadyAccepted))
    (hrefused : (job.step p chain store now s answer).1 = .answered (.error alreadyAccepted)) :
    ∃ payment, job.stage = .claiming payment ∧ answer = .claimed none ∧
      store.has s now payment.key = true := by
  obtain ⟨process, request, player, merchant, stage⟩ := job
  cases stage with
  | reading =>
      cases answer with
      | body => exact absurd hrefused afterBody_ne
      | _ => contradiction
  | finding amount nonce =>
      cases answer with
      | look look => exact absurd hrefused afterLook_ne
      | _ => contradiction
  | verifying amount found tries =>
      cases answer with
      | receipt answers => exact absurd hrefused afterReceipt_ne
      | _ => contradiction
  | claiming payment =>
      cases answer with
      | claimed failure =>
          obtain ⟨rfl, hhas⟩ := afterClaim_eq_refused.mp hrefused
          exact ⟨payment, rfl, rfl, hhas⟩
      | _ => contradiction
  | fulfilling payment =>
      cases answer with
      | fulfilled refusal =>
          cases refusal with
          | none => exact absurd (PaymentStage.answered.inj hrefused) (by simp)
          | some message => contradiction
      | _ => contradiction
  | releasing payment message =>
      cases answer with
      | released failure => exact absurd hrefused afterRelease_ne
      | _ => contradiction
  | answered answer => exact absurd hrefused hnew

end PaymentJob

namespace PaymentServer

variable {server : PaymentServer store}

/-- While the store answers, a move leaves every claim of a payment to some request. -/
theorem covered_move {jobs : JobTable PaymentJob} {number : ℕ} {job : PaymentJob} {now : ℤ}
    {s s' : store.State} {answer : PaymentAnswer} {stage' : PaymentStage}
    (hcovered : store.Covered IsPayment s now (holder jobs)) (hjob : jobs.job? number = some job)
    (hanswers : StoreAnswers (.step number answer))
    (hmove : PaymentMove store now s job.stage answer stage' s') :
    store.Covered IsPayment s' now
      (Function.update (holder jobs) number (stage'.holds.map VerifiedPayment.key)) := by
  have hholder := holder_eq hjob
  generalize job.stage = stage at hmove hholder
  have hsame : stage'.holds = stage.holds → Function.update (holder jobs) number
      (stage'.holds.map VerifiedPayment.key) = holder jobs := by
    intro hholds
    rw [hholds, ← hholder]
    exact Function.update_eq_self number (holder jobs)
  cases hmove with
  | idle => rwa [hsame rfl]
  | free hbefore hafter =>
      rwa [hsame]
      rw [hbefore, PaymentStage.holds_of_verified hafter]
  | verified => rwa [hsame rfl]
  | claimed => exact hcovered.claim hholder
  | recorded => contradiction
  | accepted => rwa [hsame rfl]
  | refused => rwa [hsame rfl]
  | released => exact hcovered.release hholder
  | kept => contradiction

theorem covered_next
    (hcovered : store.Covered IsPayment server.state server.now (holder server.jobs))
    {event : PaymentEvent} (hanswers : StoreAnswers event) :
    store.Covered IsPayment (server.next p options chain event).state
      (server.next p options chain event).now
      (holder (server.next p options chain event).jobs) := by
  cases event with
  | arrives process request answers =>
      rcases next_arrives p options chain server process request answers with
        hsame | ⟨session, merchant, paying, -, -, hnext⟩
      · rwa [hsame]
      · rw [hnext, holder_start rfl]
        exact hcovered
  | step number answer =>
      cases hjob : server.jobs.job? number with
      | none => rwa [next_step_none hjob]
      | some job =>
          obtain ⟨stage', s', paying, -, hmove, hnext⟩ := next_step p options chain answer hjob
          rw [hnext, holder_set hjob]
          exact covered_move hcovered hjob hanswers hmove
  | signIn issued ttlSeconds => exact hcovered.claim_other (not_isPayment_nonce issued)
  | signOut sid ttlSeconds => exact hcovered.claim_other (not_isPayment_signOut sid)
  | wait ms => exact hcovered.wait (Int.le_add_of_nonneg_right (Int.natCast_nonneg ms))

variable {events : ℕ → PaymentEvent}

theorem covered_after (hanswers : ∀ n, StoreAnswers (events n)) (n : ℕ) :
    store.Covered IsPayment (after p options chain store events n).state
      (after p options chain store events n).now
      (holder (after p options chain store events n).jobs) := by
  induction n with
  | zero => exact .empty 0
  | succ n ih =>
      exact covered_next ih (hanswers n)

/-- A request that is refused so met the claim of another. -/
theorem exists_claim_of_refused (hanswers : ∀ n, StoreAnswers (events n)) {n number : ℕ}
    (hnew : (after p options chain store events n).stage number ≠
      some (.answered (.error alreadyAccepted)))
    (hrefused : (after p options chain store events (n + 1)).stage number =
      some (.answered (.error alreadyAccepted))) :
    ∃ job payment other job' payment',
      events n = .step number (.claimed none) ∧
      (after p options chain store events n).jobs.job? number = some job ∧
      job.stage = .claiming payment ∧
      (after p options chain store events n).jobs.job? other = some job' ∧
      job'.stage.holds = some payment' ∧ payment'.key = payment.key := by
  obtain ⟨job', hjob', hstage'⟩ := Option.map_eq_some_iff.mp hrefused
  rcases jobs_next hjob' with hbefore | hstarts | ⟨job, answer, hevent, hjob, rfl⟩
  · exact absurd (Option.map_eq_some_iff.mpr ⟨job', hbefore, hstage'⟩) hnew
  · rw [hstarts.1] at hstage'
    contradiction
  · have hnew' : job.stage ≠ .answered (.error alreadyAccepted) := by
      intro hsame
      exact hnew (Option.map_eq_some_iff.mpr ⟨job, hjob, hsame⟩)
    obtain ⟨payment, hstage, rfl, hhas⟩ := PaymentJob.refused_step hnew' hstage'
    obtain ⟨other, hother⟩ := covered_after hanswers n payment.key (isPayment_key payment) hhas
    obtain ⟨job', hjob', hholds⟩ := Option.bind_eq_some_iff.mp hother
    obtain ⟨payment', hholds, hkey⟩ := Option.map_eq_some_iff.mp hholds
    exact ⟨job, payment, other, job', payment', hevent, hjob, hstage, hjob', hholds, hkey⟩

/-- A claim that meets the claim of another request is refused, whatever the two name. -/
theorem refused_of_holds {n number other : ℕ} {job job' : PaymentJob}
    {payment payment' : VerifiedPayment} (hevent : events n = .step number (.claimed none))
    (hjob : (after p options chain store events n).jobs.job? number = some job)
    (hstage : job.stage = .claiming payment)
    (hjob' : (after p options chain store events n).jobs.job? other = some job')
    (hholds : job'.stage.holds = some payment') (hkey : payment'.key = payment.key) :
    (after p options chain store events (n + 1)).stage number =
      some (.answered (.error alreadyAccepted)) := by
  have hhas : store.has (after p options chain store events n).state
      (after p options chain store events n).now payment.key = true := by
    apply (sound_after p options chain store events n).exclusive.has_of_holder other
    rw [holder_eq hjob', hholds, ← hkey]
    rfl
  obtain ⟨stage', s', paying, hstep, -, hnext⟩ := next_step p options chain (.claimed none) hjob
  have hrefused : stage' = .answered (.error alreadyAccepted) := by
    rw [PaymentJob.step_claim hstage] at hstep
    exact (congrArg Prod.fst hstep).symm.trans
      (PaymentJob.afterClaim_eq_refused.mpr ⟨rfl, hhas⟩)
  rw [after_succ, hevent, stage, hnext, hrefused]
  exact Option.map_eq_some_iff.mpr ⟨_, JobTable.job?_set_self hjob, rfl⟩

end PaymentServer

/-! ## Two payments in one transaction -/

namespace SharedTransaction

open PaymentServer

def origin : Bytes := ascii "https://shop.example"

def merchant : Bytes := ascii "0x1111111111111111111111111111111111111111"

def serverOptions : VeraKeyServerOptions where
  origin := origin
  deployment := ⟨421614, ascii "0x2222222222222222222222222222222222222222",
    ascii "0x9999999999999999999999999999999999999999999999999999999999999999",
    ascii "https://verakey.xyz", ascii "0x3333333333333333333333333333333333333333"⟩
  merchant := some merchant
  sessionTtlSeconds := none

def hash : Bytes := ascii "0xabababababababababababababababababababababababababababababababab"

def body : Bytes :=
  ascii "\x7b\"amount\":\"1000000\",\"hash\":\"" ++ hash ++ ascii "\"\x7d"

def platform : Platform where
  keccak := fun _ => .ofNat 32 0
  sha256 := fun _ => .ofNat 32 0
  parseJson := fun bytes => [(body, Json.obj [(ascii "amount", .str (ascii "1000000")),
    (ascii "hash", .str hash)])].lookup bytes
  urlOrigin := .ok
  isoDate := fun _ => []
  numberText := fun _ => []
  encodingError := []

def first : VeraKeyPlayer where
  id := ascii "0x0a0a0a0a0a0a0a0a0a0a0a0a0a0a0a0a0a0a0a0a0a0a0a0a0a0a0a0a0a0a0a0a"
  account := ascii "0xaaaaaaaaaaaaaaaaaaaaaaaaaaaaaaaaaaaaaaaa"

def second : VeraKeyPlayer where
  id := ascii "0x0b0b0b0b0b0b0b0b0b0b0b0b0b0b0b0b0b0b0b0b0b0b0b0b0b0b0b0b0b0b0b0b"
  account := ascii "0xbbbbbbbbbbbbbbbbbbbbbbbbbbbbbbbbbbbbbbbb"

def paid (player : VeraKeyPlayer) : PaidLog := ⟨player.account, 0, merchant, 1000000, 20000⟩

/-- One transaction in which both accounts pay the site. -/
def both : PaymentChain := [⟨hash, 5, true, [.paid (paid first), .paid (paid second)]⟩]

/-- A signed-in player sends the hash. -/
def request (player : VeraKeyPlayer) : KitRequest :=
  ⟨some origin, 0, body, none, some ⟨player, ascii "0123456789abcdef0123456789abcdef", 1790604800⟩⟩

def arrival (player : VeraKeyPlayer) : PaymentEvent :=
  .arrives 0 (request player) ⟨1790000010, false, true⟩

def receipt : PaymentAnswer := .receipt ⟨some 10, false, none⟩

/-- The first player's request is accepted before the second's arrives. -/
def inTurn (player : VeraKeyPlayer) : ℕ → PaymentEvent
  | 0 => arrival first
  | 1 => .step 0 .body
  | 2 => .step 0 receipt
  | 3 => .step 0 (.claimed none)
  | 4 => .step 0 (.fulfilled none)
  | 5 => arrival player
  | 6 => .step 1 .body
  | 7 => .step 1 receipt
  | 8 => .step 1 (.claimed none)
  | _ => .wait 1000

theorem storeAnswers (player : VeraKeyPlayer) : ∀ n, StoreAnswers (inTurn player n)
  | 0 | 1 | 2 | 4 | 5 | 6 | 7 => trivial
  | 3 | 8 => rfl
  | _ + 9 => trivial

/-- A request of the sample, at a stage. -/
def job (player : VeraKeyPlayer) (stage : PaymentStage) : PaymentJob :=
  ⟨0, request player, player, merchant, stage⟩

def payment (player : VeraKeyPlayer) : VerifiedPayment :=
  ⟨player, hash, merchant, 1000000, 20000⟩

def event (player : VeraKeyPlayer) : PaidEvent := ⟨hash, paid player⟩

theorem after_eight :
    (after platform serverOptions both memoryStore (inTurn second) 8).jobs.started = 2 ∧
    (after platform serverOptions both memoryStore (inTurn second) 8).jobs.job? 0 =
      some (job first (.answered (.ok (payment first)))) ∧
    (after platform serverOptions both memoryStore (inTurn second) 8).jobs.job? 1 =
      some (job second (.claiming (payment second))) ∧
    (after platform serverOptions both memoryStore (inTurn second) (8 + 1)).stage 1 =
      some (.answered (.error alreadyAccepted)) := by
  decide +kernel

theorem read_requests : readPayment platform (request first) = .ok (1000000, .hash hash) ∧
    readPayment platform (request second) = .ok (1000000, .hash hash) := by
  decide +kernel

theorem names_requests (stage : PaymentStage) :
    (job first stage).Names platform both (event first) ∧
      (job second stage).Names platform both (event second) :=
  ⟨⟨⟨_, List.mem_singleton_self _, rfl, by decide +kernel⟩, rfl, rfl, 1000000, .hash hash,
      read_requests.1, rfl, rfl⟩,
    ⟨_, List.mem_singleton_self _, rfl, by decide +kernel⟩, rfl, rfl, 1000000, .hash hash,
      read_requests.2, rfl, rfl⟩

theorem matched_first : both.matched (payment first) = some (event first) := by
  decide +kernel

theorem after_again :
    (after platform serverOptions both memoryStore (inTurn first) 3).jobs.started = 1 ∧
    (after platform serverOptions both memoryStore (inTurn first) 3).jobs.job? 0 =
      some (job first (.claiming (payment first))) ∧
    (after platform serverOptions both memoryStore (inTurn first) 8).jobs.started = 2 ∧
    (after platform serverOptions both memoryStore (inTurn first) 8).jobs.job? 0 =
      some (job first (.answered (.ok (payment first)))) ∧
    (after platform serverOptions both memoryStore (inTurn first) 8).jobs.job? 1 =
      some (job first (.claiming (payment first))) ∧
    (after platform serverOptions both memoryStore (inTurn first) (8 + 1)).stage 1 =
      some (.answered (.error alreadyAccepted)) := by
  decide +kernel

theorem eq_of_names_first {stage : PaymentStage} {named : PaidEvent}
    (hnames : (job first stage).Names platform both named) : named = event first := by
  obtain ⟨⟨tx, htx, hhash, hlog⟩, haddress, -⟩ := hnames
  obtain rfl := List.mem_singleton.mp htx
  have hlogs : ∀ log ∈ parsePaid [.paid (paid first), .paid (paid second)],
      toLowerCase log.address = toLowerCase first.account → log = paid first := by
    decide +kernel
  obtain ⟨namedHash, namedLog⟩ := named
  rw [event, ← hlogs namedLog hlog haddress]
  exact congrArg (PaidEvent.mk · namedLog) hhash.symm

/-- The first player's request shares its transaction only with itself. -/
theorem unshared_of_holds {server : PaymentServer memoryStore}
    (hfirst : ∀ other job' payment', server.jobs.job? other = some job' →
      job'.stage.holds = some payment' → payment' = payment first)
    {number : ℕ} {stage : PaymentStage} (hjob : server.jobs.job? number = some (job first stage)) :
    server.Unshared platform both (.step number (.claimed none)) := by
  intro job₀ payment₀ hjob₀ _ other job' payment' hjob' hholds _ named hnames
  obtain rfl := Option.some.inj (hjob.symm.trans hjob₀)
  rw [hfirst other job' payment' hjob' hholds, matched_first, eq_of_names_first hnames]

theorem unshared_again (n : ℕ) :
    (after platform serverOptions both memoryStore (inTurn first) n).Unshared platform both
      (inTurn first n) := by
  obtain ⟨hthree, hclaiming, height, hfirst, hsecond, -⟩ := after_again
  match n with
  | 0 | 1 | 2 | 4 | 5 | 6 | 7 => trivial
  | 3 =>
      refine unshared_of_holds ?_ hclaiming
      intro other job' payment' hjob' hholds
      have hother : other = 0 := by
        by_contra hne
        rw [JobTable.unnumbered _ other (by omega)] at hjob'
        exact absurd hjob'.symm (Option.some_ne_none job')
      subst hother
      obtain rfl := Option.some.inj (hclaiming.symm.trans hjob')
      exact absurd hholds.symm (Option.some_ne_none payment')
  | 8 =>
      refine unshared_of_holds ?_ hsecond
      intro other job' payment' hjob' hholds
      have hother : other = 0 ∨ other = 1 := by
        by_contra hne
        rw [JobTable.unnumbered _ other (by omega)] at hjob'
        exact absurd hjob'.symm (Option.some_ne_none job')
      rcases hother with rfl | rfl
      · obtain rfl := Option.some.inj (hfirst.symm.trans hjob')
        exact (Option.some.inj hholds).symm
      · obtain rfl := Option.some.inj (hsecond.symm.trans hjob')
        exact absurd hholds.symm (Option.some_ne_none payment')
  | _ + 9 => trivial

end SharedTransaction

end Sdk

end VeraKey
