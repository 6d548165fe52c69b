/-
When the state that a page shows is consistent: it has a player exactly while it is signed
in, and it is signing in only while a sign-in is open.
-/
import VeraKey.PageSession

namespace VeraKey

open ByteCodec

namespace Sdk

/-- The sign-in has not ended. -/
def SignInStage.isOpen : SignInStage → Bool
  | .done _ => false
  | _ => true

/-- The job is a sign-in that has not ended. -/
def PageJob.signingIn : PageJob → Bool
  | .signIn job => job.stage.isOpen
  | _ => false

/-- The job is a sign-in that waits for the popup. -/
def PageJob.awaitsPopup : PageJob → Bool
  | .signIn ⟨_, _, .window⟩ => true
  | _ => false

/-- The job is a sign-in that waits for the server. -/
def PageJob.awaitsServer : PageJob → Bool
  | .signIn ⟨_, _, .checking⟩ => true
  | _ => false

namespace VeraKeySession

/-- A sign-in of this session is open. -/
def SigningIn (session : VeraKeySession) (number : ℕ) : Prop :=
  ∃ job, session.jobs.job? number = some job ∧ job.signingIn = true

structure Consistent (session : VeraKeySession) : Prop where
  player_iff : session.current.player ≠ none ↔ session.current.status = .signedIn
  signingIn : session.current.status = .signingIn → ∃ number, session.SigningIn number

/-- What an event must not do: a sign-in that the player gave up ends while the session has no
player, and an answer that accepts a sign-in names the player. -/
def Clean (session : VeraKeySession) : PageEvent → Prop
  | .resume number => ∀ connect call error settlements,
      session.jobs.job? number = some (.signIn ⟨connect, call, .window⟩) →
      call.settlements = .rejected error :: settlements →
      (PageThrown.connect error).quiet = true → session.current.player = none
  | .answer number answer => ∀ connect call data,
      session.jobs.job? number = some (.signIn ⟨connect, call, .checking⟩) →
      answer.call true = .ok (some data) → data.player ≠ none
  | _ => True

/-- What an event can do to the state that the page shows. -/
inductive StatusMove (session : VeraKeySession) : PageEvent → VeraKeySession → Prop
  | keeps {event after} (hclean : session.Clean event)
      (hstatus : after.current.status = session.current.status)
      (hplayer : after.current.player = session.current.player)
      (hopen : ∀ number, session.SigningIn number → after.SigningIn number) :
      StatusMove session event after
  | shows {event after} (hclean : session.Clean event)
      (hstatus : after.current.status =
        if after.current.player.isSome then .signedIn else .signedOut) :
      StatusMove session event after
  | starts {event after number} (hclean : session.Clean event)
      (hsignedOut : session.current.status = .signedOut)
      (hstatus : after.current.status = .signingIn)
      (hplayer : after.current.player = session.current.player)
      (hopen : after.SigningIn number) : StatusMove session event after
  | givesUp {number connect call error settlements after}
      (hjob : session.jobs.job? number = some (.signIn ⟨connect, call, .window⟩))
      (hsettled : call.settlements = .rejected error :: settlements)
      (hquiet : (PageThrown.connect error).quiet = true)
      (hstatus : after.current.status = .signedOut)
      (hplayer : after.current.player = session.current.player) :
      StatusMove session (.resume number) after
  | signsIn {number connect call answer data after}
      (hjob : session.jobs.job? number = some (.signIn ⟨connect, call, .checking⟩))
      (hok : answer.call true = .ok (some data))
      (hstatus : after.current.status = .signedIn)
      (hplayer : after.current.player = data.player) :
      StatusMove session (.answer number answer) after

variable {page : Page} {session session' : VeraKeySession} {event : PageEvent} {number other : ℕ}
variable {job job' : PageJob} {answer : ServerAnswer}

theorem StatusMove.consistent_iff (hmove : StatusMove session event session')
    (hbefore : session.Consistent) : session'.Consistent ↔ session.Clean event := by
  cases hmove with
  | keeps hclean hstatus hplayer hopen =>
      refine iff_of_true ⟨?_, ?_⟩ hclean
      · rw [hstatus, hplayer]
        exact hbefore.player_iff
      · intro hsigning
        rw [hstatus] at hsigning
        obtain ⟨number, hnumber⟩ := hbefore.signingIn hsigning
        exact ⟨number, hopen number hnumber⟩
  | shows hclean hstatus =>
      refine iff_of_true ⟨?_, ?_⟩ hclean
      · rw [hstatus]
        cases session'.current.player <;> simp
      · intro hsigning
        rw [hstatus] at hsigning
        split at hsigning <;> contradiction
  | starts hclean hsignedOut hstatus hplayer hopen =>
      refine iff_of_true ⟨?_, fun _ => ⟨_, hopen⟩⟩ hclean
      have hnone := hbefore.player_iff
      rw [hsignedOut] at hnone
      rw [hstatus, hplayer]
      simpa using hnone
  | @givesUp number connect call error settlements _ hjob hsettled hquiet hstatus hplayer =>
      constructor
      · intro hafter connect' call' error' settlements' _ _ _
        by_contra hsome
        rw [← hplayer, ← ne_eq, hafter.player_iff, hstatus] at hsome
        contradiction
      · intro hclean
        have hnone := hclean connect call error settlements hjob hsettled hquiet
        constructor
        · rw [hstatus, hplayer, hnone]
          simp
        · rw [hstatus]
          nofun
  | @signsIn number connect call answer data _ hjob hok hstatus hplayer =>
      constructor
      · intro hafter connect' call' data' _ hok'
        rw [hok] at hok'
        obtain rfl := Option.some.inj (Except.ok.inj hok')
        rw [← hplayer]
        exact hafter.player_iff.mpr hstatus
      · intro hclean
        constructor
        · rw [hstatus, hplayer]
          exact iff_of_true (hclean connect call data hjob hok) rfl
        · rw [hstatus]
          nofun

/-! ## Every event is such a move -/

theorem signingIn_start (hjobs : session'.jobs = session.jobs.start job)
    (hopen : session.SigningIn number) : session'.SigningIn number := by
  obtain ⟨before, hbefore, hsigning⟩ := hopen
  refine ⟨before, ?_, hsigning⟩
  rw [hjobs, JobTable.job?_start_of_ne (Nat.ne_of_lt (JobTable.lt_started hbefore))]
  exact hbefore

theorem signingIn_set (hjob : session.jobs.job? number = some job)
    (hjobs : session'.jobs = session.jobs.set number job')
    (hsame : job.signingIn = true → job'.signingIn = true) (hopen : session.SigningIn other) :
    session'.SigningIn other := by
  obtain ⟨before, hbefore, hsigning⟩ := hopen
  by_cases hother : other = number
  · subst hother
    rw [hjob] at hbefore
    obtain rfl := Option.some.inj hbefore
    exact ⟨job', by rw [hjobs]; exact JobTable.job?_set_self hjob, hsame hsigning⟩
  · refine ⟨before, ?_, hsigning⟩
    rw [hjobs, JobTable.job?_set_of_ne hother]
    exact hbefore

/-- Only the end of a sign-in that waits for the popup can be unclean. -/
theorem clean_resume (hjob : session.jobs.job? number = some job)
    (hother : job.awaitsPopup = false) : session.Clean (.resume number) := by
  intro connect call error settlements hwindow
  rw [hjob] at hwindow
  obtain rfl := Option.some.inj hwindow
  contradiction

/-- Only the answer to a sign-in's result can be unclean. -/
theorem clean_answer (hjob : session.jobs.job? number = some job)
    (hother : job.awaitsServer = false) : session.Clean (.answer number answer) := by
  intro connect call data hchecking
  rw [hjob] at hchecking
  obtain rfl := Option.some.inj hchecking
  contradiction

theorem start_move (hclean : session.Clean event)
    (hcurrent : session'.current.status = session.current.status ∧
      session'.current.player = session.current.player)
    (hjobs : session'.jobs = session.jobs.start job) : StatusMove session event session' :=
  .keeps hclean hcurrent.1 hcurrent.2 fun _ => signingIn_start hjobs

theorem set_move (hclean : session.Clean event) (hjob : session.jobs.job? number = some job)
    (hcurrent : session'.current.status = session.current.status ∧
      session'.current.player = session.current.player)
    (hjobs : session'.jobs = session.jobs.set number job')
    (hsame : job.signingIn = true → job'.signingIn = true) : StatusMove session event session' :=
  .keeps hclean hcurrent.1 hcurrent.2 fun _ => signingIn_set hjob hjobs hsame

/-- A 401 signs out, and any other answer leaves the state as it is. -/
theorem hear_move (hclean : session.Clean event) (hjob : session.jobs.job? number = some job)
    (hsame : job.signingIn = true → job'.signingIn = true) :
    StatusMove session event ((session.hear answer).set number job') := by
  rw [hear]
  split
  · exact .shows hclean rfl
  · exact set_move hclean hjob ⟨rfl, rfl⟩ rfl hsame

theorem jobs_opens {connect : PageConnect} {call : PageCall} :
    (session.opens connect call).jobs = session.jobs := by
  rw [opens]
  split <;> rfl

theorem signIn_move {popup? : Option ℕ} {id : Bytes} :
    StatusMove session (.signIn popup? id) (session.signIn popup? id) := by
  rw [signIn]
  split
  · exact start_move trivial ⟨rfl, rfl⟩ rfl
  · rename_i hsignedOut
    split
    · refine .keeps trivial rfl rfl fun number hopen => ?_
      have hloading : (session.start (.load .asking)).SigningIn number :=
        signingIn_start rfl hopen
      exact signingIn_start rfl hloading
    · rename_i connect hconnect
      let call := session.request connect popup? id
      have hjob : ((session.opens connect call).jobs.start
          (.signIn ⟨connect.number, call, .window⟩)).job? session.jobs.started =
            some (.signIn ⟨connect.number, call, .window⟩) := by
        rw [jobs_opens]
        exact JobTable.job?_start.mpr (.inl ⟨rfl, rfl⟩)
      have hopen : ∀ after : VeraKeySession, after.jobs =
          (session.opens connect call).jobs.start (.signIn ⟨connect.number, call, .window⟩) →
          after.SigningIn session.jobs.started := by
        intro after hafter
        exact ⟨.signIn ⟨connect.number, call, .window⟩, hafter ▸ hjob, rfl⟩
      exact .starts trivial (not_not.mp hsignedOut) rfl rfl (hopen _ rfl)

theorem pay_move {amount : ℤ} {popup? : Option ℕ} {id : Bytes} :
    StatusMove session (.pay amount popup? id) (session.pay amount popup? id) := by
  rw [pay]
  split
  · exact start_move trivial ⟨rfl, rfl⟩ rfl
  · split
    · exact start_move trivial ⟨rfl, rfl⟩ rfl
    · split
      · rename_i connect merchant _ _
        exact start_move trivial ⟨rfl, rfl⟩ (congrArg (fun jobs : JobTable PageJob =>
          jobs.start (.pay ⟨connect.number, amount, _, [], .window⟩)) jobs_opens)
      · exact start_move trivial ⟨rfl, rfl⟩ rfl

theorem windowed_move {event : RequestEvent PopupResult CallThrown}
    (hjob : session.jobs.job? number = some job) :
    StatusMove session (.window number event) (session.windowed page number event job) := by
  cases job with
  | signIn job => exact set_move trivial hjob ⟨rfl, rfl⟩ rfl id
  | pay job => exact set_move trivial hjob ⟨rfl, rfl⟩ rfl id
  | _ => exact .keeps trivial rfl rfl fun _ => id

theorem nonceAnswered_move {job : SignInJob}
    (hjob : session.jobs.job? number = some (.signIn job)) :
    StatusMove session (.nonce number answer) (session.nonceAnswered page number job answer) := by
  rw [nonceAnswered]
  split
  · exact .keeps trivial rfl rfl fun _ => id
  · split
    · exact hear_move trivial hjob id
    · exact .keeps trivial rfl rfl fun _ => id

/-! ### Answers -/

theorem loaded_move (hjob : session.jobs.job? number = some (.load .asking)) :
    StatusMove session (.answer number answer) (session.loaded page number answer) := by
  have hclean : session.Clean (.answer number answer) := clean_answer hjob rfl
  rw [loaded]
  split
  · exact hear_move hclean hjob nofun
  · split
    · exact set_move hclean hjob ⟨rfl, rfl⟩ rfl nofun
    · exact .shows hclean rfl

theorem signInChecked_move {connect : ℕ} {call : PageCall}
    (hjob : session.jobs.job? number = some (.signIn ⟨connect, call, .checking⟩)) :
    StatusMove session (.answer number answer)
      (session.signInChecked number ⟨connect, call, .checking⟩ answer) := by
  rw [signInChecked]
  split
  · rename_i thrown hthrown
    refine set_move ?_ hjob ⟨rfl, rfl⟩ rfl fun _ => rfl
    intro connect' call' data _ hok
    rw [hok] at hthrown
    contradiction
  · rename_i data hdata
    cases hok : answer.call true with
    | error thrown =>
        rw [hok] at hdata
        contradiction
    | ok data? =>
        cases data? with
        | none =>
            rw [hok] at hdata
            contradiction
        | some data' =>
            rw [hok] at hdata
            obtain rfl := Except.ok.inj hdata
            exact .signsIn hjob hok rfl rfl

theorem answered_move (hjob : session.jobs.job? number = some job) :
    StatusMove session (.answer number answer) (session.answered page number answer job) := by
  have hidle (hother : job.awaitsServer = false) :
      StatusMove session (.answer number answer) session :=
    .keeps (clean_answer hjob hother) rfl rfl fun _ => id
  cases job with
  | refused error => exact hidle rfl
  | load stage =>
      cases stage with
      | asking => exact loaded_move hjob
      | _ => exact hidle rfl
  | signIn job =>
      obtain ⟨connect, call, stage⟩ := job
      cases stage with
      | checking => exact signInChecked_move hjob
      | _ => exact hidle rfl
  | signOut outcome =>
      cases outcome with
      | none =>
          have hclean : session.Clean (.answer number answer) := clean_answer hjob rfl
          change StatusMove session _ (session.signedOut number answer)
          rw [signedOut]
          split
          · exact hear_move hclean hjob nofun
          · exact .shows hclean rfl
      | some outcome => exact hidle rfl
  | pay job =>
      obtain ⟨connect, amount, call, posted, stage⟩ := job
      cases stage with
      | confirming sent =>
          have hclean : session.Clean (.answer number answer) := clean_answer hjob rfl
          change StatusMove session _ (session.payConfirmed number _ sent answer)
          rw [payConfirmed]
          split
          · exact set_move hclean hjob ⟨rfl, rfl⟩ rfl nofun
          · exact hear_move hclean hjob nofun
      | _ => exact hidle rfl
  | confirmPayment payment outcome =>
      cases outcome with
      | none => exact hear_move (clean_answer hjob rfl) hjob nofun
      | some outcome => exact hidle rfl

/-! ### Going on -/

theorem signInFailed_move {connect : ℕ} {call : PageCall} {thrown : CallThrown}
    (hjob : session.jobs.job? number = some (.signIn ⟨connect, call, .failed thrown⟩)) :
    StatusMove session (.resume number)
      (session.signInFailed number ⟨connect, call, .failed thrown⟩ (.call thrown)) :=
  .shows (clean_resume hjob rfl) rfl

theorem signInAnswered_move {connect : ℕ} {call : PageCall}
    (hjob : session.jobs.job? number = some (.signIn ⟨connect, call, .window⟩)) :
    StatusMove session (.resume number)
      (session.signInAnswered number ⟨connect, call, .window⟩) := by
  have hclean (hloud : ∀ error settlements, call.settlements = .rejected error :: settlements →
      (PageThrown.connect error).quiet = false) : session.Clean (.resume number) := by
    intro connect' call' error settlements hjob' hsettled hquiet
    rw [hjob] at hjob'
    injection Option.some.inj hjob' with hsame
    injection hsame with _ hcall
    rw [hloud error settlements (hcall ▸ hsettled)] at hquiet
    contradiction
  rw [signInAnswered]
  split
  · rename_i result settlements hsettled
    refine set_move (hclean ?_) hjob ⟨rfl, rfl⟩ rfl fun _ => rfl
    intro error settlements hrejected
    change call.settlements = _ at hsettled
    rw [hsettled] at hrejected
    injection hrejected with hresolved
    contradiction
  · rename_i error settlements hsettled
    rw [signInFailed]
    split
    · rename_i hquiet
      exact .givesUp hjob hsettled hquiet rfl rfl
    · rename_i hloud
      refine .shows (hclean ?_) rfl
      intro error' settlements' hrejected
      change call.settlements = _ at hsettled
      rw [hsettled] at hrejected
      injection hrejected with hsame
      injection hsame with hsame
      rw [← hsame]
      exact Bool.not_eq_true _ ▸ hloud
  · rename_i hsettled
    refine .keeps (hclean ?_) rfl rfl fun _ => id
    intro error settlements hrejected
    change call.settlements = _ at hsettled
    rw [hsettled] at hrejected
    contradiction

theorem resumed_move (hjob : session.jobs.job? number = some job) :
    StatusMove session (.resume number) (session.resumed number job) := by
  have hidle (hother : job.awaitsPopup = false) :
      StatusMove session (.resume number) session :=
    .keeps (clean_resume hjob hother) rfl rfl fun _ => id
  cases job with
  | load stage =>
      cases stage with
      | failed thrown => exact .shows (clean_resume hjob rfl) rfl
      | _ => exact hidle rfl
  | signIn job =>
      obtain ⟨connect, call, stage⟩ := job
      cases stage with
      | window => exact signInAnswered_move hjob
      | failed thrown => exact signInFailed_move hjob
      | _ => exact hidle rfl
  | pay job =>
      obtain ⟨connect, amount, call, posted, stage⟩ := job
      have hclean : session.Clean (.resume number) := clean_resume hjob rfl
      cases stage with
      | window =>
          change StatusMove session _ (session.payAnswered number _)
          rw [payAnswered]
          split
          · exact hidle rfl
          · split
            · exact set_move hclean hjob ⟨rfl, rfl⟩ rfl nofun
            · exact set_move hclean hjob ⟨rfl, rfl⟩ rfl nofun
            · exact hidle rfl
      | unconfirmed sent thrown => exact set_move hclean hjob ⟨rfl, rfl⟩ rfl nofun
      | finished outcome => exact set_move hclean hjob ⟨rfl, rfl⟩ rfl nofun
      | _ => exact hidle rfl
  | _ => exact hidle rfl

theorem status_move (event : PageEvent) : StatusMove session event (session.next page event) := by
  cases event with
  | load => exact start_move trivial ⟨rfl, rfl⟩ rfl
  | signIn popup? id => exact signIn_move
  | signOut => exact start_move trivial ⟨rfl, rfl⟩ rfl
  | pay amount popup? id => exact pay_move
  | confirmPayment payment => exact start_move trivial ⟨rfl, rfl⟩ rfl
  | window number event =>
      rw [next]
      cases hjob : session.jobs.job? number with
      | none => exact .keeps trivial rfl rfl fun _ => id
      | some job => exact windowed_move hjob
  | nonce number answer =>
      rw [next]
      split
      · rename_i job hjob
        exact nonceAnswered_move hjob
      · exact .keeps trivial rfl rfl fun _ => id
  | answer number answer =>
      rw [next]
      cases hjob : session.jobs.job? number with
      | none =>
          refine .keeps ?_ rfl rfl fun _ => id
          intro connect call data hchecking
          rw [hjob] at hchecking
          contradiction
      | some job => exact answered_move hjob
  | resume number =>
      rw [next]
      cases hjob : session.jobs.job? number with
      | none =>
          refine .keeps ?_ rfl rfl fun _ => id
          intro connect call error settlements hwindow
          rw [hjob] at hwindow
          contradiction
      | some job => exact resumed_move hjob

/-! ## Over a run -/

/-- The state that the page shows is consistent throughout a run exactly if no sign-in that the
player gave up ends while the session has a player, and no answer accepts a sign-in without
one. -/
theorem page_state_consistent_iff (page : Page) (events : ℕ → PageEvent) :
    (∀ n, (after page events n).Consistent) ↔ ∀ n, (after page events n).Clean (events n) := by
  constructor
  · intro hconsistent n
    exact ((status_move (events n)).consistent_iff (hconsistent n)).mp (hconsistent (n + 1))
  · intro hclean n
    induction n with
    | zero => exact ⟨by simp [after, History.run, fresh], nofun⟩
    | succ n ih => exact ((status_move (events n)).consistent_iff ih).mpr (hclean n)

end VeraKeySession

namespace SlowLoad

def player : VeraKeyPlayer := ⟨ascii "0x02", ascii "0xaa"⟩

def verakey : Bytes := ascii "https://verakey.example"

def page : Page where
  browser :=
    { keccak := fun _ => .ofNat 32 0
      parseUrl := fun url =>
        if url = verakey then some ⟨verakey, ascii "https:", ascii "verakey.example"⟩ else none }
  shownNonce := id

/-- The answer to a load. -/
def session (player : Option VeraKeyPlayer) : ServerAnswer :=
  .answered 200 (some ⟨none, none, some verakey, none, player, none, none, none, none, none⟩)

/-- A second load finds a player while a sign-in is open, and the sign-in's window is closed. -/
def events : ℕ → PageEvent
  | 0 => .load
  | 1 => .answer 0 (session none)
  | 2 => .signIn (some 7) (ascii "id")
  | 3 => .load
  | 4 => .answer 2 (session (some player))
  | 5 => .window 1 (.message ⟨some 7, verakey, some .ready⟩)
  | 6 => .window 1 (.closedPoll true)
  | _ => .resume 1

theorem current_after : (VeraKeySession.after page events 8).current =
    ⟨.signedOut, some player, false, none⟩ := by
  decide +kernel

/-- The page is signed out and still shows a player. -/
theorem signed_out_with_player : ¬ (VeraKeySession.after page events 8).Consistent := by
  intro hconsistent
  have hsignedIn : (VeraKeySession.after page events 8).current.status = .signedIn := by
    apply hconsistent.player_iff.mp
    rw [current_after]
    nofun
  rw [current_after] at hsignedIn
  contradiction

end SlowLoad

end Sdk

end VeraKey
