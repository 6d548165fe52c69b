/-
The two windows of "Sign in with VeraKey", whatever messages reach them and in whatever
order: the site's promise is settled once, the popup takes one request and answers it once.
-/
import VeraKey.ConnectMoves
import VeraKey.ConnectPopup

namespace VeraKey

open ByteCodec

namespace Sdk

universe u v

namespace VeraKeyConnect

variable {ρ : Type u} {χ : Type v}

/-! ## One event -/

/-- What an event can do to the site's side. -/
inductive ConnectMove (keccak : Bytes → B256) (connect : VeraKeyConnect ρ χ) :
    ConnectEvent ρ χ → VeraKeyConnect ρ χ → Prop
  | idle {event} : ConnectMove keccak connect event connect
  | refuses {event error pending} (hsame : pending = connect.pending) :
      ConnectMove keccak connect event
        { connect with
          pending := pending
          calls := connect.calls.start (.refused error) }
  | opens {popup id} (hfree : connect.pending = false) :
      ConnectMove keccak connect (.request (some popup) id)
        { connect with
          pending := true
          calls := connect.calls.start (.opened (.fresh connect.origin popup id)) }
  | happens {number event request after}
      (hjob : connect.calls.job? number = some (.opened request))
      (hmove : RequestMove keccak request event after) :
      ConnectMove keccak connect (.happens number event)
        { connect with
          pending := connect.pending && (request.settled || !after.settled)
          calls := connect.calls.set number (.opened after) }

variable {keccak : Bytes → B256} {messageOf : χ → Option Bytes}
variable {connect : VeraKeyConnect ρ χ} {event : ConnectEvent ρ χ} {origin : Bytes}
variable {events : ℕ → ConnectEvent ρ χ} {n m number : ℕ} {call : SiteCall ρ χ}
variable {request : SiteRequest ρ χ}

theorem move_next (event : ConnectEvent ρ χ) :
    ConnectMove keccak connect event (connect.next keccak messageOf event) := by
  cases event with
  | request popup? id =>
      rw [next]
      cases hpending : connect.pending with
      | true => exact .refuses hpending.symm
      | false =>
          cases popup? with
          | none => exact .refuses hpending.symm
          | some popup => exact .opens hpending
  | happens number event =>
      rw [next]
      split
      · rename_i request hjob
        exact .happens hjob (SiteRequest.move_step event)
      · exact .idle

/-- Where an open or settled request comes from. -/
theorem ConnectMove.job? {after : VeraKeyConnect ρ χ}
    (hmove : ConnectMove keccak connect event after)
    (hjob : after.calls.job? number = some (.opened request)) :
    (connect.calls.job? number = some (.opened request)) ∨
    (∃ popup id, event = .request (some popup) id ∧ request = .fresh connect.origin popup id) ∨
    (∃ happened before, event = .happens number happened ∧
      connect.calls.job? number = some (.opened before) ∧
      RequestMove keccak before happened request) := by
  cases hmove with
  | idle => exact .inl hjob
  | refuses hsame =>
      rcases JobTable.job?_start.mp hjob with ⟨-, hcall⟩ | hbefore
      · contradiction
      · exact .inl hbefore
  | @opens popup id hfree =>
      rcases JobTable.job?_start.mp hjob with ⟨-, hcall⟩ | hbefore
      · injection hcall with hcall
        exact .inr (.inl ⟨popup, id, rfl, hcall⟩)
      · exact .inl hbefore
  | @happens other happened before later hbefore hmove =>
      by_cases hnumber : number = other
      · subst hnumber
        rw [JobTable.job?_set_self hbefore] at hjob
        injection Option.some.inj hjob with hlater
        subst hlater
        exact .inr (.inr ⟨happened, before, rfl, hbefore, hmove⟩)
      · rw [JobTable.job?_set_of_ne hnumber] at hjob
        exact .inl hjob

/-- A call goes on, once it has started. -/
theorem ConnectMove.later {after : VeraKeyConnect ρ χ}
    (hmove : ConnectMove keccak connect event after)
    (hjob : connect.calls.job? number = some call) :
    after.calls.job? number = some call ∨
      ∃ happened before later, call = .opened before ∧
        after.calls.job? number = some (.opened later) ∧
        RequestMove keccak before happened later := by
  have hold : number ≠ connect.calls.started := Nat.ne_of_lt (JobTable.lt_started hjob)
  cases hmove with
  | idle => exact .inl hjob
  | refuses hsame => exact .inl ((JobTable.job?_start_of_ne hold).trans hjob)
  | opens hfree => exact .inl ((JobTable.job?_start_of_ne hold).trans hjob)
  | @happens other happened before later hbefore hmove =>
      by_cases hnumber : number = other
      · subst hnumber
        rw [hjob] at hbefore
        obtain rfl := Option.some.inj hbefore
        exact .inr ⟨happened, before, later, rfl, JobTable.job?_set_self hjob, hmove⟩
      · exact .inl ((JobTable.job?_set_of_ne hnumber).trans hjob)

/-! ## The site's side is sound -/

/-- The call has a window and no answer. -/
def Open (connect : VeraKeyConnect ρ χ) (number : ℕ) : Prop :=
  ∃ request, connect.calls.job? number = some (.opened request) ∧ request.settled = false

/-- `pending` says that a request is open, and there is only one. -/
structure SoundConnect (origin : Bytes) (connect : VeraKeyConnect ρ χ) : Prop where
  origin_eq : connect.origin = origin
  pending_iff : connect.pending = true ↔ ∃ number, connect.Open number
  one : ∀ number other, connect.Open number → connect.Open other → number = other
  requests : ∀ number request, connect.calls.job? number = some (.opened request) →
    SoundRequest origin request

theorem ConnectMove.origin_eq {after : VeraKeyConnect ρ χ}
    (hmove : ConnectMove keccak connect event after) : after.origin = connect.origin := by
  cases hmove <;> rfl

theorem open_start {after : VeraKeyConnect ρ χ} (hcalls : after.calls = connect.calls.start call) :
    after.Open number ↔ (number = connect.calls.started ∧ ∃ request, call = .opened request ∧
      request.settled = false) ∨ connect.Open number := by
  simp only [Open, hcalls, JobTable.job?_start]
  constructor
  · rintro ⟨request, ⟨hnumber, hcall⟩ | hjob, hopen⟩
    · exact .inl ⟨hnumber, request, hcall.symm, hopen⟩
    · exact .inr ⟨request, hjob, hopen⟩
  · rintro (⟨hnumber, request, hcall, hopen⟩ | ⟨request, hjob, hopen⟩)
    · exact ⟨request, .inl ⟨hnumber, hcall.symm⟩, hopen⟩
    · exact ⟨request, .inr hjob, hopen⟩

theorem open_set {after : VeraKeyConnect ρ χ} {later : SiteRequest ρ χ} {other : ℕ}
    (hjob : connect.calls.job? number = some call)
    (hcalls : after.calls = connect.calls.set number (.opened later)) :
    after.Open other ↔ if other = number then later.settled = false else connect.Open other := by
  rw [Open, hcalls]
  split
  · rename_i hother
    subst hother
    rw [JobTable.job?_set_self hjob]
    simp
  · rename_i hother
    rw [JobTable.job?_set_of_ne hother]
    rfl

/-- A request that is settled is not open again. -/
theorem open_of_later {later : SiteRequest ρ χ} {happened : RequestEvent ρ χ}
    (hmove : RequestMove keccak request happened later) (hlater : later.settled = false) :
    request.settled = false := by
  by_contra hsettled
  have hsame := (hmove.ended (Bool.not_eq_false _ ▸ hsettled)).1
  rw [SiteRequest.settled, hsame] at hlater
  exact hsettled hlater

theorem SoundConnect.pending_happens {later : SiteRequest ρ χ} {happened : RequestEvent ρ χ}
    (hsound : SoundConnect origin connect)
    (hjob : connect.calls.job? number = some (.opened request))
    (hmove : RequestMove keccak request happened later) :
    (connect.pending && (request.settled || !later.settled)) = true ↔
      ∃ other, if other = number then later.settled = false else connect.Open other := by
  have hopen : connect.Open number ↔ request.settled = false := by
    rw [Open, hjob]
    simp
  constructor
  · intro hpending
    obtain ⟨hpending, hstill⟩ := Bool.and_eq_true_iff.mp hpending
    obtain ⟨other, hother⟩ := hsound.pending_iff.mp hpending
    refine ⟨other, ?_⟩
    split
    · rename_i hnumber
      rw [hnumber, hopen] at hother
      rw [hother] at hstill
      simpa using hstill
    · exact hother
  · rintro ⟨other, hother⟩
    split at hother
    · have hbefore := open_of_later hmove hother
      rw [hsound.pending_iff.mpr ⟨number, hopen.mpr hbefore⟩, hother]
      simp
    · rename_i hnumber
      -- another request is open, so this one is not
      have hsettled : request.settled = true := by
        by_contra hbefore
        exact hnumber (hsound.one other number hother (hopen.mpr (Bool.not_eq_true _ ▸ hbefore)))
      rw [hsound.pending_iff.mpr ⟨other, hother⟩, hsettled]
      rfl

theorem SoundConnect.pending_next {after : VeraKeyConnect ρ χ}
    (hsound : SoundConnect origin connect) (hmove : ConnectMove keccak connect event after) :
    (after.pending = true ↔ ∃ number, after.Open number) ∧
      ∀ number other, after.Open number → after.Open other → number = other := by
  cases hmove with
  | idle => exact ⟨hsound.pending_iff, hsound.one⟩
  | @refuses event error pending hsame =>
      have hopen : ∀ number, VeraKeyConnect.Open
          { connect with
            pending := connect.pending
            calls := connect.calls.start (.refused error) } number ↔ connect.Open number := by
        intro number
        rw [open_start rfl]
        simp
      subst hsame
      simp only [hopen]
      exact ⟨hsound.pending_iff, hsound.one⟩
  | @opens popup id hfree =>
      have hnone : ∀ number, ¬ connect.Open number := by
        intro number hopen
        rw [hsound.pending_iff.mpr ⟨number, hopen⟩] at hfree
        contradiction
      have hopen : ∀ number, VeraKeyConnect.Open
          { connect with
            pending := true
            calls := connect.calls.start (.opened (.fresh connect.origin popup id)) } number ↔
            number = connect.calls.started := by
        intro number
        rw [open_start rfl]
        constructor
        · rintro (⟨hnumber, -⟩ | hbefore)
          · exact hnumber
          · exact absurd hbefore (hnone number)
        · intro hnumber
          exact .inl ⟨hnumber, _, rfl, rfl⟩
      simp only [hopen]
      exact ⟨by simp, fun number other hnumber hother => hnumber.trans hother.symm⟩
  | @happens job happened request later hjob hmove =>
      have hopen : ∀ number, VeraKeyConnect.Open
          { connect with
            pending := connect.pending && (request.settled || !later.settled)
            calls := connect.calls.set job (.opened later) } number ↔
            if number = job then later.settled = false else connect.Open number :=
        fun number => open_set hjob rfl
      refine ⟨(hsound.pending_happens hjob hmove).trans (exists_congr fun other =>
        (hopen other).symm), ?_⟩
      intro number other hnumber hother
      have hbefore : ∀ number, (if number = job then later.settled = false
          else connect.Open number) → connect.Open number := by
        intro number hopen
        split at hopen
        · rename_i hnumber
          rw [hnumber]
          exact ⟨request, hjob, open_of_later hmove hopen⟩
        · exact hopen
      exact hsound.one number other (hbefore number ((hopen number).mp hnumber))
        (hbefore other ((hopen other).mp hother))

theorem SoundConnect.next {after : VeraKeyConnect ρ χ} (hsound : SoundConnect origin connect)
    (hmove : ConnectMove keccak connect event after) : SoundConnect origin after := by
  obtain ⟨hpending, hone⟩ := hsound.pending_next hmove
  refine ⟨hmove.origin_eq.trans hsound.origin_eq, hpending, hone, ?_⟩
  intro number request hjob
  rcases hmove.job? hjob with hbefore | ⟨popup, id, -, rfl⟩ | ⟨happened, before, -, hbefore, hmove⟩
  · exact hsound.requests number request hbefore
  · rw [hsound.origin_eq]
    exact SoundRequest.fresh
  · exact hmove.sound (hsound.requests number before hbefore)

theorem sound_after (n : ℕ) : SoundConnect origin (after keccak messageOf origin events n) := by
  induction n with
  | zero =>
      constructor
      · rfl
      · constructor
        · nofun
        · rintro ⟨number, request, hjob, -⟩
          contradiction
      · rintro number other ⟨request, hjob, -⟩
        contradiction
      · nofun
  | succ n ih => exact ih.next (move_next (events n))

/-! ## Over a run -/

/-- A settled call stays as it is, and posts nothing more. -/
theorem settled_after (hmn : m ≤ n)
    (hjob : (after keccak messageOf origin events m).calls.job? number = some call)
    (hsettled : call.settlements ≠ []) :
    ∃ later, (after keccak messageOf origin events n).calls.job? number = some later ∧
      later.settlements = call.settlements ∧ later.posted = call.posted := by
  induction n, hmn using Nat.le_induction with
  | base => exact ⟨call, hjob, rfl, rfl⟩
  | succ n hmn ih =>
      obtain ⟨before, hbefore, hsettlements, hposted⟩ := ih
      rcases (move_next (events n)).later hbefore with hsame | hmoves
      · exact ⟨before, hsame, hsettlements, hposted⟩
      · obtain ⟨happened, request, later, rfl, hlater, hmove⟩ := hmoves
        have hended : request.settled = true := by
          by_contra hopen
          rw [Bool.not_eq_true, SiteRequest.settled_iff] at hopen
          exact hsettled (hsettlements.symm.trans hopen)
        obtain ⟨hsettlement, hpost⟩ := hmove.ended hended
        refine ⟨.opened later, hlater, ?_, hpost.trans hposted⟩
        rw [← hsettlements]
        exact congrArg AnswerLog.posted hsettlement

/-- A call only resolves with what its own window said in a result. -/
theorem resolved_after {result : ρ}
    (hjob : (after keccak messageOf origin events n).calls.job? number = some (.opened request))
    (hresolved : .resolved result ∈ request.settlement.posted) :
    ∃ m < n, events m = .happens number (request.tells (.result request.id result)) := by
  induction n generalizing request with
  | zero => contradiction
  | succ n ih =>
      rcases (move_next (events n)).job? hjob with
        hbefore | ⟨popup, id, -, rfl⟩ | ⟨happened, before, hevent, hbefore, hmove⟩
      · obtain ⟨m, hmn, hsaid⟩ := ih hbefore hresolved
        exact ⟨m, Nat.lt_succ_of_lt hmn, hsaid⟩
      · contradiction
      · obtain ⟨hid, hpopup, horigin⟩ := hmove.fixed
        rw [SiteRequest.tells, hid, hpopup, horigin]
        rcases hmove.resolved hresolved with hearlier | hsaid
        · obtain ⟨m, hmn, hsaid⟩ := ih hbefore hearlier
          exact ⟨m, Nat.lt_succ_of_lt hmn, hsaid⟩
        · exact ⟨n, Nat.lt_succ_self n, hevent.trans (congrArg _ hsaid)⟩

end VeraKeyConnect

/-! ## The two windows -/

/-- A site's promise is settled at most once and `pending` is true while one is not; the site
posts one message for each call, and none once it is settled, and resolves only with a result
from its own popup.  The popup takes one request, of its opener and an allowed origin, and
answers only that origin, with nothing after a final answer. -/
theorem connect_is_safe {ρ : Type u} {χ : Type v} (keccak : Bytes → B256)
    (messageOf : χ → Option Bytes) (origin : Bytes) (events : ℕ → ConnectEvent ρ χ)
    (browser : Browser) (opener : Option ℕ) (inputs : ℕ → PopupEvent ρ) :
    let site := VeraKeyConnect.after keccak messageOf origin events
    let popup := ConnectPopup.after browser opener inputs
    (∀ n, (site n).pending = true ↔ ∃ number request,
      (site n).calls.job? number = some (.opened request) ∧ request.settlement.posted = []) ∧
    (∀ n number call, (site n).calls.job? number = some call →
      call.settlements.length ≤ 1 ∧ call.posted.length ≤ 1 ∧
        ∀ post ∈ call.posted, post.targetOrigin = origin) ∧
    (∀ m n number call, m ≤ n → (site m).calls.job? number = some call →
      call.settlements ≠ [] → ∃ later, (site n).calls.job? number = some later ∧
        later.settlements = call.settlements ∧ later.posted = call.posted) ∧
    (∀ n number request result, (site n).calls.job? number = some (.opened request) →
      .resolved result ∈ request.settlement.posted → ∃ m < n, events m = .happens number
        (.message ⟨some request.popup, origin, some (.result request.id result)⟩)) ∧
    (∀ n, (popup n).accepted.started ≤ 1) ∧
    ∀ n number accepted, (popup n).accepted.job? number = some accepted →
      (∃ m < n, ∃ window data, opener = some window ∧
        inputs m = .message ⟨some window, accepted.origin, data⟩ ∧
        isAllowedRequesterOrigin browser accepted.origin = true ∧
        parseRequest browser data = some accepted.request) ∧
      (∀ post ∈ accepted.replies.posted, post.targetOrigin = accepted.origin) ∧
      accepted.replies.posted.countP PopupPost.isFinal ≤ 1 ∧
      ∀ before answer rest, accepted.replies.posted = before ++ answer :: rest →
        answer.isFinal = true → rest = [] := by
  intro site popup
  have hsite : ∀ n, VeraKeyConnect.SoundConnect origin (site n) := VeraKeyConnect.sound_after
  refine ⟨?_, ?_, ?_, ?_, ConnectPopup.accepts_once, ?_⟩
  · intro n
    simp only [(hsite n).pending_iff, VeraKeyConnect.Open, SiteRequest.settled_iff]
  · intro n number call hjob
    cases call with
    | refused error => exact ⟨le_rfl, Nat.zero_le 1, nofun⟩
    | opened request =>
        have hrequest := (hsite n).requests number request hjob
        exact ⟨AnswerLog.length_le_one (fun _ => rfl) request.settlement, hrequest.once,
          fun post hpost => (hrequest.targets post hpost).1⟩
  · intro m n number call hmn hjob hsettled
    exact VeraKeyConnect.settled_after hmn hjob hsettled
  · intro n number request result hjob hresolved
    rw [← ((hsite n).requests number request hjob).origin_eq]
    exact VeraKeyConnect.resolved_after hjob hresolved
  · intro n number accepted hjob
    obtain ⟨m, hmn, ⟨source, asker, data⟩, hevent, horigin, hasks⟩ :=
      ConnectPopup.accepted_asks hjob
    obtain ⟨window, hopener, rfl⟩ := hasks.source
    obtain rfl : accepted.origin = asker := horigin
    exact ⟨⟨m, hmn, window, data, hopener, hevent, hasks.origin, hasks.wellFormed⟩,
      ConnectPopup.targetOrigin_of_reply hjob, accepted.replies.countP_final_le,
      fun before answer rest hposted => AnswerLog.eq_nil_of_final hposted⟩

end Sdk

end VeraKey
