/-
The popup's side of "Sign in with VeraKey": it announces itself to the window that opened
it, takes one request from it, and answers only that window.
-/
import VeraKey.Connect

namespace VeraKey

open ByteCodec

namespace Sdk

universe u

variable {ρ : Type u}

/-- What the page can say to the site whose request it has. -/
inductive ConnectReply (ρ : Type u)
  | sending (account : Bytes) (nonce : ℕ)
  | progress (hash : Bytes)
  | result (value : ρ)
  | error (code : ConnectErrorCode) (message : Bytes) (revert : Option Bytes)

def ConnectReply.message (id : Bytes) : ConnectReply ρ → PopupMessage ρ
  | .sending account nonce => .sending id account (ascii (toString nonce))
  | .progress hash => .submitted id hash
  | .result value => .result id value
  | .error code message revert => .error id code message revert

/-- A message that the popup posts to its opener, and the origin it is for. -/
structure PopupPost (ρ : Type u) where
  message : PopupMessage ρ
  targetOrigin : Bytes
deriving DecidableEq

/-- A result or an error is the last answer. -/
def PopupPost.isFinal (post : PopupPost ρ) : Bool :=
  match post.message with
  | .result _ _ => true
  | .error _ _ _ _ => true
  | _ => false

/-- A request that the popup took, with the answers it gave. -/
structure Accepted (ρ : Type u) where
  origin : Bytes
  request : ConnectRequest
  replies : AnswerLog (PopupPost ρ) PopupPost.isFinal

/-- What the page shows. -/
inductive Connection
  | noOpener
  | waiting
  | rejected (message : Bytes)
  | request (number : ℕ)

structure ConnectPopup (ρ : Type u) where
  opener : Option ℕ
  listening : Bool
  handled : Bool
  connection : Connection
  /-- What was posted besides answers: that it is ready, and refusals. -/
  posted : List (PopupPost ρ)
  accepted : JobTable (Accepted ρ)

inductive PopupEvent (ρ : Type u)
  | message (event : MessageEvent Json)
  | reply (number : ℕ) (reply : ConnectReply ρ)
  | unmount

/-- `post`: nothing after a final answer. -/
def Accepted.reply (accepted : Accepted ρ) (reply : ConnectReply ρ) : Accepted ρ :=
  { accepted with
    replies := accepted.replies.post ⟨reply.message accepted.request.id, accepted.origin⟩ }

namespace ConnectPopup

variable (browser : Browser) (popup : ConnectPopup ρ)

/-- The page as it is mounted. -/
def mounted (opener : Option ℕ) : ConnectPopup ρ where
  opener := opener
  listening := opener.isSome
  handled := false
  connection := if opener.isSome then .waiting else .noOpener
  posted := if opener.isSome then [⟨.ready, ascii "*"⟩] else []
  accepted := .empty

def onMessage (event : MessageEvent Json) : ConnectPopup ρ :=
  match acceptRequest browser event popup.opener popup.handled with
  | .ignore => popup
  | .reject origin id code message =>
      { popup with
        posted := popup.posted ++ [⟨.error id code message none, origin⟩]
        connection := if popup.handled then popup.connection else .rejected message }
  | .accept origin request =>
      { popup with
        handled := true
        connection := .request popup.accepted.started
        accepted := popup.accepted.start ⟨origin, request, .empty⟩ }

/-- The state after an event. -/
def next : PopupEvent ρ → ConnectPopup ρ
  | .message event => if popup.listening then popup.onMessage browser event else popup
  | .reply number reply =>
      match popup.accepted.job? number with
      | some accepted =>
          { popup with accepted := popup.accepted.set number (accepted.reply reply) }
      | none => popup
  | .unmount => { popup with listening := false }

/-- The state after the first `n` events. -/
def after (opener : Option ℕ) (events : ℕ → PopupEvent ρ) (n : ℕ) : ConnectPopup ρ :=
  History.run (next browser) (mounted opener) events n

variable {browser popup} {opener : Option ℕ} {events : ℕ → PopupEvent ρ} {n number : ℕ}
variable {accepted : Accepted ρ} {event : PopupEvent ρ}

theorem after_succ (n : ℕ) :
    after browser opener events (n + 1) = (after browser opener events n).next browser (events n) :=
  rfl

/-! ## The gate -/

/-- The window that opened the popup asks for something from an allowed origin. -/
structure Asks (browser : Browser) (opener : Option ℕ) (event : MessageEvent Json)
    (request : ConnectRequest) : Prop where
  source : ∃ window, opener = some window ∧ event.source = some window
  envelope : isEnvelope event.data = true
  origin : isAllowedRequesterOrigin browser event.origin = true
  wellFormed : parseRequest browser event.data = some request

theorem asks_of_accept {event : MessageEvent Json} {handled : Bool} {origin : Bytes}
    {request : ConnectRequest}
    (haccept : acceptRequest browser event opener handled = .accept origin request) :
    handled = false ∧ origin = event.origin ∧ Asks browser opener event request := by
  rw [acceptRequest] at haccept
  split at haccept
  · contradiction
  · rename_i hlistens
    obtain ⟨hopener, hsource, henvelope, -⟩ :
        opener ≠ none ∧ event.source = opener ∧ isEnvelope event.data = true ∧
          (event.data.get? "type").bind Json.text? = some (ascii "request") := by
      simpa [not_or] using hlistens
    dsimp only at haccept
    split at haccept
    · contradiction
    · rename_i hallowed
      split at haccept
      · contradiction
      · rename_i hhandled
        split at haccept
        · rename_i parsed hparsed
          injection haccept with horigin hrequest
          subst hrequest
          obtain ⟨window, hwindow⟩ := Option.ne_none_iff_exists'.mp hopener
          exact ⟨Bool.not_eq_true _ ▸ hhandled, horigin.symm,
            ⟨⟨window, hwindow, hsource.trans hwindow⟩, henvelope, by simpa using hallowed, hparsed⟩⟩
        · contradiction

/-! ## One event -/

/-- What an event can do to the requests that the popup took. -/
inductive PopupMove (browser : Browser) (popup : ConnectPopup ρ) :
    PopupEvent ρ → ConnectPopup ρ → Prop
  | keeps {event after} (hopener : after.opener = popup.opener)
      (hhandled : after.handled = popup.handled) (haccepted : after.accepted = popup.accepted) :
      PopupMove browser popup event after
  | accepts {event request after} (hfree : popup.handled = false)
      (hasks : Asks browser popup.opener event request) (hopener : after.opener = popup.opener)
      (hhandled : after.handled = true)
      (haccepted : after.accepted = popup.accepted.start ⟨event.origin, request, .empty⟩) :
      PopupMove browser popup (.message event) after
  | replies {number accepted reply} (hjob : popup.accepted.job? number = some accepted) :
      PopupMove browser popup (.reply number reply)
        { popup with accepted := popup.accepted.set number (accepted.reply reply) }

theorem move_next (event : PopupEvent ρ) :
    PopupMove browser popup event (popup.next browser event) := by
  cases event with
  | message event =>
      rw [next]
      split
      · rw [onMessage]
        split
        · exact .keeps rfl rfl rfl
        · exact .keeps rfl rfl rfl
        · rename_i origin request haccept
          obtain ⟨hfree, rfl, hasks⟩ := asks_of_accept haccept
          exact .accepts hfree hasks rfl rfl rfl
      · exact .keeps rfl rfl rfl
  | reply number reply =>
      rw [next]
      split
      · rename_i accepted hjob
        exact .replies hjob
      · exact .keeps rfl rfl rfl
  | unmount => exact .keeps rfl rfl rfl

/-! ## Over a run -/

namespace PopupMove

variable {after : ConnectPopup ρ}

theorem opener_eq (hmove : PopupMove browser popup event after) : after.opener = popup.opener := by
  cases hmove with
  | keeps hopener => exact hopener
  | accepts hfree hasks hopener => exact hopener
  | replies hjob => rfl

/-- A popup without a request has not taken one. -/
theorem started_le (hmove : PopupMove browser popup event after)
    (hstarted : popup.accepted.started ≤ if popup.handled then 1 else 0) :
    after.accepted.started ≤ if after.handled then 1 else 0 := by
  cases hmove with
  | keeps hopener hhandled haccepted => rwa [haccepted, hhandled]
  | accepts hfree hasks hopener hhandled haccepted =>
      rw [hfree] at hstarted
      rw [haccepted, hhandled]
      exact Nat.succ_le_succ hstarted
  | replies hjob => exact hstarted

/-- Where a taken request comes from. -/
theorem job? (hmove : PopupMove browser popup event after)
    (hjob : after.accepted.job? number = some accepted) :
    (∃ before, popup.accepted.job? number = some before ∧ accepted.origin = before.origin ∧
      accepted.request = before.request ∧
      (accepted.replies = before.replies ∨ ∃ reply, accepted = before.reply reply)) ∨
    (∃ data, event = .message data ∧ accepted.origin = data.origin ∧
      accepted.replies = .empty ∧ Asks browser popup.opener data accepted.request) := by
  cases hmove with
  | keeps hopener hhandled haccepted =>
      rw [haccepted] at hjob
      exact .inl ⟨accepted, hjob, rfl, rfl, .inl rfl⟩
  | @accepts data request _ hfree hasks hopener hhandled haccepted =>
      rw [haccepted] at hjob
      rcases JobTable.job?_start.mp hjob with ⟨-, rfl⟩ | hbefore
      · exact .inr ⟨data, rfl, rfl, rfl, hasks⟩
      · exact .inl ⟨accepted, hbefore, rfl, rfl, .inl rfl⟩
  | @replies other before reply hbefore =>
      by_cases hnumber : number = other
      · subst hnumber
        rw [JobTable.job?_set_self hbefore] at hjob
        obtain rfl := Option.some.inj hjob
        exact .inl ⟨before, hbefore, rfl, rfl, .inr ⟨reply, rfl⟩⟩
      · rw [JobTable.job?_set_of_ne hnumber] at hjob
        exact .inl ⟨accepted, hjob, rfl, rfl, .inl rfl⟩

end PopupMove

theorem opener_after (n : ℕ) : (after browser opener events n).opener = opener := by
  induction n with
  | zero => rfl
  | succ n ih => exact (move_next (events n)).opener_eq.trans ih

/-- One window takes one request. -/
theorem accepts_once (n : ℕ) : (after browser opener events n).accepted.started ≤ 1 := by
  have hstarted : (after browser opener events n).accepted.started ≤
      if (after browser opener events n).handled then 1 else 0 := by
    induction n with
    | zero => exact le_rfl
    | succ n ih => exact (move_next (events n)).started_le ih
  refine hstarted.trans ?_
  split
  · exact le_rfl
  · exact Nat.zero_le 1

/-- A taken request is one that the opener sent from an allowed origin. -/
theorem accepted_asks (hjob : (after browser opener events n).accepted.job? number =
      some accepted) :
    ∃ m < n, ∃ data, events m = .message data ∧ accepted.origin = data.origin ∧
      Asks browser opener data accepted.request := by
  induction n generalizing accepted with
  | zero => contradiction
  | succ n ih =>
      rcases (move_next (events n)).job? hjob with
        ⟨before, hbefore, horigin, hrequest, -⟩ | ⟨data, hevent, horigin, -, hasks⟩
      · obtain ⟨m, hmn, data, hevent, hdata, hasks⟩ := ih hbefore
        exact ⟨m, Nat.lt_succ_of_lt hmn, data, hevent, horigin.trans hdata, hrequest ▸ hasks⟩
      · change Asks browser (after browser opener events n).opener data _ at hasks
        rw [opener_after] at hasks
        exact ⟨n, Nat.lt_succ_self n, data, hevent, horigin, hasks⟩

/-- Answers go to the origin whose request was taken. -/
theorem targetOrigin_of_reply (hjob : (after browser opener events n).accepted.job? number =
      some accepted) :
    ∀ post ∈ accepted.replies.posted, post.targetOrigin = accepted.origin := by
  induction n generalizing accepted with
  | zero => contradiction
  | succ n ih =>
      intro post hpost
      rcases (move_next (events n)).job? hjob with
        ⟨before, hbefore, horigin, hrequest, hreplies⟩ | ⟨data, -, -, hreplies, -⟩
      · rcases hreplies with hreplies | ⟨reply, rfl⟩
        · rw [hreplies] at hpost
          exact (ih hbefore post hpost).trans horigin.symm
        · rcases AnswerLog.mem_post hpost with hpost | ⟨-, rfl⟩
          · exact ih hbefore post hpost
          · rfl
      · rw [hreplies] at hpost
        contradiction

end ConnectPopup

end Sdk

end VeraKey
