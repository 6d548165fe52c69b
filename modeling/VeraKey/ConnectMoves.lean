/-
What one event can do to a request of the site, and what a request is through a run: it
posts at most one message and is settled at most once.
-/
import VeraKey.Connect

namespace VeraKey

open ByteCodec

namespace Sdk

universe u v

variable {ρ : Type u} {χ : Type v}

/-- A message of this protocol from the request's own window, on VeraKey's origin. -/
abbrev SiteRequest.tells (request : SiteRequest ρ χ) (message : PopupMessage ρ) :
    RequestEvent ρ χ :=
  .message ⟨some request.popup, request.origin, some message⟩

/-- What an event can do to a request. -/
inductive RequestMove (keccak : Bytes → B256) (request : SiteRequest ρ χ) :
    RequestEvent ρ χ → SiteRequest ρ χ → Prop
  | idle {event} : RequestMove keccak request event request
  | takes {result values} :
      RequestMove keccak request (.values result) { request with values := values }
  | readies (hopen : request.settled = false) :
      RequestMove keccak request (request.tells .ready) { request with ready := true }
  | submits {hash} (hopen : request.settled = false) (hhash : isHex hash = true) :
      RequestMove keccak request (request.tells (.submitted request.id hash))
        { request with sent := some hash }
  | sends {account nonce} (hopen : request.settled = false)
      (haccount : isAddress keccak account = true) (hnonce : isActionNonce nonce = true) :
      RequestMove keccak request (request.tells (.sending request.id account nonce))
        { request with sending := some ⟨account, decimal nonce⟩ }
  | skips (hsettled : request.settled = true) :
      RequestMove keccak request .given { request with asked := true }
  | posts {params} (hopen : request.settled = false) (hready : request.ready = true)
      (hasked : request.asked = false) :
      RequestMove keccak request .given
        { request with
          asked := true
          posted := request.posted ++ [⟨⟨request.id, params⟩, request.origin⟩] }
  | resolves {result} (hopen : request.settled = false) :
      RequestMove keccak request (request.tells (.result request.id result))
        (request.settle (.resolved result))
  | fails {event error closes} (hopen : request.settled = false)
      (hhash : error.hash = request.sent) (hpending : error.pending = request.pendingAt error.code)
      (hclosed : event = .closedPoll true → request.ready = true → error.code = .closed)
      (hsaid : ∀ code message revert,
        event = request.tells (.error request.id code message revert) → error.code = code) :
      RequestMove keccak request event
        { request.settle (.rejected error) with closes := closes }

namespace SiteRequest

variable {keccak : Bytes → B256} {messageOf : χ → Option Bytes} {request : SiteRequest ρ χ}
variable {event : RequestEvent ρ χ} {code : ConnectErrorCode} {message : Bytes}
variable {revert : Option Bytes} {cause : Option χ} {closes : ℕ}

theorem settle_of_settled {settlement : Settlement ρ χ} (hsettled : request.settled = true) :
    request.settle settlement = request := by
  rw [settle, AnswerLog.post_of_answered hsettled]

theorem fail_move (hcode : event = .closedPoll true → request.ready = true → code = .closed)
    (hsaid : ∀ other message revert,
      event = request.tells (.error request.id other message revert) → code = other)
    (hcloses : request.settled = true → closes = request.closes) :
    RequestMove keccak request event
      { request.fail code message revert cause with closes := closes } := by
  cases hsettled : request.settled with
  | true =>
      rw [fail, settle_of_settled hsettled, hcloses hsettled]
      exact .idle
  | false => exact .fails hsettled rfl rfl hcode hsaid

theorem fail_same (hcode : event = .closedPoll true → request.ready = true → code = .closed)
    (hsaid : ∀ other message revert,
      event = request.tells (.error request.id other message revert) → code = other) :
    RequestMove keccak request event (request.fail code message revert cause) :=
  fail_move hcode hsaid fun _ => rfl

theorem receive_move (hopen : request.settled = false) (said : PopupMessage ρ) :
    RequestMove keccak request (request.tells said) (request.receive keccak said) := by
  cases said with
  | ready => exact .readies hopen
  | sending id account nonce =>
      rw [receive]
      split
      · rename_i hsending
        obtain ⟨rfl, haccount, hnonce⟩ := hsending
        exact .sends hopen haccount hnonce
      · exact .idle
  | submitted id hash =>
      rw [receive]
      split
      · rename_i hsubmitted
        obtain ⟨rfl, hhash⟩ := hsubmitted
        exact .submits hopen hhash
      · exact .idle
  | result id result =>
      rw [receive]
      split
      · rename_i hid
        obtain rfl := hid
        exact .resolves hopen
      · exact .idle
  | error id code message revert =>
      rw [receive]
      split
      · rename_i hid
        obtain rfl := hid
        refine fail_same nofun ?_
        intro other message' revert' hevent
        injection hevent with hevent
        injection hevent with _ _ hdata
        injection Option.some.inj hdata
      · exact .idle

theorem onMessage_move (event : MessageEvent (Option (PopupMessage ρ))) :
    RequestMove keccak request (.message event) (request.onMessage keccak event) := by
  rw [onMessage]
  split
  · exact .idle
  · rename_i hsettled
    have hopen : request.settled = false := Bool.not_eq_true _ ▸ hsettled
    split
    · exact .idle
    · rename_i hfrom
      obtain ⟨source, origin, data⟩ := event
      obtain ⟨horigin, hsource⟩ := not_or.mp hfrom
      obtain rfl := not_not.mp horigin
      obtain rfl := not_not.mp hsource
      cases data with
      | some said => exact receive_move hopen said
      | none => exact .idle

theorem onGiven_move : RequestMove keccak request .given request.onGiven := by
  rw [onGiven]
  split
  · split
    · rename_i hready
      obtain ⟨hready, hasked⟩ := Bool.and_eq_true_iff.mp hready
      split
      · rename_i hsettled
        exact .skips hsettled
      · rename_i hsettled
        exact .posts (Bool.not_eq_true _ ▸ hsettled) hready (by simpa using hasked)
    · exact .idle
  · exact .idle

theorem onFailed_move :
    RequestMove keccak request .failed (request.onFailed messageOf) := by
  rw [onFailed]
  split
  · split
    · exact .idle
    · rename_i hsettled
      split
      · exact fail_move nofun nofun fun hsettled' => absurd hsettled' hsettled
      · exact .idle
  · exact .idle

theorem onReadyTimer_move :
    RequestMove keccak request .readyTimer request.onReadyTimer := by
  rw [onReadyTimer]
  split
  · exact .idle
  · exact fail_same nofun nofun

theorem onClosedPoll_move (closed : Bool) :
    RequestMove keccak request (.closedPoll closed) (request.onClosedPoll closed) := by
  rw [onClosedPoll]
  split
  · rename_i hunready
    refine fail_same ?_ nofun
    intro _ hready
    rw [hready] at hunready
    simp at hunready
  · split
    · exact fail_same (fun _ _ => rfl) nofun
    · exact .idle

theorem move_step (event : RequestEvent ρ χ) :
    RequestMove keccak request event (request.step keccak messageOf event) := by
  cases event with
  | values result =>
      change RequestMove keccak request _ (request.takeValues result)
      unfold takeValues
      split
      · exact .takes
      · exact .takes
      · exact .idle
  | failed => exact onFailed_move
  | given => exact onGiven_move
  | message event => exact onMessage_move event
  | readyTimer => exact onReadyTimer_move
  | closedPoll closed => exact onClosedPoll_move closed

end SiteRequest

/-! ## What a request is -/

/-- A request posts nothing before it asks, and then one message, for VeraKey's origin. -/
structure SoundRequest (origin : Bytes) (request : SiteRequest ρ χ) : Prop where
  origin_eq : request.origin = origin
  unasked : request.asked = false → request.posted = []
  once : request.posted.length ≤ 1
  targets : ∀ post ∈ request.posted, post.targetOrigin = origin ∧ post.request.id = request.id
  ready : request.posted ≠ [] → request.ready = true

namespace RequestMove

variable {keccak : Bytes → B256} {request after : SiteRequest ρ χ} {event : RequestEvent ρ χ}
variable {origin : Bytes}

theorem fixed (hmove : RequestMove keccak request event after) :
    after.id = request.id ∧ after.popup = request.popup ∧ after.origin = request.origin := by
  cases hmove <;> exact ⟨rfl, rfl, rfl⟩

theorem sound (hmove : RequestMove keccak request event after)
    (hsound : SoundRequest origin request) : SoundRequest origin after := by
  obtain ⟨horigin, hunasked, honce, htargets, hready⟩ := hsound
  cases hmove with
  | readies hopen => exact ⟨horigin, hunasked, honce, htargets, fun _ => rfl⟩
  | skips hsettled => exact ⟨horigin, nofun, honce, htargets, hready⟩
  | @posts params hopen hreadied hasked =>
      have hnone := hunasked hasked
      constructor
      · exact horigin
      · exact nofun
      · change (request.posted ++ [_]).length ≤ 1
        rw [hnone]
        exact le_rfl
      · intro post hpost
        rw [hnone, List.nil_append, List.mem_singleton] at hpost
        rw [hpost]
        exact ⟨horigin, rfl⟩
      · exact fun _ => hreadied
  | _ => exact ⟨horigin, hunasked, honce, htargets, hready⟩

/-- Nothing follows a settlement. -/
theorem ended (hmove : RequestMove keccak request event after)
    (hsettled : request.settled = true) :
    after.settlement = request.settlement ∧ after.posted = request.posted := by
  cases hmove with
  | posts hopen => rw [hopen] at hsettled; contradiction
  | resolves hopen => rw [hopen] at hsettled; contradiction
  | fails hopen => rw [hopen] at hsettled; contradiction
  | _ => exact ⟨rfl, rfl⟩

/-- Only a result message resolves a request. -/
theorem resolved (hmove : RequestMove keccak request event after) {result : ρ}
    (hresolved : .resolved result ∈ after.settlement.posted) :
    .resolved result ∈ request.settlement.posted ∨
      event = request.tells (.result request.id result) := by
  cases hmove with
  | resolves hopen =>
      rcases AnswerLog.mem_post hresolved with hbefore | ⟨-, heq⟩
      · exact .inl hbefore
      · injection heq with heq
        subst heq
        exact .inr rfl
  | fails hopen =>
      rcases AnswerLog.mem_post hresolved with hbefore | ⟨-, heq⟩
      · exact .inl hbefore
      · contradiction
  | _ => exact .inl hresolved

end RequestMove

theorem SoundRequest.fresh {origin id : Bytes} {popup : ℕ} :
    SoundRequest origin (.fresh origin popup id : SiteRequest ρ χ) :=
  ⟨rfl, fun _ => rfl, Nat.zero_le 1, nofun, fun hposted => absurd rfl hposted⟩

/-- A request that is settled has been settled once. -/
theorem SiteRequest.settled_iff {request : SiteRequest ρ χ} :
    request.settled = false ↔ request.settlement.posted = [] :=
  AnswerLog.answered_eq_false_iff fun _ => rfl

end Sdk

end VeraKey
