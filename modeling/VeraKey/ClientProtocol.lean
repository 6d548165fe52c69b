/-
What an action of the client asks of the passkey, of the prover and of the relayer, whatever they
answer and whatever the client does besides: one prompt for one action, and a transaction that
carries exactly what was signed.
-/
import VeraKey.ClientActions

namespace VeraKey

open ByteCodec TextCodec

namespace Client

open Relay (RelayableFunction)
open Sdk (computeNullifier credentialIdBytes hashAction)

abbrev ClientHistory := List (Exchange ClientReply)

/-! ## The order of what the user sees -/

/-- What an action shows and asks for, apart from what it reads. -/
inductive Sign
  | idle
  | authenticating
  | prompt
  | proving
  | prove
  | relaying
  | relay
  | confirming
  | verified
  | rejected
deriving DecidableEq

def ProofState.sign : ProofState → Sign
  | .idle => .idle
  | .authenticating => .authenticating
  | .proving _ => .proving
  | .relaying _ => .relaying
  | .confirming _ _ => .confirming
  | .verified _ _ _ _ => .verified
  | .rejected _ _ _ => .rejected

def ClientAsk.sign? : ClientAsk → Option Sign
  | .getAssertion _ => some .prompt
  | .getSpcAssertion _ _ => some .prompt
  | .prove _ => some .prove
  | .post (.relay _ _ _) => some .relay
  | .emit state => some state.sign
  | _ => none

def signs (history : ClientHistory) : List Sign := history.filterMap (·.question.sign?)

@[simp]
theorem signs_append (history rest : ClientHistory) :
    signs (history ++ rest) = signs history ++ signs rest := List.filterMap_append

/-- Up to the relayer. -/
def approval : List Sign := [.authenticating, .prompt, .proving, .prove, .relaying]

/-- All that an action shows when it succeeds after some attempts at the relayer. -/
def script (attempts : ℕ) : List Sign :=
  approval ++ List.replicate attempts .relay ++ [.confirming, .verified]

/-- An action that has not ended is somewhere in its script. -/
def UnderWay (shown : List Sign) : Prop :=
  ∃ attempts, attempts ≤ busyRetries + 1 ∧ shown <+: script attempts

/-- An action follows its script, and may end with a rejection at any point. -/
def InOrder (shown : List Sign) : Prop :=
  UnderWay shown ∨ ∃ before, UnderWay before ∧ shown = before ++ [.rejected]

theorem underWay_of_approval {shown : List Sign} (hshown : shown <+: approval) : UnderWay shown :=
  ⟨0, Nat.zero_le _, hshown.trans ⟨[.confirming, .verified], rfl⟩⟩

theorem underWay_relay {attempts : ℕ} (hattempts : attempts ≤ busyRetries + 1) :
    UnderWay (approval ++ List.replicate attempts .relay) :=
  ⟨attempts, hattempts, ⟨[.confirming, .verified], rfl⟩⟩

theorem underWay_confirming {attempts : ℕ} (hattempts : attempts ≤ busyRetries + 1) :
    UnderWay (approval ++ List.replicate attempts .relay ++ [.confirming]) :=
  ⟨attempts, hattempts, ⟨[.verified], by rw [script, List.append_assoc _ [_]]; rfl⟩⟩

theorem underWay_script {attempts : ℕ} (hattempts : attempts ≤ busyRetries + 1) :
    UnderWay (script attempts) :=
  ⟨attempts, hattempts, List.prefix_rfl⟩

theorem InOrder.rejected {shown : List Sign} (hshown : UnderWay shown) :
    InOrder (shown ++ [.rejected]) := .inr ⟨shown, hshown, rfl⟩

/-- No action asks for two prompts. -/
theorem InOrder.count_prompt {shown : List Sign} (hshown : InOrder shown) :
    shown.count .prompt ≤ 1 := by
  have hunder : ∀ before, UnderWay before → before.count .prompt ≤ 1 := by
    rintro before ⟨attempts, -, hbefore⟩
    have hcount : (script attempts).count .prompt = 1 := by
      rw [script, List.count_append, List.count_append, List.count_replicate]
      rfl
    exact hcount ▸ hbefore.sublist.count_le _
  rcases hshown with hshown | ⟨before, hbefore, rfl⟩
  · exact hunder shown hshown
  · rw [List.count_append]
    exact hunder before hbefore

/-! ## What is prompted, proved and relayed -/

section Facts

variable (config : ClientConfig) (libraries : Libraries) (keccak : Bytes → B256)
variable (appId : ℕ) (request : ActionRequest)

namespace Preparation

variable (prep : Preparation)

/-- The action is the one that was asked for, on the account and with the nonce that the chain
named, for a fee that the account allows and can pay. -/
structure Sound (history : ClientHistory) : Prop where
  nullifier_eq : computeNullifier libraries.proofs prep.session.publicKey prep.session.prfSecret
    appId = some prep.nullifier
  account : ⟨.predictAddress appId prep.nullifier, .ok prep.account⟩ ∈ history
  viewed : ∀ view, prep.view = some view → ⟨.accountView prep.account, .ok view⟩ ∈ history
  absent : prep.view = none → ∃ code, ⟨.getCode prep.account, .ok code⟩ ∈ history ∧
    code.any (fun code => code ≠ [] ∧ code ≠ ascii "0x") = false
  fee_le : ∀ view, prep.view = some view → config.relayerFee ≤ view.maxFee
  balance : ∃ balance, ⟨.balanceOf prep.account, .ok balance⟩ ∈ history ∧
    config.relayerFee ≤ balance
  deadline : ∃ now, ⟨.now, now⟩ ∈ history ∧ prep.deadline = now / 1000 + deadlineWindow
  hash : hashAction keccak (signedAction config prep.account prep.nonce prep.deadline request) =
    some prep.actionHash

/-- The prompt is for the prepared action, and a payment sheet shows the payment. -/
structure Prompts (prompt : AssertionRequest) (sheet : Option SheetRequest) : Prop where
  rpId : prompt.rpId = config.rpId
  challenge : prompt.challenge = prep.actionHash
  credentials : ∃ id, credentialIdBytes prep.session.passkey = some id ∧
    prompt.credentialIds = [id]
  required : sheet = none → prep.sheetRequired request = false
  shows : ∀ shown, sheet = some shown → request.kind = actionPay ∧
    prep.session.passkey.payment = true ∧
    shown = ⟨ClientData.payeeName request.target, request.amount + config.relayerFee⟩

end Preparation

/-- The prompt's answer. -/
def Answered (history : ClientHistory) (prompt : AssertionRequest) (sheet : Option SheetRequest)
    (assertion : PasskeyAssertion) : Prop :=
  match sheet with
  | none => ∃ answer, ⟨.getAssertion prompt, answer⟩ ∈ history ∧
      getAssertion libraries false answer = .ok assertion
  | some sheet => ∃ answer, ⟨.getSpcAssertion prompt sheet, answer⟩ ∈ history ∧
      answer.bind (sheetAssertion libraries) = .ok assertion

/-- The assertion is the answer to the prompt for the prepared action. -/
structure Signed (history : ClientHistory) (prep : Preparation) (assertion : PasskeyAssertion) :
    Prop where
  sound : prep.Sound config libraries keccak appId request history
  prompted : ∃ prompt sheet, prep.Prompts config request prompt sheet ∧
    Answered libraries history prompt sheet assertion
  length : assertion.authenticatorData.length = authenticatorDataLength

/-- What the prover is given: the assertion, and one passkey's key, secret and nullifier. -/
def witnessInput (session : LiveSession) (nullifier : ℕ) (assertion : PasskeyAssertion) :
    WitnessInput where
  publicKey := session.publicKey
  signature := assertion.signature
  authenticatorData := assertion.authenticatorData
  prfSecret := session.prfSecret
  clientDataJson := assertion.clientDataJson
  rpIdHash := config.rpIdHash
  appId := appId
  nullifier := nullifier

/-- What the relayer gets is what was signed and proved. -/
structure Approved (history : ClientHistory) (auth : Authorization) (prep : Preparation)
    (assertion : PasskeyAssertion) : Prop where
  signed : Signed config libraries keccak appId request history prep assertion
  proved : ∃ publicInputs,
    ⟨.prove (witnessInput config appId prep.session prep.nullifier assertion),
      .ok ⟨auth.proof, publicInputs, auth.provingMs⟩⟩ ∈ history
  account : auth.account = prep.account
  nullifier : auth.nullifier = prep.nullifier
  fee : auth.fee = config.relayerFee
  deadline : auth.deadline = prep.deadline
  actionHash : auth.actionHash = prep.actionHash
  clientDataJson : auth.clientDataJson = assertion.clientDataJson

variable {config} {libraries} {keccak} {appId} {request} {history : ClientHistory}
variable {prep : Preparation} {assertion : PasskeyAssertion} {auth : Authorization}

theorem Preparation.Sound.append (hsound : prep.Sound config libraries keccak appId request history)
    (rest : ClientHistory) :
    prep.Sound config libraries keccak appId request (history ++ rest) := by
  obtain ⟨hnullifier, haccount, hviewed, habsent, hfee, ⟨balance, hbalance, hpays⟩,
    ⟨now, hnow, hdeadline⟩, hhash⟩ := hsound
  constructor
  · exact hnullifier
  · exact List.mem_append_left _ haccount
  · exact fun view hview => List.mem_append_left _ (hviewed view hview)
  · intro hnone
    obtain ⟨code, hcode, hempty⟩ := habsent hnone
    exact ⟨code, List.mem_append_left _ hcode, hempty⟩
  · exact hfee
  · exact ⟨balance, List.mem_append_left _ hbalance, hpays⟩
  · exact ⟨now, List.mem_append_left _ hnow, hdeadline⟩
  · exact hhash

theorem Answered.append {prompt : AssertionRequest} {sheet : Option SheetRequest}
    (hanswered : Answered libraries history prompt sheet assertion) (rest : ClientHistory) :
    Answered libraries (history ++ rest) prompt sheet assertion := by
  cases sheet with
  | none =>
      obtain ⟨answer, hanswer, hassertion⟩ := hanswered
      exact ⟨answer, List.mem_append_left _ hanswer, hassertion⟩
  | some sheet =>
      obtain ⟨answer, hanswer, hassertion⟩ := hanswered
      exact ⟨answer, List.mem_append_left _ hanswer, hassertion⟩

theorem Signed.append
    (hsigned : Signed config libraries keccak appId request history prep assertion)
    (rest : ClientHistory) :
    Signed config libraries keccak appId request (history ++ rest) prep assertion := by
  obtain ⟨hsound, ⟨prompt, sheet, hprompts, hanswered⟩, hlength⟩ := hsigned
  exact ⟨hsound.append rest, ⟨prompt, sheet, hprompts, hanswered.append rest⟩, hlength⟩

theorem Approved.append (happroved : Approved config libraries keccak appId request history auth
    prep assertion) (rest : ClientHistory) :
    Approved config libraries keccak appId request (history ++ rest) auth prep assertion := by
  obtain ⟨publicInputs, hproved⟩ := happroved.proved
  exact { happroved with
    signed := happroved.signed.append rest
    proved := ⟨publicInputs, List.mem_append_left _ hproved⟩ }

end Facts

/-! ## What an action may ask, and how it ends -/

section Rules

variable (config : ClientConfig) (libraries : Libraries) (keccak : Bytes → B256)
variable (appId : ℕ) (action : ClientAction)

/-- The cache holds nullifiers of the current session only. -/
def Cached (state : ClientState) : Prop :=
  ∀ appId value, state.nullifiers appId = some value → ∃ session,
    state.currentSession = some session ∧
      computeNullifier libraries.proofs session.publicKey session.prfSecret appId = some value

/-- The relayer has a transaction for the action, or has sent none yet. -/
def Relayed (history : ClientHistory) (hash : Option Bytes) : Prop :=
  ∃ account functionName args status data,
    ⟨.post (.relay account functionName args), .answered status (some data)⟩ ∈ history ∧
      200 ≤ status ∧ status ≤ 299 ∧ data.hash = hash

/-- Every attempt so far found the relayer busy with another transaction of the account. -/
def OnlyBusy (history : ClientHistory) : Prop :=
  ∀ account functionName args answer,
    ⟨.post (.relay account functionName args), answer⟩ ∈ history →
      ∃ data, answer = .answered 409 data

/-- What an action may ask after what it was answered. -/
def May (history : ClientHistory) (question : ClientAsk) : Prop :=
  (∀ sign, question.sign? = some sign → InOrder (signs history ++ [sign])) ∧
  match question with
  | .getAssertion prompt => ∃ prep : Preparation,
      prep.Sound config libraries keccak appId (action.request keccak) history ∧
        prep.Prompts config (action.request keccak) prompt none
  | .getSpcAssertion prompt sheet => ∃ prep : Preparation,
      prep.Sound config libraries keccak appId (action.request keccak) history ∧
        prep.Prompts config (action.request keccak) prompt (some sheet)
  | .prove input => ∃ prep assertion,
      Signed config libraries keccak appId (action.request keccak) history prep assertion ∧
        input = witnessInput config appId prep.session prep.nullifier assertion
  | .post (.relay account functionName args) => OnlyBusy history ∧ ∃ auth prep assertion,
      Approved config libraries keccak appId (action.request keccak) history auth prep assertion ∧
        account = auth.account ∧ functionName = action.functionName ∧
        args = action.args ++ auth.args
  | .emit (.confirming _ hash) => Relayed history hash
  | _ => True

/-- How an action ends. -/
def Ends (history : ClientHistory) : Except ClientThrown TransactionReceipt → Prop
  | .ok receipt => ∃ attempts hash, attempts ≤ busyRetries + 1 ∧
      signs history = script attempts ∧ receipt.success = true ∧ Relayed history hash ∧
      ⟨.waitForTransactionReceipt hash, .ok receipt⟩ ∈ history
  | .error thrown => ∃ shown error revert, UnderWay shown ∧
      signs history = shown ++ [.rejected] ∧ thrown = .described error revert ∧
      ⟨.emit (.rejected error.stage error.message revert), ()⟩ ∈ history

variable {config} {libraries} {keccak} {appId} {action}
variable {history history' : ClientHistory} {state : ClientState}

/-- The history goes on without a sign. -/
def Quiet (history history' : ClientHistory) : Prop :=
  ∃ rest, history' = history ++ rest ∧ signs rest = []

theorem Quiet.refl : Quiet history history := ⟨[], (List.append_nil _).symm, rfl⟩

theorem Quiet.trans {history'' : ClientHistory} (hfirst : Quiet history history')
    (hrest : Quiet history' history'') : Quiet history history'' := by
  obtain ⟨first, rfl, hfirst⟩ := hfirst
  obtain ⟨rest, rfl, hrest⟩ := hrest
  exact ⟨first ++ rest, List.append_assoc _ _ _, by rw [signs_append, hfirst, hrest]; rfl⟩

theorem Quiet.signs_eq (hquiet : Quiet history history') : signs history' = signs history := by
  obtain ⟨rest, rfl, hrest⟩ := hquiet
  rw [signs_append, hrest, List.append_nil]

theorem Quiet.mem {exchange : Exchange ClientReply} (hquiet : Quiet history history')
    (hmem : exchange ∈ history) : exchange ∈ history' := by
  obtain ⟨rest, rfl, -⟩ := hquiet
  exact List.mem_append_left _ hmem

theorem quiet_concat {question : ClientAsk} (hquestion : question.sign? = none)
    (reply : ClientReply question) : Quiet history (history ++ [⟨question, reply⟩]) := by
  refine ⟨_, rfl, ?_⟩
  rw [signs, List.filterMap_cons, hquestion]
  rfl

/-- What nobody sees may be asked at any time. -/
class AsksQuietly (may : ClientHistory → ClientAsk → Prop) : Prop where
  quiet : ∀ {history question}, ClientAsk.sign? question = none → may history question

instance : AsksQuietly (May config libraries keccak appId action) where
  quiet := by
    intro history question hquestion
    refine ⟨fun sign hsign => ?_, ?_⟩
    · rw [hquestion] at hsign
      contradiction
    · split <;> trivial

/-- A task of an action, which keeps to what the action may ask. -/
abbrev ActKeeps {α : Type} (config : ClientConfig) (libraries : Libraries)
    (keccak : Bytes → B256) (appId : ℕ) (action : ClientAction)
    (ends : ClientHistory → Except ClientThrown α → Prop) (history : ClientHistory)
    (state : ClientState) (task : ClientAsync α) : Prop :=
  task.Keeps (Cached libraries) (May config libraries keccak appId action) ends history state

/-! ### The reads -/

section Reads

variable {may : ClientHistory → ClientAsk → Prop}

/-- What comes of a reply, and the history as it was. -/
theorem keeps_attempt {α β : Type} {ends : ClientHistory → Except ClientThrown β → Prop}
    {reply : Except JsError α} {next : α → ClientAsync β} (hstate : Cached libraries state)
    (hok : ∀ value, reply = .ok value →
      Async.Keeps (Cached libraries) may ends history state (next value))
    (herror : ∀ error, reply = .error error → ends history (.error (.thrown error))) :
    Async.Keeps (Cached libraries) may ends history state (attempt reply >>= next) := by
  cases reply with
  | ok value => exact hok value rfl
  | error error => exact ⟨hstate, herror error rfl⟩

theorem keeps_requireSession {α : Type} {ends : ClientHistory → Except ClientThrown α → Prop}
    {next : LiveSession → ClientAsync α}
    (hlocked : state.currentSession = none → Cached libraries state ∧ ends history
      (.error (.described ⟨.authentication, ascii "Unlock a passkey first."⟩ none)))
    (hunlocked : ∀ session, state.currentSession = some session →
      Async.Keeps (Cached libraries) may ends history state (next session)) :
    Async.Keeps (Cached libraries) may ends history state
      (requireSession >>= next) := by
  obtain ⟨currentSession, nullifiers, made⟩ := state
  cases currentSession with
  | some session => exact hunlocked session rfl
  | none => exact hlocked rfl

variable [AsksQuietly may]

/-- Asks something that nobody sees, and takes what comes. -/
theorem keeps_ask {α : Type} {ends : ClientHistory → Except ClientThrown α → Prop}
    {question : ClientAsk} {next : ClientReply question → ClientAsync α}
    (hstate : Cached libraries state) (hquestion : question.sign? = none)
    (hnext : ∀ reply state', Cached libraries state' →
      Async.Keeps (Cached libraries) may ends (history ++ [⟨question, reply⟩]) state'
        (next reply)) :
    Async.Keeps (Cached libraries) may ends history state (ask question >>= next) :=
  Async.Keeps.question hstate (AsksQuietly.quiet hquestion) hnext

theorem keeps_nullifierOf {session : LiveSession} {app : ℕ} (hstate : Cached libraries state) :
    Async.Keeps (Cached libraries) may
      (fun after result => Quiet history after ∧ ∀ value, result = .ok value →
        computeNullifier libraries.proofs session.publicKey session.prfSecret app = some value)
      history state (nullifierOf libraries app session) := by
  unfold nullifierOf
  refine Async.Keeps.get ?_
  split
  · rename_i cached hcached
    refine ⟨hstate, .refl, ?_⟩
    rintro value ⟨⟩
    split at hcached
    · rename_i hcurrent
      obtain ⟨current, hsession, hvalue⟩ := hstate app _ hcached
      rw [ClientState.isCurrent, decide_eq_true_eq, hsession] at hcurrent
      obtain rfl := Option.some.inj hcurrent
      exact hvalue
    · contradiction
  · refine keeps_ask hstate rfl fun loaded state hstate => ?_
    have hloaded := @quiet_concat history .prover rfl loaded
    refine keeps_attempt hstate (fun _ _ => ?_) fun error _ => ⟨hloaded, nofun⟩
    refine keeps_ask hstate rfl fun hashed state hstate => ?_
    have hhashed := hloaded.trans (quiet_concat rfl hashed)
    split
    · exact ⟨hstate, hhashed, nofun⟩
    · rename_i value hvalue
      have hends : ∀ other, Except.ok value = (.ok other : Except ClientThrown ℕ) →
          computeNullifier libraries.proofs session.publicKey session.prfSecret app =
            some other := by
        rintro other ⟨⟩
        exact hvalue
      change Async.Keeps _ _ _ _ _ (if state.isCurrent session then _ else _)
      split
      · rename_i hcurrent
        refine ⟨?_, hhashed, hends⟩
        intro other value' hcached
        rw [ClientState.isCurrent, decide_eq_true_eq] at hcurrent
        change Function.update state.nullifiers app (some value) other = some value' at hcached
        by_cases hother : other = app
        · subst hother
          rw [Function.update_self] at hcached
          obtain rfl := Option.some.inj hcached
          exact ⟨session, hcurrent, hvalue⟩
        · rw [Function.update_of_ne hother] at hcached
          exact hstate other value' hcached
      · exact ⟨hstate, hhashed, hends⟩

theorem keeps_nullifier {app : ℕ} (hstate : Cached libraries state) :
    Async.Keeps (Cached libraries) may
      (fun after result => Quiet history after ∧ ∀ value, result = .ok value → ∃ session,
        state.currentSession = some session ∧ computeNullifier libraries.proofs session.publicKey
          session.prfSecret app = some value)
      history state (nullifier libraries app) := by
  refine keeps_requireSession (fun _ => ⟨hstate, .refl, nofun⟩) ?_
  intro session hsession
  refine (keeps_nullifierOf hstate).mono ?_
  rintro after result ⟨hquiet, hvalue⟩
  exact ⟨hquiet, fun value hok => ⟨session, hsession, hvalue value hok⟩⟩

/-- The account is made if it has to be, without a sign. -/
theorem keeps_ensureAccount {app : ℕ} (hstate : Cached libraries state) :
    Async.Keeps (Cached libraries) may (fun after _ => Quiet history after) history
      state (ensureAccount libraries app) := by
  refine (keeps_nullifier hstate).bind ?_ fun _ _ hquiet => hquiet.1
  rintro after state nullifier hstate ⟨hnullifier, -⟩
  have hposts : Async.Keeps (Cached libraries) may (fun last _ => Quiet history last) after state
      (post (.accounts app nullifier)) := by
    refine keeps_ask hstate rfl fun answer state hstate => ?_
    have hanswer := hnullifier.trans (quiet_concat rfl answer)
    cases answer with
    | offline error => exact ⟨hstate, hanswer⟩
    | answered status data =>
        change Async.Keeps _ _ _ _ _ (if 200 ≤ status ∧ status ≤ 299 then _ else _)
        split
        · exact ⟨hstate, hanswer⟩
        · cases data <;> exact ⟨hstate, hanswer⟩
  refine hposts.bind ?_ fun _ _ => id
  intro last state data hstate hlast
  cases data with
  | none => exact ⟨hstate, hlast⟩
  | some data =>
      change Async.Keeps _ _ _ _ _ (if data.hash.any (· ≠ []) = true then _ else _)
      split
      · refine keeps_ask hstate rfl fun receipt state hstate => ?_
        have hreceipt := hlast.trans (quiet_concat rfl receipt)
        exact keeps_attempt hstate (fun _ _ => ⟨hstate, hreceipt⟩) fun _ _ => hreceipt
      · exact ⟨hstate, hlast⟩

/-- What the chain says of an account. -/
structure Views (history : ClientHistory) (account : Address) (view : Option AccountView) :
    Prop where
  viewed : ∀ seen, view = some seen → ⟨.accountView account, .ok seen⟩ ∈ history
  absent : view = none → ∃ code, ⟨.getCode account, .ok code⟩ ∈ history ∧
    code.any (fun code => code ≠ [] ∧ code ≠ ascii "0x") = false

theorem mem_concat {question : ClientAsk} {reply : ClientReply question} :
    ⟨question, reply⟩ ∈ history ++ [(⟨question, reply⟩ : Exchange ClientReply)] :=
  List.mem_append_right _ (List.mem_singleton_self _)

theorem keeps_readAccount {account : Address} (hstate : Cached libraries state) :
    Async.Keeps (Cached libraries) may
      (fun after result => Quiet history after ∧
        ∀ view, result = .ok view → Views after account view)
      history state (readAccount account) := by
  refine keeps_ask hstate rfl fun code state hstate => ?_
  have hcode := @quiet_concat history (.getCode account) rfl code
  refine keeps_attempt hstate ?_ fun _ _ => ⟨hcode, nofun⟩
  rintro code rfl
  change Async.Keeps _ _ _ _ _ (if code.any _ = true then _ else _)
  split
  · refine keeps_ask hstate rfl fun view state hstate => ?_
    have hview := hcode.trans (quiet_concat rfl view)
    refine keeps_attempt hstate ?_ fun _ _ => ⟨hview, nofun⟩
    rintro view rfl
    refine ⟨hstate, hview, ?_⟩
    rintro _ ⟨⟩
    refine ⟨?_, nofun⟩
    rintro seen ⟨⟩
    exact mem_concat
  · rename_i hempty
    refine ⟨hstate, hcode, ?_⟩
    rintro _ ⟨⟩
    exact ⟨nofun, fun _ => ⟨code, mem_concat, Bool.not_eq_true _ ▸ hempty⟩⟩

theorem keeps_canConfirmPayments {session : LiveSession} (hstate : Cached libraries state) :
    Async.Keeps (Cached libraries) may
      (fun after result => Quiet history after ∧ (∃ available, result = .ok available) ∧
        (result = .ok true → session.passkey.payment = true))
      history state (canConfirmPayments config session) := by
  change Async.Keeps _ _ _ _ _ (if _ ∧ _ then _ else _)
  split
  · rename_i hcan
    refine keeps_ask hstate rfl fun available state hstate => ?_
    exact ⟨hstate, quiet_concat rfl available, ⟨_, rfl⟩, fun _ => hcan.1⟩
  · exact ⟨hstate, .refl, ⟨false, rfl⟩, nofun⟩

/-! ### A whole job -/

/-- A job that fails shows its failure and throws it. -/
theorem keeps_run {α : Type} {ends middle : ClientHistory → Except ClientThrown α → Prop}
    {job : ClientAsync α} (hjob : job.Keeps (Cached libraries) may middle history state)
    (hends : ∀ after value, middle after (.ok value) → ends after (.ok value))
    (hfails : ∀ after thrown error revert, middle after (.error thrown) →
      may after (.emit (.rejected error.stage error.message revert)) ∧
        ends (after ++ [⟨.emit (.rejected error.stage error.message revert), ()⟩])
          (.error (.described error revert))) :
    Async.Keeps (Cached libraries) may ends history state (run job) := by
  refine Async.Keeps.tryCatch hjob hends ?_
  intro after state thrown hstate hmiddle
  obtain ⟨hmay, hend⟩ := hfails after thrown (asFailure thrown).1 (asFailure thrown).2 hmiddle
  exact Async.Keeps.question hstate hmay fun shown state hstate => ⟨hstate, hend⟩

/-! ### One prompt, one proof -/

theorem keeps_plainPrompt {prompt : AssertionRequest} (hstate : Cached libraries state)
    (hmay : may history (.getAssertion prompt)) :
    Async.Keeps (Cached libraries) may
      (fun after result => (∃ answer, after = history ++ [⟨.getAssertion prompt, answer⟩]) ∧
        ∀ assertion, result = .ok assertion → Answered libraries after prompt none assertion)
      history state (plainPrompt libraries prompt) := by
  unfold plainPrompt
  refine Async.Keeps.question hstate hmay fun answer state hstate => ?_
  split
  · rename_i assertion hassertion
    refine ⟨hstate, ⟨answer, rfl⟩, ?_⟩
    rintro _ ⟨⟩
    exact ⟨answer, mem_concat, hassertion⟩
  · exact ⟨hstate, ⟨answer, rfl⟩, nofun⟩

/-- What is left after the prover: nothing seen yet, or the proof. -/
structure Proves (history after : ClientHistory) (input : WitnessInput)
    (result : Except ClientThrown VeraKeyProof) : Prop where
  goes_on : ∃ rest, after = history ++ rest
  signs_eq : signs after = signs history ∨ signs after = signs history ++ [.prove]
  proved : ∀ proof, result = .ok proof → signs after = signs history ++ [.prove] ∧
    ⟨.prove input, .ok proof⟩ ∈ after

theorem keeps_proveAssertion {session : LiveSession} {nullifier : ℕ}
    {assertion : PasskeyAssertion} (hstate : Cached libraries state)
    (hmay : ∀ after, Quiet history after →
      may after (.prove (witnessInput config appId session nullifier assertion))) :
    Async.Keeps (Cached libraries) may
      (fun after result =>
        Proves history after (witnessInput config appId session nullifier assertion) result)
      history state (proveAssertion config session assertion appId nullifier) := by
  refine keeps_ask hstate rfl fun loaded state hstate => ?_
  have hloaded := @quiet_concat history .prover rfl loaded
  cases loaded with
  | error error => exact ⟨hstate, ⟨_, rfl⟩, .inl hloaded.signs_eq, nofun⟩
  | ok loaded =>
      refine Async.Keeps.question hstate (hmay _ hloaded) fun answer state hstate => ?_
      have hsigns : signs (history ++ [⟨.prover, .ok loaded⟩] ++
          [⟨.prove (witnessInput config appId session nullifier assertion), answer⟩]) =
          signs history ++ [.prove] := by
        rw [signs_append, hloaded.signs_eq]
        rfl
      cases answer with
      | error message => exact ⟨hstate, ⟨_, List.append_assoc _ _ _⟩, .inr hsigns, nofun⟩
      | ok proof =>
          refine ⟨hstate, ⟨_, List.append_assoc _ _ _⟩, .inr hsigns, ?_⟩
          rintro _ ⟨⟩
          exact ⟨hsigns, mem_concat⟩

end Reads

/-! ### The prompt and the proof -/

/-- An approval that has not asked for a prompt. -/
theorem inOrder_prompt (hsigns : signs history = [.authenticating]) :
    InOrder (signs history ++ [.prompt]) :=
  .inl (underWay_of_approval ⟨[.proving, .prove, .relaying], by rw [hsigns]; rfl⟩)

theorem keeps_sheetPrompt {prompt : AssertionRequest} {sheet : SheetRequest} {prep : Preparation}
    (hstate : Cached libraries state) (hsigns : signs history = [.authenticating])
    (hsound : prep.Sound config libraries keccak appId (action.request keccak) history)
    (hprompts : prep.Prompts config (action.request keccak) prompt (some sheet)) :
    ActKeeps config libraries keccak appId action
      (fun after result =>
        (∃ answer, after = history ++ [⟨.getSpcAssertion prompt sheet, answer⟩]) ∧
        ∀ assertion, result = .ok assertion →
          Answered libraries after prompt (some sheet) assertion)
      history state (sheetPrompt libraries prompt sheet) := by
  unfold sheetPrompt
  refine Async.Keeps.question hstate ⟨?_, prep, hsound, hprompts⟩ fun answer state hstate => ?_
  · rintro sign ⟨⟩
    exact inOrder_prompt hsigns
  · split
    · rename_i assertion hassertion
      refine ⟨hstate, ⟨answer, rfl⟩, ?_⟩
      rintro _ ⟨⟩
      exact ⟨answer, mem_concat, hassertion⟩
    · change Async.Keeps _ _ _ _ _ (if _ ∨ _ then _ else _)
      split <;> exact ⟨hstate, ⟨answer, rfl⟩, nofun⟩
    · exact ⟨hstate, ⟨answer, rfl⟩, nofun⟩

/-! ### The approval -/

theorem keeps_checkFee {view : Option AccountView} (hstate : Cached libraries state) :
    ActKeeps config libraries keccak appId action
      (fun after result => after = history ∧ ∀ done, result = .ok done →
        ∀ seen, view = some seen → config.relayerFee ≤ seen.maxFee)
      history state (checkFee config view) := by
  rw [checkFee]
  split
  · rename_i hnone
    refine ⟨hstate, rfl, fun _ _ seen hseen => ?_⟩
    rw [hseen, Option.filter_eq_none_iff] at hnone
    simpa using hnone seen rfl
  · exact ⟨hstate, rfl, nofun⟩

theorem keeps_checkBalance {balance : ℤ} (hstate : Cached libraries state) :
    ActKeeps config libraries keccak appId action
      (fun after result => after = history ∧ ∀ done, result = .ok done →
        config.relayerFee ≤ balance)
      history state (checkBalance config balance) := by
  rw [checkBalance]
  split
  · exact ⟨hstate, rfl, nofun⟩
  · rename_i hpays
    exact ⟨hstate, rfl, fun _ _ => Int.not_lt.mp hpays⟩

theorem keeps_prepare (hstate : Cached libraries state) :
    ActKeeps config libraries keccak appId action
      (fun after result => Quiet history after ∧ ∀ prep, result = .ok prep →
        prep.Sound config libraries keccak appId (action.request keccak) after)
      history state (prepare config libraries keccak appId (action.request keccak)) := by
  unfold prepare
  refine keeps_requireSession (fun _ => ⟨hstate, .refl, nofun⟩) ?_
  intro session hsession
  refine (keeps_nullifier hstate).bind ?_ fun _ _ hnamed => ⟨hnamed.1, nofun⟩
  rintro named state nullifier hstate ⟨hnamed, hnullifier⟩
  obtain ⟨current, hcurrent, hnullifier⟩ := hnullifier nullifier rfl
  obtain rfl := Option.some.inj (hcurrent.symm.trans hsession)
  refine keeps_ask hstate rfl fun account state hstate => ?_
  have hplaced := hnamed.trans (quiet_concat rfl account)
  refine keeps_attempt hstate ?_ fun _ _ => ⟨hplaced, nofun⟩
  rintro account rfl
  refine (keeps_readAccount hstate).bind ?_ fun _ _ hviewed => ⟨hplaced.trans hviewed.1, nofun⟩
  rintro viewed state view hstate ⟨hviewed, hview⟩
  have hview := hview view rfl
  refine (keeps_checkFee hstate).bind ?_ ?_
  · rintro viewed state _ hstate ⟨rfl, hfee⟩
    have hfee := hfee () rfl
    refine keeps_ask hstate rfl fun balance state hstate => ?_
    have hweighed := hviewed.trans (quiet_concat rfl balance)
    refine keeps_attempt hstate ?_ fun _ _ => ⟨hplaced.trans hweighed, nofun⟩
    rintro balance rfl
    refine (keeps_checkBalance hstate).bind ?_ ?_
    · rintro _ state _ hstate ⟨rfl, hbalance⟩
      have hbalance := hbalance () rfl
      refine keeps_ask hstate rfl fun now state hstate => ?_
      have hnow := @quiet_concat (viewed ++ [⟨.balanceOf account, .ok balance⟩]) .now rfl now
      have hafter := hweighed.trans hnow
      dsimp only
      split
      · exact ⟨hstate, hplaced.trans hafter, nofun⟩
      · rename_i actionHash hhash
        refine ⟨hstate, hplaced.trans hafter, ?_⟩
        rintro _ ⟨⟩
        constructor
        · exact hnullifier
        · exact hafter.mem mem_concat
        · exact fun seen hseen => ((quiet_concat rfl _).trans hnow).mem (hview.viewed seen hseen)
        · intro hnone
          obtain ⟨code, hcode, hempty⟩ := hview.absent hnone
          exact ⟨code, ((quiet_concat rfl _).trans hnow).mem hcode, hempty⟩
        · exact hfee
        · exact ⟨balance, hnow.mem mem_concat, hbalance⟩
        · exact ⟨now, mem_concat, rfl⟩
        · exact hhash
    · rintro _ thrown ⟨rfl, -⟩
      exact ⟨hplaced.trans hweighed, nofun⟩
  · rintro _ thrown ⟨rfl, -⟩
    exact ⟨hplaced.trans hviewed, nofun⟩

theorem underWay_authenticating : UnderWay [.authenticating] :=
  underWay_of_approval ⟨[.prompt, .proving, .prove, .relaying], rfl⟩

theorem underWay_prompt : UnderWay [.authenticating, .prompt] :=
  underWay_of_approval ⟨[.proving, .prove, .relaying], rfl⟩

theorem keeps_sheetAvailable {secure : Bool} {prep : Preparation} {request : ActionRequest}
    (hstate : Cached libraries state) :
    ActKeeps config libraries keccak appId action
      (fun after result => Quiet history after ∧ (∃ available, result = .ok available) ∧
        (result = .ok true →
          request.kind = actionPay ∧ prep.session.passkey.payment = true))
      history state (sheetAvailable config prep request secure) := by
  rw [sheetAvailable]
  split
  · rename_i hwanted
    refine (keeps_canConfirmPayments hstate).mono ?_
    rintro after result ⟨hquiet, hsome, hpayment⟩
    refine ⟨hquiet, hsome, fun htrue => ⟨?_, hpayment htrue⟩⟩
    exact of_decide_eq_true (Bool.and_eq_true_iff.mp hwanted).2
  · exact ⟨hstate, .refl, ⟨false, rfl⟩, nofun⟩

/-- Where the one prompt leaves an approval. -/
structure Confirms (config : ClientConfig) (libraries : Libraries) (request : ActionRequest)
    (prep : Preparation) (history after : ClientHistory)
    (result : Except ClientThrown (PasskeyAssertion × ConfirmedBy)) : Prop where
  underWay : UnderWay (signs after)
  goes_on : ∃ rest, after = history ++ rest
  answered : ∀ assertion by', result = .ok (assertion, by') →
    signs after = [.authenticating, .prompt] ∧ ∃ prompt sheet,
      prep.Prompts config request prompt sheet ∧ Answered libraries after prompt sheet assertion

theorem keeps_confirm {secure : Bool} {prep : Preparation} (hstate : Cached libraries state)
    (hsigns : signs history = [.authenticating])
    (hsound : prep.Sound config libraries keccak appId (action.request keccak) history) :
    ActKeeps config libraries keccak appId action
      (Confirms config libraries (action.request keccak) prep history) history state
      (confirm config libraries prep (action.request keccak) secure) := by
  have hunder : UnderWay (signs history) := hsigns ▸ underWay_authenticating
  rw [confirm]
  split
  · exact ⟨hstate, hunder, ⟨[], (List.append_nil _).symm⟩, nofun⟩
  · rename_i id hid
    refine (keeps_sheetAvailable hstate).bind ?_ ?_
    · rintro asked state available hstate ⟨hasked, -, hpayment⟩
      have hsigns' : signs asked = [.authenticating] := hasked.signs_eq.trans hsigns
      obtain ⟨rest, rfl, -⟩ := hasked
      have hsound' := hsound.append rest
      cases available with
      | true =>
          obtain ⟨hkind, hpays⟩ := hpayment rfl
          have hprompts : prep.Prompts config (action.request keccak)
              ⟨config.rpId, prep.actionHash, [id]⟩
              (some ⟨ClientData.payeeName (action.request keccak).target,
                (action.request keccak).amount + config.relayerFee⟩) := by
            refine ⟨rfl, rfl, ⟨id, hid, rfl⟩, nofun, ?_⟩
            rintro shown ⟨⟩
            exact ⟨hkind, hpays, rfl⟩
          refine (keeps_sheetPrompt hstate hsigns' hsound' hprompts).bind ?_ ?_
          · rintro _ state assertion hstate ⟨⟨answer, rfl⟩, hanswered⟩
            refine ⟨hstate, ?_, ⟨_, List.append_assoc _ _ _⟩, ?_⟩
            · rw [signs_append, hsigns']
              exact underWay_prompt
            · rintro _ _ ⟨⟩
              refine ⟨?_, _, _, hprompts, hanswered _ rfl⟩
              rw [signs_append, hsigns']
              rfl
          · rintro _ thrown ⟨⟨answer, rfl⟩, -⟩
            refine ⟨?_, ⟨_, List.append_assoc _ _ _⟩, nofun⟩
            rw [signs_append, hsigns']
            exact underWay_prompt
      | false =>
          change Async.Keeps _ _ _ _ _ (if prep.sheetRequired _ = true then _ else _)
          split
          · exact ⟨hstate, hsigns' ▸ underWay_authenticating, ⟨_, rfl⟩, nofun⟩
          · rename_i hplain
            have hprompts : prep.Prompts config (action.request keccak)
                ⟨config.rpId, prep.actionHash, [id]⟩ none :=
              ⟨rfl, rfl, ⟨id, hid, rfl⟩, fun _ => Bool.not_eq_true _ ▸ hplain, nofun⟩
            have hmay : May config libraries keccak appId action (history ++ rest)
                (.getAssertion ⟨config.rpId, prep.actionHash, [id]⟩) := by
              refine ⟨?_, prep, hsound', hprompts⟩
              rintro sign ⟨⟩
              exact inOrder_prompt hsigns'
            refine (keeps_plainPrompt hstate hmay).bind ?_ ?_
            · rintro _ state assertion hstate ⟨⟨answer, rfl⟩, hanswered⟩
              refine ⟨hstate, ?_, ⟨_, List.append_assoc _ _ _⟩, ?_⟩
              · rw [signs_append, hsigns']
                exact underWay_prompt
              · rintro _ _ ⟨⟩
                refine ⟨?_, _, _, hprompts, hanswered _ rfl⟩
                rw [signs_append, hsigns']
                rfl
            · rintro _ thrown ⟨⟨answer, rfl⟩, -⟩
              refine ⟨?_, ⟨_, List.append_assoc _ _ _⟩, nofun⟩
              rw [signs_append, hsigns']
              exact underWay_prompt
    · rintro _ thrown ⟨-, ⟨available, habsurd⟩, -⟩
      contradiction

theorem underWay_proving : UnderWay [.authenticating, .prompt, .proving] :=
  underWay_of_approval ⟨[.prove, .relaying], rfl⟩

theorem underWay_prove : UnderWay [.authenticating, .prompt, .proving, .prove] :=
  underWay_of_approval ⟨[.relaying], rfl⟩

theorem keeps_authorize {secure : Bool} (hstate : Cached libraries state)
    (hsigns : signs history = []) :
    ActKeeps config libraries keccak appId action
      (fun after result => UnderWay (signs after) ∧
        ∀ auth, result = .ok auth → signs after = [.authenticating, .prompt, .proving, .prove] ∧
          ∃ prep assertion, Approved config libraries keccak appId (action.request keccak) after
            auth prep assertion)
      history state (authorize config libraries keccak appId (action.request keccak) secure) := by
  refine (keeps_prepare hstate).bind ?_ ?_
  · rintro prepared state prep hstate ⟨hprepared, hsound⟩
    have hsound := hsound prep rfl
    have hsigns' : signs prepared = [] := hprepared.signs_eq.trans hsigns
    refine Async.Keeps.question hstate ⟨?_, trivial⟩ fun shown state hstate => ?_
    · rintro sign ⟨⟩
      rw [hsigns']
      exact .inl underWay_authenticating
    have hshown : signs (prepared ++ [⟨.emit .authenticating, shown⟩]) = [.authenticating] := by
      rw [signs_append, hsigns']
      rfl
    refine (keeps_confirm hstate hshown (hsound.append _)).bind ?_ ?_
    · rintro confirmed state ⟨assertion, confirmedBy⟩ hstate ⟨hunder, ⟨rest, rfl⟩, hanswered⟩
      obtain ⟨hprompted, prompt, sheet, hprompts, hanswer⟩ := hanswered assertion confirmedBy rfl
      change Async.Keeps _ _ _ _ _ (if assertion.authenticatorData.length ≠ _ then _ else _)
      split
      · exact ⟨hstate, hunder, nofun⟩
      · rename_i hlength
        have hsigned := Signed.mk ((hsound.append _).append rest)
          ⟨prompt, sheet, hprompts, hanswer⟩ (not_not.mp hlength)
        refine keeps_ask hstate rfl fun startedAt state hstate => ?_
        have hstarted := @quiet_concat (prepared ++ [⟨.emit .authenticating, shown⟩] ++ rest) .now
          rfl startedAt
        refine Async.Keeps.question hstate ⟨?_, trivial⟩ fun shown state hstate => ?_
        · rintro sign ⟨⟩
          rw [hstarted.signs_eq, hprompted]
          exact .inl underWay_proving
        have hproving : signs (prepared ++ [⟨.emit .authenticating, shown⟩] ++ rest ++
            [⟨.now, startedAt⟩] ++ [⟨.emit (.proving startedAt), shown⟩]) =
            [.authenticating, .prompt, .proving] := by
          rw [signs_append, hstarted.signs_eq, hprompted]
          rfl
        refine (keeps_proveAssertion hstate ?_).bind ?_ ?_
        · rintro asked ⟨quiet, rfl, hquiet⟩
          refine ⟨?_, prep, assertion, ((hsigned.append _).append _).append _, rfl⟩
          rintro sign ⟨⟩
          rw [signs_append, hquiet, hproving]
          exact .inl underWay_prove
        · rintro proved state proof hstate ⟨⟨rest', rfl⟩, -, hproved⟩
          obtain ⟨hsigns'', hproof⟩ := hproved proof rfl
          rw [hproving] at hsigns''
          refine ⟨hstate, hsigns'' ▸ underWay_prove, ?_⟩
          rintro _ ⟨⟩
          exact ⟨hsigns'', prep, assertion, ⟨((hsigned.append _).append _).append _,
            ⟨proof.publicInputs, hproof⟩, rfl, rfl, rfl, rfl, rfl, rfl⟩⟩
        · rintro proved thrown ⟨-, hsigns'', -⟩
          rw [hproving] at hsigns''
          refine ⟨?_, nofun⟩
          rcases hsigns'' with hsigns'' | hsigns''
          · exact hsigns'' ▸ underWay_proving
          · exact hsigns'' ▸ underWay_prove
    · rintro confirmed thrown ⟨hunder, -⟩
      exact ⟨hunder, nofun⟩
  · rintro prepared thrown ⟨hprepared, -⟩
    refine ⟨?_, nofun⟩
    rw [hprepared.signs_eq, hsigns]
    exact underWay_of_approval List.nil_prefix

/-! ### The relayer -/

/-- An action that the relayer has been asked for so many times, and found busy each time. -/
structure Relays (config : ClientConfig) (libraries : Libraries) (keccak : Bytes → B256)
    (appId : ℕ) (action : ClientAction) (posted : RelayerPost) (attempts : ℕ)
    (history : ClientHistory) : Prop where
  signs_eq : signs history = approval ++ List.replicate attempts .relay
  onlyBusy : OnlyBusy history
  approved : ∃ auth prep assertion,
    Approved config libraries keccak appId (action.request keccak) history auth prep assertion ∧
      posted = .relay auth.account action.functionName (action.args ++ auth.args)

/-- What the attempts come to. -/
def Answers (attempts : ℕ) (history : ClientHistory) :
    Except ClientThrown (Option RelayerData) → Prop
  | .ok data => ∃ made, made ≤ attempts ∧
      signs history = approval ++ List.replicate made .relay ∧
      ∀ found, data = some found → Relayed history found.hash
  | .error _ => ∃ made, made ≤ attempts ∧
      signs history = approval ++ List.replicate made .relay

theorem signs_relay {posted : RelayerPost} {attempts : ℕ} {answer : RelayerAnswer}
    (hrelays : Relays config libraries keccak appId action posted attempts history) :
    signs (history ++ [⟨.post posted, answer⟩]) =
      approval ++ List.replicate (attempts + 1) .relay := by
  obtain ⟨hsigns, -, auth, prep, assertion, -, rfl⟩ := hrelays
  rw [signs_append, hsigns, List.replicate_succ', List.append_assoc]
  rfl

/-- What a relayed request comes to. -/
def Comes (after : ClientHistory) (answer : RelayerAnswer) :
    Except ClientThrown (Option RelayerData) → Prop
  | .ok data => ∀ found, data = some found → Relayed after found.hash
  | .error (.relayer _ status _) => ∃ data, answer = .answered status data
  | .error _ => True

theorem keeps_post {posted : RelayerPost} {attempts : ℕ} (hstate : Cached libraries state)
    (hattempts : attempts ≤ busyRetries)
    (hrelays : Relays config libraries keccak appId action posted attempts history) :
    ActKeeps config libraries keccak appId action
      (fun after result => ∃ answer, after = history ++ [⟨.post posted, answer⟩] ∧
        Comes after answer result)
      history state (post posted) := by
  have hsigns := hrelays.signs_eq
  obtain ⟨auth, prep, assertion, happroved, rfl⟩ := hrelays.approved
  refine Async.Keeps.question hstate ⟨?_, hrelays.onlyBusy, auth, prep, assertion, happroved, rfl,
    rfl, rfl⟩ fun answer state hstate => ?_
  · rintro sign ⟨⟩
    rw [hsigns, List.append_assoc, ← List.replicate_succ']
    exact .inl (underWay_relay (Nat.succ_le_succ hattempts))
  · cases answer with
    | offline error => exact ⟨hstate, _, rfl, trivial⟩
    | answered status data =>
        change Async.Keeps _ _ _ _ _ (if 200 ≤ status ∧ status ≤ 299 then _ else _)
        split
        · rename_i hstatus
          refine ⟨hstate, _, rfl, ?_⟩
          rintro found rfl
          exact ⟨_, _, _, status, found, mem_concat, hstatus.1, hstatus.2, rfl⟩
        · cases data with
          | none => exact ⟨hstate, _, rfl, trivial⟩
          | some data => exact ⟨hstate, _, rfl, _, rfl⟩

theorem keeps_relayAttempt {posted : RelayerPost} {retries attempts : ℕ}
    (hstate : Cached libraries state) (hretries : attempts + retries = busyRetries)
    (hrelays : Relays config libraries keccak appId action posted attempts history) :
    ActKeeps config libraries keccak appId action (Answers (busyRetries + 1)) history state
      (relayAttempt posted retries) := by
  induction retries generalizing attempts history state with
  | zero =>
      refine (keeps_post hstate (by omega) hrelays).mono ?_
      rintro after result ⟨answer, rfl, hresult⟩
      have hsigns := @signs_relay _ _ _ _ _ _ _ _ answer hrelays
      cases result with
      | ok data => exact ⟨_, by omega, hsigns, hresult⟩
      | error thrown => exact ⟨_, by omega, hsigns⟩
  | succ retries ih =>
      refine (keeps_post hstate (by omega) hrelays).tryCatch ?_ ?_
      · rintro after data ⟨answer, rfl, hdata⟩
        exact ⟨_, by omega, signs_relay hrelays, hdata⟩
      · rintro after state thrown hstate ⟨answer, rfl, hanswer⟩
        have hsigns := @signs_relay _ _ _ _ _ _ _ _ answer hrelays
        split
        · obtain ⟨data, rfl⟩ := hanswer
          refine keeps_ask hstate rfl fun paused state hstate => ?_
          have hpaused := @quiet_concat (history ++ [⟨.post posted, .answered 409 data⟩]) .pause
            rfl paused
          refine ih hstate (by omega : attempts + 1 + retries = busyRetries) ?_
          obtain ⟨-, honly, auth, prep, assertion, happroved, rfl⟩ := hrelays
          refine ⟨hpaused.signs_eq.trans hsigns, ?_, auth, prep, assertion,
            (happroved.append _).append _, rfl⟩
          intro account functionName args answer hmem
          rcases List.mem_append.mp hmem with hmem | hmem
          · rcases List.mem_append.mp hmem with hmem | hmem
            · exact honly account functionName args answer hmem
            · obtain ⟨⟨⟩, ⟨⟩⟩ := List.mem_singleton.mp hmem
              exact ⟨data, rfl⟩
          · cases List.mem_singleton.mp hmem
        · exact ⟨hstate, _, by omega, hsigns⟩

/-! ### Submitting -/

/-- An action that has not ended, or has ended well. -/
def Submits (after : ClientHistory) : Except ClientThrown TransactionReceipt → Prop
  | .ok receipt => Ends after (.ok receipt)
  | .error _ => UnderWay (signs after)

/-- What the relayer's hash comes to. -/
def Hashes (after : ClientHistory) (result : Except ClientThrown (Option Bytes)) : Prop :=
  ∃ made, made ≤ busyRetries + 1 ∧ signs after = approval ++ List.replicate made .relay ∧
    ∀ hash, result = .ok hash → Relayed after hash

theorem keeps_relayHash {account : Address} {functionName : RelayableFunction}
    {args : List CallArg} (hstate : Cached libraries state)
    (hrelays : Relays config libraries keccak appId action (.relay account functionName args) 0
      history) :
    ActKeeps config libraries keccak appId action Hashes history state
      (relayHash account functionName args) := by
  suffices hrelay : ActKeeps config libraries keccak appId action Hashes history state _ by
    refine Async.Keeps.tryCatch hrelay (fun after hash hhash => hhash) ?_
    rintro after state thrown hstate ⟨made, hmade, hsigns, -⟩
    exact ⟨hstate, made, hmade, hsigns, nofun⟩
  · refine (keeps_relayAttempt hstate (Nat.zero_add busyRetries) hrelays).bind ?_ ?_
    · rintro after state data hstate ⟨made, hmade, hsigns, hdata⟩
      cases data with
      | none => exact ⟨hstate, made, hmade, hsigns, nofun⟩
      | some data =>
          refine ⟨hstate, made, hmade, hsigns, ?_⟩
          rintro _ ⟨⟩
          exact hdata data rfl
    · rintro after thrown ⟨made, hmade, hsigns⟩
      exact ⟨made, hmade, hsigns, nofun⟩

theorem Relayed.append {hash : Option Bytes} (hrelayed : Relayed history hash)
    (rest : ClientHistory) : Relayed (history ++ rest) hash := by
  obtain ⟨account, functionName, args, status, data, hmem, hanswer⟩ := hrelayed
  exact ⟨account, functionName, args, status, data, List.mem_append_left _ hmem, hanswer⟩

theorem keeps_submit {auth : Authorization} {prep : Preparation} {assertion : PasskeyAssertion}
    (hstate : Cached libraries state)
    (hsigns : signs history = [.authenticating, .prompt, .proving, .prove])
    (happroved : Approved config libraries keccak appId (action.request keccak) history auth prep
      assertion) :
    ActKeeps config libraries keccak appId action Submits history state
      (submit auth.account action.functionName (action.args ++ auth.args) auth.provingMs) := by
  refine Async.Keeps.question hstate ⟨?_, trivial⟩ fun shown state hstate => ?_
  · rintro sign ⟨⟩
    rw [hsigns]
    exact .inl (underWay_of_approval List.prefix_rfl)
  have hrelays : Relays config libraries keccak appId action
      (.relay auth.account action.functionName (action.args ++ auth.args)) 0
      (history ++ [⟨.emit (.relaying auth.provingMs), shown⟩]) := by
    refine ⟨?_, ?_, auth, prep, assertion, happroved.append _, rfl⟩
    · rw [signs_append, hsigns]
      rfl
    · intro account functionName args answer hmem
      have hrelay : .relay ∈ signs (history ++ [⟨.emit (.relaying auth.provingMs), shown⟩]) :=
        List.mem_filterMap.mpr ⟨_, hmem, rfl⟩
      rw [signs_append, hsigns] at hrelay
      simp [signs, ClientAsk.sign?, ProofState.sign] at hrelay
  refine (keeps_relayHash hstate hrelays).bind ?_ ?_
  · rintro relayed state hash hstate ⟨made, hmade, hsigns, hrelayed⟩
    have hrelayed := hrelayed hash rfl
    refine Async.Keeps.question hstate ⟨?_, hrelayed⟩ fun shown state hstate => ?_
    · rintro sign ⟨⟩
      rw [hsigns]
      exact .inl (underWay_confirming hmade)
    have hconfirming : signs (relayed ++ [⟨.emit (.confirming auth.provingMs hash), shown⟩]) =
        approval ++ List.replicate made .relay ++ [.confirming] := by
      rw [signs_append, hsigns]
      rfl
    have hunder : ∀ after, Quiet (relayed ++ [⟨.emit (.confirming auth.provingMs hash), shown⟩])
        after → UnderWay (signs after) := by
      intro after hquiet
      rw [hquiet.signs_eq, hconfirming]
      exact underWay_confirming hmade
    refine keeps_ask hstate rfl fun receipt state hstate => ?_
    have hreceived := @quiet_concat
      (relayed ++ [⟨.emit (.confirming auth.provingMs hash), shown⟩])
      (.waitForTransactionReceipt hash) rfl receipt
    refine keeps_attempt hstate ?_ fun _ _ => hunder _ hreceived
    rintro receipt rfl
    change Async.Keeps _ _ _ _ _ (if receipt.success = false then _ else _)
    split
    · exact ⟨hstate, hunder _ hreceived⟩
    · rename_i hsuccess
      refine keeps_ask hstate rfl fun input state hstate => ?_
      have hread := hreceived.trans (@quiet_concat _ (.getTransaction hash) rfl input)
      refine keeps_attempt hstate ?_ fun _ _ => hunder _ hread
      rintro input rfl
      refine keeps_requireSession (fun _ => ⟨hstate, hunder _ hread⟩) ?_
      intro session hsession
      refine Async.Keeps.question hstate ⟨?_, trivial⟩ fun verified state hstate => ?_
      · rintro sign ⟨⟩
        rw [hread.signs_eq, hconfirming, List.append_assoc]
        exact .inl (underWay_script hmade)
      · refine ⟨hstate, made, hash, hmade, ?_, Bool.not_eq_false _ ▸ hsuccess, ?_, ?_⟩
        · rw [signs_append, hread.signs_eq, hconfirming, List.append_assoc]
          rfl
        · exact (((hrelayed.append _).append _).append _).append _
        · exact List.mem_append_left _ (List.mem_append_left _ mem_concat)
  · rintro relayed thrown ⟨made, hmade, hsigns, -⟩
    change UnderWay (signs relayed)
    rw [hsigns]
    exact underWay_relay hmade

/-! ### A whole action -/

theorem keeps_ensure (hstate : Cached libraries state) :
    ActKeeps config libraries keccak appId action (fun after _ => Quiet history after) history
      state (ensure libraries appId action) := by
  rw [ensure]
  split
  · refine (keeps_ensureAccount hstate).bind ?_ fun _ _ => id
    exact fun after state _ hstate hquiet => ⟨hstate, hquiet⟩
  · exact ⟨hstate, .refl⟩

theorem keeps_act {secure : Bool} (hstate : Cached libraries state) :
    ActKeeps config libraries keccak appId action Ends [] state
      (act config libraries keccak appId action secure) := by
  have hfails : ∀ (after : ClientHistory) (thrown : ClientThrown) (error : VeraKeyError)
      (revert : Option Bytes), Submits after (.error thrown) →
      May config libraries keccak appId action after
          (.emit (.rejected error.stage error.message revert)) ∧
        Ends (after ++ [⟨.emit (.rejected error.stage error.message revert), ()⟩])
          (.error (.described error revert)) := by
    intro after thrown error revert hunder
    refine ⟨⟨?_, trivial⟩, signs after, error, revert, hunder, ?_, rfl, mem_concat⟩
    · rintro sign ⟨⟩
      exact .rejected hunder
    · rw [signs_append]
      rfl
  have hok : ∀ after receipt, Submits after (.ok receipt) → Ends after (.ok receipt) :=
    fun _ _ hends => hends
  refine keeps_run ?_ hok hfails
  refine (keeps_ensure hstate).bind ?_ ?_
  · intro after state _ hstate hquiet
    refine (keeps_authorize hstate hquiet.signs_eq).bind ?_ ?_
    · rintro approved state auth hstate ⟨-, happroved⟩
      obtain ⟨hsigns, prep, assertion, happroved⟩ := happroved auth rfl
      exact keeps_submit hstate hsigns happroved
    · exact fun approved thrown hunder => hunder.1
  · intro after thrown hquiet
    change UnderWay (signs after)
    rw [hquiet.signs_eq]
    exact underWay_of_approval List.nil_prefix

end Rules

end Client

end VeraKey
