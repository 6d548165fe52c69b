/-
The calls of one client side by side: whatever the user, the chain, the prover and the relayer do,
and in whatever order the replies come, an action and a sign-in keep to their rules.
-/
import VeraKey.ClientSignIn

namespace VeraKey

open ByteCodec

namespace Client

open Sdk (StoredPasskey)

/-! ## The calls -/

inductive ClientCall
  | unlock (passkey : Option StoredPasskey)
  | lock
  | nullifier (appId : ℕ)
  | ensureAccount (appId : ℕ)
  | act (appId : ℕ) (action : ClientAction) (secureConfirmation : Bool)
  | proveSignIn (appId : ℕ) (request : SignInRequest)
deriving DecidableEq

inductive ClientResult
  | unlocked (session : LiveSession)
  | locked
  | nullifier (value : ℕ)
  | account (account : Address)
  | receipt (receipt : TransactionReceipt)
  | signIn (result : SignInResult)

section Calls

variable (config : ClientConfig) (libraries : Libraries) (keccak : Bytes → B256)

namespace ClientCall

def program : ClientCall → ClientAsync ClientResult
  | unlock passkey => do return .unlocked (← unlockSession passkey)
  | lock => do
      Client.lock
      return .locked
  | nullifier appId => do return .nullifier (← Client.nullifier libraries appId)
  | ensureAccount appId => do return .account (← Client.ensureAccount libraries appId)
  | act appId action secureConfirmation => do
      return .receipt (← Client.act config libraries keccak appId action secureConfirmation)
  | proveSignIn appId request => do
      return .signIn (← Client.proveSignIn config libraries keccak appId request)

/-- A call that shows nothing and prompts for nothing. -/
def Silent (_ : ClientHistory) (question : ClientAsk) : Prop := question.sign? = none

def may : ClientCall → ClientHistory → ClientAsk → Prop
  | act appId action _ => May config libraries keccak appId action
  | proveSignIn appId request => MaySignIn config libraries keccak appId request
  | _ => Silent

def ends : ClientCall → ClientHistory → Except ClientThrown ClientResult → Prop
  | act _ _ _ => fun history result =>
      ∃ ended, result = ended.map .receipt ∧ Ends history ended
  | proveSignIn appId request => fun history result =>
      ∃ ended, result = ended.map .signIn ∧
        SignInEnds config libraries keccak appId request history ended
  | _ => fun _ _ => True

end ClientCall

abbrev ClientPool :=
  AsyncPool ClientState ClientAsk ClientReply ClientThrown ClientResult ClientCall

abbrev ClientEvent := AsyncEvent ClientReply ClientCall

/-- A client after some events. -/
def clientAfter (events : ℕ → ClientEvent) (n : ℕ) : ClientPool :=
  AsyncPool.after (ClientCall.program config libraries keccak) .fresh events n

end Calls

/-! ## Every call keeps to its rules -/

section Rules

variable {config : ClientConfig} {libraries : Libraries} {keccak : Bytes → B256}
variable {history : ClientHistory} {state : ClientState}

instance : AsksQuietly ClientCall.Silent where
  quiet := id

/-- A call gives back what its function comes to. -/
theorem keeps_return {α : Type} {may : ClientHistory → ClientAsk → Prop}
    {ends : ClientHistory → Except ClientThrown α → Prop} {task : ClientAsync α}
    {f : α → ClientResult} (htask : task.Keeps (Cached libraries) may ends history state) :
    Async.Keeps (Cached libraries) may
      (fun after result => ∃ ended, result = ended.map f ∧ ends after ended) history state
      (do return f (← task)) := by
  refine htask.bind ?_ ?_
  · intro after state value hstate hends
    exact ⟨hstate, .ok value, rfl, hends⟩
  · intro after thrown hends
    exact ⟨.error thrown, rfl, hends⟩

theorem cached_start {session : LiveSession} {made : ℕ} :
    Cached libraries ⟨some session, fun _ => none, made⟩ := by
  intro appId value hcached
  contradiction

theorem keeps_unlockSession {passkey : Option StoredPasskey} (hstate : Cached libraries state) :
    Async.Keeps (Cached libraries) ClientCall.Silent (fun _ _ => True) history state
      (unlockSession passkey) := by
  refine keeps_ask hstate rfl fun answer state hstate => ?_
  cases answer with
  | error failure => exact ⟨hstate, trivial⟩
  | ok session => exact ⟨cached_start, trivial⟩

theorem keeps_lock :
    Async.Keeps (Cached libraries) ClientCall.Silent (fun _ _ => True) history state lock := by
  refine ⟨?_, trivial⟩
  intro appId value hcached
  contradiction

theorem keeps_program (call : ClientCall) (hstate : Cached libraries state) :
    Async.Keeps (Cached libraries) (call.may config libraries keccak)
      (call.ends config libraries keccak) [] state (call.program config libraries keccak) := by
  cases call with
  | unlock passkey =>
      exact (keeps_return (keeps_unlockSession hstate)).mono fun _ _ _ => trivial
  | lock =>
      refine keeps_lock.bind (fun _ _ _ hstate _ => ?_) fun _ _ => id
      exact ⟨hstate, trivial⟩
  | nullifier appId =>
      change Async.Keeps _ ClientCall.Silent _ _ _ _
      exact (keeps_return (keeps_nullifier hstate)).mono fun _ _ _ => trivial
  | ensureAccount appId =>
      change Async.Keeps _ ClientCall.Silent _ _ _ _
      exact (keeps_return (keeps_ensureAccount hstate)).mono fun _ _ _ => trivial
  | act appId action secureConfirmation => exact keeps_return (keeps_act hstate)
  | proveSignIn appId request => exact keeps_return (keeps_proveSignIn hstate)

theorem sound_clientAfter (events : ℕ → ClientEvent) (n : ℕ) :
    AsyncPool.Sound (Cached libraries) (ClientCall.may config libraries keccak)
      (ClientCall.ends config libraries keccak)
      (clientAfter config libraries keccak events n) := by
  refine AsyncPool.sound_after (fun call state hstate => keeps_program call hstate) ?_ n
  intro appId value hcached
  contradiction

end Rules

/-! ## Actions -/

section Runs

variable {config : ClientConfig} {libraries : Libraries} {keccak : Bytes → B256}
variable {events : ℕ → ClientEvent} {n number : ℕ}
variable {job : AsyncJob ClientState ClientAsk ClientReply ClientThrown ClientResult ClientCall}
variable {appId : ℕ} {action : ClientAction} {secureConfirmation : Bool}

/-- What was allowed one after the other is in order. -/
theorem signs_of_allowed {may : ClientHistory → ClientAsk → Prop} {order : List Sign → Prop}
    {history : ClientHistory} (hnone : order [])
    (hmay : ∀ before question sign, may before question → question.sign? = some sign →
      order (signs before ++ [sign]))
    (hallowed : Async.Allowed may history) : order (signs history) := by
  induction history using List.reverseRecOn with
  | nil => exact hnone
  | append_singleton before exchange ih =>
      have hlast := hallowed before exchange [] rfl
      cases hsign : exchange.question.sign? with
      | some sign =>
          have hshown : signs [exchange] = [sign] := by
            rw [signs, List.filterMap_cons, hsign]
            rfl
          rw [signs_append, hshown]
          exact hmay before exchange.question sign hlast hsign
      | none =>
          have hshown : signs [exchange] = [] := by
            rw [signs, List.filterMap_cons, hsign]
            rfl
          rw [signs_append, hshown, List.append_nil]
          refine ih fun earlier asked rest hsplit => ?_
          refine hallowed earlier asked (rest ++ [exchange]) ?_
          rw [hsplit, List.append_assoc]
          rfl

/-- No sign-in asks for two prompts. -/
theorem SignsInOrder.count_prompt {shown : List Sign} (hshown : SignsInOrder shown) :
    shown.count .prompt ≤ 1 := by
  have hscript : ∀ before, before <+: signInScript → before.count .prompt ≤ 1 := by
    intro before hbefore
    exact hbefore.sublist.count_le _
  rcases hshown with hshown | ⟨before, hbefore, rfl⟩
  · exact hscript shown hshown
  · rw [List.count_append]
    exact hscript before hbefore

end Runs

namespace ClientSample

def libraries : Libraries where
  proofs := .ofPoseidon2 fun _ => 7
  sha256 := fun _ => .ofNat 32 9
  derToLowS := .ok
  fromCompact := fun _ => .ok ()
  recoverPublicKey := fun _ _ _ => none

def keccak (_ : Bytes) : B256 := .ofNat 32 5

def config : ClientConfig where
  chainId := 19
  factory := []
  accountImplementation := none
  configHash := none
  rpId := ascii "k.io"
  rpIdHash := beBytes 32 8
  relayerFee := 2
  paymentInstrument := false

def session : Session where
  passkey := ⟨ascii "AQ", ⟨[], []⟩, [], 0, false, none⟩
  publicKey := ⟨beBytes 32 1, beBytes 32 2⟩
  prfSecret := beBytes 32 3

/-- A chain without the account yet, a passkey that confirms, and a relayer that sends. -/
def answer : (question : ClientAsk) → ClientReply question
  | .authenticate _ => .ok session
  | .prover => .ok ()
  | .poseidon2 => ()
  | .predictAddress _ _ => .ok (.ofNat 20 3)
  | .getCode _ => .ok none
  | .accountView _ => .error .unread
  | .balanceOf _ => .ok 100
  | .now => 5000
  | .spcAvailability => []
  | .getAssertion _ => .ok (some ⟨[1], List.replicate 37 0, [], [], none⟩)
  | .getSpcAssertion _ _ => .error .unread
  | .prove _ => .ok ⟨[4], [], 1⟩
  | .post _ => .answered 200 (some ⟨none, none, some [6], .ofNat 20 3⟩)
  | .pause => ()
  | .waitForTransactionReceipt _ => .ok ⟨true, none, none⟩
  | .getTransaction _ => .ok []
  | .emit _ => ()

def payment : ClientAction := .pay (.ofNat 20 4) 6

/-- A passkey is unlocked and pays. -/
def events : ℕ → ClientEvent
  | 0 => .start (.unlock none)
  | 1 => .replies 0 answer
  | 2 => .start (.act 1 payment false)
  | _ => .replies 1 answer

/-- A client that computes account addresses itself. -/
def offlineConfig : ClientConfig :=
  { config with
    factory := ascii "0x0000000000000000000000000000000000000003"
    accountImplementation :=
      some (ascii "0x0000000000000000000000000000000000000004")
    configHash :=
      some (ascii "0x0000000000000000000000000000000000000000000000000000000000000005") }

def signInRequest : SignInRequest where
  nonce := ascii "0x0000000000000000000000000000000000000000000000000000000000000006"
  origin := ascii "https://k.io"
  now := none

/-- A passkey is unlocked and signs in to a site. -/
def signInEvents : ℕ → ClientEvent
  | 0 => .start (.unlock none)
  | 1 => .replies 0 answer
  | 2 => .start (.proveSignIn 1 signInRequest)
  | _ => .replies 1 answer

end ClientSample

end Client

end VeraKey
