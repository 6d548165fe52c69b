/-
Signing in to a site: what the client asks of the passkey and of the prover, and the package that
it makes of their answers.
-/
import VeraKey.AccountAddress
import VeraKey.ClientProtocol
import VeraKey.SignIn

namespace VeraKey

open ByteCodec TextCodec

namespace Client

open Sdk (SignInStatement accountAddressOf bytesToHex computeNullifier credentialIdBytes
  hexToBytes signInChallenge signInTtlSeconds toFieldHex)

/-! ## The package -/

structure SignInRequest where
  nonce : Bytes
  origin : Bytes
  now : Option ℤ
deriving DecidableEq

/-- The statement, as the client writes it. -/
structure SignInFields where
  chainId : ℤ
  factory : Bytes
  origin : Bytes
  appId : Bytes
  nullifier : Bytes
  nonce : Bytes
  issuedAt : ℤ
  expiresAt : ℤ

/-- The statement that is signed. -/
def SignInFields.statement (keccak : Bytes → B256) (fields : SignInFields) :
    Option SignInStatement := do
  guard (Sdk.isAddress keccak fields.factory)
  return {
    chainId := fields.chainId
    factory := ← Sdk.addressOf fields.factory
    origin := Sdk.utf8 fields.origin
    appId := ← hexToBytes fields.appId
    nullifier := ← hexToBytes fields.nullifier
    nonce := ← hexToBytes fields.nonce
    issuedAt := fields.issuedAt
    expiresAt := fields.expiresAt }

def SignInFields.challenge (keccak : Bytes → B256) (fields : SignInFields) : Option B256 :=
  (fields.statement keccak).bind (signInChallenge keccak)

structure SignInResult where
  statement : SignInFields
  account : Bytes
  clientDataJson : Bytes
  proof : Bytes
  publicInputs : List Bytes

def SignInFields.json (fields : SignInFields) : Json :=
  .obj [(ascii "chainId", .num (some fields.chainId)), (ascii "factory", .str fields.factory),
    (ascii "origin", .str fields.origin), (ascii "appId", .str fields.appId),
    (ascii "nullifier", .str fields.nullifier), (ascii "nonce", .str fields.nonce),
    (ascii "issuedAt", .num (some fields.issuedAt)),
    (ascii "expiresAt", .num (some fields.expiresAt))]

/-- The package, as a site's server gets it. -/
def SignInResult.json (result : SignInResult) : Json :=
  .obj [(ascii "version", .num (some 1)), (ascii "statement", result.statement.json),
    (ascii "playerId", .str result.statement.nullifier), (ascii "account", .str result.account),
    (ascii "clientDataJSON", .str (bytesToHex result.clientDataJson)),
    (ascii "proof", .str (bytesToHex result.proof)),
    (ascii "publicInputs", .arr (result.publicInputs.map .str))]

/-! ## The ceremony -/

section Functions

variable (config : ClientConfig) (libraries : Libraries) (keccak : Bytes → B256) (appId : ℕ)
variable (request : SignInRequest)

/-- What account addresses are computed from; an empty text is none. -/
def ClientConfig.offline : Option Sdk.AccountDeployment := do
  let accountImplementation ← config.accountImplementation.filter (· ≠ [])
  let configHash ← config.configHash.filter (· ≠ [])
  return ⟨config.factory, accountImplementation, configHash⟩

/-- What a sign-in is made from. -/
structure SignInPreparation where
  session : LiveSession
  deployment : Sdk.AccountDeployment
  nullifier : ℕ
  issuedAt : ℤ

def SignInPreparation.fields (prep : SignInPreparation) : SignInFields where
  chainId := config.chainId
  factory := config.factory
  origin := request.origin
  appId := toFieldHex appId
  nullifier := toFieldHex prep.nullifier
  nonce := request.nonce
  issuedAt := prep.issuedAt
  expiresAt := prep.issuedAt + signInTtlSeconds

def issueTime : ClientAsync ℤ :=
  match request.now with
  | some now => return now
  | none => do return (← ask .now) / 1000

/-- `proveSignIn` before its prompt. -/
def prepareSignIn : ClientAsync SignInPreparation := do
  let session ← requireSession
  match config.offline with
  | none =>
      reject .device (ascii "This client cannot compute account addresses offline.")
  | some deployment => do
      let nullifier ← nullifier libraries appId
      let issuedAt ← issueTime request
      return ⟨session, deployment, nullifier, issuedAt⟩

def signInPrompt (prep : SignInPreparation) : ClientAsync PasskeyAssertion :=
  match (prep.fields config appId request).challenge keccak,
      credentialIdBytes prep.session.passkey with
  | some challenge, some credentialId =>
      plainPrompt libraries ⟨config.rpId, challenge, [credentialId]⟩
  | _, _ => throw (.described (describeWebAuthnError .unread) none)

/-- The package of an approved statement. -/
def signInResult (prep : SignInPreparation) (assertion : PasskeyAssertion)
    (proof : VeraKeyProof) : ClientAsync SignInResult :=
  match accountAddressOf keccak prep.deployment appId prep.nullifier with
  | none => throw (.thrown .unread)
  | some account =>
      return {
        statement := prep.fields config appId request
        account := account
        clientDataJson := assertion.clientDataJson
        proof := proof.proof
        publicInputs := proof.publicInputs }

def approveSignIn : ClientAsync SignInResult := do
  let prep ← prepareSignIn config libraries appId request
  ask (.emit .authenticating)
  let assertion ← signInPrompt config libraries keccak appId request prep
  if assertion.authenticatorData.length ≠ authenticatorDataLength then rejectLength assertion
  else
    ask (.emit (.proving (← ask .now)))
    let proof ← proveAssertion config prep.session assertion appId prep.nullifier
    ask (.emit .idle)
    signInResult config keccak appId request prep assertion proof

/-- `proveSignIn`. -/
def proveSignIn : ClientAsync SignInResult :=
  run (approveSignIn config libraries keccak appId request)

end Functions

/-! ## What a sign-in may ask, and how it ends -/

/-- All that a sign-in shows when it succeeds. -/
def signInScript : List Sign := [.authenticating, .prompt, .proving, .prove, .idle]

/-- A sign-in follows its script, and may end with a rejection at any point. -/
def SignsInOrder (shown : List Sign) : Prop :=
  shown <+: signInScript ∨ ∃ before, before <+: signInScript ∧ shown = before ++ [.rejected]

section Facts

variable (config : ClientConfig) (libraries : Libraries) (keccak : Bytes → B256) (appId : ℕ)
variable (request : SignInRequest)

namespace SignInPreparation

variable (prep : SignInPreparation)

/-- One passkey's id in the app, at the time that was asked for. -/
structure Sound (history : ClientHistory) : Prop where
  deployment : config.offline = some prep.deployment
  nullifier_eq : computeNullifier libraries.proofs prep.session.publicKey prep.session.prfSecret
    appId = some prep.nullifier
  issued : request.now = some prep.issuedAt ∨
    request.now = none ∧ ∃ now, ⟨.now, now⟩ ∈ history ∧ prep.issuedAt = now / 1000

/-- The prompt is for the prepared statement. -/
structure Prompts (prompt : AssertionRequest) : Prop where
  rpId : prompt.rpId = config.rpId
  challenge : (prep.fields config appId request).challenge keccak = some prompt.challenge
  credentials : ∃ id, credentialIdBytes prep.session.passkey = some id ∧
    prompt.credentialIds = [id]

end SignInPreparation

/-- The assertion is the answer to the prompt for the prepared statement. -/
structure SignInSigned (history : ClientHistory) (prep : SignInPreparation)
    (assertion : PasskeyAssertion) : Prop where
  sound : prep.Sound config libraries appId request history
  prompted : ∃ prompt, prep.Prompts config keccak appId request prompt ∧
    Answered libraries history prompt none assertion
  length : assertion.authenticatorData.length = authenticatorDataLength

/-- What a sign-in may ask after what it was answered. -/
def MaySignIn (history : ClientHistory) (question : ClientAsk) : Prop :=
  (∀ sign, question.sign? = some sign → SignsInOrder (signs history ++ [sign])) ∧
  match question with
  | .getAssertion prompt => ∃ prep : SignInPreparation,
      prep.Sound config libraries appId request history ∧
        prep.Prompts config keccak appId request prompt
  | .getSpcAssertion _ _ => False
  | .prove input => ∃ prep assertion,
      SignInSigned config libraries keccak appId request history prep assertion ∧
        input = witnessInput config appId prep.session prep.nullifier assertion
  | .post (.relay _ _ _) => False
  | _ => True

/-- The package is of one statement that one passkey signed and proved. -/
structure SignInProved (history : ClientHistory) (prep : SignInPreparation)
    (assertion : PasskeyAssertion) (result : SignInResult) : Prop where
  signed : SignInSigned config libraries keccak appId request history prep assertion
  proved : ∃ provingMs,
    ⟨.prove (witnessInput config appId prep.session prep.nullifier assertion),
      .ok ⟨result.proof, result.publicInputs, provingMs⟩⟩ ∈ history
  statement : result.statement = prep.fields config appId request
  account : accountAddressOf keccak prep.deployment appId prep.nullifier = some result.account
  clientDataJson : result.clientDataJson = assertion.clientDataJson

/-- How a sign-in ends. -/
def SignInEnds (history : ClientHistory) : Except ClientThrown SignInResult → Prop
  | .ok result => signs history = signInScript ∧ ∃ prep assertion,
      SignInProved config libraries keccak appId request history prep assertion result
  | .error thrown => ∃ shown error revert, shown <+: signInScript ∧
      signs history = shown ++ [.rejected] ∧ thrown = .described error revert ∧
      ⟨.emit (.rejected error.stage error.message revert), ()⟩ ∈ history

variable {config} {libraries} {keccak} {appId} {request}
variable {history : ClientHistory} {prep : SignInPreparation} {assertion : PasskeyAssertion}

theorem SignInPreparation.Sound.append (hsound : prep.Sound config libraries appId request history)
    (rest : ClientHistory) : prep.Sound config libraries appId request (history ++ rest) := by
  obtain ⟨hdeployment, hnullifier, hissued⟩ := hsound
  refine ⟨hdeployment, hnullifier, hissued.imp_right ?_⟩
  rintro ⟨hnone, now, hnow, heq⟩
  exact ⟨hnone, now, List.mem_append_left _ hnow, heq⟩

theorem SignInSigned.append
    (hsigned : SignInSigned config libraries keccak appId request history prep assertion)
    (rest : ClientHistory) :
    SignInSigned config libraries keccak appId request (history ++ rest) prep assertion := by
  obtain ⟨hsound, ⟨prompt, hprompts, hanswered⟩, hlength⟩ := hsigned
  exact ⟨hsound.append rest, ⟨prompt, hprompts, hanswered.append rest⟩, hlength⟩

end Facts

/-! ## The rules are kept -/

section Rules

variable {config : ClientConfig} {libraries : Libraries} {keccak : Bytes → B256} {appId : ℕ}
variable {request : SignInRequest} {history : ClientHistory} {state : ClientState}
variable {prep : SignInPreparation}

instance : AsksQuietly (MaySignIn config libraries keccak appId request) where
  quiet := by
    intro history question hquestion
    refine ⟨fun sign hsign => ?_, ?_⟩
    · rw [hquestion] at hsign
      contradiction
    · split <;> trivial

theorem keeps_issueTime (hstate : Cached libraries state) :
    Async.Keeps (Cached libraries) (MaySignIn config libraries keccak appId request)
      (fun after result => Quiet history after ∧ ∃ issuedAt, result = .ok issuedAt ∧
        (request.now = some issuedAt ∨
          request.now = none ∧ ∃ now, ⟨.now, now⟩ ∈ after ∧ issuedAt = now / 1000))
      history state (issueTime request) := by
  rw [issueTime]
  split
  · rename_i now hnow
    exact ⟨hstate, .refl, now, rfl, .inl hnow⟩
  · rename_i hnone
    refine keeps_ask hstate rfl fun now state hstate => ?_
    exact ⟨hstate, quiet_concat rfl now, now / 1000, rfl, .inr ⟨hnone, now, mem_concat, rfl⟩⟩

theorem keeps_prepareSignIn (hstate : Cached libraries state) :
    Async.Keeps (Cached libraries) (MaySignIn config libraries keccak appId request)
      (fun after result => Quiet history after ∧ ∀ prep, result = .ok prep →
        prep.Sound config libraries appId request after)
      history state (prepareSignIn config libraries appId request) := by
  unfold prepareSignIn
  refine keeps_requireSession (fun _ => ⟨hstate, .refl, nofun⟩) ?_
  intro session hsession
  split
  · exact ⟨hstate, .refl, nofun⟩
  · rename_i deployment hdeployment
    refine (keeps_nullifier hstate).bind ?_ fun _ _ hnamed => ⟨hnamed.1, nofun⟩
    rintro named state nullifier hstate ⟨hnamed, hnullifier⟩
    obtain ⟨current, hcurrent, hnullifier⟩ := hnullifier nullifier rfl
    obtain rfl := Option.some.inj (hcurrent.symm.trans hsession)
    refine (keeps_issueTime hstate).bind ?_ ?_
    · rintro timed state issuedAt hstate ⟨htimed, _, ⟨⟩, hissued⟩
      refine ⟨hstate, hnamed.trans htimed, ?_⟩
      rintro _ ⟨⟩
      exact ⟨hdeployment, hnullifier, hissued⟩
    · rintro timed thrown ⟨-, issuedAt, habsurd, -⟩
      contradiction

/-- Where the prompt leaves a sign-in. -/
structure SignInConfirms (config : ClientConfig) (libraries : Libraries)
    (keccak : Bytes → B256) (appId : ℕ) (request : SignInRequest) (prep : SignInPreparation)
    (history after : ClientHistory) (result : Except ClientThrown PasskeyAssertion) : Prop where
  goes_on : ∃ rest, after = history ++ rest
  signs_eq : signs after = [.authenticating] ∨ signs after = [.authenticating, .prompt]
  answered : ∀ assertion, result = .ok assertion → signs after = [.authenticating, .prompt] ∧
    ∃ prompt, prep.Prompts config keccak appId request prompt ∧
      Answered libraries after prompt none assertion

theorem keeps_signInPrompt (hstate : Cached libraries state)
    (hsigns : signs history = [.authenticating])
    (hsound : prep.Sound config libraries appId request history) :
    Async.Keeps (Cached libraries) (MaySignIn config libraries keccak appId request)
      (SignInConfirms config libraries keccak appId request prep history) history state
      (signInPrompt config libraries keccak appId request prep) := by
  rw [signInPrompt]
  split
  · rename_i challenge credentialId hchallenge hcredential
    have hprompts : prep.Prompts config keccak appId request
        ⟨config.rpId, challenge, [credentialId]⟩ :=
      ⟨rfl, hchallenge, credentialId, hcredential, rfl⟩
    have hmay : MaySignIn config libraries keccak appId request history
        (.getAssertion ⟨config.rpId, challenge, [credentialId]⟩) := by
      refine ⟨?_, prep, hsound, hprompts⟩
      rintro sign ⟨⟩
      rw [hsigns]
      exact .inl ⟨[.proving, .prove, .idle], rfl⟩
    refine (keeps_plainPrompt hstate hmay).mono ?_
    rintro after result ⟨⟨answer, rfl⟩, hanswered⟩
    have hprompted : signs (history ++ [⟨.getAssertion ⟨config.rpId, challenge, [credentialId]⟩,
        answer⟩]) = [.authenticating, .prompt] := by
      rw [signs_append, hsigns]
      rfl
    refine ⟨⟨_, rfl⟩, .inr hprompted, ?_⟩
    intro assertion hassertion
    exact ⟨hprompted, _, hprompts, hanswered assertion hassertion⟩
  · exact ⟨hstate, ⟨[], (List.append_nil _).symm⟩, .inl hsigns, nofun⟩

/-- A sign-in that has not ended, or has ended well. -/
def SignInGoes (config : ClientConfig) (libraries : Libraries) (keccak : Bytes → B256)
    (appId : ℕ) (request : SignInRequest) (after : ClientHistory) :
    Except ClientThrown SignInResult → Prop
  | .ok result => SignInEnds config libraries keccak appId request after (.ok result)
  | .error _ => signs after <+: signInScript

theorem keeps_approveSignIn (hstate : Cached libraries state) :
    Async.Keeps (Cached libraries) (MaySignIn config libraries keccak appId request)
      (SignInGoes config libraries keccak appId request) [] state
      (approveSignIn config libraries keccak appId request) := by
  refine (keeps_prepareSignIn hstate).bind ?_ ?_
  · rintro prepared state prep hstate ⟨hprepared, hsound⟩
    have hsound := hsound prep rfl
    have hsigns : signs prepared = [] := hprepared.signs_eq
    refine Async.Keeps.question hstate ⟨?_, trivial⟩ fun shown state hstate => ?_
    · rintro sign ⟨⟩
      rw [hsigns]
      exact .inl ⟨[.prompt, .proving, .prove, .idle], rfl⟩
    have hshown : signs (prepared ++ [⟨.emit .authenticating, shown⟩]) = [.authenticating] := by
      rw [signs_append, hsigns]
      rfl
    refine (keeps_signInPrompt hstate hshown (hsound.append _)).bind ?_ ?_
    · rintro confirmed state assertion hstate ⟨⟨rest, rfl⟩, -, hanswered⟩
      obtain ⟨hprompted, prompt, hprompts, hanswer⟩ := hanswered assertion rfl
      change Async.Keeps _ _ _ _ _ (if assertion.authenticatorData.length ≠ _ then _ else _)
      split
      · refine ⟨hstate, ?_⟩
        change signs _ <+: _
        rw [hprompted]
        exact ⟨[.proving, .prove, .idle], rfl⟩
      · rename_i hlength
        have hsigned := SignInSigned.mk ((hsound.append _).append rest)
          ⟨prompt, hprompts, hanswer⟩ (not_not.mp hlength)
        refine keeps_ask hstate rfl fun startedAt state hstate => ?_
        have hstarted := @quiet_concat (prepared ++ [⟨.emit .authenticating, shown⟩] ++ rest) .now
          rfl startedAt
        refine Async.Keeps.question hstate ⟨?_, trivial⟩ fun shown state hstate => ?_
        · rintro sign ⟨⟩
          rw [hstarted.signs_eq, hprompted]
          exact .inl ⟨[.prove, .idle], rfl⟩
        have hproving : signs (prepared ++ [⟨.emit .authenticating, shown⟩] ++ rest ++
            [⟨.now, startedAt⟩] ++ [⟨.emit (.proving startedAt), shown⟩]) =
            [.authenticating, .prompt, .proving] := by
          rw [signs_append, hstarted.signs_eq, hprompted]
          rfl
        refine (keeps_proveAssertion hstate ?_).bind ?_ ?_
        · rintro asked ⟨quiet, rfl, hquiet⟩
          refine ⟨?_, prep, assertion, ((hsigned.append _).append _).append _, rfl⟩
          rintro sign ⟨⟩
          rw [signs_append, hquiet, hproving]
          exact .inl ⟨[.idle], rfl⟩
        · rintro proved state proof hstate ⟨⟨rest', rfl⟩, -, hproved⟩
          obtain ⟨hsigns', hproof⟩ := hproved proof rfl
          rw [hproving] at hsigns'
          refine Async.Keeps.question hstate ⟨?_, trivial⟩ fun idle state hstate => ?_
          · rintro sign ⟨⟩
            rw [hsigns']
            exact .inl List.prefix_rfl
          rw [signInResult]
          split
          · refine ⟨hstate, ?_⟩
            change signs _ <+: _
            rw [signs_append, hsigns']
            exact List.prefix_rfl
          · rename_i account haccount
            refine ⟨hstate, ?_, prep, assertion, ?_, ?_, rfl, haccount, rfl⟩
            · rw [signs_append, hsigns']
              rfl
            · exact (((hsigned.append _).append _).append _).append _
            · exact ⟨proof.provingMs, List.mem_append_left _ hproof⟩
        · rintro proved thrown ⟨-, hsigns', -⟩
          rw [hproving] at hsigns'
          change signs proved <+: _
          rcases hsigns' with hsigns' | hsigns'
          · exact hsigns' ▸ ⟨[.prove, .idle], rfl⟩
          · exact hsigns' ▸ ⟨[.idle], rfl⟩
    · rintro confirmed thrown ⟨-, hsigns', -⟩
      change signs confirmed <+: _
      rcases hsigns' with hsigns' | hsigns'
      · exact hsigns' ▸ ⟨[.prompt, .proving, .prove, .idle], rfl⟩
      · exact hsigns' ▸ ⟨[.proving, .prove, .idle], rfl⟩
  · rintro prepared thrown ⟨hprepared, -⟩
    change signs prepared <+: _
    rw [hprepared.signs_eq]
    exact List.nil_prefix

theorem keeps_proveSignIn (hstate : Cached libraries state) :
    Async.Keeps (Cached libraries) (MaySignIn config libraries keccak appId request)
      (SignInEnds config libraries keccak appId request) [] state
      (proveSignIn config libraries keccak appId request) := by
  refine keeps_run (keeps_approveSignIn hstate) (fun _ _ hends => hends) ?_
  intro after thrown error revert hunder
  change signs after <+: signInScript at hunder
  refine ⟨⟨?_, trivial⟩, signs after, error, revert, hunder, ?_, rfl, mem_concat⟩
  · rintro sign ⟨⟩
    exact .inr ⟨signs after, hunder, rfl⟩
  · rw [signs_append]
    rfl

end Rules

end Client

end VeraKey
