/-
The sign-in check as the program it is: it pushes its checks, calls the chain, and may
throw between any two of them.  However the calls answer, it returns the verdict, and a
sign-in that fails a check of its own costs no call.
-/
import VeraKey.Guard
import VeraKey.SignIn

namespace VeraKey

open ByteCodec Guard TextCodec

namespace Sdk

/-! ## The program -/

/-- A call to the chain's client.  The check makes each of them once at most. -/
inductive RpcCall
  | verify (honkVerifier proof : Bytes) (publicInputs : List Bytes)
  | accountAddress (factory appId nullifier : Bytes)
  | getCode (address : Bytes)
  | isOwner (account nullifier : Bytes)

/-- What the check leaves behind, in order. -/
structure SignInLog where
  checks : List SignInCheck
  calls : List RpcCall

/-- A part of the check.  What it pushed before it throws stays. -/
abbrev Checking : Type → Type := ExceptT Bytes (StateM SignInLog)

namespace Checking

def push (c : SignInCheck) : Checking Unit :=
  modify fun log => { log with checks := log.checks ++ [c] }

/-- A call; one that rejects has no answer. -/
def ask {α : Type} (call : RpcCall) (answer : Option α) : Checking (Option α) := do
  modify fun log => { log with calls := log.calls ++ [call] }
  return answer

def orThrow {α : Type} (x : Except Bytes α) : Checking α := ExceptT.mk (pure x)

def pushed : Checking (List SignInCheck) := do
  return (← get).checks

variable (p : Platform) (chain : ChainClient) (options : VerifySignInOptions)

/-- The checks that need no chain, and the public inputs they recompute. -/
def checkLocally (form : SignInForm) : Checking (List Bytes) := do
  push (deploymentCheck form options)
  push (siteCheck p form options)
  push (← orThrow (appIdCheck p form options))
  push (nonceCheck form options)
  push (expiryCheck p form options)
  push (ttlCheck p form options)
  let clientData ← orThrow (orElse (hexToBytes form.clientDataJson) p.encodingError)
  let parsed := SignInForm.clientData p clientData
  push (← orThrow (passkeyCheck p form parsed))
  push (← orThrow (originCheck p options parsed))
  push (← orThrow (inputsCheck p form options clientData))
  orThrow (signInInputs p form options clientData)

def checkProof (form : SignInForm) (expected : List Bytes) : Checking Unit := do
  let honkVerifier := options.deployment.honkVerifier
  if ¬ options.skipOnChainProof then
    let onChain ← ask (.verify honkVerifier form.proof expected)
      (chain.verify honkVerifier form.proof expected)
    push (check "Proof verifies on-chain (HonkVerifier, eth_call)" (onChain = some true)
      (some (ascii "the verifier rejected the proof, or the call failed")) none)
  match options.prover with
  | some verify =>
      push (check "Proof verifies locally (bb.js)" ((verify form.proof expected).getD false)
        (some (ascii "bb.js rejected the proof")) none)
  | none =>
      if options.skipOnChainProof then
        push (check "Proof verified" false (some (ascii "no verifier configured")) none)

def checkOwner (form : SignInForm) (address : Bytes) : Checking Unit := do
  match ← ask (.getCode address) (chain.getCode address) with
  | none =>
      push (check "Player still owns the account" false
        (some (ascii "the account's code could not be read")) none)
  | some code =>
      if code.any fun code => code ≠ [] ∧ code ≠ ascii "0x" then
        let owner ← ask (.isOwner address form.nullifier.text)
          (chain.isOwner address form.nullifier.text)
        push (check "Player still owns the account" (owner = some true)
          (some (if owner = none then ascii "the account's owners could not be read"
            else ascii "this passkey no longer owns the account")) none)
      else
        push (check "Player still owns the account" true none
          (some (ascii "not deployed yet: it is created for this player on first use")))

def checkAccount (form : SignInForm) : Checking Unit := do
  let factory := options.deployment.factory
  let account ← ask (.accountAddress factory form.appId.text form.nullifier.text)
    (chain.accountAddress factory form.appId.text form.nullifier.text)
  push (check "Account of this player"
    (account.any fun address => toLowerCase address = toLowerCase form.account)
    (some (match account with
      | some address => ascii "the factory derives " ++ address ++ ascii " for this player"
      | none => ascii "the factory could not be read"))
    account)
  match account with
  | none =>
      push (check "Player still owns the account" false
        (some (ascii "the account address could not be read")) none)
  | some address => checkOwner chain form address

/-- The checks that ask the chain. -/
def checkOnChain (form : SignInForm) (expected : List Bytes) : Checking Unit := do
  checkProof chain options form expected
  checkAccount chain options form

/-- `checkSignIn` of a result whose fields are well-formed. -/
def checkFields (form : SignInForm) : Checking SignInVerdict := do
  let expected ← checkLocally p options form
  -- the proof's call alone costs about 700k gas
  if ¬ (← pushed).all (·.ok) then return refuse (← pushed)
  checkOnChain chain options form expected
  let checks ← pushed
  let valid := checks.all (·.ok)
  return ⟨valid, checks, if valid then some form.nullifier.text else none,
    if valid then some form.account else none⟩

def checkSignIn (result : Json) : Checking SignInVerdict := do
  push (check "Format" (hasFormat result) (some (ascii "not a VeraKey sign-in (v1)")) none)
  if ¬ hasFormat result then return refuse (← pushed)
  match readForm p result with
  | none => do
      push (check "Well-formed fields" false none none)
      return refuse (← pushed)
  | some form => do
      push (check "Well-formed fields" true none none)
      checkFields p chain options form

/-- `verifySignIn`: what `checkSignIn` throws becomes a refusal. -/
def verifySignIn (result : Json) : Checking SignInVerdict :=
  tryCatch (checkSignIn p chain options result) fun message => do
    push (check "Checked without errors" false (some message) none)
    return refuse (← pushed)

/-! ## What the parts do -/

/-- How a part ends, and what it has left behind by then. -/
def runFrom {α : Type} (x : Checking α) (log : SignInLog) : Except Bytes α × SignInLog :=
  (ExceptT.run x).run log

section RunFrom

variable {α β : Type} (log : SignInLog)

@[simp]
theorem runFrom_pure (a : α) : runFrom (pure a) log = (.ok a, log) := rfl

@[simp]
theorem runFrom_push (c : SignInCheck) :
    runFrom (push c) log = (.ok (), { log with checks := log.checks ++ [c] }) := rfl

@[simp]
theorem runFrom_ask (call : RpcCall) (answer : Option α) :
    runFrom (ask call answer) log = (.ok answer, { log with calls := log.calls ++ [call] }) := rfl

@[simp]
theorem runFrom_orThrow (x : Except Bytes α) : runFrom (orThrow x) log = (x, log) := rfl

@[simp]
theorem runFrom_pushed : runFrom pushed log = (.ok log.checks, log) := rfl

theorem runFrom_bind (x : Checking α) (f : α → Checking β) :
    runFrom (x >>= f) log =
      match runFrom x log with
      | (.ok a, log') => runFrom (f a) log'
      | (.error message, log') => (.error message, log') := by
  rw [runFrom, ExceptT.run_bind, StateT.run_bind]
  rw [runFrom]
  cases (ExceptT.run x).run log with
  | mk result log' => cases result <;> rfl

theorem runFrom_tryCatch (x : Checking α) (handle : Bytes → Checking α) :
    runFrom (tryCatch x handle) log =
      match runFrom x log with
      | (.ok a, log') => (.ok a, log')
      | (.error message, log') => runFrom (handle message) log' := by
  simp only [runFrom, tryCatch, tryCatchThe, MonadExceptOf.tryCatch, ExceptT.tryCatch, ExceptT.run,
    ExceptT.mk, StateT.run_bind]
  cases StateT.run x log with
  | mk result log' => cases result <;> rfl

end RunFrom

variable {p chain options} {form : SignInForm} {clientData : Bytes} (log : SignInLog)

/-- The local part pushes the local checks up to the first error. -/
theorem runFrom_checkLocally (hclientData : hexToBytes form.clientDataJson = some clientData) :
    runFrom (checkLocally p options form) log =
      (match (runChecks (localChecks p form options clientData)).2 with
        | some message => .error message
        | none => signInInputs p form options clientData,
      { log with
        checks := log.checks ++ (runChecks (localChecks p form options clientData)).1 }) := by
  have hdata : orElse (hexToBytes form.clientDataJson) p.encodingError = .ok clientData :=
    orElse_eq_ok.mpr hclientData
  simp only [checkLocally, runFrom_bind, runFrom_push, runFrom_orThrow, hdata, localChecks,
    runChecks]
  cases appIdCheck p form options with
  | error message => simp [runChecks]
  | ok appId =>
      cases passkeyCheck p form (SignInForm.clientData p clientData) with
      | error message => simp [runChecks]
      | ok passkey =>
          cases originCheck p options (SignInForm.clientData p clientData) with
          | error message => simp [runChecks]
          | ok origin =>
              cases inputsCheck p form options clientData with
              | error message => simp [runChecks]
              | ok inputs => simp [runChecks]

/-- A part that ends normally, after pushing `checks`. -/
def Pushes (x : Checking Unit) (checks : List SignInCheck) : Prop :=
  ∀ log, ∃ calls, runFrom x log = (.ok (), ⟨log.checks ++ checks, log.calls ++ calls⟩)

section Pushes

variable {checks checks' : List SignInCheck}

theorem pushes_pure : Pushes (pure ()) [] :=
  fun _ => ⟨[], by simp⟩

theorem pushes_push (c : SignInCheck) : Pushes (push c) [c] :=
  fun _ => ⟨[], by simp⟩

theorem Pushes.and {x y : Checking Unit} (hx : Pushes x checks) (hy : Pushes y checks') :
    Pushes (do x; y) (checks ++ checks') := by
  intro log
  obtain ⟨calls, hx⟩ := hx log
  obtain ⟨calls', hy⟩ := hy ⟨log.checks ++ checks, log.calls ++ calls⟩
  refine ⟨calls ++ calls', ?_⟩
  rw [runFrom_bind, hx, ← List.append_assoc, ← List.append_assoc]
  exact hy

theorem Pushes.ask {α : Type} {call : RpcCall} {answer : Option α} {f : Option α → Checking Unit}
    (hf : Pushes (f answer) checks) : Pushes (do f (← ask call answer)) checks := by
  intro log
  obtain ⟨calls, hf⟩ := hf { log with calls := log.calls ++ [call] }
  rw [List.append_assoc] at hf
  exact ⟨[call] ++ calls, by rw [runFrom_bind, runFrom_ask]; exact hf⟩

end Pushes

theorem pushes_checkProof (expected : List Bytes) :
    Pushes (checkProof chain options form expected) (proofChecks chain form options expected) := by
  simp only [checkProof, proofChecks]
  cases options.skipOnChainProof with
  | false =>
      apply Pushes.ask
      apply (pushes_push _).and
      cases options.prover with
      | none => exact pushes_pure
      | some verify => exact pushes_push _
  | true =>
      cases options.prover with
      | none => exact pushes_push _
      | some verify => exact pushes_push _

theorem pushes_checkOwner (address : Bytes) :
    Pushes (checkOwner chain form address) [ownerCheck chain form address] := by
  apply Pushes.ask
  rw [ownerCheck]
  cases chain.getCode address with
  | none => exact pushes_push _
  | some code =>
      simp only []
      split
      · exact Pushes.ask (pushes_push _)
      · exact pushes_push _

/-- The checks that ask the chain end normally, however it answers. -/
theorem pushes_checkOnChain (expected : List Bytes) :
    Pushes (checkOnChain chain options form expected)
      (chainChecks chain form options expected) := by
  apply (pushes_checkProof expected).and
  apply Pushes.ask
  cases chain.accountAddress options.deployment.factory form.appId.text form.nullifier.text with
  | none => exact (pushes_push _).and (pushes_push _)
  | some address => exact (pushes_push _).and (pushes_checkOwner address)

end Checking

/-! ## What the checks say -/

/-- A check that ran and holds. -/
def Passes (c : Except Bytes SignInCheck) : Prop := ∃ passed, c = .ok passed ∧ passed.ok = true

theorem passes_ok {c : SignInCheck} : Passes (.ok c) ↔ c.ok = true := by
  simp [Passes]

/-- Checks that ended without an error have all run. -/
theorem ran_of_runChecks {cs : List (Except Bytes SignInCheck)} (hnone : (runChecks cs).2 = none) :
    ∀ c ∈ cs, ∃ ran, c = .ok ran := by
  induction cs with
  | nil => exact fun c hc => absurd hc List.not_mem_nil
  | cons head tail ih =>
      cases head with
      | error message => contradiction
      | ok ran => exact List.forall_mem_cons.mpr ⟨⟨ran, rfl⟩, ih hnone⟩

/-- All checks pass exactly when they end without an error and all hold. -/
theorem passes_iff {cs : List (Except Bytes SignInCheck)} : (∀ c ∈ cs, Passes c) ↔
    (runChecks cs).2 = none ∧ (runChecks cs).1.all (·.ok) = true := by
  induction cs with
  | nil => simp [runChecks]
  | cons head tail ih =>
      rw [List.forall_mem_cons, ih]
      cases head with
      | error message => simp [Passes, runChecks]
      | ok c => simp [passes_ok, runChecks, and_left_comm]

@[simp]
theorem ok_check (name : String) (ok : Bool) (onFail onPass : Option Bytes) :
    (check name ok onFail onPass).ok = ok := rfl

/-- A property that is a text. -/
theorem bind_text?_eq_some {value : Option Json} {text : Bytes} :
    value.bind Json.text? = some text ↔ value = some (.str text) := by
  cases value with
  | none => simp
  | some value => cases value <;> simp [Json.text?]

theorem any_isTrue_eq_false {value : Option Json} :
    value.any Json.isTrue = false ↔ value ≠ some (.bool true) := by
  cases value with
  | none => simp
  | some value => cases value <;> simp [Json.isTrue]

/-- A submitted input that spells the expected number. -/
def SameInput (value : Json) (expected : Bytes) : Prop :=
  ∃ text n, value = .str text ∧ isHex text = true ∧ bigInt text = some n ∧ bigInt expected = some n

section Facts

variable (p : Platform) (chain : ChainClient) (options : VerifySignInOptions) (form : SignInForm)

/-- The passkey signed the statement's challenge on VeraKey's origin. -/
structure PasskeySigned (clientData : Bytes) (parsed : Json) (statement : SignInStatement)
    (challenge : B256) : Prop where
  bytes : hexToBytes form.clientDataJson = some clientData
  json : p.parseJson clientData = some parsed
  type : parsed.get? "type" = some (.str (ascii "webauthn.get"))
  signs : form.statement = some statement
  digest : signInChallenge p.keccak statement = some challenge
  challenge : parsed.get? "challenge" = some (.str (base64UrlEncode challenge.bytes))
  origin : parsed.get? "origin" = some (.str options.deployment.origin)
  notCrossOrigin : parsed.get? "crossOrigin" ≠ some (.bool true)

/-- What the site knows of a sign-in without asking the chain: it is well-formed, made for
the pinned deployment and for this site, with the issued nonce, unexpired and short-lived,
signed by the passkey, and its proof commits to it. -/
structure LocallyValid (result : Json) (inputs : List Bytes) : Prop where
  format : hasFormat result = true
  wellFormed : readForm p result = some form
  chainId : form.chainId = options.deployment.chainId
  factory : toLowerCase form.factory = toLowerCase options.deployment.factory
  site : normalizeOrigin p options.origin = .ok form.origin
  appId : ∃ appId, appIdFromOrigin p form.origin = .ok appId ∧ bigInt form.appId.text = some appId
  nonce : toLowerCase form.nonce = toLowerCase options.nonce
  unexpired : options.now < form.expiresAt + skew options
  shortLived : form.expiresAt - options.now ≤
    options.maxTtlSeconds.getD signInTtlSeconds + skew options
  passkey : ∃ clientData parsed statement challenge,
    PasskeySigned p options form clientData parsed statement challenge ∧
      signInInputs p form options clientData = .ok inputs
  publicInputs : List.Forall₂ SameInput form.publicInputs inputs

/-- The proof was verified on the recomputed inputs: on-chain unless that is skipped, with the
local prover where one is configured, and with one of them at least. -/
@[mk_iff]
structure ProofVerified (inputs : List Bytes) : Prop where
  onChain : options.skipOnChainProof = false →
    chain.verify options.deployment.honkVerifier form.proof inputs = some true
  locally : ∀ verify, options.prover = some verify → verify form.proof inputs = some true
  either : options.skipOnChainProof = true → ∃ verify, options.prover = some verify

/-- The factory derives the result's account, whose code was read; where it has some, the
passkey still owns it. -/
structure AccountOwned (address : Bytes) (code : Option Bytes) : Prop where
  derived : chain.accountAddress options.deployment.factory form.appId.text form.nullifier.text =
    some address
  account : toLowerCase address = toLowerCase form.account
  read : chain.getCode address = some code
  owner : code = none ∨ code = some [] ∨ code = some (ascii "0x") ∨
    chain.isOwner address form.nullifier.text = some true

end Facts

variable {p : Platform} {chain : ChainClient} {options : VerifySignInOptions} {form : SignInForm}

@[simp]
theorem siteOrigin_eq_some {origin : Bytes} :
    siteOrigin p options = some origin ↔ normalizeOrigin p options.origin = .ok origin := by
  rw [siteOrigin]
  cases normalizeOrigin p options.origin <;> simp [Except.toOption]

theorem passes_appIdCheck (hsite : siteOrigin p options = some form.origin) :
    Passes (appIdCheck p form options) ↔ ∃ appId,
      appIdFromOrigin p form.origin = .ok appId ∧ bigInt form.appId.text = some appId := by
  rw [appIdCheck, hsite]
  simp only []
  constructor
  · rintro ⟨passed, hcheck, hok⟩
    obtain ⟨appId, happId, hpassed⟩ := bind_eq_ok.mp hcheck
    rw [← pure_eq_ok.mp hpassed, ok_check, decide_eq_true_eq] at hok
    exact ⟨appId, happId, hok⟩
  · rintro ⟨appId, happId, htext⟩
    exact ⟨_, bind_eq_ok.mpr ⟨appId, happId, rfl⟩, decide_eq_true htext⟩

/-- Client data with a type is a JSON object. -/
theorem parseJson_of_type {clientData : Bytes} {type : Json}
    (htype : (SignInForm.clientData p clientData).get? "type" = some type) :
    p.parseJson clientData = some (SignInForm.clientData p clientData) := by
  rw [SignInForm.clientData] at htype ⊢
  cases hparse : (p.parseJson clientData).filter Json.isObject with
  | none =>
      rw [hparse] at htype
      contradiction
  | some parsed => exact (Option.filter_eq_some_iff.mp hparse).1

theorem clientData_of_parseJson {clientData : Bytes} {parsed type : Json}
    (hparse : p.parseJson clientData = some parsed) (htype : parsed.get? "type" = some type) :
    SignInForm.clientData p clientData = parsed := by
  cases parsed with
  | arr items => rw [SignInForm.clientData, hparse]; rfl
  | obj fields => rw [SignInForm.clientData, hparse]; rfl
  | _ => contradiction

theorem challengeText_eq_ok {text : Bytes} : challengeText p form = .ok text ↔
    ∃ statement challenge, form.statement = some statement ∧
      signInChallenge p.keccak statement = some challenge ∧
      text = base64UrlEncode challenge.bytes := by
  rw [challengeText]
  cases hstatement : form.statement with
  | none => simp
  | some statement =>
      cases hchallenge : signInChallenge p.keccak statement with
      | none => simp [hchallenge]
      | some challenge => simp [hchallenge, eq_comm]

theorem passes_passkeyCheck {parsed : Json} : Passes (passkeyCheck p form parsed) ↔
    parsed.get? "type" = some (.str (ascii "webauthn.get")) ∧
      ∃ statement challenge, form.statement = some statement ∧
        signInChallenge p.keccak statement = some challenge ∧
        parsed.get? "challenge" = some (.str (base64UrlEncode challenge.bytes)) := by
  rw [passkeyCheck]
  split
  case isFalse htype => simp [passes_ok, ← bind_text?_eq_some, htype]
  case isTrue htype =>
    rw [bind_text?_eq_some] at htype
    constructor
    · rintro ⟨passed, hcheck, hok⟩
      obtain ⟨text, htext, hpassed⟩ := bind_eq_ok.mp hcheck
      rw [← pure_eq_ok.mp hpassed, ok_check, decide_eq_true_eq, bind_text?_eq_some] at hok
      obtain ⟨statement, challenge, hstatement, hchallenge, rfl⟩ := challengeText_eq_ok.mp htext
      exact ⟨htype, statement, challenge, hstatement, hchallenge, hok⟩
    · rintro ⟨-, statement, challenge, hstatement, hchallenge, hsigned⟩
      have htext := challengeText_eq_ok.mpr ⟨statement, challenge, hstatement, hchallenge, rfl⟩
      exact ⟨_, bind_eq_ok.mpr ⟨_, htext, rfl⟩,
        decide_eq_true (bind_text?_eq_some.mpr hsigned)⟩

theorem passes_originCheck {parsed : Json} : Passes (originCheck p options parsed) ↔
    parsed.get? "origin" = some (.str options.deployment.origin) ∧
      parsed.get? "crossOrigin" ≠ some (.bool true) := by
  rw [originCheck, ← bind_text?_eq_some, ← any_isTrue_eq_false]
  split
  case isTrue horigin => simp [passes_ok, horigin]
  case isFalse horigin =>
    constructor
    · rintro ⟨passed, hcheck, hok⟩
      obtain ⟨signedOn, -, hpassed⟩ := bind_eq_ok.mp hcheck
      rw [← pure_eq_ok.mp hpassed] at hok
      contradiction
    · rintro ⟨hsame, -⟩
      exact absurd hsame horigin

theorem filter_isHex_eq_some {value : Json} {text : Bytes} :
    value.text?.filter isHex = some text ↔ value = .str text ∧ isHex text = true := by
  rw [Option.filter_eq_some_iff]
  cases value <;> simp [Json.text?]

/-- As many inputs compare as equal exactly when each spells its number. -/
theorem sameInputs_eq_true {values : List Json} {expected : List Bytes}
    (hlength : values.length = expected.length) :
    sameInputs values expected = .ok true ↔ List.Forall₂ SameInput values expected := by
  induction values generalizing expected with
  | nil =>
      rw [List.eq_nil_of_length_eq_zero hlength.symm]
      exact ⟨fun _ => .nil, fun _ => rfl⟩
  | cons value values ih =>
      cases expected with
      | nil => contradiction
      | cons first rest =>
          rw [List.forall₂_cons, ← ih (Nat.succ.inj hlength), sameInputs]
          cases htext : value.text?.filter isHex with
          | none =>
              refine iff_of_false nofun ?_
              rintro ⟨⟨text, n, hvalue, hhex, -⟩, -⟩
              rw [filter_isHex_eq_some.mpr ⟨hvalue, hhex⟩] at htext
              contradiction
          | some text =>
              obtain ⟨rfl, hhex⟩ := filter_isHex_eq_some.mp htext
              cases hn : bigInt text with
              | none => simp [SameInput, hn]
              | some n =>
                  by_cases hfirst : bigInt first = some n
                  · simp [SameInput, hn, hfirst, hhex]
                  · simp [SameInput, hn, hfirst, hhex]

/-- Six public inputs are recomputed. -/
theorem length_signInInputs {clientData : Bytes} {inputs : List Bytes}
    (hinputs : signInInputs p form options clientData = .ok inputs) : inputs.length = 6 := by
  rw [signInInputs] at hinputs
  split at hinputs
  case h_2 => contradiction
  case h_1 rpIdHash appId nullifier _ _ _ =>
    split at hinputs
    case h_2 => contradiction
    case h_1 expected hexpected =>
      simp only [expectedInputs, do_eq_some_iff] at hexpected
      obtain ⟨cdh, -, rp, -, hexpected⟩ := hexpected
      rw [← Except.ok.inj hinputs, ← Option.some.inj hexpected]
      rfl

theorem passes_inputsCheck {clientData : Bytes} (hlength : form.publicInputs.length = 6) :
    Passes (inputsCheck p form options clientData) ↔
      ∃ inputs, signInInputs p form options clientData = .ok inputs ∧
        List.Forall₂ SameInput form.publicInputs inputs := by
  constructor
  · rintro ⟨passed, hcheck, hok⟩
    obtain ⟨inputs, hinputs, hcheck⟩ := bind_eq_ok.mp hcheck
    obtain ⟨same, hsame, hpassed⟩ := bind_eq_ok.mp hcheck
    rw [← pure_eq_ok.mp hpassed, ok_check] at hok
    rw [hok] at hsame
    exact ⟨inputs, hinputs,
      (sameInputs_eq_true (hlength.trans (length_signInInputs hinputs).symm)).mp hsame⟩
  · rintro ⟨inputs, hinputs, hsame⟩
    have hequal := (sameInputs_eq_true hsame.length_eq).mpr hsame
    exact ⟨_, bind_eq_ok.mpr ⟨inputs, hinputs, bind_eq_ok.mpr ⟨true, hequal, rfl⟩⟩, rfl⟩

/-- A well-formed result has six public inputs, and client data in hexadecimal. -/
theorem readForm_eq_some {result : Json} (hform : readForm p result = some form) :
    form.publicInputs.length = 6 ∧ isHex form.clientDataJson = true := by
  simp only [readForm, do_eq_some_iff] at hform
  obtain ⟨statement, -, appId, -, nullifier, -, nonce, -, factory, -, origin, -, chainId, -,
    issuedAt, -, expiresAt, -, ordered, -, playerId, -, account, -, publicInputs, hinputs,
    clientDataJson, hclientData, proof, -, hform⟩ := hform
  have hlength := (Option.filter_eq_some_iff.mp hinputs).2
  have hhex := (Option.filter_eq_some_iff.mp hclientData).2
  rw [← Option.some.inj hform]
  exact ⟨of_decide_eq_true hlength, hhex⟩

/-- The checks that need no chain pass exactly for a sign-in that is locally valid. -/
theorem passes_localChecks {result : Json} {clientData : Bytes}
    (hformat : hasFormat result = true) (hform : readForm p result = some form)
    (hclientData : hexToBytes form.clientDataJson = some clientData) :
    (∀ c ∈ localChecks p form options clientData, Passes c) ↔
      ∃ inputs, LocallyValid p options form result inputs := by
  simp only [localChecks, List.forall_mem_cons, passes_ok, deploymentCheck, siteCheck, nonceCheck,
    expiryCheck, ttlCheck, ok_check, Bool.and_eq_true, decide_eq_true_eq, passes_passkeyCheck,
    passes_originCheck, passes_inputsCheck (readForm_eq_some hform).1]
  constructor
  · rintro ⟨⟨hchainId, hfactory⟩, hsite, happId, hnonce, hexpiry, httl,
      ⟨htype, statement, challenge, hstatement, hdigest, hchallenge⟩, ⟨hsigned, hcross⟩,
      ⟨inputs, hexpected, hsame⟩, -⟩
    have hpasskey : PasskeySigned p options form clientData (SignInForm.clientData p clientData)
        statement challenge := {
      bytes := hclientData
      json := parseJson_of_type htype
      type := htype
      signs := hstatement
      digest := hdigest
      challenge := hchallenge
      origin := hsigned
      notCrossOrigin := hcross }
    exact ⟨inputs, {
      format := hformat
      wellFormed := hform
      chainId := hchainId
      factory := hfactory
      site := siteOrigin_eq_some.mp hsite
      appId := (passes_appIdCheck hsite).mp happId
      nonce := hnonce
      unexpired := hexpiry
      shortLived := httl
      passkey := ⟨clientData, _, statement, challenge, hpasskey, hexpected⟩
      publicInputs := hsame }⟩
  · rintro ⟨inputs, hvalid⟩
    obtain ⟨clientData', parsed, statement, challenge, hpasskey, hexpected⟩ := hvalid.passkey
    obtain rfl : clientData' = clientData :=
      Option.some.inj (hpasskey.bytes.symm.trans hclientData)
    rw [clientData_of_parseJson hpasskey.json hpasskey.type]
    have hsite := siteOrigin_eq_some.mpr hvalid.site
    exact ⟨⟨hvalid.chainId, hvalid.factory⟩, hsite, (passes_appIdCheck hsite).mpr hvalid.appId,
      hvalid.nonce, hvalid.unexpired, hvalid.shortLived,
      ⟨hpasskey.type, statement, challenge, hpasskey.signs, hpasskey.digest, hpasskey.challenge⟩,
      ⟨hpasskey.origin, hpasskey.notCrossOrigin⟩, ⟨inputs, hexpected, hvalid.publicInputs⟩, nofun⟩

theorem ok_proofChecks {inputs : List Bytes} :
    (∀ c ∈ proofChecks chain form options inputs, c.ok = true) ↔
      ProofVerified chain options form inputs := by
  have hgetD : ∀ answer : Option Bool, answer.getD false = true ↔ answer = some true := by
    intro answer
    cases answer <;> simp
  rw [proofChecks, proofVerified_iff, List.forall_mem_append]
  cases options.skipOnChainProof with
  | false =>
      cases options.prover with
      | none => simp
      | some verify => simp [hgetD]
  | true =>
      cases options.prover with
      | none => simp
      | some verify => simp [hgetD]

theorem ok_ownerCheck {address : Bytes} : (ownerCheck chain form address).ok = true ↔
    ∃ code, chain.getCode address = some code ∧ (code = none ∨ code = some [] ∨
      code = some (ascii "0x") ∨ chain.isOwner address form.nullifier.text = some true) := by
  rw [ownerCheck]
  cases chain.getCode address with
  | none => simp
  | some code =>
      cases code with
      | none => simp
      | some code =>
          by_cases hempty : code = []
          · simp [hempty]
          · by_cases hnone : code = ascii "0x"
            · simp [hnone]
            · simp [hempty, hnone]

theorem ok_chainChecks {inputs : List Bytes} :
    (∀ c ∈ chainChecks chain form options inputs, c.ok = true) ↔
      ProofVerified chain options form inputs ∧
        ∃ address code, AccountOwned chain options form address code := by
  rw [chainChecks, List.forall_mem_append, ok_proofChecks]
  refine and_congr_right fun _ => ?_
  cases hderived : chain.accountAddress options.deployment.factory form.appId.text
      form.nullifier.text with
  | none =>
      refine iff_of_false (fun haccount => ?_) ?_
      · exact absurd (haccount _ List.mem_cons_self) Bool.false_ne_true
      · rintro ⟨address, code, howned⟩
        rw [howned.derived] at hderived
        contradiction
  | some address =>
      simp only []
      rw [List.forall_mem_cons, List.forall_mem_singleton, ok_check, decide_eq_true_eq,
        ok_ownerCheck]
      constructor
      · rintro ⟨haccount, code, hread, howner⟩
        exact ⟨address, code, hderived, haccount, hread, howner⟩
      · rintro ⟨address', code, howned⟩
        obtain rfl : address = address' :=
          Option.some.inj (hderived.symm.trans howned.derived)
        exact ⟨howned.account, code, howned.read, howned.owner⟩

/-! ## The verdict of a form -/

/-- The checks of a result whose fields are well-formed, up to those. -/
def formChecks : List SignInCheck :=
  [check "Format" true none none, check "Well-formed fields" true none none]

section Verdict

variable {clientData message : Bytes} {inputs : List Bytes}
variable (hclientData : hexToBytes form.clientDataJson = some clientData)

include hclientData

/-- The error of a check that needs no chain becomes the last check of the refusal. -/
theorem checkForm_of_error
    (herror : (runChecks (localChecks p form options clientData)).2 = some message) :
    checkForm p chain form options formChecks =
      refuse (formChecks ++ (runChecks (localChecks p form options clientData)).1 ++
        [check "Checked without errors" false (some message) none]) := by
  simp only [checkForm, hclientData, herror]

theorem checkForm_of_fails
    (hnone : (runChecks (localChecks p form options clientData)).2 = none)
    (hfails : (runChecks (localChecks p form options clientData)).1.all (·.ok) = false) :
    checkForm p chain form options formChecks =
      refuse (formChecks ++ (runChecks (localChecks p form options clientData)).1) := by
  have hall : (formChecks ++ (runChecks (localChecks p form options clientData)).1).all (·.ok) =
      false := by
    rw [List.all_append, hfails, Bool.and_false]
  simp only [checkForm, hclientData, hnone, hall]
  rfl

/-- The verdict on a form whose own checks all hold is the chain's. -/
theorem checkForm_of_holds (hinputs : signInInputs p form options clientData = .ok inputs)
    (hnone : (runChecks (localChecks p form options clientData)).2 = none)
    (hholds : (runChecks (localChecks p form options clientData)).1.all (·.ok) = true) :
    checkForm p chain form options formChecks =
      ⟨(chainChecks chain form options inputs).all (·.ok),
        formChecks ++ (runChecks (localChecks p form options clientData)).1 ++
          chainChecks chain form options inputs,
        if (chainChecks chain form options inputs).all (·.ok) then some form.nullifier.text
          else none,
        if (chainChecks chain form options inputs).all (·.ok) then some form.account
          else none⟩ := by
  have hbefore : (formChecks ++ (runChecks (localChecks p form options clientData)).1).all (·.ok) =
      true := by
    rw [List.all_append, hholds]
    rfl
  have hall : (formChecks ++ (runChecks (localChecks p form options clientData)).1 ++
      chainChecks chain form options inputs).all (·.ok) =
      (chainChecks chain form options inputs).all (·.ok) := by
    rw [List.all_append, hbefore, Bool.true_and]
  simp only [checkForm, hclientData, hnone, hinputs, Except.toOption, Option.getD_some, hbefore,
    hall]
  rfl

end Verdict

theorem signInInputs_of_runChecks {clientData : Bytes}
    (hnone : (runChecks (localChecks p form options clientData)).2 = none) :
    ∃ inputs, signInInputs p form options clientData = .ok inputs := by
  obtain ⟨ran, hran⟩ := ran_of_runChecks hnone (inputsCheck p form options clientData)
    (by simp [localChecks])
  obtain ⟨inputs, hinputs, -⟩ := bind_eq_ok.mp hran
  exact ⟨inputs, hinputs⟩

/-- A verdict on a form holds exactly when the form is locally valid, its proof verified and its
account the player's. -/
theorem valid_checkForm {result : Json} (hformat : hasFormat result = true)
    (hform : readForm p result = some form) :
    (checkForm p chain form options formChecks).valid = true ↔
      ∃ inputs address code, LocallyValid p options form result inputs ∧
        ProofVerified chain options form inputs ∧
        AccountOwned chain options form address code := by
  obtain ⟨clientData, hclientData⟩ :=
    Option.isSome_iff_exists.mp (isSome_hexToBytes (readForm_eq_some hform).2)
  have hlocal : (∀ c ∈ localChecks p form options clientData, Passes c) ↔
      ∃ inputs, LocallyValid p options form result inputs :=
    passes_localChecks hformat hform hclientData
  rw [passes_iff] at hlocal
  cases hran : (runChecks (localChecks p form options clientData)).2 with
  | some message =>
      rw [checkForm_of_error hclientData hran]
      refine iff_of_false Bool.false_ne_true ?_
      rintro ⟨inputs, address, code, hvalid, -⟩
      exact absurd (hlocal.mpr ⟨inputs, hvalid⟩).1 (by rw [hran]; exact nofun)
  | none =>
      obtain ⟨inputs, hinputs⟩ := signInInputs_of_runChecks hran
      cases hall : (runChecks (localChecks p form options clientData)).1.all (·.ok) with
      | false =>
          rw [checkForm_of_fails hclientData hran hall]
          refine iff_of_false Bool.false_ne_true ?_
          rintro ⟨inputs', address, code, hvalid, -⟩
          exact absurd (hlocal.mpr ⟨inputs', hvalid⟩).2 (by rw [hall]; exact Bool.false_ne_true)
      | true =>
          rw [checkForm_of_holds hclientData hinputs hran hall, List.all_eq_true, ok_chainChecks]
          have hunique : ∀ {inputs'}, LocallyValid p options form result inputs' →
              inputs' = inputs := by
            intro inputs' hvalid
            obtain ⟨clientData', _, _, _, hpasskey, hexpected⟩ := hvalid.passkey
            rw [Option.some.inj (hpasskey.bytes.symm.trans hclientData)] at hexpected
            exact Except.ok.inj (hexpected.symm.trans hinputs)
          constructor
          · rintro ⟨hproof, address, code, howned⟩
            obtain ⟨inputs', hvalid⟩ := hlocal.mp ⟨hran, hall⟩
            exact ⟨inputs, address, code, hunique hvalid ▸ hvalid, hproof, howned⟩
          · rintro ⟨inputs', address, code, hvalid, hproof, howned⟩
            exact ⟨hunique hvalid ▸ hproof, address, code, howned⟩

/-! ## The run -/

open Checking

variable (chain) in
/-- The run on a form, from its own checks on. -/
theorem runFrom_checkFields {clientData : Bytes}
    (hclientData : hexToBytes form.clientDataJson = some clientData)
    (hnone : (runChecks (localChecks p form options clientData)).2 = none) :
    ∃ calls, runFrom (checkFields p chain options form) ⟨formChecks, []⟩ =
        (.ok (checkForm p chain form options formChecks),
          ⟨(checkForm p chain form options formChecks).checks, calls⟩) ∧
      (calls ≠ [] →
        (runChecks (localChecks p form options clientData)).1.all (·.ok) = true) := by
  obtain ⟨inputs, hinputs⟩ := signInInputs_of_runChecks hnone
  rw [checkFields, runFrom_bind, runFrom_checkLocally _ hclientData, hnone]
  simp only [hinputs, runFrom_bind, runFrom_pushed]
  cases hall : (runChecks (localChecks p form options clientData)).1.all (·.ok) with
  | false =>
      have hbefore : (formChecks ++
          (runChecks (localChecks p form options clientData)).1).all (·.ok) = false := by
        rw [List.all_append, hall, Bool.and_false]
      rw [checkForm_of_fails hclientData hnone hall]
      simp only [hbefore]
      exact ⟨[], rfl, fun hcalled => absurd rfl hcalled⟩
  | true =>
      have hbefore : (formChecks ++
          (runChecks (localChecks p form options clientData)).1).all (·.ok) = true := by
        rw [List.all_append, hall]
        rfl
      have hpushes : Pushes (checkOnChain chain options form inputs)
          (chainChecks chain form options inputs) := pushes_checkOnChain inputs
      obtain ⟨calls, hchain⟩ := hpushes
        ⟨formChecks ++ (runChecks (localChecks p form options clientData)).1, []⟩
      rw [checkForm_of_holds hclientData hinputs hnone hall]
      simp only [hbefore, not_true_eq_false, if_false, hchain, runFrom_bind, runFrom_pushed,
        runFrom_pure]
      refine ⟨calls, ?_, fun _ => trivial⟩
      have hvalid : (formChecks ++ (runChecks (localChecks p form options clientData)).1 ++
          chainChecks chain form options inputs).all (·.ok) =
          (chainChecks chain form options inputs).all (·.ok) := by
        rw [List.all_append, hbefore, Bool.true_and]
      simp only [hvalid]
      rfl

variable (chain options) in
/-- A result whose fields are well-formed is judged by them. -/
theorem verifySignIn_of_form {result : Json} (hformat : hasFormat result = true)
    (hform : readForm p result = some form) :
    runFrom (checkSignIn p chain options result) ⟨[], []⟩ =
        runFrom (checkFields p chain options form) ⟨formChecks, []⟩ ∧
      Sdk.verifySignIn p chain options result = checkForm p chain form options formChecks := by
  rw [checkSignIn, Sdk.verifySignIn]
  simp only [hformat, hform, runFrom_bind]
  exact ⟨rfl, rfl⟩

/-- `verifySignIn` never throws.  It returns the verdict and leaves its checks; it calls the
chain only for a sign-in that is locally valid. -/
theorem run_verifySignIn (p : Platform) (chain : ChainClient) (options : VerifySignInOptions)
    (result : Json) :
    ∃ calls, runFrom (Checking.verifySignIn p chain options result) ⟨[], []⟩ =
        (.ok (Sdk.verifySignIn p chain options result),
          ⟨(Sdk.verifySignIn p chain options result).checks, calls⟩) ∧
      (calls ≠ [] → ∃ form inputs, LocallyValid p options form result inputs) := by
  rw [Checking.verifySignIn, runFrom_tryCatch]
  cases hformat : hasFormat result with
  | false =>
      rw [checkSignIn, Sdk.verifySignIn]
      simp only [hformat, runFrom_bind]
      exact ⟨[], rfl, fun hcalled => absurd rfl hcalled⟩
  | true =>
      cases hform : readForm p result with
      | none =>
          rw [checkSignIn, Sdk.verifySignIn]
          simp only [hformat, hform, runFrom_bind]
          exact ⟨[], rfl, fun hcalled => absurd rfl hcalled⟩
      | some form =>
          obtain ⟨clientData, hclientData⟩ :=
            Option.isSome_iff_exists.mp (isSome_hexToBytes (readForm_eq_some hform).2)
          obtain ⟨hrun, hverdict⟩ :=
            verifySignIn_of_form chain options hformat hform
          rw [hrun, hverdict]
          cases hran : (runChecks (localChecks p form options clientData)).2 with
          | some message =>
              rw [checkFields, runFrom_bind, runFrom_checkLocally _ hclientData, hran,
                checkForm_of_error hclientData hran]
              exact ⟨[], rfl, fun hcalled => absurd rfl hcalled⟩
          | none =>
              obtain ⟨calls, hend, hcalls⟩ := runFrom_checkFields chain hclientData hran
              rw [hend]
              refine ⟨calls, rfl, fun hcalled => ?_⟩
              obtain ⟨inputs, hvalid⟩ := (passes_localChecks hformat hform hclientData).mp
                (passes_iff.mpr ⟨hran, hcalls hcalled⟩)
              exact ⟨form, inputs, hvalid⟩

/-- A verdict holds exactly for a sign-in with everything the site relies on. -/
theorem valid_verifySignIn {result : Json} :
    (Sdk.verifySignIn p chain options result).valid = true ↔
      ∃ form inputs address code, LocallyValid p options form result inputs ∧
        ProofVerified chain options form inputs ∧
        AccountOwned chain options form address code := by
  rw [Sdk.verifySignIn]
  cases hformat : hasFormat result with
  | false =>
      refine iff_of_false Bool.false_ne_true ?_
      rintro ⟨form, inputs, address, code, hvalid, -⟩
      exact absurd hvalid.format (by rw [hformat]; exact Bool.false_ne_true)
  | true =>
      cases hform : readForm p result with
      | none =>
          refine iff_of_false Bool.false_ne_true ?_
          rintro ⟨form, inputs, address, code, hvalid, -⟩
          exact absurd (hvalid.wellFormed.symm.trans hform) (Option.some_ne_none form)
      | some form =>
          rw [if_neg (not_not.mpr rfl)]
          refine (valid_checkForm hformat hform).trans ?_
          constructor
          · rintro ⟨inputs, address, code, hfacts⟩
            exact ⟨form, inputs, address, code, hfacts⟩
          · rintro ⟨form', inputs, address, code, hfacts⟩
            obtain rfl : form = form' :=
              Option.some.inj (hform.symm.trans hfacts.1.wellFormed)
            exact ⟨inputs, address, code, hfacts⟩

/-- `verifySignIn` fails closed.  However the chain's client and the prover answer, it
returns a verdict and never throws; the verdict is valid exactly for a sign-in with
everything the site relies on; and one that is not locally valid costs no call. -/
theorem verifySignIn_fails_closed (p : Platform) (chain : ChainClient)
    (options : VerifySignInOptions) (result : Json) :
    ∃ verdict calls,
      runFrom (Checking.verifySignIn p chain options result) ⟨[], []⟩ =
        (.ok verdict, ⟨verdict.checks, calls⟩) ∧
      verdict = Sdk.verifySignIn p chain options result ∧
      (verdict.valid = true ↔ ∃ form inputs address code,
        LocallyValid p options form result inputs ∧ ProofVerified chain options form inputs ∧
          AccountOwned chain options form address code) ∧
      ((¬ ∃ form inputs, LocallyValid p options form result inputs) → calls = []) := by
  obtain ⟨calls, hrun, hcalls⟩ := run_verifySignIn p chain options result
  refine ⟨_, calls, hrun, rfl, valid_verifySignIn, fun hinvalid => ?_⟩
  by_contra hcalled
  exact hinvalid (hcalls hcalled)

end Sdk

end VeraKey
