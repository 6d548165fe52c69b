/-
The sign-in check a site's server runs on what a player's browser sends: every check
in order, with its texts, and the verdict.
-/
import VeraKey.Json
import VeraKey.PublicInputs
import VeraKey.SdkText
import VeraKey.Statements

namespace VeraKey

open ByteCodec TextCodec

namespace Sdk

/-! ## What the check is given -/

/-- What the SDK takes from the platform it runs on. -/
structure Platform where
  keccak : Bytes → B256
  sha256 : Bytes → B256
  /-- `JSON.parse` of the decoded bytes; nothing when it throws. -/
  parseJson : Bytes → Option Json
  /-- `new URL(url).origin`, or the message of what it throws. -/
  urlOrigin : Bytes → Except Bytes Bytes
  /-- `toISOString` of a time in seconds. -/
  isoDate : ℤ → Bytes
  /-- `String` of a number. -/
  numberText : Option ℚ → Bytes
  /-- The message of an error inside the hex and ABI helpers. -/
  encodingError : Bytes

/-- The answers of the chain's client during one check; nothing when a call rejects. -/
structure ChainClient where
  verify : (honkVerifier proof : Bytes) → (publicInputs : List Bytes) → Option Bool
  accountAddress : (factory appId nullifier : Bytes) → Option Bytes
  /-- The code may be undefined. -/
  getCode : (address : Bytes) → Option (Option Bytes)
  isOwner : (account nullifier : Bytes) → Option Bool

structure SignInDeployment where
  chainId : ℤ
  factory : Bytes
  rpIdHash : Bytes
  origin : Bytes
  honkVerifier : Bytes
deriving DecidableEq

structure VerifySignInOptions where
  origin : Bytes
  nonce : Bytes
  deployment : SignInDeployment
  /-- The local prover's answers, if one is configured. -/
  prover : Option ((proof : Bytes) → (publicInputs : List Bytes) → Option Bool)
  skipOnChainProof : Bool
  /-- Seconds, given or from the clock. -/
  now : ℤ
  maxTtlSeconds : Option ℤ
  clockSkewSeconds : Option ℤ

structure SignInCheck where
  name : Bytes
  ok : Bool
  detail : Option Bytes
deriving DecidableEq

structure SignInVerdict where
  valid : Bool
  checks : List SignInCheck
  playerId : Option Bytes
  account : Option Bytes
deriving DecidableEq

def signInTtlSeconds : ℤ := 300

/-! ## Well-formed fields -/

/-- A text that `isField` accepts. -/
structure FieldText where
  text : Bytes
  isField_text : isField text = true
deriving DecidableEq

def fieldText? (value : Option Json) : Option FieldText := do
  let text ← value.bind Json.text?
  if h : isField text = true then some ⟨text, h⟩ else none

/-- A text that passes a check. -/
def checkedText? (passes : Bytes → Bool) (value : Option Json) : Option Bytes :=
  (value.bind Json.text?).filter passes

/-- Seconds since 1970, before 2106. -/
def timestamp? (value : Option Json) : Option ℤ :=
  (value.bind Json.safeInteger?).filter fun seconds => 0 ≤ seconds ∧ seconds < 2 ^ 32

/-- The fields of a result that the check reads, all well-formed. -/
structure SignInForm where
  chainId : ℤ
  factory : Bytes
  origin : Bytes
  appId : FieldText
  nullifier : FieldText
  nonce : Bytes
  issuedAt : ℤ
  expiresAt : ℤ
  account : Bytes
  clientDataJson : Bytes
  proof : Bytes
  publicInputs : List Json

/-- `wellFormed`: the form of a result, if all its fields are. -/
def readForm (p : Platform) (result : Json) : Option SignInForm := do
  let s ← result.get? "statement"
  let appId ← fieldText? (s.get? "appId")
  let nullifier ← fieldText? (s.get? "nullifier")
  let nonce ← checkedText? isBytes32 (s.get? "nonce")
  let factory ← checkedText? (isAddress p.keccak) (s.get? "factory")
  let origin ← (s.get? "origin").bind Json.text?
  let chainId ← ((s.get? "chainId").bind Json.safeInteger?).filter (0 < ·)
  let issuedAt ← timestamp? (s.get? "issuedAt")
  let expiresAt ← timestamp? (s.get? "expiresAt")
  guard (issuedAt ≤ expiresAt)
  let _ ← checkedText? (· = nullifier.text) (result.get? "playerId")
  let account ← checkedText? (isAddress p.keccak) (result.get? "account")
  let publicInputs ← ((result.get? "publicInputs").bind Json.items?).filter (·.length = 6)
  let clientDataJson ← checkedText? isHex (result.get? "clientDataJSON")
  let proof ← checkedText? isHex (result.get? "proof")
  return {
    chainId := chainId, factory := factory, origin := origin, appId := appId
    nullifier := nullifier, nonce := nonce, issuedAt := issuedAt, expiresAt := expiresAt
    account := account, clientDataJson := clientDataJson, proof := proof
    publicInputs := publicInputs }

/-- A version 1 result with a statement. -/
def hasFormat (result : Json) : Bool :=
  (result.get? "version").any (fun version => version.safeInteger? = some 1) &&
    (result.get? "statement").any Json.isObject

/-- The statement whose challenge the passkey signs. -/
def SignInForm.statement (form : SignInForm) : Option SignInStatement := do
  return {
    chainId := form.chainId
    factory := ← addressOf form.factory
    origin := utf8 form.origin
    appId := ← hexToBytes form.appId.text
    nullifier := ← hexToBytes form.nullifier.text
    nonce := ← hexToBytes form.nonce
    issuedAt := form.issuedAt
    expiresAt := form.expiresAt }

/-! ## Origins -/

/-- The serialized origin of a URL; an opaque one is refused. -/
def normalizeOrigin (p : Platform) (url : Bytes) : Except Bytes Bytes := do
  let origin ← p.urlOrigin url
  if origin = ascii "null" then throw (ascii "Not a web origin: " ++ url)
  return origin

/-- A site's app id. -/
def appIdFromOrigin (p : Platform) (origin : Bytes) : Except Bytes ℕ := do
  let normalized ← normalizeOrigin p origin
  return (p.keccak (utf8 (ascii "verakey.origin:" ++ normalized))).toNat % bn254R

/-- `/^https?:\\/\\/(localhost|127\\.0\\.0\\.1)(:|$)/`. -/
def isLocal (url : Bytes) : Bool :=
  [ascii "http://localhost", ascii "http://127.0.0.1", ascii "https://localhost",
    ascii "https://127.0.0.1"].any fun start =>
      url.take start.length = start && (url.drop start.length).head?.all (· = 0x3a)

/-! ## The checks -/

/-- A failure is explained by `onFail`, a success by `onPass`. -/
def check (name : String) (ok : Bool) (onFail onPass : Option Bytes) : SignInCheck :=
  ⟨ascii name, ok, if ok then onPass else onFail⟩

def intText (n : ℤ) : Bytes := ascii (toString n)

variable (p : Platform) (chain : ChainClient) (form : SignInForm) (options : VerifySignInOptions)

/-- The site's own origin; nothing when it is not a web origin. -/
def siteOrigin : Option Bytes := (normalizeOrigin p options.origin).toOption

def deploymentCheck : SignInCheck :=
  let deployment := options.deployment
  check "This deployment"
    (form.chainId = deployment.chainId && toLowerCase form.factory = toLowerCase deployment.factory)
    (some (ascii "made for chain " ++ intText form.chainId ++ ascii " and factory " ++
      form.factory ++ ascii "; you pinned chain " ++ intText deployment.chainId ++
      ascii " and factory " ++ deployment.factory))
    none

def siteCheck : SignInCheck :=
  check "Made for this site" (siteOrigin p options = some form.origin)
    (match siteOrigin p options with
    | none =>
        some (ascii "the origin you verify as (" ++ options.origin ++ ascii ") is not a web origin")
    | some origin =>
        some (ascii "made for " ++ form.origin ++ ascii ", but this site verifies as " ++ origin ++
          ascii ": the page's origin must match exactly" ++
          if isLocal form.origin && isLocal origin then
            ascii " (localhost and 127.0.0.1 are different sites)" else []))
    none

def appIdCheck : Except Bytes SignInCheck :=
  match siteOrigin p options with
  | none =>
      .ok (check "App id of this site" false
        (some (ascii "the origin you verify as has no app id")) none)
  | some origin => do
      let appId ← appIdFromOrigin p origin
      return check "App id of this site" (bigInt form.appId.text = some appId)
        (some (ascii "the app id belongs to another origin")) none

def nonceCheck : SignInCheck :=
  check "Carries the nonce you issued" (toLowerCase form.nonce = toLowerCase options.nonce)
    (some (ascii "not the nonce passed to verifySignIn")) none

def skew : ℤ := options.clockSkewSeconds.getD 60

def expiryCheck : SignInCheck :=
  check "Not expired" (form.expiresAt + skew options > options.now)
    (some (ascii "expired at " ++ p.isoDate form.expiresAt ++ ascii "; check the device clock"))
    none

def ttlCheck : SignInCheck :=
  let maxTtl := options.maxTtlSeconds.getD signInTtlSeconds
  check "Short-lived" (form.expiresAt - options.now ≤ maxTtl + skew options)
    (some (ascii "valid until " ++ p.isoDate form.expiresAt ++ ascii ", longer than the " ++
      intText maxTtl ++ ascii " s allowed; check the device clock"))
    none

/-- The client data as an object; one without properties when it is no JSON object. -/
def SignInForm.clientData (clientDataJson : Bytes) : Json :=
  ((p.parseJson clientDataJson).filter Json.isObject).getD (.obj [])

/-- The text of `signInChallenge` in the client data. -/
def challengeText : Except Bytes Bytes :=
  match form.statement.bind (signInChallenge p.keccak) with
  | some challenge => .ok (base64UrlEncode challenge.bytes)
  | none => .error p.encodingError

def passkeyCheck (parsed : Json) : Except Bytes SignInCheck :=
  let onFail := some (ascii "the passkey did not sign this statement")
  if (parsed.get? "type").bind Json.text? = some (ascii "webauthn.get") then do
    let challenge ← challengeText p form
    return check "Passkey signed this sign-in"
      ((parsed.get? "challenge").bind Json.text? = some challenge) onFail none
  else .ok (check "Passkey signed this sign-in" false onFail none)

mutual

/-- `String(value)`, which throws for an object with a `toString` of its own. -/
def shown : Json → Except Bytes Bytes
  | .null => .ok (ascii "null")
  | .bool value => .ok (ascii (toString value))
  | .num value => .ok (p.numberText value)
  | .str text => .ok text
  | .arr items => shownItems items
  | .obj fields =>
      if (fields.lookup (ascii "toString")).isSome then
        .error (ascii "Cannot convert object to primitive value")
      else .ok (ascii "[object Object]")

/-- The items of an array, joined by commas; null is empty. -/
def shownItems : List Json → Except Bytes Bytes
  | [] | [.null] => .ok []
  | [item] => shown item
  | .null :: rest => do return ascii "," ++ (← shownItems rest)
  | item :: rest => do return (← shown item) ++ ascii "," ++ (← shownItems rest)

end

def originCheck (parsed : Json) : Except Bytes SignInCheck :=
  let origin := options.deployment.origin
  let crossOrigin : Bool := (parsed.get? "crossOrigin").any Json.isTrue
  if (parsed.get? "origin").bind Json.text? = some origin then
    .ok (check "Signed on VeraKey" (!crossOrigin)
      (some (ascii "signed on " ++ origin ++ ascii ", but inside a cross-origin frame")) none)
  else do
    let signedOn ← ((parsed.get? "origin").map (shown p)).getD (.ok (ascii "undefined"))
    return check "Signed on VeraKey" false
      (some (ascii "signed on " ++ signedOn ++ ascii ", not on " ++ origin)) none

/-- The public inputs of this sign-in. -/
def signInInputs (clientData : Bytes) : Except Bytes (List Bytes) :=
  match hexToBytes options.deployment.rpIdHash, bigInt form.appId.text,
      bigInt form.nullifier.text with
  | some rpIdHash, some appId, some nullifier =>
      match expectedInputs p.sha256 clientData rpIdHash appId nullifier with
      | some expected => .ok expected
      | none => .error (ascii "expected 32 bytes")
  | _, _, _ => .error p.encodingError

/-- Every submitted input has the expected value; `0x` alone is no number. -/
def sameInputs : List Json → List Bytes → Except Bytes Bool
  | value :: values, expected :: rest =>
      match value.text?.filter isHex with
      | none => .ok false
      | some text =>
          match bigInt text with
          | none => .error (ascii "Cannot convert 0x to a BigInt")
          | some n => if bigInt expected = some n then sameInputs values rest else .ok false
  | _, _ => .ok true

def inputsCheck (clientData : Bytes) : Except Bytes SignInCheck := do
  let expected ← signInInputs p form options clientData
  let ok ← sameInputs form.publicInputs expected
  return check "Proof commits to this sign-in" ok
    (some (ascii "the proof's public inputs are not this sign-in's")) none

/-- The checks that need no chain, in order; an error ends them. -/
def localChecks (clientData : Bytes) : List (Except Bytes SignInCheck) :=
  let parsed := SignInForm.clientData p clientData
  [.ok (deploymentCheck form options), .ok (siteCheck p form options),
    appIdCheck p form options, .ok (nonceCheck form options),
    .ok (expiryCheck p form options), .ok (ttlCheck p form options),
    passkeyCheck p form parsed, originCheck p options parsed,
    inputsCheck p form options clientData]

/-- The checks up to the first error. -/
def runChecks : List (Except Bytes SignInCheck) → List SignInCheck × Option Bytes
  | [] => ([], none)
  | .error message :: _ => ([], some message)
  | .ok c :: rest =>
      let (checks, error) := runChecks rest
      (c :: checks, error)

/-- The checks of the proof: on-chain, with the local prover, or neither. -/
def proofChecks (expected : List Bytes) : List SignInCheck :=
  let deployment := options.deployment
  let onChain := chain.verify deployment.honkVerifier form.proof expected = some true
  let locally := options.prover.map fun verify => (verify form.proof expected).getD false
  (if options.skipOnChainProof then []
    else [check "Proof verifies on-chain (HonkVerifier, eth_call)" onChain
      (some (ascii "the verifier rejected the proof, or the call failed")) none]) ++
  (match locally with
    | some ok =>
        [check "Proof verifies locally (bb.js)" ok (some (ascii "bb.js rejected the proof")) none]
    | none =>
        if options.skipOnChainProof then
          [check "Proof verified" false (some (ascii "no verifier configured")) none] else [])

/-- The check that the player still owns the account at `address`. -/
def ownerCheck (address : Bytes) : SignInCheck :=
  match chain.getCode address with
  | none =>
      check "Player still owns the account" false
        (some (ascii "the account's code could not be read")) none
  | some code =>
      if code.any fun code => code ≠ [] ∧ code ≠ ascii "0x" then
        let owner := chain.isOwner address form.nullifier.text
        check "Player still owns the account" (owner = some true)
          (some (if owner = none then ascii "the account's owners could not be read"
            else ascii "this passkey no longer owns the account")) none
      else check "Player still owns the account" true none
        (some (ascii "not deployed yet: it is created for this player on first use"))

/-- The checks that ask the chain. -/
def chainChecks (expected : List Bytes) : List SignInCheck :=
  let account := chain.accountAddress options.deployment.factory form.appId.text form.nullifier.text
  proofChecks chain form options expected ++
  (match account with
    | none =>
        [check "Account of this player" false (some (ascii "the factory could not be read")) none,
          check "Player still owns the account" false
            (some (ascii "the account address could not be read")) none]
    | some address =>
        [check "Account of this player" (toLowerCase address = toLowerCase form.account)
          (some (ascii "the factory derives " ++ address ++ ascii " for this player"))
          (some address), ownerCheck chain form address])

/-! ## The verdict -/

def refuse (checks : List SignInCheck) : SignInVerdict := ⟨false, checks, none, none⟩

/-- `checkSignIn` on a well-formed result, after the checks `before`. -/
def checkForm (before : List SignInCheck) : SignInVerdict :=
  match hexToBytes form.clientDataJson with
  | none => refuse (before ++ [check "Checked without errors" false (some p.encodingError) none])
  | some clientData =>
      let (checks, error) := runChecks (localChecks p form options clientData)
      let checks := before ++ checks
      match error with
      | some message =>
          refuse (checks ++ [check "Checked without errors" false (some message) none])
      | none =>
          -- the proof's call costs too much to be asked for a sign-in that failed before it
          if ¬ checks.all (·.ok) then refuse checks
          else
            let expected := (signInInputs p form options clientData).toOption.getD []
            let checks := checks ++ chainChecks chain form options expected
            let valid := checks.all (·.ok)
            ⟨valid, checks, if valid then some form.nullifier.text else none,
              if valid then some form.account else none⟩

/-- `verifySignIn`: crafted input is a refusal, never a crash. -/
def verifySignIn (result : Json) : SignInVerdict :=
  if ¬ hasFormat result then
    refuse [check "Format" false (some (ascii "not a VeraKey sign-in (v1)")) none]
  else
    match readForm p result with
    | none =>
        refuse [check "Format" true none none, check "Well-formed fields" false none none]
    | some form =>
        checkForm p chain form options
          [check "Format" true none none, check "Well-formed fields" true none none]

/-! ## What the check returns -/

/-- The text of the statement's nullifier in a result. -/
def nullifierText (result : Json) : Option Bytes :=
  ((result.get? "statement").bind (Json.get? "nullifier")).bind Json.text?

/-- What the next step of a `do` block was given. -/
theorem do_eq_some_iff {α β : Type} {x : Option α} {f : α → Option β} {b : β} :
    (do f (← x)) = some b ↔ ∃ a, x = some a ∧ f a = some b :=
  Option.bind_eq_some_iff

theorem fieldText?_eq_some {value : Option Json} {field : FieldText}
    (hfield : fieldText? value = some field) : value.bind Json.text? = some field.text := by
  simp only [fieldText?, do_eq_some_iff] at hfield
  obtain ⟨text, htext, hfield⟩ := hfield
  split at hfield
  · rw [htext, ← Option.some.inj hfield]
  · contradiction

/-- The form carries the nullifier as the result spells it. -/
theorem nullifierText_of_readForm {p : Platform} {result : Json} {form : SignInForm}
    (hform : readForm p result = some form) :
    nullifierText result = some form.nullifier.text := by
  simp only [readForm, do_eq_some_iff] at hform
  obtain ⟨statement, hstatement, appId, -, nullifier, hnullifier, nonce, -, factory, -, origin, -,
    chainId, -, issuedAt, -, expiresAt, -, ordered, -, playerId, -, account, -, publicInputs, -,
    clientDataJson, -, proof, -, hform⟩ := hform
  rw [nullifierText, hstatement, ← Option.some.inj hform]
  exact fieldText?_eq_some hnullifier

/-- A well-formed result is refused, or accepted under its nullifier's text. -/
theorem checkForm_cases (p : Platform) (chain : ChainClient) (form : SignInForm)
    (options : VerifySignInOptions) (before : List SignInCheck) :
    (∃ checks, checkForm p chain form options before = refuse checks) ∨
      ∃ checks, checkForm p chain form options before =
        ⟨true, checks, some form.nullifier.text, some form.account⟩ := by
  simp only [checkForm]
  split
  · exact Or.inl ⟨_, rfl⟩
  · split
    · exact Or.inl ⟨_, rfl⟩
    · split
      · exact Or.inl ⟨_, rfl⟩
      · generalize hvalid : List.all _ _ = valid
        cases valid with
        | false => exact Or.inl ⟨_, rfl⟩
        | true => exact Or.inr ⟨_, rfl⟩

/-- The check refuses a result, or accepts it under the text of its nullifier. -/
theorem verifySignIn_cases (p : Platform) (chain : ChainClient) (options : VerifySignInOptions)
    (result : Json) :
    (∃ checks, verifySignIn p chain options result = refuse checks) ∨
      ∃ form checks, readForm p result = some form ∧ verifySignIn p chain options result =
        ⟨true, checks, some form.nullifier.text, some form.account⟩ := by
  rw [verifySignIn]
  split
  · exact Or.inl ⟨_, rfl⟩
  · cases readForm p result with
    | none => exact Or.inl ⟨_, rfl⟩
    | some form =>
        rcases checkForm_cases p chain form options _ with hrefused | ⟨checks, haccepted⟩
        · exact Or.inl hrefused
        · exact Or.inr ⟨form, checks, rfl, haccepted⟩

/-- An accepted result's player id is the text of its nullifier, a field element. -/
theorem playerId_verifySignIn {p : Platform} {chain : ChainClient} {options : VerifySignInOptions}
    {result : Json} (hvalid : (verifySignIn p chain options result).valid = true) :
    ∃ id, (verifySignIn p chain options result).playerId = some id ∧ isField id = true ∧
      nullifierText result = some id := by
  rcases verifySignIn_cases p chain options result with
    ⟨checks, hrefused⟩ | ⟨form, checks, hform, haccepted⟩
  · rw [hrefused] at hvalid
    contradiction
  · rw [haccepted]
    exact ⟨form.nullifier.text, rfl, form.nullifier.isField_text, nullifierText_of_readForm hform⟩

theorem playerId_eq_nullifierText {p : Platform} {chain : ChainClient}
    {options : VerifySignInOptions} {result : Json}
    (hvalid : (verifySignIn p chain options result).valid = true) :
    (verifySignIn p chain options result).playerId = nullifierText result := by
  obtain ⟨id, hid, -, htext⟩ := playerId_verifySignIn hvalid
  rw [hid, htext]

end Sdk

end VeraKey
