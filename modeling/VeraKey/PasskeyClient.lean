/-
The client's passkeys: registration, and the unlock ceremony that holds a passkey to the PRF secret
it returned before.  The authenticator, the chain and the storage may answer anything.
-/
import VeraKey.History
import VeraKey.MessageHash
import VeraKey.PasskeyStore

namespace VeraKey

open ByteCodec TextCodec

namespace Client

open Sdk (PasskeyPublicKey StoredPasskey LocalPasskeyStore prfCheck publicKeyOf toStoredPasskey)

/-! ## Errors -/

/-- What the browser, a library or the SDK throws. -/
inductive JsError
  | prfUnsupported
  | unsupportedAuthenticator (reason : Bytes)
  | domException (name message : Bytes)
  | error (message : Bytes)
  | other (shown : Bytes)
  /-- An error whose text nothing here reads. -/
  | unread

def JsError.message : JsError → Bytes
  | .prfUnsupported => ascii ("This passkey provider does not support the WebAuthn PRF extension, " ++
      "which VeraKey requires to keep your accounts unlinkable.")
  | .unsupportedAuthenticator reason => reason
  | .domException _ message => message
  | .error message => message
  | .other shown => shown
  | .unread => []

inductive RejectionStage
  | funds
  | authentication
  | device
  | proof
  | policy
  | relay

structure VeraKeyError where
  stage : RejectionStage
  message : Bytes

def prfSecretChanged : Bytes :=
  ascii ("This passkey returned a different secret than it did before in this browser, so it " ++
    "would open different accounts. Unlock it the way you did before: for example through the " ++
    "password manager on this device instead of a phone's QR code, or the other way round.")

def describeWebAuthnError (error : JsError) : VeraKeyError :=
  match error with
  | .prfUnsupported | .unsupportedAuthenticator _ => ⟨.device, error.message⟩
  | .domException name _ =>
      if name = ascii "NotAllowedError" ∨ name = ascii "AbortError" then
        ⟨.authentication, ascii "Passkey confirmation was cancelled or timed out."⟩
      else ⟨.authentication, error.message⟩
  | _ => ⟨.authentication, error.message⟩

/-- Why a call ends: an error of the client, or one that passes through it. -/
inductive Failure
  | described (error : VeraKeyError)
  | thrown (error : JsError)

/-! ## The authenticator -/

/-- What `navigator.credentials.create` gives. -/
structure CreatedCredential where
  rawId : Bytes
  algorithm : ℤ
  publicKey : Option Bytes
  prfEnabled : Bool
  prfFirst : Option Bytes

/-- What `navigator.credentials.get` gives. -/
structure AssertedCredential where
  rawId : Bytes
  authenticatorData : Bytes
  clientDataJson : Bytes
  signature : Bytes
  prfFirst : Option Bytes

structure RegisteredPasskey where
  credentialId : Bytes
  publicKey : PasskeyPublicKey
  prfSecret : Option Bytes
  payment : Bool

structure PasskeyAssertion where
  credentialId : Bytes
  authenticatorData : Bytes
  clientDataJson : Bytes
  signature : Bytes
  prfSecret : Option Bytes

/-- The affine coordinates in a SubjectPublicKeyInfo. -/
def publicKeyFromSpki (spki : Bytes) : Except JsError PasskeyPublicKey :=
  let point := spki.drop (spki.length - 65)
  if spki.length ≠ 91 ∨ point.head? ≠ some 4 then
    .error (.unsupportedAuthenticator
      (ascii "Only uncompressed P-256 (ES256) passkeys are supported."))
  else .ok ⟨(point.drop 1).take 32, (point.drop 33).take 32⟩

def createPasskey (payment : Bool) (answer : Except JsError (Option CreatedCredential)) :
    Except JsError RegisteredPasskey := do
  let some credential ← answer | throw (.error (ascii "Passkey creation was cancelled."))
  if credential.algorithm ≠ -7 then
    throw (.unsupportedAuthenticator
      (ascii "The passkey provider did not create an ES256 key."))
  let some spki := credential.publicKey
    | throw (.unsupportedAuthenticator
        (ascii "The browser did not expose the passkey public key."))
  if credential.prfEnabled = false ∧ credential.prfFirst = none then throw .prfUnsupported
  return ⟨credential.rawId, ← publicKeyFromSpki spki, credential.prfFirst, payment⟩

/-- The hash and the curve of the libraries. -/
structure Libraries where
  proofs : Sdk.ProofLibraries
  sha256 : Bytes → B256
  /-- A DER signature as r and s, with s in the lower half. -/
  derToLowS : Bytes → Except JsError Bytes
  /-- Whether r and s are read as a signature. -/
  fromCompact : Bytes → Except JsError Unit
  /-- The uncompressed point a recovery bit gives, if any. -/
  recoverPublicKey : (signature : Bytes) → (bit : ℕ) → (digest : Bytes) → Option Bytes

variable (libraries : Libraries)

def getAssertion (withPrf : Bool) (answer : Except JsError (Option AssertedCredential)) :
    Except JsError PasskeyAssertion := do
  let some credential ← answer | throw (.error (ascii "Passkey authentication was cancelled."))
  if withPrf = true ∧ credential.prfFirst = none then throw .prfUnsupported
  return {
    credentialId := credential.rawId
    authenticatorData := credential.authenticatorData
    clientDataJson := credential.clientDataJson
    signature := ← libraries.derToLowS credential.signature
    prfSecret := credential.prfFirst }

/-! ## Recovering a public key -/

/-- The public keys that could have produced a signature. -/
def recoverPublicKeys (digest signature : Bytes) : Except JsError (List PasskeyPublicKey) := do
  libraries.fromCompact signature
  return [0, 1].filterMap fun bit =>
    (libraries.recoverPublicKey signature bit digest).map fun raw =>
      ⟨(raw.drop 1).take 32, (raw.drop 33).take 32⟩

/-- What the ceremony is answered, one call long. -/
structure CeremonyAnswers where
  assertion : Except JsError (Option AssertedCredential)
  /-- Whether the prover loads. -/
  prover : Except JsError Unit
  predictAddress : (appId nullifier : ℕ) → Except JsError Address
  getCode : Address → Except JsError (Option Bytes)
  second : Except JsError (Option AssertedCredential)
  now : ℤ
  /-- Whether `setItem` has room. -/
  setItem : Except JsError Unit

/-- Whether a candidate owns an account of one of the apps. -/
def ownsAccount (answers : CeremonyAnswers) (prfSecret : Bytes) (candidate : PasskeyPublicKey) :
    List ℕ → Except JsError Bool
  | [] => return false
  | appId :: appIds => do
      let some nullifier :=
        Sdk.computeNullifier libraries.proofs candidate prfSecret appId
        | throw .unread
      let address ← answers.predictAddress appId nullifier
      let code ← answers.getCode address
      if code.any fun code => code ≠ [] ∧ code ≠ ascii "0x" then return true
      ownsAccount answers prfSecret candidate appIds

/-- The first candidate that owns an account. -/
def owningCandidate (appIds : List ℕ) (answers : CeremonyAnswers) (prfSecret : Bytes) :
    List PasskeyPublicKey → Except JsError (Option PasskeyPublicKey)
  | [] => return none
  | candidate :: candidates => do
      if ← ownsAccount libraries answers prfSecret candidate appIds then return some candidate
      owningCandidate appIds answers prfSecret candidates

def assertionDigest (assertion : PasskeyAssertion) : Bytes :=
  (Circuit.webauthnDigest libraries.sha256 assertion.authenticatorData
    assertion.clientDataJson).bytes

def recoverPublicKey (appIds : List ℕ) (answers : CeremonyAnswers)
    (digest signature prfSecret : Bytes) : Except Failure PasskeyPublicKey := do
  let candidates ← (recoverPublicKeys libraries digest signature).mapError .thrown
  if let [candidate] := candidates then return candidate
  answers.prover.mapError .thrown
  let owning ← (owningCandidate libraries appIds answers prfSecret candidates).mapError .thrown
  if let some candidate := owning then return candidate
  let second ← (getAssertion libraries false answers.second).mapError .thrown
  let again ← (recoverPublicKeys libraries (assertionDigest libraries second)
    second.signature).mapError .thrown
  let some candidate := candidates.find? fun c => again.any fun a =>
      Sdk.bytesToHex a.x = Sdk.bytesToHex c.x ∧ Sdk.bytesToHex a.y = Sdk.bytesToHex c.y
    | throw (.described ⟨.device, ascii "Could not recover this passkey's public key."⟩)
  return candidate

/-! ## Sessions -/

/-- An unlocked passkey. -/
structure Session where
  passkey : StoredPasskey
  publicKey : PasskeyPublicKey
  prfSecret : Bytes

/-- What the clients of one browser share, and the session that is active in each. -/
structure Browser where
  store : LocalPasskeyStore
  currentSession : ℕ → Option Session

def Browser.startSession (browser : Browser) (client : ℕ) (session : Session) : Browser :=
  { browser with currentSession := Function.update browser.currentSession client (some session) }

/-- What a registration is answered. -/
structure RegisterAnswers where
  created : Except JsError (Option CreatedCredential)
  now : ℤ
  /-- Whether `setItem` has room. -/
  setItem : Except JsError Unit

def registeredPasskey (created : RegisteredPasskey) (label : Bytes) (now : ℤ) : StoredPasskey :=
  { toStoredPasskey created.credentialId created.publicKey label now created.payment with
    prfCheck := created.prfSecret.map (prfCheck libraries.sha256) }

def register (browser : Browser) (client : ℕ) (label : Bytes) (activate payment : Bool)
    (answers : RegisterAnswers) :
    Except Failure (StoredPasskey × Option Session) × Browser :=
  match createPasskey payment answers.created with
  | .error error => (.error (.described (describeWebAuthnError error)), browser)
  | .ok created =>
      let passkey := registeredPasskey libraries created label answers.now
      match answers.setItem with
      | .error error => (.error (.thrown error), browser)
      | .ok () =>
          let browser := { browser with store := browser.store.save passkey }
          match created.prfSecret with
          | none => (.ok (passkey, none), browser)
          | some prfSecret =>
              let session : Session := ⟨passkey, created.publicKey, prfSecret⟩
              (.ok (passkey, some session),
                if activate then browser.startSession client session else browser)

/-- The assertion that evaluates PRF. -/
def unlockAssertion (passkey : Option StoredPasskey) (answers : CeremonyAnswers) :
    Except JsError PasskeyAssertion := do
  if let some passkey := passkey then
    -- `atob` throws on a text that is not base64
    if (Sdk.credentialIdBytes passkey).isNone then
      throw (.domException (ascii "InvalidCharacterError") [])
  getAssertion libraries true answers.assertion

/-- The record a secret is held to, and whether it has to be saved. -/
def heldRecord (appIds : List ℕ) (store : LocalPasskeyStore) (answers : CeremonyAnswers)
    (assertion : PasskeyAssertion) (prfSecret : Bytes) : Except Failure (StoredPasskey × Bool) :=
  let check := prfCheck libraries.sha256 prfSecret
  match store.get assertion.credentialId with
  | none => do
      let publicKey ← recoverPublicKey libraries appIds answers
        (assertionDigest libraries assertion) assertion.signature prfSecret
      return ({ toStoredPasskey assertion.credentialId publicKey
        (ascii "Passkey on this device") answers.now false with prfCheck := some check }, true)
  | some stored =>
      match stored.prfCheck with
      | none => .ok ({ stored with prfCheck := some check }, true)
      | some known =>
          if known = check then .ok (stored, false)
          else .error (.described ⟨.device, prfSecretChanged⟩)

/-- The ceremony without a change of the active session. -/
def authenticate (appIds : List ℕ) (browser : Browser) (passkey : Option StoredPasskey)
    (answers : CeremonyAnswers) : Except Failure Session × Browser :=
  match unlockAssertion libraries passkey answers with
  | .error error => (.error (.described (describeWebAuthnError error)), browser)
  | .ok assertion =>
      -- `getAssertion` has refused an answer without a secret
      let prfSecret := assertion.prfSecret.getD []
      match heldRecord libraries appIds browser.store answers assertion prfSecret with
      | .error failure => (.error failure, browser)
      | .ok (stored, saves) =>
          match if saves then answers.setItem else .ok () with
          | .error error => (.error (.thrown error), browser)
          | .ok () =>
              let browser :=
                if saves then { browser with store := browser.store.save stored } else browser
              match publicKeyOf stored with
              | none => (.error (.thrown .unread), browser)
              | some publicKey => (.ok ⟨stored, publicKey, prfSecret⟩, browser)

def unlock (appIds : List ℕ) (browser : Browser) (client : ℕ) (passkey : Option StoredPasskey)
    (answers : CeremonyAnswers) : Except Failure Session × Browser :=
  match authenticate libraries appIds browser passkey answers with
  | (.error failure, browser) => (.error failure, browser)
  | (.ok session, browser) => (.ok session, browser.startSession client session)

/-! ## Calls -/

/-- A call of one of the clients, with all it is answered. -/
inductive Call
  | register (client : ℕ) (label : Bytes) (activate payment : Bool) (answers : RegisterAnswers)
  | authenticate (passkey : Option StoredPasskey) (answers : CeremonyAnswers)
  | unlock (client : ℕ) (passkey : Option StoredPasskey) (answers : CeremonyAnswers)

/-- What a call returns. -/
inductive Returned
  | registered (passkey : StoredPasskey) (session : Option Session)
  | opened (session : Session)

def Returned.session : Returned → Option Session
  | .registered _ session => session
  | .opened session => some session

def Browser.next (appIds : List ℕ) (browser : Browser) :
    Call → Except Failure Returned × Browser
  | .register client label activate payment answers =>
      let (result, browser) := register libraries browser client label activate payment answers
      (result.map fun made => .registered made.1 made.2, browser)
  | .authenticate passkey answers =>
      let (result, browser) := authenticate libraries appIds browser passkey answers
      (result.map .opened, browser)
  | .unlock client passkey answers =>
      let (result, browser) := unlock libraries appIds browser client passkey answers
      (result.map .opened, browser)

end Client

end VeraKey
