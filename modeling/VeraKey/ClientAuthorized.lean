/-
From the prompt to the account: what the client relays is a request that the relayer takes and a
call that the account finds authorized, as long as the chain is as the client read it.
-/
import VeraKey.Approval
import VeraKey.ClientSafety
import VeraKey.RelayWire
import VeraKey.SdkBase64

namespace VeraKey

open ByteCodec Guard

namespace Client

open ClientData (EndsOrigin IsRpId spcPrefix typeAndChallengeKey originKey quote)
open Sdk (hashAction base64UrlEncode)

/-! ## The signed action is the account's -/

theorem of_words_cons {type : Abi.StaticType} {types : List Abi.StaticType} {value : Abi.Value}
    {values : List Abi.Value} {texts : List Bytes}
    (hwords : Abi.words (type :: types) (value :: values) = some texts) :
    (∃ text, Abi.word type value = some text) ∧ ∃ others, Abi.words types values = some others := by
  obtain ⟨_, _, first, others, hvalues, -, hfirst, hothers⟩ := Abi.words_cons_eq_some.mp hwords
  obtain ⟨rfl, rfl⟩ := List.cons.inj hvalues
  exact ⟨⟨first, hfirst⟩, others, hothers⟩

theorem inRange_of_word {bits : ℕ} {i : ℤ}
    (hword : ∃ text, Abi.word (.uint bits) (.int i) = some text) : 0 ≤ i ∧ i < 2 ^ bits := by
  obtain ⟨text, htext⟩ := hword
  obtain ⟨n, hn, hi, -⟩ := Abi.word_uint.mp htext
  rw [Abi.Value.int.inj hi]
  exact natCast_inRange hn

theorem length_of_word {data : Bytes}
    (hword : ∃ text, Abi.word .bytes32 (.bytes data) = some text) : data.length = 32 := by
  obtain ⟨text, htext⟩ := hword
  obtain ⟨hlength, hdata⟩ := Abi.word_bytes32.mp htext
  rw [Abi.Value.bytes.inj hdata]
  exact hlength

/-- Only an action in range is hashed. -/
theorem inRange_of_hashAction {keccak : Bytes → B256} {action : Sdk.Action} {hash : B256}
    (hhash : hashAction keccak action = some hash) (hchain : action.chainId < 2 ^ 64) :
    action.InRange := by
  obtain ⟨encoded, hencoded, -⟩ := Option.map_eq_some_iff.mp hhash
  obtain ⟨texts, hwords, -⟩ := Abi.encode_eq_some.mp hencoded
  obtain ⟨-, _, hwords⟩ := of_words_cons hwords
  obtain ⟨hchainId, _, hwords⟩ := of_words_cons hwords
  obtain ⟨-, _, hwords⟩ := of_words_cons hwords
  obtain ⟨hnonce, _, hwords⟩ := of_words_cons hwords
  obtain ⟨hkind, _, hwords⟩ := of_words_cons hwords
  obtain ⟨-, _, hwords⟩ := of_words_cons hwords
  obtain ⟨hamount, _, hwords⟩ := of_words_cons hwords
  obtain ⟨hdata, _, hwords⟩ := of_words_cons hwords
  obtain ⟨hfee, _, hwords⟩ := of_words_cons hwords
  obtain ⟨hdeadline, -⟩ := of_words_cons hwords
  constructor
  · exact ⟨(inRange_of_word hchainId).1, hchain⟩
  · exact inRange_of_word hnonce
  · exact inRange_of_word hkind
  · exact inRange_of_word hamount
  · exact length_of_word hdata
  · exact inRange_of_word hfee
  · exact inRange_of_word hdeadline

/-! ## What stays as the client read it -/

/-- A passkey's client data, as WebAuthn serializes it on a page of `origin`. -/
def IsAssertion (origin : Bytes) (challenge : B256) (json : Bytes) : Prop :=
  json.length ≤ ClientData.maxClientDataLen ∧ ∃ tail, EndsOrigin tail ∧
    json = typeAndChallengeKey ++ (base64UrlEncode challenge.bytes ++
      (originKey ++ (origin ++ ([quote] ++ tail))))

/-- A payment sheet's client data, as a browser serializes it for what the sheet shows. -/
def IsSheet (origin : Bytes) (prompt : AssertionRequest) (sheet : SheetRequest) (json : Bytes) :
    Prop :=
  json.length ≤ ClientData.maxClientDataLen ∧ ∃ logos tail,
    (logos = [] ∨ logos = ClientData.spcLogos) ∧
    json = spcPrefix ++ (base64UrlEncode prompt.challenge.bytes ++ (originKey ++ (origin ++
      (ClientData.spcRpIdKey ++ (prompt.rpId ++ (ClientData.spcTopOriginKey ++ (origin ++
        (ClientData.spcPayeeNameKey ++ (sheet.payee ++ (ClientData.spcAfterPayee ++ (logos ++
          (ClientData.spcTotalKey ++ (Sdk.formatSpcTotal sheet.total.toNat ++
            (ClientData.spcCurrencyAndInstrument ++ tail))))))))))))))

section Chain

variable (config : ClientConfig) (keccak : Bytes → B256) (appId : ℕ)
variable (history : ClientHistory) (account : Address)
variable (host : Host) (vm : Vm) (s : VeraKeyAccount)

/-- The account is on the client's chain and in the client's app. -/
structure OnChain : Prop where
  keccak : host.keccak = keccak
  chainId : (host.chainId.toNat : ℤ) = config.chainId
  contractAddress : host.contractAddress = account
  initialized : s.initialized = true
  appId : s.appId = .ofNat 32 appId
  rpIdHash : s.rpIdHash.bytes = config.rpIdHash
  rpId : IsRpId config.rpId ∧ sha256 vm config.rpId = .ok s.rpIdHash

/-- The account is still as it was read, it belongs to the passkey it was derived for, and the
clocks are within five minutes of each other. -/
structure Unchanged : Prop where
  viewed : ∀ view, ⟨.accountView account, .ok view⟩ ∈ history →
    (s.nonce.toNat : ℤ) = view.nonce ∧ (s.maxFee.toNat : ℤ) = view.maxFee
  fresh : ∀ code, ⟨.getCode account, .ok code⟩ ∈ history →
    code.any (fun code => code ≠ [] ∧ code ≠ ascii "0x") = false →
    s.nonce = 0 ∧ config.relayerFee ≤ s.maxFee.toNat
  owner : ∀ nullifier, ⟨.predictAddress appId nullifier, .ok account⟩ ∈ history →
    s.owner host (.ofNat 32 nullifier) = true
  clock : ∀ now, ⟨.now, now⟩ ∈ history →
    (vm.blockTimestamp.toNat : ℤ) ≤ now / 1000 + 300 ∧ now / 1000 ≤ vm.blockTimestamp.toNat + 300
  timestamp : vm.blockTimestamp.toNat + 600 < 2 ^ 64

/-- The passkey serializes what it signs as specified. -/
structure Authenticates : Prop where
  passkey : ∀ prompt credential, ⟨.getAssertion prompt, .ok (some credential)⟩ ∈ history →
    IsAssertion s.origin prompt.challenge credential.clientDataJson
  sheet : ∀ prompt shown credential, ⟨.getSpcAssertion prompt shown, .ok credential⟩ ∈ history →
    IsSheet s.origin prompt shown credential.clientDataJson

/-- What the prover proves, the account's verifier accepts for the inputs that it was given. -/
structure Verifies : Prop where
  sha256 : ∀ data, ∃ digest, sha256 vm data = .ok digest
  length : ∀ input proof, ⟨.prove input, .ok proof⟩ ∈ history → proof.proof.length ≤ 16384
  accepts : ∀ input proof digest, ⟨.prove input, .ok proof⟩ ∈ history →
    VeraKey.sha256 vm input.clientDataJson = .ok digest → input.rpIdHash = s.rpIdHash.bytes →
    s.appId = .ofNat 32 input.appId →
    vm.verify s.verifier proof.proof (s.publicInputs digest (.ofNat 32 input.nullifier)) = true

end Chain

/-- What the account hands to its authorization as the payment that a sheet may show. -/
def Passes (payment : Option ClientData.Payment) : VeraKey.Call → Prop
  | .pay recipient amount approval => ∃ total, payment = some ⟨recipient, total⟩ ∧
      total.toNat = amount.toNat + approval.fee.toNat
  | _ => payment = none

section Authorized

variable {config : ClientConfig} {libraries : Libraries} {keccak : Bytes → B256} {appId : ℕ}
variable {action : ClientAction} {history : ClientHistory} {auth : Authorization}
variable {prep : Preparation} {assertion : PasskeyAssertion}
variable {host : Host} {vm : Vm} {s : VeraKeyAccount}

/-- A change's payload. -/
def ClientAction.payload? : ClientAction → Option Bytes
  | scheduleChange _ payload => some payload
  | restrict _ payload => some payload
  | _ => none

/-- The action is for the recovery that the account waits for. -/
def ClientAction.Current (s : VeraKeyAccount) : ClientAction → Prop
  | cancelRecovery pendingNullifier => pendingNullifier = s.recoveryNullifier.bytes
  | _ => True

theorem nonce_eq (hsound : prep.Sound config libraries keccak appId (action.request keccak) history)
    (hunchanged : Unchanged config appId history prep.account host vm s) :
    (s.nonce.toNat : ℤ) = prep.nonce ∧ config.relayerFee ≤ s.maxFee.toNat := by
  rw [Preparation.nonce]
  cases hview : prep.view with
  | none =>
      obtain ⟨code, hcode, hempty⟩ := hsound.absent hview
      obtain ⟨hnonce, hfee⟩ := hunchanged.fresh code hcode hempty
      rw [hnonce]
      exact ⟨rfl, hfee⟩
  | some view =>
      obtain ⟨hnonce, hmaxFee⟩ := hunchanged.viewed view (hsound.viewed view hview)
      exact ⟨hnonce, hmaxFee ▸ hsound.fee_le view hview⟩

/-- The action in range that is signed. -/
theorem inRange_signed
    (hsound : prep.Sound config libraries keccak appId (action.request keccak) history)
    (honChain : OnChain config keccak appId prep.account host vm s) :
    (signedAction config prep.account prep.nonce prep.deadline
      (action.request keccak)).InRange := by
  refine inRange_of_hashAction hsound.hash ?_
  have hlt := host.chainId.toNat_lt
  change config.chainId < 2 ^ 64
  rw [← honChain.chainId]
  exact_mod_cast hlt

/-- The relayed arguments fit the ABI and the relayer's limits. -/
theorem fits_approved
    (happroved : Approved config libraries keccak appId (action.request keccak) history auth prep
      assertion)
    (hpayload : ∀ payload, action.payload? = some payload → payload.length ≤ 16384)
    (hjson : assertion.clientDataJson.length ≤ ClientData.maxClientDataLen)
    (honChain : OnChain config keccak appId prep.account host vm s)
    (hverifies : Verifies history vm s) : action.Fits ∧ auth.Fits := by
  have hrange := inRange_signed happroved.signed.sound honChain
  obtain ⟨publicInputs, hproved⟩ := happroved.proved
  constructor
  · cases action with
    | pay recipient amount => exact hrange.amount
    | scheduleChange kind payload => exact hpayload payload rfl
    | restrict kind payload => exact hpayload payload rfl
    | cancelChange changeId => exact hrange.dataHash
    | cancelRecovery pendingNullifier => trivial
  · constructor
    · exact happroved.fee ▸ hrange.fee
    · exact happroved.deadline ▸ hrange.deadline
    · rw [happroved.clientDataJson]
      exact hjson.trans (by decide)
    · exact hverifies.length _ _ hproved

theorem toNat_fee
    (happroved : Approved config libraries keccak appId (action.request keccak) history auth prep
      assertion)
    (hrange : (signedAction config prep.account prep.nonce prep.deadline
      (action.request keccak)).InRange) :
    (auth.approval.fee.toNat : ℤ) = config.relayerFee := by
  change ((BitVec.ofNat 256 auth.fee.toNat).toNat : ℤ) = _
  rw [happroved.fee]
  exact intCast_ofNat_u256 hrange.fee

theorem toNat_deadline
    (happroved : Approved config libraries keccak appId (action.request keccak) history auth prep
      assertion)
    (hrange : (signedAction config prep.account prep.nonce prep.deadline
      (action.request keccak)).InRange) :
    (auth.approval.deadline.toNat : ℤ) = prep.deadline := by
  change ((UInt64.ofNat auth.deadline.toNat).toNat : ℤ) = _
  rw [happroved.deadline]
  exact intCast_ofNat_u64 hrange.deadline

/-- The action that the account computes for an approval is the one that was signed. -/
theorem toSdk_approvedAction {kind : UInt8} {amount : U256} {dataHash : B256}
    (happroved : Approved config libraries keccak appId (action.request keccak) history auth prep
      assertion)
    (honChain : OnChain config keccak appId prep.account host vm s)
    (hunchanged : Unchanged config appId history prep.account host vm s)
    (hkind : (action.request keccak).kind = kind.toNat)
    (hamount : (action.request keccak).amount = amount.toNat)
    (hdata : (action.request keccak).dataHash = dataHash.bytes) :
    (s.approvedAction host kind (action.request keccak).target amount dataHash
      auth.approval).toSdk =
      signedAction config prep.account prep.nonce prep.deadline (action.request keccak) := by
  have hrange := inRange_signed happroved.signed.sound honChain
  apply Sdk.Action.ext
  · exact honChain.chainId
  · exact honChain.contractAddress
  · change ((U256.ofU64 s.nonce).toNat : ℤ) = _
    rw [U256.toNat_ofU64]
    exact (nonce_eq happroved.signed.sound hunchanged).1
  · exact hkind.symm
  · rfl
  · exact hamount.symm
  · exact hdata.symm
  · exact toNat_fee happroved hrange
  · exact toNat_deadline happroved hrange

/-- The call of an approved action, and the action that the account computes for it. -/
theorem action_call
    (happroved : Approved config libraries keccak appId (action.request keccak) history auth prep
      assertion)
    (honChain : OnChain config keccak appId prep.account host vm s)
    (hunchanged : Unchanged config appId history prep.account host vm s)
    (hcurrent : action.Current s) :
    ∃ call approved, action.call auth.approval = some call ∧ call.action host s = some approved ∧
      approved.toSdk =
        signedAction config prep.account prep.nonce prep.deadline (action.request keccak) := by
  have hrange := inRange_signed happroved.signed.sound honChain
  cases action with
  | pay recipient amount =>
      exact ⟨_, _, rfl, rfl, toSdk_approvedAction happroved honChain hunchanged rfl
        (intCast_ofNat_u256 hrange.amount).symm rfl⟩
  | scheduleChange kind payload =>
      refine ⟨_, _, rfl, rfl, toSdk_approvedAction happroved honChain hunchanged rfl rfl ?_⟩
      rw [changeDataHash, honChain.keccak]
      rfl
  | restrict kind payload =>
      refine ⟨_, _, rfl, rfl, toSdk_approvedAction happroved honChain hunchanged rfl rfl ?_⟩
      rw [changeDataHash, honChain.keccak]
      rfl
  | cancelChange changeId =>
      have hid : FixedBytes.ofSlice? 32 changeId = some ⟨changeId, hrange.dataHash⟩ :=
        FixedBytes.ofSlice?_eq_some.mpr rfl
      refine ⟨.cancelChange ⟨changeId, hrange.dataHash⟩ auth.approval, _, ?_, rfl, ?_⟩
      · rw [ClientAction.call, hid, Option.map_some]
      · exact toSdk_approvedAction happroved honChain hunchanged rfl rfl rfl
  | cancelRecovery pendingNullifier =>
      exact ⟨_, _, rfl, rfl,
        toSdk_approvedAction happroved honChain hunchanged rfl rfl hcurrent⟩

end Authorized

/-! ## The account accepts -/

section Accepts

variable {config : ClientConfig} {libraries : Libraries} {keccak : Bytes → B256} {appId : ℕ}
variable {action : ClientAction} {history : ClientHistory} {auth : Authorization}
variable {prep : Preparation} {assertion : PasskeyAssertion}
variable {host : Host} {vm : Vm} {s : VeraKeyAccount}

theorem clientDataJson_of_getAssertion {answer : Except JsError (Option AssertedCredential)}
    (hassertion : getAssertion libraries false answer = .ok assertion) :
    ∃ credential, answer = .ok (some credential) ∧
      assertion.clientDataJson = credential.clientDataJson := by
  rcases answer with error | _ | credential
  · contradiction
  · contradiction
  · change (do
      return PasskeyAssertion.mk credential.rawId credential.authenticatorData
        credential.clientDataJson (← libraries.derToLowS credential.signature)
        credential.prfFirst) = _ at hassertion
    obtain ⟨signature, -, hread⟩ := bind_eq_ok.mp hassertion
    obtain rfl := pure_eq_ok.mp hread
    exact ⟨credential, rfl, rfl⟩

theorem clientDataJson_of_sheetAssertion {answer : Except JsError AssertedCredential}
    (hassertion : answer.bind (sheetAssertion libraries) = .ok assertion) :
    ∃ credential, answer = .ok credential ∧
      assertion.clientDataJson = credential.clientDataJson := by
  rcases answer with error | credential
  · contradiction
  · change (do
      return PasskeyAssertion.mk credential.rawId credential.authenticatorData
        credential.clientDataJson (← libraries.derToLowS credential.signature) none) = _
      at hassertion
    obtain ⟨signature, -, hread⟩ := bind_eq_ok.mp hassertion
    obtain rfl := pure_eq_ok.mp hread
    exact ⟨credential, rfl, rfl⟩

theorem encode32_eq (challenge : B256) :
    encode32 challenge = base64UrlEncode challenge.bytes := by
  rw [encode32_eq_encode, Sdk.base64UrlEncode_eq_encode]

/-- The account takes a passkey's own client data, whatever the call. -/
theorem checkClientData_of_isAssertion {challenge : B256} {json : Bytes}
    {payment : Option ClientData.Payment} (hjson : IsAssertion s.origin challenge json) :
    s.checkClientData vm challenge json payment = .ok () := by
  obtain ⟨hlength, tail, htail, rfl⟩ := hjson
  have hplain : ¬ spcPrefix <+: typeAndChallengeKey ++ (base64UrlEncode challenge.bytes ++
      (originKey ++ (s.origin ++ ([quote] ++ tail)))) := by
    rintro ⟨rest, hrest⟩
    exact ClientData.typeAndChallengeKey_append_ne _ _ hrest.symm
  rw [VeraKeyAccount.checkClientData, if_neg hplain, mapError_eq_ok]
  refine ClientData.verify_eq_ok.mpr ⟨hlength, tail, htail, ?_⟩
  rw [encode32_eq]

/-- The account takes a payment sheet's client data for the payment that the sheet showed. -/
theorem checkClientData_of_isSheet {prompt : AssertionRequest} {json rpId : Bytes}
    {recipient : Address} {total : U128} (hrpId : IsRpId rpId)
    (hdigest : sha256 vm rpId = .ok s.rpIdHash) (hprompt : prompt.rpId = rpId)
    (hjson : IsSheet s.origin prompt ⟨ClientData.payeeName recipient, total.toNat⟩ json) :
    s.checkClientData vm prompt.challenge json (some ⟨recipient, total⟩) = .ok () := by
  obtain ⟨hlength, logos, tail, hlogos, rfl⟩ := hjson
  rw [VeraKeyAccount.checkClientData, if_pos (List.prefix_append _ _)]
  simp only [bind_eq_ok, orElse_eq_ok, mapError_eq_ok, rejectIf_eq_ok]
  refine ⟨_, rfl, rpId, ?_, s.rpIdHash, hdigest, not_not.mpr rfl⟩
  refine ClientData.verifyPayment_eq_ok.mpr ⟨hlength, hrpId, logos, tail, hlogos, ?_⟩
  have hshown : Sdk.formatSpcTotal (total.toNat : ℤ).toNat = ClientData.formatTotal total := by
    rw [Int.toNat_natCast, ClientData.formatSpcTotal_eq]
  rw [encode32_eq, ClientData.sheetRest, ← hprompt, ← hshown]

/-- The answer to a prompt, serialized for what the prompt was for. -/
def Serialized (origin : Bytes) (prompt : AssertionRequest) (sheet : Option SheetRequest)
    (json : Bytes) : Prop :=
  match sheet with
  | none => IsAssertion origin prompt.challenge json
  | some shown => IsSheet origin prompt shown json

theorem Serialized.length_le {origin json : Bytes} {prompt : AssertionRequest}
    {sheet : Option SheetRequest} (hjson : Serialized origin prompt sheet json) :
    json.length ≤ ClientData.maxClientDataLen := by
  cases sheet with
  | none => exact hjson.1
  | some shown => exact hjson.1

theorem serialized_of_answered {prompt : AssertionRequest} {sheet : Option SheetRequest}
    (hanswered : Answered libraries history prompt sheet assertion)
    (hauthenticates : Authenticates history s) :
    Serialized s.origin prompt sheet assertion.clientDataJson := by
  cases sheet with
  | none =>
      obtain ⟨answer, hanswer, hassertion⟩ := hanswered
      obtain ⟨credential, rfl, hjson⟩ := clientDataJson_of_getAssertion hassertion
      rw [hjson]
      exact hauthenticates.passkey prompt credential hanswer
  | some shown =>
      obtain ⟨answer, hanswer, hassertion⟩ := hanswered
      obtain ⟨credential, rfl, hjson⟩ := clientDataJson_of_sheetAssertion hassertion
      rw [hjson]
      exact hauthenticates.sheet prompt shown credential hanswer

/-- The total that the account computes is the one that the sheet shows. -/
theorem total_eq {amount : ℤ} {total : U128}
    (hamount : 0 ≤ amount ∧ amount < 2 ^ 256)
    (hfee : (auth.approval.fee.toNat : ℤ) = config.relayerFee)
    (htotal : total.toNat = (BitVec.ofNat 256 amount.toNat).toNat + auth.approval.fee.toNat) :
    amount + config.relayerFee = (total.toNat : ℤ) := by
  rw [htotal, Nat.cast_add, hfee, intCast_ofNat_u256 hamount]

/-- What the passkey answered is accepted for the signed action. -/
theorem checkClientData_of_signed {call : VeraKey.Call} {payment : Option ClientData.Payment}
    (hsigned : Signed config libraries keccak appId (action.request keccak) history prep assertion)
    (hfits : action.Fits) (hfee : (auth.approval.fee.toNat : ℤ) = config.relayerFee)
    (honChain : OnChain config keccak appId prep.account host vm s)
    (hauthenticates : Authenticates history s) (hcall : action.call auth.approval = some call)
    (hpasses : Passes payment call) :
    s.checkClientData vm prep.actionHash assertion.clientDataJson payment = .ok () := by
  obtain ⟨prompt, sheet, hprompts, hanswered⟩ := hsigned.prompted
  have hserialized := serialized_of_answered hanswered hauthenticates
  rw [← hprompts.challenge]
  cases sheet with
  | none => exact checkClientData_of_isAssertion hserialized
  | some shown =>
      obtain ⟨hkind, -, rfl⟩ := hprompts.shows shown rfl
      -- only a payment has a sheet
      cases action with
      | pay recipient amount =>
          obtain rfl := Option.some.inj hcall
          obtain ⟨total, rfl, htotal⟩ := hpasses
          change IsSheet s.origin prompt
            ⟨ClientData.payeeName recipient, amount + config.relayerFee⟩ _ at hserialized
          rw [total_eq hfits hfee htotal] at hserialized
          exact checkClientData_of_isSheet honChain.rpId.1 honChain.rpId.2 hprompts.rpId
            hserialized
      | scheduleChange => exact absurd hkind (show ¬ (2 : ℤ) = 1 by decide)
      | restrict => exact absurd hkind (show ¬ (5 : ℤ) = 1 by decide)
      | cancelChange => exact absurd hkind (show ¬ (3 : ℤ) = 1 by decide)
      | cancelRecovery => exact absurd hkind (show ¬ (4 : ℤ) = 1 by decide)

/-- The account finds authorized what was signed and proved. -/
theorem authorized_of_approved {call : VeraKey.Call} {approved : VeraKey.Action}
    {payment : Option ClientData.Payment}
    (happroved : Approved config libraries keccak appId (action.request keccak) history auth prep
      assertion)
    (hfits : action.Fits) (honChain : OnChain config keccak appId prep.account host vm s)
    (hunchanged : Unchanged config appId history prep.account host vm s)
    (hauthenticates : Authenticates history s) (hverifies : Verifies history vm s)
    (hcall : action.call auth.approval = some call)
    (hsigned : approved.toSdk =
      signedAction config prep.account prep.nonce prep.deadline (action.request keccak))
    (hpasses : Passes payment call) :
    VeraKey.Authorized host vm s approved auth.approval payment := by
  have hrange := inRange_signed happroved.signed.sound honChain
  obtain ⟨-, hmaxFee⟩ := nonce_eq happroved.signed.sound hunchanged
  have hfee := toNat_fee happroved hrange
  have hdeadline := toNat_deadline happroved hrange
  obtain ⟨now, hnow, hprep⟩ := happroved.signed.sound.deadline
  rw [hprep, deadlineWindow] at hdeadline
  obtain ⟨hlate, hearly⟩ := hunchanged.clock now hnow
  have hhash : host.keccak approved.encode = prep.actionHash := by
    have hhashed := happroved.signed.sound.hash
    rw [← hsigned, hashAction, approved.encodeAction_toSdk, Option.map_some] at hhashed
    rw [honChain.keccak]
    exact Option.some.inj hhashed
  obtain ⟨publicInputs, hproved⟩ := happroved.proved
  obtain ⟨digest, hdigest⟩ := hverifies.sha256 assertion.clientDataJson
  constructor
  · exact honChain.initialized
  · rw [VeraKeyAccount.feeCeiling, BitVec.le_def, U256.toNat_ofU64]
    omega
  · rw [UInt64.le_iff_toNat_le]
    omega
  · have hwindow := hunchanged.timestamp
    rw [UInt64.le_iff_toNat_le, UInt64.toNat_add, show maxDeadlineWindow.toNat = 600 from rfl,
      Nat.mod_eq_of_lt hwindow]
    omega
  · have howner := hunchanged.owner prep.nullifier happroved.signed.sound.account
    rw [← happroved.nullifier] at howner
    exact howner
  · rw [hhash]
    change s.checkClientData vm prep.actionHash auth.clientDataJson payment = .ok ()
    rw [happroved.clientDataJson]
    exact checkClientData_of_signed happroved.signed hfits hfee honChain hauthenticates hcall
      hpasses
  · refine ⟨digest, ?_, ?_⟩
    · change sha256 vm auth.clientDataJson = .ok digest
      rw [happroved.clientDataJson]
      exact hdigest
    · have haccepts := hverifies.accepts _ _ digest hproved hdigest honChain.rpIdHash.symm
        honChain.appId
      rw [← happroved.nullifier] at haccepts
      exact haccepts

end Accepts

theorem approval_call {action : ClientAction} {approval : Approval} {call : VeraKey.Call}
    (hcall : action.call approval = some call) : call.approval = some approval := by
  cases action with
  | cancelChange changeId =>
      obtain ⟨id, -, rfl⟩ := Option.map_eq_some_iff.mp hcall
      rfl
  | _ =>
      obtain rfl := Option.some.inj hcall
      rfl

section Relayed

variable {config : ClientConfig} {libraries : Libraries} {keccak : Bytes → B256}
variable {events : ℕ → ClientEvent} {n number : ℕ}
variable {job : AsyncJob ClientState ClientAsk ClientReply ClientThrown ClientResult ClientCall}
variable {appId : ℕ} {action : ClientAction} {secureConfirmation : Bool} {before : ClientHistory}
variable {account : Address} {functionName : Relay.RelayableFunction} {args : List CallArg}
variable {host : Host} {vm : Vm} {s : VeraKeyAccount}

end Relayed

namespace ClientSample

/-- The client data of a passkey on this page. -/
def clientData (challenge : B256) : Bytes :=
  typeAndChallengeKey ++ (base64UrlEncode challenge.bytes ++
    (originKey ++ (ascii "https://k.io" ++ ([quote] ++ [ClientData.closingBrace]))))

def serialized : (question : ClientAsk) → ClientReply question
  | .getAssertion prompt =>
      .ok (some ⟨[1], List.replicate 37 0, clientData prompt.challenge, [], none⟩)
  | question => answer question

def signedEvents : ℕ → ClientEvent
  | 0 => .start (.unlock none)
  | 1 => .replies 0 serialized
  | 2 => .start (.act 1 payment false)
  | _ => .replies 1 serialized

/-- What of the replies the account depends on. -/
def fair : (question : ClientAsk) → ClientReply question → Bool
  | .getAssertion prompt, .ok (some credential) =>
      credential.clientDataJson = clientData prompt.challenge
  | .getSpcAssertion _ _, .ok _ => false
  | .accountView _, .ok _ => false
  | .prove _, .ok proof => proof.proof = [4]
  | .now, now => now = 5000
  | _, _ => true

/-- The account that a task now asks the relayer to call. -/
def relaysTo : Async.Paused ClientState ClientAsk ClientReply ClientThrown ClientResult →
    Option Address
  | .waiting (.post (.relay account _ _)) _ => some account
  | _ => none

theorem asked_of_relaysTo
    {job : AsyncJob ClientState ClientAsk ClientReply ClientThrown ClientResult ClientCall}
    {account : Address} (hrelays : relaysTo job.paused = some account) :
    ∃ functionName args, job.Asked job.history (.post (.relay account functionName args)) := by
  cases hpaused : job.paused with
  | ended result =>
      rw [hpaused] at hrelays
      contradiction
  | waiting question next =>
      rw [hpaused] at hrelays
      unfold relaysTo at hrelays
      split at hrelays
      · next account' functionName args next' heq =>
          obtain rfl := Option.some.inj hrelays
          exact ⟨functionName, args, .waiting (hpaused.trans heq)⟩
      · contradiction

def host : Host := ⟨keccak, 19, .ofNat 20 3⟩

def vm : Vm where
  blockTimestamp := 5
  msgSender := 0
  sha256 := fun _ => some (beBytes 32 8)
  verify := fun _ proof _ => proof = [4]
  transfer := fun _ _ => true

def chainAccount : VeraKeyAccount :=
  { VeraKeyAccount.fresh with
    initialized := true
    maxFee := 10
    appId := .ofNat 32 1
    rpIdHash := .ofNat 32 8
    origin := ascii "https://k.io"
    owners := fun _ => true }

variable {history : ClientHistory}

theorem isAssertion_clientData (challenge : B256) :
    IsAssertion chainAccount.origin challenge (clientData challenge) := by
  refine ⟨?_, [ClientData.closingBrace], .inl rfl, rfl⟩
  rw [clientData, ← encode32_eq, List.length_append, List.length_append, length_encode32]
  decide +kernel

theorem onChain : OnChain config keccak 1 (.ofNat 20 3) host vm chainAccount where
  keccak := rfl
  chainId := rfl
  contractAddress := rfl
  initialized := rfl
  appId := rfl
  rpIdHash := rfl
  rpId := ⟨⟨by decide +kernel, by decide +kernel, by decide +kernel⟩, rfl⟩

theorem unchanged (hfair : ∀ exchange ∈ history, fair exchange.question exchange.reply = true) :
    Unchanged config 1 history (.ofNat 20 3) host vm chainAccount where
  viewed view hmem := absurd (hfair _ hmem) Bool.false_ne_true
  fresh _ _ _ := ⟨rfl, by decide⟩
  owner _ _ := rfl
  clock now hmem := by
    obtain rfl : now = (5000 : ℤ) := of_decide_eq_true (hfair _ hmem)
    decide
  timestamp := by decide

theorem authenticates
    (hfair : ∀ exchange ∈ history, fair exchange.question exchange.reply = true) :
    Authenticates history chainAccount where
  passkey prompt credential hmem := by
    rw [of_decide_eq_true (hfair _ hmem)]
    exact isAssertion_clientData prompt.challenge
  sheet prompt shown credential hmem := absurd (hfair _ hmem) Bool.false_ne_true

theorem verifies (hfair : ∀ exchange ∈ history, fair exchange.question exchange.reply = true) :
    Verifies history vm chainAccount where
  sha256 data := ⟨_, rfl⟩
  length input proof hmem := by
    rw [of_decide_eq_true (hfair _ hmem)]
    decide
  accepts input proof digest hmem _ _ _ := hfair _ hmem

end ClientSample

end Client

end VeraKey
