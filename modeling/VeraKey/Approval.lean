/-
What an approval commits to: the call that accepts it has exactly the action
whose hash the client data carries, within ten minutes before its deadline, and
a payment sheet shows what is paid.
-/
import VeraKey.Step

namespace VeraKey

open ByteCodec Guard

namespace ClientData

/-- The client data carries `challenge` where either kind of it places one. -/
def Carries (json : Bytes) (challenge : B256) : Prop :=
  ∃ start rest, (start = typeAndChallengeKey ∨ start = spcPrefix) ∧
    json = start ++ (encode32 challenge ++ rest)

/-- The payment sheet shows this payment. -/
def Displays (json : Bytes) (payment : Payment) : Prop :=
  ∃ challenge origin rpId logos tail, json =
    spcPrefix ++ (encode32 challenge ++ sheetRest origin rpId logos payment tail)

/-- Client data carries one challenge. -/
theorem Carries.unique {json : Bytes} {left right : B256} (hleft : Carries json left)
    (hright : Carries json right) : left = right := by
  obtain ⟨start, rest, hstart, rfl⟩ := hleft
  obtain ⟨start', rest', hstart', heq⟩ := hright
  rcases hstart with rfl | rfl <;> rcases hstart' with rfl | rfl
  · exact challenge_unique heq
  · exact absurd heq (typeAndChallengeKey_append_ne _ _)
  · exact absurd heq.symm (typeAndChallengeKey_append_ne _ _)
  · exact challenge_unique heq

end ClientData

namespace VeraKeyAccount

variable {vm : Vm} {s : VeraKeyAccount} {actionHash : B256} {json : Bytes}
  {payment : Option ClientData.Payment}

/-- Accepted client data carries the action hash, and a payment sheet shows the
payment. -/
theorem carries_of_checkClientData
    (haccepts : s.checkClientData vm actionHash json payment = .ok ()) :
    ClientData.Carries json actionHash ∧
      (ClientData.spcPrefix <+: json →
        ∃ shown, payment = some shown ∧ ClientData.Displays json shown) := by
  unfold checkClientData at haccepts
  split at haccepts
  · simp only [bind_eq_ok, orElse_eq_ok, mapError_eq_ok, rejectIf_eq_ok] at haccepts
    obtain ⟨shown, rfl, rpId, hverify, -⟩ := haccepts
    obtain ⟨-, -, logos, tail, -, rfl⟩ := ClientData.verifyPayment_eq_ok.mp hverify
    exact ⟨⟨_, _, Or.inr rfl, rfl⟩, fun _ => ⟨shown, rfl, _, _, _, _, _, rfl⟩⟩
  · rename_i hnot
    rw [mapError_eq_ok, ClientData.verify_eq_ok] at haccepts
    obtain ⟨-, tail, -, rfl⟩ := haccepts
    exact ⟨⟨_, _, Or.inl rfl, rfl⟩, fun hspc => absurd hspc hnot⟩

@[simp]
theorem applied_nonce {host : Host} (c : Change) : (s.applied host c).nonce = s.nonce := by
  cases c <;> rfl

end VeraKeyAccount

open VeraKeyAccount

/-- The approval a proof-authorized call carries. -/
def Call.approval : Call → Option Approval
  | .pay _ _ approval | .scheduleChange _ _ approval | .restrict _ _ approval
  | .cancelChange _ approval | .cancelRecovery approval => some approval
  | _ => none

/-- The action a proof-authorized call asks the owner to approve. -/
def Call.action (host : Host) (s : VeraKeyAccount) : Call → Option Action
  | .pay recipient amount approval =>
      s.approvedAction host Kind.pay recipient amount 0 approval
  | .scheduleChange changeKind payload approval =>
      s.approvedAction host Kind.scheduleChange 0 0
        (changeDataHash host changeKind payload) approval
  | .restrict changeKind payload approval =>
      s.approvedAction host Kind.restrict 0 0 (changeDataHash host changeKind payload)
        approval
  | .cancelChange changeId approval =>
      s.approvedAction host Kind.cancelChange 0 0 changeId approval
  | .cancelRecovery approval =>
      s.approvedAction host Kind.cancelRecovery 0 0 s.recoveryNullifier approval
  | _ => none

/-- The payment a payment sheet may show for a call. -/
def Call.Shows (approval : Approval) (payment : ClientData.Payment) : Call → Prop
  | .pay recipient amount _ => payment.payee = recipient ∧
      payment.total.toNat = amount.toNat + approval.fee.toNat
  | _ => False

/-- The call's action was approved, which used a nonce. -/
structure Approved (host : Host) (vm : Vm) (s s' : VeraKeyAccount) (call : Call)
    (action : Action) (approval : Approval) : Prop where
  action_eq : call.action host s = some action
  authorized : ∃ payment, Authorized host vm s action approval payment ∧
    ∀ shown, payment = some shown → call.Shows approval shown
  nonce : s'.nonce = s.nonce + 1

variable {host : Host} {vm : Vm} {s s' : VeraKeyAccount} {call : Call}
  {transfers : List Transfer} {approval : Approval} {action : Action}

theorem Step.approved (h : Step host vm s call s' transfers)
    (happroval : call.approval = some approval) :
    ∃ action, Approved host vm s s' call action approval := by
  cases h with
  | pay _ hshown _ hauth =>
      obtain rfl := Option.some.inj happroval
      refine ⟨_, rfl, ⟨_, hauth, fun shown hsome => ?_⟩, by simp⟩
      obtain rfl := Option.some.inj hsome
      exact ⟨rfl, hshown⟩
  | scheduleChange _ _ hauth =>
      obtain rfl := Option.some.inj happroval
      exact ⟨_, rfl, ⟨_, hauth, nofun⟩, by simp⟩
  | restrict _ _ _ hauth =>
      obtain rfl := Option.some.inj happroval
      exact ⟨_, rfl, ⟨_, hauth, nofun⟩, by simp⟩
  | restrictFreeze hauth =>
      obtain rfl := Option.some.inj happroval
      exact ⟨_, rfl, ⟨_, hauth, nofun⟩, by simp⟩
  | cancelChange _ hauth =>
      obtain rfl := Option.some.inj happroval
      exact ⟨_, rfl, ⟨_, hauth, nofun⟩, by simp⟩
  | cancelRecovery _ hauth =>
      obtain rfl := Option.some.inj happroval
      exact ⟨_, rfl, ⟨_, hauth, nofun⟩, by simp⟩
  | _ => cases happroval

/-- Only an owner of the current epoch authorizes a call. -/
theorem Step.owner_of_approval (h : Step host vm s call s' transfers)
    (happroval : call.approval = some approval) :
    s.owner host approval.nullifier = true := by
  obtain ⟨action, happroved⟩ := h.approved happroval
  obtain ⟨payment, hauth, -⟩ := happroved.authorized
  exact hauth.owner

/-- The client data carries the hash of the action that was approved. -/
theorem Approved.carries (h : Approved host vm s s' call action approval) :
    ClientData.Carries approval.clientDataJson (host.keccak action.encode) := by
  obtain ⟨payment, hauth, -⟩ := h.authorized
  exact (carries_of_checkClientData hauth.clientData).1

/-- A payment sheet is accepted only for the payment it shows. -/
theorem Approved.displays (h : Approved host vm s s' call action approval)
    (hsheet : ClientData.spcPrefix <+: approval.clientDataJson) :
    ∃ shown, ClientData.Displays approval.clientDataJson shown ∧
      call.Shows approval shown := by
  obtain ⟨payment, hauth, hshows⟩ := h.authorized
  obtain ⟨shown, hsome, hdisplays⟩ :=
    (carries_of_checkClientData hauth.clientData).2 hsheet
  exact ⟨shown, hdisplays, hshows shown hsome⟩

/-- The action names the account, its chain and its next nonce. -/
theorem Approved.identifies (h : Approved host vm s s' call action approval) :
    action.chainId = host.chainId ∧ action.account = host.contractAddress ∧
      action.nonce = s.currentNonce := by
  have haction := h.action_eq
  cases call with
  | pay => obtain rfl := Option.some.inj haction; exact ⟨rfl, rfl, rfl⟩
  | scheduleChange => obtain rfl := Option.some.inj haction; exact ⟨rfl, rfl, rfl⟩
  | restrict => obtain rfl := Option.some.inj haction; exact ⟨rfl, rfl, rfl⟩
  | cancelChange => obtain rfl := Option.some.inj haction; exact ⟨rfl, rfl, rfl⟩
  | cancelRecovery => obtain rfl := Option.some.inj haction; exact ⟨rfl, rfl, rfl⟩
  | _ => cases haction

end VeraKey
