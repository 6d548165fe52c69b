/-
Safety actions and money: an owner's approval of a tightening change, of
cancelling a waiting change or of cancelling a recovery is never refused for
what the account has spent.  The fee is charged as far as the day's cap goes and
waived past it, so only the token can refuse the call.
-/
import VeraKey.DailyCap
import VeraKey.Approval
import VeraKey.FiniteRun

namespace VeraKey

open ByteCodec Guard PeriodCounter VeraKeyAccount

/-- The checks of a safety action other than its approval. -/
def Call.Safety (s : VeraKeyAccount) : Call → Prop
  | .restrict changeKind payload _ =>
      Changes.isRestrictive changeKind payload s.limits = true ∧
        Changes.keepsFeesPayable changeKind payload s.feeCeiling = true
  | .cancelChange changeId _ => s.pendingEta changeId ≠ 0
  | .cancelRecovery _ => s.recoveryEta ≠ 0
  | _ => False

variable {host : Host} {vm : Vm} {s s' : VeraKeyAccount} {call : Call}
  {approval : Approval} {action : Action}

namespace VeraKeyAccount

/-! ## Charging a safety fee -/

/-- The charge is the fee, as far as the day's cap goes. -/
theorem toNat_chargedFee (fee : U256) :
    (s.chargedFee vm fee).toNat = min fee.toNat
      (s.dailyCap.toNat - s.window.counter.carried (Spending.dayOf vm.blockTimestamp)) := by
  rw [chargedFee, Spending.toNat_chargeFee, U256.toNat_ofU128]

theorem carried_lt (now : ℕ) : s.window.counter.carried now < 2 ^ 128 := by
  have hspent := s.spentToday.isLt
  unfold Counter.carried
  split
  · simpa [window, Spending.Window.counter] using hspent
  · exact Nat.two_pow_pos 128

/-- The window still fits its 128 bits, also when the cap was lowered below what
was spent. -/
theorem chargedWindow_fits (vm : Vm) (s : VeraKeyAccount) (fee : U256) :
    (s.chargedWindow vm fee).spent.toNat < 2 ^ 128 := by
  have hcount := congrArg Counter.total
    (Spending.chargeFee_counter (.ofU128 s.dailyCap) s.window vm.blockTimestamp fee)
  have hcharged : (s.chargedFee vm fee).toNat = _ := toNat_chargedFee fee
  have hcarried := s.carried_lt (Spending.dayOf vm.blockTimestamp)
  have hcap := s.dailyCap.isLt
  calc (s.chargedWindow vm fee).spent.toNat
      = s.window.counter.carried (Spending.dayOf vm.blockTimestamp) +
          (s.chargedFee vm fee).toNat := hcount
    _ < 2 ^ 128 := by omega

theorem chargeFee_eq (fee : U256) : s.chargeFee vm fee =
    .ok (s.withWindow (s.chargedWindow vm fee), s.chargedFee vm fee) :=
  chargeFee_eq_ok.mpr ⟨s.chargedWindow_fits vm fee, rfl, rfl⟩

/-- A tightening change always applies. -/
theorem apply_of_isRestrictive {changeKind : UInt8} {payload : Bytes}
    {current : Changes.Limits}
    (hrestrictive : Changes.isRestrictive changeKind payload current = true) :
    ∃ result, s.apply host changeKind payload = .ok result ∧
      result.1.usdg = s.usdg ∧ result.1.feeRecipient = s.feeRecipient := by
  have hvalid : Changes.isValid changeKind payload = true := by
    unfold Changes.isRestrictive at hrestrictive
    split at hrestrictive
    · contradiction
    · simpa using ‹¬ (!Changes.isValid changeKind payload) = true›
  obtain ⟨c, rfl, rfl⟩ := Change.exists_of_isValid hvalid
  rw [c.isRestrictive_payload] at hrestrictive
  have happlicable : s.Applicable host c := by
    cases c with
    | addOwner => exact absurd hrestrictive id
    | removeOwner => exact absurd hrestrictive id
    | _ => trivial
  exact ⟨_, (apply_payload_eq_ok c).mpr ⟨happlicable, rfl⟩, applied_usdg c,
    applied_feeRecipient c⟩

theorem payFee_congr {made : List Transfer} {fee : U256} (husdg : s'.usdg = s.usdg)
    (hrecipient : s'.feeRecipient = s.feeRecipient) :
    s'.payFee vm made fee = s.payFee vm made fee := by
  rw [payFee, payFee, transferUsdg, transferUsdg, husdg, hrecipient]

end VeraKeyAccount

/-! ## What a safety action does -/

/-- Once it is approved, a safety action pays the charged part of its fee and then
nothing can fail. -/
theorem Call.Safety.exec_eq (h : call.Safety s) (happroval : call.approval = some approval)
    (haction : call.action host s = some action)
    (hauth : Authorized host vm s action approval none) :
    ∃ account logs returned, s.exec host vm call = (do
      let transfers ← s.payFee vm [] (s.chargedFee vm approval.fee)
      return ⟨account, transfers, logs, returned⟩) := by
  have hcharge : s.useNonce.chargeFee vm approval.fee =
      .ok (s.charged vm approval.fee, s.chargedFee vm approval.fee) :=
    s.useNonce.chargeFee_eq approval.fee
  cases call with
  | restrict changeKind payload approval =>
      obtain rfl := Option.some.inj happroval
      obtain rfl := Option.some.inj haction
      obtain ⟨hrestrictive, hpayable⟩ := h
      obtain ⟨⟨changed, logs⟩, happly, husdg, hrecipient⟩ :
          ∃ result, (s.charged vm approval.fee).apply host changeKind payload = .ok result ∧
            result.1.usdg = s.usdg ∧ result.1.feeRecipient = s.feeRecipient :=
        apply_of_isRestrictive hrestrictive
      rw [exec, VeraKeyAccount.restrict, rejectIf_bind_of_not (not_not.mpr hrestrictive),
        rejectIf_bind_of_not (not_not.mpr hpayable)]
      simp only [authorize_eq_ok.mpr ⟨hauth, rfl, rfl⟩, ok_bind, hcharge, happly]
      split
      · have hfee : (changed.cancelPendingChanges false).1.payFee vm []
            (s.chargedFee vm approval.fee) =
              s.payFee vm [] (s.chargedFee vm approval.fee) := by
          rw [cancelPendingChanges_fst]
          exact payFee_congr husdg hrecipient
        rw [hfee]
        exact ⟨_, _, _, rfl⟩
      · rw [payFee_congr (s := s) husdg hrecipient]
        exact ⟨_, _, _, rfl⟩
  | cancelChange changeId approval =>
      obtain rfl := Option.some.inj happroval
      obtain rfl := Option.some.inj haction
      rw [exec, VeraKeyAccount.cancelChange, rejectIf_bind_of_not h]
      simp only [authorize_eq_ok.mpr ⟨hauth, rfl, rfl⟩, ok_bind, hcharge]
      rw [clearPending_eq_remove, payFee_congr (s := s) (by simp) (by simp)]
      exact ⟨_, _, _, rfl⟩
  | cancelRecovery approval =>
      obtain rfl := Option.some.inj happroval
      obtain rfl := Option.some.inj haction
      rw [exec, VeraKeyAccount.cancelRecovery, rejectIf_bind_of_not h]
      simp only [authorize_eq_ok.mpr ⟨hauth, rfl, rfl⟩, ok_bind, hcharge, clearRecovery]
      rw [payFee_congr (s := s) (by simp) (by simp)]
      exact ⟨_, _, _, rfl⟩
  | _ => exact absurd h id

/-- The fee recipient gets the charged part, or nothing when nothing is charged. -/
theorem Call.Safety.exec_ok (h : call.Safety s) (happroval : call.approval = some approval)
    (haction : call.action host s = some action)
    (hauth : Authorized host vm s action approval none)
    (haccepts : s.chargedFee vm approval.fee ≠ 0 →
      vm.transfer [] ⟨s.usdg, s.feeRecipient, s.chargedFee vm approval.fee⟩ = true) :
    ∃ out, s.exec host vm call = .ok out ∧
      out.transfers = s.outgoing s.feeRecipient (s.chargedFee vm approval.fee) := by
  obtain ⟨account, logs, returned, hexec⟩ := h.exec_eq happroval haction hauth
  rw [payFee_eq_ok.mpr ⟨haccepts, rfl⟩, ok_bind] at hexec
  exact ⟨_, hexec, rfl⟩

/-- Only the token refuses it, and only a fee that is charged. -/
theorem Call.Safety.exec_error (h : call.Safety s)
    (happroval : call.approval = some approval)
    (haction : call.action host s = some action)
    (hauth : Authorized host vm s action approval none)
    (hcharged : s.chargedFee vm approval.fee ≠ 0)
    (hrefuses : vm.transfer []
      ⟨s.usdg, s.feeRecipient, s.chargedFee vm approval.fee⟩ = false) :
    s.exec host vm call = .error (.revert .tokenTransferFailed) := by
  obtain ⟨account, logs, returned, hexec⟩ := h.exec_eq happroval haction hauth
  rw [hexec, payFee, transferUsdg, if_neg hcharged]
  simp only [rejectIf, hrefuses, Bool.false_eq_true, not_false_eq_true, if_true]
  rfl

namespace Run

variable (r : Run)

/-- What the window carries into a call is what already left on its day. -/
theorem carried_eq_outOnDay (n : ℕ) :
    (r.state n).window.counter.carried (r.day n) = r.outOnDay (r.day n) n := by
  unfold Counter.carried
  split
  · rename_i hperiod
    have htotal := r.ledger.total_eq_outIn n
    rwa [show (r.ledger.counter n).period = r.day n from hperiod] at htotal
  · rename_i hperiod
    exact (r.ledger.outIn_eq_zero_of_lt _ n
      (lt_of_le_of_ne (r.ledger.counter_period_le n) hperiod)).symm

/-- An approved safety action charges its fee up to what the day's cap leaves, and
succeeds unless the token refuses that charge.  With nothing left of the cap it
makes no transfer, so it succeeds whatever the token does. -/
theorem safety_actions (n : ℕ) (approval : Approval) (action : Action)
    (hsafety : (r.call n).Safety (r.state n))
    (happroval : (r.call n).approval = some approval)
    (haction : (r.call n).action r.host (r.state n) = some action)
    (hauth : Authorized r.host (r.vm n) (r.state n) action approval none) :
    ∃ charged : U256,
      charged.toNat = min approval.fee.toNat
        ((r.state n).dailyCap.toNat - r.outOnDay (r.day n) n) ∧
      ((r.state n).window.already (r.now n)).toNat = r.outOnDay (r.day n) n ∧
      (charged = 0 → r.Succeeds n ∧ r.transfers n = []) ∧
      (charged ≠ 0 →
        (r.vm n).transfer [] ⟨(r.state n).usdg, (r.state n).feeRecipient, charged⟩ = true →
          r.Succeeds n ∧
            r.transfers n = [⟨(r.state n).usdg, (r.state n).feeRecipient, charged⟩]) ∧
      (charged ≠ 0 →
        (r.vm n).transfer [] ⟨(r.state n).usdg, (r.state n).feeRecipient, charged⟩ = false →
          r.outcome n = .error (.revert .tokenTransferFailed)) := by
  have hsucceeds : ∀ {out}, (r.state n).exec r.host (r.vm n) (r.call n) = .ok out →
      r.Succeeds n ∧ r.transfers n = out.transfers := by
    intro out hexec
    refine ⟨⟨out, hexec⟩, ?_⟩
    rw [transfers, outcome, hexec]
  refine ⟨(r.state n).chargedFee (r.vm n) approval.fee, ?_, ?_, ?_, ?_, ?_⟩
  · rw [toNat_chargedFee, ← r.carried_eq_outOnDay n]
    rfl
  · rw [Spending.toNat_already]
    exact r.carried_eq_outOnDay n
  · intro hzero
    obtain ⟨out, hexec, hout⟩ :=
      hsafety.exec_ok happroval haction hauth (absurd hzero)
    rw [outgoing, if_pos hzero] at hout
    exact hout ▸ hsucceeds hexec
  · intro hcharged haccepts
    obtain ⟨out, hexec, hout⟩ :=
      hsafety.exec_ok happroval haction hauth fun _ => haccepts
    rw [outgoing, if_neg hcharged] at hout
    exact hout ▸ hsucceeds hexec
  · intro hcharged hrefuses
    exact hsafety.exec_error happroval haction hauth hcharged hrefuses

end Run

/-! ## One history

An owner pays, then lowers both caps below what was spent, and freezes the account on
the same day while the token refuses every transfer.  The hashes are the Keccak-256
and SHA-256 values of what this history hashes. -/

namespace LoweredCap

def limitsPayload : Bytes := Changes.u128Word 10 ++ Changes.u128Word 10

def limitsHash : B256 :=
  .ofNat 32 0x1983c496bc5ffe056177cdd2e6d7457a8a32f29aecbc3fd754ffcaf404f5ca83

def freezeHash : B256 :=
  .ofNat 32 0xd33e25809fcaa2b6900567812852539da8559dc8b76a7ce3fc5ddd77e8d19a69

/-- The three actions of the owner. -/
def actionOf (nonce : U256) (kind : UInt8) (target : Address) (amount : U256)
    (dataHash : B256) : Action where
  chainId := 421614
  account := Sample.account
  nonce := nonce
  kind := kind
  target := target
  amount := amount
  dataHash := dataHash
  fee := 2
  deadline := 1300

def payAction : Action := actionOf 0 Kind.pay Sample.payee 20 0
def limitsAction : Action := actionOf 1 Kind.restrict 0 0 limitsHash
def freezeAction : Action := actionOf 2 Kind.restrict 0 0 freezeHash

def keccaks : HashTable where
  entries := [
    (ownerKeyPreimage 0 Sample.firstOwner,
      .ofNat 32 0x6d5257204ebe7d88fd91ae87941cb2dd9d8062b64ae5a2bd2d28ec40b9fbf6df),
    (Changes.setLimits :: limitsPayload, limitsHash),
    ([Changes.freeze], freezeHash),
    (payAction.encode,
      .ofNat 32 0xc9e51973e04bd8f55d83d93122f50574ac04047b6d99ba4905d7c9e9eadd2ce9),
    (limitsAction.encode,
      .ofNat 32 0x7bb5ef95b39b4f8687660ee364c1c3e084a425c38fd65ee9c2c89d968897e9c6),
    (freezeAction.encode,
      .ofNat 32 0xb69f19a4b1639d50d97dc17d94dc6839ab9040389791bd8ea68c5e9b00006c4a)]
  other := 0
  nodup := by decide +kernel

def jsonOf (challenge : String) : Bytes :=
  ascii "\x7b\"type\":\"webauthn.get\",\"challenge\":\"" ++ ascii challenge ++
    ascii "\",\"origin\":\"https://pay.example\"\x7d"

def payJson : Bytes := jsonOf "yeUZc-BL2PVdg9kxIvUFdKwEBHttmbpJBdfJ6erdLOk"
def limitsJson : Bytes := jsonOf "e7XvlbObT4aHZg7jZMHD4ISkJcOP1l7pwsidloiX6cY"
def freezeJson : Bytes := jsonOf "tp8ZpLFjnVDZfcF9lNxoOauQQDiXkb2OpoxemwAAbEo"

def digests : HashTable where
  entries := [
    (payJson,
      .ofNat 32 0xe519f781b960350d12c07135e1a1e9e96ddbbc8263f45da05465253b63ef5d15),
    (limitsJson,
      .ofNat 32 0x6c7c2946545e96c0a2fc6a548a26273f31fb4ca3d1cff4017b5a52b4edb974bf),
    (freezeJson,
      .ofNat 32 0x745d722a3864f3a8b374acd50800135f15577fe683e8db60b9b828a100bf4db3)]
  other := 0
  nodup := by decide +kernel

def vmAt (now : UInt64) (accepts : Bool) : Vm where
  blockTimestamp := now
  msgSender := 0
  sha256 data := some (digests.hash data).bytes
  verify _ _ _ := true
  transfer _ _ := accepts

def history : FiniteRun where
  host := ⟨keccaks.hash, 421614, Sample.account⟩
  txs := [
    ⟨vmAt 1000 true, .initializeAccount Sample.configuration⟩,
    ⟨vmAt 1010 true, .pay Sample.payee 20 (Sample.approvalOf payJson)⟩,
    ⟨vmAt 1012 true,
      .restrict Changes.setLimits limitsPayload (Sample.approvalOf limitsJson)⟩,
    ⟨vmAt 1014 false, .restrict Changes.freeze [] (Sample.approvalOf freezeJson)⟩]
  last := vmAt 1020 true
  clock_mono := by decide +kernel

abbrev run : Run := history.run

/-- Every call succeeds, and hashes only what the table lists. -/
theorem checked : (∀ n < 4, (run.outcome n).isOk = true ∧
    ∀ preimage ∈ (run.call n).hashed run.host (run.state n), preimage ∈ keccaks.inputs) ∧
    ((run.state 3).window.already (run.now 3)).toNat = 24 ∧
    (run.state 3).dailyCap = 10 ∧
    Changes.isRestrictive Changes.freeze [] (run.state 3).limits = true := by
  decide +kernel

theorem succeeds {n : ℕ} (h : n < 4) : run.Succeeds n :=
  Run.succeeds_of_isOk (checked.1 n h).1

end LoweredCap

/-- Nothing of the lowered cap is left, so the freeze makes no transfer and
succeeds although the token refuses every one. -/
theorem safety_actions_sample :
    LoweredCap.run.Succeeds 3 ∧ LoweredCap.run.transfers 3 = [] := by
  obtain ⟨hok, hspent, hcap, hrestrictive⟩ := LoweredCap.checked
  have hsafety : (LoweredCap.run.call 3).Safety (LoweredCap.run.state 3) :=
    ⟨hrestrictive, rfl⟩
  obtain ⟨action, happroved⟩ :=
    (Run.succeeds_of_isOk (hok 3 (by decide)).1).step.approved rfl
  obtain ⟨payment, hauth, hshows⟩ := happroved.authorized
  have hnosheet : payment = none :=
    Option.eq_none_iff_forall_not_mem.mpr fun shown hshown => hshows shown hshown
  subst hnosheet
  obtain ⟨charged, hcharged, hout, hnone, -⟩ :=
    Run.safety_actions LoweredCap.run 3 (Sample.approvalOf LoweredCap.freezeJson)
      action hsafety rfl happroved.action_eq hauth
  rw [← hout, hspent, hcap] at hcharged
  exact hnone (BitVec.eq_of_toNat_eq (by simpa using hcharged))

end VeraKey
