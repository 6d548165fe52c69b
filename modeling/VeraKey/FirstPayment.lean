/-
First payments: an address is known exactly when it was paid before, so the
new-payee cap bounds the first payment to an address off the allowlist.
-/
import VeraKey.Run

namespace VeraKey

open VeraKeyAccount

variable {host : Host} {vm : Vm} {s s' : VeraKeyAccount} {call : Call}
  {transfers : List Transfer}

/-- The call pays this address. -/
def Call.Pays (recipient : Address) (call : Call) : Prop :=
  ∃ amount approval, call = .pay recipient amount approval

@[simp]
theorem VeraKeyAccount.applied_knownRecipients (c : Change) :
    (s.applied host c).knownRecipients = s.knownRecipients := by
  cases c <;> rfl

/-- A call makes known exactly the address it pays. -/
theorem Step.knownRecipients_iff (h : Step host vm s call s' transfers)
    (recipient : Address) :
    s'.knownRecipients recipient = true ↔
      call.Pays recipient ∨ s.knownRecipients recipient = true := by
  cases h with
  | @pay payee amount approval =>
      rw [setKnownRecipient_knownRecipients]
      by_cases heq : recipient = payee
      · subst heq
        rw [Function.update_self]
        exact iff_of_true rfl (Or.inl ⟨amount, approval, rfl⟩)
      · rw [Function.update_of_ne heq]
        refine ⟨Or.inr, fun hpaid => hpaid.resolve_left ?_⟩
        rintro ⟨amount', approval', hcall⟩
        exact heq (Call.pay.inj hcall).1.symm
  | _ => simp [Call.Pays]

theorem Step.allowed_of_pay {recipient : Address} {amount : U256} {approval : Approval}
    (h : Step host vm s (.pay recipient amount approval) s' transfers) :
    s.PaymentAllowed host recipient amount approval.clientDataJson := by
  cases h with
  | pay hallowed => exact hallowed

namespace Run

variable (r : Run)

/-- An address is known in a state exactly when an earlier call paid it. -/
theorem knownRecipients_iff (n : ℕ) (recipient : Address) :
    (r.state n).knownRecipients recipient = true ↔
      ∃ m < n, r.Succeeds m ∧ (r.call m).Pays recipient := by
  induction n with
  | zero =>
      constructor
      · intro hknown
        exact absurd hknown Bool.false_ne_true
      · rintro ⟨m, hm, -⟩
        exact absurd hm m.not_lt_zero
  | succ n ih =>
      have hstep : (r.state (n + 1)).knownRecipients recipient = true ↔
          (r.Succeeds n ∧ (r.call n).Pays recipient) ∨
            (r.state n).knownRecipients recipient = true := by
        by_cases hsucceeds : r.Succeeds n
        · rw [hsucceeds.step.knownRecipients_iff recipient]
          simp [hsucceeds]
        · rw [(state_succ_of_not_succeeds hsucceeds).1]
          simp [hsucceeds]
      rw [hstep, ih]
      constructor
      · rintro (hpays | ⟨m, hm, hpays⟩)
        · exact ⟨n, n.lt_succ_self, hpays⟩
        · exact ⟨m, Nat.lt_succ_of_lt hm, hpays⟩
      · rintro ⟨m, hm, hpays⟩
        rcases Nat.lt_succ_iff_lt_or_eq.mp hm with hlt | rfl
        · exact Or.inr ⟨m, hlt, hpays⟩
        · exact Or.inl hpays

/-- An address is known exactly when an earlier `pay` to it succeeded; the first one
that succeeds, to an address off the allowlist at that moment, is within the
new-payee cap of that moment. -/
theorem first_payment :
    (∀ n recipient, (r.state n).knownRecipients recipient = true ↔
      ∃ m < n, r.Succeeds m ∧ (r.call m).Pays recipient) ∧
      ∀ n recipient amount approval, r.Succeeds n →
        r.call n = .pay recipient amount approval →
        (∀ m < n, r.Succeeds m → ¬ (r.call m).Pays recipient) →
        (r.state n).allowedRecipients recipient = false →
        amount.toNat ≤ (r.state n).newPayeeCap.toNat := by
  refine ⟨r.knownRecipients_iff, ?_⟩
  intro n recipient amount approval hsucceeds hcall hfirst hoff
  have hstep := hsucceeds.step
  rw [hcall] at hstep
  have hallowed := hstep.allowed_of_pay
  rcases hallowed.newPayee with hknown | hlisted | hcap
  · obtain ⟨m, hm, hm', hpays⟩ := (r.knownRecipients_iff n recipient).mp hknown
    exact absurd hpays (hfirst m hm hm')
  · exact absurd (hoff.symm.trans hlisted) Bool.false_ne_true
  · exact hcap

end Run

end VeraKey
