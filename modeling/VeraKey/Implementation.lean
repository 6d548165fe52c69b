/-
Accounts that nobody owns: the implementation contract, which its constructor locks, and a
clone before it is initialized.
-/
import VeraKey.Deployment

namespace VeraKey

open ByteCodec Guard

namespace VeraKeyAccount

/-- Locks the implementation contract itself. -/
def constructor (s : VeraKeyAccount) : VeraKeyAccount := { s with initialized := true }

/-- Nobody can approve a call, and nothing waits to take effect. -/
structure Unowned (s : VeraKeyAccount) : Prop where
  owners : ∀ key, s.owners key = false
  guardian : s.guardianCommitment = 0
  recovery : s.recoveryEta = 0
  pending : ∀ changeId, (s.pending changeId).eta = 0

theorem Unowned.fresh : Unowned VeraKeyAccount.fresh where
  owners := fun _ => rfl
  guardian := rfl
  recovery := rfl
  pending := fun _ => rfl

theorem Unowned.constructor {s : VeraKeyAccount} (hunowned : s.Unowned) :
    s.constructor.Unowned where
  owners := hunowned.owners
  guardian := hunowned.guardian
  recovery := hunowned.recovery
  pending := hunowned.pending

end VeraKeyAccount

open VeraKeyAccount

variable {host : Host} {vm : Vm} {s s' : VeraKeyAccount} {call : Call}
  {transfers : List Transfer}

theorem Authorized.not_unowned {action : Action} {approval : Approval}
    {payment : Option ClientData.Payment}
    (hauth : Authorized host vm s action approval payment) : ¬ s.Unowned := by
  intro hunowned
  have howner := hauth.owner
  rw [VeraKeyAccount.owner, hunowned.owners] at howner
  contradiction

/-- Of an account that nobody owns, every entry point asks for an owner, a guardian or
something that waits, but for `initialize`. -/
theorem Step.of_unowned (hstep : Step host vm s call s' transfers) (hunowned : s.Unowned) :
    s.initialized = false ∧ ∃ c, call = .initializeAccount c := by
  cases hstep with
  | initializeAccount hinit => exact ⟨hinit, _, rfl⟩
  | pay _ _ _ hauth => exact absurd hunowned hauth.not_unowned
  | scheduleChange _ _ hauth => exact absurd hunowned hauth.not_unowned
  | restrict _ _ _ hauth => exact absurd hunowned hauth.not_unowned
  | restrictFreeze hauth => exact absurd hunowned hauth.not_unowned
  | applyChange _ heta => exact absurd (hunowned.pending _) heta
  | cancelChange heta => exact absurd (hunowned.pending _) heta
  | guardianCancelChange hopens => exact absurd hunowned.guardian hopens.1
  | guardianFreeze _ hopens => exact absurd hunowned.guardian hopens.1
  | initiateRecovery _ _ hopens => exact absurd hunowned.guardian hopens.1
  | executeRecovery heta => exact absurd hunowned.recovery heta
  | cancelRecovery heta => exact absurd hunowned.recovery heta
  | guardianCancelRecovery hopens => exact absurd hunowned.guardian hopens.1

namespace VeraKeyAccount

theorem next_of_not_ok {tx : Tx} (hfails : ∀ out, s.exec host tx.vm tx.call ≠ .ok out) :
    s.next host tx = s := by
  rw [next]
  cases hexec : s.exec host tx.vm tx.call with
  | error failure => rfl
  | ok out => exact absurd hexec (hfails out)

/-- Calls that all fail leave the storage as it was. -/
theorem run_of_not_ok {txs : ℕ → Tx} {n : ℕ}
    (hfails : ∀ i, i < n → ∀ out,
      (History.run (next host) s txs i).exec host (txs i).vm (txs i).call ≠ .ok out) :
    History.run (next host) s txs n = s := by
  induction n with
  | zero => rfl
  | succ n ih =>
      have hbefore := ih fun i hi => hfails i (Nat.lt_succ_of_lt hi)
      have hlast := hfails n (Nat.lt_succ_self n)
      rw [hbefore] at hlast
      change (History.run (next host) s txs n).next host (txs n) = s
      rw [hbefore]
      exact next_of_not_ok hlast

theorem Unowned.not_ok (hunowned : s.Unowned) (hinit : s.initialized = true) (call : Call)
    (out : Outcome) : s.exec host vm call ≠ .ok out := by
  intro hexec
  obtain ⟨hfresh, -⟩ := (step_of_exec hexec).of_unowned hunowned
  rw [hinit] at hfresh
  contradiction

theorem run_constructor (host : Host) (txs : ℕ → Tx) (n : ℕ) :
    History.run (next host) (constructor .fresh) txs n = constructor .fresh := by
  induction n with
  | zero => rfl
  | succ n ih =>
      change (History.run (next host) (constructor .fresh) txs n).next host (txs n) = _
      rw [ih]
      exact next_of_not_ok (Unowned.fresh.constructor.not_ok rfl (txs n).call)

/-- Whatever is called, no entry point of the implementation succeeds and its storage stays as
the constructor left it; the first call of a clone that succeeds initializes it, and a valid
configuration does. -/
theorem inert (host : Host) (txs : ℕ → Tx) (n : ℕ) :
    (History.run (next host) (constructor .fresh) txs n = constructor .fresh ∧
      ∀ out, (History.run (next host) (constructor .fresh) txs n).exec host (txs n).vm
        (txs n).call ≠ .ok out) ∧
    ((∀ i, i < n → ∀ out, (History.run (next host) .fresh txs i).exec host (txs i).vm
        (txs i).call ≠ .ok out) →
      History.run (next host) .fresh txs n = .fresh ∧
      ∀ out, (History.run (next host) .fresh txs n).exec host (txs n).vm (txs n).call =
        .ok out → ∃ c, (txs n).call = .initializeAccount c) ∧
    (∀ vm c, c.valid = true →
      ∃ out, exec host vm .fresh (.initializeAccount c) = .ok out) := by
  have hlocked := run_constructor host txs n
  refine ⟨⟨hlocked, ?_⟩, ?_, fun vm c hvalid => initializeAccount_fresh hvalid host vm⟩
  · rw [hlocked]
    exact Unowned.fresh.constructor.not_ok rfl (txs n).call
  · intro hfails
    have hfresh := run_of_not_ok hfails
    refine ⟨hfresh, ?_⟩
    intro out hexec
    rw [hfresh] at hexec
    exact ((step_of_exec hexec).of_unowned .fresh).2

end VeraKeyAccount

end VeraKey
