/-
Bounds on a deployment's configuration, shared by the factory and by every
account it initializes.
-/
import VeraKey.Word

namespace VeraKey

namespace Config

/-- Longest change or recovery delay (seconds). -/
def maxDelay : UInt64 := 2592000

/-- Longest origin, in bytes. -/
def maxOriginLen : ℕ := 128

/-- The policy every account of a deployment starts with. -/
structure Policy where
  perTxCap : U256
  dailyCap : U256
  newPayeeCap : U256
  changeDelay : UInt64
  recoveryDelay : UInt64
  maxFee : U256
  originLen : ℕ
deriving DecidableEq

/-- Every account could be initialized with `policy`. -/
def isValidPolicy (policy : Policy) : Bool :=
  let max : U256 := 2 ^ 128 - 1
  policy.originLen > 0 && policy.originLen ≤ maxOriginLen &&
    policy.perTxCap ≠ 0 && policy.perTxCap ≤ policy.dailyCap &&
    policy.dailyCap ≤ max && policy.newPayeeCap ≤ max &&
    policy.changeDelay ≤ maxDelay && policy.recoveryDelay ≤ maxDelay &&
    policy.maxFee ≤ (2 ^ 64 - 1 : U256) && policy.maxFee ≤ policy.perTxCap

theorem isValidPolicy_eq_true {policy : Policy} :
    isValidPolicy policy = true ↔
      (0 < policy.originLen ∧ policy.originLen ≤ maxOriginLen) ∧
        (policy.perTxCap ≠ 0 ∧ policy.perTxCap ≤ policy.dailyCap) ∧
        (policy.dailyCap ≤ 2 ^ 128 - 1 ∧ policy.newPayeeCap ≤ 2 ^ 128 - 1) ∧
        (policy.changeDelay ≤ maxDelay ∧ policy.recoveryDelay ≤ maxDelay) ∧
        policy.maxFee ≤ 2 ^ 64 - 1 ∧ policy.maxFee ≤ policy.perTxCap := by
  simp only [isValidPolicy, Bool.and_eq_true, decide_eq_true_eq, gt_iff_lt, and_assoc]

/-- A valid policy fits the widths it is stored in. -/
theorem isValidPolicy_fits {policy : Policy} (hvalid : isValidPolicy policy = true) :
    policy.perTxCap.toNat < 2 ^ 128 ∧ policy.dailyCap.toNat < 2 ^ 128 ∧
      policy.newPayeeCap.toNat < 2 ^ 128 ∧ policy.maxFee.toNat < 2 ^ 64 := by
  obtain ⟨-, ⟨-, hperTx⟩, ⟨hdaily, hnewPayee⟩, -, hfee, -⟩ :=
    isValidPolicy_eq_true.mp hvalid
  have hmax : (2 ^ 128 - 1 : U256).toNat = 2 ^ 128 - 1 := by simp
  have hmax64 : (2 ^ 64 - 1 : U256).toNat = 2 ^ 64 - 1 := by simp
  rw [BitVec.le_def] at hperTx hdaily hnewPayee hfee
  rw [hmax] at hdaily hnewPayee
  rw [hmax64] at hfee
  omega

end Config

end VeraKey
