/-
Finite histories.  A list of transactions is a run when only calls that fail come
after it, and a hash function that is known on some inputs is a table; what is
assumed of such a run is found out by running it.
-/
import VeraKey.Assumptions

namespace VeraKey

open ByteCodec VeraKeyAccount

/-! ## Hash functions given by a table -/

/-- The values of a hash function on some inputs, all different from each other and
from the one value it has elsewhere. -/
structure HashTable where
  entries : List (Bytes × B256)
  other : B256
  nodup : (other :: entries.map Prod.snd).Nodup

namespace HashTable

variable {t : HashTable} {known preimage : Bytes} {value : B256}

def hash (t : HashTable) (preimage : Bytes) : B256 :=
  (t.entries.lookup preimage).getD t.other

/-- The inputs the table lists. -/
def inputs (t : HashTable) : List Bytes := t.entries.map Prod.fst

theorem mem_of_lookup (h : t.entries.lookup preimage = some value) :
    (preimage, value) ∈ t.entries := by
  obtain ⟨before, after, heq, -⟩ := List.lookup_eq_some_iff.mp h
  rw [heq]
  exact List.mem_append_right _ List.mem_cons_self

theorem exists_lookup (hknown : known ∈ t.inputs) :
    ∃ value, t.entries.lookup known = some value := by
  obtain ⟨entry, hmem, rfl⟩ := List.mem_map.mp hknown
  exact Option.isSome_iff_exists.mp
    (List.lookup_isSome_iff.mpr ⟨entry, hmem, BEq.rfl⟩)

theorem hash_ne_other (hknown : known ∈ t.inputs) : t.hash known ≠ t.other := by
  obtain ⟨value, hlookup⟩ := exists_lookup hknown
  have hnot := (List.nodup_cons.mp t.nodup).1
  rw [hash, hlookup, Option.getD_some]
  rintro rfl
  exact hnot (List.mem_map_of_mem (f := Prod.snd) (mem_of_lookup hlookup))

/-- A listed input collides with no other input. -/
theorem eq_of_hash_eq (hknown : known ∈ t.inputs)
    (heq : t.hash preimage = t.hash known) : preimage = known := by
  obtain ⟨value, hlookup⟩ := exists_lookup hknown
  cases hother : t.entries.lookup preimage with
  | none =>
      rw [hash, hother, Option.getD_none] at heq
      exact absurd heq.symm (hash_ne_other hknown)
  | some value' =>
      rw [hash, hash, hlookup, hother, Option.getD_some, Option.getD_some] at heq
      have hsame := List.inj_on_of_nodup_map (List.nodup_cons.mp t.nodup).2
        (mem_of_lookup hother) (mem_of_lookup hlookup) heq
      exact congrArg Prod.fst hsame

end HashTable

/-! ## Finite runs -/

/-- The transactions of a list, then a call that never succeeds. -/
def txAt (txs : List Tx) (last : Vm) (n : ℕ) : Tx :=
  txs.getD n ⟨last, .initiateRecovery 0 0⟩

/-- A list of transactions, and what is seen after the last of them. -/
structure FiniteRun where
  host : Host
  txs : List Tx
  last : Vm
  clock_mono : ∀ n < txs.length,
    (txAt txs last n).vm.blockTimestamp.toNat ≤
      (txAt txs last (n + 1)).vm.blockTimestamp.toNat

namespace FiniteRun

variable {f : FiniteRun} {n : ℕ}

theorem txAt_of_le {txs : List Tx} {last : Vm} (h : txs.length ≤ n) :
    txAt txs last n = ⟨last, .initiateRecovery 0 0⟩ := by
  rw [txAt, List.getD_eq_default _ _ h]

def run (f : FiniteRun) : Run where
  host := f.host
  txs := txAt f.txs f.last
  clock_mono := by
    apply monotone_nat_of_le_succ
    intro n
    by_cases h : n < f.txs.length
    · exact f.clock_mono n h
    · rw [txAt_of_le (Nat.le_of_not_lt h), txAt_of_le (by omega)]

theorem run_txs_of_le (h : f.txs.length ≤ n) :
    f.run.txs n = ⟨f.last, .initiateRecovery 0 0⟩ :=
  txAt_of_le h

/-- Nothing succeeds after the list. -/
theorem not_succeeds (h : f.txs.length ≤ n) : ¬ f.run.Succeeds n := by
  intro hsucceeds
  have hstep := hsucceeds.step
  have hcall : f.run.call n = .initiateRecovery 0 0 := by
    rw [Run.call, run_txs_of_le h]
  rw [hcall] at hstep
  generalize f.run.state (n + 1) = s', f.run.transfers n = made at hstep
  generalize hzero : (0 : B256) = value at hstep
  cases hstep with
  | initiateRecovery nullifier => exact nullifier.ne_zero hzero.symm

theorem lt_of_succeeds (h : f.run.Succeeds n) : n < f.txs.length := by
  by_contra hle
  exact not_succeeds (Nat.le_of_not_lt hle) h

theorem state_of_le (h : f.txs.length ≤ n) :
    f.run.state n = f.run.state f.txs.length :=
  History.eq_of_unchanged (f := f.run.state) h fun _ hk _ =>
    (Run.state_succ_of_not_succeeds (not_succeeds hk)).1

theorem now_le_last (n : ℕ) : (f.run.now n).toNat ≤ f.last.blockTimestamp.toNat := by
  have hle := f.run.now_mono (Nat.le_max_left n f.txs.length)
  rwa [Run.now, Run.now, Run.vm, Run.vm, run_txs_of_le (Nat.le_max_right _ _)] at hle

/-- A bound on the states of the list bounds every state. -/
theorem le_of_counter (counter : VeraKeyAccount → ℕ)
    (hcounter : ∀ n, counter (f.run.state n) ≤ n) (n : ℕ) :
    counter (f.run.state n) ≤ f.txs.length := by
  by_cases h : f.txs.length ≤ n
  · rw [state_of_le h]
    exact hcounter _
  · exact (hcounter n).trans (Nat.le_of_not_le h)

theorem epochFits (hlength : f.txs.length < 2 ^ 64 - 1) : f.run.EpochFits := by
  intro n
  have hle := le_of_counter (fun s => s.ownerEpoch.toNat) f.run.ownerEpoch_le n
  omega

theorem nonceFits (hlength : f.txs.length < 2 ^ 64 - 1) : f.run.NonceFits := by
  intro n
  have hle := le_of_counter (fun s => s.nonce.toNat) f.run.nonce_le n
  omega

/-- What a finite run has to be checked for. -/
theorem regular {t : HashTable} (htable : f.host.keccak = t.hash)
    (hzero : ∀ known ∈ t.inputs, t.hash known ≠ 0)
    (hhashed : ∀ n < f.txs.length,
      ∀ preimage ∈ (f.run.call n).hashed f.host (f.run.state n), preimage ∈ t.inputs)
    (hfirst : 0 < (f.run.now 0).toNat)
    (hlast : f.last.blockTimestamp.toNat < 2 ^ 63) : f.run.Regular := by
  have hinputs : ∀ preimage ∈ f.run.hashed, preimage ∈ t.inputs := by
    rintro preimage ⟨n, hsucceeds, hmem⟩
    exact hhashed n (lt_of_succeeds hsucceeds) preimage hmem
  constructor
  · exact fun n => (now_le_last n).trans_lt hlast
  · exact fun n => hfirst.trans_le (f.run.now_mono n.zero_le)
  · intro preimage _ known hknown heq
    rw [show f.run.host.keccak = t.hash from htable] at heq
    exact HashTable.eq_of_hash_eq (hinputs known hknown) heq
  · intro preimage hmem
    rw [show f.run.host.keccak = t.hash from htable]
    exact hzero preimage (hinputs preimage hmem)

end FiniteRun

theorem Run.succeeds_of_isOk {r : Run} {n : ℕ} (h : (r.outcome n).isOk = true) :
    r.Succeeds n := by
  cases hout : r.outcome n with
  | ok out => exact ⟨out, hout⟩
  | error failure =>
      rw [hout] at h
      exact absurd h Bool.false_ne_true

/-! ## One history

An owner names a guardian and pays once with a payment sheet.  The guardian takes
over, freezes the account and recovers it for another owner.  The hashes are the
Keccak-256 and SHA-256 values of what this history hashes. -/

namespace Sample

def account : Address := .ofNat 20 4
def guardian : Address := .ofNat 20 6
def payee : Address := .ofNat 20 8
def firstOwner : B256 := .ofNat 32 7
def nextOwner : B256 := .ofNat 32 8
def salt : B256 := .ofNat 32 9

def commitment : B256 :=
  .ofNat 32 0xb140b8bfae86aebad38061fec9f904bde9874185af69719b0dced6218358c365

def dataHash : B256 :=
  .ofNat 32 0xcbeb40517b9f2597f5b5c2fa6149a9ca5009c37958f6f797eb0ed215d6742bdc

def changeId : B256 :=
  .ofNat 32 0x8eb59c36ff61178e86099ea231f150d9213c883f6f820628bd6dc1b5ce140ddd

def paymentId : B256 :=
  .ofNat 32 0x1342f59da3793ad457a8ce247f4a7191129bb009b708111675787b1a571e930f

def rpIdHash : B256 :=
  .ofNat 32 0x9802a17315af590d7d8cb92ca5cbe42798061a771c9d96ce4c94d9d07cd1490e

def scheduleAction : Action where
  chainId := 421614
  account := account
  nonce := 0
  kind := Kind.scheduleChange
  target := 0
  amount := 0
  dataHash := dataHash
  fee := 2
  deadline := 1300

def payAction : Action where
  chainId := 421614
  account := account
  nonce := 1
  kind := Kind.pay
  target := payee
  amount := 20
  dataHash := 0
  fee := 2
  deadline := 1300

def keccaks : HashTable where
  entries := [
    (ownerKeyPreimage 0 firstOwner,
      .ofNat 32 0x6d5257204ebe7d88fd91ae87941cb2dd9d8062b64ae5a2bd2d28ec40b9fbf6df),
    (ownerKeyPreimage 1 nextOwner,
      .ofNat 32 0xad67d757c34507f157cacfa2e3153e9f260a2244f30428821be7be64587ac55f),
    (Changes.guardianPreimage account guardian salt, commitment),
    (Changes.setGuardian :: commitment.bytes, dataHash),
    (scheduleAction.encode, changeId),
    (payAction.encode, paymentId)]
  other := 0
  nodup := by decide +kernel

def host : Host := ⟨keccaks.hash, 421614, account⟩

def scheduleJson : Bytes :=
  ascii "\x7b\"type\":\"webauthn.get\",\"challenge\":\"" ++
    ascii "jrWcNv9hF46GCZ6iMfFQ2SE8iD9vggYovW3Btc4UDd0" ++
    ascii "\",\"origin\":\"https://pay.example\"\x7d"

def payJson : Bytes :=
  ascii "\x7b\"type\":\"payment.get\",\"challenge\":\"" ++
    ascii "E0L1naN5OtRXqM4kf0pxkRKbsAm3CBEWdXh7Glcekw8" ++
    ascii "\",\"origin\":\"https://pay.example\",\"crossOrigin\":false," ++
    ascii "\"payment\":\x7b\"rpId\":\"pay.example\"," ++
    ascii "\"topOrigin\":\"https://pay.example\"," ++
    ascii "\"payeeName\":\"0x0000000000000000000000000000000000000008\"," ++
    ascii "\"total\":\x7b\"value\":\"0.000022\",\"currency\":\"USD\"\x7d," ++
    ascii "\"instrument\":\x7b\"icon\":\"\",\"displayName\":\"USDG\"\x7d\x7d\x7d"

def digests : HashTable where
  entries := [
    (scheduleJson,
      .ofNat 32 0x605894a2aa687c217b89c545805ba1aa849c6ccd46a9245313cd4ab06784130e),
    (payJson,
      .ofNat 32 0x997f22908da2fb96639c2090d3015d2de16add9f600c98ab31d5f157a1a97f01),
    (ascii "pay.example", rpIdHash)]
  other := 0
  nodup := by decide +kernel

/-- A block in which proofs verify and the token accepts every transfer. -/
def vmAt (now : UInt64) (sender : Address) : Vm where
  blockTimestamp := now
  msgSender := sender
  sha256 data := some (digests.hash data).bytes
  verify _ _ _ := true
  transfer _ _ := true

def configuration : Configuration where
  appId := .ofNat 32 5
  ownerNullifier := firstOwner
  verifier := .ofNat 20 2
  usdg := .ofNat 20 1
  rpIdHash := rpIdHash
  origin := ascii "https://pay.example"
  perTxCap := 100
  dailyCap := 1000
  newPayeeCap := 50
  changeDelay := 10
  recoveryDelay := 5
  feeRecipient := .ofNat 20 3
  maxFee := 3

def approvalOf (json : Bytes) : Approval where
  fee := 2
  deadline := 1300
  nullifier := firstOwner
  clientDataJson := json
  proof := []

def history : FiniteRun where
  host := host
  txs := [
    ⟨vmAt 1000 0, .initializeAccount configuration⟩,
    ⟨vmAt 1010 0,
      .scheduleChange Changes.setGuardian commitment.bytes (approvalOf scheduleJson)⟩,
    ⟨vmAt 1012 0, .pay payee 20 (approvalOf payJson)⟩,
    ⟨vmAt 1025 0, .applyChange changeId Changes.setGuardian commitment.bytes⟩,
    ⟨vmAt 1030 guardian, .guardianFreeze salt⟩,
    ⟨vmAt 1040 guardian, .initiateRecovery nextOwner salt⟩,
    ⟨vmAt 1045 0, .executeRecovery⟩]
  last := vmAt 1050 0
  clock_mono := by decide +kernel

abbrev run : Run := history.run

/-- Every call succeeds, and hashes only what the table lists. -/
theorem checked : (∀ n < 7, (run.outcome n).isOk = true ∧
      ∀ preimage ∈ (run.call n).hashed host (run.state n), preimage ∈ keccaks.inputs) ∧
    (run.state 6).ownerEpoch = 0 ∧ (run.state 6).recoveryNullifier = nextOwner ∧
    (run.state 3).guardianCommitment = 0 ∧
    (run.state (3 + 1)).guardianCommitment = commitment := by
  decide +kernel

theorem succeeds {n : ℕ} (h : n < 7) : run.Succeeds n :=
  Run.succeeds_of_isOk (checked.1 n h).1

theorem regular : run.Regular :=
  FiniteRun.regular (f := history) rfl (by decide +kernel)
    (fun n hn => (checked.1 n hn).2) (by decide +kernel) (by decide +kernel)

theorem nonceFits : run.NonceFits := FiniteRun.nonceFits (by decide)

theorem initialized {n : ℕ} (h : 1 ≤ n) : (run.state n).initialized = true :=
  Run.initialized_of_le h (by decide +kernel)

end Sample

end VeraKey
