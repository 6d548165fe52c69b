/-
Many accounts on many chains, called in any order: one approval is accepted once,
by the one account, chain and nonce it was made for.
-/
import VeraKey.FiniteRun

namespace VeraKey

open ByteCodec VeraKeyAccount

/-- Where an account lives. -/
structure Location where
  chainId : UInt64
  contractAddress : Address
deriving DecidableEq

/-- Any order of calls to any accounts; they share nothing but the hash function. -/
structure Network where
  keccak : Bytes → B256
  calls : ℕ → Location × Tx

namespace Network

variable (w : Network)

def host (location : Location) : Host := ⟨w.keccak, location.chainId, location.contractAddress⟩

/-- The account the `n`th call goes to. -/
def location (n : ℕ) : Location := (w.calls n).1

def tx (n : ℕ) : Tx := (w.calls n).2

/-- The accounts before the `n`th call.  Each starts as a fresh clone, and only
calls to it change it. -/
def state : ℕ → Location → VeraKeyAccount
  | 0 => fun _ => .fresh
  | n + 1 => Function.update (state n) (w.location n)
      ((state n (w.location n)).next (w.host (w.location n)) (w.tx n))

/-- The account the `n`th call goes to, before that call. -/
def before (n : ℕ) : VeraKeyAccount := w.state n (w.location n)

def Succeeds (n : ℕ) : Prop :=
  ∃ out, (w.before n).exec (w.host (w.location n)) (w.tx n).vm (w.tx n).call = .ok out

/-- The `n`th call succeeds on this approval. -/
def Accepts (n : ℕ) (approval : Approval) : Prop :=
  w.Succeeds n ∧ (w.tx n).call.approval = some approval

/-- The action encodings that proof-authorized calls hash. -/
def hashed : Set Bytes :=
  {preimage | ∃ n action, w.Succeeds n ∧
    (w.tx n).call.action (w.host (w.location n)) (w.before n) = some action ∧
    preimage = action.encode}

/-- The hash function has no collision among the actions that are approved. -/
def CollisionFree : Prop := Set.InjOn w.keccak w.hashed

/-- No nonce reaches its largest value. -/
def NonceFits : Prop :=
  ∀ n location, (w.state n location).nonce.toNat < 2 ^ 64 - 1

variable {w}

theorem state_of_ne {n : ℕ} {location : Location} (hne : location ≠ w.location n) :
    w.state (n + 1) location = w.state n location :=
  Function.update_of_ne hne _ _

theorem Succeeds.step {n : ℕ} (h : w.Succeeds n) :
    ∃ transfers, Step (w.host (w.location n)) (w.tx n).vm (w.before n) (w.tx n).call
      (w.state (n + 1) (w.location n)) transfers := by
  obtain ⟨out, hout⟩ := h
  refine ⟨out.transfers, ?_⟩
  have hnext : w.state (n + 1) (w.location n) = out.account := by
    rw [state, Function.update_self, VeraKeyAccount.next, ← before, hout]
  rw [hnext]
  exact step_of_exec hout

theorem state_of_not_succeeds {n : ℕ} (h : ¬ w.Succeeds n) :
    w.state (n + 1) (w.location n) = w.before n := by
  rw [state, Function.update_self, VeraKeyAccount.next, ← before]
  cases hout : (w.before n).exec (w.host (w.location n)) (w.tx n).vm (w.tx n).call with
  | ok out => exact absurd ⟨out, hout⟩ h
  | error failure => rfl

/-- No call lowers a nonce. -/
theorem nonce_le_succ (hnonce : w.NonceFits) (n : ℕ) (location : Location) :
    (w.state n location).nonce.toNat ≤ (w.state (n + 1) location).nonce.toNat := by
  by_cases hlocation : location = w.location n
  · subst hlocation
    by_cases h : w.Succeeds n
    · obtain ⟨transfers, hstep⟩ := h.step
      rcases hstep.nonce_cases with hsame | hnext
      · rw [hsame, before]
      · have hfits := hnonce n (w.location n)
        rw [hnext, before, UInt64.toNat_add, UInt64.toNat_one]
        omega
    · rw [state_of_not_succeeds h, before]
  · rw [state_of_ne hlocation]

theorem nonce_le_of_le (hnonce : w.NonceFits) (location : Location) {i j : ℕ}
    (hij : i ≤ j) :
    (w.state i location).nonce.toNat ≤ (w.state j location).nonce.toNat :=
  monotone_nat_of_le_succ (fun n => nonce_le_succ hnonce n location) hij

/-- An accepted approval approves an action, and uses up its nonce. -/
theorem Accepts.approved {n : ℕ} {approval : Approval} (h : w.Accepts n approval) :
    ∃ action, Approved (w.host (w.location n)) (w.tx n).vm (w.before n)
      (w.state (n + 1) (w.location n)) (w.tx n).call action approval := by
  obtain ⟨transfers, hstep⟩ := h.1.step
  exact hstep.approved h.2

/-- Client data that is accepted twice was accepted for one action. -/
theorem action_unique (hinj : w.CollisionFree) {i j : ℕ} {approval approval' : Approval}
    {action action' : Action} (hi : w.Accepts i approval) (hj : w.Accepts j approval')
    (hsame : approval.clientDataJson = approval'.clientDataJson)
    (happroved : Approved (w.host (w.location i)) (w.tx i).vm (w.before i)
      (w.state (i + 1) (w.location i)) (w.tx i).call action approval)
    (happroved' : Approved (w.host (w.location j)) (w.tx j).vm (w.before j)
      (w.state (j + 1) (w.location j)) (w.tx j).call action' approval') :
    action = action' := by
  have hcarries := happroved.carries
  rw [hsame] at hcarries
  have hhash : w.keccak action.encode = w.keccak action'.encode :=
    hcarries.unique happroved'.carries
  exact Action.encode_inj (hinj ⟨i, action, hi.1, happroved.action_eq, rfl⟩
    ⟨j, action', hj.1, happroved'.action_eq, rfl⟩ hhash)

/-- A nonce that was used is behind the account. -/
theorem nonce_lt_of_lt (hnonce : w.NonceFits) {i j : ℕ} (hij : i < j)
    (hlocation : w.location j = w.location i)
    (hnext : (w.state (i + 1) (w.location i)).nonce = (w.before i).nonce + 1) :
    (w.before i).nonce.toNat < (w.before j).nonce.toNat := by
  have hle := nonce_le_of_le hnonce (w.location i) (Nat.succ_le_of_lt hij)
  have hfits := hnonce i (w.location i)
  rw [Nat.succ_eq_add_one, hnext, UInt64.toNat_add, UInt64.toNat_one] at hle
  rw [before, before, hlocation]
  rw [before] at hle
  omega

theorem location_eq {i j : ℕ}
    (hchain : (w.location i).chainId = (w.location j).chainId)
    (haddress : (w.location i).contractAddress = (w.location j).contractAddress) :
    w.location i = w.location j := by
  cases hi : w.location i
  cases hj : w.location j
  rw [hi, hj] at hchain haddress
  subst hchain haddress
  rfl

end Network

namespace Network

variable {r : Run}

/-- A run is a network of which only one account is called. -/
def ofRun (r : Run) : Network where
  keccak := r.host.keccak
  calls n := (⟨r.host.chainId, r.host.contractAddress⟩, r.txs n)

theorem ofRun_before (r : Run) (n : ℕ) : (ofRun r).before n = r.state n := by
  induction n with
  | zero => rfl
  | succ n ih =>
      have hnext : (ofRun r).before (n + 1) =
          ((ofRun r).before n).next r.host (r.txs n) := Function.update_self _ _ _
      rw [hnext, ih, Run.state_succ]

theorem ofRun_state_of_ne {location : Location}
    (hne : location ≠ ⟨r.host.chainId, r.host.contractAddress⟩) (n : ℕ) :
    (ofRun r).state n location = .fresh := by
  induction n with
  | zero => rfl
  | succ n ih => rw [state_of_ne hne, ih]

theorem ofRun_succeeds {n : ℕ} : (ofRun r).Succeeds n ↔ r.Succeeds n := by
  rw [Network.Succeeds, ofRun_before]
  rfl

theorem ofRun_nonceFits (h : r.NonceFits) : (ofRun r).NonceFits := by
  intro n location
  by_cases hlocation : location = ⟨r.host.chainId, r.host.contractAddress⟩
  · rw [hlocation]
    have hbefore := ofRun_before r n
    rw [before] at hbefore
    exact hbefore ▸ h n
  · rw [ofRun_state_of_ne hlocation]
    decide

theorem encode_mem_hashed {host : Host} {s : VeraKeyAccount} {call : Call} {action : Action}
    (haction : call.action host s = some action) :
    action.encode ∈ call.hashed host s := by
  cases call with
  | pay => exact Option.some.inj haction ▸ List.mem_cons_self
  | scheduleChange =>
      exact Option.some.inj haction ▸ List.mem_cons_of_mem _ List.mem_cons_self
  | restrict =>
      exact Option.some.inj haction ▸ List.mem_cons_of_mem _ List.mem_cons_self
  | cancelChange => exact Option.some.inj haction ▸ List.mem_cons_self
  | cancelRecovery => exact Option.some.inj haction ▸ List.mem_cons_self
  | _ => cases haction

theorem ofRun_collisionFree (h : r.CollisionFree) : (ofRun r).CollisionFree := by
  apply h.mono
  rintro preimage ⟨n, action, hsucceeds, haction, rfl⟩
  rw [ofRun_before] at haction
  exact ⟨n, ofRun_succeeds.mp hsucceeds, encode_mem_hashed haction⟩

end Network

end VeraKey
