/-
The accounts a factory deploys.  Each is initialized in the call that deploys it, once
and with the factory's configuration, whatever else is called in whatever order.
-/
import VeraKey.Factory
import VeraKey.FundsFlow

namespace VeraKey

open ByteCodec Guard VeraKeyAccount

/-! ## Contracts -/

/-- The code at an address: a clone of the account with its storage, or any other. -/
inductive Contract
  | account (s : VeraKeyAccount)
  | other

/-- One successful call of `initialize`. -/
structure Initialization where
  account : Address
  caller : Address
  configuration : Configuration

/-- The code at every address, and every successful `initialize`, the last one first. -/
structure Contracts where
  code : Address → Option Contract
  initializations : List Initialization

namespace Contracts

variable (keccak : Bytes → B256) (chainId : UInt64) (w : Contracts)

/-- The initializations of one account. -/
def initializationsOf (address : Address) : List Initialization :=
  w.initializations.filter fun i => i.account = address

/-- A CREATE2 of a clone: it fails where there is code already, and may for want of gas. -/
def create2 (deployer : Address) (salt : B256) (initCode : Bytes) (deploys : Bool) :
    Option (Contracts × Address) :=
  let address := create2Address keccak deployer salt initCode
  if deploys ∧ (w.code address).isNone then
    some ({ w with code := Function.update w.code address (some (.account .fresh)) }, address)
  else none

/-- A call to an address; a clone runs the account's code on its own storage. -/
def call (address : Address) (vm : Vm) (call : Call) : Except Failure Contracts :=
  match w.code address with
  | some (.account s) => do
      let out ← s.exec ⟨keccak, chainId, address⟩ vm call
      return {
        code := Function.update w.code address (some (.account out.account))
        initializations := match call with
          | .initializeAccount c => ⟨address, vm.msgSender, c⟩ :: w.initializations
          | _ => w.initializations }
  | _ => .ok w

end Contracts

/-! ## The factory's call -/

namespace VeraKeyFactory

variable (keccak : Bytes → B256) (chainId : UInt64) (self : Address) (f : VeraKeyFactory)

/-- Deploys and initializes the account for `(appId, nullifier)`; returns the existing address
if it is already deployed. -/
def createAccount (w : Contracts) (vm : Vm) (deploys : Bool) (appId nullifier : B256) :
    Except FactoryError (Contracts × Address) := do
  rejectIf (¬ isFieldElement appId ∨ ¬ isFieldElement nullifier ∨ nullifier = 0)
    .invalidIdentifier
  let initCode := Clone.initCode f.implementation
  let salt := accountSalt keccak appId nullifier f.configHash
  let predicted := create2Address keccak self salt initCode
  if (w.code predicted).isSome then return (w, predicted)
  let (w, account) ← orElse (w.create2 keccak self salt initCode deploys) .deploymentFailed
  let w ← (w.call keccak chainId account { vm with msgSender := self }
    (.initializeAccount (f.configuration appId nullifier))).mapError
      fun _ => .initializationFailed
  return (w, account)

end VeraKeyFactory

/-- A configuration that the constructor accepts is accepted by `initialize`, for every pair
that `create_account` accepts. -/
theorem FactoryConfig.configuration_valid {c : FactoryConfig} (hvalid : c.valid = true)
    (pair : AccountPair) : (c.configuration pair.appId pair.nullifier).valid = true := by
  simp only [FactoryConfig.valid, Bool.and_eq_true] at hvalid
  obtain ⟨⟨⟨⟨-, hverifier⟩, husdg⟩, hrecipient⟩, hpolicy⟩ := hvalid
  simp only [Configuration.valid, Bool.and_eq_true]
  exact ⟨⟨⟨⟨⟨⟨pair.appId_valid, pair.nullifier_valid⟩, decide_eq_true pair.nullifier_ne_zero⟩,
    hverifier⟩, husdg⟩, hrecipient⟩, hpolicy⟩

/-- `initialize` of a fresh clone with a valid configuration succeeds: every value fits the
width it is stored in. -/
theorem VeraKeyAccount.initializeAccount_fresh {c : Configuration} (hvalid : c.valid = true)
    (host : Host) (vm : Vm) :
    ∃ out, VeraKeyAccount.fresh.initializeAccount host vm c = .ok out := by
  have hpolicy : Config.isValidPolicy c.policy = true := by
    simp only [Configuration.valid, Bool.and_eq_true] at hvalid
    exact hvalid.2
  obtain ⟨hperTx, hdaily, hnewPayee, hmaxFee⟩ := Config.isValidPolicy_fits hpolicy
  have hperTx' : c.perTxCap.toU128? = some (c.perTxCap.setWidth 128) := if_pos hperTx
  have hdaily' : c.dailyCap.toU128? = some (c.dailyCap.setWidth 128) := if_pos hdaily
  have hnewPayee' : c.newPayeeCap.toU128? = some (c.newPayeeCap.setWidth 128) := if_pos hnewPayee
  have hmaxFee' : c.maxFee.toU64? = some (UInt64.ofNat c.maxFee.toNat) := if_pos hmaxFee
  rw [initializeAccount, rejectIf_bind_of_not (by decide),
    rejectIf_bind_of_not (not_not.mpr hvalid), hperTx', hdaily', hnewPayee', hmaxFee']
  exact ⟨_, rfl⟩

theorem Step.initialized_of_initialize {host : Host} {vm : Vm} {s s' : VeraKeyAccount}
    {c : Configuration} {transfers : List Transfer}
    (h : Step host vm s (.initializeAccount c) s' transfers) : s'.initialized = true := by
  cases h with
  | initializeAccount => rfl

/-- An initialized account is not initialized again. -/
theorem Step.ne_initialize {host : Host} {vm : Vm} {s s' : VeraKeyAccount} {call : Call}
    {transfers : List Transfer} (h : Step host vm s call s' transfers)
    (hinit : s.initialized = true) (c : Configuration) : call ≠ .initializeAccount c := by
  rintro rfl
  cases h with
  | initializeAccount hfresh => exact absurd (hinit.symm.trans hfresh) (by decide)

/-! ## Sequences of calls -/

/-- What can happen next: anyone asks the factory for an account, anyone calls an account, or
other code appears somewhere. -/
inductive FactoryEvent
  | createAccount (vm : Vm) (deploys : Bool) (appId nullifier : B256)
  | call (address : Address) (vm : Vm) (call : Call)
  | other (address : Address)

/-- A factory that was constructed, and what happens around it. -/
structure FactoryNetwork where
  keccak : Bytes → B256
  chainId : UInt64
  self : Address
  config : FactoryConfig
  factory : VeraKeyFactory
  constructed : VeraKeyFactory.constructor keccak config = .ok factory
  events : ℕ → FactoryEvent

namespace FactoryNetwork

variable (net : FactoryNetwork)

def createAccount (w : Contracts) (vm : Vm) (deploys : Bool) (appId nullifier : B256) :
    Except FactoryError (Contracts × Address) :=
  net.factory.createAccount net.keccak net.chainId net.self w vm deploys appId nullifier

def address (appId nullifier : B256) : Address :=
  net.factory.accountAddress net.keccak net.self appId nullifier

def next (w : Contracts) : FactoryEvent → Contracts
  | .createAccount vm deploys appId nullifier =>
      match net.createAccount w vm deploys appId nullifier with
      | .ok (w', _) => w'
      | .error _ => w
  | .call address vm call =>
      match w.call net.keccak net.chainId address vm call with
      | .ok w' => w'
      | .error _ => w
  | .other address =>
      if (w.code address).isSome then w
      else { w with code := Function.update w.code address (some .other) }

/-- Before the first event there is no account. -/
def start : Contracts := ⟨fun _ => none, []⟩

/-- The contracts before the `n`th event. -/
def state (n : ℕ) : Contracts := History.run net.next start net.events n

theorem state_succ (n : ℕ) : net.state (n + 1) = net.next (net.state n) (net.events n) := rfl

/-- What `initialize` is given for the account of a pair. -/
def initialization (pair : AccountPair) : Initialization where
  account := net.address pair.appId pair.nullifier
  caller := net.self
  configuration := net.config.configuration pair.appId pair.nullifier

variable {net} {w w' : Contracts} {vm : Vm} {deploys : Bool} {appId nullifier : B256}
  {address : Address}

variable (net) in
theorem factory_eq : net.config.valid = true ∧
    net.factory = VeraKeyFactory.configured net.keccak net.config := by
  have hconstructed := net.constructed
  rw [VeraKeyFactory.constructor, bind_eq_ok] at hconstructed
  obtain ⟨_, hvalid, hfactory⟩ := hconstructed
  rw [rejectIf_eq_ok, not_not] at hvalid
  exact ⟨hvalid, (pure_eq_ok.mp hfactory).symm⟩

theorem configuration_factory (appId nullifier : B256) :
    net.factory.configuration appId nullifier = net.config.configuration appId nullifier := by
  rw [net.factory_eq.2]
  rfl

variable (net) in
/-- The call that the factory makes to a clone it just deployed. -/
theorem call_fresh (w : Contracts) (vm : Vm) (pair : AccountPair) :
    ∃ s, s.initialized = true ∧ s.settings = (net.initialization pair).configuration.settings ∧
      Contracts.call net.keccak net.chainId
          { w with code :=
              Function.update w.code (net.initialization pair).account (some (.account .fresh)) }
          (net.initialization pair).account { vm with msgSender := net.self }
          (.initializeAccount (net.factory.configuration pair.appId pair.nullifier)) =
        .ok ⟨Function.update w.code (net.initialization pair).account (some (.account s)),
          net.initialization pair :: w.initializations⟩ := by
  have hvalid := net.config.configuration_valid net.factory_eq.1 pair
  obtain ⟨out, hout⟩ := initializeAccount_fresh hvalid
    ⟨net.keccak, net.chainId, (net.initialization pair).account⟩ { vm with msgSender := net.self }
  have hexec : VeraKeyAccount.fresh.exec
      ⟨net.keccak, net.chainId, (net.initialization pair).account⟩ { vm with msgSender := net.self }
      (.initializeAccount (net.config.configuration pair.appId pair.nullifier)) = .ok out := hout
  have hstep := step_of_exec hexec
  refine ⟨out.account, hstep.initialized_of_initialize, hstep.settings_of_fresh, ?_⟩
  rw [configuration_factory]
  simp only [Contracts.call, Function.update_self, Function.update_idem, hexec, ok_bind]
  rfl

variable (net) in
/-- Where there is no code, `create_account` deploys an account and initializes it. -/
theorem createAccount_of_none (vm : Vm) (pair : AccountPair)
    (hcode : w.code (net.initialization pair).account = none) :
    ∃ s, s.initialized = true ∧ s.settings = (net.initialization pair).configuration.settings ∧
      net.createAccount w vm true pair.appId pair.nullifier =
        .ok (⟨Function.update w.code (net.initialization pair).account (some (.account s)),
          net.initialization pair :: w.initializations⟩, (net.initialization pair).account) := by
  obtain ⟨s, hinit, hsettings, hcall⟩ := net.call_fresh w vm pair
  refine ⟨s, hinit, hsettings, ?_⟩
  have hpair : ¬ (¬ isFieldElement pair.appId ∨ ¬ isFieldElement pair.nullifier ∨
      pair.nullifier = 0) := by
    rw [pair.appId_valid, pair.nullifier_valid]
    simp [pair.nullifier_ne_zero]
  have hpredicted : create2Address net.keccak net.self
      (accountSalt net.keccak pair.appId pair.nullifier net.factory.configHash)
      (Clone.initCode net.factory.implementation) = (net.initialization pair).account := rfl
  rw [createAccount, VeraKeyFactory.createAccount, rejectIf_bind_of_not hpair]
  simp only [hpredicted, Contracts.create2, hcode, Option.isSome_none, Option.isNone_none, and_self,
    if_true, Bool.false_eq_true, if_false, orElse, ok_bind, hcall]
  rfl

variable (net) in
/-- What one call of `create_account` does. -/
theorem createAccount_cases (w : Contracts) (vm : Vm) (deploys : Bool) (appId nullifier : B256) :
    (¬ Accepted appId nullifier ∧
      net.createAccount w vm deploys appId nullifier = .error .invalidIdentifier) ∨
    (w.code (net.address appId nullifier) = none ∧
      net.createAccount w vm deploys appId nullifier = .error .deploymentFailed) ∨
    (Accepted appId nullifier ∧ (w.code (net.address appId nullifier)).isSome = true ∧
      net.createAccount w vm deploys appId nullifier = .ok (w, net.address appId nullifier)) ∨
    ∃ pair : AccountPair, appId = pair.appId ∧ nullifier = pair.nullifier ∧
      w.code (net.initialization pair).account = none ∧ ∃ s,
        s.initialized = true ∧ s.settings = (net.initialization pair).configuration.settings ∧
        net.createAccount w vm deploys appId nullifier =
          .ok (⟨Function.update w.code (net.initialization pair).account (some (.account s)),
            net.initialization pair :: w.initializations⟩,
            (net.initialization pair).account) := by
  by_cases hpair : ¬ isFieldElement appId ∨ ¬ isFieldElement nullifier ∨ nullifier = 0
  · refine Or.inl ⟨fun haccepted => accepted_iff.mp haccepted hpair, ?_⟩
    rw [createAccount, VeraKeyFactory.createAccount, rejectIf, if_pos hpair]
    rfl
  have hpredicted : create2Address net.keccak net.self
      (accountSalt net.keccak appId nullifier net.factory.configHash)
      (Clone.initCode net.factory.implementation) = net.address appId nullifier := rfl
  have haccepted := accepted_iff.mpr hpair
  right
  cases hcode : w.code (net.address appId nullifier) with
  | some contract =>
      refine Or.inr (Or.inl ⟨haccepted, rfl, ?_⟩)
      rw [createAccount, VeraKeyFactory.createAccount, rejectIf_bind_of_not hpair]
      simp only [hpredicted, hcode, Option.isSome_some, if_true]
      rfl
  | none =>
      cases deploys with
      | false =>
          refine Or.inl ⟨rfl, ?_⟩
          rw [createAccount, VeraKeyFactory.createAccount, rejectIf_bind_of_not hpair]
          simp only [hpredicted, Contracts.create2, hcode, Bool.false_eq_true, false_and, if_false,
            Option.isSome_none]
          rfl
      | true =>
          obtain ⟨pair, rfl, rfl⟩ := haccepted
          obtain ⟨s, hinit, hsettings, hcreated⟩ := net.createAccount_of_none vm pair hcode
          exact Or.inr (Or.inr ⟨pair, rfl, rfl, hcode, s, hinit, hsettings, hcreated⟩)

/-- The accounts there are: each belongs to one pair, was initialized once, by the factory and
for that pair, and still has the settings it was given. -/
structure Sound (net : FactoryNetwork) (w : Contracts) : Prop where
  accounts : ∀ address s, w.code address = some (.account s) → ∃ pair,
    address = (net.initialization pair).account ∧
      w.initializationsOf address = [net.initialization pair] ∧
      s.initialized = true ∧ s.settings = (net.initialization pair).configuration.settings
  initialized : ∀ i ∈ w.initializations, ∃ s, w.code i.account = some (.account s)

theorem sound_start : Sound net start where
  accounts := nofun
  initialized := nofun

/-- Where there is no code, nothing was initialized. -/
theorem Sound.initializationsOf_eq_nil (hsound : Sound net w) (hcode : w.code address = none) :
    w.initializationsOf address = [] := by
  rw [Contracts.initializationsOf, List.filter_eq_nil_iff]
  intro i hi haddress
  obtain ⟨s, hs⟩ := hsound.initialized i hi
  rw [of_decide_eq_true haddress, hcode] at hs
  contradiction

/-- The account that `create_account` adds. -/
theorem Sound.addAccount (hsound : Sound net w) {pair : AccountPair} {s : VeraKeyAccount}
    (hcode : w.code (net.initialization pair).account = none) (hinit : s.initialized = true)
    (hsettings : s.settings = (net.initialization pair).configuration.settings) :
    Sound net ⟨Function.update w.code (net.initialization pair).account (some (.account s)),
      net.initialization pair :: w.initializations⟩ where
  accounts := by
    intro address s' hs'
    by_cases haddress : address = (net.initialization pair).account
    · subst haddress
      simp only [Function.update_self, Option.some.injEq, Contract.account.injEq] at hs'
      subst hs'
      refine ⟨pair, rfl, ?_, hinit, hsettings⟩
      have hnone := hsound.initializationsOf_eq_nil hcode
      rw [Contracts.initializationsOf] at hnone ⊢
      rw [List.filter_cons, hnone]
      simp
    · have hold : w.code address = some (.account s') :=
        (Function.update_of_ne haddress _ _).symm.trans hs'
      obtain ⟨pair', haccount, honce, hrest⟩ := hsound.accounts address s' hold
      refine ⟨pair', haccount, ?_, hrest⟩
      rw [Contracts.initializationsOf] at honce ⊢
      rw [List.filter_cons, if_neg (by simpa using Ne.symm haddress), honce]
  initialized := by
    intro i hi
    by_cases haddress : i.account = (net.initialization pair).account
    · exact ⟨s, by rw [haddress]; exact Function.update_self _ _ _⟩
    · rcases List.mem_cons.mp hi with rfl | hold
      · contradiction
      · obtain ⟨s', hs'⟩ := hsound.initialized i hold
        exact ⟨s', (Function.update_of_ne haddress _ _).trans hs'⟩

/-- What one call to an account does. -/
theorem call_cases (hsound : Sound net w) {call : Call}
    (hcall : w.call net.keccak net.chainId address vm call = .ok w') :
    w' = w ∨ ∃ s s', w.code address = some (.account s) ∧ s'.initialized = true ∧
      s'.settings = s.settings ∧
      w' = ⟨Function.update w.code address (some (.account s')), w.initializations⟩ := by
  simp only [Contracts.call] at hcall
  split at hcall
  case h_2 => exact Or.inl (Except.ok.inj hcall).symm
  case h_1 s hcode =>
    right
    obtain ⟨out, hout, hw'⟩ := bind_eq_ok.mp hcall
    obtain ⟨pair, -, -, hinit, -⟩ := hsound.accounts address s hcode
    have hstep := step_of_exec hout
    refine ⟨s, out.account, hcode, hstep.initialized hinit, hstep.settings hinit, ?_⟩
    rw [← pure_eq_ok.mp hw']
    cases call with
    | initializeAccount c => exact absurd rfl (hstep.ne_initialize hinit c)
    | _ => rfl

/-- A call to an account changes neither its settings nor who initialized it. -/
theorem Sound.call (hsound : Sound net w) {call : Call}
    (hcall : w.call net.keccak net.chainId address vm call = .ok w') : Sound net w' := by
  rcases call_cases hsound hcall with rfl | ⟨s, s', hcode, hinit, hsettings, rfl⟩
  · exact hsound
  obtain ⟨pair, haccount, honce, -, hgiven⟩ := hsound.accounts address s hcode
  constructor
  · intro address' t ht
    by_cases hsame : address' = address
    · subst hsame
      simp only [Function.update_self, Option.some.injEq, Contract.account.injEq] at ht
      subst ht
      exact ⟨pair, haccount, honce, hinit, hsettings.trans hgiven⟩
    · exact hsound.accounts address' t ((Function.update_of_ne hsame _ _).symm.trans ht)
  · intro i hi
    by_cases hsame : i.account = address
    · exact ⟨s', by rw [hsame]; exact Function.update_self _ _ _⟩
    · obtain ⟨t, ht⟩ := hsound.initialized i hi
      exact ⟨t, (Function.update_of_ne hsame _ _).trans ht⟩

/-- Other code appears where there was none. -/
theorem Sound.other (hsound : Sound net w) (hcode : w.code address = none) :
    Sound net { w with code := Function.update w.code address (some .other) } := by
  constructor
  · intro address' t ht
    by_cases hsame : address' = address
    · subst hsame
      simp only [Function.update_self, Option.some.injEq, reduceCtorEq] at ht
    · exact hsound.accounts address' t ((Function.update_of_ne hsame _ _).symm.trans ht)
  · intro i hi
    obtain ⟨t, ht⟩ := hsound.initialized i hi
    have hsame : i.account ≠ address := by
      intro heq
      rw [heq, hcode] at ht
      contradiction
    exact ⟨t, (Function.update_of_ne hsame _ _).trans ht⟩

theorem Sound.next (hsound : Sound net w) (event : FactoryEvent) :
    Sound net (net.next w event) := by
  cases event with
  | createAccount vm deploys appId nullifier =>
      rw [FactoryNetwork.next]
      rcases net.createAccount_cases w vm deploys appId nullifier with
        ⟨-, herror⟩ | ⟨-, herror⟩ | ⟨-, -, hsame⟩ |
          ⟨pair, -, -, hcode, s, hinit, hsettings, hcreated⟩
      · rw [herror]
        exact hsound
      · rw [herror]
        exact hsound
      · rw [hsame]
        exact hsound
      · rw [hcreated]
        exact hsound.addAccount hcode hinit hsettings
  | call address vm call =>
      rw [FactoryNetwork.next]
      cases hcall : w.call net.keccak net.chainId address vm call with
      | ok w' => exact hsound.call hcall
      | error failure => exact hsound
  | other address =>
      rw [FactoryNetwork.next]
      split
      · exact hsound
      · rename_i hcode
        exact hsound.other (Option.not_isSome_iff_eq_none.mp hcode)

/-- In every sequence of calls. -/
theorem sound_state (n : ℕ) : Sound net (net.state n) :=
  History.run_invariant sound_start (fun _ hsound => hsound.next _) n

/-- Code stays where it is. -/
theorem isSome_next (hsound : Sound net w) (event : FactoryEvent)
    (hcode : (w.code address).isSome = true) :
    ((net.next w event).code address).isSome = true := by
  have hupdate : ∀ (address' : Address) (contract : Contract),
      (Function.update w.code address' (some contract) address).isSome = true := by
    intro address' contract
    by_cases hsame : address = address'
    · rw [hsame, Function.update_self]
      rfl
    · rw [Function.update_of_ne hsame]
      exact hcode
  cases event with
  | createAccount vm deploys appId nullifier =>
      rw [FactoryNetwork.next]
      rcases net.createAccount_cases w vm deploys appId nullifier with
        ⟨-, herror⟩ | ⟨-, herror⟩ | ⟨-, -, hsame⟩ | ⟨pair, -, -, -, s, -, -, hcreated⟩
      · rw [herror]
        exact hcode
      · rw [herror]
        exact hcode
      · rw [hsame]
        exact hcode
      · rw [hcreated]
        exact hupdate _ _
  | call address' vm call =>
      rw [FactoryNetwork.next]
      cases hcall : w.call net.keccak net.chainId address' vm call with
      | error failure => exact hcode
      | ok w' =>
          rcases call_cases hsound hcall with rfl | ⟨s, s', -, -, -, rfl⟩
          · exact hcode
          · exact hupdate _ _
  | other address' =>
      rw [FactoryNetwork.next]
      split
      · exact hcode
      · exact hupdate _ _

theorem isSome_of_le {i j : ℕ} (hij : i ≤ j)
    (hcode : ((net.state i).code address).isSome = true) :
    ((net.state j).code address).isSome = true := by
  induction j, hij using Nat.le_induction with
  | base => exact hcode
  | succ j _ ih => exact isSome_next (sound_state j) _ ih

/-- An account appears only by the call that initializes it. -/
theorem account_appears (hsound : Sound net w) {event : FactoryEvent} {s : VeraKeyAccount}
    (hnone : w.code address = none)
    (hnew : (net.next w event).code address = some (.account s)) :
    ∃ vm deploys pair, event = .createAccount vm deploys pair.appId pair.nullifier ∧
      address = (net.initialization pair).account ∧
      (net.next w event).initializations = net.initialization pair :: w.initializations := by
  cases event with
  | createAccount vm deploys appId nullifier =>
      rw [FactoryNetwork.next] at hnew ⊢
      rcases net.createAccount_cases w vm deploys appId nullifier with
        ⟨-, herror⟩ | ⟨-, herror⟩ | ⟨-, -, hsame⟩ | ⟨pair, rfl, rfl, -, t, -, -, hcreated⟩
      · rw [herror] at hnew
        exact absurd (hnone.symm.trans hnew) nofun
      · rw [herror] at hnew
        exact absurd (hnone.symm.trans hnew) nofun
      · rw [hsame] at hnew
        exact absurd (hnone.symm.trans hnew) nofun
      · rw [hcreated] at hnew ⊢
        refine ⟨vm, deploys, pair, rfl, ?_, rfl⟩
        by_contra hother
        exact absurd (hnone.symm.trans ((Function.update_of_ne hother _ _).symm.trans hnew)) nofun
  | call address' vm call =>
      rw [FactoryNetwork.next] at hnew
      cases hcall : w.call net.keccak net.chainId address' vm call with
      | error failure =>
          rw [hcall] at hnew
          exact absurd (hnone.symm.trans hnew) nofun
      | ok w' =>
          rw [hcall] at hnew
          rcases call_cases hsound hcall with rfl | ⟨t, t', hcode, -, -, rfl⟩
          · exact absurd (hnone.symm.trans hnew) nofun
          · have hother : address ≠ address' := by
              rintro rfl
              rw [hcode] at hnone
              contradiction
            exact absurd (hnone.symm.trans ((Function.update_of_ne hother _ _).symm.trans hnew))
              nofun
  | other address' =>
      rw [FactoryNetwork.next] at hnew
      split at hnew
      · exact absurd (hnone.symm.trans hnew) nofun
      · by_cases hsame : address = address'
        · subst hsame
          exact absurd ((Function.update_self _ _ _).symm.trans hnew) nofun
        · exact absurd (hnone.symm.trans ((Function.update_of_ne hsame _ _).symm.trans hnew)) nofun

/-- After `create_account` has returned an address there is code at it. -/
theorem isSome_of_created {account : Address}
    (hcreated : net.createAccount w vm deploys appId nullifier = .ok (w', account)) :
    Accepted appId nullifier ∧ account = net.address appId nullifier ∧
      (w'.code account).isSome = true := by
  rcases net.createAccount_cases w vm deploys appId nullifier with
    ⟨-, herror⟩ | ⟨-, herror⟩ | ⟨haccepted, hcode, hsame⟩ | ⟨pair, rfl, rfl, -, s, -, -, hnew⟩
  · rw [herror] at hcreated
    contradiction
  · rw [herror] at hcreated
    contradiction
  · obtain ⟨rfl, rfl⟩ := Prod.mk.inj (Except.ok.inj (hsame.symm.trans hcreated))
    exact ⟨haccepted, rfl, hcode⟩
  · obtain ⟨rfl, rfl⟩ := Prod.mk.inj (Except.ok.inj (hnew.symm.trans hcreated))
    refine ⟨⟨pair, rfl, rfl⟩, rfl, ?_⟩
    simp only [Function.update_self, Option.isSome_some]

/-- Where there is code, `create_account` only returns the address. -/
theorem createAccount_of_isSome (vm : Vm) (deploys : Bool) (haccepted : Accepted appId nullifier)
    (hcode : (w.code (net.address appId nullifier)).isSome = true) :
    net.createAccount w vm deploys appId nullifier = .ok (w, net.address appId nullifier) := by
  rcases net.createAccount_cases w vm deploys appId nullifier with
    ⟨hrefused, -⟩ | ⟨hnone, -⟩ | ⟨-, -, hsame⟩ | ⟨pair, rfl, rfl, hnone, -⟩
  · contradiction
  · rw [hnone] at hcode
    contradiction
  · exact hsame
  · rw [show net.address pair.appId pair.nullifier = (net.initialization pair).account from rfl,
      hnone] at hcode
    contradiction

end FactoryNetwork

end VeraKey
