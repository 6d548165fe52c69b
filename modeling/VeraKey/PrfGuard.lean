/-
The guard of a PRF identity over any sequence of calls: what the store holds for a credential is
what was first written there, until the credential is registered again.
-/
import VeraKey.PasskeyClient
import VeraKey.Pinned

namespace VeraKey

open ByteCodec TextCodec

namespace Client

open Sdk (PasskeyPublicKey StoredPasskey LocalPasskeyStore prfCheck publicKeyOf toStoredPasskey)

variable (libraries : Libraries) (appIds : List ℕ)

/-! ## The tables of the store -/

theorem keys_save (store : LocalPasskeyStore) (passkey : StoredPasskey) :
    (store.save passkey).keys =
      Function.update store.keys passkey.credentialId (publicKeyOf passkey) := by
  funext id
  rw [LocalPasskeyStore.keys, store.find_save, Function.update_apply]
  split <;> rfl

theorem checks_save (store : LocalPasskeyStore) (passkey : StoredPasskey) :
    (store.save passkey).checks =
      Function.update store.checks passkey.credentialId passkey.prfCheck := by
  funext id
  rw [LocalPasskeyStore.checks, store.find_save, Function.update_apply]
  split <;> rfl

/-- Writing an entry that was not there or is the same is a first write. -/
theorem eq_next_first {ν : Type} {table : Bytes → Option ν} {key : Bytes} {entry : ν}
    (hheld : table key = none ∨ table key = some entry) :
    Function.update table key (some entry) = Pinned.next table (.first key entry) := by
  rw [Pinned.next]
  rcases hheld with hnone | hsame
  · rw [hnone, Option.none_or]
  · rw [hsame, Option.some_or]

/-! ## What a call does -/

/-- A ceremony that succeeds leaves the record of its session in the store. -/
structure Opened (store store' : LocalPasskeyStore) (session : Session) : Prop where
  readable : store'.Readable
  stored : store'.find session.passkey.credentialId = some session.passkey
  check : session.passkey.prfCheck = some (prfCheck libraries.sha256 session.prfSecret)
  keys : store'.keys =
    Pinned.next store.keys (.first session.passkey.credentialId session.publicKey)
  checks : store'.checks = Pinned.next store.checks
    (.first session.passkey.credentialId (prfCheck libraries.sha256 session.prfSecret))

/-- So does a registration, whatever was there. -/
structure Made (store store' : LocalPasskeyStore) (passkey : StoredPasskey)
    (session : Option Session) : Prop where
  readable : store'.Readable
  stored : store'.find passkey.credentialId = some passkey
  session : ∀ opened, session = some opened → opened.passkey = passkey ∧
    passkey.prfCheck = some (prfCheck libraries.sha256 opened.prfSecret)
  keys : store'.keys = Pinned.next store.keys (.anew passkey.credentialId (publicKeyOf passkey))
  checks : store'.checks = Pinned.next store.checks (.anew passkey.credentialId passkey.prfCheck)

variable {libraries appIds}

/-- The three cases of the guard that let a secret pass. -/
theorem heldRecord_eq_ok {store : LocalPasskeyStore} {answers : CeremonyAnswers}
    {assertion : PasskeyAssertion} {prfSecret : Bytes} {stored : StoredPasskey} {saves : Bool}
    (hheld : heldRecord libraries appIds store answers assertion prfSecret = .ok (stored, saves)) :
    stored.prfCheck = some (prfCheck libraries.sha256 prfSecret) ∧
      ((saves = false ∧ store.find stored.credentialId = some stored) ∨
        (saves = true ∧ store.checks stored.credentialId = none ∧
          ((∃ known, store.find stored.credentialId = some known ∧
              stored.publicKey = known.publicKey) ∨
            store.find stored.credentialId = none ∧ (publicKeyOf stored).isSome = true))) := by
  unfold heldRecord at hheld
  dsimp only at hheld
  cases hget : store.get assertion.credentialId with
  | none =>
      rw [hget] at hheld
      cases hkey : recoverPublicKey libraries appIds answers (assertionDigest libraries assertion)
          assertion.signature prfSecret with
      | error failure =>
          rw [hkey] at hheld
          contradiction
      | ok publicKey =>
          rw [hkey] at hheld
          obtain ⟨rfl, rfl⟩ := Prod.mk.inj (Except.ok.inj hheld)
          refine ⟨rfl, .inr ⟨rfl, ?_, .inr ⟨hget, ?_⟩⟩⟩
          · change (store.find (Sdk.base64UrlEncode assertion.credentialId)).bind _ = none
            rw [show store.find (Sdk.base64UrlEncode assertion.credentialId) = none from hget]
            rfl
          · rw [Sdk.publicKeyOf_toStoredPasskey]
            rfl
  | some known =>
      have hid : known.credentialId = Sdk.base64UrlEncode assertion.credentialId :=
        LocalPasskeyStore.credentialId_of_find hget
      have hfind : store.find known.credentialId = some known := by
        rw [hid]
        exact hget
      rw [hget] at hheld
      cases hcheck : known.prfCheck with
      | none =>
          simp only [hcheck] at hheld
          obtain ⟨rfl, rfl⟩ := Prod.mk.inj (Except.ok.inj hheld)
          refine ⟨rfl, .inr ⟨rfl, ?_, .inl ⟨known, hfind, rfl⟩⟩⟩
          change (store.find known.credentialId).bind _ = none
          rw [hfind]
          exact hcheck
      | some check =>
          simp only [hcheck] at hheld
          split at hheld
          · next hsame =>
              obtain ⟨rfl, rfl⟩ := Prod.mk.inj (Except.ok.inj hheld)
              exact ⟨by rw [hcheck, hsame], .inl ⟨rfl, hfind⟩⟩
          · contradiction

/-- A record that passes the guard is saved, or is there already. -/
theorem opened_of_held {store : LocalPasskeyStore} (hreadable : store.Readable)
    {answers : CeremonyAnswers} {assertion : PasskeyAssertion} {prfSecret : Bytes}
    {stored : StoredPasskey} {saves : Bool}
    (hheld : heldRecord libraries appIds store answers assertion prfSecret = .ok (stored, saves)) :
    ∃ publicKey, publicKeyOf stored = some publicKey ∧
      Opened libraries store (if saves then store.save stored else store)
        ⟨stored, publicKey, prfSecret⟩ := by
  obtain ⟨hcheck, ⟨rfl, hfind⟩ | ⟨rfl, hnone, hknown⟩⟩ := heldRecord_eq_ok hheld
  · obtain ⟨publicKey, hkey⟩ := Option.isSome_iff_exists.mp (hreadable.find hfind)
    have hkeys : store.keys stored.credentialId = some publicKey := by
      rw [LocalPasskeyStore.keys, hfind]
      exact hkey
    have hchecks : store.checks stored.credentialId =
        some (prfCheck libraries.sha256 prfSecret) := by
      rw [LocalPasskeyStore.checks, hfind]
      exact hcheck
    refine ⟨publicKey, hkey, hreadable, hfind, hcheck, ?_, ?_⟩
    · rw [← eq_next_first (.inr hkeys), ← hkeys]
      exact (Function.update_eq_self _ _).symm
    · rw [← eq_next_first (.inr hchecks), ← hchecks]
      exact (Function.update_eq_self _ _).symm
  · have hkeys : ∃ publicKey, publicKeyOf stored = some publicKey ∧
        (store.keys stored.credentialId = none ∨
          store.keys stored.credentialId = some publicKey) := by
      rcases hknown with ⟨known, hfind, hsame⟩ | ⟨hfind, hsome⟩
      · obtain ⟨publicKey, hkey⟩ := Option.isSome_iff_exists.mp (hreadable.find hfind)
        refine ⟨publicKey, ?_, .inr ?_⟩
        · rw [publicKeyOf, hsame]
          exact hkey
        · rw [LocalPasskeyStore.keys, hfind]
          exact hkey
      · obtain ⟨publicKey, hkey⟩ := Option.isSome_iff_exists.mp hsome
        refine ⟨publicKey, hkey, .inl ?_⟩
        rw [LocalPasskeyStore.keys, hfind]
        rfl
    obtain ⟨publicKey, hkey, hbefore⟩ := hkeys
    refine ⟨publicKey, hkey, hreadable.save ?_, ?_, hcheck, ?_, ?_⟩
    · rw [hkey]
      rfl
    · change (store.save stored).find _ = _
      rw [store.find_save, if_pos rfl]
    · rw [if_pos rfl, keys_save, hkey, eq_next_first hbefore]
    · rw [if_pos rfl, checks_save, hcheck, eq_next_first (.inl hnone)]

/-- A ceremony fails and changes nothing, or opens a session and keeps the active ones. -/
theorem authenticate_spec {browser : Browser} (hreadable : browser.store.Readable)
    (passkey : Option StoredPasskey) (answers : CeremonyAnswers) :
    (∃ failure, authenticate libraries appIds browser passkey answers =
      (.error failure, browser)) ∨
    ∃ session store, authenticate libraries appIds browser passkey answers =
        (.ok session, { browser with store := store }) ∧
      Opened libraries browser.store store session := by
  unfold authenticate
  cases unlockAssertion libraries passkey answers with
  | error error => exact .inl ⟨_, rfl⟩
  | ok assertion =>
      dsimp only
      cases hheld : heldRecord libraries appIds browser.store answers assertion
          (assertion.prfSecret.getD []) with
      | error failure => exact .inl ⟨failure, rfl⟩
      | ok held =>
          obtain ⟨stored, saves⟩ := held
          obtain ⟨publicKey, hkey, hopened⟩ := opened_of_held hreadable hheld
          dsimp only
          cases (if saves then answers.setItem else .ok ()) with
          | error error => exact .inl ⟨_, rfl⟩
          | ok room =>
              refine .inr ⟨⟨stored, publicKey, assertion.prfSecret.getD []⟩, _, ?_, hopened⟩
              dsimp only
              rw [hkey]
              cases saves <;> rfl

theorem unlock_spec {browser : Browser} (hreadable : browser.store.Readable) (client : ℕ)
    (passkey : Option StoredPasskey) (answers : CeremonyAnswers) :
    (∃ failure, unlock libraries appIds browser client passkey answers =
      (.error failure, browser)) ∨
    ∃ session store, unlock libraries appIds browser client passkey answers =
        (.ok session, { browser with store := store }.startSession client session) ∧
      Opened libraries browser.store store session := by
  unfold unlock
  rcases authenticate_spec hreadable passkey answers with
    ⟨failure, hresult⟩ | ⟨session, store, hresult, hopened⟩
  · exact .inl ⟨failure, by rw [hresult]⟩
  · exact .inr ⟨session, store, by rw [hresult], hopened⟩

theorem register_spec {browser : Browser} (hreadable : browser.store.Readable) (client : ℕ)
    (label : Bytes) (activate payment : Bool) (answers : RegisterAnswers) :
    (∃ failure, register libraries browser client label activate payment answers =
      (.error failure, browser)) ∨
    ∃ passkey session browser', register libraries browser client label activate payment answers =
        (.ok (passkey, session), browser') ∧
      Made libraries browser.store browser'.store passkey session := by
  unfold register
  cases createPasskey payment answers.created with
  | error error => exact .inl ⟨_, rfl⟩
  | ok created =>
      dsimp only
      cases answers.setItem with
      | error error => exact .inl ⟨_, rfl⟩
      | ok room =>
          right
          have hkey : (publicKeyOf (registeredPasskey libraries created label answers.now)).isSome =
              true := by
            rw [registeredPasskey, Sdk.publicKeyOf_toStoredPasskey]
            rfl
          have hmade (session : Option Session) (hsession : ∀ opened, session = some opened →
              opened.passkey = registeredPasskey libraries created label answers.now ∧
                (registeredPasskey libraries created label answers.now).prfCheck =
                  some (prfCheck libraries.sha256 opened.prfSecret)) :
              Made libraries browser.store
                (browser.store.save (registeredPasskey libraries created label answers.now))
                (registeredPasskey libraries created label answers.now) session :=
            { readable := hreadable.save hkey
              stored := by rw [LocalPasskeyStore.find_save, if_pos rfl]
              session := hsession
              keys := keys_save _ _
              checks := checks_save _ _ }
          dsimp only
          cases hsecret : created.prfSecret with
          | none => exact ⟨_, none, _, rfl, hmade none nofun⟩
          | some prfSecret =>
              have hcheck : (registeredPasskey libraries created label answers.now).prfCheck =
                  some (prfCheck libraries.sha256 prfSecret) := by
                rw [registeredPasskey, hsecret]
                rfl
              refine ⟨_, _, _, rfl, ?_⟩
              cases activate <;> exact hmade _ fun opened hopened => by
                rw [← Option.some.inj hopened]
                exact ⟨rfl, hcheck⟩

/-! ## Any sequence of calls -/

/-- What a call writes for the public keys. -/
def keyWrite : Except Failure Returned → Option (Pinned.Write Bytes PasskeyPublicKey)
  | .error _ => none
  | .ok (.registered passkey _) => some (.anew passkey.credentialId (publicKeyOf passkey))
  | .ok (.opened session) => some (.first session.passkey.credentialId session.publicKey)

/-- What it writes for the checks. -/
def checkWrite (sha256 : Bytes → B256) :
    Except Failure Returned → Option (Pinned.Write Bytes Bytes)
  | .error _ => none
  | .ok (.registered passkey _) => some (.anew passkey.credentialId passkey.prfCheck)
  | .ok (.opened session) =>
      some (.first session.passkey.credentialId (prfCheck sha256 session.prfSecret))

/-- One call, seen from the store. -/
structure Kept (libraries : Libraries) (browser browser' : Browser)
    (result : Except Failure Returned) : Prop where
  readable : browser'.store.Readable
  failed : ∀ failure, result = .error failure → browser' = browser
  keys : browser'.store.keys =
    (keyWrite result).elim browser.store.keys (Pinned.next browser.store.keys)
  checks : browser'.store.checks =
    (checkWrite libraries.sha256 result).elim browser.store.checks
      (Pinned.next browser.store.checks)
  session : ∀ returned session, result = .ok returned → returned.session = some session →
    ∃ stored, browser'.store.find session.passkey.credentialId = some stored ∧
      stored.prfCheck = some (prfCheck libraries.sha256 session.prfSecret)

theorem Kept.of_failed {browser : Browser} (hreadable : browser.store.Readable)
    (failure : Failure) : Kept libraries browser browser (.error failure) where
  readable := hreadable
  failed := fun _ _ => rfl
  keys := rfl
  checks := rfl
  session := nofun

theorem Opened.kept {browser browser' : Browser} {session : Session}
    (hopened : Opened libraries browser.store browser'.store session) :
    Kept libraries browser browser' (.ok (.opened session)) where
  readable := hopened.readable
  failed := nofun
  keys := hopened.keys
  checks := hopened.checks
  session := by
    intro returned opened hreturned hsession
    rw [← Except.ok.inj hreturned] at hsession
    rw [← Option.some.inj hsession]
    exact ⟨session.passkey, hopened.stored, hopened.check⟩

theorem Made.kept {browser browser' : Browser} {passkey : StoredPasskey} {session : Option Session}
    (hmade : Made libraries browser.store browser'.store passkey session) :
    Kept libraries browser browser' (.ok (.registered passkey session)) where
  readable := hmade.readable
  failed := nofun
  keys := hmade.keys
  checks := hmade.checks
  session := by
    intro returned opened hreturned hsession
    rw [← Except.ok.inj hreturned] at hsession
    obtain ⟨hpasskey, hcheck⟩ := hmade.session opened hsession
    exact ⟨passkey, hpasskey ▸ hmade.stored, hcheck⟩

theorem next_kept {browser : Browser} (hreadable : browser.store.Readable) (call : Call) :
    Kept libraries browser (browser.next libraries appIds call).2
      (browser.next libraries appIds call).1 := by
  cases call with
  | register client label activate payment answers =>
      rcases @register_spec libraries _ hreadable client label activate payment answers with
        ⟨failure, hresult⟩ | ⟨passkey, session, browser', hresult, hmade⟩
      · rw [Browser.next, hresult]
        exact .of_failed hreadable failure
      · rw [Browser.next, hresult]
        exact hmade.kept
  | authenticate passkey answers =>
      rcases @authenticate_spec libraries appIds _ hreadable passkey answers with
        ⟨failure, hresult⟩ | ⟨session, store, hresult, hopened⟩
      · rw [Browser.next, hresult]
        exact .of_failed hreadable failure
      · rw [Browser.next, hresult]
        exact hopened.kept
  | unlock client passkey answers =>
      rcases @unlock_spec libraries appIds _ hreadable client passkey answers with
        ⟨failure, hresult⟩ | ⟨session, store, hresult, hopened⟩
      · rw [Browser.next, hresult]
        exact .of_failed hreadable failure
      · rw [Browser.next, hresult]
        exact hopened.kept

section Runs

variable (libraries : Libraries) (appIds : List ℕ) (start : Browser) (calls : ℕ → Call)

/-- The browser after the first `n` calls. -/
def after (n : ℕ) : Browser :=
  History.run (fun browser call => (browser.next libraries appIds call).2) start calls n

/-- What the call `n` returns or throws. -/
def result (n : ℕ) : Except Failure Returned :=
  ((after libraries appIds start calls n).next libraries appIds (calls n)).1

/-- The call `n` registers a credential, with this record. -/
def Registers (n : ℕ) (passkey : StoredPasskey) : Prop :=
  ∃ session, result libraries appIds start calls n = .ok (.registered passkey session)

variable {libraries appIds start calls}

theorem readable_after (hreadable : start.store.Readable) (n : ℕ) :
    (after libraries appIds start calls n).store.Readable := by
  induction n with
  | zero => exact hreadable
  | succ n ih => exact (next_kept ih (calls n)).readable

theorem kept_after (hreadable : start.store.Readable) (n : ℕ) :
    Kept libraries (after libraries appIds start calls n)
      (after libraries appIds start calls (n + 1)) (result libraries appIds start calls n) :=
  next_kept (readable_after hreadable n) (calls n)

theorem keys_follow (hreadable : start.store.Readable) :
    Pinned.Follows (fun n => (after libraries appIds start calls n).store.keys)
      (fun n => keyWrite (result libraries appIds start calls n)) :=
  fun n => (kept_after hreadable n).keys

theorem checks_follow (hreadable : start.store.Readable) :
    Pinned.Follows (fun n => (after libraries appIds start calls n).store.checks)
      (fun n => checkWrite libraries.sha256 (result libraries appIds start calls n)) :=
  fun n => (kept_after hreadable n).checks

theorem keyWrite_eq_anew {outcome : Except Failure Returned} {id : Bytes}
    {key : Option PasskeyPublicKey} (hwrite : keyWrite outcome = some (.anew id key)) :
    ∃ passkey session, outcome = .ok (.registered passkey session) ∧ passkey.credentialId = id ∧
      publicKeyOf passkey = key := by
  match outcome, hwrite with
  | .ok (.registered passkey session), hwrite =>
      obtain ⟨hid, hkey⟩ := Pinned.Write.anew.inj (Option.some.inj hwrite)
      exact ⟨passkey, session, rfl, hid, hkey⟩

theorem keyWrite_eq_first {outcome : Except Failure Returned} {id : Bytes}
    {key : PasskeyPublicKey} (hwrite : keyWrite outcome = some (.first id key)) :
    ∃ session, outcome = .ok (.opened session) ∧ session.passkey.credentialId = id ∧
      session.publicKey = key := by
  match outcome, hwrite with
  | .ok (.opened session), hwrite =>
      obtain ⟨hid, hkey⟩ := Pinned.Write.first.inj (Option.some.inj hwrite)
      exact ⟨session, rfl, hid, hkey⟩

theorem checkWrite_eq_anew {sha256 : Bytes → B256} {outcome : Except Failure Returned} {id : Bytes}
    {check : Option Bytes} (hwrite : checkWrite sha256 outcome = some (.anew id check)) :
    ∃ passkey session, outcome = .ok (.registered passkey session) ∧
      passkey.credentialId = id := by
  match outcome, hwrite with
  | .ok (.registered passkey session), hwrite =>
      exact ⟨passkey, session, rfl, (Pinned.Write.anew.inj (Option.some.inj hwrite)).1⟩

/-- A credential keeps its check and its key, every session matches the check that is stored, and
a call that fails changes nothing. -/
theorem prf_identity_guarded (hreadable : start.store.Readable) :
    (∀ id check n m, n ≤ m →
      (after libraries appIds start calls n).store.checks id = some check →
      (∀ i passkey, n ≤ i → i < m → Registers libraries appIds start calls i passkey →
        passkey.credentialId ≠ id) →
      (after libraries appIds start calls m).store.checks id = some check) ∧
    (∀ n returned session, result libraries appIds start calls n = .ok returned →
      returned.session = some session →
      ∃ stored, (after libraries appIds start calls (n + 1)).store.find
          session.passkey.credentialId = some stored ∧
        stored.prfCheck = some (prfCheck libraries.sha256 session.prfSecret)) ∧
    (∀ id key n m, n ≤ m → (after libraries appIds start calls n).store.keys id = some key →
      (∀ i passkey, n ≤ i → i < m → Registers libraries appIds start calls i passkey →
        passkey.credentialId = id → publicKeyOf passkey = some key) →
      (after libraries appIds start calls m).store.keys id = some key) ∧
    (∀ id key n, (after libraries appIds start calls n).store.keys id = some key →
      start.store.keys id = some key ∨
      ∃ k < n, (∀ m, k < m → m ≤ n →
          (after libraries appIds start calls m).store.keys id = some key) ∧
        ((∃ passkey, Registers libraries appIds start calls k passkey ∧
            passkey.credentialId = id ∧ publicKeyOf passkey = some key) ∨
          (after libraries appIds start calls k).store.keys id = none ∧
            ∃ session, result libraries appIds start calls k = .ok (.opened session) ∧
              session.passkey.credentialId = id ∧ session.publicKey = key)) ∧
    ∀ n failure, result libraries appIds start calls n = .error failure →
      after libraries appIds start calls (n + 1) = after libraries appIds start calls n := by
  refine ⟨?_, ?_, ?_, ?_, ?_⟩
  · intro id check n m hnm hcheck hnever
    apply (checks_follow hreadable).keeps hnm hcheck
    intro i hni him value hwrite
    obtain ⟨passkey, session, hresult, hid⟩ := checkWrite_eq_anew hwrite
    exact absurd hid (hnever i passkey hni him ⟨session, hresult⟩)
  · intro n
    exact (kept_after hreadable n).session
  · intro id key n m hnm hkey hsame
    apply (keys_follow hreadable).keeps hnm hkey
    intro i hni him value hwrite
    obtain ⟨passkey, session, hresult, hid, rfl⟩ := keyWrite_eq_anew hwrite
    exact hsame i passkey hni him ⟨session, hresult⟩ hid
  · intro id key n hkey
    rcases (keys_follow hreadable).origin hkey with hstart | ⟨k, hkn, hsince, hwrite⟩
    · exact .inl hstart
    · refine .inr ⟨k, hkn, hsince, ?_⟩
      rcases hwrite with hanew | ⟨hnone, hfirst⟩
      · obtain ⟨passkey, session, hresult, hid, hmade⟩ := keyWrite_eq_anew hanew
        exact .inl ⟨passkey, ⟨session, hresult⟩, hid, hmade⟩
      · exact .inr ⟨hnone, keyWrite_eq_first hfirst⟩
  · intro n
    exact (kept_after hreadable n).failed

end Runs

/-! ## A secret that changes -/

namespace Sample

def curve : Libraries where
  proofs := .ofPoseidon2 List.sum
  sha256 := fun message => .ofNat 32 message.length
  derToLowS := .ok
  fromCompact := fun _ => .ok ()
  recoverPublicKey := fun _ bit _ =>
    if bit = 0 then some (4 :: List.replicate 64 9) else none

/-- An authenticator that answers with a longer secret each time. -/
def answers (n : ℕ) : CeremonyAnswers where
  assertion := .ok (some ⟨[7], List.replicate 37 0, [], [], some (List.replicate (32 + n) 1)⟩)
  prover := .ok ()
  predictAddress := fun _ _ => .error .unread
  getCode := fun _ => .ok none
  second := .error .unread
  now := n
  setItem := .ok ()

def start : Browser := ⟨none, fun _ => none⟩

def calls (n : ℕ) : Call := .unlock 0 none (answers n)

end Sample

theorem prf_identity_guarded_sample :
    (after Sample.curve [] Sample.start Sample.calls 2).store.checks
        (Sdk.base64UrlEncode [7]) =
      some (prfCheck Sample.curve.sha256 (List.replicate 32 1)) := by
  refine (@prf_identity_guarded Sample.curve [] Sample.start Sample.calls nofun).1 _ _ 1 2
    (by decide) ?_ ?_
  · decide +kernel
  · rintro i passkey - - ⟨session, hresult⟩
    change Except.map Returned.opened (unlock Sample.curve []
      (after Sample.curve [] Sample.start Sample.calls i) 0 none (Sample.answers i)).1 = _ at hresult
    revert hresult
    generalize (unlock Sample.curve [] _ 0 none (Sample.answers i)).1 = outcome
    cases outcome with
    | error failure => exact nofun
    | ok session => exact nofun

end Client

end VeraKey
