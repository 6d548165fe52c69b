/-
The validator's entry points are total, and accept exactly the signatures that decode to a
proof and a client data for what the account itself has installed.
-/
import VeraKey.ClientDataAgree
import VeraKey.History

namespace VeraKey

open ByteCodec Evm Guard

namespace Validator

/-! ## Signatures -/

/-- The ABI layout of a `bytes` at `offset`: its length in a word, then the bytes. -/
def FieldAt (data : Bytes) (offset : ℕ) (field : Bytes) : Prop :=
  ∃ back, data.drop offset = beBytes 32 field.length ++ (field ++ back)

/-- `abi.encode(bytes proof, bytes clientDataJSON)`, as lenient as `abi.decode`: two offsets,
and a field at each. -/
def Decodes (signature proof clientDataJson : Bytes) : Prop :=
  ∃ i < 2 ^ 256, ∃ j < 2 ^ 256, ∃ rest, signature = beBytes 32 i ++ (beBytes 32 j ++ rest) ∧
    FieldAt signature i proof ∧ FieldAt signature j clientDataJson

/-- The number in a word of the data. -/
theorem toNat_bytesN {word : Bytes} (hlength : word.length = 32) :
    (bytesN 32 word).toNat = beNat word := by
  have hlt := beNat_lt word
  rw [hlength] at hlt
  rw [bytesN_eq hlength, ofBytes, Nat.sub_self, List.replicate_zero, List.append_nil,
    BitVec.toNat_ofNat]
  exact Nat.mod_eq_of_lt hlt

section Field

variable {data field : Bytes} {offset : ℕ}

theorem FieldAt.length_le (hfield : FieldAt data offset field) :
    offset + 32 + field.length ≤ data.length := by
  obtain ⟨back, hback⟩ := hfield
  have hlength := congrArg List.length hback
  simp only [List.length_drop, List.length_append, length_beBytes] at hlength
  omega

/-- The field that stands at an offset, if its length lies inside the data. -/
theorem fieldAt_iff (hfits : data.length < 2 ^ 256) : FieldAt data offset field ↔
    offset + 32 + field.length ≤ data.length ∧
      beNat ((data.drop offset).take 32) = field.length ∧
      (data.drop (offset + 32)).take field.length = field := by
  constructor
  · intro hfield
    have hle := hfield.length_le
    obtain ⟨back, hback⟩ := hfield
    have hlt : field.length < 256 ^ 32 := by omega
    have hrest : data.drop (offset + 32) = field ++ back := by
      rw [← List.drop_drop, hback, List.drop_left' (length_beBytes 32 _)]
    refine ⟨hle, ?_, ?_⟩
    · rw [hback, List.take_left' (length_beBytes 32 _), beNat_beBytes hlt]
    · rw [hrest, List.take_left' rfl]
  · rintro ⟨hle, hlength, htake⟩
    have hword : ((data.drop offset).take 32).length = 32 := by
      rw [List.length_take, List.length_drop]
      omega
    refine ⟨(data.drop (offset + 32)).drop field.length, ?_⟩
    have hfield : field ++ (data.drop (offset + 32)).drop field.length =
        data.drop (offset + 32) := by
      have hsplit := List.take_append_drop field.length (data.drop (offset + 32))
      rwa [htake] at hsplit
    have hwords : beBytes 32 field.length = (data.drop offset).take 32 := by
      have hbytes := beBytes_beNat ((data.drop offset).take 32)
      rw [hword, hlength] at hbytes
      exact hbytes
    rw [hfield, hwords, ← List.drop_drop, List.take_append_drop]

variable (offset) in
/-- No slice of the decoder points outside the data, and it finds exactly the field that
stands at the offset. -/
theorem dynamicBytes_spec (hfits : data.length < 2 ^ 256) (hlong : 32 ≤ data.length) :
    (∃ field, dynamicBytes data offset = some (true, field) ∧ FieldAt data offset field) ∨
      (dynamicBytes data offset = some (false, []) ∧ ∀ field, ¬ FieldAt data offset field) := by
  have hempty : slice data 0 0 = some [] := by simp [slice]
  rw [dynamicBytes, checkedSub, if_pos hlong, Option.bind_eq_bind, Option.bind_some]
  by_cases hoffset : offset > data.length - 32
  · right
    rw [if_pos hoffset, hempty]
    refine ⟨rfl, fun field hfield => ?_⟩
    have hle := hfield.length_le
    omega
  rw [if_neg hoffset]
  have hstart : checkedAdd offset 32 = some (offset + 32) := if_pos (by omega)
  have hword : ((data.drop offset).take 32).length = 32 := by
    rw [List.length_take, List.length_drop]
    omega
  have hslice : slice data offset (offset + 32) = some ((data.drop offset).take 32) := by
    rw [slice_eq (by omega) (by omega), Nat.add_sub_cancel_left]
  have hrest : checkedSub data.length (offset + 32) = some (data.length - (offset + 32)) :=
    if_pos (by omega)
  simp only [hstart, hslice, hrest, toNat_bytesN hword, Option.bind_eq_bind, Option.bind_some]
  by_cases hlength : beNat ((data.drop offset).take 32) > data.length - (offset + 32)
  · right
    rw [if_pos hlength, hempty]
    refine ⟨rfl, fun field hfield => ?_⟩
    obtain ⟨hle, heq, -⟩ := (fieldAt_iff hfits).mp hfield
    omega
  · left
    have hstop : checkedAdd (offset + 32) (beNat ((data.drop offset).take 32)) =
        some (offset + 32 + beNat ((data.drop offset).take 32)) := if_pos (by omega)
    have hfield : ((data.drop (offset + 32)).take (beNat ((data.drop offset).take 32))).length =
        beNat ((data.drop offset).take 32) := by
      rw [List.length_take, List.length_drop]
      omega
    rw [if_neg hlength, hstop, Option.bind_some, slice_eq (by omega) (by omega),
      Nat.add_sub_cancel_left]
    refine ⟨_, rfl, (fieldAt_iff hfits).mpr ⟨?_, ?_, ?_⟩⟩
    · rw [hfield]
      omega
    · exact hfield.symm
    · rw [hfield]

/-- One field stands at an offset. -/
theorem FieldAt.unique (hfits : data.length < 2 ^ 256) {field' : Bytes}
    (hfield : FieldAt data offset field) (hfield' : FieldAt data offset field') :
    field = field' := by
  obtain ⟨-, hlength, htake⟩ := (fieldAt_iff hfits).mp hfield
  obtain ⟨-, hlength', htake'⟩ := (fieldAt_iff hfits).mp hfield'
  rw [← htake, ← htake', ← hlength, ← hlength']

end Field

/-- The two offsets are the first two words. -/
theorem decodes_iff {signature proof clientDataJson : Bytes} (hlong : 64 ≤ signature.length) :
    Decodes signature proof clientDataJson ↔
      FieldAt signature (beNat (signature.take 32)) proof ∧
        FieldAt signature (beNat ((signature.drop 32).take 32)) clientDataJson := by
  constructor
  · rintro ⟨i, hi, j, hj, rest, hsignature, hproof, hjson⟩
    have hfirst : beNat (signature.take 32) = i := by
      rw [hsignature, List.take_left' (length_beBytes 32 i), beNat_beBytes hi]
    have hsecond : beNat ((signature.drop 32).take 32) = j := by
      rw [hsignature, List.drop_left' (length_beBytes 32 i), List.take_left' (length_beBytes 32 j),
        beNat_beBytes hj]
    rw [hfirst, hsecond]
    exact ⟨hproof, hjson⟩
  · rintro ⟨hproof, hjson⟩
    have hfirst : (signature.take 32).length = 32 := by
      rw [List.length_take]
      omega
    have hsecond : ((signature.drop 32).take 32).length = 32 := by
      rw [List.length_take, List.length_drop]
      omega
    have hi := beNat_lt (signature.take 32)
    have hj := beNat_lt ((signature.drop 32).take 32)
    have hfirstBytes := beBytes_beNat (signature.take 32)
    have hsecondBytes := beBytes_beNat ((signature.drop 32).take 32)
    rw [hfirst] at hi hfirstBytes
    rw [hsecond] at hj hsecondBytes
    refine ⟨_, hi, _, hj, (signature.drop 32).drop 32, ?_, hproof, hjson⟩
    rw [hfirstBytes, hsecondBytes, List.take_append_drop, List.take_append_drop]

/-- The decoder never reverts, and decodes exactly what is encoded. -/
theorem decodeSignature_spec {signature : Bytes} (hfits : signature.length < 2 ^ 256) :
    (∃ proof clientDataJson, decodeSignature signature = some (true, proof, clientDataJson) ∧
      Decodes signature proof clientDataJson) ∨
    (∃ proof clientDataJson, decodeSignature signature = some (false, proof, clientDataJson) ∧
      ∀ proof' clientDataJson', ¬ Decodes signature proof' clientDataJson') := by
  rw [decodeSignature]
  by_cases hshort : signature.length < 64
  · right
    have hempty : slice signature 0 0 = some [] := by simp [slice]
    rw [if_pos hshort, hempty]
    refine ⟨[], [], rfl, ?_⟩
    rintro proof json ⟨i, -, j, -, rest, hsignature, -⟩
    have hlength := congrArg List.length hsignature
    simp only [List.length_append, length_beBytes] at hlength
    omega
  have hlong : 64 ≤ signature.length := not_lt.mp hshort
  have hfirst : (bytesN 32 (signature.take 32)).toNat = beNat (signature.take 32) :=
    toNat_bytesN (by rw [List.length_take]; omega)
  have hsecond : (bytesN 32 ((signature.drop 32).take 32)).toNat =
      beNat ((signature.drop 32).take 32) :=
    toNat_bytesN (by rw [List.length_take, List.length_drop]; omega)
  have hheads : slice signature 0 32 = some (signature.take 32) ∧
      slice signature 32 64 = some ((signature.drop 32).take 32) :=
    ⟨slice_eq (by omega) (by omega), slice_eq (by omega) (by omega)⟩
  simp only [if_neg hshort, hheads.1, hheads.2, Option.bind_eq_bind, Option.bind_some, hfirst,
    hsecond, decodes_iff hlong]
  rcases dynamicBytes_spec (beNat (signature.take 32)) hfits (by omega) with
    ⟨proof, hproof, hfield⟩ | ⟨hproof, hnone⟩
  · rcases dynamicBytes_spec (beNat ((signature.drop 32).take 32)) hfits (by omega) with
      ⟨json, hjson, hfield'⟩ | ⟨hjson, hnone'⟩
    · left
      rw [hproof, hjson]
      exact ⟨proof, json, rfl, hfield, hfield'⟩
    · right
      rw [hproof, hjson]
      exact ⟨proof, [], rfl, fun _ json hboth => hnone' json hboth.2⟩
  · right
    rw [hproof]
    rcases dynamicBytes_spec (beNat ((signature.drop 32).take 32)) hfits (by omega) with
      ⟨json, hjson, -⟩ | ⟨hjson, -⟩
    · rw [hjson]
      exact ⟨[], json, rfl, fun proof _ hboth => hnone proof hboth.1⟩
    · rw [hjson]
      exact ⟨[], [], rfl, fun proof _ hboth => hnone proof hboth.1⟩

theorem Decodes.unique {signature proof proof' json json' : Bytes}
    (hfits : signature.length < 2 ^ 256) (hdecodes : Decodes signature proof json)
    (hdecodes' : Decodes signature proof' json') : proof = proof' ∧ json = json' := by
  have hlong : 64 ≤ signature.length := by
    obtain ⟨i, -, j, -, rest, hsignature, -⟩ := hdecodes
    have hlength := congrArg List.length hsignature
    simp only [List.length_append, length_beBytes] at hlength
    omega
  rw [decodes_iff hlong] at hdecodes hdecodes'
  exact ⟨hdecodes.1.unique hfits hdecodes'.1, hdecodes.2.unique hfits hdecodes'.2⟩

/-! ## What accounts have installed -/

/-- What accounts ask of the module, one call after the other. -/
inductive ModuleEvent
  | onInstall (account : Address) (data : Bytes)
  | onUninstall (account : Address)

/-- A call that reverts changes nothing. -/
def nextConfigs (configs : Configs) : ModuleEvent → Configs
  | .onInstall account data =>
      match onInstall configs account data with
      | .ok configs' => configs'
      | .error _ => configs
  | .onUninstall account => onUninstall configs account

/-- The configs after the first `n` calls. -/
def configsAfter (events : ℕ → ModuleEvent) (n : ℕ) : Configs :=
  History.run nextConfigs (fun _ => ⟨0, 0⟩) events n

/-- The data of `onInstall` for a pair. -/
def installData (pair : AccountPair) : Bytes := pair.appId.bytes ++ pair.nullifier.bytes

/-- What `account` has installed after `n` calls, by the calls alone: the pair of an `onInstall`
it made when it had none, until it uninstalls. -/
inductive Installed (events : ℕ → ModuleEvent) (account : Address) :
    ℕ → Option AccountPair → Prop
  | nothing : Installed events account 0 none
  | install {n : ℕ} {pair : AccountPair} (h : Installed events account n none)
      (hevent : events n = .onInstall account (installData pair)) :
      Installed events account (n + 1) (some pair)
  | uninstall {n : ℕ} (hevent : events n = .onUninstall account) :
      Installed events account (n + 1) none
  | keep {n : ℕ} {installed : Option AccountPair} (h : Installed events account n installed)
      (hstays : events n ≠ .onUninstall account)
      (hnone : installed = none → ∀ pair, events n ≠ .onInstall account (installData pair)) :
      Installed events account (n + 1) installed

/-- How the contract stores it. -/
def configOf : Option AccountPair → Config
  | some pair => ⟨pair.appId, pair.nullifier⟩
  | none => ⟨0, 0⟩

theorem nullifier_configOf {installed : Option AccountPair} :
    (configOf installed).nullifier = 0 ↔ installed = none := by
  cases installed with
  | none => exact ⟨fun _ => rfl, fun _ => rfl⟩
  | some pair => exact iff_of_false pair.nullifier_ne_zero nofun

theorem configOf_inj {installed installed' : Option AccountPair}
    (heq : configOf installed = configOf installed') : installed = installed' := by
  cases installed with
  | none => exact (nullifier_configOf.mp (congrArg Config.nullifier heq).symm).symm
  | some pair =>
      cases installed' with
      | none => exact nullifier_configOf.mp (congrArg Config.nullifier heq)
      | some pair' =>
          obtain ⟨happId, hnullifier⟩ := Config.mk.inj heq
          rw [AccountPair.ext happId hnullifier]

/-- `onInstall` succeeds exactly for an account without a config, with the data of a pair. -/
theorem onInstall_eq_ok {configs configs' : Configs} {account : Address} {data : Bytes} :
    onInstall configs account data = .ok configs' ↔ (configs account).nullifier = 0 ∧
      ∃ pair, data = installData pair ∧
        configs' = Function.update configs account (configOf (some pair)) := by
  simp only [onInstall, bind_eq_ok, rejectIf_eq_ok, pure_eq_ok, not_not]
  constructor
  · rintro ⟨-, hnone, -, hlength, -, hvalid, rfl⟩
    push Not at hvalid
    obtain ⟨happId, hnullifier, hzero⟩ := hvalid
    refine ⟨hnone, ⟨_, _, decide_eq_true happId, decide_eq_true hnullifier, hzero⟩, ?_, rfl⟩
    have hfirst := beBytes_beNat (data.take 32)
    have hsecond := beBytes_beNat (data.drop 32)
    rw [List.length_take, hlength] at hfirst
    rw [List.length_drop, hlength] at hsecond
    exact (List.take_append_drop 32 data).symm.trans (congrArg₂ _ hfirst.symm hsecond.symm)
  · rintro ⟨hnone, pair, rfl, rfl⟩
    have hfirst : (installData pair).take 32 = pair.appId.bytes :=
      List.take_left' pair.appId.length_eq
    have hsecond : (installData pair).drop 32 = pair.nullifier.bytes :=
      List.drop_left' pair.appId.length_eq
    have happId : FixedBytes.ofNat 32 (beNat ((installData pair).take 32)) = pair.appId := by
      rw [hfirst]
      exact pair.appId.ofNat_toNat
    have hnullifier : FixedBytes.ofNat 32 (beNat ((installData pair).drop 32)) =
        pair.nullifier := by
      rw [hsecond]
      exact pair.nullifier.ofNat_toNat
    refine ⟨⟨⟩, hnone, ⟨⟩, by simp [installData], ⟨⟩, ?_, ?_⟩
    · rw [happId, hnullifier]
      push Not
      exact ⟨of_decide_eq_true pair.appId_valid, of_decide_eq_true pair.nullifier_valid,
        pair.nullifier_ne_zero⟩
    · rw [happId, hnullifier]
      rfl

section History

variable {events : ℕ → ModuleEvent} {account : Address} {n : ℕ}

theorem configsAfter_succ : configsAfter events (n + 1) =
    nextConfigs (configsAfter events n) (events n) := rfl

/-- Calls that neither install nor uninstall for `account` leave its config. -/
theorem nextConfigs_of_ne {configs : Configs} {event : ModuleEvent}
    (hstays : event ≠ .onUninstall account)
    (hnone : (configs account).nullifier = 0 →
      ∀ pair, event ≠ .onInstall account (installData pair)) :
    nextConfigs configs event account = configs account := by
  cases event with
  | onInstall other data =>
      rw [nextConfigs]
      cases hinstall : onInstall configs other data with
      | error error => rfl
      | ok configs' =>
          obtain ⟨hfree, pair, rfl, rfl⟩ := onInstall_eq_ok.mp hinstall
          by_cases hsame : account = other
          · subst hsame
            exact absurd rfl (hnone hfree pair)
          · exact Function.update_of_ne hsame _ _
  | onUninstall other =>
      have hother : account ≠ other := fun hsame => hstays (congrArg _ hsame.symm)
      exact Function.update_of_ne hother _ _

/-- The contract stores what the calls have installed. -/
theorem Installed.configsAfter_eq {installed : Option AccountPair}
    (h : Installed events account n installed) :
    configsAfter events n account = configOf installed := by
  induction h with
  | nothing => rfl
  | @install n pair h hevent ih =>
      have hfree : (configsAfter events n account).nullifier = 0 := by
        rw [ih]
        rfl
      have hinstall := onInstall_eq_ok.mpr ⟨hfree, pair, rfl, rfl⟩
      rw [configsAfter_succ, hevent, nextConfigs, hinstall]
      exact Function.update_self _ _ _
  | uninstall hevent =>
      rw [configsAfter_succ, hevent]
      exact Function.update_self _ _ _
  | keep h hstays hnone ih =>
      rw [configsAfter_succ, nextConfigs_of_ne hstays, ih]
      intro hfree
      rw [ih, nullifier_configOf] at hfree
      exact hnone hfree

theorem Installed.unique {installed installed' : Option AccountPair}
    (h : Installed events account n installed) (h' : Installed events account n installed') :
    installed = installed' :=
  configOf_inj (h.configsAfter_eq.symm.trans h'.configsAfter_eq)

theorem exists_installed (events : ℕ → ModuleEvent) (account : Address) (n : ℕ) :
    ∃ installed, Installed events account n installed := by
  induction n with
  | zero => exact ⟨none, .nothing⟩
  | succ n ih =>
      obtain ⟨installed, h⟩ := ih
      by_cases hstays : events n = .onUninstall account
      · exact ⟨none, .uninstall hstays⟩
      · by_cases hinstall : installed = none ∧
            ∃ pair, events n = .onInstall account (installData pair)
        · obtain ⟨rfl, pair, hevent⟩ := hinstall
          exact ⟨some pair, .install h hevent⟩
        · refine ⟨installed, .keep h hstays fun hnone pair hevent => hinstall ⟨hnone, pair, hevent⟩⟩

end History

end Validator

/-! ## Validation -/

namespace VeraKeyValidator

open Validator

variable {v : VeraKeyValidator} {env : Env} {account : Address} {challenge : B256}
  {signature : CallData}

/-- What a signature must be, for a pair: it decodes to a proof and to client data that passes
for the challenge, and the verifier accepts the proof on the pair's public inputs. -/
def Authorizes (v : VeraKeyValidator) (env : Env) (pair : AccountPair) (challenge : B256)
    (signature : CallData) : Prop :=
  ∃ proof clientDataJson, Decodes signature.bytes proof clientDataJson ∧
    v.checkClientData env.keccak env.memory clientDataJson challenge = some true ∧
    env.verify v.verifier proof
      (v.publicInputs env.sha256 clientDataJson pair.appId pair.nullifier) = some true

variable (v env challenge signature) in
/-- `_isValid` never reverts, and accepts exactly what the installed pair authorizes. -/
theorem isValid_spec {configs : Configs} {installed : Option AccountPair}
    (hconfig : configs account = configOf installed) :
    ∃ valid, v.isValid env configs account challenge signature = some valid ∧
      (valid = true ↔ ∃ pair, installed = some pair ∧
        v.Authorizes env pair challenge signature) := by
  rw [isValid, hconfig]
  cases installed with
  | none => exact ⟨false, rfl, by simp⟩
  | some pair =>
      rw [if_neg (by exact pair.nullifier_ne_zero)]
      rcases decodeSignature_spec signature.length_lt with
        ⟨proof, json, hdecode, hdecodes⟩ | ⟨proof, json, hdecode, hnone⟩
      · have hsome : (v.checkClientData env.keccak env.memory json challenge).isSome = true :=
          isSome_checkClientData
        obtain ⟨passes, hpasses⟩ := Option.isSome_iff_exists.mp hsome
        have hauthorizes : v.Authorizes env pair challenge signature ↔ passes = true ∧
            env.verify v.verifier proof
              (v.publicInputs env.sha256 json pair.appId pair.nullifier) = some true := by
          constructor
          · rintro ⟨proof', json', hdecodes', hcheck, hverify⟩
            obtain ⟨rfl, rfl⟩ := hdecodes.unique signature.length_lt hdecodes'
            exact ⟨Option.some.inj (hpasses.symm.trans hcheck), hverify⟩
          · rintro ⟨rfl, hverify⟩
            exact ⟨proof, json, hdecodes, hpasses, hverify⟩
        have hsome : (∃ pair', some pair = some pair' ∧
            v.Authorizes env pair' challenge signature) ↔
              v.Authorizes env pair challenge signature := by simp
        rw [hsome, hauthorizes]
        simp only [hdecode, hpasses, Option.bind_eq_bind, Option.bind_some]
        cases passes with
        | false => exact ⟨false, rfl, by simp⟩
        | true =>
            cases hverify : env.verify v.verifier proof
                (v.publicInputs env.sha256 json pair.appId pair.nullifier) with
            | none => exact ⟨false, by simp [configOf, hverify], by simp⟩
            | some verified => exact ⟨verified, by simp [configOf, hverify], by simp⟩
      · simp only [hdecode, Option.bind_eq_bind, Option.bind_some]
        refine ⟨false, rfl, iff_of_false Bool.false_ne_true ?_⟩
        rintro ⟨pair', -, proof', json', hdecodes, -⟩
        exact hnone proof' json' hdecodes

/-- The two entry points of the validator, after any history of installs and uninstalls.  Each
returns normally, whatever it is given; and each accepts exactly when the caller, who must be the
sender of a user operation, has a pair installed that authorizes the operation's hash, or the
challenge of the message for this caller and chain. -/
theorem validator_total_and_sound (v : VeraKeyValidator) (env : Env) (events : ℕ → ModuleEvent)
    (n : ℕ) (caller : Address) (userOp : PackedUserOperation) (hash : B256) (data : CallData) :
    (∃ result, v.validateUserOp env (configsAfter events n) caller userOp hash = some result ∧
      (result = validationSuccess ∨ result = sigValidationFailed) ∧
      (result = validationSuccess ↔ userOp.sender = caller ∧
        ∃ pair, Installed events caller n (some pair) ∧
          v.Authorizes env pair hash userOp.signature)) ∧
    (∃ result, v.isValidSignatureWithSender env (configsAfter events n) caller hash data =
        some result ∧
      (result = erc1271MagicValue ∨ result = erc1271Invalid) ∧
      (result = erc1271MagicValue ↔ ∃ pair, Installed events caller n (some pair) ∧
        v.Authorizes env pair (erc1271Challenge env.keccak env.chainId caller hash) data)) ∧
    ((configsAfter events n caller).nullifier ≠ 0 ↔
      ∃ pair, Installed events caller n (some pair)) ∧
    ∀ pair, Installed events caller n (some pair) →
      configsAfter events n caller = ⟨pair.appId, pair.nullifier⟩ := by
  obtain ⟨installed, hinstalled⟩ := exists_installed events caller n
  have hconfig := hinstalled.configsAfter_eq
  have hhas : ∀ pair, Installed events caller n (some pair) ↔ installed = some pair := by
    intro pair
    constructor
    · intro h
      exact hinstalled.unique h
    · rintro rfl
      exact hinstalled
  simp only [hhas]
  refine ⟨?_, ?_, ?_, ?_⟩
  · rw [validateUserOp]
    by_cases hsender : userOp.sender = caller
    · obtain ⟨valid, hvalid, hiff⟩ := v.isValid_spec env hash userOp.signature hconfig
      rw [if_neg (not_not.mpr hsender), hvalid, ← hiff]
      cases valid with
      | true => exact ⟨validationSuccess, rfl, Or.inl rfl, by simp [hsender]⟩
      | false =>
          refine ⟨sigValidationFailed, rfl, Or.inr rfl, iff_of_false (by decide) ?_⟩
          exact fun hboth => Bool.false_ne_true hboth.2
    · rw [if_pos hsender]
      refine ⟨sigValidationFailed, rfl, Or.inr rfl, iff_of_false (by decide) ?_⟩
      exact fun hboth => hsender hboth.1
  · rw [isValidSignatureWithSender]
    obtain ⟨valid, hvalid, hiff⟩ := v.isValid_spec env
      (erc1271Challenge env.keccak env.chainId caller hash) data hconfig
    simp only [hvalid, ← hiff]
    cases valid with
    | true => exact ⟨erc1271MagicValue, rfl, Or.inl rfl, by simp⟩
    | false => exact ⟨erc1271Invalid, rfl, Or.inr rfl, by decide⟩
  · rw [hconfig, ne_eq, nullifier_configOf]
    exact Option.ne_none_iff_exists'
  · rintro pair rfl
    exact hconfig

end VeraKeyValidator

end VeraKey
