/-
The kit's store: the keys the routes claim in it, and the default one, a map of expiries
that forgets what has expired once it is large.
-/
import VeraKey.ClaimStore
import VeraKey.SdkText

namespace VeraKey

open ByteCodec TextCodec

namespace Sdk

abbrev VeraKeyStore := ClaimStore.{0, 0} Bytes

/-- What a route claims. -/
inductive Claim
  | nonce (issued : Bytes)
  | signOut (sid : Bytes)
  | payment (found : Bytes)

/-- The key of a claim. -/
def Claim.key : Claim → Bytes
  | .nonce issued => ascii "nonce:" ++ toLowerCase issued
  | .signOut sid => ascii "signout:" ++ sid
  | .payment found => ascii "payment:" ++ toLowerCase found

/-- Two claims of one key are of one kind, and for the same but for letter case. -/
theorem Claim.key_inj {claim other : Claim} (hkey : claim.key = other.key) :
    match claim, other with
    | .nonce issued, .nonce issued' => toLowerCase issued = toLowerCase issued'
    | .signOut sid, .signOut sid' => sid = sid'
    | .payment found, .payment found' => toLowerCase found = toLowerCase found'
    | _, _ => False := by
  have hnonce : ascii "nonce:" = 110 :: ascii "once:" := by decide
  have hsignOut : ascii "signout:" = 115 :: ascii "ignout:" := by decide
  have hpayment : ascii "payment:" = 112 :: ascii "ayment:" := by decide
  cases claim with
  | nonce issued =>
      cases other with
      | nonce issued' => exact List.append_cancel_left hkey
      | _ => simp [key, hnonce, hsignOut, hpayment] at hkey
  | signOut sid =>
      cases other with
      | signOut sid' => exact List.append_cancel_left hkey
      | _ => simp [key, hnonce, hsignOut, hpayment] at hkey
  | payment found =>
      cases other with
      | payment found' => exact List.append_cancel_left hkey
      | _ => simp [key, hnonce, hsignOut, hpayment] at hkey

/-! ## The default store -/

/-- `until`: when each claim ends, if it does. -/
abbrev Expiries := AList fun _ : Bytes => Option ℤ

namespace Expiries

def has (expiries : Expiries) (now : ℤ) (key : Bytes) : Bool :=
  (expiries.lookup key).any fun expiry => expiry.all (now < ·)

/-- The map without the entries that have expired. -/
def sweep (expiries : Expiries) (now : ℤ) : Expiries where
  entries := expiries.entries.filter fun entry => entry.2.all (now < ·)
  nodupKeys := List.NodupKeys.sublist List.filter_sublist expiries.nodupKeys

def claim (expiries : Expiries) (now : ℤ) (key : Bytes) (ttlSeconds : Option ℤ) :
    Bool × Expiries :=
  if expiries.has now key then (false, expiries)
  else
    let added := expiries.insert key (ttlSeconds.map fun ttl => now + ttl * 1000)
    (true, if 10000 < added.entries.length then sweep added now else added)

variable {expiries : Expiries} {now t : ℤ} {key other : Bytes} {ttlSeconds : Option ℤ}

theorem lookup_sweep : (expiries.sweep now).lookup key =
    (expiries.lookup key).filter fun expiry => expiry.all (now < ·) := by
  apply Option.ext
  intro expiry
  rw [Option.filter_eq_some_iff, ← Option.mem_def, ← Option.mem_def, AList.mem_lookup_iff,
    AList.mem_lookup_iff]
  exact List.mem_filter

/-- A sweep forgets nothing that the store still has. -/
theorem has_sweep (hle : now ≤ t) : (expiries.sweep now).has t key = expiries.has t key := by
  rw [has, has, lookup_sweep]
  cases expiries.lookup key with
  | none => rfl
  | some expiry =>
      cases expiry with
      | none => rfl
      | some ending =>
          by_cases hlt : now < ending
          · simp [Option.filter, hlt]
          · have hended : ¬ t < ending := by omega
            simp [Option.filter, hlt, hended]

variable (expiries key other t) in
theorem has_insert (expiry : Option ℤ) :
    has (expiries.insert key expiry) t other =
      if other = key then expiry.all (t < ·) else expiries.has t other := by
  by_cases hsame : other = key
  · subst hsame
    rw [has, AList.lookup_insert, if_pos rfl]
    rfl
  · rw [has, AList.lookup_insert_ne hsame, if_neg hsame]
    rfl

/-- A claim adds its entry, swept or not. -/
theorem has_claim_snd (hfree : expiries.has now key = false) (hle : now ≤ t) :
    (expiries.claim now key ttlSeconds).2.has t other =
      if other = key then ttlSeconds.all fun ttl => t < now + ttl * 1000
      else expiries.has t other := by
  have hadded := has_insert expiries t key other (ttlSeconds.map fun ttl => now + ttl * 1000)
  rw [Option.all_map] at hadded
  rw [claim, hfree]
  simp only [Bool.false_eq_true, if_false]
  split
  · rw [has_sweep hle]
    exact hadded
  · exact hadded

end Expiries

/-- `memoryStore`: for one process. -/
def memoryStore : VeraKeyStore where
  State := Expiries
  empty := ∅
  claim := Expiries.claim
  release := fun expiries key => expiries.erase key
  has := Expiries.has
  has_empty := fun _ _ => rfl
  has_of_le := by
    intro expiries now t key hle hhas
    rw [Expiries.has, Option.any_eq_true] at hhas ⊢
    obtain ⟨expiry, hlookup, hlater⟩ := hhas
    refine ⟨expiry, hlookup, ?_⟩
    cases expiry with
    | none => rfl
    | some ending => exact decide_eq_true (hle.trans_lt (of_decide_eq_true hlater))
  claim_fst := by
    intro expiries now key ttlSeconds
    rw [Expiries.claim]
    cases expiries.has now key <;> rfl
  claim_of_has := by
    intro expiries now key ttlSeconds hhas
    rw [Expiries.claim, if_pos hhas]
  has_claim := by
    intro expiries now key ttlSeconds t hfree hle
    rw [Expiries.has_claim_snd hfree hle, if_pos rfl]
  has_claim_of_ne := by
    intro expiries now key ttlSeconds t other hne hle
    cases hhas : expiries.has now key with
    | true => rw [Expiries.claim, if_pos hhas]
    | false => rw [Expiries.has_claim_snd hhas hle, if_neg hne]
  has_release := by
    intro expiries key t
    rw [Expiries.has, AList.lookup_erase]
    rfl
  has_release_of_ne := by
    intro expiries key t other hne
    rw [Expiries.has, AList.lookup_erase_ne hne]
    rfl

end Sdk

end VeraKey
