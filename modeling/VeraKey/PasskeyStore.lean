/-
What a browser remembers about passkeys: their records, the one-way check of a PRF secret, and
the list of records in `localStorage`.
-/
import VeraKey.Nullifier
import VeraKey.SdkBase64

namespace VeraKey

open ByteCodec TextCodec

namespace Sdk

deriving instance DecidableEq for PasskeyPublicKey

/-! ## Records -/

/-- A public key in the store: two hex texts. -/
structure StoredPublicKey where
  x : Bytes
  y : Bytes
deriving DecidableEq

structure StoredPasskey where
  credentialId : Bytes
  publicKey : StoredPublicKey
  label : Bytes
  createdAt : ℤ
  payment : Bool
  prfCheck : Option Bytes
deriving DecidableEq

def toStoredPasskey (credentialId : Bytes) (publicKey : PasskeyPublicKey) (label : Bytes)
    (now : ℤ) (payment : Bool) : StoredPasskey where
  credentialId := base64UrlEncode credentialId
  publicKey := ⟨bytesToHex publicKey.x, bytesToHex publicKey.y⟩
  label := label
  createdAt := now
  payment := payment
  prfCheck := none

/-- `publicKeyOf`, which throws on a text that is not hexadecimal. -/
def publicKeyOf (stored : StoredPasskey) : Option PasskeyPublicKey := do
  return ⟨← hexToBytes stored.publicKey.x, ← hexToBytes stored.publicKey.y⟩

def credentialIdBytes (stored : StoredPasskey) : Option Bytes :=
  base64UrlDecode stored.credentialId

theorem hexToBytes_bytesToHex (bytes : Bytes) : hexToBytes (bytesToHex bytes) = some bytes := by
  have hdrop : (bytesToHex bytes).drop 2 = hexText bytes := List.drop_left' rfl
  have heven : ¬ 2 * bytes.length % 2 = 1 := by omega
  have hhalf : 2 * bytes.length / 2 = bytes.length := by omega
  simp only [hexToBytes, hdrop, length_hexText, if_neg heven, hexNat_hexText, Option.map_some,
    hhalf, beBytes_beNat]

/-- A record keeps the key it is made of. -/
theorem publicKeyOf_toStoredPasskey (credentialId label : Bytes) (publicKey : PasskeyPublicKey)
    (now : ℤ) (payment : Bool) (check : Option Bytes) :
    publicKeyOf { toStoredPasskey credentialId publicKey label now payment with
      prfCheck := check } = some publicKey := by
  simp [publicKeyOf, toStoredPasskey, hexToBytes_bytesToHex]

/-! ## The check of a PRF secret -/

def prfCheckLabel : Bytes := ascii "VeraKey PRF check v1"

/-- The first 16 bytes of the hash, in hexadecimal digits. -/
def prfCheck (sha256 : Bytes → B256) (prfSecret : Bytes) : Bytes :=
  hexText ((sha256 (prfCheckLabel ++ prfSecret)).bytes.take 16)

/-! ## The list in `localStorage` -/

/-- What is stored under the key of the list; nothing when it is absent or does not parse. -/
abbrev LocalPasskeyStore : Type := Option (List StoredPasskey)

namespace LocalPasskeyStore

def list (store : LocalPasskeyStore) : List StoredPasskey := store.getD []

/-- The record with a credential id. -/
def find (store : LocalPasskeyStore) (id : Bytes) : Option StoredPasskey :=
  store.list.find? fun p => p.credentialId = id

def get (store : LocalPasskeyStore) (credentialId : Bytes) : Option StoredPasskey :=
  store.find (base64UrlEncode credentialId)

def save (store : LocalPasskeyStore) (passkey : StoredPasskey) : LocalPasskeyStore :=
  let rest := store.list.filter fun p => p.credentialId ≠ passkey.credentialId
  some (rest ++ [passkey])

theorem find_save (store : LocalPasskeyStore) (passkey : StoredPasskey) (id : Bytes) :
    (store.save passkey).find id =
      if id = passkey.credentialId then some passkey else store.find id := by
  have hrest : (store.list.filter fun p => p.credentialId ≠ passkey.credentialId).find?
      (fun p => p.credentialId = id) =
        if id = passkey.credentialId then none else store.find id := by
    rw [List.find?_filter]
    split
    · next hid =>
        apply List.find?_eq_none.mpr
        intro p _ hp
        simp [hid] at hp
    · next hid =>
        apply List.find?_congr
        intro p _
        by_cases hp : p.credentialId = id
        · simp [hp, hid]
        · simp [hp]
  change ((store.list.filter fun p => p.credentialId ≠ passkey.credentialId) ++ [passkey]).find?
    (fun p => p.credentialId = id) = _
  rw [List.find?_append, hrest]
  split
  · next hid => simp [hid]
  · next hid => simp [Ne.symm hid]

/-- Every record has a key that can be read. -/
def Readable (store : LocalPasskeyStore) : Prop :=
  ∀ p ∈ store.list, (publicKeyOf p).isSome = true

theorem Readable.save {store : LocalPasskeyStore} (hreadable : store.Readable)
    {passkey : StoredPasskey} (hkey : (publicKeyOf passkey).isSome = true) :
    (store.save passkey).Readable := by
  intro p hp
  rcases List.mem_append.mp hp with hp | hp
  · exact hreadable p (List.mem_of_mem_filter hp)
  · rw [List.mem_singleton.mp hp]
    exact hkey

theorem Readable.find {store : LocalPasskeyStore} (hreadable : store.Readable) {id : Bytes}
    {p : StoredPasskey} (hfind : store.find id = some p) : (publicKeyOf p).isSome = true :=
  hreadable p (List.mem_of_find?_eq_some hfind)

theorem credentialId_of_find {store : LocalPasskeyStore} {id : Bytes} {p : StoredPasskey}
    (hfind : store.find id = some p) : p.credentialId = id := by
  rw [LocalPasskeyStore.find] at hfind
  simpa using List.find?_some hfind

/-- The public key of a credential. -/
def keys (store : LocalPasskeyStore) (id : Bytes) : Option PasskeyPublicKey :=
  (store.find id).bind publicKeyOf

/-- The check of a credential. -/
def checks (store : LocalPasskeyStore) (id : Bytes) : Option Bytes :=
  (store.find id).bind StoredPasskey.prfCheck

end LocalPasskeyStore

end Sdk

end VeraKey
