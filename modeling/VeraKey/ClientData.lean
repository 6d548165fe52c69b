/-
The byte-level check of WebAuthn client data: a fixed layout that holds the
challenge and the origin, or, for Secure Payment Confirmation, also the payee
and the total that the browser showed.
-/
import VeraKey.Base64Url
import VeraKey.Guard
import VeraKey.Word

namespace VeraKey

open ByteCodec Guard

/-! ## The challenge -/

/-- `ALPHABET[value as usize & 63]`. -/
def sextet (value : ℕ) : UInt8 := Base64Url.alphabet.getD (value &&& 63) 0

/-- The loop of `encode_32` with `groups` three-byte groups still to go, and the
last two bytes after it. -/
def encodeGroups : (groups : ℕ) → Bytes → Bytes
  | groups + 1, a :: b :: c :: rest =>
      let n := a.toNat <<< 16 ||| b.toNat <<< 8 ||| c.toNat
      sextet (n >>> 18) :: sextet (n >>> 12) :: sextet (n >>> 6) :: sextet n ::
        encodeGroups groups rest
  | 0, [a, b] =>
      let n := a.toNat <<< 16 ||| b.toNat <<< 8
      [sextet (n >>> 18), sextet (n >>> 12), sextet (n >>> 6)]
  | _, _ => []

/-- A 32-byte challenge as 43 unpadded base64url characters. -/
def encode32 (input : B256) : Bytes := encodeGroups 10 input.bytes

theorem sextet_eq_digit (value : ℕ) : sextet value = Base64Url.digit value := by
  rw [sextet, Base64Url.digit, show 63 = 2 ^ 6 - 1 from rfl,
    Nat.and_two_pow_sub_one_eq_mod]

theorem group_eq_pack (a b c : UInt8) :
    a.toNat <<< 16 ||| b.toNat <<< 8 ||| c.toNat = Base64Url.pack a b c := by
  have hb := b.toNat_lt
  have hc := c.toNat_lt
  have hlow : b.toNat <<< 8 ||| c.toNat = b.toNat * 256 + c.toNat := by
    rw [← Nat.shiftLeft_add_eq_or_of_lt hc, Nat.shiftLeft_eq]
  have hmid : b.toNat * 256 + c.toNat < 2 ^ 16 := by omega
  rw [Nat.or_assoc, hlow, ← Nat.shiftLeft_add_eq_or_of_lt hmid, Nat.shiftLeft_eq,
    Base64Url.pack, Nat.add_assoc]

theorem encodeGroups_eq_encode (groups : ℕ) (input : Bytes)
    (hlength : input.length = 3 * groups + 2) :
    encodeGroups groups input = Base64Url.encode input := by
  induction groups generalizing input with
  | zero =>
      obtain ⟨a, b, rfl⟩ := List.length_eq_two.mp hlength
      have hgroup := group_eq_pack a b 0
      rw [UInt8.toNat_zero, Nat.or_zero] at hgroup
      simp only [encodeGroups, Base64Url.encode, hgroup, sextet_eq_digit,
        Nat.shiftRight_eq_div_pow, Nat.reducePow]
  | succ groups ih =>
      obtain ⟨a, b, c, rest, rfl, hrest⟩ := Base64Url.exists_group hlength
      simp only [encodeGroups, Base64Url.encode, group_eq_pack,
        sextet_eq_digit, Nat.shiftRight_eq_div_pow, Nat.reducePow, ih rest hrest]

theorem encode32_eq_encode (input : B256) :
    encode32 input = Base64Url.encode input.bytes :=
  encodeGroups_eq_encode 10 input.bytes input.length_eq

theorem encode32_inj {left right : B256} (heq : encode32 left = encode32 right) :
    left = right := by
  rw [encode32_eq_encode, encode32_eq_encode] at heq
  exact FixedBytes.ext
    (Base64Url.encode_inj (left.length_eq.trans right.length_eq.symm) heq)

theorem length_encodeGroups (groups : ℕ) (input : Bytes)
    (hlength : input.length = 3 * groups + 2) :
    (encodeGroups groups input).length = 4 * groups + 3 := by
  induction groups generalizing input with
  | zero =>
      obtain ⟨a, b, rfl⟩ := List.length_eq_two.mp hlength
      rfl
  | succ groups ih =>
      obtain ⟨a, b, c, rest, rfl, hrest⟩ := Base64Url.exists_group hlength
      simp only [encodeGroups, List.length_cons, ih rest hrest]
      omega

theorem length_encode32 (input : B256) : (encode32 input).length = 43 :=
  length_encodeGroups 10 input.bytes input.length_eq

/-! ## Client data -/

namespace ClientData

def maxClientDataLen : ℕ := 1024

def typeAndChallengeKey : Bytes :=
  ascii "\x7b\"type\":\"webauthn.get\",\"challenge\":\""

def originKey : Bytes := ascii "\",\"origin\":\""

def crossOriginTrue : Bytes := ascii ",\"crossOrigin\":true"

/-- First bytes of a Secure Payment Confirmation assertion's client data. -/
def spcPrefix : Bytes := ascii "\x7b\"type\":\"payment.get\",\"challenge\":\""

def spcRpIdKey : Bytes :=
  ascii "\",\"crossOrigin\":false,\"payment\":\x7b\"rpId\":\""

def spcTopOriginKey : Bytes := ascii "\",\"topOrigin\":\""

def spcPayeeNameKey : Bytes := ascii "\",\"payeeName\":\""

def spcAfterPayee : Bytes := ascii "\","

def spcLogos : Bytes := ascii "\"paymentEntitiesLogos\":[],"

def spcTotalKey : Bytes := ascii "\"total\":\x7b\"value\":\""

def spcCurrencyAndInstrument : Bytes :=
  ascii "\",\"currency\":\"USD\"\x7d,\"instrument\":\x7b"

def quote : UInt8 := 0x22
def comma : UInt8 := 0x2c
def backslash : UInt8 := 0x5c
def closingBrace : UInt8 := 0x7d

inductive ClientDataError
  | tooLong
  | notAnAssertion
  | challengeMismatch
  | originMismatch
  | malformed
  | crossOrigin
  | paymentMismatch
  | rpIdMismatch
deriving DecidableEq, Repr

def ClientDataError.code : ClientDataError → UInt8
  | tooLong => 1
  | notAnAssertion => 2
  | challengeMismatch => 3
  | originMismatch => 4
  | malformed => 5
  | crossOrigin => 6
  | paymentMismatch => 7
  | rpIdMismatch => 8

/-- The payment an SPC assertion must show: `total` is everything that leaves
the account, amount plus fee. -/
structure Payment where
  payee : Address
  total : U128
deriving DecidableEq

/-- `0x` and 40 lowercase hex digits. -/
def payeeName (payee : Address) : Bytes :=
  let hex := ascii "0123456789abcdef"
  ascii "0x" ++ payee.bytes.flatMap fun (byte : UInt8) =>
    [hex.getD (byte >>> 4).toNat 0, hex.getD (byte &&& 0x0f).toNat 0]

/-- Decimal digits, least significant first, in a buffer of `size` bytes. -/
def wholeDigits : (size : ℕ) → ℕ → Bytes
  | 0, _ => []
  | size + 1, w =>
      UInt8.ofNat (48 + w % 10) :: if w / 10 = 0 then [] else wholeDigits size (w / 10)

/-- The last `count` decimal digits, most significant first. -/
def decimalDigits : (count : ℕ) → ℕ → Bytes
  | 0, _ => []
  | count + 1, frac => decimalDigits count (frac / 10) ++ [UInt8.ofNat (48 + frac % 10)]

/-- How many decimals stay: trailing zeros go, down to two. -/
def keepDecimals (decimals : Bytes) : ℕ → ℕ
  | 0 => 0
  | keep + 1 =>
      if keep + 1 > 2 ∧ decimals.getD keep 0 = 48 then keepDecimals decimals keep
      else keep + 1

/-- The SPC `total.value` for `units` base units of six decimals. -/
def formatTotal (units : U128) : Bytes :=
  let decimals := decimalDigits 6 (units.toNat % 1000000)
  (wholeDigits 40 (units.toNat / 1000000)).reverse ++ ascii "." ++
    decimals.take (keepDecimals decimals 6)

/-- The bytes after `token`, if `rest` starts with it. -/
def expect (rest token : Bytes) : Option Bytes :=
  if rest.take token.length = token then some (rest.drop token.length) else none

/-- Bytes up to the next quote; a backslash is refused. -/
def scanRpId : Bytes → Except ClientDataError (Bytes × Bytes)
  | [] => .ok ([], [])
  | byte :: rest =>
      if byte = quote then .ok ([], byte :: rest)
      else if byte = backslash then .error .malformed
      else do
        let (rpId, rest) ← scanRpId rest
        return (byte :: rpId, rest)

/-- Checks an SPC `payment.get` client data and returns the signed `rpId`. -/
def verifyPayment (json : Bytes) (challenge : B256) (origin : Bytes)
    (payment : Payment) : Except ClientDataError Bytes := do
  rejectIf (json.length > maxClientDataLen) .tooLong
  let rest ← orElse (expect json spcPrefix) .notAnAssertion
  let rest ← orElse (expect rest (encode32 challenge)) .challengeMismatch
  let rest ← orElse (expect rest originKey) .challengeMismatch
  let rest ← orElse (expect rest origin) .originMismatch
  let rest ← orElse (expect rest spcRpIdKey) .malformed
  let (rpId, rest) ← scanRpId rest
  rejectIf (rest = [] ∨ rpId = []) .malformed
  let rest ← orElse (expect rest spcTopOriginKey) .originMismatch
  let rest ← orElse (expect rest origin) .originMismatch
  let rest ← orElse (expect rest spcPayeeNameKey) .paymentMismatch
  let rest ← orElse (expect rest (payeeName payment.payee)) .paymentMismatch
  let rest ← orElse (expect rest spcAfterPayee) .paymentMismatch
  let rest := (expect rest spcLogos).getD rest
  let rest ← orElse (expect rest spcTotalKey) .paymentMismatch
  let rest ← orElse (expect rest (formatTotal payment.total)) .paymentMismatch
  let _ ← orElse (expect rest spcCurrencyAndInstrument) .paymentMismatch
  return rpId

/-- Checks that `json` is a `webauthn.get` client data with this challenge and
exactly this origin. -/
def verify (json : Bytes) (challenge : B256) (origin : Bytes) :
    Except ClientDataError Unit := do
  rejectIf (json.length > maxClientDataLen) .tooLong
  let rest ← orElse (expect json typeAndChallengeKey) .notAnAssertion
  let rest ← orElse (expect rest (encode32 challenge)) .challengeMismatch
  let rest ← orElse (expect rest originKey) .challengeMismatch
  let rest ← orElse (expect rest origin) .originMismatch
  let rest ← orElse (expect rest [quote]) .originMismatch
  if rest.head? = some closingBrace then return ()
  else if rest.head? = some comma then
    rejectIf (crossOriginTrue <+: rest) .crossOrigin
  else .error .malformed

/-! ## What is accepted -/

theorem expect_eq_some {rest token rest' : Bytes} :
    expect rest token = some rest' ↔ rest = token ++ rest' := by
  unfold expect
  constructor
  · split
    · rename_i htake
      rintro ⟨rfl⟩
      have hsplit := List.take_append_drop token.length rest
      rw [htake] at hsplit
      exact hsplit.symm
    · simp
  · rintro rfl
    simp

/-- What may follow the quoted origin. -/
def EndsOrigin (tail : Bytes) : Prop :=
  tail.head? = some closingBrace ∨
    tail.head? = some comma ∧ ¬ crossOriginTrue <+: tail

theorem verify_eq_ok {json : Bytes} {challenge : B256} {origin : Bytes} :
    verify json challenge origin = .ok () ↔
      json.length ≤ maxClientDataLen ∧ ∃ tail, EndsOrigin tail ∧
        json = typeAndChallengeKey ++ (encode32 challenge ++
          (originKey ++ (origin ++ ([quote] ++ tail)))) := by
  have hend : ∀ tail : Bytes, ((if tail.head? = some closingBrace then return ()
      else if tail.head? = some comma then
        rejectIf (crossOriginTrue <+: tail) ClientDataError.crossOrigin
      else .error .malformed) = Except.ok ()) ↔ EndsOrigin tail := by
    intro tail
    have hne : comma ≠ closingBrace := by decide
    unfold EndsOrigin
    by_cases hbrace : tail.head? = some closingBrace
    · simp [hbrace]
    · by_cases hcomma : tail.head? = some comma <;> simp [hbrace, hcomma, hne]
  unfold verify
  simp only [bind_eq_ok, rejectIf_eq_ok, orElse_eq_ok, expect_eq_some, hend,
    gt_iff_lt, not_lt]
  constructor
  · rintro ⟨-, hlength, r₁, rfl, r₂, rfl, r₃, rfl, r₄, rfl, tail, rfl, htail⟩
    exact ⟨hlength, tail, htail, rfl⟩
  · rintro ⟨hlength, tail, htail, rfl⟩
    exact ⟨⟨⟩, hlength, _, rfl, _, rfl, _, rfl, _, rfl, tail, rfl, htail⟩

/-- The scan stops at the first quote or at the end, and passes no backslash. -/
theorem of_scanRpId {rest rpId rest' : Bytes} (hscan : scanRpId rest = .ok (rpId, rest')) :
    rest = rpId ++ rest' ∧ (quote ∉ rpId ∧ backslash ∉ rpId) ∧
      (rest' = [] ∨ rest'.head? = some quote) := by
  induction rest generalizing rpId with
  | nil =>
      simp only [scanRpId, Except.ok.injEq, Prod.mk.injEq] at hscan
      obtain ⟨rfl, rfl⟩ := hscan
      simp
  | cons byte rest ih =>
      unfold scanRpId at hscan
      split_ifs at hscan with hquote hbackslash
      · simp only [Except.ok.injEq, Prod.mk.injEq] at hscan
        obtain ⟨rfl, rfl⟩ := hscan
        simp [hquote]
      · simp only [bind_eq_ok, pure_eq_ok, Prod.mk.injEq, Prod.exists] at hscan
        obtain ⟨rpId, tail, htail, rfl, rfl⟩ := hscan
        obtain ⟨rfl, ⟨hnoQuote, hnoBackslash⟩, hrest⟩ := ih htail
        refine ⟨rfl, ⟨?_, ?_⟩, hrest⟩
        · exact List.not_mem_cons_of_ne_of_not_mem (Ne.symm hquote) hnoQuote
        · exact List.not_mem_cons_of_ne_of_not_mem (Ne.symm hbackslash) hnoBackslash

/-- A field without quotes and backslashes is scanned whole. -/
theorem scanRpId_append {rpId rest : Bytes} (hquote : quote ∉ rpId)
    (hbackslash : backslash ∉ rpId) :
    scanRpId (rpId ++ quote :: rest) = .ok (rpId, quote :: rest) := by
  induction rpId with
  | nil => rfl
  | cons byte rpId ih =>
      have htail := ih (List.not_mem_of_not_mem_cons hquote)
        (List.not_mem_of_not_mem_cons hbackslash)
      have hne := (List.ne_of_not_mem_cons hquote).symm
      have hne' := (List.ne_of_not_mem_cons hbackslash).symm
      rw [List.cons_append, scanRpId, if_neg hne, if_neg hne', htail]
      rfl

/-- The bytes of an accepted payment sheet after the challenge. -/
def sheetRest (origin rpId logos : Bytes) (payment : Payment) (tail : Bytes) : Bytes :=
  originKey ++ (origin ++ (spcRpIdKey ++ (rpId ++ (spcTopOriginKey ++ (origin ++
    (spcPayeeNameKey ++ (payeeName payment.payee ++ (spcAfterPayee ++ (logos ++
      (spcTotalKey ++ (formatTotal payment.total ++
        (spcCurrencyAndInstrument ++ tail))))))))))))

/-- The logos are skipped when they stand there; the total's key cannot be taken for
them. -/
theorem skipLogos_eq {rest rest' : Bytes} :
    (expect rest spcLogos).getD rest = spcTotalKey ++ rest' ↔
      ∃ logos, (logos = [] ∨ logos = spcLogos) ∧ rest = logos ++ (spcTotalKey ++ rest') := by
  have htotal : expect (spcTotalKey ++ rest') spcLogos = none := by
    rw [expect, if_neg]
    intro heq
    have hbyte := congrArg (fun bytes : Bytes => bytes[1]?) heq
    rw [List.getElem?_take_of_lt (by decide), List.getElem?_append_left (by decide)] at hbyte
    exact absurd hbyte (by decide)
  constructor
  · intro hrest
    cases hlogos : expect rest spcLogos with
    | none =>
        rw [hlogos, Option.getD_none] at hrest
        exact ⟨[], Or.inl rfl, hrest⟩
    | some after =>
        rw [hlogos, Option.getD_some] at hrest
        exact ⟨spcLogos, Or.inr rfl, hrest ▸ expect_eq_some.mp hlogos⟩
  · rintro ⟨logos, rfl | rfl, rfl⟩
    · rw [List.nil_append, htotal, Option.getD_none]
    · rw [expect_eq_some.mpr rfl, Option.getD_some]

/-- What may stand as the relying party's id. -/
def IsRpId (rpId : Bytes) : Prop := rpId ≠ [] ∧ quote ∉ rpId ∧ backslash ∉ rpId

/-- A payment sheet is accepted exactly when it has this layout, and its relying
party's id is returned. -/
theorem verifyPayment_eq_ok {json : Bytes} {challenge : B256} {origin rpId : Bytes}
    {payment : Payment} :
    verifyPayment json challenge origin payment = .ok rpId ↔
      json.length ≤ maxClientDataLen ∧ IsRpId rpId ∧
        ∃ logos tail, (logos = [] ∨ logos = spcLogos) ∧
          json = spcPrefix ++ (encode32 challenge ++
            sheetRest origin rpId logos payment tail) := by
  unfold verifyPayment
  simp only [bind_eq_ok, rejectIf_eq_ok, orElse_eq_ok, expect_eq_some,
    pure_eq_ok, Prod.exists, skipLogos_eq, gt_iff_lt, not_lt, not_or]
  constructor
  · rintro ⟨-, hlength, r₁, rfl, r₂, rfl, r₃, rfl, r₄, rfl, r₅, rfl, id, r₆, hscan, -,
      ⟨-, hne⟩, r₇, rfl, r₈, rfl, r₉, rfl, r₁₀, rfl, r₁₁, rfl, r₁₂,
      ⟨logos, hlogos, rfl⟩, r₁₃, rfl, r₁₄, rfl, rfl⟩
    obtain ⟨rfl, hid, -⟩ := of_scanRpId hscan
    exact ⟨hlength, ⟨hne, hid⟩, logos, r₁₄, hlogos, rfl⟩
  · rintro ⟨hlength, ⟨hne, hid⟩, logos, tail, hlogos, rfl⟩
    exact ⟨⟨⟩, hlength, _, rfl, _, rfl, _, rfl, _, rfl, _, rfl, rpId, _,
      scanRpId_append hid.1 hid.2, ⟨⟩, ⟨List.cons_ne_nil _ _, hne⟩, _, rfl, _, rfl, _, rfl, _, rfl,
      _, rfl, _, ⟨logos, hlogos, rfl⟩, _, rfl, _, rfl, rfl⟩

/-- The layout places the challenge, so client data carries only one. -/
theorem challenge_unique {start : Bytes} {left right : B256} {rest rest' : Bytes}
    (heq : start ++ (encode32 left ++ rest) = start ++ (encode32 right ++ rest')) :
    left = right := by
  rw [List.append_right_inj] at heq
  exact encode32_inj (List.append_inj_left heq
    ((length_encode32 left).trans (length_encode32 right).symm))

/-- The two kinds of client data differ in their first bytes. -/
theorem typeAndChallengeKey_append_ne (left right : Bytes) :
    typeAndChallengeKey ++ left ≠ spcPrefix ++ right := by
  intro heq
  have hbyte := congrArg (fun json : Bytes => json[9]?) heq
  rw [List.getElem?_append_left (by decide), List.getElem?_append_left (by decide)] at hbyte
  exact absurd hbyte (by decide)

end ClientData

end VeraKey
