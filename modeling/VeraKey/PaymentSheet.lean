/-
The grammar of client data is unambiguous: one text carries one challenge and, as a
payment sheet, one payee, one total and one relying party's id.
-/
import VeraKey.ClientData
import VeraKey.TextCodec

namespace VeraKey

open ByteCodec TextCodec

namespace ClientData

/-! ## The payee -/

theorem payeeName_eq (payee : Address) :
    payeeName payee = ascii "0x" ++ hexText payee.bytes := by
  have hbyte : ∀ byte : UInt8,
      [(ascii "0123456789abcdef").getD (byte >>> 4).toNat 0,
        (ascii "0123456789abcdef").getD (byte &&& 0x0f).toNat 0] = hexByte byte := by
    intro byte
    have hmask : (0x0f : UInt8).toNat = 2 ^ 4 - 1 := rfl
    have hshift : (byte >>> 4).toNat = byte.toNat / 2 ^ 4 := by
      rw [UInt8.toNat_shiftRight, ← Nat.shiftRight_eq_div_pow]
      rfl
    rw [hshift, UInt8.toNat_and, hmask, Nat.and_two_pow_sub_one_eq_mod]
    rfl
  rw [payeeName, hexText]
  simp only [hbyte]

theorem length_payeeName (payee : Address) : (payeeName payee).length = 42 := by
  rw [payeeName_eq, List.length_append, length_hexText, payee.length_eq]
  rfl

theorem payeeName_inj {payee payee' : Address} (heq : payeeName payee = payeeName payee') :
    payee = payee' := by
  rw [payeeName_eq, payeeName_eq] at heq
  exact FixedBytes.ext (hexText_inj (List.append_cancel_left heq))

/-! ## The total -/

def digitValue (digit : UInt8) : ℕ := digit.toNat - 48

theorem toNat_digit (n : ℕ) : (UInt8.ofNat (48 + n % 10)).toNat = 48 + n % 10 := by
  rw [UInt8.toNat_ofNat']
  omega

theorem le_of_mem_wholeDigits {size w : ℕ} : ∀ digit ∈ wholeDigits size w, 48 ≤ digit.toNat := by
  induction size generalizing w with
  | zero => simp [wholeDigits]
  | succ size ih =>
      intro digit hdigit
      rw [wholeDigits, List.mem_cons] at hdigit
      rcases hdigit with rfl | hrest
      · rw [toNat_digit]
        exact Nat.le_add_right 48 _
      · split_ifs at hrest
        · simp at hrest
        · exact ih digit hrest

theorem le_of_mem_decimalDigits {count frac : ℕ} :
    ∀ digit ∈ decimalDigits count frac, 48 ≤ digit.toNat := by
  induction count generalizing frac with
  | zero => simp [decimalDigits]
  | succ count ih =>
      intro digit hdigit
      rw [decimalDigits, List.mem_append, List.mem_singleton] at hdigit
      rcases hdigit with hrest | rfl
      · exact ih digit hrest
      · rw [toNat_digit]
        exact Nat.le_add_right 48 _

/-- The digits before the point spell the number. -/
theorem ofDigits_wholeDigits {size w : ℕ} (hw : w < 10 ^ size) :
    Nat.ofDigits 10 ((wholeDigits size w).map digitValue) = w := by
  induction size generalizing w with
  | zero =>
      rw [wholeDigits, List.map_nil, Nat.ofDigits_nil]
      omega
  | succ size ih =>
      have htail : Nat.ofDigits 10 ((if w / 10 = 0 then [] else wholeDigits size (w / 10)).map
          digitValue) = w / 10 := by
        split_ifs with hzero
        · rw [List.map_nil, Nat.ofDigits_nil, hzero]
        · exact ih (by omega)
      rw [wholeDigits, List.map_cons, Nat.ofDigits_cons, htail, digitValue, toNat_digit]
      omega

/-- So do all digits after it. -/
theorem ofDigits_decimalDigits {count frac : ℕ} (hfrac : frac < 10 ^ count) :
    Nat.ofDigits 10 ((decimalDigits count frac).reverse.map digitValue) = frac := by
  induction count generalizing frac with
  | zero =>
      rw [decimalDigits, List.reverse_nil, List.map_nil, Nat.ofDigits_nil]
      omega
  | succ count ih =>
      rw [decimalDigits, List.reverse_append, List.reverse_singleton, List.singleton_append,
        List.map_cons, Nat.ofDigits_cons, ih (by omega), digitValue, toNat_digit]
      omega

@[simp]
theorem length_decimalDigits (count frac : ℕ) : (decimalDigits count frac).length = count := by
  induction count generalizing frac with
  | zero => rfl
  | succ count ih => rw [decimalDigits, List.length_append, ih, List.length_singleton]

theorem keepDecimals_le (decimals : Bytes) (keep : ℕ) : keepDecimals decimals keep ≤ keep := by
  induction keep with
  | zero => exact le_rfl
  | succ keep ih =>
      rw [keepDecimals]
      split_ifs
      · exact ih.trans (Nat.le_succ keep)
      · exact le_rfl

/-- The decimals that go are zeros. -/
theorem take_keepDecimals {decimals : Bytes} {keep : ℕ} (hkeep : keep ≤ decimals.length) :
    decimals.take (keepDecimals decimals keep) ++
      List.replicate (keep - keepDecimals decimals keep) 48 = decimals.take keep := by
  induction keep with
  | zero => rfl
  | succ keep ih =>
      rw [keepDecimals]
      split_ifs with hzero
      · have hlast : decimals[keep] = 48 := by
          rw [← List.getD_eq_getElem decimals 0 hkeep]
          exact hzero.2
        have hsub : keep + 1 - keepDecimals decimals keep =
            keep - keepDecimals decimals keep + 1 := by
          have hle := keepDecimals_le decimals keep
          omega
        rw [hsub, List.replicate_succ', ← List.append_assoc, ih (Nat.le_of_succ_le hkeep),
          List.take_succ_eq_append_getElem hkeep, hlast]
      · simp

theorem keptDecimals_inj {decimals decimals' : Bytes} {count : ℕ}
    (hlength : decimals.length = count) (hlength' : decimals'.length = count)
    (heq : decimals.take (keepDecimals decimals count) =
      decimals'.take (keepDecimals decimals' count)) : decimals = decimals' := by
  have hkept := congrArg List.length heq
  have hle := keepDecimals_le decimals count
  have hle' := keepDecimals_le decimals' count
  rw [List.length_take_of_le (by omega), List.length_take_of_le (by omega)] at hkept
  have hpad := take_keepDecimals (le_of_eq hlength.symm)
  have hpad' := take_keepDecimals (le_of_eq hlength'.symm)
  rw [List.take_of_length_le (le_of_eq hlength)] at hpad
  rw [List.take_of_length_le (le_of_eq hlength')] at hpad'
  rw [← hpad, ← hpad', heq, hkept]

theorem wholeDigits_inj {size w w' : ℕ} (hw : w < 10 ^ size) (hw' : w' < 10 ^ size)
    (heq : wholeDigits size w = wholeDigits size w') : w = w' := by
  rw [← ofDigits_wholeDigits hw, heq, ofDigits_wholeDigits hw']

theorem decimalDigits_inj {count frac frac' : ℕ} (hfrac : frac < 10 ^ count)
    (hfrac' : frac' < 10 ^ count) (heq : decimalDigits count frac = decimalDigits count frac') :
    frac = frac' := by
  rw [← ofDigits_decimalDigits hfrac, heq, ofDigits_decimalDigits hfrac']

theorem whole_lt (units : U128) : units.toNat / 1000000 < 10 ^ 40 := by
  have hunits : units.toNat < 2 ^ 128 := units.isLt
  omega

/-- No digit is a point or a quote. -/
theorem not_mem_of_lt {digits : Bytes} {byte : UInt8} (hdigits : ∀ digit ∈ digits, 48 ≤ digit.toNat)
    (hbyte : byte.toNat < 48) : byte ∉ digits := fun hmem =>
  absurd (hdigits byte hmem) (Nat.not_le_of_lt hbyte)

theorem formatTotal_inj {units units' : U128} (heq : formatTotal units = formatTotal units') :
    units = units' := by
  have hpoint : ∀ total : U128, (46 : UInt8) ∉ (wholeDigits 40 (total.toNat / 1000000)).reverse :=
    fun total => fun hmem =>
      not_mem_of_lt le_of_mem_wholeDigits (by decide) (List.mem_reverse.mp hmem)
  simp only [formatTotal, List.append_assoc] at heq
  obtain ⟨hwhole, hdecimals⟩ := append_delimiter_inj (hpoint units) (hpoint units') heq
  have hwhole := wholeDigits_inj (whole_lt units) (whole_lt units') (List.reverse_injective hwhole)
  have hfrac := decimalDigits_inj (Nat.mod_lt _ (by decide)) (Nat.mod_lt _ (by decide))
    (keptDecimals_inj (length_decimalDigits 6 _) (length_decimalDigits 6 _) hdecimals)
  apply BitVec.eq_of_toNat_eq
  omega

theorem quote_not_mem_formatTotal (units : U128) : quote ∉ formatTotal units := by
  have hdecimals : quote ∉ decimalDigits 6 (units.toNat % 1000000) :=
    not_mem_of_lt le_of_mem_decimalDigits (by decide)
  have hwhole : quote ∉ wholeDigits 40 (units.toNat / 1000000) :=
    not_mem_of_lt le_of_mem_wholeDigits (by decide)
  simp only [formatTotal, List.mem_append, List.mem_reverse, not_or]
  exact ⟨⟨hwhole, by decide⟩, fun hmem => hdecimals (List.mem_of_mem_take hmem)⟩

/-! ## The sheet -/

variable {origin rpId rpId' logos logos' tail tail' : Bytes} {payment payment' : Payment}

theorem skipLogos (hlogos : logos = [] ∨ logos = spcLogos) (rest : Bytes) :
    (expect (logos ++ (spcTotalKey ++ rest)) spcLogos).getD (logos ++ (spcTotalKey ++ rest)) =
      spcTotalKey ++ rest :=
  skipLogos_eq.mpr ⟨logos, hlogos, rfl⟩

/-- With or without the logos, what follows the payee is read one way. -/
theorem afterLogos_inj {rest rest' : Bytes} (hlogos : logos = [] ∨ logos = spcLogos)
    (hlogos' : logos' = [] ∨ logos' = spcLogos)
    (heq : logos ++ (spcTotalKey ++ rest) = logos' ++ (spcTotalKey ++ rest')) : rest = rest' := by
  have hskip : spcTotalKey ++ rest = spcTotalKey ++ rest' := by
    rw [← skipLogos hlogos rest, heq, skipLogos hlogos' rest']
  exact List.append_cancel_left hskip

/-- A sheet shows one relying party's id and one payment. -/
theorem sheetRest_inj (hid : IsRpId rpId) (hid' : IsRpId rpId')
    (hlogos : logos = [] ∨ logos = spcLogos) (hlogos' : logos' = [] ∨ logos' = spcLogos)
    (heq : sheetRest origin rpId logos payment tail =
      sheetRest origin rpId' logos' payment' tail') : rpId = rpId' ∧ payment = payment' := by
  unfold sheetRest at heq
  have heq := List.append_cancel_left (List.append_cancel_left (List.append_cancel_left heq))
  obtain ⟨hrpId, heq⟩ := append_delimiter_inj hid.2.1 hid'.2.1 heq
  have heq := List.append_cancel_left (List.append_cancel_left (List.append_cancel_left heq))
  obtain ⟨hpayee, heq⟩ := List.append_inj heq
    ((length_payeeName _).trans (length_payeeName _).symm)
  have heq := afterLogos_inj hlogos hlogos' (List.append_cancel_left heq)
  obtain ⟨htotal, -⟩ := append_delimiter_inj (quote_not_mem_formatTotal _)
    (quote_not_mem_formatTotal _) heq
  have hpayment : payment = payment' := by
    cases payment
    cases payment'
    rw [Payment.mk.injEq]
    exact ⟨payeeName_inj hpayee, formatTotal_inj htotal⟩
  exact ⟨hrpId, hpayment⟩

/-- The parsers accept exactly their grammar, and the grammar is unambiguous. -/
theorem accepts_iff_grammar (json origin : Bytes) :
    (∀ challenge, verify json challenge origin = .ok () ↔
      json.length ≤ 1024 ∧ ∃ rest, EndsOrigin rest ∧
        json = typeAndChallengeKey ++ (encode32 challenge ++
          (originKey ++ (origin ++ ([quote] ++ rest))))) ∧
    (∀ challenge payment rpId, verifyPayment json challenge origin payment = .ok rpId ↔
      json.length ≤ 1024 ∧ IsRpId rpId ∧
        ∃ logos rest, (logos = [] ∨ logos = spcLogos) ∧
          json = spcPrefix ++ (encode32 challenge ++
            sheetRest origin rpId logos payment rest)) ∧
    (∀ challenge challenge', verify json challenge origin = .ok () →
      verify json challenge' origin = .ok () → challenge = challenge') ∧
    (∀ challenge challenge' payment payment' rpId rpId',
      verifyPayment json challenge origin payment = .ok rpId →
      verifyPayment json challenge' origin payment' = .ok rpId' →
      challenge = challenge' ∧ payment = payment') ∧
    (∀ challenge challenge' payment rpId, verify json challenge origin = .ok () →
      verifyPayment json challenge' origin payment ≠ .ok rpId) := by
  refine ⟨fun _ => verify_eq_ok, fun _ _ _ => verifyPayment_eq_ok, ?_, ?_, ?_⟩
  · intro challenge challenge' hverify hverify'
    obtain ⟨-, rest, -, rfl⟩ := verify_eq_ok.mp hverify
    obtain ⟨-, rest', -, heq⟩ := verify_eq_ok.mp hverify'
    exact challenge_unique heq
  · intro challenge challenge' payment payment' rpId rpId' hverify hverify'
    obtain ⟨-, hid, logos, rest, hlogos, rfl⟩ := verifyPayment_eq_ok.mp hverify
    obtain ⟨-, hid', logos', rest', hlogos', heq⟩ := verifyPayment_eq_ok.mp hverify'
    obtain rfl := challenge_unique heq
    have hsheet := List.append_cancel_left (List.append_cancel_left heq)
    exact ⟨rfl, (sheetRest_inj hid hid' hlogos hlogos' hsheet).2⟩
  · intro challenge challenge' payment rpId hverify hverify'
    obtain ⟨-, rest, -, rfl⟩ := verify_eq_ok.mp hverify
    obtain ⟨-, -, logos, rest', -, heq⟩ := verifyPayment_eq_ok.mp hverify'
    exact typeAndChallengeKey_append_ne _ _ heq

end ClientData

end VeraKey
