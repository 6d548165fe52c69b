/-
The texts that numbers and addresses travel as: a decimal number is read back by `BigInt`, and
the checksum's case changes neither what an address spells nor that it is one.
-/
import VeraKey.AccountAddress
import VeraKey.Coercion
import VeraKey.FormatTotal

namespace VeraKey

open ByteCodec TextCodec

namespace Sdk

/-! ## Decimal numbers -/

/-- The character of a digit. -/
abbrev digitChar (d : ℕ) : UInt8 := UInt8.ofNat (48 + d)

theorem hexValue_digitChar : ∀ d < 10, hexValue (digitChar d) = some d := by
  decide

/-- Reading digits is Horner's rule. -/
theorem foldlM_digits {ds : List ℕ} (hds : ∀ d ∈ ds, d < 10) (n : ℕ) :
    (ds.map digitChar).foldlM
        (fun n c => ((hexValue c).filter (· < 10)).map (n * 10 + ·)) n =
      some (ds.foldl (fun n d => n * 10 + d) n) := by
  induction ds generalizing n with
  | nil => rfl
  | cons d ds ih =>
      have hd := hds d List.mem_cons_self
      have hfilter : (hexValue (digitChar d)).filter (· < 10) = some d := by
        rw [hexValue_digitChar d hd, Option.filter_some, if_pos (decide_eq_true hd)]
      rw [List.map_cons, List.foldlM_cons, hfilter]
      exact ih (fun e he => hds e (List.mem_cons_of_mem d he)) (n * 10 + d)

theorem digitsNumber_decimalNumber (n : ℕ) : digitsNumber 10 (decimalNumber n) = some n := by
  by_cases hn : n = 0
  · subst hn
    decide
  · have hdigits : (Nat.digits 10 n).reverse ≠ [] :=
      List.reverse_ne_nil_iff.mpr (Nat.digits_ne_nil_iff_ne_zero.mpr hn)
    have hlt : ∀ d ∈ (Nat.digits 10 n).reverse, d < 10 := by
      intro d hd
      exact Nat.digits_lt_base (by decide) (List.mem_reverse.mp hd)
    have hvalue : (Nat.digits 10 n).reverse.foldl (fun n d => n * 10 + d) 0 = n := by
      rw [List.foldl_reverse]
      calc (Nat.digits 10 n).foldr (fun d n => n * 10 + d) 0
          = Nat.ofDigits 10 (Nat.digits 10 n) := by
            rw [Nat.ofDigits_eq_foldr]
            congr 1
            funext d n
            rw [Nat.cast_id, Nat.mul_comm, Nat.add_comm]
        _ = n := Nat.ofDigits_digits 10 n
    rw [decimalNumber, if_neg hn, digitsNumber, if_neg (mt List.map_eq_nil_iff.mp hdigits)]
    rw [foldlM_digits hlt, hvalue]

/-- No white space starts or ends with a digit. -/
theorem find_space_digit {d : ℕ} (hd : d < 10) (rest : Bytes) :
    spaces.find? (fun space => space.isPrefixOf (digitChar d :: rest)) = none ∧
      (spaces.map List.reverse).find? (fun space => space.isPrefixOf (digitChar d :: rest)) =
        none := by
  have hheads : ∀ space ∈ spaces ++ spaces.map List.reverse, ∀ d < 10,
      space.head? ≠ none ∧ space.head? ≠ some (digitChar d) := by
    decide
  have hnone : ∀ dropped ⊆ spaces ++ spaces.map List.reverse,
      dropped.find? (fun space => space.isPrefixOf (digitChar d :: rest)) = none := by
    intro dropped hdropped
    rw [List.find?_eq_none]
    intro space hspace hprefix
    obtain ⟨hsome, hne⟩ := hheads space (hdropped hspace) d hd
    cases space with
    | nil => exact hsome rfl
    | cons c space =>
        rw [List.isPrefixOf_cons_cons, Bool.and_eq_true, beq_iff_eq] at hprefix
        exact hne (congrArg some hprefix.1)
  exact ⟨hnone _ (List.subset_append_left _ _), hnone _ (List.subset_append_right _ _)⟩

/-- A text that starts and ends with a digit has nothing to trim. -/
theorem trim_digits {ds : List ℕ} (hds : ∀ d ∈ ds, d < 10) :
    trim (ds.map digitChar) = ds.map digitChar := by
  have hfront : ∀ ds : List ℕ, (∀ d ∈ ds, d < 10) →
      trimFrom spaces 0 (ds.map digitChar) = ds.map digitChar ∧
        trimFrom (spaces.map List.reverse) 0 (ds.map digitChar) = ds.map digitChar := by
    intro ds hds
    cases ds with
    | nil => exact ⟨rfl, rfl⟩
    | cons d ds =>
        obtain ⟨hstart, hback⟩ :=
          find_space_digit (hds d List.mem_cons_self) (ds.map digitChar)
        constructor
        · rw [List.map_cons, trimFrom, hstart]
        · rw [List.map_cons, trimFrom, hback]
  rw [trim, (hfront ds hds).1, ← List.map_reverse,
    (hfront ds.reverse fun d hd => hds d (List.mem_reverse.mp hd)).2, ← List.map_reverse,
    List.reverse_reverse]

/-- The digits of a number, the first of them first. -/
theorem decimalNumber_eq_map (n : ℕ) : ∃ ds : List ℕ, (∀ d ∈ ds, d < 10) ∧
    decimalNumber n = ds.map digitChar ∧ (ds = [0] ∨ ∃ d rest, d ≠ 0 ∧ ds = d :: rest) := by
  by_cases hn : n = 0
  · subst hn
    exact ⟨[0], by decide, rfl, .inl rfl⟩
  · have hdigits : Nat.digits 10 n ≠ [] := Nat.digits_ne_nil_iff_ne_zero.mpr hn
    refine ⟨(Nat.digits 10 n).reverse, ?_, ?_, .inr ?_⟩
    · intro d hd
      exact Nat.digits_lt_base (by decide) (List.mem_reverse.mp hd)
    · rw [decimalNumber, if_neg hn]
    · refine ⟨(Nat.digits 10 n).getLast hdigits, (Nat.digits 10 n).dropLast.reverse,
        Nat.getLast_digit_ne_zero 10 hn, ?_⟩
      conv_lhs => rw [← List.dropLast_append_getLast hdigits]
      rw [List.reverse_append]
      rfl

/-- `BigInt` reads back what `toString` of a big integer wrote. -/
theorem stringToBigInt_decimalNumber (n : ℕ) : stringToBigInt (decimalNumber n) = some n := by
  obtain ⟨ds, hds, htext, hfirst⟩ := decimalNumber_eq_map n
  have hnumber := digitsNumber_decimalNumber n
  rw [stringToBigInt, htext, trim_digits hds, ← htext]
  rw [htext] at hnumber ⊢
  rcases hfirst with rfl | ⟨d, rest, hd, rfl⟩
  · change (digitsNumber 10 [48]).map _ = _
    rw [show digitsNumber 10 [48] = some n from hnumber]
    rfl
  · have hlt := hds d List.mem_cons_self
    have hsigns : ∀ d < 10, d ≠ 0 → digitChar d ≠ 0x2b ∧ digitChar d ≠ 0x2d ∧
        digitChar d ≠ 0x30 := by
      decide
    obtain ⟨hplus, hminus, hzero⟩ := hsigns d hlt hd
    rw [List.map_cons] at hnumber ⊢
    split
    · contradiction
    · rename_i heq
      exact absurd (List.cons.inj heq).1 hplus
    · rename_i heq
      exact absurd (List.cons.inj heq).1 hminus
    · rename_i heq
      exact absurd (List.cons.inj heq).1 hzero
    · rw [hnumber]
      rfl

/-! ## Addresses -/

/-- Capitals come back to the digits they stand for. -/
theorem lower_upperByte_hexDigit : ∀ d < 16, lowerByte (upperByte (hexDigit d)) = hexDigit d := by
  decide

theorem lower_zipWith {digits : List ℕ} {hash : Bytes} (hdigits : ∀ d ∈ digits, d < 16)
    (hlength : digits.length ≤ hash.length) (capital : UInt8 → Bool) :
    lower (List.zipWith (fun c h => if capital h then upperByte c else c)
      (digits.map hexDigit) hash) = digits.map hexDigit := by
  induction digits generalizing hash with
  | nil => rfl
  | cons d digits ih =>
      cases hash with
      | nil => exact absurd hlength (by simp)
      | cons h hash =>
          have hd := hdigits d List.mem_cons_self
          have hrest := ih (fun e he => hdigits e (List.mem_cons_of_mem d he))
            (Nat.le_of_succ_le_succ hlength)
          have hsame : ∀ d < 16, lowerByte (hexDigit d) = hexDigit d := by
            decide
          rw [List.map_cons, List.zipWith_cons_cons, lower, List.map_cons, ← lower, hrest]
          congr 1
          split
          · exact lower_upperByte_hexDigit d hd
          · exact hsame d hd

theorem hexText_eq_map (bytes : Bytes) : ∃ digits : List ℕ, (∀ d ∈ digits, d < 16) ∧
    hexText bytes = digits.map hexDigit := by
  induction bytes with
  | nil => exact ⟨[], nofun, rfl⟩
  | cons byte bytes ih =>
      obtain ⟨digits, hdigits, htext⟩ := ih
      have hbyte := byte.toNat_lt
      refine ⟨byte.toNat / 16 :: byte.toNat % 16 :: digits, ?_, ?_⟩
      · intro d hd
        rcases List.mem_cons.mp hd with rfl | hd
        · omega
        · rcases List.mem_cons.mp hd with rfl | hd
          · omega
          · exact hdigits d hd
      · rw [hexText, List.flatMap_cons, ← hexText, htext]
        rfl

variable {keccak : Bytes → B256} {text : Bytes} {address : Address}

theorem isHex_of_spells {bytes : Bytes} (hspells : Spells text bytes) : isHex text = true := by
  have hnat : hexNat (text.drop 2) = some (beNat bytes) := by
    rw [← hexNat_lower, hspells.2, hexNat_hexText]
  have hdigits := isSome_hexNat.mp (Option.isSome_of_eq_some hnat)
  rw [isHex, hspells.1, List.all_eq_true.mpr hdigits]
  decide

theorem toLowerCase_of_spells {bytes : Bytes} (hspells : Spells text bytes) :
    toLowerCase text = bytesToHex bytes := by
  have hfront : lower (text.take 2) = ascii "0x" := by
    rw [hspells.1]
    decide
  rw [toLowerCase, ← List.take_append_drop 2 text, lower, List.map_append, ← lower, ← lower,
    hfront, hspells.2]
  rfl

/-- The checksum's case spells the same address. -/
theorem spells_checksumAddress (hspells : Spells text address.bytes) :
    Spells (checksumAddress keccak text) address.bytes := by
  refine ⟨rfl, ?_⟩
  have hdrop : (bytesToHex address.bytes).drop 2 = hexText address.bytes := List.drop_left' rfl
  rw [checksumAddress, toLowerCase_of_spells hspells, hdrop]
  change lower (List.zipWith _ _ _) = _
  obtain ⟨digits, hdigits, htext⟩ := hexText_eq_map address.bytes
  have hlength : digits.length ≤ (hexText (keccak (hexText address.bytes)).bytes).length := by
    have hcount := congrArg List.length htext
    rw [List.length_map, length_hexText, address.length_eq] at hcount
    rw [length_hexText, (keccak _).length_eq]
    omega
  rw [htext] at hlength ⊢
  exact lower_zipWith hdigits hlength fun h => (hexValue h).any (8 ≤ ·)

theorem spells_addressText (address : Address) :
    Spells (addressText keccak address) address.bytes :=
  spells_checksumAddress (spells_bytesToHex _)

theorem checksumAddress_congr {other : Bytes} (hspells : Spells text address.bytes)
    (hother : Spells other address.bytes) :
    checksumAddress keccak text = checksumAddress keccak other := by
  rw [checksumAddress, checksumAddress, toLowerCase_of_spells hspells,
    toLowerCase_of_spells hother]

/-- A text in the checksum's case is an address. -/
theorem isAddress_addressText (address : Address) :
    isAddress keccak (addressText keccak address) = true := by
  have hspells := @spells_addressText keccak address
  have hany := isAnyAddress_of_spells hspells
  have hsame : checksumAddress keccak (addressText keccak address) = addressText keccak address :=
    checksumAddress_congr hspells (spells_bytesToHex _)
  rw [isAnyAddress] at hany
  rw [isAddress, hany, decide_eq_true hsame, Bool.or_true, Bool.and_true]

theorem isAddress_bytesToHex (address : Address) :
    isAddress keccak (bytesToHex address.bytes) = true := by
  have hspells := spells_bytesToHex address.bytes
  have hany := isAnyAddress_of_spells hspells
  rw [isAnyAddress] at hany
  rw [isAddress, hany, decide_eq_true (toLowerCase_of_spells hspells), Bool.true_or,
    Bool.and_true]

theorem addressOf_of_spells (hspells : Spells text address.bytes) :
    addressOf text = some address := by
  rw [addressOf, hexToBytes_of_spells hspells, Option.bind_some, FixedBytes.ofSlice?,
    dif_pos address.length_eq]

end Sdk

end VeraKey
