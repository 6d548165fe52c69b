/-
The total of a payment sheet is an exact, canonical decimal: it fits the buffers it is written
in, spells the base units and nothing else, and is the text that the SDK opens the sheet with.
-/
import VeraKey.PaymentSheet

namespace VeraKey

open ByteCodec TextCodec

/-! ## The buffers -/

namespace ClientData

/-- `buffer[i] = byte`, which panics outside the buffer. -/
def store (buffer : Bytes) (i : ℕ) (byte : UInt8) : Option Bytes :=
  if i < buffer.length then some (buffer.set i byte) else none

/-- The loop over `digits` and `n`: the decimal digits of `w`, least significant first. -/
def writeWhole (digits : Bytes) (n w : ℕ) : Option (Bytes × ℕ) := do
  let digits ← store digits n (UInt8.ofNat (48 + w % 10))
  if w / 10 = 0 then return (digits, n + 1) else writeWhole digits (n + 1) (w / 10)
termination_by w
decreasing_by omega

/-- `format_total` with its buffers of 40 and 48 bytes: the second one and the length used. -/
def formatTotalBuffer (units : U128) : Option (Bytes × ℕ) := do
  let (digits, n) ← writeWhole (List.replicate 40 0) 0 (units.toNat / 1000000)
  let out ← (List.range n).foldlM (fun out i => do store out i (← digits[n - 1 - i]?))
    (List.replicate 48 0)
  let out ← store out n 0x2e
  let decimals := decimalDigits 6 (units.toNat % 1000000)
  let keep := keepDecimals decimals 6
  let out ← (List.range keep).foldlM (fun out i => do store out (n + 1 + i) (← decimals[i]?)) out
  return (out, n + 1 + keep)

end ClientData

namespace Sdk

/-- `toString` of a big integer. -/
def decimalNumber (n : ℕ) : Bytes :=
  if n = 0 then [48] else (Nat.digits 10 n).reverse.map fun d => UInt8.ofNat (48 + d)

/-- The loop of `formatSpcTotal`. -/
def trimZeros (fraction : Bytes) : Bytes :=
  if 2 < fraction.length ∧ fraction.getLast? = some 48 then trimZeros fraction.dropLast
  else fraction
termination_by fraction.length
decreasing_by
  rw [List.length_dropLast]
  omega

def formatSpcTotal (units : ℕ) : Bytes :=
  decimalNumber (units / 1000000) ++ ascii "." ++
    trimZeros (padStart 6 48 (decimalNumber (units % 1000000)))

end Sdk

namespace ClientData

/-! ## Decimal texts -/

def IsDigit (c : UInt8) : Prop := ∃ d < 10, c = UInt8.ofNat (48 + d)

/-- What a nonempty text of digits spells. -/
def decimalNat (digits : Bytes) : ℕ := Nat.ofDigits 10 (digits.reverse.map digitValue)

/-- A decimal number with one point, its first part without leading zeros and its second of
two to six places, without zeros that could go. -/
structure CanonicalTotal (whole fraction : Bytes) : Prop where
  whole_digits : ∀ c ∈ whole, IsDigit c
  whole_ne_nil : whole ≠ []
  leading : whole.head? = some 48 → whole = [48]
  fraction_digits : ∀ c ∈ fraction, IsDigit c
  two_le : 2 ≤ fraction.length
  le_six : fraction.length ≤ 6
  trailing : 2 < fraction.length → fraction.getLast? ≠ some 48

theorem isDigit_ofNat (n : ℕ) : IsDigit (UInt8.ofNat (48 + n % 10)) :=
  ⟨n % 10, Nat.mod_lt n (by decide), rfl⟩

theorem isDigit_wholeDigits {size w : ℕ} : ∀ c ∈ wholeDigits size w, IsDigit c := by
  induction size generalizing w with
  | zero => nofun
  | succ size ih =>
      intro c hc
      rw [wholeDigits, List.mem_cons] at hc
      rcases hc with rfl | hc
      · exact isDigit_ofNat w
      · split_ifs at hc
        · contradiction
        · exact ih c hc

theorem isDigit_decimalDigits {count frac : ℕ} : ∀ c ∈ decimalDigits count frac, IsDigit c := by
  induction count generalizing frac with
  | zero => nofun
  | succ count ih =>
      intro c hc
      rw [decimalDigits, List.mem_append, List.mem_singleton] at hc
      rcases hc with hc | rfl
      · exact ih c hc
      · exact isDigit_ofNat frac

/-- The most significant digit is not zero, but for zero itself. -/
theorem wholeDigits_leading {size w : ℕ} (hw : w < 10 ^ (size + 1))
    (hlast : (wholeDigits (size + 1) w).getLast? = some 48) : wholeDigits (size + 1) w = [48] := by
  induction size generalizing w with
  | zero =>
      have hzero : w / 10 = 0 := by omega
      rw [wholeDigits, if_pos hzero] at hlast ⊢
      exact congrArg (fun c => [c]) (Option.some.inj hlast)
  | succ size ih =>
      rw [wholeDigits] at hlast ⊢
      split_ifs at hlast ⊢ with hzero
      · exact congrArg (fun c => [c]) (Option.some.inj hlast)
      · -- the digits of a tenth of it are not those of zero
        have htail : w / 10 < 10 ^ (size + 1) := by omega
        have hne : wholeDigits (size + 1) (w / 10) ≠ [] := by
          rw [wholeDigits]
          exact List.cons_ne_nil _ _
        rw [List.getLast?_cons_of_ne_nil hne] at hlast
        have hdigits := ih htail hlast
        have hspells := ofDigits_wholeDigits htail
        rw [hdigits] at hspells
        exact absurd hspells.symm hzero

/-- The decimals that stay: at least two, and no zero at the end of more. -/
theorem keepDecimals_spec (decimals : Bytes) (keep : ℕ) (htwo : 2 ≤ keep) :
    2 ≤ keepDecimals decimals keep ∧
      (2 < keepDecimals decimals keep →
        decimals.getD (keepDecimals decimals keep - 1) 0 ≠ 48) := by
  induction keep, htwo using Nat.le_induction with
  | base =>
      have hbase : keepDecimals decimals 2 = 2 := by
        rw [keepDecimals, if_neg fun hzero => absurd hzero.1 (Nat.lt_irrefl 2)]
      rw [hbase]
      exact ⟨le_rfl, fun hlt => absurd hlt (Nat.lt_irrefl 2)⟩
  | succ keep htwo ih =>
      rw [keepDecimals]
      split_ifs with hzero
      · exact ih
      · refine ⟨by omega, ?_⟩
        intro hlt hlast
        exact hzero ⟨hlt, hlast⟩

/-! ## What the buffers hold -/

theorem store_append (front : Bytes) (k : ℕ) (c : UInt8) :
    store (front ++ List.replicate (k + 1) 0) front.length c =
      some (front ++ [c] ++ List.replicate k 0) := by
  have hlt : front.length < (front ++ List.replicate (k + 1) 0).length := by
    rw [List.length_append, List.length_replicate]
    omega
  rw [store, if_pos hlt, List.set_append_right _ _ le_rfl, Nat.sub_self, List.replicate_succ,
    List.set_cons_zero, List.append_assoc]
  rfl

theorem length_wholeDigits_le {size w j : ℕ} (hw : w < 10 ^ (j + 1)) :
    (wholeDigits size w).length ≤ j + 1 := by
  induction size generalizing w j with
  | zero => exact Nat.zero_le _
  | succ size ih =>
      rw [wholeDigits, List.length_cons]
      split_ifs with hzero
      · exact Nat.succ_le_succ (Nat.zero_le j)
      · cases j with
        | zero => omega
        | succ j =>
            have htail : w / 10 < 10 ^ (j + 1) := by omega
            exact Nat.succ_le_succ (ih htail)

theorem writeWhole_eq {size w k : ℕ} (front : Bytes) (hw : w < 10 ^ (size + 1))
    (hk : (wholeDigits (size + 1) w).length ≤ k) :
    writeWhole (front ++ List.replicate k 0) front.length w =
      some (front ++ wholeDigits (size + 1) w ++
        List.replicate (k - (wholeDigits (size + 1) w).length) 0,
        front.length + (wholeDigits (size + 1) w).length) := by
  induction size generalizing w k front with
  | zero =>
      have hzero : w / 10 = 0 := by omega
      rw [wholeDigits, if_pos hzero] at hk ⊢
      obtain ⟨k, rfl⟩ := Nat.exists_eq_add_of_le' hk
      rw [writeWhole, List.length_singleton, store_append]
      simp [hzero]
  | succ size ih =>
      rw [wholeDigits] at hk ⊢
      have hpos : 1 ≤ k := (Nat.succ_le_succ (Nat.zero_le _)).trans hk
      obtain ⟨k, rfl⟩ := Nat.exists_eq_add_of_le' hpos
      rw [writeWhole, store_append]
      by_cases hzero : w / 10 = 0
      · simp [hzero]
      · rw [if_neg hzero, List.length_cons] at hk
        have htail : w / 10 < 10 ^ (size + 1) := by omega
        have hrest := ih (front ++ [UInt8.ofNat (48 + w % 10)]) htail (Nat.le_of_succ_le_succ hk)
        rw [List.length_append, List.length_singleton] at hrest
        simp only [hzero, if_false, Option.bind_eq_bind, Option.bind_some]
        rw [hrest]
        simp [Nat.add_assoc, Nat.add_comm 1]

/-- Copying a text into a buffer that has room for it. -/
theorem copy_eq (front : Bytes) {text : Bytes} {k : ℕ} {read : ℕ → Option UInt8} (hk : text.length ≤ k)
    (hread : ∀ i < text.length, read i = text[i]?) :
    (List.range text.length).foldlM (fun out i => do store out (front.length + i) (← read i))
      (front ++ List.replicate k 0) =
        some (front ++ text ++ List.replicate (k - text.length) 0) := by
  induction text using List.reverseRecOn generalizing k with
  | nil => simp
  | append_singleton text c ih =>
      rw [List.length_append, List.length_singleton] at hk hread ⊢
      have hbefore : ∀ i < text.length, read i = text[i]? := by
        intro i hi
        rw [hread i (by omega), List.getElem?_append_left hi]
      have hlast : read text.length = some c := by
        rw [hread text.length (Nat.lt_succ_self _), List.getElem?_concat_length]
      have hroom : k - text.length = k - (text.length + 1) + 1 := by omega
      rw [List.range_succ, List.foldlM_append, ih (Nat.le_of_succ_le hk) hbefore]
      simp only [Option.bind_eq_bind, Option.bind_some, List.foldlM_cons, List.foldlM_nil, hlast,
        hroom]
      have hstore := store_append (front ++ text) (k - (text.length + 1)) c
      rw [List.length_append] at hstore
      rw [hstore]
      simp

theorem whole_lt_buffer (units : U128) : units.toNat / 1000000 < 10 ^ 33 := by
  have hunits : units.toNat < 2 ^ 128 := units.isLt
  omega

/-- `format_total` never leaves its buffers, and what it writes is the text of the model. -/
theorem formatTotalBuffer_eq (units : U128) :
    (formatTotal units).length ≤ 40 ∧ formatTotalBuffer units =
      some (formatTotal units ++ List.replicate (48 - (formatTotal units).length) 0,
        (formatTotal units).length) := by
  have hwhole : (wholeDigits 40 (units.toNat / 1000000)).length ≤ 33 :=
    length_wholeDigits_le (whole_lt_buffer units)
  have hkeep := keepDecimals_le (decimalDigits 6 (units.toNat % 1000000)) 6
  have hkept : ((decimalDigits 6 (units.toNat % 1000000)).take
      (keepDecimals (decimalDigits 6 (units.toNat % 1000000)) 6)).length =
        keepDecimals (decimalDigits 6 (units.toNat % 1000000)) 6 := by
    rw [List.length_take, length_decimalDigits]
    omega
  have hlength : (formatTotal units).length =
      (wholeDigits 40 (units.toNat / 1000000)).length + 1 +
        keepDecimals (decimalDigits 6 (units.toNat % 1000000)) 6 := by
    rw [formatTotal, List.length_append, List.length_append, hkept, List.length_reverse]
    rfl
  refine ⟨by omega, ?_⟩
  have hforty : (wholeDigits (39 + 1) (units.toNat / 1000000)).length ≤ 40 :=
    hwhole.trans (by decide)
  have hdigits := writeWhole_eq [] (whole_lt units) hforty
  rw [List.nil_append, List.nil_append, List.length_nil, Nat.zero_add] at hdigits
  rw [formatTotalBuffer, hdigits]
  simp only [Option.bind_eq_bind, Option.bind_some]
  rw [hlength, formatTotal]
  generalize wholeDigits 40 (units.toNat / 1000000) = whole at hwhole
  generalize hdec : decimalDigits 6 (units.toNat % 1000000) = decimals at hkept hkeep
  generalize keepDecimals decimals 6 = keep at hkept hkeep
  -- the whole part, most significant digit first
  have hreverse : ∀ i < whole.reverse.length,
      (whole ++ List.replicate (40 - whole.length) 0)[whole.length - 1 - i]? =
        whole.reverse[i]? := by
    intro i hi
    rw [List.length_reverse] at hi
    rw [List.getElem?_append_left (by omega), List.getElem?_reverse hi]
  have hcopied := copy_eq [] (k := 48) (by rw [List.length_reverse]; omega) hreverse
  simp only [List.length_reverse, List.nil_append, List.length_nil, Nat.zero_add,
    Option.bind_eq_bind] at hcopied
  rw [hcopied, Option.bind_some]
  -- the point
  have hroom : 48 - whole.length = 47 - whole.length + 1 := by omega
  have hpoint := store_append whole.reverse (47 - whole.length) 0x2e
  rw [List.length_reverse] at hpoint
  rw [hroom, hpoint, Option.bind_some]
  -- and the decimals that stay
  have htake : ∀ i < (decimals.take keep).length, decimals[i]? = (decimals.take keep)[i]? := by
    intro i hi
    rw [hkept] at hi
    rw [List.getElem?_take_of_lt hi]
  have hdecimals := copy_eq (whole.reverse ++ [0x2e]) (k := 47 - whole.length)
    (by rw [hkept]; omega) htake
  simp only [hkept, List.length_append, List.length_reverse, List.length_singleton,
    Option.bind_eq_bind] at hdecimals
  rw [hdecimals, Option.bind_some]
  have hrest : 47 - whole.length - keep = 48 - (whole.length + 1 + keep) := by omega
  rw [hrest]
  rfl

/-! ## The text -/

/-- The base units that a decimal text of at most six places spells: its places are filled up
with zeros. -/
def parseTotal (text : Bytes) : ℕ :=
  let whole := text.takeWhile fun c => c ≠ 0x2e
  let fraction := (text.dropWhile fun c => c ≠ 0x2e).drop 1
  decimalNat whole * 1000000 +
    decimalNat (fraction ++ List.replicate (6 - fraction.length) 48)

theorem ne_point_of_isDigit {c : UInt8} (hc : IsDigit c) : c ≠ 0x2e := by
  obtain ⟨d, hd, rfl⟩ := hc
  decide +revert

theorem canonical_formatTotal (units : U128) : ∃ whole fraction,
    formatTotal units = whole ++ ascii "." ++ fraction ∧ CanonicalTotal whole fraction := by
  have hkeep := keepDecimals_le (decimalDigits 6 (units.toNat % 1000000)) 6
  obtain ⟨htwo, htrailing⟩ :=
    keepDecimals_spec (decimalDigits 6 (units.toNat % 1000000)) 6 (by decide)
  have hlength : (decimalDigits 6 (units.toNat % 1000000)).length = 6 := length_decimalDigits _ _
  have hdigits : ∀ c ∈ decimalDigits 6 (units.toNat % 1000000), IsDigit c :=
    isDigit_decimalDigits
  refine ⟨_, _, rfl, ?_⟩
  generalize decimalDigits 6 (units.toNat % 1000000) = decimals at *
  generalize keepDecimals decimals 6 = keep at *
  have hkept : (decimals.take keep).length = keep := by
    rw [List.length_take, hlength]
    omega
  constructor
  · intro c hc
    exact isDigit_wholeDigits c (List.mem_reverse.mp hc)
  · intro hnil
    rw [List.reverse_eq_nil_iff, wholeDigits] at hnil
    exact absurd hnil (List.cons_ne_nil _ _)
  · intro hhead
    rw [List.head?_reverse] at hhead
    rw [wholeDigits_leading (whole_lt units) hhead]
    rfl
  · intro c hc
    exact hdigits c (List.mem_of_mem_take hc)
  · rwa [hkept]
  · rwa [hkept]
  · intro hlt hlast
    rw [hkept] at hlt
    apply htrailing hlt
    have hindex : keep - 1 < decimals.length := by omega
    rw [List.getLast?_eq_getElem?, hkept, List.getElem?_take_of_lt (by omega),
      List.getElem?_eq_getElem hindex] at hlast
    rw [List.getD_eq_getElem _ _ hindex]
    exact Option.some.inj hlast

theorem parseTotal_formatTotal (units : U128) : parseTotal (formatTotal units) = units.toNat := by
  have hkeep := keepDecimals_le (decimalDigits 6 (units.toNat % 1000000)) 6
  have hlength : (decimalDigits 6 (units.toNat % 1000000)).length = 6 := length_decimalDigits _ _
  have hpadded := take_keepDecimals (le_of_eq hlength.symm)
  have hspells : decimalNat (decimalDigits 6 (units.toNat % 1000000)) = units.toNat % 1000000 :=
    ofDigits_decimalDigits (Nat.mod_lt _ (by decide))
  have hwhole : decimalNat (wholeDigits 40 (units.toNat / 1000000)).reverse =
      units.toNat / 1000000 := by
    rw [decimalNat, List.reverse_reverse]
    exact ofDigits_wholeDigits (whole_lt units)
  have hnopoint : ∀ c ∈ (wholeDigits 40 (units.toNat / 1000000)).reverse,
      decide (c ≠ 0x2e) = true := by
    intro c hc
    exact decide_eq_true (ne_point_of_isDigit (isDigit_wholeDigits c (List.mem_reverse.mp hc)))
  rw [List.take_of_length_le (le_of_eq hlength)] at hpadded
  rw [formatTotal, List.append_assoc, parseTotal]
  simp only [List.takeWhile_append_of_pos hnopoint, List.dropWhile_append_of_pos hnopoint]
  generalize decimalDigits 6 (units.toNat % 1000000) = decimals at *
  generalize keepDecimals decimals 6 = keep at *
  have hkept : (decimals.take keep).length = keep := by
    rw [List.length_take, hlength]
    omega
  have hpoint : ∀ rest : Bytes, (ascii "." ++ rest).takeWhile (fun c => decide (c ≠ 0x2e)) = [] ∧
      (ascii "." ++ rest).dropWhile (fun c => decide (c ≠ 0x2e)) = ascii "." ++ rest := by
    intro rest
    exact ⟨rfl, rfl⟩
  have hafter : (ascii "." ++ decimals.take keep).drop 1 = decimals.take keep := rfl
  rw [(hpoint _).1, (hpoint _).2, List.append_nil, hwhole, hafter, hkept, hpadded, hspells]
  exact Nat.div_add_mod' units.toNat 1000000

/-! ## The SDK's text -/

theorem decimalNumber_eq {size w : ℕ} (hw : w < 10 ^ (size + 1)) :
    Sdk.decimalNumber w = (wholeDigits (size + 1) w).reverse := by
  have hdigits : ∀ {size w : ℕ}, 0 < w → w < 10 ^ (size + 1) →
      (Nat.digits 10 w).map (fun d => UInt8.ofNat (48 + d)) = wholeDigits (size + 1) w := by
    intro size
    induction size with
    | zero =>
        intro w hpos hlt
        have hzero : w / 10 = 0 := by omega
        rw [Nat.digits_def' (by decide) hpos, hzero, Nat.digits_zero, wholeDigits, if_pos hzero]
        rfl
    | succ size ih =>
        intro w hpos hlt
        rw [Nat.digits_def' (by decide) hpos, wholeDigits, List.map_cons]
        split_ifs with hzero
        · rw [hzero, Nat.digits_zero, List.map_nil]
        · rw [ih (Nat.pos_of_ne_zero hzero) (by omega)]
  rw [Sdk.decimalNumber]
  split_ifs with hzero
  · subst hzero
    rfl
  · rw [List.map_reverse, hdigits (Nat.pos_of_ne_zero hzero) hw]

/-- Six places, filled up with zeros on the left. -/
theorem padStart_decimalNumber {count frac : ℕ} (hfrac : frac < 10 ^ (count + 1)) :
    padStart (count + 1) 48 (Sdk.decimalNumber frac) = decimalDigits (count + 1) frac := by
  rw [decimalNumber_eq hfrac]
  induction count generalizing frac with
  | zero =>
      have hzero : frac / 10 = 0 := by omega
      rw [wholeDigits, if_pos hzero, decimalDigits, decimalDigits]
      rfl
  | succ count ih =>
      rw [wholeDigits, decimalDigits]
      split_ifs with hzero
      · have hzeros : decimalDigits (count + 1) 0 = List.replicate (count + 1) 48 := by
          have hpadded := @ih 0 (Nat.pos_of_ne_zero (by positivity))
          rw [← hpadded, wholeDigits, if_pos rfl, padStart, List.reverse_singleton,
            List.length_singleton, List.replicate_succ']
          rfl
        rw [hzero, hzeros, padStart, List.reverse_singleton, List.length_singleton]
        rfl
      · rw [← ih (by omega), padStart, padStart, List.reverse_cons, List.length_append,
          List.length_singleton, Nat.add_sub_add_right, List.append_assoc]

theorem trimZeros_eq (decimals : Bytes) {keep : ℕ} (hkeep : keep ≤ decimals.length) :
    Sdk.trimZeros (decimals.take keep) = decimals.take (keepDecimals decimals keep) := by
  induction keep with
  | zero =>
      rw [Sdk.trimZeros, keepDecimals, List.take_zero]
      rfl
  | succ keep ih =>
      have hlength : (decimals.take (keep + 1)).length = keep + 1 := by
        rw [List.length_take]
        omega
      have hlast : (decimals.take (keep + 1)).getLast? = some (decimals.getD keep 0) := by
        rw [List.getLast?_eq_getElem?, hlength, Nat.add_sub_cancel,
          List.getElem?_take_of_lt (Nat.lt_succ_self keep), List.getElem?_eq_getElem hkeep,
          List.getD_eq_getElem _ _ hkeep]
      have hdrop : (decimals.take (keep + 1)).dropLast = decimals.take keep := by
        rw [List.dropLast_eq_take, hlength, Nat.add_sub_cancel, List.take_take,
          Nat.min_eq_left (Nat.le_succ keep)]
      rw [Sdk.trimZeros, hlength, hlast, hdrop, keepDecimals]
      by_cases hzero : 2 < keep + 1 ∧ decimals.getD keep 0 = 48
      · rw [if_pos hzero, if_pos ⟨hzero.1, congrArg some hzero.2⟩]
        exact ih (Nat.le_of_succ_le hkeep)
      · rw [if_neg hzero, if_neg fun h => hzero ⟨h.1, Option.some.inj h.2⟩]

theorem formatSpcTotal_eq (units : U128) :
    Sdk.formatSpcTotal units.toNat = formatTotal units := by
  have hfrac : units.toNat % 1000000 < 10 ^ (5 + 1) := Nat.mod_lt _ (by decide)
  have hlength : (decimalDigits 6 (units.toNat % 1000000)).length = 6 := length_decimalDigits _ _
  have htrim := trimZeros_eq (decimalDigits 6 (units.toNat % 1000000))
    (le_of_eq hlength.symm)
  rw [List.take_of_length_le (le_of_eq hlength)] at htrim
  rw [Sdk.formatSpcTotal, decimalNumber_eq (whole_lt units), padStart_decimalNumber hfrac, htrim]
  rfl

/-- The total of a payment sheet is an exact, canonical decimal: `format_total` never leaves its
buffers, and its text spells the base units, is a decimal in canonical form, tells the units
apart and is the text that the SDK writes. -/
theorem format_total_exact_canonical :
    (∀ units : U128,
      (formatTotal units).length ≤ 40 ∧
      formatTotalBuffer units =
        some (formatTotal units ++ List.replicate (48 - (formatTotal units).length) 0,
          (formatTotal units).length) ∧
      parseTotal (formatTotal units) = units.toNat ∧
      (∃ whole fraction, formatTotal units = whole ++ ascii "." ++ fraction ∧
        CanonicalTotal whole fraction) ∧
      Sdk.formatSpcTotal units.toNat = formatTotal units) ∧
    Function.Injective formatTotal := by
  refine ⟨?_, fun _ _ => formatTotal_inj⟩
  intro units
  obtain ⟨hlength, hbuffer⟩ := formatTotalBuffer_eq units
  exact ⟨hlength, hbuffer, parseTotal_formatTotal units, canonical_formatTotal units,
    formatSpcTotal_eq units⟩

end ClientData

end VeraKey
