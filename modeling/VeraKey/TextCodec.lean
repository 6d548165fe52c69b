/-
Text fields as bytes: fields that end at a delimiter, and numbers and byte strings
written in hexadecimal digits.
-/
import VeraKey.ByteCodec

namespace TextCodec

open ByteCodec

/-! ## Delimited fields -/

/-- A field is read off the text up to the first delimiter. -/
theorem append_delimiter_inj {α : Type} {delimiter : α} {left right rest rest' : List α}
    (hleft : delimiter ∉ left) (hright : delimiter ∉ right)
    (heq : left ++ delimiter :: rest = right ++ delimiter :: rest') :
    left = right ∧ rest = rest' := by
  induction left generalizing right with
  | nil =>
      cases right with
      | nil => exact ⟨rfl, List.tail_eq_of_cons_eq heq⟩
      | cons c right =>
          have hhead := List.head_eq_of_cons_eq heq
          exact absurd (hhead ▸ List.mem_cons_self) hright
  | cons c left ih =>
      cases right with
      | nil =>
          have hhead := List.head_eq_of_cons_eq heq
          exact absurd (hhead ▸ List.mem_cons_self) hleft
      | cons c' right =>
          obtain ⟨hhead, htail⟩ := List.cons.inj heq
          obtain ⟨hfield, hrest⟩ := ih (List.not_mem_of_not_mem_cons hleft)
            (List.not_mem_of_not_mem_cons hright) htail
          exact ⟨by rw [hhead, hfield], hrest⟩

/-! ## Hexadecimal digits -/

/-- The lowercase digit. -/
def hexDigit (d : ℕ) : UInt8 := (ascii "0123456789abcdef").getD d 0

/-- The value of a digit in either case. -/
def hexValue (c : UInt8) : Option ℕ :=
  if 48 ≤ c ∧ c ≤ 57 then some (c.toNat - 48)
  else if 97 ≤ c ∧ c ≤ 102 then some (c.toNat - 87)
  else if 65 ≤ c ∧ c ≤ 70 then some (c.toNat - 55)
  else none

theorem hexValue_hexDigit : ∀ d < 16, hexValue (hexDigit d) = some d := by
  decide

theorem hexDigit_inj {d d' : ℕ} (hd : d < 16) (hd' : d' < 16)
    (heq : hexDigit d = hexDigit d') : d = d' := by
  have hvalue := hexValue_hexDigit d hd
  rw [heq, hexValue_hexDigit d' hd'] at hvalue
  exact (Option.some.inj hvalue).symm

def hexByte (byte : UInt8) : Bytes := [hexDigit (byte.toNat / 16), hexDigit (byte.toNat % 16)]

/-- Two digits a byte. -/
def hexText (bytes : Bytes) : Bytes := bytes.flatMap hexByte

theorem hexByte_inj {byte byte' : UInt8} (heq : hexByte byte = hexByte byte') : byte = byte' := by
  have hlt := byte.toNat_lt
  have hlt' := byte'.toNat_lt
  obtain ⟨hhigh, htail⟩ := List.cons.inj heq
  have hhigh := hexDigit_inj (by omega) (by omega) hhigh
  have hlow := hexDigit_inj (by omega) (by omega) (List.cons.inj htail).1
  apply UInt8.toNat_inj.mp
  omega

@[simp]
theorem length_hexText (bytes : Bytes) : (hexText bytes).length = 2 * bytes.length := by
  induction bytes with
  | nil => rfl
  | cons byte rest ih =>
      rw [hexText, List.flatMap_cons, List.length_append, List.length_cons, ← hexText, ih]
      simp only [hexByte, List.length_cons, List.length_nil]
      omega

theorem hexText_inj {left right : Bytes} (heq : hexText left = hexText right) :
    left = right := by
  induction left generalizing right with
  | nil =>
      have hlength := congrArg List.length heq
      rw [length_hexText, length_hexText, List.length_nil] at hlength
      exact (List.eq_nil_of_length_eq_zero (by omega)).symm
  | cons byte left ih =>
      cases right with
      | nil =>
          have hlength := congrArg List.length heq
          rw [length_hexText, length_hexText, List.length_cons, List.length_nil] at hlength
          omega
      | cons byte' right =>
          have hsplit : hexByte byte ++ hexText left = hexByte byte' ++ hexText right := heq
          obtain ⟨hbyte, hrest⟩ := List.append_inj hsplit rfl
          rw [hexByte_inj hbyte, ih hrest]

theorem hexText_append (left right : Bytes) :
    hexText (left ++ right) = hexText left ++ hexText right :=
  List.flatMap_append

/-! ## Numbers in hexadecimal -/

/-- The `width` low digits of a number. -/
def hexDigits : (width : ℕ) → ℕ → Bytes
  | 0, _ => []
  | width + 1, n => hexDigits width (n / 16) ++ [hexDigit (n % 16)]

/-- The digits of a number without leading zeros. -/
def hexNumber (n : ℕ) : Bytes :=
  if n = 0 then [hexDigit 0] else (Nat.digits 16 n).reverse.map hexDigit

/-- Fill up with `c` on the left; a longer text stays as it is. -/
def padStart (width : ℕ) (c : UInt8) (text : Bytes) : Bytes :=
  List.replicate (width - text.length) c ++ text

/-- The number that digits of either case spell. -/
def hexNat (digits : Bytes) : Option ℕ :=
  digits.foldlM (fun n c => (hexValue c).map (n * 16 + ·)) 0

theorem hexDigits_zero (width : ℕ) : hexDigits width 0 = List.replicate width (hexDigit 0) := by
  induction width with
  | zero => rfl
  | succ width ih => rw [hexDigits, Nat.zero_div, ih, Nat.zero_mod, List.replicate_succ']

/-- The digits of a byte string are those of the number it spells. -/
theorem hexText_beBytes (width n : ℕ) : hexText (beBytes width n) = hexDigits (2 * width) n := by
  induction width generalizing n with
  | zero => rfl
  | succ width ih =>
      have hbyte : hexText [UInt8.ofNat n] = [hexDigit (n / 16 % 16), hexDigit (n % 16)] := by
        have hhigh : n % 256 / 16 = n / 16 % 16 := by omega
        have hlow : n % 256 % 16 = n % 16 := by omega
        rw [hexText, List.flatMap_singleton, hexByte, UInt8.toNat_ofNat', hhigh, hlow]
      have hdiv : n / 16 / 16 = n / 256 := Nat.div_div_eq_div_mul n 16 16
      rw [beBytes, hexText_append, ih, hbyte, Nat.mul_succ, hexDigits, hexDigits, hdiv,
        List.append_assoc]
      rfl

theorem replicate_digits {width n : ℕ} (hn : n < 16 ^ width) :
    List.replicate (width - (Nat.digits 16 n).length) (hexDigit 0) ++
      (Nat.digits 16 n).reverse.map hexDigit = hexDigits width n := by
  induction width generalizing n with
  | zero =>
      obtain rfl : n = 0 := by omega
      rfl
  | succ width ih =>
      by_cases hzero : n = 0
      · subst hzero
        rw [hexDigits_zero]
        simp
      · rw [Nat.digits_def' (by decide) (Nat.pos_of_ne_zero hzero), List.length_cons,
          Nat.add_sub_add_right, List.reverse_cons, List.map_append, ← List.append_assoc,
          ih (by omega)]
        rfl

/-- A number that fits, padded with zeros. -/
theorem padStart_hexNumber {width n : ℕ} (hwidth : 0 < width) (hn : n < 16 ^ width) :
    padStart width (hexDigit 0) (hexNumber n) = hexDigits width n := by
  by_cases hzero : n = 0
  · subst hzero
    rw [hexDigits_zero, hexNumber, if_pos rfl, padStart, List.length_singleton,
      ← List.replicate_succ', Nat.sub_add_cancel hwidth]
  · rw [hexNumber, if_neg hzero, padStart, List.length_map, List.length_reverse,
      replicate_digits hn]

theorem hexNat_concat (digits : Bytes) (c : UInt8) :
    hexNat (digits ++ [c]) = (hexNat digits).bind fun n => (hexValue c).map (n * 16 + ·) := by
  simp [hexNat, List.foldlM_append]

/-- A text is a number exactly when it is made of hexadecimal digits. -/
theorem isSome_hexNat {digits : Bytes} :
    (hexNat digits).isSome = true ↔ ∀ c ∈ digits, (hexValue c).isSome = true := by
  induction digits using List.reverseRecOn with
  | nil => simp [hexNat]
  | append_singleton digits c ih =>
      rw [List.forall_mem_append, List.forall_mem_singleton, ← ih, hexNat_concat]
      cases hexNat digits with
      | none => simp
      | some n => simp

theorem hexNat_hexDigits {width n : ℕ} (hn : n < 16 ^ width) :
    hexNat (hexDigits width n) = some n := by
  induction width generalizing n with
  | zero =>
      obtain rfl : n = 0 := by omega
      rfl
  | succ width ih =>
      rw [hexDigits, hexNat_concat, ih (by omega), Option.bind_some,
        hexValue_hexDigit _ (Nat.mod_lt n (by decide)), Option.map_some, Nat.div_add_mod']

theorem hexNat_hexText (bytes : Bytes) : hexNat (hexText bytes) = some (beNat bytes) := by
  have hlt := beNat_lt bytes
  have hwidth : (256 : ℕ) ^ bytes.length = 16 ^ (2 * bytes.length) := by
    rw [pow_mul]
    rfl
  rw [hwidth] at hlt
  rw [← hexNat_hexDigits hlt, ← hexText_beBytes, beBytes_beNat]

/-! ## Letter case -/

/-- The lowercase form of an ASCII character. -/
def lowerByte (c : UInt8) : UInt8 := if 65 ≤ c ∧ c ≤ 90 then c + 32 else c

def lower (text : Bytes) : Bytes := text.map lowerByte

theorem lower_lower (text : Bytes) : lower (lower text) = lower text := by
  have hall : ∀ c, lowerByte (lowerByte c) = lowerByte c := by decide +kernel
  rw [lower, lower, List.map_map]
  exact List.map_congr_left fun c _ => hall c

/-- A hexadecimal digit in lowercase is the digit of its value. -/
theorem lowerByte_eq_hexDigit {c : UInt8} {d : ℕ} (hvalue : hexValue c = some d) :
    d < 16 ∧ lowerByte c = hexDigit d := by
  have hall : ∀ c : UInt8, ∀ d ∈ hexValue c, d < 16 ∧ lowerByte c = hexDigit d := by
    decide +kernel
  exact hall c d hvalue

/-- The number that digits spell, written in lowercase, is the digits in lowercase. -/
theorem lower_eq_hexDigits {digits : Bytes} {n : ℕ} (hnat : hexNat digits = some n) :
    n < 16 ^ digits.length ∧ lower digits = hexDigits digits.length n := by
  induction digits using List.reverseRecOn generalizing n with
  | nil =>
      obtain rfl := Option.some.inj hnat
      exact ⟨Nat.one_pos, rfl⟩
  | append_singleton digits c ih =>
      rw [hexNat_concat, Option.bind_eq_some_iff] at hnat
      obtain ⟨high, hhigh, hlow⟩ := hnat
      obtain ⟨d, hd, rfl⟩ := Option.map_eq_some_iff.mp hlow
      obtain ⟨hlt, hlower⟩ := ih hhigh
      obtain ⟨hdigit, hc⟩ := lowerByte_eq_hexDigit hd
      have hdiv : (high * 16 + d) / 16 = high := by omega
      have hmod : (high * 16 + d) % 16 = d := by omega
      rw [List.length_append, List.length_singleton, hexDigits, hdiv, hmod, pow_succ]
      refine ⟨by omega, ?_⟩
      rw [lower, List.map_append, ← lower, hlower, List.map_singleton, hc]

/-- Equally long digits spell one number exactly when only their case differs. -/
theorem hexNat_eq_iff {left right : Bytes} {n m : ℕ} (hleft : hexNat left = some n)
    (hright : hexNat right = some m) (hlength : left.length = right.length) :
    n = m ↔ lower left = lower right := by
  obtain ⟨hn, hlower⟩ := lower_eq_hexDigits hleft
  obtain ⟨hm, hlower'⟩ := lower_eq_hexDigits hright
  rw [hlower, hlower', ← hlength]
  constructor
  · rintro rfl
    rfl
  · intro heq
    rw [← hlength] at hm
    have hnat := hexNat_hexDigits hn
    rw [heq, hexNat_hexDigits hm] at hnat
    exact (Option.some.inj hnat).symm

theorem hexValue_lowerByte : ∀ c, hexValue (lowerByte c) = hexValue c := by
  decide +kernel

/-- Digits of either case spell one number. -/
theorem hexNat_lower (digits : Bytes) : hexNat (lower digits) = hexNat digits := by
  induction digits using List.reverseRecOn with
  | nil => rfl
  | append_singleton digits c ih =>
      rw [lower, List.map_append, ← lower, List.map_singleton, hexNat_concat, hexNat_concat, ih,
        hexValue_lowerByte]

theorem lower_hexText (bytes : Bytes) : lower (hexText bytes) = hexText bytes := by
  have hdigits := hexText_beBytes bytes.length (beNat bytes)
  rw [beBytes_beNat] at hdigits
  rw [(lower_eq_hexDigits (hexNat_hexText bytes)).2, length_hexText, hdigits]

end TextCodec
