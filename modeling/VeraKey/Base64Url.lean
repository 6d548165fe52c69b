/-
Unpadded base64url (RFC 4648 §5) over byte strings of any length: three bytes
become four characters, and a remainder of one or two bytes becomes two or
three.
-/
import VeraKey.ByteCodec

namespace Base64Url

open ByteCodec

def alphabet : Bytes :=
  ascii "ABCDEFGHIJKLMNOPQRSTUVWXYZabcdefghijklmnopqrstuvwxyz0123456789-_"

/-- The character of the low six bits of a value. -/
def digit (value : ℕ) : UInt8 := alphabet.getD (value % 64) 0

theorem digit_inj {left right : ℕ} (heq : digit left = digit right) :
    left % 64 = right % 64 := by
  have hlength : alphabet.length = 64 := by decide
  have hnodup : alphabet.Nodup := by decide
  have hleft : left % 64 < alphabet.length := by omega
  have hright : right % 64 < alphabet.length := by omega
  rw [digit, digit, List.getD_eq_getElem _ _ hleft,
    List.getD_eq_getElem _ _ hright] at heq
  exact (hnodup.getElem_inj_iff).mp heq

/-- Three bytes as one 24-bit number. -/
def pack (a b c : UInt8) : ℕ := a.toNat * 65536 + b.toNat * 256 + c.toNat

def encode : Bytes → Bytes
  | a :: b :: c :: rest =>
      digit (pack a b c / 262144) :: digit (pack a b c / 4096) ::
        digit (pack a b c / 64) :: digit (pack a b c) :: encode rest
  | [a, b] =>
      [digit (pack a b 0 / 262144), digit (pack a b 0 / 4096),
        digit (pack a b 0 / 64)]
  | [a] => [digit (pack a 0 0 / 262144), digit (pack a 0 0 / 4096)]
  | [] => []

/-- The four sextets of a group determine its bytes. -/
theorem pack_inj {a b c a' b' c' : UInt8}
    (h₁ : pack a b c / 262144 % 64 = pack a' b' c' / 262144 % 64)
    (h₂ : pack a b c / 4096 % 64 = pack a' b' c' / 4096 % 64)
    (h₃ : pack a b c / 64 % 64 = pack a' b' c' / 64 % 64)
    (h₄ : pack a b c % 64 = pack a' b' c' % 64) :
    a = a' ∧ b = b' ∧ c = c' := by
  have ha := a.toNat_lt
  have ha' := a'.toNat_lt
  have hb := b.toNat_lt
  have hb' := b'.toNat_lt
  have hc := c.toNat_lt
  have hc' := c'.toNat_lt
  simp only [pack] at h₁ h₂ h₃ h₄
  refine ⟨UInt8.toNat_inj.mp ?_, UInt8.toNat_inj.mp ?_, UInt8.toNat_inj.mp ?_⟩ <;>
    omega

/-- Byte strings of one length are told apart by their encodings. -/
theorem encode_inj : ∀ {left right : Bytes}, left.length = right.length →
    encode left = encode right → left = right
  | [], [], _, _ => rfl
  | [a], [a'], _, heq => by
      simp only [encode, List.cons.injEq] at heq
      have h₁ := digit_inj heq.1
      have h₂ := digit_inj heq.2.1
      obtain ⟨ha, -, -⟩ := pack_inj h₁ h₂
        (by simp only [pack, UInt8.toNat_zero]; omega)
        (by simp only [pack, UInt8.toNat_zero]; omega)
      rw [ha]
  | [a, b], [a', b'], _, heq => by
      simp only [encode, List.cons.injEq] at heq
      have h₁ := digit_inj heq.1
      have h₂ := digit_inj heq.2.1
      have h₃ := digit_inj heq.2.2.1
      obtain ⟨ha, hb, -⟩ := pack_inj h₁ h₂ h₃
        (by simp only [pack, UInt8.toNat_zero]; omega)
      rw [ha, hb]
  | a :: b :: c :: rest, a' :: b' :: c' :: rest', hlength, heq => by
      simp only [encode, List.cons.injEq] at heq
      obtain ⟨h₁, h₂, h₃, h₄, htail⟩ := heq
      obtain ⟨ha, hb, hc⟩ := pack_inj (digit_inj h₁) (digit_inj h₂)
        (digit_inj h₃) (digit_inj h₄)
      have hrest : rest = rest' := encode_inj (by simpa using hlength) htail
      rw [ha, hb, hc, hrest]

/-- An input of another group and a remainder of two bytes is three bytes and
the rest. -/
theorem exists_group {groups : ℕ} {input : Bytes}
    (hlength : input.length = 3 * (groups + 1) + 2) :
    ∃ a b c rest, input = a :: b :: c :: rest ∧ rest.length = 3 * groups + 2 := by
  obtain _ | ⟨a, _ | ⟨b, _ | ⟨c, rest⟩⟩⟩ := input
  case cons.cons.cons =>
    refine ⟨a, b, c, rest, rfl, ?_⟩
    simp only [List.length_cons] at hlength
    omega
  all_goals
    simp only [List.length_cons, List.length_nil] at hlength
    omega

/-! ## The characters of one large number

An encoding reads the bytes as one number and writes it six bits a character; a
remainder of two bytes ends with its last four bits, shifted. -/

theorem digit_congr {left right : ℕ} (heq : left % 64 = right % 64) :
    digit left = digit right := by
  rw [digit, digit, heq]

theorem beNat_group (a b c : UInt8) (rest : Bytes) :
    beNat (a :: b :: c :: rest) = pack a b c * 2 ^ (8 * rest.length) + beNat rest := by
  have hhead : beNat [a, b, c] = pack a b c := by
    simp only [beNat, List.foldl_cons, List.foldl_nil, pack]
    ring
  have happend := beNat_append [a, b, c] rest
  rw [hhead, show (256 : ℕ) = 2 ^ 8 from rfl, ← pow_mul] at happend
  exact happend

/-- The low bits of a number do not reach into what lies above them. -/
theorem digit_head {high low width shift : ℕ} (hlow : low < 2 ^ width) :
    digit ((high * 2 ^ width + low) / 2 ^ (width + shift)) = digit (high / 2 ^ shift) := by
  rw [pow_add, ← Nat.div_div_eq_div_mul, Nat.add_comm,
    Nat.add_mul_div_right _ _ (Nat.two_pow_pos width), Nat.div_eq_of_lt hlow, Nat.zero_add]

/-- Bits at least six places up do not reach into a character. -/
theorem digit_tail {high low width shift : ℕ} (hshift : shift + 6 ≤ width) :
    digit ((high * 2 ^ width + low) / 2 ^ shift) = digit (low / 2 ^ shift) := by
  obtain ⟨above, rfl⟩ := Nat.exists_eq_add_of_le hshift
  have hsplit : high * 2 ^ (shift + 6 + above) = high * 2 ^ above * 64 * 2 ^ shift := by
    rw [pow_add, pow_add]
    ring
  apply digit_congr
  rw [hsplit, Nat.add_comm, Nat.add_mul_div_right _ _ (Nat.two_pow_pos shift),
    Nat.add_mul_mod_self_right]

theorem encode_eq_digits (groups : ℕ) (input : Bytes)
    (hlength : input.length = 3 * groups + 2) :
    encode input = ((List.range (4 * groups + 2)).map fun i =>
        digit (beNat input / 2 ^ (24 * groups + 10 - 6 * i))) ++
      [digit (beNat input * 4)] := by
  induction groups generalizing input with
  | zero =>
      obtain ⟨a, b, rfl⟩ := List.length_eq_two.mp hlength
      have ha := a.toNat_lt
      have hb := b.toNat_lt
      have hvalue : beNat [a, b] = a.toNat * 256 + b.toNat := by
        simp [beNat]
      have hpack : pack a b 0 = beNat [a, b] * 256 := by
        rw [hvalue, pack, UInt8.toNat_zero]
        omega
      rw [encode, hpack, show List.range (4 * 0 + 2) = [0, 1] from rfl]
      simp only [List.map_cons, List.map_nil, List.cons_append, List.nil_append,
        Nat.reduceMul, Nat.reduceAdd, Nat.reduceSub, Nat.reducePow, List.cons.injEq, and_true]
      refine ⟨congrArg digit ?_, congrArg digit ?_, congrArg digit ?_⟩ <;> omega
  | succ groups ih =>
      obtain ⟨a, b, c, rest, rfl, hrest⟩ := exists_group hlength
      have hlow : beNat rest < 2 ^ (24 * groups + 16) := by
        have h := beNat_lt rest
        rwa [show (256 : ℕ) = 2 ^ 8 from rfl, ← pow_mul, hrest,
          show 8 * (3 * groups + 2) = 24 * groups + 16 by omega] at h
      have hvalue : beNat (a :: b :: c :: rest) =
          pack a b c * 2 ^ (24 * groups + 16) + beNat rest := by
        rw [beNat_group, hrest, show 8 * (3 * groups + 2) = 24 * groups + 16 by omega]
      have hhead : ∀ i < 4, digit (beNat (a :: b :: c :: rest) /
          2 ^ (24 * (groups + 1) + 10 - 6 * i)) = digit (pack a b c / 2 ^ (18 - 6 * i)) := by
        intro i hi
        rw [hvalue,
          show 24 * (groups + 1) + 10 - 6 * i = 24 * groups + 16 + (18 - 6 * i) by omega]
        exact digit_head hlow
      have htail : ∀ i < 4 * groups + 2, digit (beNat (a :: b :: c :: rest) /
          2 ^ (24 * (groups + 1) + 10 - 6 * (4 + i))) =
            digit (beNat rest / 2 ^ (24 * groups + 10 - 6 * i)) := by
        intro i hi
        rw [hvalue, show 24 * (groups + 1) + 10 - 6 * (4 + i) = 24 * groups + 10 - 6 * i by
          omega]
        exact digit_tail (by omega)
      have hlast : digit (beNat (a :: b :: c :: rest) * 4) = digit (beNat rest * 4) := by
        have hhigh : pack a b c * 2 ^ (24 * groups + 16) =
            pack a b c * 2 ^ (24 * groups + 10) * 64 := by
          rw [show 24 * groups + 16 = 24 * groups + 10 + 6 from rfl, pow_add]
          ring
        rw [hvalue, hhigh]
        exact digit_congr (by omega)
      have hfirst : (List.range 4).map (fun i => digit (beNat (a :: b :: c :: rest) /
          2 ^ (24 * (groups + 1) + 10 - 6 * i))) =
            (List.range 4).map fun i => digit (pack a b c / 2 ^ (18 - 6 * i)) :=
        List.map_congr_left fun i hi => hhead i (List.mem_range.mp hi)
      have hrange : (List.range (4 * groups + 2)).map ((fun i =>
          digit (beNat (a :: b :: c :: rest) / 2 ^ (24 * (groups + 1) + 10 - 6 * i))) ∘
            (4 + ·)) = (List.range (4 * groups + 2)).map fun i =>
          digit (beNat rest / 2 ^ (24 * groups + 10 - 6 * i)) :=
        List.map_congr_left fun i hi => htail i (List.mem_range.mp hi)
      have hcount : List.range (4 * (groups + 1) + 2) =
          List.range 4 ++ (List.range (4 * groups + 2)).map (4 + ·) := by
        rw [show 4 * (groups + 1) + 2 = 4 + (4 * groups + 2) by omega]
        exact List.range_add
      rw [hcount, List.map_append, List.map_map, hfirst, hrange, hlast, encode,
        ih rest hrest]
      simp [List.range_succ]

end Base64Url
