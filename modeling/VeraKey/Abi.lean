/-
The standard ABI encoding of static values: one 32-byte word each, in order.  A value
out of the range of its type is not encoded.
-/
import VeraKey.ByteCodec

namespace Abi

open ByteCodec

inductive StaticType
  | bytes32
  | uint (bits : ℕ)
  | address
  | bool
deriving DecidableEq

inductive Value
  | bytes (data : Bytes)
  | int (value : ℤ)
  | address (value : FixedBytes 20)
  | bool (value : Bool)
deriving DecidableEq

/-- An integer of at most a word. -/
def StaticType.FitsWord : StaticType → Prop
  | .uint bits => bits ≤ 256
  | _ => True

instance : DecidablePred StaticType.FitsWord := fun type =>
  match type with
  | .uint bits => inferInstanceAs (Decidable (bits ≤ 256))
  | .bytes32 | .address | .bool => isTrue trivial

/-- The word of one value. -/
def word : StaticType → Value → Option Bytes
  | .bytes32, .bytes data => if data.length = 32 then some data else none
  | .uint bits, .int value =>
      if 0 ≤ value ∧ value < 2 ^ bits then some (beBytes 32 value.toNat) else none
  | .address, .address value => some (List.replicate 12 0 ++ value.bytes)
  | .bool, .bool value => some (beBytes 32 value.toNat)
  | _, _ => none

def words : List StaticType → List Value → Option (List Bytes)
  | [], [] => some []
  | type :: types, value :: values => do
      let first ← word type value
      let rest ← words types values
      return first :: rest
  | _, _ => none

def encode (types : List StaticType) (values : List Value) : Option Bytes :=
  (words types values).map List.flatten

variable {type : StaticType} {types : List StaticType} {value value' : Value}
  {values values' : List Value} {text : Bytes} {texts : List Bytes}

section Word

attribute [local simp] word

theorem word_bytes32 : word .bytes32 value = some text ↔
    text.length = 32 ∧ value = .bytes text := by
  cases value with
  | bytes data =>
      simp only [word, Option.ite_none_right_eq_some, Option.some.injEq, Value.bytes.injEq]
      constructor
      · rintro ⟨hlength, rfl⟩
        exact ⟨hlength, rfl⟩
      · rintro ⟨hlength, rfl⟩
        exact ⟨hlength, rfl⟩
  | _ => simp

theorem word_uint {bits : ℕ} : word (.uint bits) value = some text ↔
    ∃ n : ℕ, n < 2 ^ bits ∧ value = .int n ∧ text = beBytes 32 n := by
  cases value with
  | int i =>
      simp only [word, Option.ite_none_right_eq_some, Option.some.injEq, Value.int.injEq]
      constructor
      · rintro ⟨⟨hpos, hlt⟩, rfl⟩
        refine ⟨i.toNat, ?_, (Int.toNat_of_nonneg hpos).symm, rfl⟩
        rw [Int.toNat_lt hpos]
        exact_mod_cast hlt
      · rintro ⟨n, hlt, rfl, htext⟩
        rw [htext, Int.toNat_natCast]
        exact ⟨⟨Int.natCast_nonneg n, by exact_mod_cast hlt⟩, rfl⟩
  | _ => simp

theorem word_natCast {bits n : ℕ} (hn : n < 2 ^ bits) :
    word (.uint bits) (.int n) = some (beBytes 32 n) :=
  word_uint.mpr ⟨n, hn, rfl, rfl⟩

theorem word_address : word .address value = some text ↔
    ∃ a, value = .address a ∧ text = List.replicate 12 0 ++ a.bytes := by
  cases value with
  | address a => simp [eq_comm]
  | _ => simp

theorem word_bool : word .bool value = some text ↔
    ∃ b, value = .bool b ∧ text = beBytes 32 b.toNat := by
  cases value with
  | bool b => simp [eq_comm]
  | _ => simp

end Word

theorem length_of_word (hword : word type value = some text) : text.length = 32 := by
  cases type with
  | bytes32 => exact (word_bytes32.mp hword).1
  | uint bits =>
      obtain ⟨n, -, -, htext⟩ := word_uint.mp hword
      rw [htext, length_beBytes]
  | address =>
      obtain ⟨a, -, rfl⟩ := word_address.mp hword
      rw [List.length_append, List.length_replicate, a.length_bytes]
  | bool =>
      obtain ⟨b, -, htext⟩ := word_bool.mp hword
      rw [htext, length_beBytes]

/-- A word has one value of its type. -/
theorem word_inj (htype : type.FitsWord) (hword : word type value = some text)
    (hword' : word type value' = some text) : value = value' := by
  cases type with
  | bytes32 => rw [(word_bytes32.mp hword).2, (word_bytes32.mp hword').2]
  | uint bits =>
      obtain ⟨n, hlt, rfl, htext⟩ := word_uint.mp hword
      obtain ⟨n', hlt', rfl, htext'⟩ := word_uint.mp hword'
      have hfits : 2 ^ bits ≤ 256 ^ 32 := Nat.pow_le_pow_right (by decide : 0 < 2) htype
      rw [beBytes_inj (hlt.trans_le hfits) (hlt'.trans_le hfits) (htext.symm.trans htext')]
  | address =>
      obtain ⟨a, rfl, rfl⟩ := word_address.mp hword
      obtain ⟨a', rfl, heq⟩ := word_address.mp hword'
      rw [FixedBytes.ext (List.append_cancel_left heq)]
  | bool =>
      obtain ⟨b, rfl, htext⟩ := word_bool.mp hword
      obtain ⟨b', rfl, htext'⟩ := word_bool.mp hword'
      have hfits : ∀ c : Bool, c.toNat < 256 ^ 32 := by decide
      have hsame : ∀ c c' : Bool, c.toNat = c'.toNat → c = c' := by decide
      rw [hsame b b' (beBytes_inj (hfits b) (hfits b') (htext.symm.trans htext'))]

theorem encode_singleton : encode [type] [value] = word type value := by
  cases hword : word type value <;> simp [encode, words, hword]

theorem encode_pair {type' : StaticType} {text' : Bytes} (hword : word type value = some text)
    (hword' : word type' value' = some text') :
    encode [type, type'] [value, value'] = some (text ++ text') := by
  simp [encode, words, hword, hword']

theorem words_cons (hword : word type value = some text)
    (hwords : words types values = some texts) :
    words (type :: types) (value :: values) = some (text :: texts) := by
  simp [words, hword, hwords]

theorem words_cons_eq_some {type : StaticType} :
    words (type :: types) values = some texts ↔ ∃ value rest first others,
      values = value :: rest ∧ texts = first :: others ∧ word type value = some first ∧
        words types rest = some others := by
  cases values with
  | nil => simp [words]
  | cons value rest =>
      simp only [words, Option.bind_eq_bind, Option.bind_eq_some_iff, Option.pure_def,
        Option.some.injEq, List.cons.injEq]
      constructor
      · rintro ⟨first, hfirst, others, hothers, rfl⟩
        exact ⟨value, rest, first, others, ⟨rfl, rfl⟩, rfl, hfirst, hothers⟩
      · rintro ⟨_, _, first, others, ⟨rfl, rfl⟩, rfl, hfirst, hothers⟩
        exact ⟨first, hfirst, others, hothers, rfl⟩

theorem length_words (hwords : words types values = some texts) :
    texts.length = types.length := by
  induction types generalizing values texts with
  | nil =>
      cases values with
      | nil =>
          rw [← Option.some.inj hwords]
          rfl
      | cons value rest => contradiction
  | cons type types ih =>
      obtain ⟨_, _, _, _, -, rfl, -, hothers⟩ := words_cons_eq_some.mp hwords
      rw [List.length_cons, ih hothers, List.length_cons]

theorem length_of_mem_words (hwords : words types values = some texts) :
    ∀ text ∈ texts, text.length = 32 := by
  induction types generalizing values texts with
  | nil =>
      cases values with
      | nil =>
          rw [← Option.some.inj hwords]
          simp
      | cons value rest => contradiction
  | cons type types ih =>
      obtain ⟨_, _, _, _, -, rfl, hfirst, hothers⟩ := words_cons_eq_some.mp hwords
      intro text htext
      rcases List.mem_cons.mp htext with rfl | hrest
      · exact length_of_word hfirst
      · exact ih hothers text hrest

/-- Words determine the values of a layout. -/
theorem words_inj (htypes : ∀ type ∈ types, type.FitsWord)
    (hwords : words types values = some texts) (hwords' : words types values' = some texts) :
    values = values' := by
  induction types generalizing values values' texts with
  | nil =>
      cases values <;> cases values' <;> first | rfl | contradiction
  | cons type types ih =>
      obtain ⟨value, rest, first, others, rfl, rfl, hfirst, hothers⟩ :=
        words_cons_eq_some.mp hwords
      obtain ⟨value', rest', first', others', rfl, htexts, hfirst', hothers'⟩ :=
        words_cons_eq_some.mp hwords'
      obtain ⟨rfl, rfl⟩ := List.cons.inj htexts
      rw [word_inj (htypes type List.mem_cons_self) hfirst hfirst',
        ih (fun type' htype' => htypes type' (List.mem_cons_of_mem type htype'))
          hothers hothers']

theorem encode_eq_some {encoded : Bytes} : encode types values = some encoded ↔
    ∃ texts, words types values = some texts ∧ encoded = texts.flatten := by
  rw [encode, Option.map_eq_some_iff]
  simp only [eq_comm]

end Abi
