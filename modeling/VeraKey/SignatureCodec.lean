/-
The signature decoder of the validator against the standard one: what it accepts, what it
returns, and that it never reverts.
-/
import VeraKey.AbiBytes
import VeraKey.Validation

namespace VeraKey

open ByteCodec Evm

namespace Validator

/-- The `bytes` at an offset lie inside the data: its length word, and as many bytes. -/
def FieldInside (data : Bytes) (offset : ℕ) : Prop :=
  offset + 32 ≤ data.length ∧ offset + 32 + Abi.wordAt data offset ≤ data.length

/-- The bytes that the length word at an offset counts. -/
def fieldFrom (data : Bytes) (offset : ℕ) : Bytes :=
  (data.drop (offset + 32)).take (Abi.wordAt data offset)

/-- Both head offsets and both length words keep their slices inside the signature. -/
def SignatureInside (signature : Bytes) : Prop :=
  64 ≤ signature.length ∧ FieldInside signature (Abi.wordAt signature 0) ∧
    FieldInside signature (Abi.wordAt signature 32)

section Field

variable {data field : Bytes} {offset : ℕ}

theorem length_fieldFrom (hinside : FieldInside data offset) :
    (fieldFrom data offset).length = Abi.wordAt data offset := by
  rw [fieldFrom, List.length_take, List.length_drop]
  have hle := hinside.2
  omega

theorem fieldAt_iff_inside (hfits : data.length < 2 ^ 256) : FieldAt data offset field ↔
    FieldInside data offset ∧ field = fieldFrom data offset := by
  rw [fieldAt_iff hfits]
  constructor
  · rintro ⟨hle, hlength, htake⟩
    have hword : Abi.wordAt data offset = field.length := hlength
    refine ⟨⟨by omega, by omega⟩, ?_⟩
    rw [fieldFrom, hword, htake]
  · rintro ⟨hinside, rfl⟩
    have hlength := length_fieldFrom hinside
    rw [hlength]
    exact ⟨hinside.2, rfl, rfl⟩

/-- What the standard decoder returns, in data whose length has less than 64 bits. -/
theorem decodeBytes_iff_inside (hfits : data.length < 2 ^ 64) :
    Abi.decodeBytes data offset = some field ↔
      FieldInside data offset ∧ field = fieldFrom data offset := by
  rw [Abi.decodeBytes_eq_some hfits, FieldInside, fieldFrom, eq_comm]
  constructor
  · rintro ⟨hle, hfield⟩
    exact ⟨⟨by omega, hle⟩, hfield⟩
  · rintro ⟨hinside, hfield⟩
    exact ⟨hinside.2, hfield⟩

end Field

variable {signature proof clientDataJson : Bytes}

theorem decodes_iff_inside (hfits : signature.length < 2 ^ 256) :
    Decodes signature proof clientDataJson ↔ SignatureInside signature ∧
      proof = fieldFrom signature (Abi.wordAt signature 0) ∧
      clientDataJson = fieldFrom signature (Abi.wordAt signature 32) := by
  by_cases hlong : 64 ≤ signature.length
  · rw [decodes_iff hlong]
    change FieldAt signature (Abi.wordAt signature 0) proof ∧
      FieldAt signature (Abi.wordAt signature 32) clientDataJson ↔ _
    rw [fieldAt_iff_inside hfits, fieldAt_iff_inside hfits, SignatureInside]
    tauto
  · constructor
    · intro hdecodes
      obtain ⟨i, -, j, -, rest, hsignature, -⟩ := hdecodes
      have hlength := congrArg List.length hsignature
      simp only [List.length_append, length_beBytes] at hlength
      omega
    · rintro ⟨hinside, -⟩
      exact absurd hinside.1 hlong

theorem decodePair_iff_inside (hfits : signature.length < 2 ^ 64) :
    Abi.decodePair signature = some (proof, clientDataJson) ↔ SignatureInside signature ∧
      proof = fieldFrom signature (Abi.wordAt signature 0) ∧
      clientDataJson = fieldFrom signature (Abi.wordAt signature 32) := by
  rw [SignatureInside]
  by_cases hshort : signature.length < 64
  · have hnone : Abi.decodePair signature = none := by
      rw [Abi.decodePair, if_pos hshort]
      rfl
    rw [hnone]
    constructor
    · intro hsome
      contradiction
    · rintro ⟨⟨hlong, -⟩, -⟩
      omega
  · have hpair : Abi.decodePair signature =
        (Abi.decodeBytes signature (Abi.wordAt signature 0)).bind fun first =>
          (Abi.decodeBytes signature (Abi.wordAt signature 32)).map fun second =>
            (first, second) := by
      rw [Abi.decodePair, if_neg hshort]
      simp only [Option.bind_eq_bind, Option.pure_def, Option.map_eq_bind,
        Function.comp_def]
    rw [hpair, Option.bind_eq_some_iff]
    constructor
    · rintro ⟨first, hfirst, hrest⟩
      obtain ⟨second, hsecond, heq⟩ := Option.map_eq_some_iff.mp hrest
      obtain ⟨rfl, rfl⟩ := Prod.mk.inj heq
      obtain ⟨hinside, hproof⟩ := (decodeBytes_iff_inside hfits).mp hfirst
      obtain ⟨hinside', hjson⟩ := (decodeBytes_iff_inside hfits).mp hsecond
      exact ⟨⟨Nat.le_of_not_lt hshort, hinside, hinside'⟩, hproof, hjson⟩
    · rintro ⟨⟨-, hinside, hinside'⟩, hproof, hjson⟩
      refine ⟨proof, (decodeBytes_iff_inside hfits).mpr ⟨hinside, hproof⟩, ?_⟩
      rw [(decodeBytes_iff_inside hfits).mpr ⟨hinside', hjson⟩]
      rfl

/-- What the encoder writes decodes to what was encoded. -/
theorem decodes_encodePair (hfits : (Abi.encodePair proof clientDataJson).length < 2 ^ 256) :
    Decodes (Abi.encodePair proof clientDataJson) proof clientDataJson := by
  have hlength := hfits
  rw [Abi.length_encodePair] at hlength
  obtain ⟨hfirst, hsecond⟩ : (Abi.encodePair proof clientDataJson).drop 64 = _ ∧
    (Abi.encodePair proof clientDataJson).drop (64 + (Abi.tail proof).length) = _ :=
      Abi.drop_encodePair
  refine ⟨64, by decide, 64 + (Abi.tail proof).length, by omega, _, rfl, ?_, ?_⟩
  · refine ⟨List.replicate ((32 - proof.length % 32) % 32) 0 ++ Abi.tail clientDataJson, ?_⟩
    rw [hfirst, Abi.tail, Abi.padded, List.append_assoc, List.append_assoc]
  · exact ⟨_, hsecond⟩

/-- The decoder never reverts.  It accepts what lies inside the signature, which is what the
standard decoder accepts, returns the same bytes, and reads back every encoded pair. -/
theorem decodeSignature_exact :
    (∀ proof clientDataJson, (Abi.encodePair proof clientDataJson).length < 2 ^ 256 →
      decodeSignature (Abi.encodePair proof clientDataJson) =
        some (true, proof, clientDataJson)) ∧
    ∀ signature : CallData, ∃ ok proof clientDataJson,
      decodeSignature signature.bytes = some (ok, proof, clientDataJson) ∧
      (ok = true ↔ SignatureInside signature.bytes) ∧
      (ok = true → proof = fieldFrom signature.bytes (Abi.wordAt signature.bytes 0) ∧
        clientDataJson = fieldFrom signature.bytes (Abi.wordAt signature.bytes 32)) ∧
      (signature.bytes.length < 2 ^ 64 → Abi.decodePair signature.bytes =
        if ok then some (proof, clientDataJson) else none) := by
  constructor
  · intro proof json hfits
    have hdecodes := decodes_encodePair hfits
    rcases decodeSignature_spec hfits with ⟨proof', json', hdecoded, hdecodes'⟩ | ⟨_, _, -, hnot⟩
    · obtain ⟨rfl, rfl⟩ := hdecodes.unique hfits hdecodes'
      exact hdecoded
    · exact absurd hdecodes (hnot proof json)
  · intro signature
    have hfits := signature.length_lt
    rcases decodeSignature_spec hfits with
      ⟨proof, json, hdecoded, hdecodes⟩ | ⟨proof, json, hdecoded, hnot⟩
    · obtain ⟨hinside, hproof, hjson⟩ := (decodes_iff_inside hfits).mp hdecodes
      refine ⟨true, proof, json, hdecoded, iff_of_true rfl hinside,
        fun _ => ⟨hproof, hjson⟩, ?_⟩
      intro hsmall
      exact (decodePair_iff_inside hsmall).mpr ⟨hinside, hproof, hjson⟩
    · have houtside : ¬ SignatureInside signature.bytes := by
        intro hinside
        exact hnot _ _ ((decodes_iff_inside hfits).mpr ⟨hinside, rfl, rfl⟩)
      refine ⟨false, proof, json, hdecoded, iff_of_false Bool.false_ne_true houtside, ?_, ?_⟩
      · intro hok
        contradiction
      · intro hsmall
        apply Option.eq_none_iff_forall_ne_some.mpr
        rintro ⟨first, second⟩ hpair
        exact houtside ((decodePair_iff_inside hsmall).mp hpair).1

end Validator

end VeraKey
