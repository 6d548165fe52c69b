/-
The address a rate limit counts, over all texts of IPv4 and IPv6 addresses.
-/
import VeraKey.IpAddress

namespace VeraKey

open ByteCodec TextCodec

namespace Relay

open Sdk (decimalNumber digitsNumber)

/-! ## The source -/

def isDigit (c : UInt8) : Bool := 48 ≤ c && c ≤ 57

/-- `/^::ffff:(\d{1,3}(?:\.\d{1,3}){3})$/i`: what it captures. -/
def mappedForm? (ip : Bytes) : Option Bytes :=
  let rest := ip.drop 7
  let parts := rest.splitOn 0x2e
  if lower (ip.take 7) = ascii "::ffff:" ∧ parts.length = 4 ∧
      parts.all fun part => 1 ≤ part.length && part.length ≤ 3 && part.all isDigit then
    some rest
  else none

/-- `parseInt` of a text without a sign or a prefix; nothing for `NaN`. -/
def parseHex (text : Bytes) : Option ℕ :=
  let digits := text.takeWhile fun c => (hexValue c).isSome
  if digits = [] then none else hexNat digits

/-- `parseInt(group, 16).toString(16)`. -/
def shortGroup (group : Bytes) : Bytes := ((parseHex group).map hexNumber).getD (ascii "NaN")

/-- How many groups the parts of a side fill. -/
def width (groups : List Bytes) : ℕ := (groups.map fun group => if 0x2e ∈ group then 2 else 1).sum

def sideGroups (side : Bytes) : List Bytes := if side = [] then [] else side.splitOn 0x3a

/-- The address a rate limit counts. -/
def visitorAddress (ip : Option Bytes) : Bytes :=
  match ip with
  | none | some [] => ascii "unknown"
  | some ip =>
      match mappedForm? ip with
      | some address => address
      | none =>
          if isIP ip ≠ 6 then ip
          else
            let sides := splitDouble (((lower ip).splitOn 0x25).headD [])
            let left := sideGroups (sides.headD [])
            let groups :=
              match sides[1]? with
              | none => left
              | some tail =>
                  let right := sideGroups tail
                  left ++ List.replicate (8 - width left - width right) (ascii "0") ++ right
            [0x3a].intercalate ((groups.take 4).map shortGroup) ++ ascii "::/64"

/-! ## What it is for -/

inductive IpAddress
  | v4 (address : Ipv4)
  | v6 (address : Ipv6)
deriving DecidableEq

/-- The address of a text, in whatever form. -/
def address? (text : Bytes) : Option IpAddress :=
  match ipv4? text with
  | some address => some (.v4 address)
  | none => (ipv6? text).map .v6

/-- The IPv4 address that an IPv4-mapped IPv6 address stands for. -/
def IpAddress.mapped : IpAddress → Option Ipv4
  | .v4 _ => none
  | .v6 address => address.mapped

/-- The first 64 bits of an IPv6 address that is not IPv4-mapped. -/
def IpAddress.network : IpAddress → Option (List ℕ)
  | .v4 _ => none
  | .v6 address => if address.mapped.isSome then none else some address.network

/-- What is asked of the keys of two texts: they depend on the addresses only, an IPv4-mapped one
counts as its IPv4 address, and others by their first 64 bits. -/
structure CountsAlike (left right : Bytes) (address address' : IpAddress) : Prop where
  same : address = address' → visitorAddress (some left) = visitorAddress (some right)
  mapped : ∀ inner, address.mapped = some inner → visitorAddress (some left) = inner.text
  mapped' : ∀ inner, address'.mapped = some inner → visitorAddress (some right) = inner.text
  network : ∀ bits bits', address.network = some bits → address'.network = some bits' →
    (visitorAddress (some left) = visitorAddress (some right) ↔ bits = bits')

/-- An IPv4-mapped address is written in the one form that is recognised. -/
def PlainlyMapped (text : Bytes) (address : IpAddress) : Prop :=
  ∀ inner, address.mapped = some inner → lower text = ascii "::ffff:" ++ inner.text

/-- A form of an IPv4-mapped address that is counted with all of `0:0:0:0::/64`. -/
theorem mapped_hex_missed :
    ((address? (ascii "::ffff:cb00:7105")).bind IpAddress.mapped).map Ipv4.text =
        some (ascii "203.0.113.5") ∧
      visitorAddress (some (ascii "::ffff:cb00:7105")) = ascii "0:0:0:0::/64" := by
  decide +kernel

/-! ## IPv4 -/

theorem mem_intercalate {c separator : UInt8} {parts : List Bytes}
    (hc : c ∈ [separator].intercalate parts) : c = separator ∨ ∃ part ∈ parts, c ∈ part := by
  induction parts with
  | nil => exact absurd hc (by simp)
  | cons part parts ih =>
      cases parts with
      | nil =>
          rw [List.intercalate_singleton] at hc
          exact .inr ⟨part, List.mem_cons_self, hc⟩
      | cons next parts =>
          rw [List.intercalate_cons_cons, List.mem_append, List.mem_append] at hc
          rcases hc with (hc | hc) | hc
          · exact .inr ⟨part, List.mem_cons_self, hc⟩
          · exact .inl (List.mem_singleton.mp hc)
          · rcases ih hc with heq | ⟨other, hother, hc⟩
            · exact .inl heq
            · exact .inr ⟨other, List.mem_cons_of_mem _ hother, hc⟩

theorem mem_splitOn {c separator : UInt8} {text : Bytes} (hc : c ∈ text) :
    c = separator ∨ ∃ part ∈ text.splitOn separator, c ∈ part := by
  apply mem_intercalate
  rw [List.intercalate_splitOn]
  exact hc

/-- The digits of an octet. -/
theorem decimalNumber_octet {n : ℕ} (hn : n < 256) :
    1 ≤ (decimalNumber n).length ∧ (decimalNumber n).length ≤ 3 ∧
      ∀ c ∈ decimalNumber n, isDigit c = true := by
  have hdigit : ∀ d < 10, isDigit (UInt8.ofNat (48 + d)) = true := by decide
  have hthree : n < 10 ^ (2 + 1) := by omega
  have hlength := @ClientData.length_wholeDigits_le (2 + 1) n 2 hthree
  rw [ClientData.decimalNumber_eq hthree, List.length_reverse]
  refine ⟨?_, hlength, fun c hc => ?_⟩
  · rw [ClientData.wholeDigits]
    exact Nat.succ_pos _
  · obtain ⟨d, hd, rfl⟩ := ClientData.isDigit_wholeDigits c (List.mem_reverse.mp hc)
    exact hdigit d hd

theorem Ipv4.mem_text {address : Ipv4} {c : UInt8} (hc : c ∈ address.text) :
    c = 0x2e ∨ isDigit c = true := by
  rcases mem_intercalate hc with heq | ⟨part, hpart, hc⟩
  · exact .inl heq
  · obtain ⟨n, hn, rfl⟩ := List.mem_map.mp hpart
    exact .inr ((decimalNumber_octet (address.lt n hn)).2.2 c hc)

theorem Ipv4.splitOn_text (address : Ipv4) :
    address.text.splitOn 0x2e = address.octets.map decimalNumber := by
  have hdot : isDigit 0x2e = false := rfl
  apply List.splitOn_intercalate
  · intro part hpart hmem
    obtain ⟨n, hn, rfl⟩ := List.mem_map.mp hpart
    have hdigit := (decimalNumber_octet (address.lt n hn)).2.2 _ hmem
    rw [hdot] at hdigit
    contradiction
  · have hlength := address.length_eq
    intro hnil
    rw [List.map_eq_nil_iff.mp hnil] at hlength
    contradiction

theorem mapM_octet {parts : List Bytes} {octets : List ℕ}
    (hparts : parts.mapM octet? = some octets) : parts = octets.map decimalNumber := by
  induction parts generalizing octets with
  | nil =>
      rw [List.mapM_nil] at hparts
      rw [← Option.some.inj hparts]
      rfl
  | cons part parts ih =>
      rw [List.mapM_cons] at hparts
      obtain ⟨n, hn, hparts⟩ := Option.bind_eq_some_iff.mp hparts
      obtain ⟨rest, hrest, hparts⟩ := Option.bind_eq_some_iff.mp hparts
      rw [← Option.some.inj hparts, List.map_cons, ← ih hrest]
      rw [octet?, Option.filter_eq_some_iff] at hn
      rw [(of_decide_eq_true hn.2).2]

/-- An IPv4 address has one text. -/
theorem ipv4?_eq {text : Bytes} {address : Ipv4} (htext : ipv4? text = some address) :
    text = address.text := by
  obtain ⟨octets, hoctets, hsome⟩ := Option.bind_eq_some_iff.mp htext
  split at hsome
  · have hparts := mapM_octet hoctets
    rw [Ipv4.text, ← Option.some.inj hsome, ← hparts, List.intercalate_splitOn]
  · contradiction

theorem lowerByte_of_plain : ∀ c : UInt8, lowerByte c = 0x2e ∨ isDigit (lowerByte c) = true →
    lowerByte c = c := by
  decide +kernel

theorem lower_eq_text {text : Bytes} {address : Ipv4} (hlower : lower text = address.text) :
    text = address.text := by
  have hself : lower text = text := by
    have hall : ∀ c ∈ text, lowerByte c = c := by
      intro c hc
      apply lowerByte_of_plain
      refine @Ipv4.mem_text address _ ?_
      rw [← hlower]
      exact List.mem_map_of_mem hc
    rw [lower, List.map_congr_left hall, List.map_id']
  rw [← hself, hlower]

/-! ## The form that is recognised -/

theorem mappedForm?_eq_some {text rest : Bytes} (hform : mappedForm? text = some rest) :
    lower text = ascii "::ffff:" ++ rest ∧ 0x2e ∈ rest ∧
      ∀ c ∈ rest, c = 0x2e ∨ isDigit c = true := by
  rw [mappedForm?] at hform
  split at hform
  · next hmatch =>
      obtain ⟨hfront, hcount, hparts⟩ := hmatch
      obtain rfl := Option.some.inj hform
      have hchars : ∀ c ∈ text.drop 7, c = 0x2e ∨ isDigit c = true := by
        intro c hc
        rcases @mem_splitOn _ 0x2e _ hc with heq | ⟨part, hpart, hc⟩
        · exact .inl heq
        · have hpart := (Bool.and_eq_true_iff.mp (List.all_eq_true.mp hparts part hpart)).2
          exact .inr (List.all_eq_true.mp hpart c hc)
      have hplain : ∀ c : UInt8, c = 0x2e ∨ isDigit c = true → lowerByte c = c := by
        decide +kernel
      refine ⟨?_, ?_, hchars⟩
      · have hrest : lower (text.drop 7) = text.drop 7 := by
          rw [lower, List.map_congr_left fun c hc => hplain c (hchars c hc), List.map_id']
        calc lower text = lower (text.take 7 ++ text.drop 7) := by rw [List.take_append_drop]
          _ = lower (text.take 7) ++ lower (text.drop 7) := List.map_append
          _ = ascii "::ffff:" ++ text.drop 7 := by rw [hfront, hrest]
      · by_contra hdot
        simp [List.splitOn_eq_singleton hdot] at hcount
  · contradiction

theorem mappedForm?_of_lower {text : Bytes} {inner : Ipv4}
    (hlower : lower text = ascii "::ffff:" ++ inner.text) :
    mappedForm? text = some inner.text := by
  have hfront : lower (text.take 7) = ascii "::ffff:" := by
    rw [lower, List.map_take]
    change (lower text).take 7 = _
    rw [hlower]
    exact List.take_left' rfl
  have hrest : text.drop 7 = inner.text := by
    apply lower_eq_text
    rw [lower, List.map_drop]
    change (lower text).drop 7 = _
    rw [hlower]
    exact List.drop_left' rfl
  have hparts : (inner.octets.map decimalNumber).all
      (fun part => 1 ≤ part.length && part.length ≤ 3 && part.all isDigit) = true := by
    apply List.all_eq_true.mpr
    intro part hpart
    obtain ⟨n, hn, rfl⟩ := List.mem_map.mp hpart
    obtain ⟨hone, hthree, hdigits⟩ := decimalNumber_octet (inner.lt n hn)
    rw [decide_eq_true hone, decide_eq_true hthree, List.all_eq_true.mpr hdigits]
    rfl
  have hlength : (inner.octets.map decimalNumber).length = 4 := by
    rw [List.length_map, inner.length_eq]
  rw [mappedForm?, hrest, inner.splitOn_text, if_pos ⟨hfront, hlength, hparts⟩]

/-! ## Cutting a text -/

theorem splitDouble_cons {c : UInt8} {rest : Bytes}
    (hc : ¬ (c = 0x3a ∧ rest.head? = some 0x3a)) :
    splitDouble (c :: rest) = (splitDouble rest).modifyHead (c :: ·) := by
  rw [splitDouble.eq_def]
  split
  · next heq =>
      obtain ⟨rfl, rfl⟩ := List.cons.inj heq
      exact absurd ⟨rfl, rfl⟩ hc
  · next heq =>
      obtain ⟨rfl, rfl⟩ := List.cons.inj heq
      rfl
  · contradiction

theorem splitDouble_of_not_mem {text : Bytes} (hcolon : 0x3a ∉ text) :
    splitDouble text = [text] := by
  induction text with
  | nil => rfl
  | cons c rest ih =>
      have hc : ¬ (c = 0x3a ∧ rest.head? = some 0x3a) :=
        fun heq => hcolon (heq.1 ▸ List.mem_cons_self)
      rw [splitDouble_cons hc, ih (List.not_mem_of_not_mem_cons hcolon)]
      rfl

theorem hexNat_none {text : Bytes} (hdot : 0x2e ∈ text) : hexNat text = none := by
  cases hvalue : hexNat text with
  | none => rfl
  | some n =>
      have hdigits := isSome_hexNat.mp (by rw [hvalue]; rfl) _ hdot
      exact absurd hdigits (by decide)

/-- The recognised form is read as the IPv4-mapped address it shows. -/
theorem mapped_of_form {text rest : Bytes} {address : Ipv6}
    (hform : mappedForm? text = some rest) (htext : ipv6? text = some address) :
    ∃ inner, address.mapped = some inner ∧ rest = inner.text := by
  obtain ⟨hlower, hdot, hchars⟩ := mappedForm?_eq_some hform
  have hplain : ∀ c : UInt8, c = 0x2e ∨ isDigit c = true → c ≠ 0x3a ∧ c ≠ 0x25 := by
    decide +kernel
  have hcolon : 0x3a ∉ rest := fun hmem => (hplain _ (hchars _ hmem)).1 rfl
  have hpercent : 0x25 ∉ lower text := by
    rw [hlower, List.mem_append]
    rintro (hmem | hmem)
    · exact absurd hmem (by decide)
    · exact (hplain _ (hchars _ hmem)).2 rfl
  have hhead : rest.head? ≠ some 0x3a := fun hhead => hcolon (List.mem_of_mem_head? hhead)
  have hsides : splitDouble (lower text) = [[], ascii "ffff:" ++ rest] := by
    have hcut (c : UInt8) (rest : Bytes) (hc : c ≠ 0x3a) :
        splitDouble (c :: rest) = (splitDouble rest).modifyHead (c :: ·) :=
      splitDouble_cons fun heq => hc heq.1
    rw [hlower]
    change [] :: splitDouble (0x66 :: 0x66 :: 0x66 :: 0x66 :: 0x3a :: rest) = _
    rw [hcut _ _ (by decide), hcut _ _ (by decide), hcut _ _ (by decide), hcut _ _ (by decide),
      splitDouble_cons fun heq => hhead heq.2, splitDouble_of_not_mem hcolon]
    rfl
  have hparts : (ascii "ffff:" ++ rest).splitOn 0x3a = [ascii "ffff", rest] := by
    change (ascii "ffff" ++ 0x3a :: rest).splitOn 0x3a = _
    rw [List.splitOn_append_cons_self, List.splitOn_eq_singleton hcolon]
    rfl
  have hgroup : group? rest = none := by
    rw [group?, hexNat_none hdot, ite_self]
  have hright : side? true (ascii "ffff:" ++ rest) =
      (ipv4? rest).map fun inner => 0xffff :: pairs inner.octets := by
    have hfirst : group? (ascii "ffff") = some 0xffff := by decide
    have hne : ascii "ffff:" ++ rest ≠ [] := List.cons_ne_nil _ _
    rw [side?, if_neg hne, hparts]
    change (group? (ascii "ffff")).bind (fun group => (groups? true [rest]).bind fun groups =>
      some (group :: groups)) = _
    rw [hfirst, Option.bind_some, groups?, hgroup]
    cases ipv4? rest <;> rfl
  have hgroups : allGroups? (lower text) = (side? true (ascii "ffff:" ++ rest)).bind fun right =>
      if right.length < 8 then some (List.replicate (8 - right.length) 0 ++ right) else none := by
    rw [allGroups?, hsides]
    change (side? true (ascii "ffff:" ++ rest)).bind _ = _
    congr 1
    funext right
    simp
  rw [ipv6?, List.splitOn_eq_singleton hpercent] at htext
  dsimp only at htext
  rw [hgroups, hright] at htext
  cases hinner : ipv4? rest with
  | none =>
      rw [hinner] at htext
      contradiction
  | some inner =>
      rw [hinner] at htext
      refine ⟨inner, ?_, ipv4?_eq hinner⟩
      obtain ⟨octets, hlength, hlt⟩ := inner
      match octets, hlength with
      | [a, b, c, d], _ =>
          obtain ⟨groups, hgroups, hsome⟩ := Option.bind_eq_some_iff.mp htext
          obtain rfl : [0, 0, 0, 0, 0, 0xffff, a * 256 + b, c * 256 + d] = groups :=
            Option.some.inj hgroups
          split at hsome
          · obtain rfl := Option.some.inj hsome
            have ha := hlt a (by simp)
            have hb := hlt b (by simp)
            have hc := hlt c (by simp)
            have hd := hlt d (by simp)
            have hoctets : unpair [a * 256 + b, c * 256 + d] = [a, b, c, d] := by
              simp only [unpair, List.flatMap_cons, List.flatMap_nil, List.cons_append,
                List.nil_append, List.cons.injEq, and_true]
              omega
            have hfront : [0, 0, 0, 0, 0, 0xffff, a * 256 + b, c * 256 + d].take 6 =
                [0, 0, 0, 0, 0, 0xffff] := rfl
            rw [Ipv6.mapped, if_pos hfront]
            simp only [List.drop_succ_cons, List.drop_zero, hoctets]
          · exact absurd hsome (by simp)

/-! ## The groups that the key shows -/

theorem width_cons (group : Bytes) (groups : List Bytes) :
    width (group :: groups) = (if 0x2e ∈ group then 2 else 1) + width groups := by
  rw [width, List.map_cons, List.sum_cons]
  rfl

theorem group?_no_dot {part : Bytes} {group : ℕ} (hgroup : group? part = some group) :
    0x2e ∉ part := by
  intro hdot
  rw [group?, hexNat_none hdot, ite_self] at hgroup
  contradiction

theorem ipv4?_dot {text : Bytes} {address : Ipv4} (htext : ipv4? text = some address) :
    0x2e ∈ text := by
  by_contra hdot
  have hsplit := address.splitOn_text
  rw [← ipv4?_eq htext, List.splitOn_eq_singleton hdot] at hsplit
  have hlength := congrArg List.length hsplit
  rw [List.length_singleton, List.length_map, address.length_eq] at hlength
  contradiction

/-- The parts of a side fill as many groups as it has, and all but a dotted last one show theirs. -/
theorem groups?_spec {dotted : Bool} {parts : List Bytes} {groups : List ℕ}
    (hgroups : groups? dotted parts = some groups) :
    width parts = groups.length ∧ ∀ i, (i + 2 < groups.length ∨ dotted = false) →
      (parts[i]?).bind group? = groups[i]? := by
  fun_induction groups? dotted parts generalizing groups with
  | case1 =>
      obtain rfl := Option.some.inj hgroups
      exact ⟨rfl, fun _ _ => rfl⟩
  | case2 last group hgroup =>
      obtain rfl := Option.some.inj hgroups
      refine ⟨by rw [width_cons, if_neg (group?_no_dot hgroup)]; rfl, fun i _ => ?_⟩
      cases i with
      | zero => exact hgroup
      | succ i => rfl
  | case3 last hgroup hdotted =>
      obtain ⟨address, haddress, rfl⟩ := Option.map_eq_some_iff.mp hgroups
      have hlength : (pairs address.octets).length = 2 := by
        obtain ⟨octets, hlength, -⟩ := address
        match octets, hlength with
        | [a, b, c, d], _ => rfl
      refine ⟨by rw [width_cons, if_pos (ipv4?_dot haddress), hlength]; rfl, fun i hi => ?_⟩
      rw [hlength, hdotted] at hi
      rcases hi with hi | hi
      · omega
      · contradiction
  | case4 last hgroup hdotted => contradiction
  | case5 part parts hparts ih =>
      obtain ⟨group, hgroup, hrest⟩ := Option.bind_eq_some_iff.mp hgroups
      obtain ⟨rest, hparts', hsome⟩ := Option.bind_eq_some_iff.mp hrest
      obtain rfl := Option.some.inj hsome
      obtain ⟨hwidth, hget⟩ := ih hparts'
      refine ⟨by rw [width_cons, if_neg (group?_no_dot hgroup), hwidth, List.length_cons,
        Nat.add_comm], fun i hi => ?_⟩
      cases i with
      | zero => exact hgroup
      | succ i =>
          rw [List.length_cons] at hi
          exact hget i (hi.imp_left fun hi => by omega)

theorem side?_spec {dotted : Bool} {side : Bytes} {groups : List ℕ}
    (hside : side? dotted side = some groups) :
    width (sideGroups side) = groups.length ∧ ∀ i, (i + 2 < groups.length ∨ dotted = false) →
      ((sideGroups side)[i]?).bind group? = groups[i]? := by
  rw [side?] at hside
  rw [sideGroups]
  split
  · next hnil =>
      rw [if_pos hnil] at hside
      obtain rfl := Option.some.inj hside
      exact ⟨rfl, fun _ _ => rfl⟩
  · next hne =>
      rw [if_neg hne] at hside
      exact groups?_spec hside

theorem length_le_width (parts : List Bytes) : parts.length ≤ width parts := by
  induction parts with
  | nil => exact Nat.le_refl 0
  | cons part parts ih =>
      rw [List.length_cons, width_cons]
      split <;> omega

/-- Without a dotted part a side has as many parts as groups. -/
theorem length_of_side {side : Bytes} {groups : List ℕ} (hside : side? false side = some groups) :
    (sideGroups side).length = groups.length := by
  obtain ⟨hwidth, hget⟩ := side?_spec hside
  apply Nat.le_antisymm
  · rw [← hwidth]
    exact length_le_width _
  · by_contra hshort
    have hnone := List.getElem?_eq_none (Nat.le_refl (sideGroups side).length)
    have hget := hget (sideGroups side).length (.inr rfl)
    rw [hnone, Option.bind_none] at hget
    exact hshort (List.getElem?_eq_none_iff.mp hget.symm)

/-- The texts of the groups of an address, as the source cuts them out. -/
def groupTexts (text : Bytes) : List Bytes :=
  let sides := splitDouble text
  let left := sideGroups (sides.headD [])
  match sides[1]? with
  | none => left
  | some tail =>
      let right := sideGroups tail
      left ++ List.replicate (8 - width left - width right) (ascii "0") ++ right

theorem getElem?_filled {α : Type*} (left right : List α) (zeros : ℕ) (zero : α) (i : ℕ) :
    (left ++ List.replicate zeros zero ++ right)[i]? =
      if i < left.length then left[i]?
      else if i - left.length < zeros then some zero
      else right[i - left.length - zeros]? := by
  rw [List.append_assoc, List.getElem?_append]
  split
  · rfl
  · rw [List.getElem?_append, List.length_replicate]
    split
    · next hlt => exact List.getElem?_replicate_of_lt hlt
    · rfl

/-- The first four of them are the texts of the first four groups: a dotted part is later. -/
theorem groupTexts_spec {text : Bytes} {groups : List ℕ}
    (hgroups : allGroups? text = some groups) (hlength : groups.length = 8) (i : ℕ) (hi : i < 4) :
    ((groupTexts text)[i]?).bind group? = groups[i]? := by
  rw [allGroups?] at hgroups
  rw [groupTexts]
  split at hgroups
  · next whole hsides =>
      obtain ⟨hwidth, hget⟩ := groups?_spec hgroups
      have hne : whole ≠ [] := by
        rintro rfl
        rw [hlength] at hwidth
        contradiction
      rw [hsides]
      change ((sideGroups whole)[i]?).bind group? = _
      rw [sideGroups, if_neg hne]
      exact hget i (.inl (by omega))
  · next head tail hsides =>
      obtain ⟨left, hleft, hgroups⟩ := Option.bind_eq_some_iff.mp hgroups
      obtain ⟨right, hright, hgroups⟩ := Option.bind_eq_some_iff.mp hgroups
      split at hgroups
      · next hshort =>
          obtain rfl := Option.some.inj hgroups
          obtain ⟨hwidth, hget⟩ := side?_spec hleft
          obtain ⟨hwidth', hget'⟩ := side?_spec hright
          have hcount := length_of_side hleft
          rw [hsides]
          change ((sideGroups head ++ List.replicate (8 - width (sideGroups head) -
            width (sideGroups tail)) (ascii "0") ++ sideGroups tail)[i]?).bind group? = _
          rw [hwidth, hwidth', getElem?_filled, getElem?_filled, hcount]
          split
          · exact hget i (.inr rfl)
          · split
            · rfl
            · exact hget' _ (.inl (by omega))
      · contradiction
  · contradiction

/-! ## The keys -/

/-- The key of a network, as text. -/
def networkKey (bits : List ℕ) : Bytes := [0x3a].intercalate (bits.map hexNumber) ++ ascii "::/64"

/-- A group is counted without leading zeros and in lowercase. -/
theorem shortGroup_eq {part : Bytes} {group : ℕ} (hgroup : group? part = some group) :
    shortGroup part = hexNumber group := by
  rw [group?] at hgroup
  split at hgroup
  · next hlength =>
      have hdigits := isSome_hexNat.mp (by rw [hgroup]; rfl)
      have hwhole : part.takeWhile (fun c => (hexValue c).isSome) = part :=
        List.takeWhile_eq_self_iff.mpr hdigits
      have hne : part ≠ [] := List.ne_nil_of_length_pos hlength.1
      rw [shortGroup, parseHex, hwhole, if_neg hne, hgroup]
      rfl
  · contradiction

/-- The text before a zone id is of the same groups. -/
theorem allGroups?_of_ipv6? {text : Bytes} {address : Ipv6} (htext : ipv6? text = some address) :
    allGroups? (((lower text).splitOn 0x25).headD []) = some address.groups := by
  obtain ⟨groups, hgroups, hsome⟩ := Option.bind_eq_some_iff.mp htext
  split at hsome
  · obtain rfl := Option.some.inj hsome
    split at hgroups
    · next heq =>
        rw [heq]
        exact hgroups
    · next heq =>
        rw [heq]
        split at hgroups
        · exact hgroups
        · contradiction
    · contradiction
  · contradiction

theorem shown_groups {text : Bytes} {address : Ipv6} (htext : ipv6? text = some address) :
    ((groupTexts (((lower text).splitOn 0x25).headD [])).take 4).map shortGroup =
      address.network.map hexNumber := by
  have hspec := groupTexts_spec (allGroups?_of_ipv6? htext) address.length_eq
  apply List.ext_getElem?
  intro i
  rw [List.getElem?_map, List.getElem?_map, Ipv6.network, List.getElem?_take, List.getElem?_take]
  split
  · next hi =>
      have hlt : i < address.groups.length := by
        rw [address.length_eq]
        omega
      have hget := hspec i hi
      rw [List.getElem?_eq_getElem hlt] at hget ⊢
      obtain ⟨part, hpart, hgroup⟩ := Option.bind_eq_some_iff.mp hget
      rw [hpart, Option.map_some, Option.map_some, shortGroup_eq hgroup]
  · rfl

/-- An IPv6 address in another form than the recognised one counts by its network. -/
theorem visitorAddress_network {text : Bytes} {address : Ipv6}
    (htext : address? text = some (.v6 address)) (hform : mappedForm? text = none) :
    visitorAddress (some text) = networkKey address.network := by
  rw [address?] at htext
  split at htext
  · exact IpAddress.noConfusion (Option.some.inj htext)
  · next hfour =>
      obtain ⟨address', hsix, heq⟩ := Option.map_eq_some_iff.mp htext
      obtain rfl := IpAddress.v6.inj heq
      have hip : isIP text = 6 := by
        rw [isIP, hfour, hsix]
        rfl
      rw [networkKey, ← shown_groups hsix]
      cases text with
      | nil => contradiction
      | cons c rest =>
          rw [visitorAddress]
          · simp only [hform, hip, ne_eq, not_true_eq_false, if_false]
            rfl
          · exact List.cons_ne_nil _ _

theorem visitorAddress_form {text rest : Bytes} (hform : mappedForm? text = some rest) :
    visitorAddress (some text) = rest := by
  cases text with
  | nil => contradiction
  | cons c text =>
      rw [visitorAddress]
      · simp only [hform]
      · exact List.cons_ne_nil _ _

theorem visitorAddress_v4 {text : Bytes} {address : Ipv4}
    (htext : address? text = some (.v4 address)) :
    text = address.text ∧ visitorAddress (some text) = text := by
  rw [address?] at htext
  split at htext
  · next address' hfour =>
      obtain rfl := IpAddress.v4.inj (Option.some.inj htext)
      have heq := ipv4?_eq hfour
      have hip : isIP text = 4 := by
        rw [isIP, hfour]
        rfl
      have hform : mappedForm? text = none := by
        cases hform : mappedForm? text with
        | none => rfl
        | some rest =>
            have hcolon : 0x3a ∈ lower text := by
              rw [(mappedForm?_eq_some hform).1]
              exact List.mem_cons_self
            obtain ⟨c, hc, hlower⟩ := List.mem_map.mp hcolon
            have hplain : ∀ c : UInt8, c = 0x2e ∨ isDigit c = true → lowerByte c ≠ 0x3a := by
              decide +kernel
            exact absurd hlower (hplain c (address'.mem_text (heq ▸ hc)))
      refine ⟨heq, ?_⟩
      cases text with
      | nil => contradiction
      | cons c rest =>
          rw [visitorAddress]
          · simp only [hform, hip]
            rfl
          · exact List.cons_ne_nil _ _
  · next hfour =>
      obtain ⟨address', _, heq⟩ := Option.map_eq_some_iff.mp htext
      contradiction

theorem hexNumber_injective : Function.Injective hexNumber := by
  intro n m heq
  have hn : n < 16 ^ (n + m + 1) :=
    Nat.lt_trans (by omega) (@Nat.lt_pow_self (n + m + 1) 16 (by decide))
  have hm : m < 16 ^ (n + m + 1) :=
    Nat.lt_trans (by omega) (@Nat.lt_pow_self (n + m + 1) 16 (by decide))
  have hdigits := padStart_hexNumber (Nat.succ_pos _) hn
  rw [heq, padStart_hexNumber (Nat.succ_pos _) hm] at hdigits
  have hnat := hexNat_hexDigits hn
  rw [← hdigits, hexNat_hexDigits hm] at hnat
  exact (Option.some.inj hnat).symm

theorem colon_not_mem_hexNumber (n : ℕ) : 0x3a ∉ hexNumber n := by
  intro hmem
  have hn : n < 16 ^ (n + 1) :=
    Nat.lt_trans (Nat.lt_succ_self n) (@Nat.lt_pow_self (n + 1) 16 (by decide))
  have hdigits := isSome_hexNat.mp (by rw [hexNat_hexDigits hn]; rfl) 0x3a
  rw [← padStart_hexNumber (Nat.succ_pos n) hn] at hdigits
  exact absurd (hdigits (List.mem_append_right _ hmem)) (by decide)

/-- Different networks have different keys. -/
theorem networkKey_injective {bits bits' : List ℕ} (hbits : bits ≠ []) (hbits' : bits' ≠ [])
    (heq : networkKey bits = networkKey bits') : bits = bits' := by
  have hsplit (bits : List ℕ) (hbits : bits ≠ []) :
      ([0x3a].intercalate (bits.map hexNumber)).splitOn 0x3a = bits.map hexNumber := by
    apply List.splitOn_intercalate
    · intro part hpart
      obtain ⟨n, _, rfl⟩ := List.mem_map.mp hpart
      exact colon_not_mem_hexNumber n
    · exact fun hnil => hbits (List.map_eq_nil_iff.mp hnil)
  have htexts := congrArg (List.splitOn 0x3a) (List.append_cancel_right heq)
  rw [hsplit bits hbits, hsplit bits' hbits'] at htexts
  exact hexNumber_injective.list_map htexts

theorem networkKey_ne_text (bits : List ℕ) (address : Ipv4) : networkKey bits ≠ address.text := by
  intro heq
  have hslash : 0x2f ∈ address.text := by
    rw [← heq]
    exact List.mem_append_right _ (by decide)
  rcases address.mem_text hslash with hdot | hdigit
  · exact absurd hdot (by decide)
  · exact absurd hdigit (by decide)

/-! ## The law -/

theorem address?_mapped {text : Bytes} {address : Ipv6} (htext : address? text = some (.v6 address)) :
    ipv6? text = some address := by
  rw [address?] at htext
  split at htext
  · exact IpAddress.noConfusion (Option.some.inj htext)
  · obtain ⟨address', hsix, heq⟩ := Option.map_eq_some_iff.mp htext
    rw [hsix, IpAddress.v6.inj heq]

/-- A text that is not IPv4-mapped counts by the network. -/
theorem visitorAddress_unmapped {text : Bytes} {address : Ipv6}
    (htext : address? text = some (.v6 address)) (hmapped : address.mapped = none) :
    visitorAddress (some text) = networkKey address.network := by
  apply visitorAddress_network htext
  cases hform : mappedForm? text with
  | none => rfl
  | some rest =>
      obtain ⟨inner, hinner, _⟩ := mapped_of_form hform (address?_mapped htext)
      rw [hmapped] at hinner
      contradiction

/-- An IPv6 address counts as an IPv4 address in the recognised form, and in no other. -/
theorem counts_as_inner_iff {text : Bytes} {address : Ipv6} {inner : Ipv4}
    (htext : address? text = some (.v6 address)) :
    visitorAddress (some text) = inner.text ↔ lower text = ascii "::ffff:" ++ inner.text := by
  constructor
  · intro hkey
    cases hform : mappedForm? text with
    | none =>
        rw [visitorAddress_network htext hform] at hkey
        exact absurd hkey (networkKey_ne_text _ _)
    | some rest =>
        rw [visitorAddress_form hform] at hkey
        rw [(mappedForm?_eq_some hform).1, hkey]
  · intro hlower
    exact visitorAddress_form (mappedForm?_of_lower hlower)

theorem counts_plainly {text : Bytes} {address : IpAddress} (htext : address? text = some address) :
    (∀ inner, address.mapped = some inner → visitorAddress (some text) = inner.text) ↔
      PlainlyMapped text address := by
  cases address with
  | v4 address =>
      constructor
      · intro _ inner hinner
        contradiction
      · intro _ inner hinner
        contradiction
  | v6 address =>
      constructor
      · intro hkeys inner hinner
        exact (counts_as_inner_iff htext).mp (hkeys inner hinner)
      · intro hplain inner hinner
        exact (counts_as_inner_iff htext).mpr (hplain inner hinner)

/-- One address has one key, unless a text of it is IPv4-mapped in a form that is missed. -/
theorem counts_once {left right : Bytes} {address : IpAddress} (hleft : address? left = some address)
    (hright : address? right = some address) (hplain : PlainlyMapped left address)
    (hplain' : PlainlyMapped right address) :
    visitorAddress (some left) = visitorAddress (some right) := by
  cases address with
  | v4 address =>
      obtain ⟨heq, hkey⟩ := visitorAddress_v4 hleft
      obtain ⟨heq', hkey'⟩ := visitorAddress_v4 hright
      rw [hkey, hkey', heq, heq']
  | v6 address =>
      cases hmapped : address.mapped with
      | none => rw [visitorAddress_unmapped hleft hmapped, visitorAddress_unmapped hright hmapped]
      | some inner =>
          rw [(counts_plainly hleft).mpr hplain inner hmapped,
            (counts_plainly hright).mpr hplain' inner hmapped]

theorem IpAddress.network_eq_some {address : IpAddress} {bits : List ℕ}
    (hbits : address.network = some bits) :
    ∃ six : Ipv6, address = .v6 six ∧ six.mapped = none ∧ six.network = bits := by
  cases address with
  | v4 address => contradiction
  | v6 six =>
      rw [IpAddress.network] at hbits
      cases hmapped : six.mapped with
      | none =>
          rw [hmapped] at hbits
          exact ⟨six, rfl, hmapped, Option.some.inj hbits⟩
      | some inner =>
          rw [hmapped] at hbits
          contradiction

theorem Ipv6.network_ne_nil (address : Ipv6) : address.network ≠ [] := by
  have hlength := address.length_eq
  intro hnil
  rw [Ipv6.network, List.take_eq_nil_iff] at hnil
  rcases hnil with hnil | hnil
  · contradiction
  · rw [hnil] at hlength
    contradiction

theorem counts_by_network {left right : Bytes} {address address' : IpAddress} {bits bits' : List ℕ}
    (hleft : address? left = some address) (hright : address? right = some address')
    (hbits : address.network = some bits) (hbits' : address'.network = some bits') :
    visitorAddress (some left) = visitorAddress (some right) ↔ bits = bits' := by
  obtain ⟨six, rfl, hmapped, rfl⟩ := IpAddress.network_eq_some hbits
  obtain ⟨six', rfl, hmapped', rfl⟩ := IpAddress.network_eq_some hbits'
  rw [visitorAddress_unmapped hleft hmapped, visitorAddress_unmapped hright hmapped']
  constructor
  · exact networkKey_injective six.network_ne_nil six'.network_ne_nil
  · intro heq
    rw [heq]

/-- The key of a visitor depends on the address as asked exactly when no IPv4-mapped address comes
in another form than `::ffff:` and the dotted IPv4 address. -/
theorem counts_alike_iff {left right : Bytes} {address address' : IpAddress}
    (hleft : address? left = some address) (hright : address? right = some address') :
    CountsAlike left right address address' ↔
      PlainlyMapped left address ∧ PlainlyMapped right address' := by
  constructor
  · intro halike
    exact ⟨(counts_plainly hleft).mp halike.mapped, (counts_plainly hright).mp halike.mapped'⟩
  · rintro ⟨hplain, hplain'⟩
    constructor
    · rintro rfl
      exact counts_once hleft hright hplain hplain'
    · exact (counts_plainly hleft).mpr hplain
    · exact (counts_plainly hright).mpr hplain'
    · intro bits bits'
      exact counts_by_network hleft hright

/-- `203.0.113.5`, and the IPv6 address it is mapped to. -/
def sampleInner : Ipv4 := ⟨[203, 0, 113, 5], rfl, by decide⟩

def sampleMapped : Ipv6 := ⟨[0, 0, 0, 0, 0, 0xffff, 0xcb00, 0x7105], rfl, by decide⟩

theorem counts_alike_sample :
    CountsAlike (ascii "::FFFF:203.0.113.5") (ascii "203.0.113.5") (.v6 sampleMapped)
      (.v4 sampleInner) := by
  have hmapped : sampleMapped.mapped = some sampleInner := by decide +kernel
  apply (counts_alike_iff (by decide +kernel) (by decide +kernel)).mpr
  constructor
  · intro inner hinner
    obtain rfl : sampleInner = inner := Option.some.inj (hmapped.symm.trans hinner)
    decide +kernel
  · intro inner hinner
    contradiction

end Relay

end VeraKey
