/-
Texts of IP addresses: which texts are addresses, and of which address.  An IPv6 address has many
texts; an IPv4 address has one.
-/
import VeraKey.Coercion
import VeraKey.FormatTotal

namespace VeraKey

open ByteCodec TextCodec

namespace Relay

open Sdk (decimalNumber digitsNumber)

/-! ## Addresses -/

structure Ipv4 where
  octets : List ℕ
  length_eq : octets.length = 4
  lt : ∀ octet ∈ octets, octet < 256
deriving DecidableEq

/-- Eight groups of sixteen bits. -/
structure Ipv6 where
  groups : List ℕ
  length_eq : groups.length = 8
  lt : ∀ group ∈ groups, group < 65536
deriving DecidableEq

/-- The first 64 bits. -/
def Ipv6.network (address : Ipv6) : List ℕ := address.groups.take 4

/-- The two groups of an IPv4 address. -/
def pairs : List ℕ → List ℕ
  | [a, b, c, d] => [a * 256 + b, c * 256 + d]
  | _ => []

/-- The octets of two groups. -/
def unpair (groups : List ℕ) : List ℕ := groups.flatMap fun group => [group / 256, group % 256]

/-- The IPv4 address of an IPv4-mapped one. -/
def Ipv6.mapped (address : Ipv6) : Option Ipv4 :=
  if address.groups.take 6 = [0, 0, 0, 0, 0, 0xffff] then
    some {
      octets := unpair (address.groups.drop 6)
      length_eq := by
        have hlength := address.length_eq
        simp [unpair, List.length_flatMap, hlength]
      lt := by
        intro octet hoctet
        rw [unpair, List.mem_flatMap] at hoctet
        obtain ⟨group, hgroup, hoctet⟩ := hoctet
        have hlt := address.lt group (List.mem_of_mem_drop hgroup)
        rw [List.mem_cons, List.mem_singleton] at hoctet
        omega }
  else none

/-! ## Texts of IPv4 addresses -/

/-- A number below 256 without leading zeros. -/
def octet? (part : Bytes) : Option ℕ :=
  (digitsNumber 10 part).filter fun n => n < 256 ∧ decimalNumber n = part

def ipv4? (text : Bytes) : Option Ipv4 :=
  ((text.splitOn 0x2e).mapM octet?).bind fun octets =>
    if h : octets.length = 4 ∧ ∀ octet ∈ octets, octet < 256 then some ⟨octets, h.1, h.2⟩
    else none

def Ipv4.text (address : Ipv4) : Bytes := [0x2e].intercalate (address.octets.map decimalNumber)

/-! ## Texts of IPv6 addresses -/

/-- One to four hexadecimal digits. -/
def group? (part : Bytes) : Option ℕ :=
  if 1 ≤ part.length ∧ part.length ≤ 4 then hexNat part else none

/-- Groups, the last of which may stand for two in the way of IPv4. -/
def groups? (dotted : Bool) : List Bytes → Option (List ℕ)
  | [] => some []
  | [last] =>
      match group? last with
      | some group => some [group]
      | none => if dotted then (ipv4? last).map fun address => pairs address.octets else none
  | part :: parts => do return (← group? part) :: (← groups? dotted parts)

/-- The groups on one side of `::`, which may be none. -/
def side? (dotted : Bool) (text : Bytes) : Option (List ℕ) :=
  if text = [] then some [] else groups? dotted (text.splitOn 0x3a)

/-- The parts between one `::` and the next. -/
def splitDouble : Bytes → List Bytes
  | 0x3a :: 0x3a :: rest => [] :: splitDouble rest
  | c :: rest => (splitDouble rest).modifyHead (c :: ·)
  | [] => [[]]

/-- The groups of a text without a zone id; `::` stands for one group of zeros or more. -/
def allGroups? (text : Bytes) : Option (List ℕ) :=
  match splitDouble text with
  | [whole] => groups? true (whole.splitOn 0x3a)
  | [head, tail] => do
      let left ← side? false head
      let right ← side? true tail
      if left.length + right.length < 8 then
        some (left ++ List.replicate (8 - left.length - right.length) 0 ++ right)
      else none
  | _ => none

/-- The characters of a zone id. -/
def isZone (text : Bytes) : Bool :=
  text ≠ [] && text.all fun c =>
    (48 ≤ c && c ≤ 57) || (97 ≤ c && c ≤ 122) || c = 0x2d || c = 0x2e || c = 0x3a

/-- The IPv6 address of a text, whatever its letter case. -/
def ipv6? (text : Bytes) : Option Ipv6 :=
  let groups :=
    match (lower text).splitOn 0x25 with
    | [address] => allGroups? address
    | [address, zone] => if isZone zone then allGroups? address else none
    | _ => none
  groups.bind fun groups =>
    if h : groups.length = 8 ∧ ∀ group ∈ groups, group < 65536 then some ⟨groups, h.1, h.2⟩
    else none

/-- `isIP`: 4, 6, or 0 for what is no address. -/
def isIP (text : Bytes) : ℕ :=
  if (ipv4? text).isSome then 4 else if (ipv6? text).isSome then 6 else 0

example : ((ipv6? (ascii "2001:DB8::192.0.2.33%eth0")).map Ipv6.groups) =
    some [0x2001, 0xdb8, 0, 0, 0, 0, 0xc000, 0x221] := by
  decide +kernel

end Relay

end VeraKey
