/-
JSON texts: a parser of values, the text a script writes for a value, and the round trip between
them.  How numbers are written and read is a parameter.
-/
import VeraKey.Json
import VeraKey.TextCodec

namespace JsonText

open ByteCodec TextCodec

/-! ## UTF-8 -/

def replacement : Bytes := [0xef, 0xbf, 0xbd]

/-- The range of the second byte of a character, and how many bytes follow it. -/
def leadByte (a : UInt8) : Option (UInt8 × UInt8 × ℕ) :=
  if a < 0xc2 then none
  else if a < 0xe0 then some (0x80, 0xbf, 0)
  else if a < 0xf0 then
    some (if a = 0xe0 then 0xa0 else 0x80, if a = 0xed then 0x9f else 0xbf, 1)
  else if a < 0xf5 then
    some (if a = 0xf0 then 0x90 else 0x80, if a = 0xf4 then 0x8f else 0xbf, 2)
  else none

def isContinuation (c : UInt8) : Bool := 0x80 ≤ c && c ≤ 0xbf

/-- The characters of bytes; what is left of a broken one becomes one replacement character. -/
def decodeFrom : Bytes → Bytes
  | [] => []
  | a :: rest =>
      if a < 0x80 then a :: decodeFrom rest
      else
        match leadByte a, rest with
        | some (low, high, count), b :: rest =>
            if low ≤ b ∧ b ≤ high then
              match count, rest with
              | 0, rest => a :: b :: decodeFrom rest
              | 1, c :: rest =>
                  if isContinuation c then a :: b :: c :: decodeFrom rest
                  else replacement ++ decodeFrom (c :: rest)
              | _, c :: d :: rest =>
                  if isContinuation c then
                    if isContinuation d then a :: b :: c :: d :: decodeFrom rest
                    else replacement ++ decodeFrom (d :: rest)
                  else replacement ++ decodeFrom (c :: d :: rest)
              | _, [c] =>
                  if isContinuation c then replacement else replacement ++ decodeFrom [c]
              | _, [] => replacement
            else replacement ++ decodeFrom (b :: rest)
        | _, rest => replacement ++ decodeFrom rest

/-- `TextDecoder.decode`, which drops a byte order mark. -/
def decode (bytes : Bytes) : Bytes :=
  decodeFrom (if bytes.take 3 = [0xef, 0xbb, 0xbf] then bytes.drop 3 else bytes)

theorem decode_ascii {text : Bytes} (hascii : ∀ c ∈ text, c < 0x80) : decode text = text := by
  have hfrom : decodeFrom text = text := by
    induction text with
    | nil => rfl
    | cons c rest ih =>
        rw [decodeFrom.eq_def]
        dsimp only
        rw [if_pos (hascii c List.mem_cons_self),
          ih fun c hc => hascii c (List.mem_cons_of_mem _ hc)]
  have hmark : text.take 3 ≠ [0xef, 0xbb, 0xbf] := by
    intro htake
    have hmem : (0xef : UInt8) ∈ text := List.mem_of_mem_take (htake ▸ List.mem_cons_self)
    exact absurd (hascii _ hmem) (by decide)
  rw [decode, if_neg hmark, hfrom]

/-! ## Numbers -/

def isDigit (c : UInt8) : Bool := 48 ≤ c && c ≤ 57

/-- One or more digits at the front. -/
def digits (text : Bytes) : Option (Bytes × Bytes) :=
  let front := text.takeWhile isDigit
  if front = [] then none else some (front, text.drop front.length)

/-- The number literal at the front of a text, and what follows it. -/
def literal (text : Bytes) : Option (Bytes × Bytes) := do
  let (sign, text) : Bytes × Bytes :=
    if text.head? = some 0x2d then ([0x2d], text.drop 1) else ([], text)
  let (whole, text) ←
    if text.head? = some 48 then some ([48], text.drop 1) else digits text
  let (fraction, text) ←
    if text.head? = some 0x2e then
      (digits (text.drop 1)).map fun (front, rest) => (0x2e :: front, rest)
    else some ([], text)
  let (exponent, text) ← match text with
    | [] => some ([], [])
    | e :: rest =>
        if e = 0x65 ∨ e = 0x45 then
          let (sign, rest) :=
            if rest.head? = some 0x2b ∨ rest.head? = some 0x2d then (rest.take 1, rest.drop 1)
            else ([], rest)
          (digits rest).map fun (front, rest) => (e :: (sign ++ front), rest)
        else some ([], e :: rest)
  return (sign ++ whole ++ fraction ++ exponent, text)

/-- What follows a value inside an array or an object, or nothing. -/
def Follows (rest : Bytes) : Prop := ∀ c ∈ rest.head?, c = 0x2c ∨ c = 0x5d ∨ c = 0x7d

/-- How numbers are written, and what a literal is read as. -/
structure NumberFormat where
  /-- The values a number can have. -/
  IsNumber : ℚ → Prop
  text : ℚ → Bytes
  /-- Nothing for a literal out of range. -/
  value : Bytes → Option ℚ
  isNumber_one : IsNumber 1
  literal_text : ∀ q, IsNumber q → ∀ rest, Follows rest →
    literal (text q ++ rest) = some (text q, rest)
  value_text : ∀ q, IsNumber q → value (text q) = some q
  text_ascii : ∀ q, IsNumber q → ∀ c ∈ text q, c < 0x80

/-! ## Strings -/

def escaped (c : UInt8) : Option UInt8 :=
  [(0x22, 0x22), (0x5c, 0x5c), (0x2f, 0x2f), (0x62, 0x08), (0x66, 0x0c), (0x6e, 0x0a),
    (0x72, 0x0d), (0x74, 0x09)].lookup c

/-- The bytes of a code unit; half of a surrogate pair has three of its own. -/
def unitBytes (unit : ℕ) : Bytes :=
  if unit < 0x80 then [.ofNat unit]
  else if unit < 0x800 then [.ofNat (0xc0 + unit / 64), .ofNat (0x80 + unit % 64)]
  else [.ofNat (0xe0 + unit / 4096), .ofNat (0x80 + unit / 64 % 64), .ofNat (0x80 + unit % 64)]

/-- The characters up to the closing quote, and what follows it. -/
def stringBody : Bytes → Option (Bytes × Bytes)
  | 0x22 :: rest => some ([], rest)
  | 0x5c :: 0x75 :: a :: b :: c :: d :: rest => do
      let unit ← hexNat [a, b, c, d]
      let (body, rest) ← stringBody rest
      return (unitBytes unit ++ body, rest)
  | 0x5c :: e :: rest => do
      let c ← escaped e
      let (body, rest) ← stringBody rest
      return (c :: body, rest)
  | c :: rest =>
      if c < 0x20 then none
      else do
        let (body, rest) ← stringBody rest
        return (c :: body, rest)
  | [] => none

/-- Halves of a surrogate pair that meet are one character. -/
def joinHalves : Bytes → Bytes
  | a :: b :: c :: d :: e :: f :: rest =>
      if a = 0xed ∧ 0xa0 ≤ b ∧ b < 0xb0 ∧ d = 0xed ∧ 0xb0 ≤ e then
        let code := 0x10000 + (b.toNat % 16 * 64 + c.toNat % 64) * 1024 +
          (e.toNat % 16 * 64 + f.toNat % 64)
        .ofNat (0xf0 + code / 2 ^ 18) :: .ofNat (0x80 + code / 2 ^ 12 % 64) ::
          .ofNat (0x80 + code / 64 % 64) :: .ofNat (0x80 + code % 64) :: joinHalves rest
      else a :: joinHalves (b :: c :: d :: e :: f :: rest)
  | text => text

def string (text : Bytes) : Option (Bytes × Bytes) := do
  let (body, rest) ← stringBody text
  return (joinHalves body, rest)

/-! ## Values -/

def isSpace (c : UInt8) : Bool := c = 0x20 || c = 0x09 || c = 0x0a || c = 0x0d

def skip (text : Bytes) : Bytes := text.dropWhile isSpace

/-- Values up to the closing bracket. -/
def elements (value : Bytes → Option (Json × Bytes)) :
    (count : ℕ) → Bytes → Option (List Json × Bytes)
  | 0, _ => none
  | count + 1, text => do
      let (item, rest) ← value text
      match skip rest with
      | 0x2c :: rest => do
          let (items, rest) ← elements value count rest
          return (item :: items, rest)
      | 0x5d :: rest => return ([item], rest)
      | _ => none

/-- A key, a colon and a value. -/
def member (value : Bytes → Option (Json × Bytes)) (text : Bytes) :
    Option ((Bytes × Json) × Bytes) :=
  match skip text with
  | 0x22 :: rest => do
      let (key, rest) ← string rest
      match skip rest with
      | 0x3a :: rest => do
          let (item, rest) ← value rest
          return ((key, item), rest)
      | _ => none
  | _ => none

/-- Members up to the closing brace. -/
def members (value : Bytes → Option (Json × Bytes)) :
    (count : ℕ) → Bytes → Option (List (Bytes × Json) × Bytes)
  | 0, _ => none
  | count + 1, text => do
      let (field, rest) ← member value text
      match skip rest with
      | 0x2c :: rest => do
          let (fields, rest) ← members value count rest
          return (field :: fields, rest)
      | 0x7d :: rest => return ([field], rest)
      | _ => none

/-- A key that comes again has its last value. -/
def put (fields : List (Bytes × Json)) (field : Bytes × Json) : List (Bytes × Json) :=
  if fields.any fun other => other.1 = field.1 then
    fields.map fun other => if other.1 = field.1 then field else other
  else fields ++ [field]

variable (numbers : NumberFormat)

/-- A value at the front of a text; each bracket takes one of `depth`, which the length of the
text is enough for. -/
def value : (depth : ℕ) → Bytes → Option (Json × Bytes)
  | 0, _ => none
  | depth + 1, text =>
      let text := skip text
      match text.head? with
      | some 0x22 => (string (text.drop 1)).map fun (body, rest) => (.str body, rest)
      | some 0x7b =>
          let rest := skip (text.drop 1)
          if rest.head? = some 0x7d then some (.obj [], rest.drop 1)
          else (members (value depth) depth rest).map fun (fields, rest) =>
            (.obj (fields.foldl put []), rest)
      | some 0x5b =>
          let rest := skip (text.drop 1)
          if rest.head? = some 0x5d then some (.arr [], rest.drop 1)
          else (elements (value depth) depth rest).map fun (items, rest) => (.arr items, rest)
      | _ =>
          if (ascii "null").isPrefixOf text then some (.null, text.drop 4)
          else if (ascii "true").isPrefixOf text then some (.bool true, text.drop 4)
          else if (ascii "false").isPrefixOf text then some (.bool false, text.drop 5)
          else (literal text).map fun (front, rest) => (.num (numbers.value front), rest)

/-- `JSON.parse`; nothing when it throws. -/
def parse (text : Bytes) : Option Json := do
  let (json, rest) ← value numbers (text.length + 1) text
  guard (skip rest = [])
  return json

/-! ## Writing -/

/-- A byte inside a string; half of a surrogate pair is written by its number. -/
def quoteByte (c : UInt8) : Bytes :=
  if c = 0x22 ∨ c = 0x5c then [0x5c, c]
  else
    match [(0x08, 0x62), (0x0c, 0x66), (0x0a, 0x6e), (0x0d, 0x72), (0x09, 0x74)].lookup c with
    | some e => [0x5c, e]
    | none => if c < 0x20 then ascii "\\u" ++ hexDigits 4 c.toNat else [c]

def quoteBody : Bytes → Bytes
  | a :: b :: c :: rest =>
      if a = 0xed ∧ 0xa0 ≤ b then
        ascii "\\u" ++ hexDigits 4 (0xd000 + b.toNat % 64 * 64 + c.toNat % 64) ++ quoteBody rest
      else quoteByte a ++ quoteBody (b :: c :: rest)
  | a :: rest => quoteByte a ++ quoteBody rest
  | [] => []

def quote (text : Bytes) : Bytes := 0x22 :: (quoteBody text ++ [0x22])

mutual

/-- `JSON.stringify`. -/
def stringify : Json → Bytes
  | .null => ascii "null"
  | .bool true => ascii "true"
  | .bool false => ascii "false"
  | .num none => ascii "null"
  | .num (some q) => numbers.text q
  | .str text => quote text
  | .arr items => 0x5b :: (stringifyItems items ++ [0x5d])
  | .obj fields => 0x7b :: (stringifyFields fields ++ [0x7d])

def stringifyItems : List Json → Bytes
  | [] => []
  | [item] => stringify item
  | item :: next :: items => stringify item ++ 0x2c :: stringifyItems (next :: items)

def stringifyFields : List (Bytes × Json) → Bytes
  | [] => []
  | [(key, item)] => quote key ++ 0x3a :: stringify item
  | (key, item) :: next :: fields =>
      quote key ++ 0x3a :: (stringify item ++ 0x2c :: stringifyFields (next :: fields))

end

/-! ## Reading what was written -/

/-- A text that is written as it is. -/
def Plain (text : Bytes) : Prop := ∀ c ∈ text, 0x20 ≤ c ∧ c < 0x7f ∧ c ≠ 0x22 ∧ c ≠ 0x5c

mutual

/-- Values of plain texts and numbers, with keys that differ. -/
def Writable : Json → Prop
  | .null | .bool _ => True
  | .num none => False
  | .num (some q) => numbers.IsNumber q
  | .str text => Plain text
  | .arr items => AllWritable items
  | .obj fields => (fields.map Prod.fst).Nodup ∧ FieldsWritable fields

def AllWritable : List Json → Prop
  | [] => True
  | item :: items => Writable item ∧ AllWritable items

def FieldsWritable : List (Bytes × Json) → Prop
  | [] => True
  | (key, item) :: fields => Plain key ∧ Writable item ∧ FieldsWritable fields

end

theorem plain_cons {c : UInt8} {text : Bytes} : Plain (c :: text) ↔
    (0x20 ≤ c ∧ c < 0x7f ∧ c ≠ 0x22 ∧ c ≠ 0x5c) ∧ Plain text :=
  List.forall_mem_cons

theorem quoteByte_plain : ∀ c : UInt8, 0x20 ≤ c ∧ c < 0x7f ∧ c ≠ 0x22 ∧ c ≠ 0x5c →
    quoteByte c = [c] ∧ c ≠ 0xed := by
  decide +kernel

theorem quoteBody_plain {text : Bytes} (hplain : Plain text) : quoteBody text = text := by
  fun_induction quoteBody text with
  | case1 a b c rest hhalf =>
      exact absurd hhalf.1 (quoteByte_plain a (plain_cons.mp hplain).1).2
  | case2 a b c rest hhalf ih =>
      obtain ⟨ha, hrest⟩ := plain_cons.mp hplain
      rw [(quoteByte_plain a ha).1, ih hrest]
      rfl
  | case3 a rest hshort ih =>
      obtain ⟨ha, hrest⟩ := plain_cons.mp hplain
      rw [(quoteByte_plain a ha).1, ih hrest]
      rfl
  | case4 => rfl

theorem stringBody_plain {text : Bytes} (hplain : Plain text) (rest : Bytes) :
    stringBody (text ++ 0x22 :: rest) = some (text, rest) := by
  induction text with
  | nil => rfl
  | cons c text ih =>
      obtain ⟨⟨hlow, -, hquote, hescape⟩, htext⟩ := plain_cons.mp hplain
      have hc : ¬ c < 0x20 := UInt8.not_lt.mpr hlow
      rw [List.cons_append, stringBody.eq_def]
      split
      · next heq => exact absurd (List.cons.inj heq).1 hquote
      · next heq => exact absurd (List.cons.inj heq).1 hescape
      · next heq => exact absurd (List.cons.inj heq).1 hescape
      · next heq =>
          obtain ⟨rfl, rfl⟩ := List.cons.inj heq
          rw [if_neg hc, ih htext]
          rfl
      · contradiction

theorem joinHalves_plain {text : Bytes} (hplain : Plain text) : joinHalves text = text := by
  fun_induction joinHalves text with
  | case1 a b c d e f rest hhalf =>
      exact absurd hhalf.1 (quoteByte_plain a (plain_cons.mp hplain).1).2
  | case2 a b c d e f rest hhalf ih => rw [ih (plain_cons.mp hplain).2]
  | case3 => rfl

theorem string_quote {text : Bytes} (hplain : Plain text) (rest : Bytes) :
    quote text ++ rest = 0x22 :: (text ++ 0x22 :: rest) ∧
      string (text ++ 0x22 :: rest) = some (text, rest) := by
  constructor
  · rw [quote, quoteBody_plain hplain, List.cons_append, List.append_assoc]
    rfl
  · rw [string, stringBody_plain hplain]
    simp [joinHalves_plain hplain]

theorem literal_head {text : Bytes} {result : Bytes × Bytes}
    (hliteral : literal text = some result) :
    ∃ c rest, text = c :: rest ∧ (c = 0x2d ∨ isDigit c = true) := by
  cases text with
  | nil =>
      rw [show literal [] = none from rfl] at hliteral
      contradiction
  | cons c rest =>
      refine ⟨c, rest, rfl, ?_⟩
      by_contra hc
      obtain ⟨hsign, hdigit⟩ := not_or.mp hc
      have hzero : c ≠ 48 := by
        rintro rfl
        exact hdigit rfl
      have hnone : digits (c :: rest) = none := by
        rw [digits, List.takeWhile_cons_of_neg hdigit]
        rfl
      simp [literal, hsign, hzero, hnone] at hliteral

/-- The first character of a value, which no separator is. -/
theorem stringify_head {json : Json} (hjson : Writable numbers json) :
    ∃ c rest, stringify numbers json = c :: rest ∧ isSpace c = false ∧ c ≠ 0x5d ∧ c ≠ 0x7d := by
  have hdigit : ∀ c : UInt8, c = 0x2d ∨ isDigit c = true →
      isSpace c = false ∧ c ≠ 0x5d ∧ c ≠ 0x7d := by decide +kernel
  unfold stringify
  split
  · exact ⟨_, _, rfl, by decide⟩
  · exact ⟨_, _, rfl, by decide⟩
  · exact ⟨_, _, rfl, by decide⟩
  · exact ⟨_, _, rfl, by decide⟩
  · next q =>
      rw [Writable] at hjson
      have hliteral := numbers.literal_text q hjson [] nofun
      rw [List.append_nil] at hliteral
      obtain ⟨c, rest, htext, hc⟩ := literal_head hliteral
      exact ⟨c, rest, htext, hdigit c hc⟩
  · exact ⟨_, _, rfl, by decide⟩
  · exact ⟨_, _, rfl, by decide⟩
  · exact ⟨_, _, rfl, by decide⟩

theorem skip_cons {c : UInt8} (hc : isSpace c = false) (rest : Bytes) :
    skip (c :: rest) = c :: rest := by
  rw [skip, List.dropWhile_cons_of_neg (by rw [hc]; decide)]

/-! ### Lists of values and members -/

theorem stringifyItems_cons (item next : Json) (items : List Json) :
    stringifyItems numbers (item :: next :: items) =
      stringify numbers item ++ 0x2c :: stringifyItems numbers (next :: items) := by
  rw [stringifyItems]

theorem stringifyFields_cons (field next : Bytes × Json) (fields : List (Bytes × Json)) :
    stringifyFields numbers (field :: next :: fields) = quote field.1 ++
      0x3a :: (stringify numbers field.2 ++ 0x2c :: stringifyFields numbers (next :: fields)) := by
  obtain ⟨key, item⟩ := field
  rw [stringifyFields]

variable {numbers}

theorem elements_stringify {read : Bytes → Option (Json × Bytes)} {items : List Json}
    (hitems : items ≠ []) (hread : ∀ item ∈ items, ∀ rest, Follows rest →
      read (stringify numbers item ++ rest) = some (item, rest))
    {count : ℕ} (hcount : items.length ≤ count) (rest : Bytes) :
    elements read count (stringifyItems numbers items ++ 0x5d :: rest) = some (items, rest) := by
  induction items generalizing count with
  | nil => contradiction
  | cons item items ih =>
      obtain ⟨count, rfl⟩ : ∃ n, count = n + 1 := ⟨count - 1, by simp at hcount; omega⟩
      have hitem := hread item List.mem_cons_self
      cases items with
      | nil =>
          rw [stringifyItems, elements, hitem _ (by simp [Follows])]
          rfl
      | cons next items =>
          rw [stringifyItems_cons, List.append_assoc, elements, hitem _ (by simp [Follows])]
          have hrest := ih (List.cons_ne_nil _ _)
            (fun other hother => hread other (List.mem_cons_of_mem _ hother))
            (Nat.le_of_succ_le_succ hcount)
          simp only [Option.bind_eq_bind, Option.bind_some, List.cons_append,
            skip_cons (show isSpace 0x2c = false from rfl)]
          rw [hrest]
          rfl

theorem member_stringify {read : Bytes → Option (Json × Bytes)} {field : Bytes × Json}
    (hkey : Plain field.1) (hread : ∀ rest, Follows rest →
      read (stringify numbers field.2 ++ rest) = some (field.2, rest))
    {rest : Bytes} (hrest : Follows rest) :
    member read (quote field.1 ++ 0x3a :: (stringify numbers field.2 ++ rest)) =
      some (field, rest) := by
  obtain ⟨hquote, hstring⟩ := string_quote hkey (0x3a :: (stringify numbers field.2 ++ rest))
  rw [hquote, member, skip_cons (by rfl)]
  simp only [hstring, Option.bind_eq_bind, Option.bind_some,
    skip_cons (show isSpace 0x3a = false from rfl), hread rest hrest]
  rfl

theorem members_stringify {read : Bytes → Option (Json × Bytes)} {fields : List (Bytes × Json)}
    (hfields : fields ≠ []) (hkeys : ∀ field ∈ fields, Plain field.1)
    (hread : ∀ field ∈ fields, ∀ rest, Follows rest →
      read (stringify numbers field.2 ++ rest) = some (field.2, rest))
    {count : ℕ} (hcount : fields.length ≤ count) (rest : Bytes) :
    members read count (stringifyFields numbers fields ++ 0x7d :: rest) =
      some (fields, rest) := by
  induction fields generalizing count with
  | nil => contradiction
  | cons field fields ih =>
      obtain ⟨count, rfl⟩ : ∃ n, count = n + 1 := ⟨count - 1, by simp at hcount; omega⟩
      have hmember (rest : Bytes) (hrest : Follows rest) := member_stringify
        (hkeys field List.mem_cons_self) (hread field List.mem_cons_self) hrest
      cases fields with
      | nil =>
          have hfirst := hmember (0x7d :: rest) (by simp [Follows])
          rw [stringifyFields, List.append_assoc, List.cons_append, members, hfirst]
          rfl
      | cons next fields =>
          have hfirst := hmember (0x2c :: (stringifyFields numbers (next :: fields) ++
            0x7d :: rest)) (by simp [Follows])
          have hrest := ih (List.cons_ne_nil _ _)
            (fun other hother => hkeys other (List.mem_cons_of_mem _ hother))
            (fun other hother => hread other (List.mem_cons_of_mem _ hother))
            (Nat.le_of_succ_le_succ hcount)
          rw [stringifyFields_cons, List.append_assoc, List.cons_append, List.append_assoc,
            List.cons_append, members, hfirst]
          simp only [Option.bind_eq_bind, Option.bind_some,
            skip_cons (show isSpace 0x2c = false from rfl)]
          rw [hrest]
          rfl

/-- Members whose keys differ are put as they are. -/
theorem foldl_put {fields : List (Bytes × Json)} (hnodup : (fields.map Prod.fst).Nodup) :
    fields.foldl put [] = fields := by
  induction fields using List.reverseRecOn with
  | nil => rfl
  | append_singleton fields field ih =>
      rw [List.map_append, List.map_singleton, List.nodup_append] at hnodup
      obtain ⟨hnodup, -, hne⟩ := hnodup
      have hnew : ¬ (fields.any fun other => other.1 = field.1) = true := by
        intro hany
        obtain ⟨other, hother, hsame⟩ := List.any_eq_true.mp hany
        exact hne _ (List.mem_map_of_mem hother) _ List.mem_cons_self (of_decide_eq_true hsame)
      rw [List.foldl_append, ih hnodup, List.foldl_cons, List.foldl_nil, put, if_neg hnew]

/-! ### The round trip -/

theorem allWritable_iff {items : List Json} :
    AllWritable numbers items ↔ ∀ item ∈ items, Writable numbers item := by
  induction items with
  | nil => simp [AllWritable]
  | cons item items ih => rw [AllWritable, ih, List.forall_mem_cons]

theorem fieldsWritable_iff {fields : List (Bytes × Json)} :
    FieldsWritable numbers fields ↔
      ∀ field ∈ fields, Plain field.1 ∧ Writable numbers field.2 := by
  induction fields with
  | nil => simp [FieldsWritable]
  | cons field fields ih =>
      obtain ⟨key, item⟩ := field
      rw [FieldsWritable, ih, List.forall_mem_cons, and_assoc]

theorem stringify_length_pos {json : Json} (hjson : Writable numbers json) :
    0 < (stringify numbers json).length := by
  obtain ⟨c, rest, htext, -⟩ := stringify_head numbers hjson
  rw [htext]
  exact Nat.succ_pos _

/-- A list's text is at least as long as the list, and longer than no value in it. -/
theorem stringifyItems_length {items : List Json}
    (hitems : ∀ item ∈ items, Writable numbers item) :
    items.length ≤ (stringifyItems numbers items).length ∧
      ∀ item ∈ items, (stringify numbers item).length ≤
        (stringifyItems numbers items).length := by
  induction items with
  | nil => exact ⟨le_rfl, nofun⟩
  | cons item items ih =>
      have hpos := stringify_length_pos (hitems item List.mem_cons_self)
      obtain ⟨hcount, hlength⟩ := ih fun other hother => hitems other (List.mem_cons_of_mem _ hother)
      cases items with
      | nil =>
          rw [stringifyItems]
          refine ⟨hpos, fun other hother => ?_⟩
          rw [List.mem_singleton.mp hother]
      | cons next items =>
          simp only [stringifyItems_cons, List.length_append, List.length_cons] at hcount ⊢
          refine ⟨by omega, fun other hother => ?_⟩
          rcases List.mem_cons.mp hother with rfl | hother
          · omega
          · have hother := hlength other hother
            omega

theorem stringifyFields_length {fields : List (Bytes × Json)} :
    fields.length ≤ (stringifyFields numbers fields).length ∧
      ∀ field ∈ fields, (stringify numbers field.2).length <
        (stringifyFields numbers fields).length := by
  induction fields with
  | nil => exact ⟨le_rfl, nofun⟩
  | cons field fields ih =>
      obtain ⟨hcount, hlength⟩ := ih
      cases fields with
      | nil =>
          simp only [stringifyFields, List.length_append, List.length_cons, List.length_nil]
          refine ⟨by omega, fun other hother => ?_⟩
          rw [List.mem_singleton.mp hother]
          omega
      | cons next fields =>
          simp only [stringifyFields_cons, List.length_append, List.length_cons] at hcount ⊢
          refine ⟨by omega, fun other hother => ?_⟩
          rcases List.mem_cons.mp hother with rfl | hother
          · omega
          · have hother := hlength other hother
            omega

theorem stringifyItems_head {item : Json} (items : List Json) (hitem : Writable numbers item) :
    ∃ c rest, stringifyItems numbers (item :: items) = c :: rest ∧ isSpace c = false ∧
      c ≠ 0x5d := by
  obtain ⟨c, rest, htext, hspace, hclose, -⟩ := stringify_head numbers hitem
  cases items with
  | nil => exact ⟨c, rest, by rw [stringifyItems, htext], hspace, hclose⟩
  | cons next items =>
      exact ⟨c, _, by rw [stringifyItems_cons, htext, List.cons_append], hspace, hclose⟩

theorem stringifyFields_head (numbers : NumberFormat) (field : Bytes × Json)
    (fields : List (Bytes × Json)) :
    ∃ rest, stringifyFields numbers (field :: fields) = 0x22 :: rest := by
  cases fields with
  | nil => exact ⟨_, by rw [stringifyFields, quote, List.cons_append]⟩
  | cons next fields => exact ⟨_, by rw [stringifyFields_cons, quote, List.cons_append]⟩

theorem value_stringify {depth : ℕ} {json : Json} (hjson : Writable numbers json)
    (hdepth : (stringify numbers json).length < depth) {rest : Bytes} (hrest : Follows rest) :
    value numbers depth (stringify numbers json ++ rest) = some (json, rest) := by
  induction depth generalizing json rest with
  | zero => contradiction
  | succ depth ih =>
      cases json with
      | null =>
          rw [stringify]
          rfl
      | bool truth => cases truth <;> rfl
      | num number =>
          cases number with
          | none => exact absurd hjson (by rw [Writable]; exact not_false)
          | some q =>
              rw [Writable] at hjson
              have hliteral := numbers.literal_text q hjson rest hrest
              obtain ⟨c, tail, htext, hc⟩ := literal_head hliteral
              have hbegins : ∀ c : UInt8, c = 0x2d ∨ isDigit c = true → isSpace c = false ∧
                  c ≠ 0x22 ∧ c ≠ 0x7b ∧ c ≠ 0x5b ∧ c ≠ 0x6e ∧ c ≠ 0x74 ∧ c ≠ 0x66 := by
                decide +kernel
              obtain ⟨hspace, hquote, hbrace, hbracket, hn, ht, hf⟩ := hbegins c hc
              have hword {w : UInt8} (word : Bytes) (hw : c ≠ w) :
                  (w :: word).isPrefixOf (c :: tail) = false := by
                simp [List.isPrefixOf, Ne.symm hw]
              have hnull : (ascii "null").isPrefixOf (c :: tail) = false := hword _ hn
              have htrue : (ascii "true").isPrefixOf (c :: tail) = false := hword _ ht
              have hfalse : (ascii "false").isPrefixOf (c :: tail) = false := hword _ hf
              rw [htext] at hliteral
              rw [stringify, htext, value, skip_cons hspace]
              simp [hquote, hbrace, hbracket, hnull, htrue, hfalse, hliteral,
                numbers.value_text q hjson]
      | str text =>
          rw [Writable] at hjson
          obtain ⟨hquote, hstring⟩ := string_quote hjson rest
          rw [stringify, hquote, value, skip_cons (by rfl)]
          simp [hstring]
      | arr items =>
          rw [Writable, allWritable_iff] at hjson
          rw [stringify, List.length_cons, List.length_append, List.length_singleton] at hdepth
          obtain ⟨hcount, hlength⟩ := stringifyItems_length hjson
          cases items with
          | nil => rfl
          | cons item items =>
              have hread := @elements_stringify numbers (value numbers depth) _
                (List.cons_ne_nil item items)
                (fun other hother rest hrest => ih (hjson other hother)
                  ((hlength other hother).trans_lt (by omega)) hrest)
                depth (by omega) rest
              obtain ⟨c, tail, htext, hspace, hclose⟩ :=
                stringifyItems_head items (hjson item List.mem_cons_self)
              rw [htext] at hread
              rw [stringify, htext, List.cons_append, List.append_assoc, value,
                skip_cons (by rfl)]
              simp only [List.head?_cons, List.drop_one, List.tail_cons, List.cons_append,
                List.nil_append, skip_cons hspace]
              rw [if_neg fun heq => hclose (Option.some.inj heq)]
              rw [List.cons_append] at hread
              rw [hread]
              rfl
      | obj fields =>
          rw [Writable, fieldsWritable_iff] at hjson
          obtain ⟨hnodup, hfields⟩ := hjson
          rw [stringify, List.length_cons, List.length_append, List.length_singleton] at hdepth
          obtain ⟨hcount, hlength⟩ := @stringifyFields_length numbers fields
          cases fields with
          | nil => rfl
          | cons field fields =>
              have hread := @members_stringify numbers (value numbers depth) _
                (List.cons_ne_nil field fields) (fun other hother => (hfields other hother).1)
                (fun other hother rest hrest => ih (hfields other hother).2
                  ((hlength other hother).trans (by omega)) hrest)
                depth (by omega) rest
              obtain ⟨tail, htext⟩ := stringifyFields_head numbers field fields
              rw [htext, List.cons_append] at hread
              rw [stringify, htext, List.cons_append, List.append_assoc, value,
                skip_cons (by rfl)]
              simp only [List.head?_cons, List.drop_one, List.tail_cons, List.cons_append,
                List.nil_append, skip_cons (show isSpace 0x22 = false from rfl)]
              rw [if_neg (by decide), hread, Option.map_some, foldl_put hnodup]

/-- A script reads back what it wrote. -/
theorem parse_stringify {json : Json} (hjson : Writable numbers json) :
    parse numbers (stringify numbers json) = some json := by
  have hvalue := value_stringify hjson (Nat.lt_succ_self _) (show Follows [] from nofun)
  rw [List.append_nil] at hvalue
  rw [parse, hvalue]
  rfl

theorem ascii_of_all {text : Bytes} (hall : text.all (fun c => c < 0x80) = true) :
    ∀ c ∈ text, c < 0x80 :=
  fun c hc => of_decide_eq_true (List.all_eq_true.mp hall c hc)

theorem plain_ascii {text : Bytes} (hplain : Plain text) : ∀ c ∈ text, c < 0x80 :=
  fun c hc => UInt8.lt_trans (hplain c hc).2.1 (by decide)

theorem quote_ascii {text : Bytes} (hplain : Plain text) : ∀ c ∈ quote text, c < 0x80 := by
  rw [quote, quoteBody_plain hplain, List.forall_mem_cons, List.forall_mem_append]
  exact ⟨by decide, plain_ascii hplain, ascii_of_all rfl⟩

mutual

/-- What is written of plain texts is ASCII. -/
theorem stringify_ascii : ∀ json : Json, Writable numbers json →
    ∀ c ∈ stringify numbers json, c < 0x80
  | .null, _ => ascii_of_all rfl
  | .bool true, _ => ascii_of_all rfl
  | .bool false, _ => ascii_of_all rfl
  | .num none, _ => ascii_of_all rfl
  | .num (some q), hjson => numbers.text_ascii q hjson
  | .str text, hjson => quote_ascii hjson
  | .arr items, hjson => by
      rw [stringify, List.forall_mem_cons, List.forall_mem_append]
      exact ⟨by decide, stringifyItems_ascii items hjson, ascii_of_all rfl⟩
  | .obj fields, hjson => by
      rw [stringify, List.forall_mem_cons, List.forall_mem_append]
      exact ⟨by decide, stringifyFields_ascii fields hjson.2, ascii_of_all rfl⟩

theorem stringifyItems_ascii : ∀ items : List Json, AllWritable numbers items →
    ∀ c ∈ stringifyItems numbers items, c < 0x80
  | [], _ => nofun
  | [item], hitems => stringify_ascii item hitems.1
  | item :: next :: items, hitems => by
      rw [stringifyItems_cons, List.forall_mem_append, List.forall_mem_cons]
      exact ⟨stringify_ascii item hitems.1, by decide,
        stringifyItems_ascii (next :: items) hitems.2⟩

theorem stringifyFields_ascii : ∀ fields : List (Bytes × Json), FieldsWritable numbers fields →
    ∀ c ∈ stringifyFields numbers fields, c < 0x80
  | [], _ => nofun
  | [(key, item)], hfields => by
      rw [stringifyFields, List.forall_mem_append, List.forall_mem_cons]
      exact ⟨quote_ascii hfields.1, by decide, stringify_ascii item hfields.2.1⟩
  | (key, item) :: next :: fields, hfields => by
      rw [stringifyFields_cons, List.forall_mem_append, List.forall_mem_cons,
        List.forall_mem_append, List.forall_mem_cons]
      exact ⟨quote_ascii hfields.1, by decide, stringify_ascii item hfields.2.1, by decide,
        stringifyFields_ascii (next :: fields) hfields.2.2⟩

end

end JsonText
