/-
Reading a Cookie header: a cookie that is the first of its name is read as it was set, whatever
stands around it.
-/
import VeraKey.KitCookies

namespace VeraKey

open ByteCodec TextCodec JsonText

namespace Cookies

open Sdk hiding readNonce decodeSession

/-! ## Characters -/

/-- The characters of a token: visible, and no separator of a header. -/
def IsToken (c : UInt8) : Prop := 0x21 ≤ c ∧ c < 0x7f ∧ c ≠ 0x3b ∧ c ≠ 0x3d ∧ c ≠ 0x7c

instance (c : UInt8) : Decidable (IsToken c) := inferInstanceAs (Decidable (_ ∧ _))

theorem token_base64Url : ∀ c ∈ Base64Url.alphabet, IsToken c ∧ c ≠ 0x2e := by
  decide +kernel

theorem base64UrlEncode_mem (bytes : Bytes) :
    ∀ c ∈ base64UrlEncode bytes, c ∈ Base64Url.alphabet := by
  intro c hc
  rw [base64UrlEncode_eq_encode, encode_eq_sextets] at hc
  obtain ⟨s, hs, rfl⟩ := List.mem_map.mp hc
  exact (sextet_characters s (sextet_lt bytes s hs)).2.2.2.2.2.2

/-! ## Trimming -/

/-- A character that begins none of the texts stops the trimming. -/
theorem trimFrom_stop {dropped : List Bytes} {c : UInt8}
    (hstop : ∀ space ∈ dropped, space ≠ [] ∧ space.head? ≠ some c) (rest : Bytes) :
    trimFrom dropped 0 (c :: rest) = c :: rest := by
  have hnone : dropped.find? (fun space => space.isPrefixOf (c :: rest)) = none := by
    apply List.find?_eq_none.mpr
    intro space hspace
    obtain ⟨hne, hhead⟩ := hstop space hspace
    cases space with
    | nil => contradiction
    | cons d space =>
        have hd : d ≠ c := fun heq => hhead (congrArg some heq)
        simp [List.isPrefixOf, hd]
  rw [trimFrom, hnone]

theorem trimFrom_blanks {dropped : List Bytes} {blanks : Bytes}
    (hblanks : ∀ c ∈ blanks, ∀ rest,
      trimFrom dropped 0 (c :: rest) = trimFrom dropped 0 rest) (text : Bytes) :
    trimFrom dropped 0 (blanks ++ text) = trimFrom dropped 0 text := by
  induction blanks with
  | nil => rfl
  | cons c blanks ih =>
      rw [List.cons_append, hblanks c List.mem_cons_self,
        ih fun d hd => hblanks d (List.mem_cons_of_mem _ hd)]

def IsBlank (c : UInt8) : Prop := c = 0x20 ∨ c = 0x09

theorem blank_front {c : UInt8} (hblank : IsBlank c) (rest : Bytes) :
    trimFrom spaces 0 (c :: rest) = trimFrom spaces 0 rest := by
  rcases hblank with rfl | rfl <;> rfl

theorem blank_back {c : UInt8} (hblank : IsBlank c) (rest : Bytes) :
    trimFrom (spaces.map List.reverse) 0 (c :: rest) =
      trimFrom (spaces.map List.reverse) 0 rest := by
  rcases hblank with rfl | rfl <;> rfl

theorem token_stops : ∀ c : UInt8, 0x21 ≤ c ∧ c < 0x7f →
    (∀ space ∈ spaces, space ≠ [] ∧ space.head? ≠ some c) ∧
      ∀ space ∈ spaces.map List.reverse, space ≠ [] ∧ space.head? ≠ some c := by
  decide +kernel

/-- What is visible at both ends is what remains. -/
theorem trim_blanks {left right text : Bytes} (hleft : ∀ c ∈ left, IsBlank c)
    (hright : ∀ c ∈ right, IsBlank c) (hne : text ≠ [])
    (hvisible : ∀ c ∈ text, 0x21 ≤ c ∧ c < 0x7f) : trim (left ++ (text ++ right)) = text := by
  have hfront : trimFrom spaces 0 (left ++ (text ++ right)) = text ++ right := by
    rw [trimFrom_blanks fun c hc => blank_front (hleft c hc)]
    cases text with
    | nil => contradiction
    | cons c text =>
        exact trimFrom_stop (token_stops c (hvisible c List.mem_cons_self)).1 _
  have hback : trimFrom (spaces.map List.reverse) 0 (text ++ right).reverse = text.reverse := by
    rw [List.reverse_append, trimFrom_blanks fun c hc => blank_back (hright c
      (List.mem_reverse.mp hc))]
    cases htext : text.reverse with
    | nil => exact absurd (List.reverse_eq_nil_iff.mp htext) hne
    | cons c rest =>
        have hc : c ∈ text := List.mem_reverse.mp (htext ▸ List.mem_cons_self)
        exact trimFrom_stop (token_stops c (hvisible c hc)).2 _
  rw [trim, hfront, hback, List.reverse_reverse]

/-! ## One cookie -/

theorem idxOf?_append {c : UInt8} {front : Bytes} (hfront : c ∉ front) (rest : Bytes) :
    (front ++ c :: rest).idxOf? c = some front.length := by
  induction front with
  | nil => simp [List.idxOf?_cons]
  | cons d front ih =>
      have hd : d ≠ c := fun heq => hfront (heq ▸ List.mem_cons_self)
      simp [List.idxOf?_cons, hd, ih (List.not_mem_of_not_mem_cons hfront)]

/-- A name and a value with blanks around them. -/
theorem cookiePair_eq {name value left right : Bytes} (hleft : ∀ c ∈ left, IsBlank c)
    (hright : ∀ c ∈ right, IsBlank c) (hname : name ≠ []) (hnames : ∀ c ∈ name, IsToken c)
    (hvalue : value ≠ []) (hvalues : ∀ c ∈ value, 0x21 ≤ c ∧ c < 0x7f) :
    cookiePair (left ++ (name ++ ascii "=" ++ value) ++ right) = some (name, value) := by
  have hvisible : ∀ c ∈ name, 0x21 ≤ c ∧ c < 0x7f := fun c hc =>
    ⟨(hnames c hc).1, (hnames c hc).2.1⟩
  have hself {text : Bytes} (hne : text ≠ []) (htext : ∀ c ∈ text, 0x21 ≤ c ∧ c < 0x7f) :
      trim text = text := by
    have htrim := trim_blanks (show ∀ c ∈ ([] : Bytes), IsBlank c from nofun)
      (show ∀ c ∈ ([] : Bytes), IsBlank c from nofun) hne htext
    rwa [List.nil_append, List.append_nil] at htrim
  have hitem : trim (left ++ (name ++ ascii "=" ++ value) ++ right) =
      name ++ 0x3d :: value := by
    rw [List.append_assoc, trim_blanks hleft hright]
    · rw [List.append_assoc]
      rfl
    · simp [hname]
    · intro c hc
      rcases List.mem_append.mp hc with hc | hc
      · rcases List.mem_append.mp hc with hc | hc
        · exact hvisible c hc
        · rw [List.mem_singleton.mp hc]
          decide
      · exact hvalues c hc
  have heq : (0x3d : UInt8) ∉ name := fun hmem => (hnames _ hmem).2.2.2.1 rfl
  have hdrop : (name ++ 0x3d :: value).drop (name.length + 1) = value := by
    rw [← List.drop_drop, List.drop_left' rfl]
    rfl
  have hpos : 0 < name.length := List.length_pos_iff.mpr hname
  simp only [cookiePair, hitem, idxOf?_append heq, Option.bind_eq_bind, Option.bind_some,
    guard_true, List.take_left' rfl, hself hname hvisible, hdrop, hself hvalue hvalues, hpos,
    ne_eq, hname, not_false_eq_true]
  rfl

/-! ## A header -/

/-- The first cookie of a name is the one that is kept. -/
theorem lookup_addCookies (parts : List Bytes) (cookies : List (Bytes × Bytes)) (name : Bytes) :
    (parts.foldl addCookie cookies).lookup name =
      (cookies.lookup name).or ((parts.filterMap cookiePair).lookup name) := by
  induction parts generalizing cookies with
  | nil => simp
  | cons part parts ih =>
      rw [List.foldl_cons, ih, addCookie]
      cases hpair : cookiePair part with
      | none => rw [List.filterMap_cons_none hpair]
      | some cookie =>
          obtain ⟨key, value⟩ := cookie
          rw [List.filterMap_cons_some hpair]
          dsimp only
          split
          · next hmem =>
              by_cases hkey : name = key
              · subst hkey
                obtain ⟨held, hheld⟩ : ∃ held, cookies.lookup name = some held := by
                  apply Option.isSome_iff_exists.mp
                  rw [List.lookup_isSome_iff]
                  obtain ⟨cookie, hcookie, heq⟩ := List.mem_map.mp hmem
                  exact ⟨cookie, hcookie, by simpa using heq.symm⟩
                rw [hheld, Option.some_or, Option.some_or]
              · rw [List.lookup_cons, beq_false_of_ne hkey]
          · rw [List.lookup_append, Option.or_assoc]
            congr 1
            rw [List.lookup_cons, List.lookup_cons, List.lookup_nil]
            by_cases hkey : name = key
            · rw [beq_iff_eq.mpr hkey]
              rfl
            · rw [beq_false_of_ne hkey]
              rfl

/-- The pair that a browser keeps of a Set-Cookie value. -/
def keptPair (setCookie : Bytes) : Bytes := (setCookie.splitOn 0x3b).headD []

/-- A header in which the cookie that was set is the first of its name. -/
def FirstOfName (header name setCookie : Bytes) : Prop :=
  ∃ before left right after,
    header.splitOn 0x3b = before ++ (left ++ keptPair setCookie ++ right) :: after ∧
      (∀ c ∈ left, IsBlank c) ∧ (∀ c ∈ right, IsBlank c) ∧
      ∀ part ∈ before, ∀ cookie, cookiePair part = some cookie → cookie.1 ≠ name

theorem keptPair_serializeCookie {name value : Bytes} (hname : 0x3b ∉ name)
    (hvalue : 0x3b ∉ value) (options : CookieOptions) :
    keptPair (serializeCookie name value options) = name ++ ascii "=" ++ value := by
  have hpair : (0x3b : UInt8) ∉ name ++ ascii "=" ++ value := by
    simp [hname, hvalue, show ascii "=" = [0x3d] from rfl]
  obtain ⟨rest, hrest⟩ : ∃ rest, serializeCookie name value options =
      (name ++ ascii "=" ++ value) ++ 0x3b :: rest := ⟨_, rfl⟩
  rw [keptPair, hrest, List.splitOn_append_cons_self, List.splitOn_eq_singleton hpair]
  rfl

/-- A cookie that was set is read back. -/
theorem cookieValue_eq {header name value : Bytes} {options : CookieOptions}
    (hfirst : FirstOfName header name (serializeCookie name value options))
    (hname : name ≠ []) (hnames : ∀ c ∈ name, IsToken c) (hvalue : value ≠ [])
    (hvalues : ∀ c ∈ value, 0x21 ≤ c ∧ c < 0x7f ∧ c ≠ 0x3b) :
    cookieValue (some header) name = value := by
  obtain ⟨before, left, right, after, hsplit, hleft, hright, hbefore⟩ := hfirst
  rw [keptPair_serializeCookie (fun hmem => (hnames _ hmem).2.2.1 rfl)
    (fun hmem => (hvalues _ hmem).2.2 rfl)] at hsplit
  have hpair := cookiePair_eq hleft hright hname hnames hvalue
    fun c hc => ⟨(hvalues c hc).1, (hvalues c hc).2.1⟩
  have hnone : (before.filterMap cookiePair).lookup name = none := by
    apply List.lookup_eq_none_iff.mpr
    intro cookie hcookie
    obtain ⟨part, hpart, hcookie⟩ := List.mem_filterMap.mp hcookie
    exact bne_iff_ne.mpr (Ne.symm (hbefore part hpart cookie hcookie))
  rw [cookieValue, parseCookies, Option.getD_some, hsplit, lookup_addCookies, List.lookup_nil,
    Option.none_or, List.filterMap_append, List.lookup_append, hnone, Option.none_or,
    List.filterMap_cons_some hpair, List.lookup_cons_self]
  rfl

end Cookies

end VeraKey
