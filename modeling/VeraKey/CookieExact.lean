/-
The kit's cookies are exact: what the server sets is read back, and what it accepts it has set
itself, as a session or as a nonce, for its own origin.
-/
import VeraKey.CookieHeader

namespace VeraKey

open ByteCodec TextCodec JsonText

namespace Cookies

open Sdk hiding readNonce decodeSession

/-! ## The text that is authenticated -/

theorem utf8_of_ascii {text : Bytes} (hascii : ∀ c ∈ text, c < 0x80) : utf8 text = text := by
  have hfrom : utf8From 0 text = text := by
    induction text with
    | nil => rfl
    | cons c rest ih =>
        have hc : ¬ (c = 0xed ∧ rest.head?.any (0xa0 ≤ ·)) := by
          rintro ⟨rfl, -⟩
          exact absurd (hascii _ List.mem_cons_self) (by decide)
        rw [utf8From, if_neg hc, ih fun d hd => hascii d (List.mem_cons_of_mem _ hd)]
  exact hfrom

/-- Only an ASCII text is encoded as one. -/
theorem eq_of_utf8_ascii {text target : Bytes} (hutf8 : utf8 text = target)
    (hascii : ∀ c ∈ target, c < 0x80) : text = target := by
  change utf8From 0 text = target at hutf8
  subst hutf8
  induction text with
  | nil => rfl
  | cons c rest ih =>
      rw [utf8From] at hascii ⊢
      split
      · next hhalf =>
          rw [if_pos hhalf] at hascii
          exact absurd (hascii 0xef List.mem_cons_self) (by decide)
      · next hwhole =>
          rw [if_neg hwhole] at hascii
          congr 1
          exact ih fun d hd => hascii d (List.mem_cons_of_mem _ hd)

section Kit

variable {browser : Browser} {numbers : NumberFormat} {hmac : Bytes → B256}

/-- An origin as browsers write it: ASCII, and without a bar. -/
def PlainOrigin (origin : Bytes) : Prop := ∀ c ∈ origin, c < 0x80 ∧ c ≠ 0x7c

theorem KitServer.plain (hurls : ∀ text url, browser.parseUrl text = some url →
    PlainOrigin url.origin) (server : KitServer browser) : PlainOrigin server.origin := by
  have hallowed := server.allowed
  rw [isAllowedRequesterOrigin] at hallowed
  cases hurl : browser.parseUrl server.origin with
  | none =>
      rw [hurl] at hallowed
      contradiction
  | some url =>
      rw [hurl] at hallowed
      have horigin : url.origin = server.origin :=
        of_decide_eq_true (Bool.and_eq_true_iff.mp hallowed).1
      exact horigin ▸ hurls server.origin url hurl

theorem PlainOrigin.bar {origin : Bytes} (hplain : PlainOrigin origin) : 0x7c ∉ origin :=
  fun hmem => (hplain _ hmem).2 rfl

theorem sessionInput_inj {origin origin' payload payload' : Bytes}
    (horigin : 0x7c ∉ origin) (horigin' : 0x7c ∉ origin')
    (heq : sessionInput origin payload = sessionInput origin' payload') :
    origin = origin' ∧ payload = payload' := by
  rw [sessionInput, sessionInput, List.append_assoc, List.append_assoc, List.append_assoc,
    List.append_assoc] at heq
  exact append_delimiter_inj horigin horigin' (List.append_cancel_left heq)

theorem nonceInput_inj {origin origin' nonce nonce' expiresAt expiresAt' : Bytes}
    (horigin : 0x7c ∉ origin) (horigin' : 0x7c ∉ origin')
    (heq : nonceInput origin nonce expiresAt = nonceInput origin' nonce' expiresAt') :
    origin = origin' ∧
      nonce ++ 0x7c :: expiresAt = nonce' ++ 0x7c :: expiresAt' := by
  have hsplit (origin nonce expiresAt : Bytes) : nonceInput origin nonce expiresAt =
      ascii "verakey-nonce|" ++ (origin ++ 0x7c :: (nonce ++ 0x7c :: expiresAt)) := by
    rw [nonceInput, List.append_assoc, List.append_assoc, List.append_assoc, List.append_assoc]
    rfl
  rw [hsplit, hsplit] at heq
  exact append_delimiter_inj horigin horigin' (List.append_cancel_left heq)

theorem sessionInput_ne_nonceInput (origin origin' payload nonce expiresAt : Bytes) :
    sessionInput origin payload ≠ nonceInput origin' nonce expiresAt := by
  intro heq
  have hbyte : (sessionInput origin payload)[8]? = (nonceInput origin' nonce expiresAt)[8]? := by
    rw [heq]
  have hsession : (sessionInput origin payload)[8]? = some 0x73 := rfl
  have hnonce : (nonceInput origin' nonce expiresAt)[8]? = some 0x6e := rfl
  rw [hsession, hnonce] at hbyte
  exact absurd (Option.some.inj hbyte) (by decide)

/-! ## Cookies that were issued -/

/-- A cookie that a server with the secret has set. -/
inductive IssuedCookie (browser : Browser) (numbers : NumberFormat)
  | session (server : KitServer browser) (session : SignedSession numbers)
  | nonce (server : KitServer browser) (nonce : B256) (expiresAt : ℤ)

/-- What its MAC is taken of. -/
def IssuedCookie.input : IssuedCookie browser numbers → Bytes
  | .session server signed => sessionInput server.origin signed.payload
  | .nonce server issued expiresAt =>
      nonceInput server.origin (bytesToHex issued.bytes) (secondsText expiresAt)

/-- No one but the servers finds a tag: what is accepted is what one of them has tagged. -/
def Unforged (hmac : Bytes → B256) (issued : Set (IssuedCookie browser numbers))
    (input tag : Bytes) : Prop :=
  macValid hmac input tag = true → ∃ cookie ∈ issued, utf8 input = utf8 cookie.input

/-! ## Characters of the parts -/

/-- Characters of hexadecimal and decimal texts and of base64url, none of which ends a part. -/
def IsPart (c : UInt8) : Prop := IsToken c ∧ c ≠ 0x2e

instance (c : UInt8) : Decidable (IsPart c) := inferInstanceAs (Decidable (_ ∧ _))

theorem IsPart.ascii {c : UInt8} (hpart : IsPart c) : c < 0x80 :=
  UInt8.lt_trans hpart.1.2.1 (by decide)

theorem isPart_base64Url (bytes : Bytes) : ∀ c ∈ base64UrlEncode bytes, IsPart c :=
  fun c hc => token_base64Url c (base64UrlEncode_mem bytes c hc)

theorem isPart_hexValue : ∀ c : UInt8, (hexValue c).isSome = true → IsPart c ∧
    0x20 ≤ c ∧ c < 0x7f ∧ c ≠ 0x22 ∧ c ≠ 0x5c := by
  decide +kernel

theorem isPart_hex {text : Bytes} (hhex : isHex text = true) :
    ∀ c ∈ text, IsPart c ∧ 0x20 ≤ c ∧ c < 0x7f ∧ c ≠ 0x22 ∧ c ≠ 0x5c := by
  rw [isHex, Bool.and_eq_true, decide_eq_true_eq, List.all_eq_true] at hhex
  intro c hc
  rw [← List.take_append_drop 2 text, List.mem_append, hhex.1] at hc
  rcases hc with hc | hc
  · have hprefix : ∀ c ∈ ascii "0x", IsPart c ∧ 0x20 ≤ c ∧ c < 0x7f ∧ c ≠ 0x22 ∧ c ≠ 0x5c := by
      decide +kernel
    exact hprefix c hc
  · exact isPart_hexValue c (hhex.2 c hc)

theorem hexDigit_isSome : ∀ d < 16, (hexValue (hexDigit d)).isSome = true ∧
    lowerByte (hexDigit d) = hexDigit d := by
  decide

theorem mem_hexText {bytes : Bytes} {c : UInt8} (hc : c ∈ hexText bytes) :
    (hexValue c).isSome = true ∧ lowerByte c = c := by
  rw [hexText, List.mem_flatMap] at hc
  obtain ⟨byte, -, hc⟩ := hc
  have hbyte := byte.toNat_lt
  rw [hexByte, List.mem_cons, List.mem_singleton] at hc
  rcases hc with rfl | rfl
  · exact hexDigit_isSome _ (by omega)
  · exact hexDigit_isSome _ (by omega)

theorem isHex_bytesToHex (bytes : Bytes) : isHex (bytesToHex bytes) = true := by
  have htake : (bytesToHex bytes).take 2 = ascii "0x" := List.take_left' rfl
  have hdrop : (bytesToHex bytes).drop 2 = hexText bytes := List.drop_left' rfl
  rw [isHex, htake, hdrop, Bool.and_eq_true, decide_eq_true_eq, List.all_eq_true]
  exact ⟨rfl, fun c hc => (mem_hexText hc).1⟩

theorem isBytes32_bytesToHex (value : B256) : isBytes32 (bytesToHex value.bytes) = true := by
  have hlength : (bytesToHex value.bytes).length = 66 := by
    rw [bytesToHex, List.length_append, length_hexText, value.length_eq]
    rfl
  rw [isBytes32, isHex_bytesToHex, hlength]
  rfl

/-! ## Seconds -/

theorem foldlM_wholeDigits {size n : ℕ} (hn : n < 10 ^ size) :
    (ClientData.wholeDigits size n).reverse.foldlM
      (fun n c => ((hexValue c).filter (· < 10)).map (n * 10 + ·)) 0 = some n := by
  induction size generalizing n with
  | zero =>
      rw [pow_zero, Nat.lt_one_iff] at hn
      rw [hn]
      rfl
  | succ size ih =>
      have hdigit : ∀ d < 10, (hexValue (UInt8.ofNat (48 + d))).filter (· < 10) = some d := by
        decide
      have hfront : ((if n / 10 = 0 then [] else ClientData.wholeDigits size (n / 10)).reverse
          ).foldlM (fun n c => ((hexValue c).filter (· < 10)).map (n * 10 + ·)) 0 =
            some (n / 10) := by
        split_ifs with hzero
        · rw [hzero]
          rfl
        · exact ih (by omega)
      rw [ClientData.wholeDigits, List.reverse_cons, List.foldlM_append, hfront]
      simp only [Option.bind_eq_bind, Option.bind_some, List.foldlM_cons, List.foldlM_nil,
        hdigit _ (Nat.mod_lt n (by decide : 0 < 10)), Option.map_some, Option.pure_def]
      congr 1
      omega

theorem isDigit_decimalNumber (n : ℕ) : ∀ c ∈ decimalNumber n, Sdk.isDigit c = true := by
  have hdigit : ∀ d < 10, Sdk.isDigit (UInt8.ofNat (48 + d)) = true := by decide
  have hn : n < 10 ^ (n + 1) :=
    n.lt_succ_self.trans (Nat.lt_pow_self (by decide : 1 < 10))
  rw [ClientData.decimalNumber_eq hn]
  intro c hc
  obtain ⟨d, hd, rfl⟩ := ClientData.isDigit_wholeDigits c (List.mem_reverse.mp hc)
  exact hdigit d hd

theorem isPart_digit : ∀ c : UInt8, Sdk.isDigit c = true → IsPart c := by
  decide +kernel

theorem isPart_secondsText (seconds : ℤ) : ∀ c ∈ secondsText seconds, IsPart c := by
  intro c hc
  rw [secondsText] at hc
  split at hc
  · rcases List.mem_append.mp hc with hc | hc
    · rw [List.mem_singleton.mp hc]
      decide
    · exact isPart_digit c (isDigit_decimalNumber _ c hc)
  · exact isPart_digit c (isDigit_decimalNumber _ c hc)

/-- The expiries that the kit reads: from 1970 on, in twelve digits. -/
theorem secondsText_expiry {seconds : ℤ} (hlow : 0 ≤ seconds) (hhigh : seconds < 10 ^ 12) :
    isExpiry (secondsText seconds) = true ∧
      digitsNumber 10 (secondsText seconds) = some seconds.toNat := by
  obtain ⟨n, rfl⟩ := Int.eq_ofNat_of_zero_le hlow
  have hn : n < 10 ^ (11 + 1) := by exact_mod_cast hhigh
  have htext : secondsText n = (ClientData.wholeDigits (11 + 1) n).reverse := by
    rw [secondsText, if_neg (Int.not_lt.mpr hlow), Int.natAbs_natCast,
      ClientData.decimalNumber_eq hn]
  have hne : ClientData.wholeDigits (11 + 1) n ≠ [] := by
    rw [ClientData.wholeDigits]
    exact List.cons_ne_nil _ _
  have hlength := @ClientData.length_wholeDigits_le (11 + 1) n 11 hn
  have hdigits := isDigit_decimalNumber n
  rw [ClientData.decimalNumber_eq hn] at hdigits
  constructor
  · rw [htext, isExpiry, List.length_reverse, List.all_eq_true.mpr hdigits,
      decide_eq_true (show 1 ≤ _ from List.length_pos_iff.mpr hne), decide_eq_true hlength]
    rfl
  · rw [htext, digitsNumber, if_neg (by simpa using hne), foldlM_wholeDigits hn]
    rfl

/-! ## The tag -/

theorem isTag_mac (input : Bytes) : isTag (mac hmac input) = true := by
  have hlength : (mac hmac input).length = 43 := by
    rw [mac, base64UrlEncode_eq_encode, ← encode32_eq_encode, length_encode32]
  rw [isTag, hlength, Bool.and_eq_true, List.all_eq_true]
  exact ⟨rfl, fun c hc => decide_eq_true (base64UrlEncode_mem _ c hc)⟩

theorem macValid_mac (input : Bytes) : macValid hmac input (mac hmac input) = true := by
  rw [macValid, isTag_mac, mac, base64UrlEncode_eq_encode, base64UrlDecode_encode]
  exact decide_eq_true rfl

theorem isPart_mac (input : Bytes) : ∀ c ∈ mac hmac input, IsPart c :=
  isPart_base64Url _

theorem mac_ne_nil (input : Bytes) : mac hmac input ≠ [] := by
  intro hnil
  have htag := @isTag_mac hmac input
  rw [hnil] at htag
  exact absurd htag (by decide)

/-! ## Sessions -/

theorem SignedSession.isSid_sid (signed : SignedSession numbers) : isSid signed.sid = true := by
  have hsid : signed.sid = hexText signed.random.bytes := List.drop_left' rfl
  rw [isSid, hsid, length_hexText, signed.random.length_eq, Bool.and_eq_true, List.all_eq_true]
  refine ⟨rfl, fun c hc => ?_⟩
  obtain ⟨hsome, hlower⟩ := mem_hexText hc
  rw [hsome, hlower]
  exact decide_eq_true rfl

theorem SignedSession.writable_body (signed : SignedSession numbers) :
    Writable numbers signed.body := by
  have hid := isPart_hex (Bool.and_eq_true_iff.mp signed.isBytes32_id).1
  have haccount := isPart_hex (Bool.and_eq_true_iff.mp signed.isAnyAddress_account).1
  have hsid : ∀ c ∈ signed.sid, (hexValue c).isSome = true := by
    have hsid := (Bool.and_eq_true_iff.mp signed.isSid_sid).2
    intro c hc
    exact (Bool.and_eq_true_iff.mp (List.all_eq_true.mp hsid c hc)).1
  have hkey {key : Bytes} (hall : key.all (fun c => decide (0x20 ≤ c ∧ c < 0x7f ∧ c ≠ 0x22 ∧
      c ≠ 0x5c)) = true) : Plain key :=
    fun c hc => of_decide_eq_true (List.all_eq_true.mp hall c hc)
  have hnodup : [ascii "v", ascii "id", ascii "account", ascii "sid", ascii "exp"].Nodup := by
    decide
  rw [body, Writable]
  refine ⟨hnodup, ?_⟩
  simp only [FieldsWritable, Writable]
  exact ⟨hkey rfl, numbers.isNumber_one, hkey rfl, fun c hc => (hid c hc).2, hkey rfl,
    fun c hc => (haccount c hc).2, hkey rfl, fun c hc => (isPart_hexValue c (hsid c hc)).2,
    hkey rfl, signed.isNumber_exp, trivial⟩

theorem SignedSession.parse_payload (signed : SignedSession numbers) :
    (base64UrlDecode signed.payload).bind (fun bytes => parse numbers (decode bytes)) =
      some signed.body := by
  have hascii := stringify_ascii signed.body signed.writable_body
  rw [payload, base64UrlEncode_eq_encode, base64UrlDecode_encode, Option.bind_some,
    utf8_of_ascii hascii, decode_ascii hascii, parse_stringify signed.writable_body]

/-- What a session's cookie is read as. -/
def SignedSession.decoded (signed : SignedSession numbers) : DecodedSession :=
  ⟨signed.player, signed.sid, some signed.exp⟩

/-- A payload that was signed is read as its session until it expires. -/
theorem decodeSession_payload {origin tag : Bytes} {now : ℤ} {header : Option Bytes}
    {signed : SignedSession numbers} (hfields : sessionFields origin header =
      some (signed.payload, tag))
    (hvalid : macValid hmac (sessionInput origin signed.payload) tag = true) :
    decodeSession numbers hmac origin now header =
      if now < signed.exp then some signed.decoded else none := by
  have hversion : signed.body.get? "v" = some (.num (some 1)) := rfl
  have hid : signed.body.get? "id" = some (.str signed.player.id) := rfl
  have haccount : signed.body.get? "account" = some (.str signed.player.account) := rfl
  have hsid : signed.body.get? "sid" = some (.str signed.sid) := rfl
  have hexp : signed.body.get? "exp" = some (.num (some signed.exp)) := rfl
  have hnow : ((some (signed.exp : ℚ)).all fun exp => (now : ℚ) < exp) =
      decide (now < signed.exp) := by
    simp
  simp only [decodeSession, hfields, hvalid, signed.parse_payload, hversion, hid, haccount, hsid,
    hexp, hnow, Option.bind_eq_bind, Option.bind_some, guard_true, Json.text?,
    Option.filter_some, signed.isBytes32_id, signed.isAnyAddress_account, signed.isSid_sid]
  by_cases hbefore : now < signed.exp
  · simp [hbefore, SignedSession.decoded]
  · simp [hbefore]

/-- The session that the routes see. -/
def SignedSession.session (signed : SignedSession numbers) : Session :=
  ⟨signed.player, signed.sid, signed.exp⟩

/-- The text of a signed cookie is read as the routes read the session it carries. -/
theorem decodeSession_refines {origin tag : Bytes} {now : ℤ} {header : Option Bytes}
    {signed : SignedSession numbers} (hfields : sessionFields origin header =
      some (signed.payload, tag))
    (hvalid : macValid hmac (sessionInput origin signed.payload) tag = true) :
    decodeSession numbers hmac origin now header =
      (Sdk.decodeSession now (some signed.session)).map fun session =>
        ⟨session.player, session.sid, some session.exp⟩ := by
  rw [decodeSession_payload hfields hvalid, Sdk.decodeSession]
  by_cases hnow : now < signed.exp
  · simp [SignedSession.session, SignedSession.decoded, signed.isBytes32_id,
      signed.isAnyAddress_account, signed.isSid_sid, hnow]
  · simp [SignedSession.session, hnow, not_lt.mp hnow]

theorem SignedSession.payload_ne_nil (signed : SignedSession numbers) : signed.payload ≠ [] := by
  intro hnil
  have hparse := signed.parse_payload
  rw [hnil] at hparse
  have hnone : (base64UrlDecode []).bind (fun bytes => parse numbers (decode bytes)) = none := rfl
  rw [hnone] at hparse
  contradiction

theorem sessionCookieName_token (origin : Bytes) :
    sessionCookieName origin ≠ [] ∧ ∀ c ∈ sessionCookieName origin, IsToken c := by
  rw [sessionCookieName]
  split
  · decide +kernel
  · decide +kernel

theorem nonceCookieName_token (origin : Bytes) :
    nonceCookieName origin ≠ [] ∧ ∀ c ∈ nonceCookieName origin, IsToken c := by
  rw [nonceCookieName]
  split
  · decide +kernel
  · decide +kernel

/-- Parts and the dots between them can stand in a cookie. -/
theorem visible_of_part {c : UInt8} (hc : IsPart c ∨ c = 0x2e) :
    0x21 ≤ c ∧ c < 0x7f ∧ c ≠ 0x3b := by
  rcases hc with hc | rfl
  · exact ⟨hc.1.1, hc.1.2.1, hc.1.2.2.1⟩
  · decide

theorem dot_of_parts {text : Bytes} (hparts : ∀ c ∈ text, IsPart c) : 0x2e ∉ text :=
  fun hmem => (hparts _ hmem).2 rfl

/-- The fields of a session's cookie. -/
theorem sessionFields_eq {origin header : Bytes} {signed : SignedSession numbers} {ttl : ℤ}
    (hfirst : FirstOfName header (sessionCookieName origin)
      (sessionCookie hmac origin signed ttl)) :
    sessionFields origin (some header) =
      some (signed.payload, mac hmac (sessionInput origin signed.payload)) := by
  have hpayload : ∀ c ∈ signed.payload, IsPart c := isPart_base64Url _
  have htag := @isPart_mac hmac (sessionInput origin signed.payload)
  obtain ⟨hname, hnames⟩ := sessionCookieName_token origin
  have hvalue := cookieValue_eq hfirst hname hnames (by simp [signed.payload_ne_nil]) (by
    rw [List.forall_mem_append, List.forall_mem_append]
    exact ⟨⟨fun c hc => visible_of_part (.inl (hpayload c hc)),
        fun c hc => visible_of_part (.inr (List.mem_singleton.mp hc))⟩,
      fun c hc => visible_of_part (.inl (htag c hc))⟩)
  rw [List.append_assoc] at hvalue
  have hpos : 0 < signed.payload.length := List.length_pos_iff.mpr signed.payload_ne_nil
  have hdot : (signed.payload ++ (ascii "." ++ mac hmac (sessionInput origin signed.payload))
      ).idxOf? 0x2e = some signed.payload.length :=
    idxOf?_append (dot_of_parts hpayload) _
  have hdrop : (signed.payload ++ (ascii "." ++ mac hmac (sessionInput origin signed.payload))
      ).drop (signed.payload.length + 1) = mac hmac (sessionInput origin signed.payload) := by
    rw [← List.drop_drop, List.drop_left' rfl]
    rfl
  simp only [sessionFields, hvalue, hdot, Option.bind_eq_bind, Option.bind_some, hpos, guard_true,
    List.take_left' rfl, hdrop]
  rfl

/-! ## Nonces -/

/-- The fields of a nonce's cookie. -/
theorem nonceFields_eq {origin header : Bytes} {nonce : B256} {expiresAt : ℤ}
    (hfirst : FirstOfName header (nonceCookieName origin)
      (nonceCookie hmac origin nonce expiresAt)) :
    nonceFields origin (some header) = some (bytesToHex nonce.bytes, secondsText expiresAt,
      mac hmac (nonceInput origin (bytesToHex nonce.bytes) (secondsText expiresAt))) := by
  have hnonce : ∀ c ∈ bytesToHex nonce.bytes, IsPart c :=
    fun c hc => (isPart_hex (isHex_bytesToHex nonce.bytes) c hc).1
  have hexpiry := isPart_secondsText expiresAt
  have htag := @isPart_mac hmac
    (nonceInput origin (bytesToHex nonce.bytes) (secondsText expiresAt))
  obtain ⟨hname, hnames⟩ := nonceCookieName_token origin
  have hdots : ∀ c ∈ ascii ".", 0x21 ≤ c ∧ c < 0x7f ∧ c ≠ 0x3b :=
    fun c hc => visible_of_part (.inr (List.mem_singleton.mp hc))
  have hvalue := cookieValue_eq hfirst hname hnames
    (by simp [show ascii "." = [0x2e] from rfl]) (by
      rw [List.forall_mem_append, List.forall_mem_append, List.forall_mem_append,
        List.forall_mem_append]
      exact ⟨⟨⟨⟨fun c hc => visible_of_part (.inl (hnonce c hc)), hdots⟩,
        fun c hc => visible_of_part (.inl (hexpiry c hc))⟩, hdots⟩,
        fun c hc => visible_of_part (.inl (htag c hc))⟩)
  have hsplit : (bytesToHex nonce.bytes ++ ascii "." ++ secondsText expiresAt ++ ascii "." ++
      mac hmac (nonceInput origin (bytesToHex nonce.bytes) (secondsText expiresAt))).splitOn 0x2e =
        [bytesToHex nonce.bytes, secondsText expiresAt,
          mac hmac (nonceInput origin (bytesToHex nonce.bytes) (secondsText expiresAt))] := by
    rw [List.append_assoc, List.append_assoc, List.append_assoc,
      show ∀ text : Bytes, ascii "." ++ text = 0x2e :: text from fun _ => rfl,
      show ∀ text : Bytes, ascii "." ++ text = 0x2e :: text from fun _ => rfl,
      List.splitOn_append_cons_self, List.splitOn_append_cons_self,
      List.splitOn_eq_singleton (dot_of_parts hnonce),
      List.splitOn_eq_singleton (dot_of_parts hexpiry),
      List.splitOn_eq_singleton (dot_of_parts htag)]
    rfl
  rw [nonceFields, hvalue, hsplit]

/-- A nonce that was issued is read until it expires. -/
theorem readNonce_eq {origin : Bytes} {now : ℤ} {header : Option Bytes} {nonce : B256}
    {expiresAt : ℤ} (hfields : nonceFields origin header = some (bytesToHex nonce.bytes,
      secondsText expiresAt,
      mac hmac (nonceInput origin (bytesToHex nonce.bytes) (secondsText expiresAt))))
    (hlow : 0 ≤ expiresAt) (hhigh : expiresAt < 10 ^ 12) (hnow : now < expiresAt) :
    readNonce hmac origin now header = some (bytesToHex nonce.bytes) := by
  obtain ⟨hexpiry, hnumber⟩ := secondsText_expiry hlow hhigh
  have hnonce : bytesToHex nonce.bytes ≠ [] := by
    rw [bytesToHex]
    exact List.cons_ne_nil _ _
  have hne : secondsText expiresAt ≠ [] := by
    intro hnil
    rw [hnil] at hexpiry
    exact absurd hexpiry (by decide)
  have hbefore : now < (expiresAt.toNat : ℤ) := by
    rw [Int.toNat_of_nonneg hlow]
    exact hnow
  simp only [readNonce, hfields, Option.bind_eq_bind, Option.bind_some, hnumber, ne_eq, hnonce,
    hne, mac_ne_nil, isBytes32_bytesToHex, hexpiry, not_false_eq_true, and_self, guard_true,
    hbefore, macValid_mac]
  rfl

/-! ## What is accepted -/

theorem KitServer.eq_of_origin {server server' : KitServer browser}
    (horigin : server.origin = server'.origin) : server = server' := by
  cases server
  cases server'
  cases horigin
  rfl

theorem of_guard {p : Prop} [Decidable p] {u : Unit} (hguard : guard p = some u) : p := by
  by_contra hp
  simp [guard, hp] at hguard

section Accepting

variable (hurls : ∀ text url, browser.parseUrl text = some url → PlainOrigin url.origin)
include hurls

theorem IssuedCookie.input_ascii (cookie : IssuedCookie browser numbers) :
    ∀ c ∈ cookie.input, c < 0x80 := by
  have hfixed {text : Bytes} (hparts : ∀ c ∈ text, IsPart c) : ∀ c ∈ text, c < 0x80 :=
    fun c hc => (hparts c hc).ascii
  cases cookie with
  | session server signed =>
      have horigin := server.plain hurls
      rw [input, sessionInput, List.forall_mem_append, List.forall_mem_append,
        List.forall_mem_append]
      exact ⟨⟨⟨ascii_of_all rfl, fun c hc => (horigin c hc).1⟩, ascii_of_all rfl⟩,
        hfixed (isPart_base64Url _)⟩
  | nonce server issued expiresAt =>
      have horigin := server.plain hurls
      rw [input, nonceInput, List.forall_mem_append, List.forall_mem_append,
        List.forall_mem_append, List.forall_mem_append, List.forall_mem_append]
      exact ⟨⟨⟨⟨⟨ascii_of_all rfl, fun c hc => (horigin c hc).1⟩, ascii_of_all rfl⟩,
        hfixed fun c hc => (isPart_hex (isHex_bytesToHex issued.bytes) c hc).1⟩,
        ascii_of_all rfl⟩, hfixed (isPart_secondsText expiresAt)⟩

/-- What is accepted is the input of an issued cookie. -/
theorem input_of_unforged {issued : Set (IssuedCookie browser numbers)} {input tag : Bytes}
    (hunforged : Unforged hmac issued input tag) (hvalid : macValid hmac input tag = true) :
    ∃ cookie ∈ issued, input = cookie.input := by
  obtain ⟨cookie, hissued, hutf8⟩ := hunforged hvalid
  have hascii := cookie.input_ascii hurls
  rw [utf8_of_ascii hascii] at hutf8
  exact ⟨cookie, hissued, eq_of_utf8_ascii hutf8 hascii⟩

theorem decodeSession_issued {issued : Set (IssuedCookie browser numbers)}
    {server : KitServer browser} {now : ℤ} {header : Option Bytes} {decoded : DecodedSession}
    (hunforged : ∀ payload tag, sessionFields server.origin header = some (payload, tag) →
      Unforged hmac issued (sessionInput server.origin payload) tag)
    (hdecode : decodeSession numbers hmac server.origin now header = some decoded) :
    ∃ signed, .session server signed ∈ issued ∧ now < signed.exp ∧ decoded = signed.decoded := by
  cases hfields : sessionFields server.origin header with
  | none =>
      rw [decodeSession, hfields] at hdecode
      contradiction
  | some fields =>
      obtain ⟨payload, tag⟩ := fields
      have hvalid : macValid hmac (sessionInput server.origin payload) tag = true := by
        by_contra hinvalid
        simp [decodeSession, hfields, hinvalid] at hdecode
      obtain ⟨cookie, hissued, hinput⟩ :=
        input_of_unforged hurls (hunforged payload tag hfields) hvalid
      cases cookie with
      | nonce server' nonce expiresAt =>
          exact absurd hinput (sessionInput_ne_nonceInput _ _ _ _ _)
      | session server' signed =>
          obtain ⟨horigin, rfl⟩ :=
            sessionInput_inj (server.plain hurls).bar (server'.plain hurls).bar hinput
          obtain rfl := KitServer.eq_of_origin horigin
          rw [decodeSession_payload hfields hvalid] at hdecode
          split at hdecode
          · next hnow => exact ⟨signed, hissued, hnow, (Option.some.inj hdecode).symm⟩
          · contradiction

theorem readNonce_issued {issued : Set (IssuedCookie browser numbers)}
    {server : KitServer browser} {now : ℤ} {header : Option Bytes} {found : Bytes}
    (hunforged : ∀ nonce expiresAt tag,
      nonceFields server.origin header = some (nonce, expiresAt, tag) →
      Unforged hmac issued (nonceInput server.origin nonce expiresAt) tag)
    (hread : readNonce hmac server.origin now header = some found) :
    ∃ nonce expiresAt, .nonce server nonce expiresAt ∈ issued ∧
      found = bytesToHex nonce.bytes := by
  cases hfields : nonceFields server.origin header with
  | none =>
      rw [readNonce, hfields] at hread
      contradiction
  | some fields =>
      obtain ⟨nonce, expiresAt, tag⟩ := fields
      rw [readNonce, hfields] at hread
      simp only [Option.bind_eq_bind, Option.bind_some, Option.bind_eq_some_iff,
        Option.pure_def] at hread
      obtain ⟨_, hform, _, -, _, -, _, hvalid, hfound⟩ := hread
      have hnonce := (of_guard hform).2.2.2.1
      obtain ⟨cookie, hissued, hinput⟩ := input_of_unforged hurls
        (hunforged nonce expiresAt tag hfields) (of_guard hvalid)
      cases cookie with
      | session server' signed =>
          exact absurd hinput.symm (sessionInput_ne_nonceInput _ _ _ _ _)
      | nonce server' issuedNonce issuedAt =>
          obtain ⟨horigin, hrest⟩ :=
            nonceInput_inj (server.plain hurls).bar (server'.plain hurls).bar hinput
          have hbar {text : Bytes} (hhex : isHex text = true) : 0x7c ∉ text :=
            fun hmem => (isPart_hex hhex _ hmem).1.1.2.2.2.2 rfl
          obtain ⟨hsame, -⟩ := append_delimiter_inj
            (hbar (Bool.and_eq_true_iff.mp hnonce).1) (hbar (isHex_bytesToHex _)) hrest
          obtain rfl := KitServer.eq_of_origin horigin
          exact ⟨issuedNonce, issuedAt, hissued, by rw [← Option.some.inj hfound, hsame]⟩

end Accepting

/-! ## Exactness -/

/-- A cookie the server sets is read back wherever it is the first of its name, a cookie it accepts
it has set itself, and no two kinds or origins share what a MAC is taken of.  Nonces expire in the
years that twelve digits of seconds reach. -/
theorem kit_cookies_exact (browser : Browser) (numbers : NumberFormat) (hmac : Bytes → B256)
    (hurls : ∀ text url, browser.parseUrl text = some url → PlainOrigin url.origin) :
    (∀ (server : KitServer browser) (signed : SignedSession numbers) (sessionTtl now : ℤ)
        (header : Bytes),
      FirstOfName header (sessionCookieName server.origin)
        (sessionCookie hmac server.origin signed sessionTtl) → now < signed.exp →
      decodeSession numbers hmac server.origin now (some header) = some signed.decoded) ∧
    (∀ (server : KitServer browser) (nonce : B256) (expiresAt now : ℤ) (header : Bytes),
      0 ≤ expiresAt → expiresAt < 10 ^ 12 →
      FirstOfName header (nonceCookieName server.origin)
        (nonceCookie hmac server.origin nonce expiresAt) → now < expiresAt →
      readNonce hmac server.origin now (some header) = some (bytesToHex nonce.bytes)) ∧
    (∀ (issued : Set (IssuedCookie browser numbers)) (server : KitServer browser) (now : ℤ)
        (header : Option Bytes) (decoded : DecodedSession),
      (∀ payload tag, sessionFields server.origin header = some (payload, tag) →
        Unforged hmac issued (sessionInput server.origin payload) tag) →
      decodeSession numbers hmac server.origin now header = some decoded →
      ∃ signed, .session server signed ∈ issued ∧ now < signed.exp ∧
        decoded = signed.decoded) ∧
    (∀ (issued : Set (IssuedCookie browser numbers)) (server : KitServer browser) (now : ℤ)
        (header : Option Bytes) (found : Bytes),
      (∀ nonce expiresAt tag,
        nonceFields server.origin header = some (nonce, expiresAt, tag) →
        Unforged hmac issued (nonceInput server.origin nonce expiresAt) tag) →
      readNonce hmac server.origin now header = some found →
      ∃ nonce expiresAt, .nonce server nonce expiresAt ∈ issued ∧
        found = bytesToHex nonce.bytes) ∧
    ∀ (server server' : KitServer browser) (payload payload' nonce nonce' expiresAt
        expiresAt' : Bytes),
      sessionInput server.origin payload ≠ nonceInput server'.origin nonce expiresAt ∧
      (server.origin ≠ server'.origin →
        sessionInput server.origin payload ≠ sessionInput server'.origin payload' ∧
        nonceInput server.origin nonce expiresAt ≠
          nonceInput server'.origin nonce' expiresAt') := by
  refine ⟨?_, ?_, ?_, ?_, ?_⟩
  · intro server signed sessionTtl now header hfirst hnow
    rw [decodeSession_payload (sessionFields_eq hfirst) (macValid_mac _), if_pos hnow]
  · intro server nonce expiresAt now header hlow hhigh hfirst hnow
    exact readNonce_eq (nonceFields_eq hfirst) hlow hhigh hnow
  · intro issued server now header decoded hunforged hdecode
    exact decodeSession_issued hurls hunforged hdecode
  · intro issued server now header found hunforged hread
    exact readNonce_issued hurls hunforged hread
  · intro server server' payload payload' nonce nonce' expiresAt expiresAt'
    have hbar := (server.plain hurls).bar
    have hbar' := (server'.plain hurls).bar
    refine ⟨sessionInput_ne_nonceInput _ _ _ _ _, fun hne => ⟨fun heq => ?_, fun heq => ?_⟩⟩
    · exact hne (sessionInput_inj hbar hbar' heq).1
    · exact hne (nonceInput_inj hbar hbar' heq).1

end Kit

/-! ## One site -/

namespace Sample

def origin : Bytes := ascii "https://your.game"

def browser : Browser where
  keccak := fun text => .ofNat 32 text.length
  parseUrl := fun text =>
    if text = origin then some ⟨origin, ascii "https:", ascii "your.game"⟩ else none

theorem plain_urls : ∀ text url, browser.parseUrl text = some url → PlainOrigin url.origin := by
  intro text url hurl
  have hplain : origin.all (fun c => decide (c < 0x80 ∧ c ≠ 0x7c)) = true := by decide +kernel
  change (if text = origin then some _ else none) = some url at hurl
  split at hurl
  · rw [← Option.some.inj hurl]
    exact fun c hc => of_decide_eq_true (List.all_eq_true.mp hplain c hc)
  · contradiction

def server : KitServer browser := ⟨origin, by decide +kernel⟩

/-- The two numbers of one session's cookie. -/
def numbers : NumberFormat where
  IsNumber := fun q => q = 1 ∨ q = 2000
  text := fun q => if q = 1 then ascii "1" else ascii "2000"
  value := fun text => if text = ascii "1" then some 1 else some 2000
  isNumber_one := .inl rfl
  literal_text := by
    rintro q (rfl | rfl) rest hrest
    · cases rest with
      | nil => rfl
      | cons c rest =>
          rcases hrest c rfl with rfl | rfl | rfl <;> rfl
    · cases rest with
      | nil => rfl
      | cons c rest =>
          rcases hrest c rfl with rfl | rfl | rfl <;> rfl
  value_text := by
    rintro q (rfl | rfl)
    · rfl
    · rfl
  text_ascii := by
    rintro q (rfl | rfl)
    · exact ascii_of_all rfl
    · exact ascii_of_all rfl

def hmac (input : Bytes) : B256 := .ofNat 32 input.length

def signed : SignedSession numbers where
  player := ⟨bytesToHex (List.replicate 32 7), bytesToHex (List.replicate 20 8)⟩
  random := .ofNat 16 9
  exp := 2000
  isBytes32_id := by decide +kernel
  isAnyAddress_account := by decide +kernel
  isNumber_exp := .inr (by norm_num)

/-- The session's cookie after another one. -/
def header : Bytes := ascii "a=1; " ++ keptPair (sessionCookie hmac origin signed 60)

def lateHeader : Bytes := keptPair (nonceCookie hmac origin (.ofNat 32 5) (10 ^ 12))

end Sample

/-- A nonce that expires in thirteen digits of seconds is not read back. -/
theorem late_nonce_refused :
    FirstOfName Sample.lateHeader (nonceCookieName Sample.origin)
        (nonceCookie Sample.hmac Sample.origin (.ofNat 32 5) (10 ^ 12)) ∧ (0 : ℤ) < 10 ^ 12 ∧
      readNonce Sample.hmac Sample.server.origin 0 (some Sample.lateHeader) = none := by
  refine ⟨⟨[], [], [], [], ?_, nofun, nofun, nofun⟩, by norm_num, ?_⟩
  · decide +kernel
  · decide +kernel

theorem kit_cookies_exact_sample :
    decodeSession Sample.numbers Sample.hmac Sample.server.origin 1500 (some Sample.header) =
      some Sample.signed.decoded := by
  refine (kit_cookies_exact Sample.browser Sample.numbers Sample.hmac Sample.plain_urls).1
    Sample.server Sample.signed 60 1500 Sample.header
    ⟨[ascii "a=1"], ascii " ", [], [], ?_, ?_, nofun, ?_⟩ ?_
  · decide +kernel
  · exact List.forall_mem_singleton.mpr (.inl rfl)
  · intro part hpart cookie hcookie
    rw [List.mem_singleton.mp hpart, show cookiePair (ascii "a=1") =
      some (ascii "a", ascii "1") from by decide +kernel] at hcookie
    rw [← Option.some.inj hcookie]
    decide +kernel
  · decide +kernel

end Cookies

end VeraKey
