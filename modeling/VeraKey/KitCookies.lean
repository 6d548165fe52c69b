/-
The kit's signed cookies as texts: how they are written, how a Cookie header is read, and what a
MAC is taken of.
-/
import VeraKey.Coercion
import VeraKey.Connect
import VeraKey.FormatTotal
import VeraKey.JsonText
import VeraKey.Kit
import VeraKey.SdkBase64

namespace VeraKey

open ByteCodec TextCodec JsonText

namespace Cookies

open Sdk hiding readNonce decodeSession

/-! ## MACs

`hmac` is HMAC-SHA256 under the server's secret. -/

section Macs

variable (hmac : Bytes → B256)

def mac (input : Bytes) : Bytes := base64UrlEncode (hmac (utf8 input)).bytes

/-- `/^[A-Za-z0-9_-]{43}$/`. -/
def isTag (tag : Bytes) : Bool := tag.length = 43 && tag.all fun c => c ∈ Base64Url.alphabet

def macValid (input tag : Bytes) : Bool :=
  isTag tag && base64UrlDecode tag = some (hmac (utf8 input)).bytes

end Macs

/-! ## Cookie headers -/

/-- A part of a header, as a name and a value. -/
def cookiePair (part : Bytes) : Option (Bytes × Bytes) := do
  let item := trim part
  let eq ← item.idxOf? 0x3d
  guard (0 < eq)
  let name := trim (item.take eq)
  guard (name ≠ [])
  return (name, trim (item.drop (eq + 1)))

/-- One round of the loop: the first cookie of a name is kept. -/
def addCookie (cookies : List (Bytes × Bytes)) (part : Bytes) : List (Bytes × Bytes) :=
  match cookiePair part with
  | some cookie => if cookie.1 ∈ cookies.map Prod.fst then cookies else cookies ++ [cookie]
  | none => cookies

/-- The cookies of a header, by name. -/
def parseCookies (header : Option Bytes) : List (Bytes × Bytes) :=
  ((header.getD []).splitOn 0x3b).foldl addCookie []

def cookieValue (header : Option Bytes) (name : Bytes) : Bytes :=
  ((parseCookies header).lookup name).getD []

inductive SameSite
  | strict
  | lax

structure CookieOptions where
  maxAge : ℤ
  sameSite : SameSite
  secure : Bool

/-- `String` of a whole number of seconds. -/
def secondsText (seconds : ℤ) : Bytes :=
  if seconds < 0 then ascii "-" ++ decimalNumber seconds.natAbs else decimalNumber seconds.natAbs

/-- A Set-Cookie value. -/
def serializeCookie (name value : Bytes) (options : CookieOptions) : Bytes :=
  name ++ ascii "=" ++ value ++ (ascii "; Path=/; Max-Age=" ++ secondsText options.maxAge ++
    ascii "; HttpOnly; SameSite=" ++
    (match options.sameSite with
    | .strict => ascii "Strict"
    | .lax => ascii "Lax") ++
    if options.secure then ascii "; Secure" else [])

/-! ## The server -/

/-- A kit's server, as far as its cookies go: an origin that `checkOptions` accepts. -/
structure KitServer (browser : Browser) where
  origin : Bytes
  allowed : isAllowedRequesterOrigin browser origin = true

def isSecure (origin : Bytes) : Bool := (ascii "https:").isPrefixOf origin

def nonceCookieName (origin : Bytes) : Bytes :=
  if isSecure origin then ascii "__Host-verakey-nonce" else ascii "verakey-nonce"

def sessionCookieName (origin : Bytes) : Bytes :=
  if isSecure origin then ascii "__Host-verakey-session" else ascii "verakey-session"

def nonceInput (origin nonce expiresAt : Bytes) : Bytes :=
  ascii "verakey-nonce|" ++ origin ++ ascii "|" ++ nonce ++ ascii "|" ++ expiresAt

def sessionInput (origin payload : Bytes) : Bytes :=
  ascii "verakey-session|" ++ origin ++ ascii "|" ++ payload

/-- A session the kit signs: a player whose sign-in it verified, a random id and an expiry. -/
structure SignedSession (numbers : NumberFormat) where
  player : VeraKeyPlayer
  random : FixedBytes 16
  exp : ℤ
  isBytes32_id : isBytes32 player.id = true
  isAnyAddress_account : isAnyAddress player.account = true
  isNumber_exp : numbers.IsNumber exp

section Writing

variable {numbers : NumberFormat}

def SignedSession.sid (session : SignedSession numbers) : Bytes :=
  (bytesToHex session.random.bytes).drop 2

/-- What a session's cookie says. -/
def SignedSession.body (session : SignedSession numbers) : Json :=
  .obj [(ascii "v", .num (some 1)), (ascii "id", .str session.player.id),
    (ascii "account", .str session.player.account), (ascii "sid", .str session.sid),
    (ascii "exp", .num (some session.exp))]

def SignedSession.payload (session : SignedSession numbers) : Bytes :=
  base64UrlEncode (utf8 (stringify numbers session.body))

variable (hmac : Bytes → B256)

def sessionCookie (origin : Bytes) (session : SignedSession numbers) (sessionTtl : ℤ) : Bytes :=
  serializeCookie (sessionCookieName origin)
    (session.payload ++ ascii "." ++ mac hmac (sessionInput origin session.payload))
    ⟨sessionTtl, .lax, isSecure origin⟩

def nonceTtlSeconds : ℤ := 300

def nonceCookie (origin : Bytes) (nonce : B256) (expiresAt : ℤ) : Bytes :=
  let nonce := bytesToHex nonce.bytes
  let expiresAt := secondsText expiresAt
  serializeCookie (nonceCookieName origin)
    (nonce ++ ascii "." ++ expiresAt ++ ascii "." ++
      mac hmac (nonceInput origin nonce expiresAt))
    ⟨nonceTtlSeconds, .strict, isSecure origin⟩

end Writing

/-! ## Reading -/

/-- The nonce, the expiry and the tag in a header. -/
def nonceFields (origin : Bytes) (header : Option Bytes) : Option (Bytes × Bytes × Bytes) :=
  match (cookieValue header (nonceCookieName origin)).splitOn 0x2e with
  | nonce :: expiresAt :: tag :: _ => some (nonce, expiresAt, tag)
  | _ => none

/-- `/^[0-9]{1,12}$/`. -/
def isExpiry (text : Bytes) : Bool :=
  1 ≤ text.length && text.length ≤ 12 && text.all Sdk.isDigit

def readNonce (hmac : Bytes → B256) (origin : Bytes) (now : ℤ) (header : Option Bytes) :
    Option Bytes := do
  let (nonce, expiresAt, tag) ← nonceFields origin header
  guard (nonce ≠ [] ∧ expiresAt ≠ [] ∧ tag ≠ [] ∧ isBytes32 nonce ∧ isExpiry expiresAt)
  guard (now < (← digitsNumber 10 expiresAt))
  guard (macValid hmac (nonceInput origin nonce expiresAt) tag)
  return nonce

/-- The payload and the tag in a header. -/
def sessionFields (origin : Bytes) (header : Option Bytes) : Option (Bytes × Bytes) := do
  let value := cookieValue header (sessionCookieName origin)
  let dot ← value.idxOf? 0x2e
  guard (0 < dot)
  return (value.take dot, value.drop (dot + 1))

/-- A session as a cookie says it; a number out of range has no value. -/
structure DecodedSession where
  player : VeraKeyPlayer
  sid : Bytes
  exp : Option ℚ
deriving DecidableEq

def decodeSession (numbers : NumberFormat) (hmac : Bytes → B256) (origin : Bytes) (now : ℤ)
    (header : Option Bytes) : Option DecodedSession := do
  let (payload, tag) ← sessionFields origin header
  guard (macValid hmac (sessionInput origin payload) tag)
  let data ← (base64UrlDecode payload).bind fun bytes => parse numbers (decode bytes)
  -- of what is no object every property is missing, and of null it throws
  let .num version ← data.get? "v" | none
  guard (version = some 1)
  let id ← ((data.get? "id").bind Json.text?).filter isBytes32
  let account ← ((data.get? "account").bind Json.text?).filter isAnyAddress
  let sid ← ((data.get? "sid").bind Json.text?).filter isSid
  let .num exp ← data.get? "exp" | none
  guard (exp.all ((now : ℚ) < ·))
  return ⟨⟨id, account⟩, sid, exp⟩

end Cookies

end VeraKey
