/-
One player, one id.  A player id is the text in which the browser spelled the nullifier,
in either letter case, while everything it is checked against reads the number.
-/
import VeraKey.Kit

namespace VeraKey

open ByteCodec Guard TextCodec

namespace Sdk

/-! ## Spellings of a nullifier -/

/-- The number that the text of a result's nullifier spells. -/
def nullifierOf (result : Json) : Option ℕ := (nullifierText result).bind bigInt

/-- Two texts that differ in no more than letter case are the same text. -/
def SameSpelling (left right : Option Bytes) : Prop :=
  left.map toLowerCase = right.map toLowerCase → left = right

theorem isField_eq_true {text : Bytes} (hfield : isField text = true) :
    text.take 2 = ascii "0x" ∧ text.length = 66 ∧
      ∃ value, hexNat (text.drop 2) = some value ∧ bigInt text = some value := by
  simp only [isField, isHex, Bool.and_eq_true, decide_eq_true_eq] at hfield
  obtain ⟨⟨⟨htake, -⟩, hlength⟩, hvalue⟩ := hfield
  obtain ⟨value, hbigInt, -⟩ := (Option.any_eq_true _ _).mp hvalue
  refine ⟨htake, hlength, value, ?_, hbigInt⟩
  rwa [bigInt, if_pos ⟨htake, by omega⟩] at hbigInt

/-- Texts of field elements spell one number exactly when only their case differs. -/
theorem bigInt_eq_iff {left right : Bytes} (hleft : isField left = true)
    (hright : isField right = true) :
    bigInt left = bigInt right ↔ toLowerCase left = toLowerCase right := by
  obtain ⟨htake, hlength, n, hnat, hn⟩ := isField_eq_true hleft
  obtain ⟨htake', hlength', m, hnat', hm⟩ := isField_eq_true hright
  have hdrop : (left.drop 2).length = (right.drop 2).length := by
    rw [List.length_drop, List.length_drop, hlength, hlength']
  have hlower : ∀ text : Bytes, text.take 2 = ascii "0x" →
      toLowerCase text = ascii "0x" ++ lower (text.drop 2) := by
    intro text htext
    conv_lhs => rw [← List.take_append_drop 2 text, htext]
    rw [toLowerCase, lower, List.map_append]
    rfl
  rw [hn, hm, Option.some.injEq, hexNat_eq_iff hnat hnat' hdrop, hlower left htake,
    hlower right htake', List.append_cancel_left_eq]

/-- Two accepted results have one player id exactly when they name one nullifier, unless
they spell it in different letter cases. -/
theorem playerId_eq_iff {p : Platform} {chain chain' : ChainClient}
    {options options' : VerifySignInOptions} {result result' : Json}
    (hvalid : (verifySignIn p chain options result).valid = true)
    (hvalid' : (verifySignIn p chain' options' result').valid = true) :
    ((verifySignIn p chain options result).playerId =
        (verifySignIn p chain' options' result').playerId ↔
      nullifierOf result = nullifierOf result') ↔
        SameSpelling (nullifierText result) (nullifierText result') := by
  obtain ⟨id, hid, hfield, htext⟩ := playerId_verifySignIn hvalid
  obtain ⟨id', hid', hfield', htext'⟩ := playerId_verifySignIn hvalid'
  have hvalues : nullifierOf result = nullifierOf result' ↔ toLowerCase id = toLowerCase id' := by
    rw [nullifierOf, nullifierOf, htext, htext']
    exact bigInt_eq_iff hfield hfield'
  rw [hid, hid', hvalues, htext, htext', SameSpelling, Option.map_some, Option.map_some,
    Option.some.injEq, Option.some.injEq]
  constructor
  · intro hiff
    exact hiff.mpr
  · intro halike
    exact ⟨congrArg toLowerCase, halike⟩

/-! ## The server's sessions and payments -/

namespace VeraKeyServer

/-- No nullifier has signed in under two ids. -/
def SignedInOnce (server : VeraKeyServer) : Prop :=
  ∀ session ∈ server.sessions, ∀ other ∈ server.sessions,
    bigInt session.player.id = bigInt other.player.id → session.player.id = other.player.id

/-- No nullifier has two payment checks running. -/
def PaysOnce (server : VeraKeyServer) : Prop :=
  (server.paying.running.map fun check => bigInt check.player.id).Nodup

/-- The session a payment request presents is one the server signed: its MAC cannot be
forged. -/
def Unforged (server : VeraKeyServer) : KitEvent → Prop
  | .payment request _ => ∀ session ∈ request.sessionCookie, session ∈ server.sessions
  | _ => True

/-- An accepted sign-in spells no nullifier in another letter case than a session before
it. -/
def SpelledAlike (p : Platform) (options : VeraKeyServerOptions) (server : VeraKeyServer) :
    KitEvent → Prop
  | .signIn request answers => (signIn p options request answers).isOk = true →
      ∀ session ∈ server.sessions,
        SameSpelling (some session.player.id) ((p.parseJson request.body).bind nullifierText)
  | _ => True

/-- The ids are texts of field elements, and the payment checks are for signed-in players. -/
structure Sound (server : VeraKeyServer) : Prop where
  fields : ∀ session ∈ server.sessions, isField session.player.id = true
  payers : ∀ check ∈ server.paying.running, ∃ session ∈ server.sessions,
    session.player = check.player

theorem sound_fresh : fresh.Sound where
  fields := by simp [fresh]
  payers := by simp [fresh, KeyedLock.idle]

variable {p : Platform} {options : VeraKeyServerOptions} {server : VeraKeyServer}

namespace Sound

theorem addSession (hsound : server.Sound) {session : Session}
    (hfield : isField session.player.id = true) :
    ({ server with sessions := session :: server.sessions } : VeraKeyServer).Sound where
  fields := by
    intro other hother
    rcases List.mem_cons.mp hother with rfl | hold
    · exact hfield
    · exact hsound.fields other hold
  payers := by
    intro check hcheck
    obtain ⟨other, hother, hplayer⟩ := hsound.payers check hcheck
    exact ⟨other, List.mem_cons_of_mem session hother, hplayer⟩

/-- Payment checks of signed-in players may come and go. -/
theorem setPaying (hsound : server.Sound) {paying : Paying} {payments : ℕ}
    (hpayers : ∀ check ∈ paying.running, check ∈ server.paying.running ∨
      ∃ session ∈ server.sessions, session.player = check.player) :
    ({ server with paying := paying, payments := payments } : VeraKeyServer).Sound where
  fields := hsound.fields
  payers := by
    intro check hcheck
    rcases hpayers check hcheck with hrunning | hsession
    · exact hsound.payers check hrunning
    · exact hsession

theorem next (hsound : server.Sound) {event : KitEvent} (hunforged : server.Unforged event) :
    (server.next p options event).Sound := by
  cases event with
  | signIn request answers =>
      cases hroute : signIn p options request answers with
      | ok session =>
          rw [next_signIn hroute]
          exact hsound.addSession (signIn_eq_ok hroute).1
      | error error => simpa only [VeraKeyServer.next, hroute] using hsound
  | payment request answers =>
      cases hroute : startPayment options server.paying server.payments request answers with
      | ok paying =>
          obtain ⟨session, hcookie, hrunning⟩ := startPayment_eq_ok hroute
          rw [next_payment hroute]
          apply hsound.setPaying
          intro check hcheck
          rw [hrunning] at hcheck
          rcases List.mem_cons.mp hcheck with rfl | hcheck
          · exact Or.inr ⟨session, hunforged session hcookie, rfl⟩
          · exact Or.inl hcheck
      | error error => simpa only [VeraKeyServer.next, hroute] using hsound
  | paymentAnswered check =>
      apply hsound.setPaying
      intro other hother
      exact Or.inl (KeyedLock.mem_running_of_release hother)
  | other => exact hsound

/-- A session with a field element for its id joins the others exactly when it is spelled
like them. -/
theorem signedInOnce_addSession (hsound : server.Sound) {session : Session}
    (hfield : isField session.player.id = true) :
    ({ server with sessions := session :: server.sessions } : VeraKeyServer).SignedInOnce ↔
      server.SignedInOnce ∧ ∀ other ∈ server.sessions,
        SameSpelling (some other.player.id) (some session.player.id) := by
  have hspelled : ∀ other ∈ server.sessions,
      SameSpelling (some other.player.id) (some session.player.id) ↔
        (bigInt other.player.id = bigInt session.player.id →
          other.player.id = session.player.id) := by
    intro other hother
    rw [bigInt_eq_iff (hsound.fields other hother) hfield, SameSpelling, Option.map_some,
      Option.map_some, Option.some.injEq, Option.some.injEq]
  constructor
  · intro honce
    constructor
    · intro left hleft right hright
      exact honce left (List.mem_cons_of_mem session hleft) right
        (List.mem_cons_of_mem session hright)
    · intro other hother
      apply (hspelled other hother).mpr
      exact honce other (List.mem_cons_of_mem session hother) session List.mem_cons_self
  · rintro ⟨honce, halike⟩ left hleft right hright hvalue
    rcases List.mem_cons.mp hleft with hnew | hold
    · rcases List.mem_cons.mp hright with hnew' | hold'
      · rw [hnew, hnew']
      · rw [hnew] at hvalue ⊢
        exact ((hspelled right hold').mp (halike right hold') hvalue.symm).symm
    · rcases List.mem_cons.mp hright with hnew' | hold'
      · rw [hnew'] at hvalue ⊢
        exact (hspelled left hold).mp (halike left hold) hvalue
      · exact honce left hold right hold' hvalue

/-- An event keeps the ids apart exactly when it spells its nullifier as before. -/
theorem signedInOnce_next (hsound : server.Sound) {event : KitEvent} :
    (server.next p options event).SignedInOnce ↔
      server.SignedInOnce ∧ server.SpelledAlike p options event := by
  cases event with
  | signIn request answers =>
      cases hroute : signIn p options request answers with
      | ok session =>
          obtain ⟨hfield, htext⟩ := signIn_eq_ok hroute
          have hok : (signIn p options request answers).isOk = true := by rw [hroute]; rfl
          rw [next_signIn hroute, hsound.signedInOnce_addSession hfield, ← htext]
          simp only [SpelledAlike, hok, forall_const]
      | error error =>
          simp [VeraKeyServer.next, SpelledAlike, hroute, Except.isOk, Except.toBool]
  | payment request answers =>
      cases hroute : startPayment options server.paying server.payments request answers with
      | ok paying =>
          rw [next_payment hroute]
          exact (and_iff_left trivial).symm
      | error error => simp [VeraKeyServer.next, SpelledAlike, hroute]
  | paymentAnswered check => exact (and_iff_left trivial).symm
  | other => exact (and_iff_left trivial).symm

/-- Each payment check holds its player's id, so no two of them share a nullifier. -/
theorem paysOnce (hsound : server.Sound) (honce : server.SignedInOnce) : server.PaysOnce := by
  have hmap : server.paying.running.map (fun check => bigInt check.player.id) =
      (server.paying.running.map fun check => check.player.id).map bigInt := by
    rw [List.map_map]
    rfl
  rw [PaysOnce, hmap]
  apply List.Nodup.map_on ?_ server.paying.nodup_keys
  intro left hleft right hright hvalue
  obtain ⟨check, hcheck, rfl⟩ := List.mem_map.mp hleft
  obtain ⟨check', hcheck', rfl⟩ := List.mem_map.mp hright
  obtain ⟨session, hsession, hplayer⟩ := hsound.payers check hcheck
  obtain ⟨session', hsession', hplayer'⟩ := hsound.payers check' hcheck'
  rw [← hplayer, ← hplayer'] at hvalue ⊢
  exact honce session hsession session' hsession' hvalue

end Sound

variable {events : ℕ → KitEvent}

theorem sound_after (hunforged : ∀ n, (after p options events n).Unforged (events n)) (n : ℕ) :
    (after p options events n).Sound :=
  History.run_invariant sound_fresh (fun n hsound => hsound.next (hunforged n)) n

/-- A run keeps the ids apart exactly when it spells each nullifier in one way. -/
theorem signedInOnce_after_iff
    (hunforged : ∀ n, (after p options events n).Unforged (events n)) :
    (∀ n, (after p options events n).SignedInOnce) ↔
      ∀ n, (after p options events n).SpelledAlike p options (events n) := by
  constructor
  · intro honce n
    have hnext := honce (n + 1)
    rw [after_succ, (sound_after hunforged n).signedInOnce_next] at hnext
    exact hnext.2
  · intro halike n
    induction n with
    | zero => simp [SignedInOnce, fresh]
    | succ n ih =>
        rw [after_succ, (sound_after hunforged n).signedInOnce_next]
        exact ⟨ih, halike n⟩

end VeraKeyServer

open VeraKeyServer in
/-- Two accepted results have one player id exactly when they name one nullifier, unless
they spell it in different letter cases; and a run of the server keeps one id and one
payment check for each nullifier exactly when its sign-ins spell each in one way. -/
theorem one_player_one_id (p : Platform) :
    (∀ (chain chain' : ChainClient) (options options' : VerifySignInOptions)
        (result result' : Json),
      (verifySignIn p chain options result).valid = true →
      (verifySignIn p chain' options' result').valid = true →
        (((verifySignIn p chain options result).playerId =
            (verifySignIn p chain' options' result').playerId ↔
          nullifierOf result = nullifierOf result') ↔
            SameSpelling (nullifierText result) (nullifierText result'))) ∧
    ∀ (options : VeraKeyServerOptions) (events : ℕ → KitEvent),
      (∀ n, (after p options events n).Unforged (events n)) →
        ((∀ n, (after p options events n).SignedInOnce ∧ (after p options events n).PaysOnce) ↔
          ∀ n, (after p options events n).SpelledAlike p options (events n)) := by
  constructor
  · intro chain chain' options options' result result' hvalid hvalid'
    exact playerId_eq_iff hvalid hvalid'
  · intro options events hunforged
    rw [← signedInOnce_after_iff hunforged]
    constructor
    · intro hstates n
      exact (hstates n).1
    · intro honce n
      exact ⟨honce n, (sound_after hunforged n).paysOnce (honce n)⟩

/-! ## One passkey, spelled twice -/

namespace SpelledTwice

/-- A sign-in attempt: the nonce's repeated byte, the spelling of the nullifier `0xab` and
the two hashes. -/
structure Attempt where
  nonceByte : UInt8
  nullifier : Bytes
  challenge : B256
  digest : B256

def small : Attempt where
  nonceByte := 0x11
  nullifier := ascii "0x00000000000000000000000000000000000000000000000000000000000000ab"
  challenge := .ofNat 32 0xbdf0ffb7ac2844d10456afacd17ddd0f8b2ac412fa5be0c41030195c66011a92
  digest := .ofNat 32 0x3cff850ffebcf61b3d1d4e87d4112fa4a3386627b818c97e7ec163939233390c

def capital : Attempt where
  nonceByte := 0x22
  nullifier := ascii "0x00000000000000000000000000000000000000000000000000000000000000AB"
  challenge := .ofNat 32 0x3963a0e5e5647821fd0bdd50f83a341e5c02f8ccacd3d3a69da261ffc7d50952
  digest := .ofNat 32 0xe9b80bb0e072f8c37a56ce2200012841431cc63ce8ba80238780b2e7ee61221c

def origin : Bytes := ascii "https://your.game"

def appId : ℕ := 0x143203d6d310d46c6b7d982b27c25d7d8ffb874bfd888e00ac6f5f1af357698c

def deployment : SignInDeployment where
  chainId := 421614
  factory := ascii "0x1111111111111111111111111111111111111111"
  rpIdHash := bytesToHex (List.replicate 32 0x99)
  origin := ascii "https://verakey.xyz"
  honkVerifier := ascii "0x2222222222222222222222222222222222222222"

def account : Bytes := ascii "0x3333333333333333333333333333333333333333"

namespace Attempt

variable (a : Attempt)

def nonce : Bytes := List.replicate 32 a.nonceByte

def clientData : Bytes :=
  ascii "\x7b\"type\":\"webauthn.get\",\"challenge\":\"" ++ base64UrlEncode a.challenge.bytes ++
    ascii "\",\"origin\":\"https://verakey.xyz\"\x7d"

def publicInputs : List Bytes :=
  [a.digest.toNat / 2 ^ 128, a.digest.toNat % 2 ^ 128, beNat (List.replicate 16 0x99),
    beNat (List.replicate 16 0x99), appId, 0xab].map toFieldHex

/-- The result that the browser sends. -/
def result : Json :=
  .obj [(ascii "version", .num (some 1)),
    (ascii "statement", .obj [(ascii "chainId", .num (some 421614)),
      (ascii "factory", .str deployment.factory), (ascii "origin", .str origin),
      (ascii "appId", .str (toFieldHex appId)), (ascii "nullifier", .str a.nullifier),
      (ascii "nonce", .str (bytesToHex a.nonce)), (ascii "issuedAt", .num (some 1790000000)),
      (ascii "expiresAt", .num (some 1790000300))]),
    (ascii "playerId", .str a.nullifier), (ascii "account", .str account),
    (ascii "clientDataJSON", .str (bytesToHex a.clientData)), (ascii "proof", .str (ascii "0x")),
    (ascii "publicInputs", .arr (a.publicInputs.map Json.str))]

/-- The text of `result`. -/
def body : Bytes :=
  ascii "\x7b\"version\":1,\"statement\":\x7b\"chainId\":421614,\"factory\":\"" ++
    deployment.factory ++ ascii "\",\"origin\":\"" ++ origin ++ ascii "\",\"appId\":\"" ++
    toFieldHex appId ++ ascii "\",\"nullifier\":\"" ++ a.nullifier ++ ascii "\",\"nonce\":\"" ++
    bytesToHex a.nonce ++ ascii "\",\"issuedAt\":1790000000,\"expiresAt\":1790000300\x7d," ++
    ascii "\"playerId\":\"" ++ a.nullifier ++ ascii "\",\"account\":\"" ++ account ++
    ascii "\",\"clientDataJSON\":\"" ++ bytesToHex a.clientData ++
    ascii "\",\"proof\":\"0x\",\"publicInputs\":[\"" ++
    (ascii "\",\"").intercalate a.publicInputs ++ ascii "\"]\x7d"

/-- The client data as an object. -/
def parsed : Json :=
  .obj [(ascii "type", .str (ascii "webauthn.get")),
    (ascii "challenge", .str (base64UrlEncode a.challenge.bytes)),
    (ascii "origin", .str deployment.origin)]

end Attempt

def keccak (bytes : Bytes) : B256 :=
  .ofNat 32 <|
    if bytes = signInType then 0xac886c228cf35779f4d0bfbd47f318dffe6d554d2edd0af8d8d6ff3b872fd52d
    else if bytes = origin then 0x1c9542855ae2039d439a4ed93078a57acc020977e8d7d3d6d6980b21fad96a83
    else if bytes = ascii "verakey.origin:" ++ origin then appId
    else if (bytes.drop 192).take 32 = small.nonce then small.challenge.toNat
    else capital.challenge.toNat

def platform : Platform where
  keccak := keccak
  sha256 := fun bytes => if bytes = small.clientData then small.digest else capital.digest
  parseJson := fun bytes => [(small.body, small.result), (capital.body, capital.result),
    (small.clientData, small.parsed), (capital.clientData, capital.parsed)].lookup bytes
  urlOrigin := .ok
  isoDate := fun _ => ascii "2026-09-21T14:18:20.000Z"
  numberText := fun _ => ascii "421614"
  encodingError := ascii "Size of bytes is invalid."

/-- A chain that accepts the proofs and has no code at the account yet. -/
def chain : ChainClient where
  verify := fun _ _ _ => some true
  accountAddress := fun _ _ _ => some account
  getCode := fun _ => some none
  isOwner := fun _ _ => some true

def serverOptions : VeraKeyServerOptions := ⟨origin, deployment, some account, none⟩

def options (a : Attempt) : VerifySignInOptions :=
  signInOptions serverOptions (bytesToHex a.nonce) 1790000000

namespace Attempt

variable (a : Attempt)

def session : Session where
  player := ⟨a.nullifier, account⟩
  sid := hexText (List.replicate 16 a.nonceByte)
  exp := 1790604800

/-- The browser sends `result` with the cookie of its nonce. -/
def signInRequest : KitRequest where
  origin := some origin
  contentLength := a.body.length
  body := a.body
  nonceCookie := some ⟨bytesToHex a.nonce, 1790000300⟩
  sessionCookie := none

def signInAnswers : SignInAnswers where
  readAt := 1790000000
  claim := some true
  verifiedAt := 1790000000
  chain := chain
  refusal := none
  sid := a.session.sid
  signedAt := 1790000000

def pays : KitEvent :=
  .payment ⟨some origin, 0, [], none, some a.session⟩ ⟨1790000010, false, true⟩

theorem signIn_small : signIn platform serverOptions small.signInRequest small.signInAnswers =
    .ok small.session := by
  decide +kernel

theorem signIn_capital :
    signIn platform serverOptions capital.signInRequest capital.signInAnswers =
      .ok capital.session := by
  decide +kernel

theorem accepted_small :
    (verifySignIn platform chain (options small) small.result).valid = true := by
  decide +kernel

theorem accepted_capital :
    (verifySignIn platform chain (options capital) capital.result).valid = true := by
  decide +kernel

end Attempt

open Attempt VeraKeyServer

/-- Two sign-ins of one passkey, then a payment of each session. -/
def twice : ℕ → KitEvent
  | 0 => .signIn small.signInRequest small.signInAnswers
  | 1 => .signIn capital.signInRequest capital.signInAnswers
  | 2 => small.pays
  | 3 => capital.pays
  | _ => .other

theorem next_small : fresh.next platform serverOptions
    (.signIn small.signInRequest small.signInAnswers) =
      ⟨[small.session], KeyedLock.idle, 0⟩ :=
  next_signIn signIn_small

theorem after_two : after platform serverOptions twice 2 =
    ⟨[capital.session, small.session], KeyedLock.idle, 0⟩ := by
  rw [after_succ, after_succ, after_zero, twice, next_small]
  exact next_signIn signIn_capital

theorem sessions_three : (after platform serverOptions twice 3).sessions =
    [capital.session, small.session] := by
  rw [after_succ, after_two]
  exact sessions_next_payment _

theorem running_four : (after platform serverOptions twice 4).paying.running =
    [⟨1, capital.session.player⟩, ⟨0, small.session.player⟩] := by
  rw [after_succ, after_succ, after_two]
  decide +kernel

theorem unforged_twice : ∀ n, (after platform serverOptions twice n).Unforged (twice n)
  | 0 => trivial
  | 1 => trivial
  | 2 => by
      rintro session ⟨⟩
      rw [after_two]
      exact List.mem_cons_of_mem _ List.mem_cons_self
  | 3 => by
      rintro session ⟨⟩
      rw [sessions_three]
      exact List.mem_cons_self
  | n + 4 => trivial

theorem one_passkey_two_ids :
    (verifySignIn platform chain (options small) small.result).valid = true ∧
      (verifySignIn platform chain (options capital) capital.result).valid = true ∧
      nullifierOf small.result = nullifierOf capital.result ∧
      (verifySignIn platform chain (options small) small.result).playerId ≠
        (verifySignIn platform chain (options capital) capital.result).playerId ∧
      (∀ n, (after platform serverOptions twice n).Unforged (twice n)) ∧
      ¬ (after platform serverOptions twice 2).SignedInOnce ∧
      ¬ (after platform serverOptions twice 4).PaysOnce := by
  have hnullifier : nullifierOf small.result = nullifierOf capital.result := by decide +kernel
  have hvalue : bigInt small.nullifier = bigInt capital.nullifier := by decide +kernel
  have hids : small.nullifier ≠ capital.nullifier := by decide +kernel
  have htexts : nullifierText small.result ≠ nullifierText capital.result := by decide +kernel
  refine ⟨accepted_small, accepted_capital, hnullifier, ?_, unforged_twice, ?_, ?_⟩
  · rw [playerId_eq_nullifierText accepted_small, playerId_eq_nullifierText accepted_capital]
    exact htexts
  · rw [SignedInOnce, after_two]
    intro honce
    have hsmall : small.session ∈ [capital.session, small.session] :=
      List.mem_cons_of_mem _ List.mem_cons_self
    have hcapital : capital.session ∈ [capital.session, small.session] := List.mem_cons_self
    exact hids (honce small.session hsmall capital.session hcapital hvalue)
  · rw [PaysOnce, running_four, List.map_cons, List.map_cons, List.map_nil]
    intro hnodup
    apply (List.nodup_cons.mp hnodup).1
    rw [List.mem_singleton]
    exact hvalue.symm

/-- One sign-in, and payments of its session. -/
def once : ℕ → KitEvent
  | 0 => .signIn small.signInRequest small.signInAnswers
  | _ + 1 => small.pays

theorem sessions_once (n : ℕ) :
    (after platform serverOptions once (n + 1)).sessions = [small.session] := by
  induction n with
  | zero => rw [after_succ, after_zero, once, next_small]
  | succ n ih =>
      rw [after_succ, ← ih]
      exact sessions_next_payment _

theorem unforged_once : ∀ n, (after platform serverOptions once n).Unforged (once n)
  | 0 => trivial
  | n + 1 => by
      intro session hsession
      rw [sessions_once, ← Option.some.inj hsession]
      exact List.mem_singleton_self small.session

theorem spelledAlike_once : ∀ n, (after platform serverOptions once n).SpelledAlike platform
    serverOptions (once n)
  | 0 => by
      intro _ session hsession
      exact absurd hsession List.not_mem_nil
  | _ + 1 => trivial

theorem one_player_one_id_sample :
    (((verifySignIn platform chain (options small) small.result).playerId =
        (verifySignIn platform chain (options capital) capital.result).playerId ↔
      nullifierOf small.result = nullifierOf capital.result) ↔
        SameSpelling (nullifierText small.result) (nullifierText capital.result)) ∧
    ∀ n, (after platform serverOptions once n).SignedInOnce ∧
      (after platform serverOptions once n).PaysOnce := by
  obtain ⟨hresults, hruns⟩ := one_player_one_id platform
  refine ⟨?_, (hruns serverOptions once unforged_once).mpr spelledAlike_once⟩
  exact hresults chain chain (options small) (options capital) small.result capital.result
    accepted_small accepted_capital

end SpelledTwice

end Sdk

end VeraKey
