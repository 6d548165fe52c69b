/-
The four statements a passkey signs: an account's action, a sign-in, a disclosure
that two accounts are linked, and the validator's ERC-1271 message.  Equal preimages
come from equal statements of one kind.
-/
import VeraKey.Abi
import VeraKey.Action
import VeraKey.Validator

namespace VeraKey

open ByteCodec

namespace Sdk

/-! ## Sign-in -/

/-- The signature hashed into `SIGN_IN_TYPEHASH`. -/
def signInType : Bytes :=
  ascii "VeraKeySignIn(uint256 chainId,address factory,bytes32 origin,bytes32 appId," ++
    ascii "bytes32 nullifier,bytes32 nonce,uint64 issuedAt,uint64 expiresAt)"

/-- A sign-in statement; a hex text stands as the bytes it spells. -/
@[ext]
structure SignInStatement where
  chainId : ℤ
  factory : Address
  origin : Bytes
  appId : Bytes
  nullifier : Bytes
  nonce : Bytes
  issuedAt : ℤ
  expiresAt : ℤ
deriving DecidableEq

def signInLayout : List Abi.StaticType :=
  [.bytes32, .uint 256, .address, .bytes32, .bytes32, .bytes32, .bytes32, .uint 64, .uint 64]

def SignInStatement.values (keccak : Bytes → B256) (statement : SignInStatement) :
    List Abi.Value :=
  [.bytes (keccak signInType).bytes, .int statement.chainId, .address statement.factory,
    .bytes (keccak statement.origin).bytes, .bytes statement.appId,
    .bytes statement.nullifier, .bytes statement.nonce, .int statement.issuedAt,
    .int statement.expiresAt]

/-- What `signInChallenge` hashes; nothing when a field is out of range. -/
def signInPreimage (keccak : Bytes → B256) (statement : SignInStatement) : Option Bytes :=
  Abi.encode signInLayout (statement.values keccak)

def signInChallenge (keccak : Bytes → B256) (statement : SignInStatement) : Option B256 :=
  (signInPreimage keccak statement).map keccak

/-! ## Link disclosure -/

/-- The signature hashed into `LINK_DISCLOSURE_TYPEHASH`. -/
def linkDisclosureType : Bytes :=
  ascii "VeraKeyLinkDisclosure(uint256 chainId,address factory,bytes32 appIdA," ++
    ascii "bytes32 nullifierA,bytes32 appIdB,bytes32 nullifierB,bytes32 audience," ++
    ascii "bytes32 nonce,uint64 expiresAt)"

@[ext]
structure LinkStatement where
  chainId : ℤ
  factory : Address
  appIdA : Bytes
  nullifierA : Bytes
  appIdB : Bytes
  nullifierB : Bytes
  audience : Bytes
  nonce : Bytes
  expiresAt : ℤ
deriving DecidableEq

def linkDisclosureLayout : List Abi.StaticType :=
  [.bytes32, .uint 256, .address, .bytes32, .bytes32, .bytes32, .bytes32, .bytes32, .bytes32,
    .uint 64]

def LinkStatement.values (keccak : Bytes → B256) (statement : LinkStatement) :
    List Abi.Value :=
  [.bytes (keccak linkDisclosureType).bytes, .int statement.chainId,
    .address statement.factory, .bytes statement.appIdA, .bytes statement.nullifierA,
    .bytes statement.appIdB, .bytes statement.nullifierB,
    .bytes (keccak statement.audience).bytes, .bytes statement.nonce,
    .int statement.expiresAt]

/-- What `linkDisclosureChallenge` hashes. -/
def linkDisclosurePreimage (keccak : Bytes → B256) (statement : LinkStatement) :
    Option Bytes :=
  Abi.encode linkDisclosureLayout (statement.values keccak)

def linkDisclosureChallenge (keccak : Bytes → B256) (statement : LinkStatement) :
    Option B256 :=
  (linkDisclosurePreimage keccak statement).map keccak

end Sdk

/-! ## Statements of every kind -/

inductive Statement
  | action (action : Action)
  | signIn (statement : Sdk.SignInStatement)
  | link (statement : Sdk.LinkStatement)
  | erc1271 (chainId : U256) (account : Address) (hash : B256)

namespace Statement

/-- The bytes that are hashed into the challenge. -/
def preimage (keccak : Bytes → B256) : Statement → Option Bytes
  | action a => some a.encode
  | signIn statement => Sdk.signInPreimage keccak statement
  | link statement => Sdk.linkDisclosurePreimage keccak statement
  | erc1271 chainId account hash =>
      some (VeraKeyValidator.erc1271Preimage keccak chainId account hash)

def challenge (keccak : Bytes → B256) : Statement → Option B256
  | action a => some (keccak a.encode)
  | signIn statement => Sdk.signInChallenge keccak statement
  | link statement => Sdk.linkDisclosureChallenge keccak statement
  | erc1271 chainId account hash =>
      some (VeraKeyValidator.erc1271Challenge keccak chainId account hash)

/-- One kind, and one value in every field; an origin or an audience counts by its hash. -/
def Agrees (keccak : Bytes → B256) : Statement → Statement → Prop
  | action a, action b => a = b
  | signIn s, signIn t => keccak s.origin = keccak t.origin ∧ { s with origin := t.origin } = t
  | link s, link t =>
      keccak s.audience = keccak t.audience ∧ { s with audience := t.audience } = t
  | erc1271 chainId account hash, erc1271 chainId' account' hash' =>
      chainId = chainId' ∧ account = account' ∧ hash = hash'
  | _, _ => False

/-- The preimage, word by word. -/
def words (keccak : Bytes → B256) : Statement → Option (List Bytes)
  | action a => some a.words
  | signIn statement => Abi.words Sdk.signInLayout (statement.values keccak)
  | link statement => Abi.words Sdk.linkDisclosureLayout (statement.values keccak)
  | erc1271 chainId account hash =>
      some (VeraKeyValidator.erc1271Words keccak chainId account hash)

variable {keccak : Bytes → B256} {left right : Statement} {texts texts' : List Bytes}

theorem preimage_eq_flatten (statement : Statement) :
    statement.preimage keccak = (statement.words keccak).map List.flatten := by
  cases statement <;> rfl

theorem challenge_eq_hash (statement : Statement) :
    statement.challenge keccak = (statement.preimage keccak).map keccak := by
  cases statement <;> rfl

theorem length_of_mem_words {statement : Statement}
    (hwords : statement.words keccak = some texts) : ∀ text ∈ texts, text.length = 32 := by
  cases statement with
  | action a =>
      rw [← Option.some.inj hwords]
      exact a.length_of_mem_words
  | signIn statement => exact Abi.length_of_mem_words hwords
  | link statement => exact Abi.length_of_mem_words hwords
  | erc1271 chainId account hash =>
      rw [← Option.some.inj hwords]
      simp [VeraKeyValidator.erc1271Words]

def wordCount : Statement → ℕ
  | action _ => 10
  | signIn _ => 9
  | link _ => 10
  | erc1271 .. => 4

theorem length_words {statement : Statement} (hwords : statement.words keccak = some texts) :
    texts.length = statement.wordCount := by
  cases statement with
  | action a => rw [← Option.some.inj hwords]; rfl
  | signIn statement => exact Abi.length_words hwords
  | link statement => exact Abi.length_words hwords
  | erc1271 chainId account hash => rw [← Option.some.inj hwords]; rfl

/-- A disclosure starts with its own type hash. -/
theorem head_linkWords {statement : Sdk.LinkStatement}
    (hwords : (link statement).words keccak = some texts) :
    texts.head? = some (keccak Sdk.linkDisclosureType).bytes := by
  obtain ⟨value, rest, first, others, hvalues, rfl, hfirst, -⟩ :=
    Abi.words_cons_eq_some.mp hwords
  obtain ⟨-, hvalue⟩ := Abi.word_bytes32.mp hfirst
  rw [← List.head_eq_of_cons_eq hvalues, Abi.Value.bytes.injEq] at hvalue
  rw [List.head?_cons, hvalue]

/-- Actions and disclosures have equally many words, but not the same first one. -/
theorem action_words_ne_link (haction : (keccak actionType).bytes = actionTypehash)
    (htypes : Set.InjOn keccak {actionType, Sdk.linkDisclosureType}) {a : Action}
    {statement : Sdk.LinkStatement} (hlink : (link statement).words keccak = some texts) :
    a.words ≠ texts := by
  rintro rfl
  have hhead : actionTypehash = (keccak Sdk.linkDisclosureType).bytes :=
    Option.some.inj (head_linkWords hlink)
  have hhash : keccak actionType = keccak Sdk.linkDisclosureType :=
    FixedBytes.ext (haction.trans hhead)
  have htype : actionType = Sdk.linkDisclosureType :=
    htypes (Set.mem_insert _ _) (Set.mem_insert_of_mem _ rfl) hhash
  exact absurd (congrArg List.length htype) (by decide +kernel)

theorem agrees_of_signInWords {s t : Sdk.SignInStatement}
    (hleft : (signIn s).words keccak = some texts)
    (hright : (signIn t).words keccak = some texts) : (signIn s).Agrees keccak (signIn t) := by
  have hvalues := Abi.words_inj (by decide) hleft hright
  simp only [Sdk.SignInStatement.values, List.cons.injEq, Abi.Value.int.injEq,
    Abi.Value.bytes.injEq, Abi.Value.address.injEq, true_and, and_true] at hvalues
  obtain ⟨hchain, hfactory, horigin, happ, hnullifier, hnonce, hissued, hexpires⟩ := hvalues
  exact ⟨FixedBytes.ext horigin, Sdk.SignInStatement.ext hchain hfactory rfl happ hnullifier
    hnonce hissued hexpires⟩

theorem agrees_of_linkWords {s t : Sdk.LinkStatement}
    (hleft : (link s).words keccak = some texts)
    (hright : (link t).words keccak = some texts) : (link s).Agrees keccak (link t) := by
  have hvalues := Abi.words_inj (by decide) hleft hright
  simp only [Sdk.LinkStatement.values, List.cons.injEq, Abi.Value.int.injEq,
    Abi.Value.bytes.injEq, Abi.Value.address.injEq, true_and, and_true] at hvalues
  obtain ⟨hchain, hfactory, happA, hnullifierA, happB, hnullifierB, haudience, hnonce,
    hexpires⟩ := hvalues
  exact ⟨FixedBytes.ext haudience, Sdk.LinkStatement.ext hchain hfactory happA hnullifierA happB
    hnullifierB rfl hnonce hexpires⟩

theorem agrees_of_erc1271Words {chainId chainId' : U256} {account account' : Address}
    {hash hash' : B256} (heq : VeraKeyValidator.erc1271Words keccak chainId account hash =
      VeraKeyValidator.erc1271Words keccak chainId' account' hash') :
    chainId = chainId' ∧ account = account' ∧ hash = hash' := by
  simp only [VeraKeyValidator.erc1271Words, List.cons.injEq, true_and, and_true] at heq
  obtain ⟨hchain, haccount, hhash⟩ := heq
  exact ⟨U256.toBeBytes_inj hchain, addressWord_inj haccount, FixedBytes.ext hhash⟩

/-- Statements with the same words agree. -/
theorem agrees_of_words (haction : (keccak actionType).bytes = actionTypehash)
    (htypes : Set.InjOn keccak {actionType, Sdk.linkDisclosureType})
    (hleft : left.words keccak = some texts) (hright : right.words keccak = some texts) :
    left.Agrees keccak right := by
  have hcount : left.wordCount = right.wordCount :=
    (length_words hleft).symm.trans (length_words hright)
  cases left with
  | action a =>
      cases right with
      | action b =>
          exact Action.words_inj (Option.some.inj (hleft.trans hright.symm))
      | link t =>
          exact absurd (Option.some.inj hleft) (action_words_ne_link haction htypes hright)
      | signIn t => simp [wordCount] at hcount
      | erc1271 => simp [wordCount] at hcount
  | signIn s =>
      cases right with
      | signIn t => exact agrees_of_signInWords hleft hright
      | action b => simp [wordCount] at hcount
      | link t => simp [wordCount] at hcount
      | erc1271 => simp [wordCount] at hcount
  | link s =>
      cases right with
      | link t => exact agrees_of_linkWords hleft hright
      | action b =>
          exact absurd (Option.some.inj hright) (action_words_ne_link haction htypes hleft)
      | signIn t => simp [wordCount] at hcount
      | erc1271 => simp [wordCount] at hcount
  | erc1271 chainId account hash =>
      cases right with
      | erc1271 chainId' account' hash' =>
          exact agrees_of_erc1271Words (Option.some.inj (hleft.trans hright.symm))
      | action b => simp [wordCount] at hcount
      | signIn t => simp [wordCount] at hcount
      | link t => simp [wordCount] at hcount

/-- An approval of one statement approves no other: equal preimages, and equal
challenges unless these two preimages collide, come from statements that agree. -/
theorem challenges_domain_separated (haction : (keccak actionType).bytes = actionTypehash)
    (htypes : Set.InjOn keccak {actionType, Sdk.linkDisclosureType}) {text text' : Bytes}
    (hleft : left.preimage keccak = some text) (hright : right.preimage keccak = some text') :
    (text = text' → left.Agrees keccak right) ∧
      (Set.InjOn keccak {text, text'} →
        left.challenge keccak = right.challenge keccak → left.Agrees keccak right) := by
  have hpreimage : text = text' → left.Agrees keccak right := by
    intro heq
    rw [preimage_eq_flatten, Option.map_eq_some_iff] at hleft hright
    obtain ⟨texts, hwords, rfl⟩ := hleft
    obtain ⟨texts', hwords', rfl⟩ := hright
    obtain rfl := flatten_inj (by decide) (length_of_mem_words hwords)
      (length_of_mem_words hwords') heq
    exact agrees_of_words haction htypes hwords hwords'
  refine ⟨hpreimage, fun hcollision heq => ?_⟩
  rw [challenge_eq_hash, challenge_eq_hash, hleft, hright, Option.map_some, Option.map_some]
    at heq
  exact hpreimage (hcollision (Set.mem_insert _ _) (Set.mem_insert_of_mem _ rfl)
    (Option.some.inj heq))

end Statement

/-! A payment and a disclosure of one account. -/

namespace TypedStatements

open Statement

def keccak (text : Bytes) : B256 :=
  if text = actionType then
    .ofNat 32 0x49b7518511223ff24d5bc31d137cf0f65784f0570d50aee38dc053784e2b514d
  else if text = Sdk.linkDisclosureType then
    .ofNat 32 0x1eb849b8573298b23389b6b46b8f0ddcff44e1939025d002ba6d7b974f63afdb
  else .ofNat 32 0x3a1a82ebc013857f1edaf17ac1c9c8083a1cb82ca08c09918533ae729f259bde

def payment : Action where
  chainId := 421614
  account := .ofNat 20 0xaa
  nonce := 7
  kind := Kind.pay
  target := .ofNat 20 0xbb
  amount := 2500000
  dataHash := 0
  fee := 10000
  deadline := 1790000000

def disclosure : Sdk.LinkStatement where
  chainId := 421614
  factory := .ofNat 20 0xaa
  appIdA := beBytes 32 7
  nullifierA := beBytes 32 1
  appIdB := beBytes 32 0xbb
  nullifierB := beBytes 32 2500000
  audience := ascii "compliance@exchange.example"
  nonce := beBytes 32 10000
  expiresAt := 1790000000

theorem challenges_domain_separated_sample :
    (action payment).preimage keccak ≠ (link disclosure).preimage keccak := by
  have haction : (keccak actionType).bytes = actionTypehash := by decide +kernel
  have htypes : Set.InjOn keccak {actionType, Sdk.linkDisclosureType} := by
    rw [Set.injOn_pair]
    exact fun heq => absurd heq (by decide +kernel)
  have hpayment : (action payment).preimage keccak = some payment.encode := rfl
  intro heq
  exact (challenges_domain_separated haction htypes hpayment (heq.symm.trans hpayment)).1 rfl

end TypedStatements

end VeraKey
