import TradingDesk.Proofs.Address
import TradingDesk.Proofs.Session
import TradingDesk.Proofs.Text.Numeral
import TradingDesk.Order.Signed

/-! What is handed in is what was signed. An order takes part in its digest as words and in its
payload as texts; read back from the texts, with each absent number as zero, it is the order again
and has the same digest. So the payload, the signature aside, says neither more nor less than the
order that was signed. -/

namespace TradingDesk

namespace SignatureKind

theorem toNat_ofNat_code (k : SignatureKind) : (UInt8.ofNat k.code).toNat = k.code := by
  cases k with
  | account => rfl
  | proxy => rfl
  | safe => rfl

theorem ofCode?_code (k : SignatureKind) : ofCode? k.code = some k := by
  cases k with
  | account => rfl
  | proxy => rfl
  | safe => rfl

end SignatureKind

/-! ### Reading a payload -/

namespace OrderPayload

def word? (text : String) : Option Word := (Word.read text).toOption

def number? (text : String) : Option UInt64 := (Numeral.below64? text).map UInt64.ofNat

/-- The order that the payload `p` tells of; a number is never absent from it. -/
def order? (p : OrderPayload) : Option Order := do
  return {
    salt := p.salt
    maker := ← Address.ofChecksummed? p.maker
    signer := ← Address.ofChecksummed? p.signer
    taker := ← Address.ofChecksummed? p.taker
    tokenId := ← word? p.tokenId
    makerAmount := ← word? p.makerAmount
    takerAmount := ← word? p.takerAmount
    expiration := some (← number? p.expiration)
    nonce := some (← number? p.nonce)
    feeRate := some (← number? p.feeRate)
    side := p.side
    signatureKind := ← SignatureKind.ofCode? p.signatureKind.toNat }

/-- The members of the signed type as `p` tells of them, each with its word. -/
def members? (p : OrderPayload) : Option (List (String × Word)) := do
  return [
    ("uint256 salt", wordOfNat p.salt.toNat),
    ("address maker", (← Address.ofChecksummed? p.maker).toWord),
    ("address signer", (← Address.ofChecksummed? p.signer).toWord),
    ("address taker", (← Address.ofChecksummed? p.taker).toWord),
    ("uint256 tokenId", ← word? p.tokenId),
    ("uint256 makerAmount", ← word? p.makerAmount),
    ("uint256 takerAmount", ← word? p.takerAmount),
    ("uint256 expiration", wordOfNat (← number? p.expiration).toNat),
    ("uint256 nonce", wordOfNat (← number? p.nonce).toNat),
    ("uint256 feeRateBps", wordOfNat (← number? p.feeRate).toNat),
    ("uint8 side", wordOfNat p.side.code),
    ("uint8 signatureType", wordOfNat p.signatureKind.toNat)]

/-- The digest of `p` for the exchange that it is handed in to. Its type is spelled from the names
of the members. -/
def digest? (p : OrderPayload) (c : Chain) (negRisk : Bool) : Option Word :=
  p.members?.map fun ms =>
    typedDataHash (Domain.exchange c.id (c.exchange negRisk)).separator
      (structHash ("Order(" ++ ",".intercalate (ms.map Prod.fst) ++ ")") (ms.map Prod.snd))

def unsigned (p : OrderPayload) : OrderPayload := { p with signature := "" }

theorem order?_unsigned (p : OrderPayload) : p.unsigned.order? = p.order? := rfl

theorem word?_toText (w : Word) : word? w.toText = some w := by
  rw [word?, Word.read_toText]
  rfl

theorem number?_numeral (x : Option UInt64) :
    number? (SignedOrder.numeral x) = some (x.getD 0) := by
  rw [number?, SignedOrder.numeral, Numeral.below64?_ofNat, Option.map_some, UInt64.ofNat_toNat]

end OrderPayload

/-! ### The payload of an order -/

/-- The names of the members, with their types. -/
def Order.memberNames : List String :=
  ["uint256 salt", "address maker", "address signer", "address taker", "uint256 tokenId",
    "uint256 makerAmount", "uint256 takerAmount", "uint256 expiration", "uint256 nonce",
    "uint256 feeRateBps", "uint8 side", "uint8 signatureType"]

theorem Order.typeText_eq : "Order(" ++ ",".intercalate memberNames ++ ")" = typeText := by
  decide +kernel

namespace SignedOrder

theorem order?_payload (s : SignedOrder) : s.payload.order? = some s.order.filled := by
  simp only [OrderPayload.order?, payload, Address.ofChecksummed?_checksummed,
    OrderPayload.word?_toText, OrderPayload.number?_numeral, SignatureKind.toNat_ofNat_code,
    SignatureKind.ofCode?_code]
  rfl

theorem members?_payload (s : SignedOrder) :
    s.payload.members? = some (Order.memberNames.zip s.order.members) := by
  simp only [OrderPayload.members?, payload, Address.ofChecksummed?_checksummed,
    OrderPayload.word?_toText, OrderPayload.number?_numeral, SignatureKind.toNat_ofNat_code]
  rfl

theorem digest?_payload (s : SignedOrder) (c : Chain) (negRisk : Bool) :
    s.payload.digest? c negRisk = some (s.order.digest c.id (c.exchange negRisk)) := by
  have hnames : (Order.memberNames.zip s.order.members).map Prod.fst = Order.memberNames :=
    List.map_fst_zip (by simp [Order.memberNames, Order.members])
  have hwords : (Order.memberNames.zip s.order.members).map Prod.snd = s.order.members :=
    List.map_snd_zip (by simp [Order.memberNames, Order.members])
  rw [OrderPayload.digest?, members?_payload, Option.map_some, hnames, hwords,
    Order.typeText_eq]
  rfl

/-- The texts of the payload of `s` do not tell an absent number from zero. -/
theorem unsigned_payload_eq (s : SignedOrder) :
    s.payload.unsigned = (payload ⟨s.order.filled, "", false⟩).unsigned := rfl

theorem unsigned_payload_inj {a b : SignedOrder} :
    a.payload.unsigned = b.payload.unsigned ↔ a.order.filled = b.order.filled := by
  constructor
  · intro h
    have horder := congrArg OrderPayload.order? h
    rw [OrderPayload.order?_unsigned, OrderPayload.order?_unsigned, order?_payload,
      order?_payload] at horder
    exact Option.some.inj horder
  · intro h
    rw [unsigned_payload_eq a, unsigned_payload_eq b, h]

end SignedOrder

/-! ### Signing -/

namespace OrderSigner

variable {σ : Type}

theorem run_sign_eq_ok {s : OrderSigner} {o : Order} {negRisk : Bool} {w : World}
    {log after : Log σ} {signed : SignedOrder} :
    (s.sign o negRisk).run w log = (.ok signed, after) ↔
      ∃ g : Signature, w.sign log.events o.signer (s.digest o negRisk) = .ok g.bytes ∧
        signed = ⟨o, g.toText, negRisk⟩ ∧
        after = { log with events := log.events ++ [.asked o.signer (s.digest o negRisk)] } := by
  rw [sign, Session.run_bind_eq_ok]
  constructor
  · rintro ⟨g, next, hsign, hpure⟩
    obtain ⟨hanswer, rfl⟩ := Session.run_signature_eq_ok.1 hsign
    cases hpure
    exact ⟨g, hanswer, rfl, rfl⟩
  · rintro ⟨g, hanswer, rfl, rfl⟩
    exact ⟨g, _, Session.run_signature_eq_ok.2 ⟨hanswer, rfl⟩, rfl⟩

/-- The signer of `s` is asked once, whatever the answer. -/
theorem run_sign_log (s : OrderSigner) (o : Order) (negRisk : Bool) (w : World) (log : Log σ) :
    ((s.sign o negRisk).run w log).2 =
      { log with events := log.events ++ [.asked o.signer (s.digest o negRisk)] } := by
  rw [sign, Session.run_bind, Session.run_signature]
  generalize (do (Signature.ofBytes (← w.sign _ _ _)).mapError _ : Except Error Signature) = answer
  cases answer with
  | error e => rfl
  | ok g => rfl

/-- A ticket `t` that makes no order is not asked about, nor is a salt drawn for it. -/
theorem run_create (s : OrderSigner) (t : Ticket) (tif : TimeInForce) (tick : Tick)
    (negRisk : Bool) (w : World) (log : Log σ) :
    (s.create t tif tick negRisk).run w log =
      match t.build s.trader s.chain.contracts tif tick with
      | .error e => (.error e, log)
      | .ok o => (s.sign { o with salt := w.random log.events % 9007199254740992 } negRisk).run w
          { log with events := log.events ++ [.saltDrawn] } := by
  rw [create, Session.run_bind, Session.run_ofExcept]
  cases t.build s.trader s.chain.contracts tif tick with
  | error e => rfl
  | ok o =>
    dsimp only
    rw [Session.run_bind, Session.run_drawSalt]

/-- An order `o` that comes back signed is read from its payload as it was signed, with each absent
number as zero; and the one digest that the signer was asked about is the digest of the payload for
the exchange of the market. Payloads, the signature aside, are equal just for orders that are equal
with their absent numbers as zero. -/
theorem payload_of_sign (s : OrderSigner) (o : Order) (negRisk : Bool) (w : World)
    (log after : Log σ) (signed : SignedOrder)
    (h : (s.sign o negRisk).run w log = (.ok signed, after)) :
    (signed.payload.order? = some o.filled ∧
      ∃ (digest : Word) (g : Signature),
        after = { log with events := log.events ++ [.asked o.signer digest] } ∧
        w.sign log.events o.signer digest = .ok g.bytes ∧
        signed.payload.signature = g.toText ∧
        signed.payload.digest? s.chain negRisk = some digest) ∧
    ∀ a b : SignedOrder,
      a.payload.unsigned = b.payload.unsigned ↔ a.order.filled = b.order.filled := by
  obtain ⟨g, hanswer, rfl, rfl⟩ := run_sign_eq_ok.1 h
  refine ⟨⟨SignedOrder.order?_payload _, s.digest o negRisk, g, rfl, hanswer, rfl, ?_⟩, ?_⟩
  · exact SignedOrder.digest?_payload _ s.chain negRisk
  · intro a b
    exact SignedOrder.unsigned_payload_inj

/-- An order without a nonce and without an end, for the owner of a Safe. -/
def openEnded : Order where
  salt := 999
  maker := .ofNat 0xaacFeEa03eb1561C4e67d661e40682Bd20E3541b
  signer := .ofNat 0xf39Fd6e51aad88F6F4ce6aB8827279cffFb92266
  taker := .zero
  tokenId := 123
  makerAmount := 14000000
  takerAmount := 100000000
  expiration := none
  nonce := none
  feeRate := some 10
  side := .sell
  signatureKind := .safe

/-- A signer that signs all that it is asked. -/
def willing : World where
  respond := fun _ _ => .error .connection
  sign := fun _ _ _ => .ok (List.replicate 65 27)
  clock := fun _ => 0
  random := fun _ => 0

def ofSafe : OrderSigner := ⟨⟨openEnded.signer, some openEnded.maker, .safe⟩, .polygon⟩

theorem payload_of_sign_openEnded :
    ∃ (signed : SignedOrder) (after : Log Unit),
      (ofSafe.sign openEnded true).run willing ⟨(), []⟩ = (.ok signed, after) ∧
      signed.payload.order? =
        some { openEnded with expiration := some 0, nonce := some 0, feeRate := some 10 } := by
  obtain ⟨signed, after, hrun⟩ : ∃ (signed : SignedOrder) (after : Log Unit),
      (ofSafe.sign openEnded true).run willing ⟨(), []⟩ = (.ok signed, after) :=
    ⟨_, _, run_sign_eq_ok.2 ⟨⟨List.replicate 65 27, rfl⟩, rfl, rfl, rfl⟩⟩
  refine ⟨signed, after, hrun, ?_⟩
  exact (payload_of_sign ofSafe openEnded true willing _ after signed hrun).1.1

end OrderSigner
end TradingDesk
