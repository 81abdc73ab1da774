import TradingDesk.Exchange.Basic
import TradingDesk.Json.Printer
import TradingDesk.Json.Record
import TradingDesk.Order.Signed
import TradingDesk.Safe.Call

/-! The JSON forms of what is sent to and comes from the exchange. -/
namespace TradingDesk

namespace Json

def ofWord64 (n : UInt64) : Json := ofNat n.toNat

/-- A member that is left out if there is nothing to tell. -/
def optionalMember (name : String) (j : Option Json) : List (String × Json) :=
  (j.map (name, ·)).toList

/-- A text in plain decimals, or a number by its plain text. -/
def decimal? : Json → Option Decimal
  | string s => (Decimal.parse s).toOption
  | number (.nat n) => Decimal.ofCoeff? n 0
  | number (.negative n) => Decimal.ofCoeff? (-n) 0
  | number (.double x) => (Decimal.parse x.plainText).toOption
  | _ => none

/-- A text, or the list of the 20 bytes. -/
def address? : Json → Option Address
  | string s => (Address.parse s).toOption
  | array items => do
    let bs ← items.mapM byte?
    if bs.length = 20 then return Address.ofBytes bs else none
  | _ => none

def texts? : Json → Option (List String) := list? text?

def texts (ss : List String) : Json := array (ss.map string)

end Json

open Json

def Side.ofJson? (j : Json) : Option Side := j.name? >>= Side.ofName?

def TimeInForce.ofJson? (j : Json) : Option TimeInForce := j.name? >>= TimeInForce.ofName?

def Tick.ofJson? (j : Json) : Option Tick := j.text? >>= fun s => (Tick.parse s).toOption

/-! ### Tickets -/

namespace Ticket

def memberNames : List String :=
  ["tokenID", "price", "size", "side", "feeRateBps", "nonce", "expiration", "taker"]

def toJson (t : Ticket) : Json :=
  object ([("tokenID", string t.tokenId), ("price", string t.price.toText),
    ("size", string t.size.toText), ("side", string t.side.name)] ++
    optionalMember "feeRateBps" (t.feeRate.map ofWord64) ++
    optionalMember "nonce" (t.nonce.map ofWord64) ++
    optionalMember "expiration" (t.expiration.map ofWord64) ++
    optionalMember "taker" (t.taker.map (string ·.lower)))

def ofJson? (j : Json) : Option Ticket := do
  match ← j.fields? memberNames with
  | [tokenId, price, size, side, feeRate, nonce, expiration, taker] =>
    return {
      tokenId := ← required text? tokenId
      price := ← required decimal? price
      size := ← required decimal? size
      side := ← required Side.ofJson? side
      feeRate := ← orNull word64? feeRate
      nonce := ← orNull word64? nonce
      expiration := ← orNull word64? expiration
      taker := ← orNull address? taker }
  | _ => none

end Ticket

/-! ### Order payloads -/

namespace OrderPayload

def memberNames : List String :=
  ["salt", "maker", "signer", "taker", "tokenId", "makerAmount", "takerAmount", "expiration",
    "nonce", "feeRateBps", "side", "signatureType", "signature"]

def toJson (p : OrderPayload) : Json :=
  object [("salt", ofWord64 p.salt), ("maker", string p.maker), ("signer", string p.signer),
    ("taker", string p.taker), ("tokenId", string p.tokenId),
    ("makerAmount", string p.makerAmount), ("takerAmount", string p.takerAmount),
    ("expiration", string p.expiration), ("nonce", string p.nonce),
    ("feeRateBps", string p.feeRate), ("side", string p.side.name),
    ("signatureType", ofNat p.signatureKind.toNat), ("signature", string p.signature)]

def ofJson? (j : Json) : Option OrderPayload := do
  match ← j.fields? memberNames with
  | [salt, maker, signer, taker, tokenId, makerAmount, takerAmount, expiration, nonce, feeRate,
      side, signatureKind, signature] =>
    return {
      salt := ← required word64? salt
      maker := ← required text? maker
      signer := ← required text? signer
      taker := ← required text? taker
      tokenId := ← required text? tokenId
      makerAmount := ← required text? makerAmount
      takerAmount := ← required text? takerAmount
      expiration := ← required text? expiration
      nonce := ← required text? nonce
      feeRate := ← required text? feeRate
      side := ← required Side.ofJson? side
      signatureKind := ← required byte? signatureKind
      signature := ← required text? signature }
  | _ => none

end OrderPayload

/-! ### Answers -/

namespace Exchange

namespace PostResult

def memberNames : List String :=
  ["success", "errorMsg", "orderID", "transactionsHashes", "status", "takingAmount",
    "makingAmount"]

def toJson (r : PostResult) : Json :=
  object [("success", bool r.success), ("errorMsg", string r.errorMessage),
    ("orderID", string r.orderId), ("transactionsHashes", texts r.transactionHashes),
    ("status", string r.status), ("takingAmount", string r.takingAmount),
    ("makingAmount", string r.makingAmount)]

def ofJson? (j : Json) : Option PostResult := do
  match ← j.fields? memberNames with
  | [success, errorMessage, orderId, transactionHashes, status, takingAmount, makingAmount] =>
    return {
      success := ← withDefault false bool? success
      errorMessage := ← withDefault "" text? errorMessage
      orderId := ← withDefault "" text? orderId
      transactionHashes := ← withDefault [] texts? transactionHashes
      status := ← withDefault "" text? status
      takingAmount := ← withDefault "" text? takingAmount
      makingAmount := ← withDefault "" text? makingAmount }
  | _ => none

end PostResult

namespace OpenOrder

def memberNames : List String :=
  ["id", "status", "owner", "maker_address", "market", "asset_id", "side", "original_size",
    "size_matched", "price", "outcome", "expiration", "order_type", "associate_trades",
    "created_at"]

def ofInt (i : Int) : Json := number (if 0 ≤ i then .nat i.natAbs else .negative i.natAbs)

def toJson (o : OpenOrder) : Json :=
  object [("id", string o.id), ("status", string o.status), ("owner", string o.owner),
    ("maker_address", string o.makerAddress), ("market", string o.market),
    ("asset_id", string o.assetId), ("side", string o.side),
    ("original_size", string o.originalSize), ("size_matched", string o.sizeMatched),
    ("price", string o.price), ("outcome", string o.outcome),
    ("expiration", string o.expiration), ("order_type", string o.orderType),
    ("associate_trades", texts o.associateTrades), ("created_at", ofInt o.createdAt)]

def ofJson? (j : Json) : Option OpenOrder := do
  match ← j.fields? memberNames with
  | [id, status, owner, makerAddress, market, assetId, side, originalSize, sizeMatched, price,
      outcome, expiration, orderType, associateTrades, createdAt] =>
    return {
      id := ← withDefault "" text? id
      status := ← withDefault "" text? status
      owner := ← withDefault "" text? owner
      makerAddress := ← withDefault "" text? makerAddress
      market := ← withDefault "" text? market
      assetId := ← withDefault "" text? assetId
      side := ← withDefault "" text? side
      originalSize := ← withDefault "" text? originalSize
      sizeMatched := ← withDefault "" text? sizeMatched
      price := ← withDefault "" text? price
      outcome := ← withDefault "" text? outcome
      expiration := ← withDefault "" text? expiration
      orderType := ← withDefault "" text? orderType
      associateTrades := ← withDefault [] texts? associateTrades
      createdAt := ← withDefault 0 signed64? createdAt }
  | _ => none

end OpenOrder

namespace Page

def memberNames : List String := ["data", "next_cursor", "limit", "count"]

def toJson (p : Page) : Json :=
  object [("data", array (p.orders.map OpenOrder.toJson)), ("next_cursor", string p.nextCursor),
    ("limit", ofWord64 p.limit), ("count", ofWord64 p.count)]

def ofJson? (j : Json) : Option Page := do
  match ← j.fields? memberNames with
  | [orders, nextCursor, limit, count] =>
    return {
      orders := ← withDefault [] (list? OpenOrder.ofJson?) orders
      nextCursor := ← withDefault "" text? nextCursor
      limit := ← withDefault 0 word64? limit
      count := ← withDefault 0 word64? count }
  | _ => none

end Page

def CancelResult.ofJson? (j : Json) : Option CancelResult := do
  match ← j.fields? ["canceled", "not_canceled"] with
  | [cancelled, notCancelled] =>
    return ⟨← withDefault [] texts? cancelled, ← withDefault [] table? notCancelled⟩
  | _ => none

end Exchange
end TradingDesk
