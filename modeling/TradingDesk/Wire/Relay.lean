import TradingDesk.Relay.Basic
import TradingDesk.Wire.Order

/-! The JSON forms of what is sent to and comes from the relayer. -/
namespace TradingDesk

open Json

/-! ### Calls -/

def Operation.ofJson? (j : Json) : Option Operation := do
  (Operation.ofCode (← j.byte?)).toOption

namespace SafeCall

def memberNames : List String := ["to", "operation", "data", "value"]

def toJson (c : SafeCall) : Json :=
  object [("to", string c.target.lower), ("operation", ofNat c.operation.code.toNat),
    ("data", string c.data), ("value", string c.value)]

def ofJson? (j : Json) : Option SafeCall := do
  match ← j.fields? memberNames with
  | [target, operation, data, value] =>
    return ⟨← required address? target, ← required Operation.ofJson? operation, ← required text? data,
      ← required text? value⟩
  | _ => none

end SafeCall

namespace Relay

def Kind.ofJson? (j : Json) : Option Kind := j.name? >>= Kind.ofName?

/-- Only a known state may be given as an object. -/
def State.ofJson? : Json → Option State
  | string s => some (ofName s)
  | j => j.name? >>= ofKnownName?

/-! ### Submissions -/

namespace Params

def memberNames : List String :=
  ["gasPrice", "operation", "safeTxnGas", "baseGas", "gasToken", "refundReceiver",
    "paymentToken", "payment", "paymentReceiver"]

def toJson (p : Params) : Json :=
  object ((memberNames.zip [p.gasPrice, p.operation, p.safeTxnGas, p.baseGas, p.gasToken,
    p.refundReceiver, p.paymentToken, p.payment, p.paymentReceiver]).flatMap fun m =>
      optionalMember m.1 (m.2.map string))

def ofJson? (j : Json) : Option Params := do
  match ← j.fields? memberNames with
  | [gasPrice, operation, safeTxnGas, baseGas, gasToken, refundReceiver, paymentToken, payment,
      paymentReceiver] =>
    return {
      gasPrice := ← orNull text? gasPrice
      operation := ← orNull text? operation
      safeTxnGas := ← orNull text? safeTxnGas
      baseGas := ← orNull text? baseGas
      gasToken := ← orNull text? gasToken
      refundReceiver := ← orNull text? refundReceiver
      paymentToken := ← orNull text? paymentToken
      payment := ← orNull text? payment
      paymentReceiver := ← orNull text? paymentReceiver }
  | _ => none

end Params

namespace Submission

def memberNames : List String :=
  ["type", "from", "to", "proxyWallet", "data", "nonce", "signature", "signatureParams",
    "metadata"]

def toJson (s : Submission) : Json :=
  object ([("type", string s.kind.name), ("from", string s.sender), ("to", string s.target)] ++
    optionalMember "proxyWallet" (s.proxyWallet.map string) ++
    [("data", string s.data)] ++
    optionalMember "nonce" (s.nonce.map string) ++
    [("signature", string s.signature), ("signatureParams", s.params.toJson)] ++
    optionalMember "metadata" (s.metadata.map string))

def ofJson? (j : Json) : Option Submission := do
  match ← j.fields? memberNames with
  | [kind, sender, target, proxyWallet, data, nonce, signature, params, metadata] =>
    return {
      kind := ← required Kind.ofJson? kind
      sender := ← required text? sender
      target := ← required text? target
      proxyWallet := ← orNull text? proxyWallet
      data := ← required text? data
      nonce := ← orNull text? nonce
      signature := ← required text? signature
      params := ← required Params.ofJson? params
      metadata := ← orNull text? metadata }
  | _ => none

end Submission

/-! ### Answers -/

def instant? (j : Json) : Option Instant := j.text? >>= Instant.parse?

namespace Transaction

def memberNames : List String :=
  ["transactionID", "transactionHash", "from", "to", "proxyAddress", "data", "nonce", "value",
    "state", "type", "metadata", "createdAt", "updatedAt"]

def instantJson (i : Option Instant) : Json := (i.map (string ·.toText)).getD null

def toJson (t : Transaction) : Json :=
  object [("transactionID", string t.id), ("transactionHash", string t.hash),
    ("from", string t.sender), ("to", string t.target), ("proxyAddress", string t.proxyAddress),
    ("data", string t.data), ("nonce", string t.nonce), ("value", string t.value),
    ("state", string t.state.name), ("type", string t.kind), ("metadata", string t.metadata),
    ("createdAt", instantJson t.createdAt), ("updatedAt", instantJson t.updatedAt)]

def ofJson? (j : Json) : Option Transaction := do
  match ← j.fields? memberNames with
  | [id, hash, sender, target, proxyAddress, data, nonce, value, state, kind, metadata, createdAt,
      updatedAt] =>
    return {
      id := ← required text? id
      hash := ← withDefault "" text? hash
      sender := ← withDefault "" text? sender
      target := ← withDefault "" text? target
      proxyAddress := ← withDefault "" text? proxyAddress
      data := ← withDefault "" text? data
      nonce := ← withDefault "" text? nonce
      value := ← withDefault "" text? value
      state := ← required State.ofJson? state
      kind := ← withDefault "" text? kind
      metadata := ← withDefault "" text? metadata
      createdAt := ← orNull instant? createdAt
      updatedAt := ← orNull instant? updatedAt }
  | _ => none

end Transaction

namespace Receipt

def memberNames : List String := ["transactionID", "state", "hash", "transactionHash"]

def toJson (r : Receipt) : Json :=
  object [("transactionID", string r.id), ("state", string r.state), ("hash", string r.hash),
    ("transactionHash", string r.transactionHash)]

def ofJson? (j : Json) : Option Receipt := do
  match ← j.fields? memberNames with
  | [id, state, hash, transactionHash] =>
    return ⟨← withDefault "" text? id, ← withDefault "" text? state, ← withDefault "" text? hash,
      ← withDefault "" text? transactionHash⟩
  | _ => none

end Receipt
end Relay
end TradingDesk
