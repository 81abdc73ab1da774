import TradingDesk.Auth.Headers
import TradingDesk.Http.Transmission
import TradingDesk.Market.Cache
import TradingDesk.Order.Signed
import TradingDesk.Settings
import TradingDesk.Wire.Order

/-! The exchange. An account proves itself by its signature to get credentials, and signs the
requests about its orders with these; a builder may sign them too. -/
namespace TradingDesk.Exchange

structure Client where
  signer : OrderSigner
  builder : Option Credentials := none

/-- What a client learns. -/
structure State where
  credentials : Option Credentials := none
  cache : MarketCache := {}

abbrev Action (α : Type) := Session State α

namespace Client

open Json

def ofChainId (trader : Trader) (id : UInt64) : Except SettingsFault Client := do
  return { signer := ⟨trader, ← Chain.ofId id⟩ }

/-- The service must have a URL. -/
def ofSettings (s : Settings) (signer : Address) : Except SettingsFault Client := do
  let _ ← Transmission.serviceUrl s.exchangeUrl
  ofChainId ⟨signer, s.funder, s.signatureKind⟩ s.chain.id

def address (c : Client) : Address := c.signer.trader.signer

def chain (c : Client) : Chain := c.signer.chain

def describe (c : Client) (s : State) : String :=
  "ClobClient \x7b address: " ++ c.address.lower ++ ", chain_id: " ++
    Numeral.ofNat c.chain.id.toNat ++ ", has_credentials: " ++ toString s.credentials.isSome ++
    ", has_builder_credentials: " ++ toString c.builder.isSome ++ " \x7d"

/-! ### Credentials -/

def setCredentials (creds : Credentials) : Action Unit := do
  Session.setState { ← Session.state with credentials := some creds }

/-- Fetches credentials with the account's signature and keeps them. -/
def fetchCredentials (c : Client) (r : Request) (nonce : Option UInt64) : Action Credentials := do
  let headers ← Auth.accountHeaders c.address c.chain.id (nonce.getD 0) none
  let creds ← Session.fetch (r.withHeaders headers) (Credentials.ofJson? "apiKey")
  setCredentials creds
  return creds

def createApiKey (c : Client) (nonce : Option UInt64) : Action Credentials :=
  c.fetchCredentials ⟨.post, "/auth/api-key", [], [], none⟩ nonce

def deriveApiKey (c : Client) (nonce : Option UInt64) : Action Credentials :=
  c.fetchCredentials (.get "/auth/derive-api-key") nonce

/-- A key that cannot be derived is created. -/
def ensureApiKey (c : Client) (nonce : Option UInt64) : Action Credentials :=
  tryCatch (c.deriveApiKey nonce) fun _ => c.createApiKey nonce

def requireCredentials : Action Credentials := do
  match (← Session.state).credentials with
  | some creds => return creds
  | none => throw (.auth .noCredentials)

/-- The trader's headers and, where there is a builder, the builder's at the same time. -/
def headersFor (c : Client) (r : Request) : Action Headers := do
  let creds ← requireCredentials
  let time ← Session.now
  let own ← Session.ofExcept
    (Auth.traderHeaders c.address creds r.method.name r.path r.body time)
  match c.builder with
  | none => return own
  | some b =>
    return own.merge (← Session.ofExcept
      (Auth.builderHeaders b r.method.name r.path r.body time))

def fetchSigned {α : Type} (c : Client) (r : Request) (read : Json → Option α) : Action α := do
  let headers ← c.headersFor r
  Session.fetch (r.withHeaders headers) read

def apiKeys? (j : Json) : Option (List String) := do
  match ← j.fields? ["apiKeys"] with
  | [keys] => withDefault [] texts? keys
  | _ => none

def apiKeys (c : Client) : Action (List String) := c.fetchSigned (.get "/auth/api-keys") apiKeys?

/-! ### Markets -/

def slot {α : Type} (s : Slot MarketCache α) : Slot State α :=
  s.within State.cache fun cache st => { st with cache := cache }

def tickValue? (j : Json) : Option Json := do
  match ← j.fields? ["minimum_tick_size"] with
  | [tick] => required (valueWithin? 126) tick
  | _ => none

/-- A number or a text. -/
def readTick (j : Json) : Except Error Tick :=
  let parsed (text : String) := (Tick.parse text).mapError fun e => Error.invalid (.tick e)
  match j with
  | .number n => parsed (numberText n)
  | .string s => parsed s
  | other => .error (.invalid (.tickValue other))

def negRisk? (j : Json) : Option Bool := do
  match ← j.fields? ["neg_risk"] with
  | [negRisk] => required bool? negRisk
  | _ => none

def feeRate? (j : Json) : Option UInt64 := do
  match ← j.fields? ["base_fee"] with
  | [fee] => withDefault 0 word64? fee
  | _ => none

def question (p : Parameter) (token : String) : Request :=
  let path := match p with
    | .tick => "/tick-size"
    | .negRisk => "/neg-risk"
    | .feeRate => "/fee-rate"
  .get path [("token_id", token)]

def readAnswer : (p : Parameter) → Response → Except Error p.Value
  | .tick, r => do readTick (← r.decode tickValue?)
  | .negRisk, r => r.decode negRisk?
  | .feeRate, r => r.decode feeRate?

def lookUp (p : Parameter) (token : String) : Action p.Value :=
  (slot p.slot).lookup token do
    Session.ofExcept (readAnswer p (← Session.send (question p token)))

def tick (token : String) : Action Tick := lookUp .tick token

def negRisk (token : String) : Action Bool := lookUp .negRisk token

def feeRate (token : String) : Action UInt64 := lookUp .feeRate token

def cachedTick (token : String) : Action (Option Tick) := do
  return (← Session.state).cache.ticks.get? token

/-- A tick that is given must not be finer than the market's, if that is known. -/
def resolveTick (token : String) (given : Option Tick) : Action Tick := do
  match given with
  | none => tick token
  | some t =>
    match ← cachedTick token with
    | some m => if t.value < m.value then throw (.invalid (.tickTooFine t m)) else return t
    | none => return t

/-- What is given is not looked up. -/
def resolve (p : Parameter) (token : String) (given : Option p.Value) : Action p.Value :=
  match given with
  | some a => pure a
  | none => lookUp p token

/-! ### Orders -/

/-- What is given of a market need not be looked up. -/
structure Overrides where
  tick : Option Tick := none
  negRisk : Option Bool := none

/-- What an order needs of its market. -/
structure Terms where
  tick : Tick
  negRisk : Bool
  feeRate : UInt64

def terms (t : Ticket) (o : Overrides) : Action Terms := do
  let tick ← resolveTick t.tokenId o.tick
  let negRisk ← resolve .negRisk t.tokenId o.negRisk
  let feeRate ← resolve .feeRate t.tokenId t.feeRate
  return ⟨tick, negRisk, feeRate⟩

def createOrder (c : Client) (t : Ticket) (tif : TimeInForce) (o : Overrides) :
    Action SignedOrder := do
  let m ← terms t o
  c.signer.create { t with feeRate := some m.feeRate } tif m.tick m.negRisk

def postingJson (s : SignedOrder) (owner : String) (tif : TimeInForce) (deferred : Bool) : Json :=
  object [("order", s.payload.toJson), ("owner", string owner), ("orderType", string tif.name),
    ("deferExec", bool deferred)]

def postOrder (c : Client) (s : SignedOrder) (tif : TimeInForce) (deferred : Bool) :
    Action PostResult := do
  let owner := (← requireCredentials).key
  c.fetchSigned (.post "/order" (postingJson s owner tif deferred).text) PostResult.ofJson?

def postOrders (c : Client) (orders : List (SignedOrder × TimeInForce)) (deferred : Bool) :
    Action (List PostResult) := do
  if orders.isEmpty then throw (.invalid .noOrders)
  let owner := (← requireCredentials).key
  let body := array (orders.map fun o => postingJson o.1 owner o.2 deferred)
  c.fetchSigned (.post "/orders" body.text) (list? PostResult.ofJson?)

/-- Nothing is signed without credentials. -/
def createAndPostOrder (c : Client) (t : Ticket) (tif : TimeInForce) (o : Overrides)
    (deferred : Bool) : Action PostResult := do
  let _ ← requireCredentials
  let s ← c.createOrder t tif o
  c.postOrder s tif deferred

def order (c : Client) (id : String) : Action OpenOrder := do
  if id = "" then throw (.invalid .noOrderId)
  c.fetchSigned (.get ("/data/order/" ++ id)) OpenOrder.ofJson?

/-! ### Open orders -/

/-- The last page has no cursor or one that says so. -/
def isLastCursor (cursor : String) : Bool := cursor = "" || cursor = "LTE="

def page (c : Client) (f : Filter) (cursor : Option String) : Action Page :=
  c.fetchSigned (.get "/data/orders" (f.query ++ (cursor.map ("next_cursor", ·)).toList))
    Page.ofJson?

/-- The orders on at most `limit` pages; none if there are more pages. -/
def openOrdersFrom (c : Client) (f : Filter) : (limit : Nat) → (cursor : Option String) →
    (found : List OpenOrder) → Action (Option (List OpenOrder))
  | 0, _, _ => return none
  | limit + 1, cursor, found => do
    let p ← c.page f cursor
    let found := found ++ p.orders
    if isLastCursor p.nextCursor then return some found
    else openOrdersFrom c f limit (some p.nextCursor) found

def openOrders (c : Client) (f : Filter) (limit : Nat) : Action (Option (List OpenOrder)) :=
  c.openOrdersFrom f limit none []

/-! ### Cancelling -/

def cancel (c : Client) (path : String) (body : Option String) : Action CancelResult :=
  c.fetchSigned (.delete path body) CancelResult.ofJson?

def cancelOrder (c : Client) (id : String) : Action CancelResult := do
  if id = "" then throw (.invalid .noOrderId)
  c.cancel "/order" (some (object [("orderID", string id)]).text)

def cancelOrders (c : Client) (ids : List String) : Action CancelResult := do
  if ids.isEmpty then throw (.invalid .noOrderIds)
  c.cancel "/orders" (some (texts ids).text)

def cancelAll (c : Client) : Action CancelResult := c.cancel "/cancel-all" none

/-- An empty text is no restriction. -/
def cancelMarketOrders (c : Client) (market assetId : Option String) : Action CancelResult :=
  let member (name : String) (value : Option String) :=
    optionalMember name ((value.filter (· ≠ "")).map string)
  c.cancel "/cancel-market-orders"
    (some (object (member "asset_id" assetId ++ member "market" market)).text)

end Client
end TradingDesk.Exchange
