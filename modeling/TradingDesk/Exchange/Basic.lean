/-! What the exchange tells about orders. -/
namespace TradingDesk.Exchange

structure PostResult where
  success : Bool := false
  errorMessage : String := ""
  orderId : String := ""
  transactionHashes : List String := []
  status : String := ""
  takingAmount : String := ""
  makingAmount : String := ""
deriving DecidableEq

structure OpenOrder where
  id : String := ""
  status : String := ""
  owner : String := ""
  makerAddress : String := ""
  market : String := ""
  assetId : String := ""
  side : String := ""
  originalSize : String := ""
  sizeMatched : String := ""
  price : String := ""
  outcome : String := ""
  expiration : String := ""
  orderType : String := ""
  associateTrades : List String := []
  createdAt : Int := 0
deriving DecidableEq

structure Page where
  orders : List OpenOrder := []
  nextCursor : String := ""
  limit : UInt64 := 0
  count : UInt64 := 0
deriving DecidableEq

/-- The orders that were not cancelled are given with the reason. -/
structure CancelResult where
  cancelled : List String := []
  notCancelled : List (String × String) := []
deriving DecidableEq

/-- Which open orders are asked for. -/
structure Filter where
  id : Option String := none
  market : Option String := none
  assetId : Option String := none
deriving DecidableEq

def Filter.query (f : Filter) : List (String × String) :=
  [("id", f.id), ("market", f.market), ("asset_id", f.assetId)].filterMap fun m =>
    m.2.map (m.1, ·)

end TradingDesk.Exchange
