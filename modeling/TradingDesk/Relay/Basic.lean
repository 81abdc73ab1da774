import TradingDesk.Text.Instant

/-! What the relayer is given and what it tells. -/
namespace TradingDesk.Relay

/-- Whether a Safe acts or is made. -/
inductive Kind where
  | safe
  | safeCreate
deriving DecidableEq

namespace Kind

def name : Kind → String
  | safe => "SAFE"
  | safeCreate => "SAFE-CREATE"

def ofName? (s : String) : Option Kind :=
  if s = "SAFE" then some safe else if s = "SAFE-CREATE" then some safeCreate else none

end Kind

/-- How far a transaction has come. States yet unknown are kept by name. -/
inductive State where
  | new
  | executed
  | mined
  | confirmed
  | failed
  | invalid
  | other (name : String)
deriving DecidableEq

namespace State

def name : State → String
  | new => "STATE_NEW"
  | executed => "STATE_EXECUTED"
  | mined => "STATE_MINED"
  | confirmed => "STATE_CONFIRMED"
  | failed => "STATE_FAILED"
  | invalid => "STATE_INVALID"
  | other s => s

def known : List State := [new, executed, mined, confirmed, failed, invalid]

def ofKnownName? (s : String) : Option State := known.find? (·.name = s)

def ofName (s : String) : State := (ofKnownName? s).getD (other s)

def isOther : State → Bool
  | other _ => true
  | _ => false

end State

structure Params where
  gasPrice : Option String := none
  operation : Option String := none
  safeTxnGas : Option String := none
  baseGas : Option String := none
  gasToken : Option String := none
  refundReceiver : Option String := none
  paymentToken : Option String := none
  payment : Option String := none
  paymentReceiver : Option String := none
deriving DecidableEq

structure Submission where
  kind : Kind
  sender : String
  target : String
  proxyWallet : Option String := none
  data : String
  nonce : Option String := none
  signature : String
  params : Params
  metadata : Option String := none
deriving DecidableEq

structure Transaction where
  id : String
  hash : String := ""
  sender : String := ""
  target : String := ""
  proxyAddress : String := ""
  data : String := ""
  nonce : String := ""
  value : String := ""
  state : State
  kind : String := ""
  metadata : String := ""
  createdAt : Option Instant := none
  updatedAt : Option Instant := none
deriving DecidableEq

structure Receipt where
  id : String := ""
  state : String := ""
  hash : String := ""
  transactionHash : String := ""
deriving DecidableEq

end TradingDesk.Relay
