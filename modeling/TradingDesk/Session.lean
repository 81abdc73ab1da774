import TradingDesk.Http.Message

/-! Dealings with the outside: a service that answers requests, a signer, a clock and a source of
random numbers. Each may answer as it likes, by what has happened so far; what happens is kept in
order. A session may also keep a state of its own, and keeps it when it fails. -/
namespace TradingDesk

inductive Event where
  | sent (request : Request)
  | asked (signer : Address) (digest : Word)
  | clockRead
  | saltDrawn
deriving DecidableEq

/-- The clock counts seconds from 1970 and may stand before that. -/
structure World where
  respond : List Event → Request → Except Error Response
  sign : List Event → Address → Word → Except Error Bytes
  clock : List Event → Int
  random : List Event → UInt64

structure Log (σ : Type) where
  state : σ
  events : List Event

abbrev Session (σ α : Type) := ReaderT World (ExceptT Error (StateM (Log σ))) α

namespace Session

variable {σ α : Type}

/-- Writes an event down and returns what happened before it. -/
def note (e : Event) : Session σ (List Event) := do
  let log ← get
  set { log with events := log.events ++ [e] }
  return log.events

def ofExcept (x : Except Error α) : Session σ α :=
  match x with
  | .ok a => pure a
  | .error e => throw e

def send (r : Request) : Session σ Response := do
  let past ← note (.sent r)
  ofExcept ((← read).respond past r)

def askSignature (signer : Address) (digest : Word) : Session σ Bytes := do
  let past ← note (.asked signer digest)
  ofExcept ((← read).sign past signer digest)

/-- Seconds since 1970, or zero before that. -/
def now : Session σ UInt64 := do
  let past ← note .clockRead
  return UInt64.ofNat ((← read).clock past).toNat

/-- A random number below `2 ^ 53`. -/
def drawSalt : Session σ UInt64 := do
  let past ← note .saltDrawn
  return (← read).random past % 9007199254740992

def state : Session σ σ := return (← get).state

def setState (s : σ) : Session σ Unit := modify fun log => { log with state := s }

/-- Sends a request and reads the body of the answer. -/
def fetch (r : Request) (read : Json → Option α) : Session σ α := do
  ofExcept ((← send r).decode read)

def run (s : Session σ α) (w : World) (log : Log σ) : Except Error α × Log σ :=
  (ExceptT.run (ReaderT.run s w)).run log

end Session
end TradingDesk
