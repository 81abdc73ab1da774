import TradingDesk.Session

/-! What is known of markets, by the token traded there. Each part is looked up once for a token
and then served from here; nothing is ever dropped. -/
namespace TradingDesk

structure Table (α : Type) where
  entries : List (String × α) := []

namespace Table

variable {α : Type}

def get? (t : Table α) (key : String) : Option α := t.entries.lookup key

/-- The newest entry for a key is the one that counts. -/
def insert (t : Table α) (key : String) (a : α) : Table α := ⟨(key, a) :: t.entries⟩

theorem get?_insert_self (t : Table α) (key : String) (a : α) :
    (t.insert key a).get? key = some a := by simp [get?, insert]

theorem get?_insert_of_ne (t : Table α) {key other : String} (a : α) (h : other ≠ key) :
    (t.insert key a).get? other = t.get? other := by
  simp only [get?, insert, List.lookup_cons, beq_eq_false_iff_ne.mpr h]

end Table

/-- A table that is a part of a state. -/
structure Slot (σ α : Type) where
  table : σ → Table α
  store : Table α → σ → σ

namespace Slot

variable {σ τ α : Type}

def insert (s : Slot σ α) (key : String) (a : α) (state : σ) : σ :=
  s.store ((s.table state).insert key a) state

def known? (s : Slot σ α) (key : String) (state : σ) : Option α := (s.table state).get? key

/-- How a lookup ends whose fetch would end with `fetched`: what is known is not fetched, and what
is fetched is known from then on. -/
def serve {ε : Type} (s : Slot σ α) (key : String) (fetched : Except ε α) (state : σ) :
    Except ε α × σ :=
  match s.known? key state with
  | some a => (.ok a, state)
  | none =>
    match fetched with
    | .ok a => (.ok a, s.insert key a state)
    | .error e => (.error e, state)

/-- The same where the fetch is a session. -/
def lookup (s : Slot σ α) (key : String) (fetch : Session σ α) : Session σ α := do
  match s.known? key (← Session.state) with
  | some a => return a
  | none =>
    let a ← fetch
    Session.setState (s.insert key a (← Session.state))
    return a

/-- The slot of a part is a slot of the whole. -/
def within (s : Slot σ α) (part : τ → σ) (update : σ → τ → τ) : Slot τ α where
  table := fun t => s.table (part t)
  store := fun table t => update (s.store table (part t)) t

end Slot

structure MarketCache where
  ticks : Table Tick := {}
  negRisks : Table Bool := {}
  feeRates : Table UInt64 := {}

namespace MarketCache

def tick : Slot MarketCache Tick := ⟨ticks, fun t c => { c with ticks := t }⟩

def negRisk : Slot MarketCache Bool := ⟨negRisks, fun t c => { c with negRisks := t }⟩

def feeRate : Slot MarketCache UInt64 := ⟨feeRates, fun t c => { c with feeRates := t }⟩

end MarketCache

/-- What is looked up of a market. -/
inductive Parameter where
  | tick
  | negRisk
  | feeRate
deriving DecidableEq

namespace Parameter

abbrev Value : Parameter → Type
  | tick => Tick
  | negRisk => Bool
  | feeRate => UInt64

def slot : (p : Parameter) → Slot MarketCache p.Value
  | tick => MarketCache.tick
  | negRisk => MarketCache.negRisk
  | feeRate => MarketCache.feeRate

end Parameter
end TradingDesk
