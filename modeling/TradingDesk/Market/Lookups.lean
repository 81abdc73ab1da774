import TradingDesk.Market.Cache

/-! Lookups that share one cache and run at the same time. A step of a lookup reads or writes the
cache once at most, so that all that can happen is some order of whole steps. None holds the cache
while it fetches: between the step that finds nothing there and the step that keeps what was
fetched, any other lookup may run. -/
namespace TradingDesk

/-- How far a lookup is. -/
inductive Stage (ε α : Type) where
  | asking
  | fetching
  | storing (a : α)
  /-- Ended with what was known. -/
  | served (a : α)
  /-- Ended with what it fetched. -/
  | kept (a : α)
  | failed (e : ε)

namespace Stage

variable {ε α : Type}

def result? : Stage ε α → Option (Except ε α)
  | asking | fetching | storing _ => none
  | served a | kept a => some (.ok a)
  | failed e => some (.error e)

/-- What its fetch has brought. -/
def fetched? : Stage ε α → Option α
  | storing a | kept a => some a
  | asking | fetching | served _ | failed _ => none

end Stage

/-- One step of a lookup whose fetch would end with `fetched`: it looks for what is known, and
where nothing is, it fetches and then keeps that. -/
def Slot.advance {σ ε α : Type} (s : Slot σ α) (key : String) (fetched : Except ε α) (state : σ) :
    Stage ε α → Stage ε α × σ
  | .asking =>
    match s.known? key state with
    | some a => (.served a, state)
    | none => (.fetching, state)
  | .fetching =>
    match fetched with
    | .ok a => (.storing a, state)
    | .error e => (.failed e, state)
  | .storing a => (.kept a, s.insert key a state)
  | .served a => (.served a, state)
  | .kept a => (.kept a, state)
  | .failed e => (.failed e, state)

structure Lookup where
  parameter : Parameter
  token : String
  /-- What its fetch ends with, if it comes to that. -/
  fetched : Except Error parameter.Value
  stage : Stage Error parameter.Value := .asking

def Lookup.advance (l : Lookup) (c : MarketCache) : Lookup × MarketCache :=
  let next := l.parameter.slot.advance l.token l.fetched c l.stage
  ⟨{ l with stage := next.1 }, next.2⟩

structure Traffic where
  cache : MarketCache := {}
  /-- In the order in which they began. -/
  lookups : List Lookup := []

inductive Act where
  | start (p : Parameter) (token : String) (fetched : Except Error p.Value)
  /-- The next step of the lookup that began as number `i`. -/
  | advance (i : Nat)
  | insert (p : Parameter) (token : String) (v : p.Value)

namespace Traffic

def act (d : Traffic) : Act → Traffic
  | .start p token fetched => { d with lookups := d.lookups ++ [⟨p, token, fetched, .asking⟩] }
  | .advance i =>
    match d.lookups[i]? with
    | none => d
    | some l =>
      let next := l.advance d.cache
      ⟨next.2, d.lookups.set i next.1⟩
  | .insert p token v => { d with cache := p.slot.insert token v d.cache }

/-- What comes of these acts, in whatever order they are. -/
def run (acts : List Act) (d : Traffic) : Traffic := acts.foldl act d

end Traffic
end TradingDesk
