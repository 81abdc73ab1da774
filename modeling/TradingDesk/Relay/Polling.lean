import TradingDesk.Error
import TradingDesk.Relay.Basic

/-! Waiting for a transaction to settle: it is fetched again and again, with a pause between any
two fetches, until it is in one of the target states, or has failed, or there were enough fetches,
or the waiting is called off. Times are in milliseconds from the start. -/
namespace TradingDesk.Relay

structure PollOptions where
  maxPolls : Nat := 10
  pause : Nat := 2000
deriving DecidableEq

/-- No polls at all stand for ten, and a pause of less than a second for one of two. -/
def PollOptions.normalized (o : PollOptions) : PollOptions where
  maxPolls := if o.maxPolls = 0 then 10 else o.maxPolls
  pause := if o.pause < 1000 then 2000 else o.pause

/-- When the waiting is called off: at a moment, and of all that happens then, after so many fetches
have begun; and whether that is noticed before a pause that ends at the same moment is over. -/
structure Signal where
  moment : Nat
  begun : Nat := 0
  first : Bool := true

structure Watch where
  id : String
  targets : List State
  failState : Option State := none
  options : PollOptions := {}
  signal : Option Signal := none

/-- A fetch ends with an answer or an error, takes its time, and may change the outside. -/
structure Fetched (σ : Type) where
  answer : Except Error (Option Transaction)
  duration : Nat
  outside : σ

/-- A fetch that was made, with the moment at which it began. -/
structure Visit (σ : Type) where
  time : Nat
  fetched : Fetched σ

structure Progress (σ : Type) where
  time : Nat := 0
  visits : List (Visit σ) := []
  outside : σ

def Progress.fetches {σ : Type} (p : Progress σ) : Nat := p.visits.length

structure Ending (σ : Type) extends Progress σ where
  result : Except Error Transaction

namespace Watch

variable {σ : Type}

/-- The end that a fetch brings, if it brings one. A target state counts before failure. -/
def judge (w : Watch) : Except Error (Option Transaction) → Option (Except Error Transaction)
  | .error e => some (.error e)
  | .ok none => none
  | .ok (some t) =>
    if t.state ∈ w.targets then some (.ok t)
    else if w.failState = some t.state then some (.error (.failed w.id t.state.name t.hash))
    else none

/-- Whether the waiting is called off by a time at which so many fetches have begun. -/
def signalled (w : Watch) (time fetches : Nat) : Bool :=
  w.signal.any fun s => s.moment < time || (s.moment = time && s.begun ≤ fetches)

/-- When a pause that begins now is cut short. -/
def cut? (w : Watch) (pause : Nat) (p : Progress σ) : Option Nat := do
  let s ← w.signal
  let ending := p.time + pause
  if s.moment < ending || (s.moment = ending && s.begun ≤ p.fetches && s.first) then
    return max p.time s.moment
  else none

def afterFetch (p : Progress σ) (f : Fetched σ) : Progress σ :=
  ⟨p.time + f.duration, p.visits ++ [⟨p.time, f⟩], f.outside⟩

/-- Goes on with at most `left` fetches. -/
def runFrom (w : Watch) (o : PollOptions) (fetch : σ → Fetched σ) :
    (left : Nat) → Progress σ → Ending σ
  | 0, p => ⟨p, .error (.timeout w.id o.maxPolls)⟩
  | left + 1, p =>
    if w.signalled p.time p.fetches then ⟨p, .error (.cancelled w.id)⟩
    else
      let f := fetch p.outside
      let q := afterFetch p f
      match w.judge f.answer with
      | some r => ⟨q, r⟩
      | none =>
        if left = 0 then ⟨q, .error (.timeout w.id o.maxPolls)⟩
        else
          match w.cut? o.pause q with
          | some t => ⟨{ q with time := t }, .error (.cancelled w.id)⟩
          | none => runFrom w o fetch left { q with time := q.time + o.pause }

def run (w : Watch) (fetch : σ → Fetched σ) (outside : σ) : Ending σ :=
  let o := w.options.normalized
  w.runFrom o fetch o.maxPolls { outside := outside }

end Watch
end TradingDesk.Relay
