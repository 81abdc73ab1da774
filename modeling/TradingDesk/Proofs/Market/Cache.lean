import TradingDesk.Market.Cache

/-! The cache part by part: what is kept of a parameter for a token stands there until the same is
kept anew, and nothing else is touched. -/

namespace TradingDesk

namespace Parameter

variable {p q : Parameter} {key other : String}

theorem known?_insert_self (p : Parameter) (key : String) (v : p.Value) (c : MarketCache) :
    p.slot.known? key (p.slot.insert key v c) = some v := by
  cases p <;> exact Table.get?_insert_self ..

theorem known?_insert_of_token (h : other ≠ key) (v : p.Value) (c : MarketCache) :
    p.slot.known? other (p.slot.insert key v c) = p.slot.known? other c := by
  cases p <;> exact Table.get?_insert_of_ne _ _ h

theorem known?_insert_of_parameter (h : q ≠ p) (v : p.Value) (c : MarketCache) :
    q.slot.known? other (p.slot.insert key v c) = q.slot.known? other c := by
  cases p <;> cases q <;> first | rfl | exact absurd rfl h

theorem known?_insert_of_ne (h : ¬ (q = p ∧ other = key)) (v : p.Value) (c : MarketCache) :
    q.slot.known? other (p.slot.insert key v c) = q.slot.known? other c := by
  by_cases hq : q = p
  · subst hq
    exact known?_insert_of_token (fun hkey => h ⟨rfl, hkey⟩) v c
  · exact known?_insert_of_parameter hq v c

end Parameter

/-- A value of a parameter, for a token that is known from elsewhere. -/
structure Fact where
  parameter : Parameter
  value : parameter.Value

namespace MarketCache

variable {p : Parameter} {token : String}

/-- The cache `c` with all these `facts` about `token`. -/
def keep (token : String) (facts : List Fact) (c : MarketCache) : MarketCache :=
  facts.foldl (fun c f => f.parameter.slot.insert token f.value c) c

theorem keep_append (token : String) (facts more : List Fact) (c : MarketCache) :
    keep token (facts ++ more) c = keep token more (keep token facts c) := List.foldl_append

theorem known?_keep_of_notMem {facts : List Fact} (h : p ∉ facts.map Fact.parameter)
    (c : MarketCache) : p.slot.known? token (keep token facts c) = p.slot.known? token c := by
  induction facts generalizing c with
  | nil => rfl
  | cons f facts ih =>
    rw [List.map_cons, List.mem_cons, not_or] at h
    exact (ih h.2 _).trans (Parameter.known?_insert_of_parameter h.1 f.value c)

end MarketCache
end TradingDesk
