import TradingDesk.Decimal.Basic

/-! Sums, products and quotients. A result that has too many digits loses its last ones, as
few as possible, in one rounding to the nearest decimal, half to even. -/
namespace TradingDesk.Decimal

private theorem coeff_ediv_lt (x : Decimal) (k : Nat) :
    (x.coeff / tenTo k).natAbs < 79228162514264337593543950336 :=
  Nat.lt_of_le_of_lt (Int.natAbs_ediv_le_natAbs ..) x.coeff_lt

/-- The integer nearest to `n / d`, the even one of two. -/
def halfEven (n : Int) (d : Nat) : Int :=
  let q := n.natAbs / d
  let r := n.natAbs % d
  let m := if d < 2 * r || (2 * r == d && q % 2 == 1) then q + 1 else q
  if n < 0 then -(m : Int) else m

def quotientFrom? (n : Int) (d : Nat) : Nat → Option Decimal
  | 0 => ofCoeff? (halfEven n d) 0
  | t + 1 =>
    match ofCoeff? (halfEven (n * tenTo (t + 1)) d) (t + 1) with
    | some x => some x
    | none => quotientFrom? n d t

/-- The decimal nearest to `n / d` with as many places as fit. -/
def quotient? (n : Int) (d : Nat) : Option Decimal := quotientFrom? n d maxScale

def fitFrom? (n : Int) (s : Nat) : Nat → Option Decimal
  | 0 => ofCoeff? (halfEven n (tenTo s)) 0
  | t + 1 =>
    match ofCoeff? (halfEven n (tenTo (s - (t + 1)))) (t + 1) with
    | some x => some x
    | none => fitFrom? n s t

/-- The decimal nearest to `n / 10 ^ s` with as many of the `s` places as fit. -/
def fit? (n : Int) (s : Nat) : Option Decimal := fitFrom? n s (min s maxScale)

def add? (x y : Decimal) : Option Decimal :=
  if x.coeff = 0 then some y
  else if y.coeff = 0 then some x
  else
    let s := max x.scale y.scale
    fit? (x.coeff * tenTo (s - x.scale) + y.coeff * tenTo (s - y.scale)) s

/-- A product of two short factors that has more than 47 places is a plain zero. -/
def mul? (x y : Decimal) : Option Decimal :=
  if x.coeff = 0 ∨ y.coeff = 0 then some zero
  else if x.coeff.natAbs < 4294967296 ∧ y.coeff.natAbs < 4294967296 ∧ 47 < x.scale + y.scale then
    some zero
  else fit? (x.coeff * y.coeff) (x.scale + y.scale)

/-! ### Quotients -/

/-- Leaves out the last `k` places if they are zeros. -/
def dropZeros (k : Nat) (x : Decimal) : Decimal :=
  if x.coeff % tenTo k = 0 ∧ k ≤ x.scale then
    ⟨x.coeff / tenTo k, x.scale - k, coeff_ediv_lt x k, Nat.le_trans (Nat.sub_le ..) x.scale_le⟩
  else x

/-- Leaves out eight zeros as often as the last 32 bits are zeros too. -/
def dropEights : (times : Nat) → Decimal → Decimal
  | 0, x => x
  | n + 1, x => if x.coeff % 4294967296 = 0 then dropEights n (x.dropZeros 8) else x

/-- Leaves out zeros at the end: eights of them first, then seven at most. -/
def trimmed (x : Decimal) : Decimal :=
  dropZeros 1 (dropZeros 2 (dropZeros 4 (dropEights 3 x)))

/-- The places at which a division ends. It looks at every ninth place, from `t` on beyond the
places `start` of the factors, and ends where nothing remains, or at the last place `top`. -/
def divisionEnd (n d : Nat) (start : Int) (top : Nat) : (fuel t : Nat) → Nat
  | 0, _ => top
  | fuel + 1, t =>
    if top ≤ start + t then top
    else if n * tenTo t % d = 0 then (start + t).toNat
    else divisionEnd n d start top fuel (t + 9)

/-- A quotient of coefficients that is whole keeps its places. -/
def div? (x y : Decimal) : Option Decimal :=
  if y.coeff = 0 then none
  else if x.coeff = 0 then some zero
  else if x.coeff.natAbs % y.coeff.natAbs = 0 then
    ofCoeff? (x.coeff / y.coeff * tenTo (y.scale - x.scale)) (x.scale - y.scale)
  else do
    let n := x.coeff * y.coeff.sign * tenTo y.scale
    let d := y.coeff.natAbs * tenTo x.scale
    let q ← quotient? n d
    let k := divisionEnd x.coeff.natAbs y.coeff.natAbs ((x.scale : Int) - y.scale) q.scale 7 0
    return (← ofCoeff? (halfEven (n * tenTo k) d) k).trimmed

end TradingDesk.Decimal
