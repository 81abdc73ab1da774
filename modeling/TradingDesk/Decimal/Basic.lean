/-! Decimal numbers of at most 96 bits and 28 places. The scale belongs to the number:
`1.0` and `1.00` are one value and two decimals. -/
namespace TradingDesk

def tenTo (n : Nat) : Nat := Nat.pow 10 n

structure Decimal where
  coeff : Int
  scale : Nat
  coeff_lt : coeff.natAbs < 79228162514264337593543950336
  scale_le : scale ≤ 28
deriving DecidableEq

namespace Decimal

def coeffBound : Nat := 79228162514264337593543950336

def maxScale : Nat := 28

def ofCoeff? (c : Int) (s : Nat) : Option Decimal :=
  if h : c.natAbs < 79228162514264337593543950336 ∧ s ≤ 28 then some ⟨c, s, h.1, h.2⟩ else none

def zero : Decimal := ⟨0, 0, by decide, by decide⟩

def one : Decimal := ⟨1, 0, by decide, by decide⟩

def toRat (x : Decimal) : Rat := mkRat x.coeff (tenTo x.scale)

/-! ### Order by value -/

instance : LE Decimal := ⟨fun x y => x.coeff * tenTo y.scale ≤ y.coeff * tenTo x.scale⟩

instance : LT Decimal := ⟨fun x y => x.coeff * tenTo y.scale < y.coeff * tenTo x.scale⟩

instance (x y : Decimal) : Decidable (x ≤ y) :=
  inferInstanceAs (Decidable (x.coeff * tenTo y.scale ≤ y.coeff * tenTo x.scale))

instance (x y : Decimal) : Decidable (x < y) :=
  inferInstanceAs (Decidable (x.coeff * tenTo y.scale < y.coeff * tenTo x.scale))

/-! ### Trailing zeros -/

def strip : Int → Nat → Int × Nat
  | c, 0 => (c, 0)
  | c, s + 1 => if c % 10 = 0 then strip (c / 10) s else (c, s + 1)

theorem strip_natAbs_le (c : Int) (s : Nat) : (strip c s).1.natAbs ≤ c.natAbs := by
  induction s generalizing c with
  | zero => simp [strip]
  | succ s ih =>
    unfold strip
    split
    · exact Nat.le_trans (ih _) (by omega)
    · exact Nat.le_refl _

theorem strip_scale_le (c : Int) (s : Nat) : (strip c s).2 ≤ s := by
  induction s generalizing c with
  | zero => simp [strip]
  | succ s ih =>
    unfold strip
    split
    · exact Nat.le_succ_of_le (ih _)
    · exact Nat.le_refl _

def normalize (x : Decimal) : Decimal where
  coeff := (strip x.coeff x.scale).1
  scale := (strip x.coeff x.scale).2
  coeff_lt := Nat.lt_of_le_of_lt (strip_natAbs_le _ _) x.coeff_lt
  scale_le := Nat.le_trans (strip_scale_le _ _) x.scale_le

/-- The fewest places that hold the value. -/
def places (x : Decimal) : Nat := x.normalize.scale

end Decimal
end TradingDesk
