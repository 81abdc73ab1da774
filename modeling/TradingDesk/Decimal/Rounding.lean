import TradingDesk.Decimal.Basic

/-! Rounding to a number of places. A decimal that has no more places is left as it is. -/
namespace TradingDesk.Decimal

inductive Direction where
  | floor
  | ceiling
  | halfAway
deriving DecidableEq

/-- The integer that stands for `n / d`. -/
def Direction.apply (r : Direction) (n : Int) (d : Nat) : Int :=
  match r with
  | floor => n / d
  | ceiling => -(-n / d)
  | halfAway => if n < 0 then -((2 * -n + d) / (2 * d)) else (2 * n + d) / (2 * d)

private theorem ediv_natAbs_le (n : Int) {d : Int} (hd : 10 ≤ d) :
    (n / d).natAbs ≤ n.natAbs / 10 + 1 := by
  have h := Int.mul_ediv_add_emod n d
  have h0 := Int.emod_nonneg n (by omega : d ≠ 0)
  have h1 := Int.emod_lt_of_pos n (by omega : 0 < d)
  generalize n / d = q at *
  rcases Int.lt_or_le q 0 with hq | hq
  · have := Int.mul_le_mul_of_nonneg_right hd (by omega : 0 ≤ -q - 1)
    have : d * (-q - 1) = -(d * q) - d := by rw [Int.mul_sub, Int.mul_neg, Int.mul_one]
    omega
  · have := Int.mul_le_mul_of_nonneg_right hd hq
    omega

private theorem half_natAbs_le (m : Int) {d : Int} (hm : 0 ≤ m) (hd : 10 ≤ d) :
    ((2 * m + d) / (2 * d)).natAbs ≤ m.natAbs / 10 + 1 := by
  have h := Int.mul_ediv_add_emod (2 * m + d) (2 * d)
  have h0 := Int.emod_nonneg (2 * m + d) (by omega : 2 * d ≠ 0)
  have hq : 0 ≤ (2 * m + d) / (2 * d) := Int.ediv_nonneg (by omega) (by omega)
  generalize (2 * m + d) / (2 * d) = q at *
  rcases Int.lt_or_le q 1 with hq1 | hq1
  · omega
  · have := Int.mul_le_mul_of_nonneg_right hd (by omega : 0 ≤ 2 * q - 1)
    have : d * (2 * q - 1) = 2 * d * q - d := by
      rw [Int.mul_sub, Int.mul_one, Int.mul_comm 2 d, Int.mul_assoc]
    omega

theorem Direction.apply_natAbs_le (r : Direction) (n : Int) {d : Nat} (hd : 10 ≤ d) :
    (r.apply n d).natAbs ≤ n.natAbs / 10 + 1 := by
  have hd' : (10 : Int) ≤ d := by omega
  cases r with
  | floor => exact ediv_natAbs_le n hd'
  | ceiling =>
    have := ediv_natAbs_le (-n) hd'
    simp only [Direction.apply, Int.natAbs_neg] at *
    exact this
  | halfAway =>
    simp only [Direction.apply]
    split
    · have := half_natAbs_le (-n) (by omega) hd'
      simpa only [Int.natAbs_neg] using this
    · exact half_natAbs_le n (by omega) hd'

theorem ten_le_tenTo {k : Nat} (hk : 0 < k) : 10 ≤ tenTo k :=
  Nat.le_of_dvd (Nat.pow_pos (by decide)) (Nat.dvd_trans ⟨1, rfl⟩ (Nat.pow_dvd_pow 10 hk))

def round (r : Direction) (x : Decimal) (dp : Nat) : Decimal :=
  if h : x.scale ≤ dp then x
  else
    { coeff := r.apply x.coeff (tenTo (x.scale - dp))
      scale := dp
      coeff_lt := by
        have := r.apply_natAbs_le x.coeff (ten_le_tenTo (by omega : 0 < x.scale - dp))
        have := x.coeff_lt
        omega
      scale_le := by have := x.scale_le; omega }

end TradingDesk.Decimal
