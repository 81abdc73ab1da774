import TradingDesk.Market.Rounding
import TradingDesk.Market.Tick
import TradingDesk.Proofs.Decimal.Operations

/-! The roundings of a market by value. Leaving alone what needs no rounding makes no
difference: each is the exact floor, ceiling or nearest point of the grid with the places
asked for. -/

namespace TradingDesk.Decimal

/-- The multiple of `10 ^ -dp` next to `q`, from below. -/
def floorAt (dp : ℕ) (q : ℚ) : ℚ := ⌊q * 10 ^ dp⌋ / 10 ^ dp

/-- The multiple of `10 ^ -dp` next to `q`, from above. -/
def ceilAt (dp : ℕ) (q : ℚ) : ℚ := ⌈q * 10 ^ dp⌉ / 10 ^ dp

/-- The multiple of `10 ^ -dp` nearest to `q` and a thousand-millionth, the half upwards. -/
def nearestAt (dp : ℕ) (q : ℚ) : ℚ := ⌊(q + 1 / 10 ^ 9) * 10 ^ dp + 1 / 2⌋ / 10 ^ dp

/-- The floor of the ceiling of `q` at four more places than `dp`. -/
def fitAt (dp : ℕ) (q : ℚ) : ℚ := floorAt dp (ceilAt (dp + 4) q)

variable {dp : ℕ} {q : ℚ}

theorem floorAt_mul_pow (dp : ℕ) (q : ℚ) : floorAt dp q * 10 ^ dp = ⌊q * 10 ^ dp⌋ :=
  div_mul_cancel₀ _ (ten_pow_pos dp).ne'

theorem grid_floorAt (dp : ℕ) (q : ℚ) : Grid dp (floorAt dp q) := ⟨_, floorAt_mul_pow dp q⟩

theorem grid_nearestAt (dp : ℕ) (q : ℚ) : Grid dp (nearestAt dp q) :=
  ⟨_, div_mul_cancel₀ _ (ten_pow_pos dp).ne'⟩

theorem floorAt_le (dp : ℕ) (q : ℚ) : floorAt dp q ≤ q :=
  (div_le_iff₀ (ten_pow_pos dp)).mpr (Int.floor_le _)

theorem Grid.floorAt_eq (h : Grid dp q) : floorAt dp q = q := by
  obtain ⟨n, hn⟩ := h
  rw [floorAt, hn, Int.floor_intCast, ← hn, mul_div_cancel_right₀ _ (ten_pow_pos dp).ne']

theorem lt_floorAt_add (dp : ℕ) (q : ℚ) : q < floorAt dp q + 1 / 10 ^ dp := by
  rw [floorAt, ← add_div, lt_div_iff₀ (ten_pow_pos dp)]
  exact Int.lt_floor_add_one _

theorem le_floorAt_iff : q ≤ floorAt dp q ↔ Grid dp q := by
  constructor
  · intro h
    rw [← le_antisymm (floorAt_le dp q) h]
    exact grid_floorAt dp q
  · intro h
    exact h.floorAt_eq.ge

theorem Grid.ceilAt_eq (h : Grid dp q) : ceilAt dp q = q := by
  obtain ⟨n, hn⟩ := h
  rw [ceilAt, hn, Int.ceil_intCast, ← hn, mul_div_cancel_right₀ _ (ten_pow_pos dp).ne']

/-- A point `q` of a coarse enough grid is its own nearest point. -/
theorem Grid.nearestAt_eq (h : Grid dp q) (hdp : dp ≤ 8) : nearestAt dp q = q := by
  obtain ⟨n, hn⟩ := h
  have hpow : (10 : ℚ) ^ dp ≤ 10 ^ 8 := pow_le_pow_right₀ (by norm_num) hdp
  have hpos := ten_pow_pos dp
  have hfloor : ⌊(q + 1 / 10 ^ 9) * 10 ^ dp + 1 / 2⌋ = n := by
    rw [Int.floor_eq_iff, add_mul, hn]
    constructor <;> linarith
  rw [nearestAt, hfloor, ← hn, mul_div_cancel_right₀ _ hpos.ne']

/-- A point of the grid that is not above `q` is not above its floor. -/
theorem Grid.le_floorAt {p : ℚ} (h : Grid dp p) (hpq : p ≤ q) : p ≤ floorAt dp q := by
  obtain ⟨n, hn⟩ := h
  rw [floorAt, le_div_iff₀ (ten_pow_pos dp), hn]
  exact_mod_cast Int.le_floor.mpr (hn ▸ mul_le_mul_of_nonneg_right hpq (ten_pow_pos dp).le)

/-! ### Rounded decimals -/

theorem mul_pow_of_lt_scale {x : Decimal} (h : dp < x.scale) :
    x.toRat * 10 ^ dp = x.coeff / (tenTo (x.scale - dp) : ℕ) := by
  rw [cast_tenTo, toRat_eq, eq_div_iff (ten_pow_pos _).ne', mul_assoc, ← pow_add,
    Nat.add_sub_cancel' h.le, div_mul_cancel₀ _ (ten_pow_pos _).ne']

theorem toRat_round_floor (x : Decimal) (dp : ℕ) :
    (x.round .floor dp).toRat = floorAt dp x.toRat := by
  unfold round
  split_ifs with h
  · exact (x.grid_scale.mono h).floorAt_eq.symm
  · rw [floorAt, mul_pow_of_lt_scale (by omega), Rat.floor_intCast_div_natCast, toRat_eq]
    rfl

theorem toRat_round_ceiling (x : Decimal) (dp : ℕ) :
    (x.round .ceiling dp).toRat = ceilAt dp x.toRat := by
  unfold round
  split_ifs with h
  · exact (x.grid_scale.mono h).ceilAt_eq.symm
  · rw [ceilAt, mul_pow_of_lt_scale (by omega), Rat.ceil_intCast_div_natCast, toRat_eq]
    rfl

theorem toRat_round_halfAway {x : Decimal} (hx : 0 ≤ x.toRat) (dp : ℕ) :
    (x.round .halfAway dp).toRat = ⌊x.toRat * 10 ^ dp + 1 / 2⌋ / 10 ^ dp := by
  unfold round
  split_ifs with h
  · obtain ⟨n, hn⟩ := x.grid_scale.mono h
    have hfloor : ⌊(n : ℚ) + 1 / 2⌋ = n := by
      rw [Int.floor_eq_iff]
      constructor <;> linarith
    rw [hn, hfloor, ← hn, mul_div_cancel_right₀ _ (ten_pow_pos dp).ne']
  · have hc : 0 ≤ x.coeff := toRat_nonneg.mp hx
    have hd : (0 : ℚ) < (tenTo (x.scale - dp) : ℕ) := by exact_mod_cast tenTo_pos _
    have hhalf : (x.coeff : ℚ) / (tenTo (x.scale - dp) : ℕ) + 1 / 2 =
        ((2 * x.coeff + tenTo (x.scale - dp) : ℤ) : ℚ) / ((2 * tenTo (x.scale - dp) : ℕ) : ℚ) := by
      push_cast
      field_simp
    rw [mul_pow_of_lt_scale (by omega), hhalf, Rat.floor_intCast_div_natCast, toRat_eq]
    simp only [Direction.apply, if_neg (not_lt.mpr hc)]
    push_cast
    rfl

theorem toRat_floorTo (x : Decimal) (dp : ℕ) : (x.floorTo dp).toRat = floorAt dp x.toRat := by
  unfold floorTo
  split_ifs with h
  · exact (places_le_iff.mp h).floorAt_eq.symm
  · exact toRat_round_floor x dp

theorem toRat_ceilTo (x : Decimal) (dp : ℕ) : (x.ceilTo dp).toRat = ceilAt dp x.toRat := by
  unfold ceilTo
  split_ifs with h
  · exact (places_le_iff.mp h).ceilAt_eq.symm
  · exact toRat_round_ceiling x dp

/-- Fitting an amount `x` always gives one: a number with places to lose has few of them. Where it
has none to lose, it is its own ceiling and floor. -/
theorem fitTo?_eq (x : Decimal) (dp : ℕ) : x.fitTo? dp = some ((x.ceilTo (dp + 4)).floorTo dp) := by
  unfold fitTo?
  split_ifs with h hdp
  · rw [ceilTo, if_pos (h.trans (Nat.le_add_right dp 4)), floorTo, if_pos h]
  · have := x.places_le_scale.trans x.scale_le
    omega
  · rfl

theorem toRat_fit (x : Decimal) (dp : ℕ) :
    ((x.ceilTo (dp + 4)).floorTo dp).toRat = fitAt dp x.toRat := by
  rw [toRat_floorTo, toRat_ceilTo, fitAt]

theorem exists_fitTo? (x : Decimal) (dp : ℕ) :
    ∃ y, x.fitTo? dp = some y ∧ y.toRat = fitAt dp x.toRat :=
  ⟨_, fitTo?_eq x dp, toRat_fit x dp⟩

theorem toRat_nudge : nudge.toRat = 1 / 10 ^ 9 := by
  simp [toRat_eq, nudge]

/-- The number `x` is not negative, and its sum with `nudge` has a decimal. -/
structure Nudgeable (x : Decimal) : Prop where
  nonneg : 0 ≤ x.toRat
  sum : ∃ z : Decimal, z.toRat = x.toRat + 1 / 10 ^ 9

namespace Nudgeable

variable {x : Decimal}

/-- The nearest point of the grid is found by way of the sum. -/
theorem exists_add? (h : Nudgeable x) (dp : ℕ) :
    ∃ z, x.add? nudge = some z ∧ (z.round .halfAway dp).toRat = nearestAt dp x.toRat := by
  obtain ⟨s, hs⟩ := h.sum
  rw [← toRat_nudge] at hs
  obtain ⟨z, hz, hval⟩ := add?_exact s.scale_le (hs ▸ s.grid_scale) (hs ▸ s.abs_mul_pow_lt)
  refine ⟨z, hz, ?_⟩
  rw [toRat_round_halfAway, hval, toRat_nudge, nearestAt]
  rw [hval, toRat_nudge]
  exact add_nonneg h.nonneg (by positivity)

/-- So it is where the number is left alone, on a coarse enough grid. -/
theorem exists_nearestTo? (h : Nudgeable x) (hdp : dp ≤ 8) :
    ∃ y, x.nearestTo? dp = some y ∧ y.toRat = nearestAt dp x.toRat := by
  unfold nearestTo?
  split_ifs with hplaces
  · exact ⟨x, rfl, ((places_le_iff.mp hplaces).nearestAt_eq hdp).symm⟩
  · obtain ⟨z, hz, hval⟩ := h.exists_add? dp
    exact ⟨z.round .halfAway dp, by rw [hz]; rfl, hval⟩

end Nudgeable

/-- The nudge never takes `x` out of range: a number with places to lose is far below it. -/
theorem exists_nearestTo?_some (x : Decimal) (dp : ℕ) : ∃ y, x.nearestTo? dp = some y := by
  unfold nearestTo?
  split_ifs with h
  · exact ⟨x, rfl⟩
  · have hscale : 1 ≤ x.scale := by
      have := x.places_le_scale
      omega
    have hpow : (10 : ℚ) ^ 1 ≤ 10 ^ x.scale := pow_le_pow_right₀ (by norm_num) hscale
    have hx : |x.toRat| * 10 ≤ coeffBound := by
      nlinarith [abs_nonneg x.toRat, x.abs_mul_pow_lt]
    have hbig : (2 : ℚ) ≤ coeffBound := by norm_num [coeffBound]
    have hsum : |x.toRat + nudge.toRat| < coeffBound - 1 / 2 := by
      have htri := abs_add_le x.toRat nudge.toRat
      have hnudge : |nudge.toRat| ≤ 1 / 10 := by
        rw [toRat_nudge, abs_of_pos (by positivity)]
        norm_num
      linarith
    obtain ⟨z, hz⟩ := exists_add? hsum
    exact ⟨_, by rw [hz]; rfl⟩

end TradingDesk.Decimal

namespace TradingDesk.Tick

open Decimal

theorem places_mem (t : Tick) : 1 ≤ t.places ∧ t.places ≤ 4 := by cases t <;> decide

theorem toRat_value (t : Tick) : t.value.toRat = 1 / 10 ^ t.places := by
  simp [toRat_eq, value]

theorem value_mul_pow (t : Tick) : t.value.toRat * 10 ^ t.places = 1 := by
  rw [toRat_value, one_div_mul_cancel (ten_pow_pos _).ne']

theorem value_mem (t : Tick) : 1 / 10 ^ 4 ≤ t.value.toRat ∧ t.value.toRat ≤ 1 / 10 := by
  rw [toRat_value]
  cases t <;> norm_num [places]

theorem toRat_lowest (t : Tick) : t.lowest.toRat = t.value.toRat - 1 / 10 ^ 9 := by
  rw [toRat_value]
  cases t <;> norm_num [toRat_eq, lowest, tenTo, places]

theorem toRat_highest (t : Tick) : t.highest.toRat = 1 - t.value.toRat + 1 / 10 ^ 9 := by
  rw [toRat_value]
  cases t <;> norm_num [toRat_eq, highest, tenTo, places]

theorem admits_iff {t : Tick} {price : Decimal} :
    t.admits price = true ↔ t.value.toRat - 1 / 10 ^ 9 ≤ price.toRat ∧
      price.toRat ≤ 1 - t.value.toRat + 1 / 10 ^ 9 := by
  rw [admits, Bool.and_eq_true, decide_eq_true_iff, decide_eq_true_iff, le_iff, le_iff,
    toRat_lowest, toRat_highest]

/-! ### Prices on the grid -/

variable {t : Tick}

/-- The points of the grid are the multiples of the tick. -/
theorem grid_iff {q : ℚ} : Grid t.places q ↔ ∃ n : ℤ, q = n * t.value.toRat := by
  refine exists_congr fun n => ?_
  rw [toRat_value, mul_one_div, eq_div_iff (ten_pow_pos _).ne']

theorem mem_of_pow {n : ℤ} (h1 : 1 ≤ n) (h2 : n < 10 ^ t.places) :
    t.value.toRat ≤ n / 10 ^ t.places ∧ (n : ℚ) / 10 ^ t.places ≤ 1 - t.value.toRat := by
  have hpos := ten_pow_pos t.places
  have hlow : (1 : ℚ) ≤ n := by exact_mod_cast h1
  have hhigh : (n : ℚ) + 1 ≤ 10 ^ t.places := by exact_mod_cast h2
  rw [toRat_value, div_le_div_iff_of_pos_right hpos, div_le_iff₀ hpos, sub_mul,
    one_div_mul_cancel hpos.ne']
  constructor <;> linarith

/-- The nearest point of the grid to an admitted `price` is within the range of the tick. -/
theorem nearestAt_mem {price : Decimal} (h : t.admits price = true) :
    t.value.toRat ≤ nearestAt t.places price.toRat ∧
      nearestAt t.places price.toRat ≤ 1 - t.value.toRat := by
  obtain ⟨hlow, hhigh⟩ := admits_iff.mp h
  have hone := t.value_mul_pow
  have hpow : (10 : ℚ) ^ t.places ≤ 10 ^ 4 := pow_le_pow_right₀ (by norm_num) t.places_mem.2
  have hpos := ten_pow_pos t.places
  refine mem_of_pow (Int.le_floor.mpr ?_) (Int.floor_lt.mpr ?_)
  · push_cast
    nlinarith
  · push_cast
    nlinarith

/-- So is the next point below a `price` that is not below the tick. -/
theorem floorAt_mem {price : Decimal} (hlow : t.value.toRat ≤ price.toRat)
    (hhigh : price.toRat ≤ 1 - t.value.toRat + 1 / 10 ^ 9) :
    t.value.toRat ≤ floorAt t.places price.toRat ∧
      floorAt t.places price.toRat ≤ 1 - t.value.toRat := by
  have hone := t.value_mul_pow
  have hpow : (10 : ℚ) ^ t.places ≤ 10 ^ 4 := pow_le_pow_right₀ (by norm_num) t.places_mem.2
  have hpos := ten_pow_pos t.places
  refine mem_of_pow (Int.le_floor.mpr ?_) (Int.floor_lt.mpr ?_)
  · push_cast
    nlinarith
  · push_cast
    nlinarith

/-- An admitted `price` below the tick has nothing but zero below it. -/
theorem floorAt_eq_zero {price : Decimal} (hlow : t.value.toRat - 1 / 10 ^ 9 ≤ price.toRat)
    (hlt : price.toRat < t.value.toRat) : floorAt t.places price.toRat = 0 := by
  have hone := t.value_mul_pow
  have hpos := ten_pow_pos t.places
  have hmem := t.value_mem
  have hfloor : ⌊price.toRat * 10 ^ t.places⌋ = 0 := by
    rw [Int.floor_eq_zero_iff, Set.mem_Ico]
    constructor <;> nlinarith
  rw [floorAt, hfloor, Int.cast_zero, zero_div]

/-- The nudged `price` of an order has a decimal. -/
theorem nudgeable {price : Decimal} (h : t.admits price = true) : Nudgeable price := by
  obtain ⟨hlow, hhigh⟩ := admits_iff.mp h
  have hmem := t.value_mem
  have hnudge : Grid 9 (1 / 10 ^ 9) := ⟨1, by norm_num⟩
  have hsum : Grid 28 (price.toRat + 1 / 10 ^ 9) := by
    obtain ⟨m, hm⟩ := price.grid_scale.mono price.scale_le
    obtain ⟨n, hn⟩ := hnudge.mono (show 9 ≤ 28 by decide)
    exact ⟨m + n, by rw [add_mul, hm, hn]; push_cast; rfl⟩
  refine ⟨by linarith, hsum.exists_decimal le_rfl ?_⟩
  have hle : price.toRat + 1 / 10 ^ 9 ≤ 1 + 1 / 10 ^ 8 := by linarith
  rw [abs_of_nonneg (by linarith)]
  refine (mul_le_mul_of_nonneg_right hle (ten_pow_pos 28).le).trans_lt ?_
  norm_num [coeffBound]

theorem exists_nearestTo?_of_admits {price : Decimal} (h : t.admits price = true) :
    ∃ p, price.nearestTo? t.places = some p ∧ p.toRat = nearestAt t.places price.toRat :=
  (nudgeable h).exists_nearestTo? (t.places_mem.2.trans (by decide))

end TradingDesk.Tick
