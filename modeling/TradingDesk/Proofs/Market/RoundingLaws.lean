import TradingDesk.Proofs.Market.Rounding

/-! Laws of the roundings of a market. Both the nearest point of the grid and the amount fitted to
its places keep the order of the numbers and leave alone what they have rounded. The nearest point
is off by half a step and the nudge at most. A fitted amount is less than a step below the number,
and above it only at a step that the number misses by less than a ten-thousandth of one. -/

namespace TradingDesk.Decimal

variable {dp : ℕ} {p q : ℚ}

theorem places_floorTo_le (x : Decimal) (dp : ℕ) : (x.floorTo dp).places ≤ dp := by
  rw [places_le_iff, toRat_floorTo]
  exact grid_floorAt _ _

theorem fitTo?_of_places_le {x : Decimal} (h : x.places ≤ dp) : x.fitTo? dp = some x := if_pos h

theorem places_round_le (r : Direction) (x : Decimal) (dp : ℕ) : (x.round r dp).places ≤ dp := by
  refine (places_le_scale _).trans ?_
  unfold round
  split_ifs with h
  · exact h
  · exact le_rfl

theorem places_nearestTo?_le {x y : Decimal} (h : x.nearestTo? dp = some y) : y.places ≤ dp := by
  unfold nearestTo? at h
  split_ifs at h with hplaces
  · cases h
    exact hplaces
  · obtain ⟨z, -, rfl⟩ := Option.map_eq_some_iff.mp h
    exact places_round_le _ _ _

theorem nearestTo?_of_places_le {x : Decimal} (h : x.places ≤ dp) : x.nearestTo? dp = some x :=
  if_pos h

/-! ### To the nearest -/

theorem nearestAt_mono (dp : ℕ) : Monotone (nearestAt dp) := by
  intro p q h
  unfold nearestAt
  gcongr

theorem abs_nearestAt_sub_le (dp : ℕ) (q : ℚ) :
    |nearestAt dp q - q| ≤ 1 / 10 ^ dp / 2 + 1 / 10 ^ 9 := by
  have hpos := ten_pow_pos dp
  have hhalf : (1 : ℚ) / 10 ^ dp / 2 * 10 ^ dp = 1 / 2 := by field_simp
  set v := (q + 1 / 10 ^ 9) * 10 ^ dp + 1 / 2 with hv
  have hbelow : nearestAt dp q ≤ q + 1 / 10 ^ 9 + 1 / 10 ^ dp / 2 := by
    rw [nearestAt, ← hv, div_le_iff₀ hpos, add_mul, hhalf, ← hv]
    exact Int.floor_le v
  have habove : q + 1 / 10 ^ 9 - 1 / 10 ^ dp / 2 ≤ nearestAt dp q := by
    rw [nearestAt, ← hv, le_div_iff₀ hpos, sub_mul, hhalf]
    linarith [Int.lt_floor_add_one v]
  rw [abs_le]
  constructor <;> linarith

/-- `y` is the point of the grid nearest to `x` and the nudge, the half upwards. The way by their
sum comes to the same where it is not taken. -/
structure Nearest (dp : ℕ) (x y : Decimal) : Prop where
  value : y.toRat = ⌊(x.toRat + 1 / 10 ^ 9) * 10 ^ dp + 1 / 2⌋ / 10 ^ dp
  sum : ∃ z, x.add? nudge = some z ∧ (z.round .halfAway dp).toRat = y.toRat
  places : y.places ≤ dp
  near : |y.toRat - x.toRat| ≤ 1 / 10 ^ dp / 2 + 1 / 10 ^ 9
  again : y.nearestTo? dp = some y

theorem Nudgeable.nearest {x : Decimal} (h : Nudgeable x) (hdp : dp ≤ 8) :
    ∃ y, x.nearestTo? dp = some y ∧ Nearest dp x y := by
  obtain ⟨y, hy, hval⟩ := h.exists_nearestTo? hdp
  obtain ⟨z, hz, hsum⟩ := h.exists_add? dp
  have hplaces := places_nearestTo?_le hy
  refine ⟨y, hy, hval, ⟨z, hz, hsum.trans hval.symm⟩, hplaces, ?_, nearestTo?_of_places_le hplaces⟩
  rw [hval]
  exact abs_nearestAt_sub_le dp _

/-- To at most eight places, a `Nudgeable` number is rounded half up, in the order of the numbers,
and every price that a tick admits is `Nudgeable`. -/
theorem rounds_half_up (hdp : dp ≤ 8) :
    (∀ x, Nudgeable x → ∃ y, x.nearestTo? dp = some y ∧ Nearest dp x y) ∧
    (∀ x x' y y', Nudgeable x → Nudgeable x' → x ≤ x' → x.nearestTo? dp = some y →
      x'.nearestTo? dp = some y' → y ≤ y') ∧
    ∀ (t : Tick) (price : Decimal), t.admits price = true → Nudgeable price := by
  refine ⟨fun x hx => hx.nearest hdp, ?_, fun t price h => Tick.nudgeable h⟩
  intro x x' y y' hx hx' hle hy hy'
  obtain ⟨v, hv, hval⟩ := hx.exists_nearestTo? hdp
  obtain ⟨v', hv', hval'⟩ := hx'.exists_nearestTo? hdp
  obtain rfl : v = y := Option.some.inj (hv.symm.trans hy)
  obtain rfl : v' = y' := Option.some.inj (hv'.symm.trans hy')
  rw [le_iff, hval, hval']
  exact nearestAt_mono dp (le_iff.mp hle)

/-- Below an eighth by less than the nudge. -/
def belowEighth : Decimal := ⟨12499999995, 11, by decide, by decide⟩

def eighth : Decimal := ⟨125, 3, by decide, Tick.thousandth.places_le⟩

/-- In hundredths, the nudge takes both to the upper neighbour. -/
theorem rounds_half_up_nudged : 2 ≤ 8 ∧ Tick.hundredth.admits belowEighth = true ∧
    Nudgeable belowEighth ∧ Nudgeable eighth ∧ belowEighth ≤ eighth ∧
    ∃ y y', belowEighth.nearestTo? 2 = some y ∧ eighth.nearestTo? 2 = some y' ∧
      y.toRat = 13 / 100 ∧ y'.toRat = 13 / 100 ∧ y ≤ y' := by
  obtain ⟨hround, hmono, hadmitted⟩ := rounds_half_up (show 2 ≤ 8 by decide)
  have hadmits : Tick.hundredth.admits belowEighth = true := by decide
  have hx := hadmitted _ _ hadmits
  have hx' : Nudgeable eighth := hadmitted .hundredth _ (by decide)
  have hle : belowEighth ≤ eighth := by decide
  obtain ⟨y, hy, hnear⟩ := hround _ hx
  obtain ⟨y', hy', hnear'⟩ := hround _ hx'
  refine ⟨by decide, hadmits, hx, hx', hle, y, y', hy, hy', ?_, ?_, hmono _ _ _ _ hx hx' hle hy hy'⟩
  · rw [hnear.value]
    norm_num [belowEighth, toRat_eq]
  · rw [hnear'.value]
    norm_num [eighth, toRat_eq]

/-! ### Fitting -/

theorem floorAt_mono (dp : ℕ) : Monotone (floorAt dp) := by
  intro p q h
  unfold floorAt
  gcongr

theorem ceilAt_mono (dp : ℕ) : Monotone (ceilAt dp) := by
  intro p q h
  unfold ceilAt
  gcongr

theorem le_ceilAt (dp : ℕ) (q : ℚ) : q ≤ ceilAt dp q :=
  (le_div_iff₀ (ten_pow_pos dp)).mpr (Int.le_ceil _)

theorem ceilAt_lt (dp : ℕ) (q : ℚ) : ceilAt dp q < q + 1 / 10 ^ dp := by
  rw [ceilAt, div_lt_iff₀ (ten_pow_pos dp), add_mul, one_div_mul_cancel (ten_pow_pos dp).ne']
  exact Int.ceil_lt_add_one _

/-- A point of the grid that is less than a step above `q` is its ceiling. -/
theorem Grid.ceilAt_eq_of_le (h : Grid dp p) (hle : q ≤ p) (hlt : p < q + 1 / 10 ^ dp) :
    ceilAt dp q = p := by
  obtain ⟨n, hn⟩ := h
  have hpos := ten_pow_pos dp
  have hceil : ⌈q * 10 ^ dp⌉ = n := by
    rw [Int.ceil_eq_iff, ← hn]
    have hlt' := mul_lt_mul_of_pos_right hlt hpos
    rw [add_mul, one_div_mul_cancel hpos.ne'] at hlt'
    exact ⟨by linarith, mul_le_mul_of_nonneg_right hle hpos.le⟩
  rw [ceilAt, hceil, ← hn, mul_div_cancel_right₀ _ hpos.ne']

theorem fitAt_mono (dp : ℕ) : Monotone (fitAt dp) := (floorAt_mono dp).comp (ceilAt_mono (dp + 4))

theorem lt_fitAt_add (dp : ℕ) (q : ℚ) : q < fitAt dp q + 1 / 10 ^ dp :=
  (le_ceilAt _ q).trans_lt (lt_floorAt_add _ _)

theorem fitAt_lt (dp : ℕ) (q : ℚ) : fitAt dp q < q + 1 / 10 ^ (dp + 4) :=
  (floorAt_le _ _).trans_lt (ceilAt_lt _ q)

theorem Grid.fitAt_eq (h : Grid dp p) (hle : q ≤ p) (hlt : p < q + 1 / 10 ^ (dp + 4)) :
    fitAt dp q = p := by
  rw [fitAt, (h.mono (Nat.le_add_right dp 4)).ceilAt_eq_of_le hle hlt, h.floorAt_eq]

/-- The fitted value is above `q` just where it makes up for the little that `q` misses. -/
theorem lt_fitAt_iff :
    q < fitAt dp q ↔ ∃ p, Grid dp p ∧ q < p ∧ p < q + 1 / 10 ^ (dp + 4) := by
  constructor
  · intro h
    -- the fitted value is itself the step, since the ceiling is near `q`
    exact ⟨fitAt dp q, grid_floorAt _ _, h, fitAt_lt dp q⟩
  · rintro ⟨p, hp, hlt, hnear⟩
    rwa [hp.fitAt_eq hlt.le hnear]

/-- `y` is `x` fitted to `dp` places: less than a step below it, or the step above it that it misses
by less than a ten-thousandth of one. -/
structure Fitted (dp : ℕ) (x y : Decimal) : Prop where
  eq : y = (x.ceilTo (dp + 4)).floorTo dp
  value : y.toRat = ⌊(⌈x.toRat * 10 ^ (dp + 4)⌉ : ℚ) / 10 ^ (dp + 4) * 10 ^ dp⌋ / 10 ^ dp
  places : y.places ≤ dp
  again : y.fitTo? dp = some y
  below : x.toRat < y.toRat + 1 / 10 ^ dp
  above_iff : x.toRat < y.toRat ↔
    ∃ p, Grid dp p ∧ x.toRat < p ∧ p < x.toRat + 1 / 10 ^ (dp + 4)
  above : ∀ p, Grid dp p → x.toRat < p → p < x.toRat + 1 / 10 ^ (dp + 4) → y.toRat = p

theorem fitted (x : Decimal) (dp : ℕ) : Fitted dp x ((x.ceilTo (dp + 4)).floorTo dp) := by
  have hplaces := places_floorTo_le (x.ceilTo (dp + 4)) dp
  have hval := toRat_fit x dp
  refine ⟨rfl, hval, hplaces, fitTo?_of_places_le hplaces, ?_, ?_, ?_⟩
  · rw [hval]
    exact lt_fitAt_add dp _
  · rw [hval]
    exact lt_fitAt_iff
  · intro p hp hlt hnear
    rw [hval, hp.fitAt_eq hlt.le hnear]

/-- Every number `x` has an amount that is `Fitted` to `dp` places, in the order of the numbers. The
floor and the ceiling that it is made of are exact to any number of places. -/
theorem fits_within_step (dp : ℕ) :
    (∀ x : Decimal, ∃ y, x.fitTo? dp = some y ∧ Fitted dp x y) ∧
    (∀ x x' y y' : Decimal, x ≤ x' → x.fitTo? dp = some y → x'.fitTo? dp = some y' → y ≤ y') ∧
    ∀ x : Decimal, (x.floorTo dp).toRat = ⌊x.toRat * 10 ^ dp⌋ / 10 ^ dp ∧
      (x.ceilTo dp).toRat = ⌈x.toRat * 10 ^ dp⌉ / 10 ^ dp := by
  refine ⟨fun x => ⟨_, fitTo?_eq x dp, fitted x dp⟩, ?_,
    fun x => ⟨toRat_floorTo x dp, toRat_ceilTo x dp⟩⟩
  intro x x' y y' hle hy hy'
  obtain rfl := Option.some.inj ((fitTo?_eq x dp).symm.trans hy)
  obtain rfl := Option.some.inj ((fitTo?_eq x' dp).symm.trans hy')
  rw [le_iff, toRat_fit, toRat_fit]
  exact fitAt_mono dp (le_iff.mp hle)

/-- Below a step of four places by less than its ten-thousandth. -/
def belowStep : Decimal := ⟨123449999999, 11, by decide, belowEighth.scale_le⟩

def aboveStep : Decimal := ⟨1234567, 6, by decide, by decide⟩

/-- Both are fitted to the same step, the first of them upwards. -/
theorem fits_within_step_upwards : belowStep ≤ aboveStep ∧
    ∃ y y', belowStep.fitTo? 4 = some y ∧ aboveStep.fitTo? 4 = some y' ∧
      y.toRat = 12345 / 10 ^ 4 ∧ belowStep.toRat < y.toRat ∧ y'.toRat < aboveStep.toRat ∧
      y ≤ y' := by
  obtain ⟨hfit, hmono, -⟩ := fits_within_step 4
  have hle : belowStep ≤ aboveStep := by decide
  obtain ⟨y, hy, hfitted⟩ := hfit belowStep
  obtain ⟨y', hy', hfitted'⟩ := hfit aboveStep
  have hval : y.toRat = 12345 / 10 ^ 4 := hfitted.above _ ⟨12345, by norm_num⟩
    (by norm_num [belowStep, toRat_eq]) (by norm_num [belowStep, toRat_eq])
  refine ⟨hle, y, y', hy, hy', hval, ?_, ?_, hmono _ _ _ _ hle hy hy'⟩
  · rw [hval]
    norm_num [belowStep, toRat_eq]
  · rw [hfitted'.value]
    norm_num [aboveStep, toRat_eq]

end TradingDesk.Decimal
