import TradingDesk.Proofs.Order.Amounts

/-! How a market order fills against the price asked. Whichever the side, the price is brought to
its places downwards, and so is the number of tokens that a buyer takes. A lower price is worse for
a seller, who then gets less than asked; fewer tokens are worse for a buyer, who then gives more for
each. Either shortfall has a bound: a tick for each token sold, or the worth of the last place of
the tokens bought. -/

namespace TradingDesk.Amounts

open Decimal

/-- By how much collateral the amounts `a` are worse than at `price`. -/
def shortfall (side : Side) (price : ℚ) (a : Amounts) : ℚ :=
  match side with
  | .buy => a.maker.toRat - price * a.taker.toRat
  | .sell => price * a.maker.toRat - a.taker.toRat

/-- Where a market order for the amount `maker` fills no worse than asked: a sale at a `price` on
the grid, and a purchase of a number of `tokens` on their grid at a price between the one asked and
its floor. -/
def Fair (t : Tick) (side : Side) (price maker : ℚ) : Prop :=
  match side with
  | .buy => ∃ tokens, Grid (t.places + 2) tokens ∧ floorAt t.places price * tokens ≤ maker ∧
      maker ≤ price * tokens
  | .sell => Grid t.places price

def worstShortfall (t : Tick) (side : Side) (price maker : ℚ) : ℚ :=
  match side with
  | .buy => price / 10 ^ (t.places + 2)
  | .sell => t.value.toRat * maker

variable {t : Tick} {side : Side} {size price : Decimal} {a : Amounts}

/-- An order that takes something has a `price` of at least a tick. -/
theorem tick_le_of_market (h : t.admits price = true)
    (ha : market side size price t.precision = .ok a) (htaker : 0 < a.taker.toRat) :
    t.value.toRat ≤ price.toRat := by
  by_contra hlt
  have hzero := Tick.floorAt_eq_zero (Tick.admits_iff.mp h).1 (not_le.mp hlt)
  exact htaker.ne' (market_taker_eq_zero hzero ha)

theorem market_eq (h : t.admits price = true) (hs : 0 < size.toRat)
    (hlt : floorAt 2 size.toRat / floorAt t.places price.toRat < 10 ^ 18)
    (ha : market side size price t.precision = .ok a) (htaker : 0 < a.taker.toRat) :
    a.maker.toRat = floorAt 2 size.toRat ∧
      a.taker.toRat = proceeds t side a.maker.toRat (floorAt t.places price.toRat) := by
  obtain ⟨hlow, hhigh⟩ :=
    Tick.floorAt_mem (tick_le_of_market h ha htaker) (Tick.admits_iff.mp h).2
  have hs0 : 0 ≤ floorAt 2 size.toRat := Grid.le_floorAt ⟨0, by simp⟩ hs.le
  obtain ⟨b, hb, hmaker, hproceeds⟩ := exists_market side hs0 hlow hhigh hlt
  obtain rfl : b = a := Except.ok.inj (hb.symm.trans ha)
  exact ⟨hmaker, by rw [hmaker, hproceeds]⟩

theorem buy_fills {price maker taker : ℚ} (hp : 0 < floorAt t.places price) (hpos : 0 < taker)
    (htaker : taker = proceeds t .buy maker (floorAt t.places price)) :
    (maker - price * taker ≤ 0 ↔ Fair t .buy price maker) ∧
      maker - price * taker < price / 10 ^ (t.places + 2) := by
  have hle := floorAt_le t.places price
  have hcut : floorAt t.places price * taker ≤ maker := by
    rw [← le_div_iff₀' hp, htaker]
    exact floorAt_le _ _
  have hmore : maker < floorAt t.places price * (taker + 1 / 10 ^ (t.places + 2)) := by
    rw [← div_lt_iff₀' hp, htaker]
    exact lt_floorAt_add _ _
  refine ⟨?_, ?_⟩
  · rw [sub_nonpos]
    constructor
    · intro hfills
      refine ⟨taker, ?_, hcut, hfills⟩
      rw [htaker]
      exact grid_floorAt _ _
    · rintro ⟨tokens, hgrid, hfew, hmany⟩
      refine hmany.trans (mul_le_mul_of_nonneg_left ?_ (hp.le.trans hle))
      rw [htaker]
      exact hgrid.le_floorAt ((le_div_iff₀' hp).mpr hfew)
  · rw [sub_lt_iff_lt_add', div_eq_mul_one_div, ← mul_add]
    exact hmore.trans_le (mul_le_mul_of_nonneg_right hle (by positivity))

theorem sell_fills {price maker taker : ℚ} (hmaker : 0 < maker)
    (htaker : taker = proceeds t .sell maker (floorAt t.places price)) :
    (price * maker - taker ≤ 0 ↔ Fair t .sell price maker) ∧
      price * maker - taker < t.value.toRat * maker := by
  have hshort : price * maker - taker = (price - floorAt t.places price) * maker := by
    rw [htaker, proceeds]
    ring
  refine ⟨?_, ?_⟩
  · rw [hshort, ← not_lt, mul_pos_iff_of_pos_right hmaker, not_lt, sub_nonpos]
    exact le_floorAt_iff
  · rw [hshort, t.toRat_value]
    refine mul_lt_mul_of_pos_right ?_ hmaker
    rw [sub_lt_iff_lt_add']
    exact lt_floorAt_add _ _

/-! ### Amounts of any size

Beyond the sizes that `market_eq` is about a product or a quotient may need more digits than a
decimal has. It is then rounded before it is fitted, and what is lost is small beside it. -/

/-- The last step of an order, taken back to the fitted amount `v`. -/
theorem toRat_of_fitted {w : Decimal} {dp : ℕ} {f : Decimal → Amounts}
    (ha : (do return f (← inRange (w.fitTo? dp)) : Except Error Amounts) = .ok a) :
    ∃ v, a = f v ∧ v.toRat = fitAt dp w.toRat := by
  obtain ⟨v, hv, hval⟩ := exists_fitTo? w dp
  rw [hv, inRange_some, ok_bind] at ha
  exact ⟨v, (Except.ok.inj ha).symm, hval⟩

/-- What is sold at a `price` on the grid has a worth on the grid of amounts, so it is not fitted
again. -/
theorem sale_near (hg : Grid t.places price.toRat) (ha : sale size price t.precision = .ok a) :
    a.maker.toRat = floorAt 2 size.toRat ∧
      |a.taker.toRat - a.maker.toRat * price.toRat| ≤ |a.maker.toRat * price.toRat| / 10 ^ 28 := by
  obtain ⟨w, hw, hfit⟩ := bind_eq_ok.1 ha
  obtain ⟨v, rfl, hval⟩ := toRat_of_fitted hfit
  refine ⟨toRat_floorTo _ _, ?_⟩
  have hplaces := t.places_mem.2
  have hgrid : Grid (t.places + 2) ((size.floorTo 2).toRat * price.toRat) := by
    rw [toRat_floorTo]
    exact ((grid_floorAt 2 _).mul hg).mono (by omega)
  obtain ⟨hfine, hnear⟩ := mul?_near (by omega) hgrid (product_eq_ok.mp hw)
  have hfits : v.toRat = w.toRat := by
    rw [hval]
    exact hfine.fitAt_eq le_rfl (lt_add_of_pos_right _ (by positivity))
  change |v.toRat - _| ≤ _
  rw [hfits]
  exact hnear

/-- The tokens of `a` are the quotient but for its rounding and the step that it is fitted to. -/
theorem market_buy_near (hp : floorAt t.places price.toRat ≠ 0)
    (ha : market .buy size price t.precision = .ok a) :
    a.maker.toRat = floorAt 2 size.toRat ∧
      a.maker.toRat / floorAt t.places price.toRat < a.taker.toRat + 1 / 10 ^ (t.places + 2) +
        (1 + |a.maker.toRat / floorAt t.places price.toRat|) / 10 ^ 28 := by
  rw [← toRat_floorTo price] at hp ⊢
  change (if (price.floorTo t.places).coeff = 0 then _ else
    quotient (size.floorTo 2) (price.floorTo t.places) >>= _) = _ at ha
  rw [if_neg (mt toRat_eq_zero.mpr hp)] at ha
  obtain ⟨w, hw, hfit⟩ := bind_eq_ok.1 ha
  obtain ⟨v, rfl, hval⟩ := toRat_of_fitted hfit
  refine ⟨toRat_floorTo _ _, ?_⟩
  have hnear := (abs_le.mp (div?_near hp (quotient_eq_ok.mp hw))).1
  have hstep : w.toRat < v.toRat + 1 / 10 ^ (t.places + 2) := by
    rw [hval]
    exact lt_fitAt_add (t.places + 2) w.toRat
  change (size.floorTo 2).toRat / _ < v.toRat + _ + (1 + |(size.floorTo 2).toRat / _|) / _
  linarith

theorem buy_worst {price maker taker : ℚ} (hlow : t.value.toRat ≤ floorAt t.places price)
    (hprice : price ≤ 1) (hmaker : 0 ≤ maker)
    (hnear : maker / floorAt t.places price < taker + 1 / 10 ^ (t.places + 2) +
      (1 + |maker / floorAt t.places price|) / 10 ^ 28) :
    maker - price * taker < price / 10 ^ (t.places + 2) + (1 + 2 * maker) / 10 ^ 28 := by
  have hvalue := t.value_mem
  have hp : 0 < floorAt t.places price := by linarith
  have hle := floorAt_le t.places price
  have hlt := lt_floorAt_add t.places price
  rw [← t.toRat_value] at hlt
  set q := maker / floorAt t.places price with hq
  have hq0 : 0 ≤ q := div_nonneg hmaker hp.le
  have hmaker_eq : maker = floorAt t.places price * q := (mul_div_cancel₀ maker hp.ne').symm
  have hmaker_le : maker ≤ price * q := by
    rw [hmaker_eq]
    exact mul_le_mul_of_nonneg_right hle hq0
  have hworth : price * q ≤ 2 * maker := by
    rw [hmaker_eq, ← mul_assoc]
    exact mul_le_mul_of_nonneg_right (by linarith) hq0
  rw [abs_of_nonneg hq0] at hnear
  have hscaled := mul_lt_mul_of_pos_left hnear (hp.trans_le hle)
  calc maker - price * taker
      ≤ price * q - price * taker := by linarith
    _ < price / 10 ^ (t.places + 2) + (price + price * q) / 10 ^ 28 := by
        rw [sub_lt_iff_lt_add']
        refine hscaled.trans_eq ?_
        ring
    _ ≤ price / 10 ^ (t.places + 2) + (1 + 2 * maker) / 10 ^ 28 := by gcongr

theorem sell_worst {price maker taker : ℚ} (hlow : t.value.toRat ≤ floorAt t.places price)
    (hprice : floorAt t.places price ≤ 1) (hmaker : 0 < maker)
    (hnear : |taker - maker * floorAt t.places price| ≤
      |maker * floorAt t.places price| / 10 ^ 28) :
    price * maker - taker < t.value.toRat * maker + (1 + 2 * maker) / 10 ^ 28 := by
  have hvalue := t.value_mem
  have hlt := lt_floorAt_add t.places price
  rw [← t.toRat_value] at hlt
  have hworth : maker * floorAt t.places price ≤ maker := mul_le_of_le_one_right hmaker.le hprice
  rw [abs_of_nonneg (mul_nonneg hmaker.le (by linarith))] at hnear
  have hshort := (abs_le.mp hnear).1
  calc price * maker - taker
      < (floorAt t.places price + t.value.toRat) * maker - taker := by gcongr
    _ = t.value.toRat * maker + (maker * floorAt t.places price - taker) := by ring
    _ ≤ t.value.toRat * maker + maker * floorAt t.places price / 10 ^ 28 := by linarith
    _ ≤ t.value.toRat * maker + (1 + 2 * maker) / 10 ^ 28 := by
        gcongr
        linarith

theorem market_worst (h : t.admits price = true) (hs : 0 < size.toRat)
    (ha : market side size price t.precision = .ok a) (htaker : 0 < a.taker.toRat) :
    shortfall side price.toRat a <
      worstShortfall t side price.toRat a.maker.toRat + (1 + 2 * a.maker.toRat) / 10 ^ 28 := by
  have htick := tick_le_of_market h ha htaker
  obtain ⟨hlow, hhigh⟩ := Tick.floorAt_mem htick (Tick.admits_iff.mp h).2
  have hvalue := t.value_mem
  have hmaker : 0 ≤ floorAt 2 size.toRat := Grid.le_floorAt ⟨0, by simp⟩ hs.le
  cases side with
  | buy =>
    obtain ⟨heq, hnear⟩ := market_buy_near (by linarith) ha
    refine buy_worst hlow ?_ (heq ▸ hmaker) hnear
    have := (Tick.admits_iff.mp h).2
    linarith
  | sell =>
    have hg : Grid t.places (price.floorTo t.places).toRat := by
      rw [toRat_floorTo]
      exact grid_floorAt _ _
    obtain ⟨heq, hnear⟩ := sale_near hg ha
    rw [toRat_floorTo] at hnear
    refine sell_worst hlow (by linarith) ?_ hnear
    refine lt_of_le_of_ne (heq ▸ hmaker) fun hzero => ?_
    rw [← hzero, zero_mul, sub_zero, abs_zero, zero_div] at hnear
    exact htaker.ne' (abs_nonpos_iff.mp hnear)

/-- Where digits suffice for the tokens that it is about, a market order fills no worse than asked
just where it is `Fair`, and is never worse by as much as a tick for each token sold, or the worth
of the last place of the tokens bought. Whatever its size, it is worse by no more than that and a
28th place of its amounts. -/
theorem market_fills (h : t.admits price = true) (hs : 0 < size.toRat)
    (ha : market side size price t.precision = .ok a) (htaker : 0 < a.taker.toRat) :
    (floorAt 2 size.toRat / floorAt t.places price.toRat < 10 ^ 18 →
      (shortfall side price.toRat a ≤ 0 ↔ Fair t side price.toRat a.maker.toRat) ∧
        shortfall side price.toRat a < worstShortfall t side price.toRat a.maker.toRat) ∧
    shortfall side price.toRat a <
      worstShortfall t side price.toRat a.maker.toRat + (1 + 2 * a.maker.toRat) / 10 ^ 28 := by
  refine ⟨fun hlt => ?_, market_worst h hs ha htaker⟩
  have hfloor := (Tick.floorAt_mem (tick_le_of_market h ha htaker) (Tick.admits_iff.mp h).2).1
  have hp : 0 < floorAt t.places price.toRat := by linarith [t.value_mem]
  obtain ⟨-, hproceeds⟩ := market_eq h hs hlt ha htaker
  cases side with
  | buy => exact buy_fills hp htaker hproceeds
  | sell =>
    have hmaker : 0 < a.maker.toRat := by
      rw [hproceeds] at htaker
      exact (pos_iff_pos_of_mul_pos htaker).mpr hp
    exact sell_fills hmaker hproceeds

/-! ### Orders filled worse than asked -/

def ten : Decimal := ⟨10, 0, by decide, Decimal.zero.scale_le⟩

/-- A price between two points of the grid of hundredths. -/
def offGrid : Decimal := ⟨559, 3, by decide, Tick.thousandth.places_le⟩

/-- A price on that grid. -/
def onGrid : Decimal := ⟨55, 2, by decide, Tick.hundredth.places_le⟩

def threeTenths : Decimal := ⟨3, 1, by decide, Tick.tenth.places_le⟩

theorem market_sell_offGrid : ∃ a, market .sell ten offGrid Tick.hundredth.precision = .ok a ∧
    a.maker.toRat = 10 ∧ a.taker.toRat = 11 / 2 :=
  ⟨⟨ten, ⟨550, 2, by decide, by decide⟩⟩, rfl, by norm_num [ten, toRat_eq], by norm_num [toRat_eq]⟩

theorem market_buy_threeTenths :
    ∃ a, market .buy ten threeTenths Tick.hundredth.precision = .ok a ∧ a.maker.toRat = 10 ∧
      a.taker.toRat = 333333 / 10 ^ 4 :=
  ⟨⟨ten, ⟨333333, 4, by decide, by decide⟩⟩, rfl, by norm_num [ten, toRat_eq],
    by norm_num [toRat_eq]⟩

/-- The worth has a quarter at its end, for which there is no digit left. -/
theorem market_sell_largest :
    ∃ a, market .sell largest onGrid Tick.hundredth.precision = .ok a ∧
      a.maker.toRat = 79228162514264337593543950335 ∧
      a.taker.toRat = 43575489382845385676449172684 :=
  ⟨⟨largest, ⟨43575489382845385676449172684, 0, by decide, by decide⟩⟩, rfl,
    by norm_num [largest, toRat_eq], by norm_num [toRat_eq]⟩

theorem market_fills_hundredth :
    (∃ a, market .sell ten offGrid Tick.hundredth.precision = .ok a ∧
      shortfall .sell offGrid.toRat a < 1 / 10 ∧ ¬Fair .hundredth .sell offGrid.toRat 10) ∧
    ∃ a, market .buy ten threeTenths Tick.hundredth.precision = .ok a ∧
      shortfall .buy threeTenths.toRat a < 3 / 10 ^ 5 ∧
      ¬Fair .hundredth .buy threeTenths.toRat 10 := by
  have hten : 0 < ten.toRat := by norm_num [ten, toRat_eq]
  constructor
  · obtain ⟨a, ha, hmaker, htaker⟩ := market_sell_offGrid
    obtain ⟨hfair, hworst⟩ := (market_fills (t := .hundredth) (by decide) hten ha
      (by norm_num [htaker])).1 (by norm_num [floorAt, ten, offGrid, toRat_eq, Tick.places])
    rw [hmaker] at hfair hworst
    refine ⟨a, ha, hworst.trans_le ?_, hfair.not.1 ?_⟩
    · norm_num [worstShortfall, Tick.toRat_value, Tick.places]
    · norm_num [shortfall, hmaker, htaker, offGrid, toRat_eq]
  · obtain ⟨a, ha, hmaker, htaker⟩ := market_buy_threeTenths
    obtain ⟨hfair, hworst⟩ := (market_fills (t := .hundredth) (by decide) hten ha
      (by norm_num [htaker])).1 (by norm_num [floorAt, ten, threeTenths, toRat_eq, Tick.places])
    rw [hmaker] at hfair hworst
    refine ⟨a, ha, hworst.trans_le ?_, hfair.not.1 ?_⟩
    · norm_num [worstShortfall, threeTenths, toRat_eq, Tick.places]
    · norm_num [shortfall, hmaker, htaker, threeTenths, toRat_eq]

/-- Ten tokens are sold for 5.5 where 5.59 were asked, and for 10 no more than 33.3333 tokens are
bought at 0.3, which cost less. The most tokens that there can be are sold for less than asked even
at a price on the grid. -/
theorem market_fills_worse :
    (∃ a, Tick.hundredth.admits offGrid = true ∧ 0 < ten.toRat ∧
      market .sell ten offGrid Tick.hundredth.precision = .ok a ∧ 0 < a.maker.toRat ∧
      0 < a.taker.toRat ∧ a.taker.toRat < offGrid.toRat * a.maker.toRat) ∧
    (∃ a, Tick.hundredth.admits threeTenths = true ∧ 0 < ten.toRat ∧
      market .buy ten threeTenths Tick.hundredth.precision = .ok a ∧ 0 < a.maker.toRat ∧
      0 < a.taker.toRat ∧ threeTenths.toRat * a.taker.toRat < a.maker.toRat) ∧
    ∃ a, Tick.hundredth.admits onGrid = true ∧ 0 < largest.toRat ∧
      market .sell largest onGrid Tick.hundredth.precision = .ok a ∧ 0 < a.maker.toRat ∧
      0 < a.taker.toRat ∧ Fair .hundredth .sell onGrid.toRat a.maker.toRat ∧
      a.taker.toRat < onGrid.toRat * a.maker.toRat := by
  have hten : 0 < ten.toRat := by norm_num [ten, toRat_eq]
  refine ⟨?_, ?_, ?_⟩
  · obtain ⟨a, ha, hmaker, htaker⟩ := market_sell_offGrid
    refine ⟨a, by decide, hten, ha, ?_, ?_, ?_⟩
    · norm_num [hmaker]
    · norm_num [htaker]
    · norm_num [hmaker, htaker, offGrid, toRat_eq]
  · obtain ⟨a, ha, hmaker, htaker⟩ := market_buy_threeTenths
    refine ⟨a, by decide, hten, ha, ?_, ?_, ?_⟩
    · norm_num [hmaker]
    · norm_num [htaker]
    · norm_num [hmaker, htaker, threeTenths, toRat_eq]
  · obtain ⟨a, ha, hmaker, htaker⟩ := market_sell_largest
    refine ⟨a, by decide, ?_, ha, ?_, ?_, onGrid.grid_scale, ?_⟩
    · norm_num [largest, toRat_eq]
    · norm_num [hmaker]
    · norm_num [htaker]
    · norm_num [hmaker, htaker, onGrid, toRat_eq]

end TradingDesk.Amounts
