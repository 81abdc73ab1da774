import TradingDesk.Order.Build
import TradingDesk.Proofs.Order.Amounts

/-! Orders built from tickets, where both tokens have six decimals. A limit order is built
exactly when its size, price and token are in range, and what it gives and takes is then the
exact worth of its rounded size at its rounded price. A market order takes the exact worth, or
the exact quotient cut to the places of an amount. -/

namespace TradingDesk.Ticket

open Decimal Amounts

variable {t : Ticket} {trader : Trader} {c : Contracts} {tif : TimeInForce} {tick : Tick}

/-! ### Steps of the build -/

theorem tokenWord_eq_ok {w : Word} :
    t.tokenWord = .ok w ↔ Word.read (Text.trim t.tokenId) = .ok w := by
  unfold tokenWord
  split <;> simp [*]

theorem tokenWord_onlyInvalid (t : Ticket) : OnlyInvalid t.tokenWord := by
  unfold tokenWord
  split
  · exact .ok _
  · exact .error _

theorem baseAmounts_eq_ok {m k : Word} :
    t.baseAmounts c tif tick = .ok (m, k) ↔
      ∃ a, ofOrder tif t.side t.size t.price tick.precision = .ok a ∧
        baseUnits a.maker (tokenDecimals c t.side).1 = .ok m ∧
        baseUnits a.taker (tokenDecimals c t.side).2 = .ok k ∧ m ≠ 0 ∧ k ≠ 0 := by
  unfold baseAmounts
  simp only [bind_eq_ok]
  refine exists_congr fun a => and_congr_right fun _ => ?_
  constructor
  · rintro ⟨m', hm, k', hk, h⟩
    split_ifs at h with hzero
    cases h
    exact ⟨hm, hk, not_or.mp hzero⟩
  · rintro ⟨hm, hk, hzero⟩
    exact ⟨m, hm, k, hk, if_neg (not_or.mpr hzero)⟩

theorem baseAmounts_onlyInvalid : OnlyInvalid (t.baseAmounts c tif tick) := by
  refine (ofOrder_onlyInvalid _ _ _ _ _).bind fun a _ => ?_
  refine (baseUnits_onlyInvalid _ _).bind fun m _ => ?_
  refine (baseUnits_onlyInvalid _ _).bind fun k _ => ?_
  split_ifs
  · exact .error _
  · exact .ok _

/-- The order of the ticket `t` once its token is read and its amounts are known. -/
def order (t : Ticket) (trader : Trader) (tokenId makerAmount takerAmount : Word) : Order where
  salt := 0
  maker := trader.maker
  signer := trader.signer
  taker := t.taker.getD .zero
  tokenId := tokenId
  makerAmount := makerAmount
  takerAmount := takerAmount
  expiration := positive t.expiration
  nonce := positive t.nonce
  feeRate := positive t.feeRate
  side := t.side
  signatureKind := trader.signatureKind

theorem build_eq_ok {o : Order} :
    t.build trader c tif tick = .ok o ↔ 0 < t.size.toRat ∧ tick.admits t.price = true ∧
      ∃ w m k, t.tokenWord = .ok w ∧ t.baseAmounts c tif tick = .ok (m, k) ∧
        t.order trader w m k = o := by
  unfold build
  rw [toRat_pos]
  split_ifs with hsize hprice
  · simp [hsize]
  · have hrefused : tick.admits t.price = false := by simpa using hprice
    simp [hrefused]
  · simp only [bind_eq_ok, not_le.mp hsize, true_and]
    constructor
    · rintro ⟨w, hw, ⟨m, k⟩, hmk, h⟩
      exact ⟨by simpa using hprice, w, m, k, hw, hmk, by cases h; rfl⟩
    · rintro ⟨-, w, m, k, hw, hmk, rfl⟩
      exact ⟨w, hw, (m, k), hmk, rfl⟩

/-- Whatever is wrong with `t`, it is refused. -/
theorem build_onlyInvalid : OnlyInvalid (t.build trader c tif tick) := by
  unfold build
  split_ifs
  · exact .error _
  · exact .error _
  · exact (tokenWord_onlyInvalid t).bind fun _ _ => baseAmounts_onlyInvalid.bind fun _ _ => .ok _

/-! ### Six decimals -/

theorem tokenDecimals_eq (hcol : c.collateralDecimals = 6) (hcon : c.conditionalDecimals = 6)
    (s : Side) : tokenDecimals c s = (6, 6) := by
  cases s <;> simp [tokenDecimals, hcol, hcon]

theorem grid_hundredth : Grid 2 (1 / 100) := ⟨1, by norm_num⟩

/-- The size of `t` in hundredths, from below. -/
def lots (t : Ticket) : ℚ := floorAt 2 t.size.toRat

theorem grid_lots (t : Ticket) : Grid 2 t.lots := grid_floorAt 2 _

/-- Below a hundredth there is no size left. -/
theorem lots_pos_iff : 0 < t.lots ↔ 1 / 100 ≤ t.size.toRat := by
  constructor
  · intro h
    obtain ⟨n, hn⟩ := t.grid_lots
    have hn1 : (1 : ℚ) ≤ n := by
      have hpos : (0 : ℚ) < n := hn ▸ mul_pos h (ten_pow_pos 2)
      exact_mod_cast (Int.add_one_le_iff.mpr (by exact_mod_cast hpos : 0 < n))
    have := floorAt_le 2 t.size.toRat
    rw [← lots] at this
    linarith
  · intro h
    have := grid_hundredth.le_floorAt h
    rw [← lots] at this
    linarith

theorem toNat_pos_of_cast {w : Word} {v : ℚ} (h : (w.toNat : ℚ) = v) (hv : 0 < v) : w ≠ 0 := by
  rintro rfl
  rw [← h] at hv
  simp at hv

/-! ### Limit orders -/

/-- What the limit order `t` must meet on a market with this `tick`. -/
structure InLimits (t : Ticket) (tick : Tick) : Prop where
  size : 1 / 100 ≤ t.size.toRat
  low : tick.value.toRat - 1 / 10 ^ 9 ≤ t.price.toRat
  high : t.price.toRat ≤ 1 - tick.value.toRat + 1 / 10 ^ 9
  token : ∃ w, Word.read (Text.trim t.tokenId) = .ok w
  fits : t.lots * 10 ^ 6 < 2 ^ 96

/-- The price of the limit order `t` on the grid of `tick`. -/
def limitPrice (t : Ticket) (tick : Tick) : ℚ := nearestAt tick.places t.price.toRat

/-- The amounts of `o` are exact: the size in tokens against its worth at a price that the
market has. -/
structure LimitExact (t : Ticket) (tick : Tick) (o : Order) : Prop where
  side : o.side = t.side
  price_grid : ∃ n : ℤ, t.limitPrice tick = n * tick.value.toRat
  price_low : tick.value.toRat ≤ t.limitPrice tick
  price_high : t.limitPrice tick ≤ 1 - tick.value.toRat
  tokens : ((t.side.tokens o.makerAmount o.takerAmount).toNat : ℚ) = t.lots * 10 ^ 6
  collateral : ((t.side.collateral o.makerAmount o.takerAmount).toNat : ℚ) =
    t.lots * t.limitPrice tick * 10 ^ 6
  maker_pos : 0 < o.makerAmount.toNat
  taker_pos : 0 < o.takerAmount.toNat

theorem grid_limitPrice (t : Ticket) (tick : Tick) : Grid tick.places (t.limitPrice tick) :=
  grid_nearestAt _ _

theorem limit_baseAmounts (hcol : c.collateralDecimals = 6) (hcon : c.conditionalDecimals = 6)
    (htif : tif.isMarket = false) (hprice : tick.admits t.price = true) (hlots : 0 < t.lots)
    (hfits : t.lots * 10 ^ 6 < 2 ^ 96) :
    ∃ m k, t.baseAmounts c tif tick = .ok (m, k) ∧
      ((t.side.tokens m k).toNat : ℚ) = t.lots * 10 ^ 6 ∧
      ((t.side.collateral m k).toNat : ℚ) = t.lots * t.limitPrice tick * 10 ^ 6 := by
  obtain ⟨hlow, hhigh⟩ := Tick.nearestAt_mem hprice
  have hmem := tick.value_mem
  have hp0 : 0 < t.limitPrice tick := by unfold limitPrice; linarith
  have hp1 : t.limitPrice tick ≤ 1 := by unfold limitPrice; linarith
  rw [← cast_coeffBound] at hfits
  obtain ⟨a, ha, htokens, hcollateral⟩ := exists_limit t.side hprice hlots.le hfits
  rw [← limitPrice, ← lots] at hcollateral
  rw [← lots] at htokens
  have hworth := mul_pos hlots hp0
  obtain ⟨x, hx, hxval⟩ := exists_baseUnits_of_grid (n := 6) (by decide) (htokens ▸ hlots.le)
    (htokens ▸ t.grid_lots.mono (by decide)) (htokens ▸ hfits)
  obtain ⟨y, hy, hyval⟩ := exists_baseUnits_of_grid (n := 6) (by decide)
    (hcollateral ▸ hworth.le)
    (hcollateral ▸ (t.grid_lots.mul (t.grid_limitPrice tick)).mono (by
      have := tick.places_mem.2
      omega))
    (by rw [hcollateral]; nlinarith [mul_le_of_le_one_right hlots.le hp1])
  rw [htokens] at hxval
  rw [hcollateral] at hyval
  have hx0 := toNat_pos_of_cast hxval (mul_pos hlots (ten_pow_pos 6))
  have hy0 := toNat_pos_of_cast hyval (mul_pos hworth (ten_pow_pos 6))
  have hofOrder : ofOrder tif t.side t.size t.price tick.precision = .ok a := by
    rw [ofOrder, htif]
    exact ha
  simp only [baseAmounts_eq_ok, tokenDecimals_eq hcol hcon]
  cases hside : t.side <;> rw [hside] at hx hy hofOrder
  · exact ⟨y, x, ⟨a, hofOrder, hy, hx, hy0, hx0⟩, hxval, hyval⟩
  · exact ⟨x, y, ⟨a, hofOrder, hx, hy, hx0, hy0⟩, hxval, hyval⟩

/-- A limit order that is built from `t` has a size left, and its tokens fit. -/
theorem limit_fits (hcol : c.collateralDecimals = 6) (hcon : c.conditionalDecimals = 6)
    (htif : tif.isMarket = false) (hsize : 0 < t.size.toRat) {m k : Word}
    (h : t.baseAmounts c tif tick = .ok (m, k)) : 0 < t.lots ∧ t.lots * 10 ^ 6 < 2 ^ 96 := by
  obtain ⟨a, ha, hm, hk, hm0, hk0⟩ := baseAmounts_eq_ok.mp h
  rw [ofOrder, htif] at ha
  have htokens := limit_tokens ha
  rw [tokenDecimals_eq hcol hcon] at hm hk
  obtain ⟨w, hw, hw0⟩ : ∃ w, baseUnits (t.size.floorTo 2) 6 = .ok w ∧ w ≠ 0 := by
    cases hside : t.side <;> rw [hside] at htokens
    · exact ⟨k, by rw [← hk]; exact congrArg (baseUnits · 6) htokens.symm, hk0⟩
    · exact ⟨m, by rw [← hm]; exact congrArg (baseUnits · 6) htokens.symm, hm0⟩
  have hlots0 : 0 ≤ t.lots := div_nonneg
    (by exact_mod_cast Int.floor_nonneg.mpr (mul_nonneg hsize.le (ten_pow_pos 2).le))
    (ten_pow_pos 2).le
  have hval : |(t.size.floorTo 2).toRat| = t.lots := by
    rw [toRat_floorTo]
    exact abs_of_nonneg hlots0
  have hfits : t.lots * 10 ^ 6 < coeffBound := by
    by_contra! hover
    rw [baseUnits_of_le (by decide) (by rwa [hval])] at hw
    cases hw
  refine ⟨lt_of_le_of_ne hlots0 fun hzero => hw0 ?_, by rwa [cast_coeffBound] at hfits⟩
  obtain ⟨w', hw', hval'⟩ := exists_baseUnits (x := t.size.floorTo 2) (n := 6) (by decide)
    (by rwa [hval])
  rw [hw] at hw'
  cases hw'
  rw [hval, ← hzero, zero_mul, Nat.floor_zero] at hval'
  exact BitVec.eq_of_toNat_eq hval'

/-- A limit order is built exactly when it is `InLimits`, is refused otherwise, and loses nothing to
rounding once its size and its price are on their grids. -/
theorem limit_build (t : Ticket) (trader : Trader) (c : Contracts) (tif : TimeInForce)
    (tick : Tick) (hcol : c.collateralDecimals = 6) (hcon : c.conditionalDecimals = 6)
    (htif : tif.isMarket = false) :
    ((∃ o, t.build trader c tif tick = .ok o) ↔ t.InLimits tick) ∧
      (¬ t.InLimits tick → ∃ cause, t.build trader c tif tick = .error (.invalid cause)) ∧
      ∀ o, t.build trader c tif tick = .ok o → t.LimitExact tick o := by
  have hiff : (∃ o, t.build trader c tif tick = .ok o) ↔ t.InLimits tick := by
    constructor
    · rintro ⟨o, ho⟩
      obtain ⟨hsize, hprice, w, m, k, hw, hmk, -⟩ := build_eq_ok.mp ho
      obtain ⟨hlots, hfits⟩ := limit_fits hcol hcon htif hsize hmk
      obtain ⟨hlow, hhigh⟩ := Tick.admits_iff.mp hprice
      exact ⟨lots_pos_iff.mp hlots, hlow, hhigh, ⟨w, tokenWord_eq_ok.mp hw⟩, hfits⟩
    · intro h
      obtain ⟨w, hw⟩ := h.token
      obtain ⟨m, k, hmk, -, -⟩ := limit_baseAmounts hcol hcon htif
        (Tick.admits_iff.mpr ⟨h.low, h.high⟩) (lots_pos_iff.mpr h.size) h.fits
      exact ⟨_, build_eq_ok.mpr ⟨by linarith [h.size], Tick.admits_iff.mpr ⟨h.low, h.high⟩,
        w, m, k, tokenWord_eq_ok.mpr hw, hmk, rfl⟩⟩
  refine ⟨hiff, fun h => ?_, fun o ho => ?_⟩
  · exact build_onlyInvalid.exists_error fun o ho => h (hiff.mp ⟨o, ho⟩)
  · obtain ⟨hsize, hprice, w, m, k, -, hmk, rfl⟩ := build_eq_ok.mp ho
    obtain ⟨hlots, hfits⟩ := limit_fits hcol hcon htif hsize hmk
    obtain ⟨m', k', hmk', htokens, hcollateral⟩ :=
      limit_baseAmounts hcol hcon htif hprice hlots hfits
    obtain ⟨rfl, rfl⟩ : m = m' ∧ k = k' := by simpa [hmk] using hmk'
    obtain ⟨-, -, -, -, hm0, hk0⟩ := baseAmounts_eq_ok.mp hmk
    obtain ⟨hlow, hhigh⟩ := Tick.nearestAt_mem hprice
    exact ⟨rfl, Tick.grid_iff.mp (t.grid_limitPrice tick), hlow, hhigh, htokens, hcollateral,
      Nat.pos_of_ne_zero fun h0 => hm0 (BitVec.eq_of_toNat_eq h0),
      Nat.pos_of_ne_zero fun h0 => hk0 (BitVec.eq_of_toNat_eq h0)⟩

/-- Its price is rounded up by the nudge alone. -/
def nudged : Ticket where
  tokenId := " 123"
  price := ⟨5049999995, 10, by decide, by decide⟩
  size := ⟨100559, 3, by decide, by decide⟩
  side := .buy

theorem limit_build_nudged :
    Chain.polygon.contracts.collateralDecimals = 6 ∧
      Chain.polygon.contracts.conditionalDecimals = 6 ∧
      TimeInForce.goodTillCancelled.isMarket = false ∧
      ∃ o, nudged.build ⟨.zero, none, .account⟩ Chain.polygon.contracts .goodTillCancelled
        .hundredth = .ok o ∧ o.makerAmount.toNat = 51280500 ∧ o.takerAmount.toNat = 100550000 := by
  have hlots : nudged.lots = 10055 / 100 := by
    norm_num [lots, floorAt, nudged, toRat_eq]
  have hprice : nudged.limitPrice .hundredth = 51 / 100 := by
    norm_num [limitPrice, nearestAt, nudged, toRat_eq, Tick.places]
  have hlimits : nudged.InLimits .hundredth := by
    refine ⟨?_, ?_, ?_, ⟨123, by decide +kernel⟩, ?_⟩
    · norm_num [nudged, toRat_eq]
    · norm_num [nudged, toRat_eq, Tick.value, Tick.places]
    · norm_num [nudged, toRat_eq, Tick.value, Tick.places]
    · norm_num [hlots]
  obtain ⟨hiff, -, hexact⟩ := limit_build nudged ⟨.zero, none, .account⟩ Chain.polygon.contracts
    .goodTillCancelled .hundredth rfl rfl rfl
  obtain ⟨o, ho⟩ := hiff.mpr hlimits
  have hc := (hexact o ho).collateral
  have ht := (hexact o ho).tokens
  rw [hlots] at ht hc
  rw [hprice] at hc
  refine ⟨rfl, rfl, rfl, o, ho, ?_, ?_⟩
  · have : (o.makerAmount.toNat : ℚ) = 51280500 := hc.trans (by norm_num)
    exact_mod_cast this
  · have : (o.takerAmount.toNat : ℚ) = 100550000 := ht.trans (by norm_num)
    exact_mod_cast this

/-! ### Market orders -/

/-- The price of the market order `t` on the grid of `tick`, never above the one asked for. -/
def marketPrice (t : Ticket) (tick : Tick) : ℚ := floorAt tick.places t.price.toRat

/-- The base units that the market order `t` takes: the exact quotient, cut to the places of an
amount, for a buyer, and the exact worth for a seller. -/
def takerUnits (t : Ticket) (tick : Tick) : ℚ :=
  match t.side with
  | .buy => ⌊t.lots / t.marketPrice tick * 10 ^ (tick.places + 2)⌋ * 10 ^ (4 - tick.places)
  | .sell => t.lots * t.marketPrice tick * 10 ^ 6

structure MarketExact (t : Ticket) (tick : Tick) (o : Order) : Prop where
  side : o.side = t.side
  price_low : tick.value.toRat ≤ t.marketPrice tick
  price_high : t.marketPrice tick ≤ 1 - tick.value.toRat
  maker : (o.makerAmount.toNat : ℚ) = t.lots * 10 ^ 6
  taker : (o.takerAmount.toNat : ℚ) = t.takerUnits tick

theorem proceeds_mul_pow (t : Ticket) (tick : Tick) :
    proceeds tick t.side t.lots (t.marketPrice tick) * 10 ^ 6 = t.takerUnits tick := by
  unfold proceeds takerUnits
  cases t.side with
  | buy =>
    have hpow : (10 : ℚ) ^ 6 = 10 ^ (tick.places + 2) * 10 ^ (4 - tick.places) := by
      have := tick.places_mem.2
      rw [← pow_add]
      congr 1
      omega
    dsimp only
    rw [hpow, ← mul_assoc, floorAt_mul_pow]
  | sell => rfl

/-- What a market order takes has the places of its base units, is something, and fits. -/
theorem proceeds_mem (hlots : 0 < t.lots) (hlow : tick.value.toRat ≤ t.marketPrice tick)
    (hhigh : t.marketPrice tick ≤ 1 - tick.value.toRat)
    (hlt : t.lots / t.marketPrice tick < 10 ^ 18) :
    Grid 6 (proceeds tick t.side t.lots (t.marketPrice tick)) ∧
      0 < proceeds tick t.side t.lots (t.marketPrice tick) ∧
      proceeds tick t.side t.lots (t.marketPrice tick) < 10 ^ 18 := by
  have hmem := tick.value_mem
  have hd := tick.places_mem.2
  have hp0 : 0 < t.marketPrice tick := by linarith
  have hp1 : t.marketPrice tick ≤ 1 := by linarith
  unfold proceeds
  cases t.side with
  | buy =>
    have hquot : t.lots ≤ t.lots / t.marketPrice tick := le_div_self hlots.le hp0 hp1
    have hgrid : Grid (tick.places + 2) t.lots := t.grid_lots.mono (by omega)
    exact ⟨(grid_floorAt _ _).mono (by omega), hlots.trans_le (hgrid.le_floorAt hquot),
      (floorAt_le _ _).trans_lt hlt⟩
  | sell =>
    have hle : t.lots * t.marketPrice tick ≤ t.lots := mul_le_of_le_one_right hlots.le hp1
    rw [div_lt_iff₀ hp0] at hlt
    exact ⟨(t.grid_lots.mul (grid_floorAt _ _)).mono (by omega), mul_pos hlots hp0, by nlinarith⟩

theorem market_baseAmounts (hcol : c.collateralDecimals = 6) (hcon : c.conditionalDecimals = 6)
    (htif : tif.isMarket = true) (hlots : 0 < t.lots)
    (hlow : tick.value.toRat ≤ t.marketPrice tick)
    (hhigh : t.marketPrice tick ≤ 1 - tick.value.toRat)
    (hlt : t.lots / t.marketPrice tick < 10 ^ 18) :
    ∃ m k, t.baseAmounts c tif tick = .ok (m, k) ∧ (m.toNat : ℚ) = t.lots * 10 ^ 6 ∧
      (k.toNat : ℚ) = t.takerUnits tick := by
  have hmem := tick.value_mem
  have hp0 : 0 < t.marketPrice tick := by linarith
  have hlots18 : t.lots < 10 ^ 18 := by
    rw [div_lt_iff₀ hp0] at hlt
    nlinarith
  have hfits : ∀ v : ℚ, v < 10 ^ 18 → v * 10 ^ 6 < coeffBound := fun v hv => by
    refine (mul_lt_mul_of_pos_right hv (ten_pow_pos 6)).trans ?_
    norm_num [coeffBound]
  obtain ⟨a, ha, hmaker, htaker⟩ := exists_market t.side hlots.le hlow hhigh hlt
  rw [← lots] at hmaker htaker
  rw [← marketPrice] at htaker
  obtain ⟨hgrid, hpos, hbound⟩ := proceeds_mem hlots hlow hhigh hlt
  obtain ⟨m, hm, hmval⟩ := exists_baseUnits_of_grid (n := 6) (by decide) (hmaker ▸ hlots.le)
    (hmaker ▸ t.grid_lots.mono (by decide)) (hmaker ▸ hfits _ hlots18)
  obtain ⟨k, hk, hkval⟩ := exists_baseUnits_of_grid (n := 6) (by decide) (htaker ▸ hpos.le)
    (htaker ▸ hgrid) (htaker ▸ hfits _ hbound)
  rw [hmaker] at hmval
  rw [htaker] at hkval
  refine ⟨m, k, ?_, hmval, hkval.trans (t.proceeds_mul_pow tick)⟩
  rw [baseAmounts_eq_ok, tokenDecimals_eq hcol hcon, ofOrder, htif]
  exact ⟨a, ha, hm, hk, toNat_pos_of_cast hmval (mul_pos hlots (ten_pow_pos 6)),
    toNat_pos_of_cast hkval (mul_pos hpos (ten_pow_pos 6))⟩

/-- A market order at an admitted price below the tick is refused, and one that is not too large is
built at the `tick` or above, with the exact floor of what its size is worth. -/
theorem market_build (t : Ticket) (trader : Trader) (c : Contracts) (tif : TimeInForce)
    (tick : Tick) (hcol : c.collateralDecimals = 6) (hcon : c.conditionalDecimals = 6)
    (htif : tif.isMarket = true) (htoken : ∃ w, Word.read (Text.trim t.tokenId) = .ok w)
    (hsize : 1 / 100 ≤ t.size.toRat) :
    (tick.value.toRat - 1 / 10 ^ 9 ≤ t.price.toRat → t.price.toRat < tick.value.toRat →
      ∃ cause, t.build trader c tif tick = .error (.invalid cause)) ∧
    (tick.value.toRat ≤ t.price.toRat → t.price.toRat ≤ 1 - tick.value.toRat + 1 / 10 ^ 9 →
      t.lots / t.marketPrice tick < 10 ^ 18 →
      ∃ o, t.build trader c tif tick = .ok o ∧ t.MarketExact tick o) := by
  constructor
  · intro hlow hlt
    refine build_onlyInvalid.exists_error fun o ho => ?_
    obtain ⟨-, -, w, m, k, -, hmk, -⟩ := build_eq_ok.mp ho
    obtain ⟨a, ha, -, hk, -, hk0⟩ := baseAmounts_eq_ok.mp hmk
    rw [ofOrder, htif] at ha
    have hzero := market_taker_eq_zero (Tick.floorAt_eq_zero hlow hlt) ha
    rw [tokenDecimals_eq hcol hcon] at hk
    obtain ⟨k', hk', hval⟩ := exists_baseUnits (x := a.taker) (n := 6) (by decide) (by
      rw [hzero, abs_zero, zero_mul]
      norm_num [coeffBound])
    rw [hk] at hk'
    cases hk'
    rw [hzero, abs_zero, zero_mul, Nat.floor_zero] at hval
    exact hk0 (BitVec.eq_of_toNat_eq hval)
  · intro hlow hhigh hlt
    have hmem := tick.value_mem
    obtain ⟨w, hw⟩ := htoken
    obtain ⟨hplow, hphigh⟩ := Tick.floorAt_mem hlow hhigh
    obtain ⟨m, k, hmk, hm, hk⟩ :=
      market_baseAmounts hcol hcon htif (lots_pos_iff.mpr hsize) hplow hphigh hlt
    have hadmits := Tick.admits_iff.mpr ⟨by linarith, hhigh⟩
    exact ⟨_, build_eq_ok.mpr ⟨by linarith, hadmits, w, m, k, tokenWord_eq_ok.mpr hw, hmk, rfl⟩,
      rfl, hplow, hphigh, hm, hk⟩

/-- The quotient of its size and its price is as close to the next step as one can be. -/
def tight : Ticket where
  tokenId := "123"
  price := ⟨9999, 4, by decide, by decide⟩
  size := ⟨9998, 2, by decide, by decide⟩
  side := .buy

theorem market_build_tight :
    Chain.polygon.contracts.collateralDecimals = 6 ∧
      Chain.polygon.contracts.conditionalDecimals = 6 ∧
      TimeInForce.fillOrKill.isMarket = true ∧
      (∃ w, Word.read (Text.trim tight.tokenId) = .ok w) ∧ 1 / 100 ≤ tight.size.toRat ∧
      ∃ o, tight.build ⟨.zero, none, .account⟩ Chain.polygon.contracts .fillOrKill
        .tenThousandth = .ok o ∧ o.makerAmount.toNat = 99980000 ∧ o.takerAmount.toNat = 99989998 := by
  have hlots : tight.lots = 9998 / 100 := by
    norm_num [lots, floorAt, tight, toRat_eq]
  have hprice : tight.marketPrice .tenThousandth = 9999 / 10000 := by
    norm_num [marketPrice, floorAt, tight, toRat_eq, Tick.places]
  have htoken : ∃ w, Word.read (Text.trim tight.tokenId) = .ok w := ⟨123, by decide +kernel⟩
  have hsize : 1 / 100 ≤ tight.size.toRat := by norm_num [tight, toRat_eq]
  obtain ⟨o, ho, hexact⟩ := (market_build tight ⟨.zero, none, .account⟩ Chain.polygon.contracts
    .fillOrKill .tenThousandth rfl rfl rfl htoken hsize).2
    (by norm_num [tight, toRat_eq, Tick.value, Tick.places])
    (by norm_num [tight, toRat_eq, Tick.value, Tick.places]) (by norm_num [hlots, hprice])
  have hmaker := hexact.maker
  have htaker := hexact.taker
  rw [hlots] at hmaker
  rw [takerUnits, hlots, hprice, show tight.side = .buy from rfl] at htaker
  refine ⟨rfl, rfl, rfl, htoken, hsize, o, ho, ?_, ?_⟩
  · have : (o.makerAmount.toNat : ℚ) = 99980000 := hmaker.trans (by norm_num)
    exact_mod_cast this
  · have : (o.takerAmount.toNat : ℚ) = 99989998 := htaker.trans (by norm_num [Tick.places])
    exact_mod_cast this

end TradingDesk.Ticket
