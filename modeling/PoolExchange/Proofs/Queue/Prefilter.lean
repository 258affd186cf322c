import PoolExchange.Proofs.Queue.Wakeup

/-!
# Queue — what the test of a bucket lets through

A bucket is tested against the ratio at which the pools trade without a fee, before its orders are
priced with the fee.  An order that fills asks for less than the pools pay without a fee, as exact
rates (`Curve.through_mul_lt`).  The test compares ratios, which are counted in steps and rounded
down, and across two pools the rate is that of one whole coin, rounded down twice.

So **an order that fills is in a bucket that clears, unless the ratio of the bucket lies between the
exact rate and the ratio it is tested against** (`PoolSource.clears_of_fills`).  With a native side
these two are one, and the order is lost only in the very bucket of the pools' ratio.
-/

namespace PoolExchange

/-! ### Trades through depths -/

namespace Curve

variable {depths : List (Amount × Amount)} {x : Amount}

/-- What a trade through the given depths pays, with the fee of each. -/
def through (depths : List (Amount × Amount)) (x : Amount) : Amount :=
  depths.foldl (fun x d => emission d.1 x d.2) x

/-- No divisor of the trade stops at the largest amount. -/
def FitsThrough : List (Amount × Amount) → Amount → Prop
  | [], _ => True
  | d :: rest, x =>
    (x.toNat + d.1.toNat) ^ 2 < Amount.bound ∧ FitsThrough rest (emission d.1 x d.2)

instance decidableFitsThrough : (depths : List (Amount × Amount)) → (x : Amount) →
    Decidable (FitsThrough depths x)
  | [], _ => .isTrue trivial
  | d :: rest, x =>
    have := decidableFitsThrough rest (emission d.1 x d.2)
    inferInstanceAs (Decidable (_ ∧ _))

/-- The product of the input sides. -/
def inSide (depths : List (Amount × Amount)) : Nat := (depths.map fun d => d.1.toNat).prod

/-- The product of the output sides. -/
def outSide (depths : List (Amount × Amount)) : Nat := (depths.map fun d => d.2.toNat).prod

theorem ne_zero_of_emission {inDepth outDepth : Amount}
    (h : (emission inDepth x outDepth).toNat ≠ 0) : x.toNat ≠ 0 ∧ inDepth.toNat ≠ 0 := by
  rw [emission, Amount.toNat_div, Amount.toNat_mul, Amount.toNat_mul] at h
  constructor <;> intro hzero <;> simp [hzero] at h

theorem ne_zero_of_through (h : (through depths x).toNat ≠ 0) :
    x.toNat ≠ 0 ∧ inSide depths ≠ 0 := by
  induction depths generalizing x with
  | nil => exact ⟨h, one_ne_zero⟩
  | cons d rest ih =>
      obtain ⟨hemit, hrest⟩ := ih h
      obtain ⟨hx, hd⟩ := ne_zero_of_emission hemit
      exact ⟨hx, Nat.mul_ne_zero hd hrest⟩

theorem through_mul_le (hfit : FitsThrough depths x) :
    (through depths x).toNat * inSide depths ≤ x.toNat * outSide depths := by
  induction depths generalizing x with
  | nil => exact Nat.le_refl _
  | cons d rest ih =>
      have hstep : (emission d.1 x d.2).toNat * d.1.toNat ≤ x.toNat * d.2.toNat :=
        (Nat.mul_le_mul_left _ (Nat.le_add_left _ _)).trans (emission_mul_le hfit.1)
      calc (through (d :: rest) x).toNat * inSide (d :: rest)
          = (through rest (emission d.1 x d.2)).toNat * inSide rest * d.1.toNat := by
            simp only [through, inSide, List.foldl_cons, List.map_cons, List.prod_cons]
            ring
        _ ≤ (emission d.1 x d.2).toNat * outSide rest * d.1.toNat :=
            Nat.mul_le_mul_right _ (ih hfit.2)
        _ = (emission d.1 x d.2).toNat * d.1.toNat * outSide rest := by ring
        _ ≤ x.toNat * d.2.toNat * outSide rest := Nat.mul_le_mul_right _ hstep
        _ = x.toNat * outSide (d :: rest) := by
            simp only [outSide, List.map_cons, List.prod_cons]
            ring

/-- **Less than what a trade pays is less than it would pay without a fee.** -/
theorem through_mul_lt (hfit : FitsThrough depths x) {wanted : Amount}
    (h : wanted < through depths x) :
    wanted.toNat * inSide depths < x.toNat * outSide depths := by
  have hpaid : (through depths x).toNat ≠ 0 := Nat.ne_of_gt (Nat.zero_lt_of_lt h)
  have hin := Nat.pos_of_ne_zero (ne_zero_of_through hpaid).2
  exact (Nat.mul_lt_mul_of_pos_right h hin).trans_le (through_mul_le hfit)

/-- The ratio of the depths, rounded down once. -/
def exactRatio (depths : List (Amount × Amount)) : Ratio :=
  ⟨min (inSide depths * wholeCoin / outSide depths) Ratio.maxValue⟩

theorem exactRatio_singleton {d : Amount × Amount} (h : FitsThrough [d] x) :
    exactRatio [d] = Ratio.of d.1 d.2 := by
  have hbound : wholeCoin * wholeCoin < Amount.bound := by decide
  -- a depth whose square fits is no problem to scale
  have hscale : d.1.toNat * wholeCoin < Amount.bound := by
    rcases Nat.le_total d.1.toNat wholeCoin with hle | hle
    · exact (Nat.mul_le_mul_right _ hle).trans_lt hbound
    · refine lt_of_le_of_lt ?_ h.1
      rw [Nat.pow_two]
      exact Nat.mul_le_mul (Nat.le_add_left _ _) (hle.trans (Nat.le_add_left _ _))
  refine Ratio.ext ?_
  rw [Ratio.value_of_fits hscale]
  simp [exactRatio, inSide, outSide]

/-- A rate that is asked for is at most the exact one, and the ratio at least. -/
theorem exactRatio_le_of {input output : Amount} (houtput : output.toNat ≠ 0)
    (hscale : input.toNat * wholeCoin < Amount.bound)
    (h : output.toNat * inSide depths ≤ input.toNat * outSide depths) :
    (exactRatio depths).value ≤ (Ratio.of input output).value := by
  rw [Ratio.value_of_fits hscale]
  refine min_le_min_right _ ?_
  rw [Nat.le_div_iff_mul_le (Nat.pos_of_ne_zero houtput)]
  rcases Nat.eq_zero_or_pos (outSide depths) with hzero | hpos
  · simp [hzero]
  · refine Nat.le_of_mul_le_mul_right ?_ hpos
    calc inSide depths * wholeCoin / outSide depths * output.toNat * outSide depths
        = inSide depths * wholeCoin / outSide depths * outSide depths * output.toNat := by ring
      _ ≤ inSide depths * wholeCoin * output.toNat :=
          Nat.mul_le_mul_right _ (Nat.div_mul_le_self _ _)
      _ = output.toNat * inSide depths * wholeCoin := by ring
      _ ≤ input.toNat * outSide depths * wholeCoin := Nat.mul_le_mul_right _ h
      _ = input.toNat * wholeCoin * outSide depths := by ring

end Curve

/-! ### The test of a bucket -/

namespace PoolSource

/-- The depths that a trade of the pair meets, input sides first. -/
def depths? (pools : PoolSource) (pair : Pair) : Option (List (Amount × Amount)) :=
  if pair.source.isNative then
    (pools.pool? pair.target).map fun p => [(p.balanceNative, p.balanceAsset)]
  else if pair.target.isNative then
    (pools.pool? pair.source).map fun p => [(p.balanceAsset, p.balanceNative)]
  else
    (pools.pool? pair.source).bind fun first => (pools.pool? pair.target).map fun second =>
      [(first.balanceAsset, first.balanceNative), (second.balanceNative, second.balanceAsset)]

variable {pools : PoolSource} {pair : Pair}

theorem emission?_eq_some {amount emit : Amount} :
    pools.emission? pair amount = some emit ↔
      ∃ depths, pools.depths? pair = some depths ∧ Curve.through depths amount = emit := by
  simp only [emission?, depths?]
  split
  · simp [Curve.through]
  · split
    · simp [Curve.through]
    · cases pools.pool? pair.source <;> cases pools.pool? pair.target <;> simp [Curve.through]

/-- There is a ratio to test against, and with a native side it is the exact one. -/
theorem feelessRatio?_of_depths {depths : List (Amount × Amount)} {x : Amount}
    (h : pools.depths? pair = some depths) (hfit : Curve.FitsThrough depths x) :
    ∃ r, pools.feelessRatio? pair = some r ∧
      (pair.hasNative = true → r = Curve.exactRatio depths) := by
  rw [depths?] at h
  rw [feelessRatio?, Pair.hasNative]
  split at h
  · rename_i hs
    obtain ⟨p, hp, rfl⟩ := Option.map_eq_some_iff.mp h
    rw [if_pos hs, hp]
    exact ⟨_, rfl, fun _ => (Curve.exactRatio_singleton hfit).symm⟩
  · rename_i hs
    split at h
    · rename_i ht
      obtain ⟨p, hp, rfl⟩ := Option.map_eq_some_iff.mp h
      rw [if_neg hs, if_pos ht, hp]
      exact ⟨_, rfl, fun _ => (Curve.exactRatio_singleton hfit).symm⟩
    · rename_i ht
      obtain ⟨first, hfirst, h⟩ := Option.bind_eq_some_iff.mp h
      obtain ⟨second, hsecond, rfl⟩ := Option.map_eq_some_iff.mp h
      rw [if_neg hs, if_neg ht, hfirst, hsecond]
      exact ⟨_, rfl, fun hn => by simp [hs, ht] at hn⟩

theorem clears_eq_false {r : Ratio} (hr : pools.feelessRatio? pair = some r) {bucket : Ratio} :
    pools.clears pair bucket = false ↔ bucket.value ≤ r.value := by
  rw [clears, hr]
  exact decide_eq_false_iff_not.trans Nat.not_lt

/-- **An order that fills is in a bucket that clears, unless the ratio of the bucket lies between
the exact rate and the ratio that buckets are tested against.**  The order asks for less than the
pools pay without a fee, so the ratio of its bucket is at least the exact one; the bucket clears
exactly when that ratio is also above the one of the test.  With a native side the two are one. -/
theorem clears_of_fills {swap : Swap} (htarget : swap.tradeTarget.toNat ≠ 0)
    (hscale : swap.source.amount.toNat * wholeCoin < Amount.bound)
    (hfit : ∀ depths ∈ pools.depths? swap.pair, Curve.FitsThrough depths swap.primaryAmount)
    (h : pools.fills swap = true) :
    let bucket := Ratio.of swap.source.amount swap.tradeTarget
    ∃ depths r, pools.depths? swap.pair = some depths ∧ pools.feelessRatio? swap.pair = some r ∧
      swap.tradeTarget.toNat * Curve.inSide depths <
        swap.source.amount.toNat * Curve.outSide depths ∧
      (Curve.exactRatio depths).value ≤ bucket.value ∧
      (swap.pair.hasNative = true → r = Curve.exactRatio depths) ∧
      (pools.clears swap.pair bucket = false ↔ bucket.value ≤ r.value) := by
  intro bucket
  obtain ⟨emit, hemit, hwanted⟩ : ∃ emit,
      pools.emission? swap.pair swap.primaryAmount = some emit ∧ swap.tradeTarget < emit := by
    rw [fills] at h
    split at h
    · rename_i emit hemit
      exact ⟨emit, hemit, of_decide_eq_true h⟩
    · cases h
  obtain ⟨depths, hdepths, rfl⟩ := emission?_eq_some.mp hemit
  obtain ⟨r, hr, hexact⟩ := feelessRatio?_of_depths hdepths (hfit depths hdepths)
  -- the bucket counts the affiliate's share as well, so the order asks for still less
  have hprimary : swap.primaryAmount.toNat ≤ swap.source.amount.toNat := by
    rw [Swap.primaryAmount, Amount.toNat_sub]
    exact Nat.sub_le _ _
  have hless : swap.tradeTarget.toNat * Curve.inSide depths <
      swap.source.amount.toNat * Curve.outSide depths :=
    (Curve.through_mul_lt (hfit depths hdepths) hwanted).trans_le
      (Nat.mul_le_mul_right _ hprimary)
  have hbucket : (Curve.exactRatio depths).value ≤ bucket.value :=
    Curve.exactRatio_le_of htarget hscale hless.le
  exact ⟨depths, r, hdepths, hr, hless, hbucket, hexact, clears_eq_false hr⟩

/-- Two deep pools: an even one, and one that pays a unit and ninety-nine hundredths for a whole coin
of native. -/
def deepPools : Store :=
  let pool (asset : Asset) (units : Amount) : Pool :=
    { Pool.empty asset with
      balanceNative := 100000000000000000000
      balanceAsset := units
      lpUnits := 1
      status := .available }
  (Store.empty.setPool (pool ⟨"BTC", "BTC", .layer1⟩ 100000000000000000000)).setPool
    (pool ⟨"ETH", "ETH", .layer1⟩ 1990000000000)

/-- A limit order, for `wanted` of the target or more. -/
def deepOrder (source : Coin) (target : Asset) (wanted : Amount) : Swap where
  tx := ⟨"01"⟩
  index := 0
  sender := ⟨"alice"⟩
  source := source
  target := target
  destination := ⟨"bob"⟩
  tradeTarget := wanted
  type := .limit
  streamInterval := 0
  streamQuantity := 0
  affiliate := none
  initialHeight := 1

/-- Across both pools, with one percent for an affiliate. -/
def referredOrder : Swap :=
  { deepOrder ⟨⟨"BTC", "BTC", .layer1⟩, 1000000000000000⟩ ⟨"ETH", "ETH", .layer1⟩ 15000000 with
    affiliate := some ⟨⟨"carol"⟩, 100⟩ }

theorem clears_of_fills_referred :
    referredOrder.tradeTarget.toNat ≠ 0 ∧
      referredOrder.source.amount.toNat * wholeCoin < Amount.bound ∧
      (∀ depths ∈ deepPools.source.depths? referredOrder.pair,
        Curve.FitsThrough depths referredOrder.primaryAmount) ∧
      deepPools.source.fills referredOrder = true ∧
      ∃ depths r, deepPools.source.depths? referredOrder.pair = some depths ∧
        deepPools.source.feelessRatio? referredOrder.pair = some r ∧
        15000000 * Curve.inSide depths < 1000000000000000 * Curve.outSide depths ∧
        (Curve.exactRatio depths).value ≤ 6666666666666666 ∧ 6666666666666666 ≤ r.value := by
  have hfit : ∀ depths ∈ deepPools.source.depths? referredOrder.pair,
      Curve.FitsThrough depths referredOrder.primaryAmount := by decide +kernel
  have hfills : deepPools.source.fills referredOrder = true := by decide +kernel
  obtain ⟨depths, r, hdepths, hr, hless, hexact, -, hclears⟩ :=
    clears_of_fills (by decide) (by decide) hfit hfills
  have hbucket : Ratio.of referredOrder.source.amount referredOrder.tradeTarget =
      ⟨6666666666666666⟩ := by decide +kernel
  rw [hbucket] at hexact hclears
  have htested : 6666666666666666 ≤ r.value := hclears.mp (by decide +kernel)
  exact ⟨by decide, by decide, hfit, hfills, depths, r, hdepths, hr, hless, hexact, htested⟩

/-- Two orders that fill and are in buckets that do not clear: one in the bucket of the pool's own
ratio, and one that asks for three quarters of what the pools pay.  No amount has more than seventy
bits, so no product stops. -/
theorem unclear_deepOrders :
    let bid := deepOrder ⟨.native, 1000000000⟩ ⟨"BTC", "BTC", .layer1⟩ 999999997
    let cross :=
      deepOrder ⟨⟨"BTC", "BTC", .layer1⟩, 1000000000000000⟩ ⟨"ETH", "ETH", .layer1⟩ 15000000
    ∀ swap ∈ [bid, cross],
      swap.isLimit = true ∧ swap.validate = .ok () ∧ swap.source.amount.toNat < 2 ^ 70 ∧
        (∀ depths ∈ deepPools.source.depths? swap.pair,
          ∀ d ∈ depths, d.1.toNat < 2 ^ 70 ∧ d.2.toNat < 2 ^ 70) ∧
        deepPools.source.fills swap = true ∧
        deepPools.source.clears swap.pair
          (Ratio.of swap.source.amount swap.tradeTarget) = false := by
  decide +kernel

end PoolSource

end PoolExchange
