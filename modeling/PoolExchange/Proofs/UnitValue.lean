import PoolExchange.Proofs.Curve
import PoolExchange.Proofs.Issue
import PoolExchange.Proofs.Trade
import PoolExchange.Proofs.Withdrawal

/-!
# UnitValue — a unit of liquidity never loses value

The value of a unit is measured by the root of the product of the balances, per unit.  Written
without roots and fractions, a unit of a pool of `P` units over balances `R` and `A` is worth no
more than one of a pool of `P'` over `R'` and `A'` when

  `R * A * P' ^ 2 ≤ R' * A' * P ^ 2`.

Each operation has its own reason:

* a deposit's share of the issue is its share of the arithmetic mean of two cross products, and
  that is at least the geometric one (`issue_value`);
* a redemption rounds both shares down, and what a one-sided redemption swaps does not lower the
  product of what remains (`Redemption.rest_product`);
* a trade takes no more than the constant product allows (`Leg.trade_product`).

None of this needs more than that no product stops at the largest amount, for which it is enough
that everything is below `2 ^ 80`.
-/

namespace PoolExchange

/-! ### Deposits -/

/-- **A deposit does not lower the value of a unit.**  Of `D = r * A + a * R + 2 * A * R` and the
two products of the balances, before and after, `D` is the sum of two cross products whose product
is the product of the two. -/
theorem issue_value (R A r a P : Nat) :
    R * A * (P + P * (r * A + a * R + 2 * r * a) / (r * A + a * R + 2 * A * R)) ^ 2 ≤
      (R + r) * (A + a) * P ^ 2 := by
  set D := r * A + a * R + 2 * A * R with hD
  set issued := P * (r * A + a * R + 2 * r * a) / D with hissued
  set K := (R + r) * (A + a) with hK
  rcases Nat.eq_zero_or_pos (R * A) with hz | hpos
  · rw [hz, Nat.zero_mul]
    exact Nat.zero_le _
  have hfloor : issued * D ≤ P * (r * A + a * R + 2 * r * a) := Nat.div_mul_le_self _ _
  -- rounding down keeps the units after the deposit below their share of the value
  have hshare : (P + issued) * D ≤ 2 * P * K := by
    calc (P + issued) * D = P * D + issued * D := by ring
      _ ≤ P * D + P * (r * A + a * R + 2 * r * a) := Nat.add_le_add_left hfloor _
      _ = 2 * P * K := by rw [hD, hK]; ring
  -- twice the geometric mean of the cross products is at most their sum
  have hmean : 4 * (R * A) * K ≤ D ^ 2 := by
    calc 4 * (R * A) * K = 4 * ((R + r) * A) * (R * (A + a)) := by rw [hK]; ring
      _ ≤ ((R + r) * A + R * (A + a)) ^ 2 := four_mul_le_sq_add _ _
      _ = D ^ 2 := by rw [hD]; ring
  have hKpos : 0 < K := by
    refine lt_of_lt_of_le hpos ?_
    rw [hK]
    exact Nat.mul_le_mul (Nat.le_add_right _ _) (Nat.le_add_right _ _)
  refine Nat.le_of_mul_le_mul_right ?_ (Nat.mul_pos (Nat.mul_pos (Nat.succ_pos 3) hpos) hKpos)
  calc R * A * (P + issued) ^ 2 * (4 * (R * A) * K)
      ≤ R * A * (P + issued) ^ 2 * D ^ 2 := Nat.mul_le_mul_left _ hmean
    _ = R * A * ((P + issued) * D) ^ 2 := by ring
    _ ≤ R * A * (2 * P * K) ^ 2 := Nat.mul_le_mul_left _ (Nat.pow_le_pow_left hshare 2)
    _ = K * P ^ 2 * (4 * (R * A) * K) := by ring

/-! ### Redemptions -/

/-- What is left after a share that was rounded down is at least the share that is left. -/
theorem rest_mul_le {depth share claimed units : Nat} (h : share * units ≤ claimed * depth) :
    depth * (units - claimed) ≤ (depth - share) * units := by
  rw [Nat.mul_sub, Nat.sub_mul]
  rw [Nat.mul_comm claimed depth] at h
  exact Nat.sub_le_sub_left h _

namespace Redemption

/-- A redemption on one side takes, of that side's rest, no more than the constant product allows
for the other side's share. -/
theorem swap_product (share rest other floor : Amount)
    (hfit : (share.toNat + rest.toNat) ^ 2 < Amount.bound) :
    (Curve.quote rest share other floor).emit.toNat ≤ other.toNat ∧
      rest.toNat * other.toNat ≤ (rest.toNat + share.toNat) *
        (other.toNat - (Curve.quote rest share other floor).emit.toNat) := by
  have hle := Curve.quote_le rest share other floor
  exact ⟨hle, Curve.product_le_of_mul_le hle (Curve.quote_mul_le floor hfit)⟩

/-- **What remains after a redemption, on whatever side**, has at least the product of what remains
when both shares are paid as they are. -/
theorem rest_product (R A n m after floor : Amount) (side : WithdrawSide)
    (hn : n.toNat ≤ R.toNat) (hm : m.toNat ≤ A.toNat)
    (hfitR : R.toNat ^ 2 < Amount.bound) (hfitA : A.toNat ^ 2 < Amount.bound) :
    (R.toNat - n.toNat) * (A.toNat - m.toNat) ≤
      (R.toNat - (pay n m (R - n) (A - m) after floor side).native.toNat) *
        (A.toNat - (pay n m (R - n) (A - m) after floor side).asset.toNat) := by
  cases side with
  | both => exact Nat.le_refl _
  | nativeOnly =>
      have hwhole : m.toNat + (A - m).toNat = A.toNat := by rw [Amount.toNat_sub]; omega
      obtain ⟨hle, hprod⟩ := swap_product m (A - m) (R - n) floor
        (by rw [hwhole]; exact hfitA)
      set emit := (Curve.quote (A - m) m (R - n) floor).emit with hemit
      rw [Nat.add_comm, hwhole, Amount.toNat_sub, Amount.toNat_sub] at hprod
      rw [Amount.toNat_sub] at hle
      have hsum : (n + emit).toNat = n.toNat + emit.toNat :=
        Amount.toNat_add_of_lt (lt_of_le_of_lt (by omega) R.toNat_lt)
      simp only [pay, ← hemit, hsum, Amount.toNat_zero, Nat.sub_zero, Nat.sub_add_eq]
      linarith [hprod]
  | assetOnly =>
      have hwhole : n.toNat + (R - n).toNat = R.toNat := by rw [Amount.toNat_sub]; omega
      obtain ⟨hle, hprod⟩ := swap_product n (R - n) (A - m) floor
        (by rw [hwhole]; exact hfitR)
      set emit := (Curve.quote (R - n) n (A - m) floor).emit with hemit
      rw [Nat.add_comm, hwhole, Amount.toNat_sub, Amount.toNat_sub] at hprod
      rw [Amount.toNat_sub] at hle
      have hsum : (m + emit).toNat = m.toNat + emit.toNat :=
        Amount.toNat_add_of_lt (lt_of_le_of_lt (by omega) A.toNat_lt)
      simp only [pay, ← hemit, hsum, Amount.toNat_zero, Nat.sub_zero, Nat.sub_add_eq]
      exact hprod

end Redemption

/-! ### One operation on one pool -/

/-- The balances of one state of a pool, per unit of it, are worth no more than those of the
other. -/
def Pool.UnitValueLE (p p' : Pool) : Prop :=
  0 < p.poolUnits.toNat → 0 < p'.poolUnits.toNat →
    p.balanceNative.toNat * p.balanceAsset.toNat * p'.poolUnits.toNat ^ 2 ≤
      p'.balanceNative.toNat * p'.balanceAsset.toNat * p.poolUnits.toNat ^ 2

/-- Balances and units are below `2 ^ 80`. -/
def Pool.IsSmall (p : Pool) : Prop :=
  p.balanceNative.toNat < 2 ^ 80 ∧ p.balanceAsset.toNat < 2 ^ 80 ∧ p.poolUnits.toNat < 2 ^ 80

/-- A pool of a layer-1 asset that is not derived, without synthetic units. -/
structure Pool.IsPlain (p : Pool) : Prop where
  layer1 : p.asset.kind = .layer1
  original : p.asset.isDerived = false
  unsynthesized : p.synthUnits = 0

/-- How the asset of a trade is held: not as a claim on the pool. -/
abbrev HeldKind := { k : AssetKind // k ≠ .synthetic }

/-- An operation on one pool whose synthetic supply is zero. -/
inductive PoolOperation
  | deposit (deposit : Deposit) (provider : Provider)
  | withdraw (withdrawal : Withdrawal) (provider : Provider) (config : Config)
  /-- Pays native for the pool's asset. -/
  | buy (kind : HeldKind) (amount : Amount) (config : Config)
  /-- Pays the pool's asset for native. -/
  | sell (kind : HeldKind) (amount : Amount) (config : Config)

namespace PoolOperation

/-- The pool after the operation. -/
def apply (p : Pool) : PoolOperation → Except PoolError Pool
  | .deposit d v => Deposit.Outcome.pool <$> d.apply p v 0
  | .withdraw w v config => Withdrawal.Outcome.pool <$> w.apply p v 0 config
  | .buy k amount config =>
    Leg.pool <$> Leg.trade p .native { p.asset with kind := k } amount config
  | .sell k amount config =>
    Leg.pool <$> Leg.trade p { p.asset with kind := k } .native amount config

/-- The amounts that enter the balances are below `2 ^ 80`. -/
def IsSmall : PoolOperation → Prop
  | .deposit d v => d.native.toNat < 2 ^ 80 ∧ d.asset.toNat < 2 ^ 80 ∧
      v.pendingNative.toNat < 2 ^ 80 ∧ v.pendingAsset.toNat < 2 ^ 80
  | .withdraw .. => True
  | .buy _ amount _ | .sell _ amount _ => amount.toNat < 2 ^ 80

end PoolOperation

theorem map_eq_ok {ε α β : Type} {x : Except ε α} {f : α → β} {b : β} :
    f <$> x = .ok b ↔ ∃ a, x = .ok a ∧ f a = b := by
  cases x <;> simp [Functor.map, Except.map]

namespace Pool

theorem synthUnitsOf_zero (depth lpUnits : Amount) : synthUnitsOf depth 0 lpUnits = 0 := rfl

theorem withSynths_of_isPlain {p : Pool} (hp : p.IsPlain) : p.withSynths 0 = p := by
  rw [withSynths, synthUnitsOf_zero, ← hp.unsynthesized]

theorem poolUnits_of_synthUnits {p : Pool} (h : p.synthUnits = 0) :
    p.poolUnits.toNat = p.lpUnits.toNat := by
  rw [poolUnits, h, Amount.toNat_add_of_lt]
  · rfl
  · exact p.lpUnits.toNat_lt

/-- States with the same balances and units are worth the same. -/
theorem UnitValueLE.of_eq {p p' : Pool} (hn : p'.balanceNative = p.balanceNative)
    (ha : p'.balanceAsset = p.balanceAsset) (hu : p'.poolUnits = p.poolUnits) :
    p.UnitValueLE p' := by
  intro _ _
  rw [hn, ha, hu]

end Pool

theorem two_pow_lt_bound {n : Nat} (h : n < 2 ^ 82) : n ^ 2 < Amount.bound :=
  lt_of_lt_of_le (Nat.pow_lt_pow_left h (by decide)) (by decide)

theorem lt_bound {n : Nat} (h : n < 2 ^ 82) : n < Amount.bound :=
  lt_of_lt_of_le h (by decide)

variable {p p' : Pool}

/-- **A deposit does not lower the value of a unit.** -/
theorem Deposit.unitValueLE {d : Deposit} {v : Provider} {o : Deposit.Outcome}
    (hplain : p.IsPlain) (hsmall : p.IsSmall) (hd : (PoolOperation.deposit d v).IsSmall)
    (h : d.apply p v 0 = .ok o) : p.UnitValueLE o.pool := by
  obtain ⟨hR, hA, -⟩ := hsmall
  obtain ⟨hr, ha, hvr, hva⟩ := hd
  rcases apply_cases h with ⟨-, -, rfl⟩ | h
  · rw [Pool.withSynths_of_isPlain hplain]
    exact .of_eq rfl rfl rfl
  · rw [Pool.withSynths_of_isPlain hplain] at h
    obtain ⟨issue, hissue, -, hpool, -⟩ := credit_inv h
    intro hP _
    rw [Pool.poolUnits_of_synthUnits hplain.unsynthesized] at hP ⊢
    rw [Pool.poolUnits_of_synthUnits (by rw [hpool]; rfl), hpool]
    simp only [credited, Pool.withSynths_balanceNative, Pool.withSynths_balanceAsset,
      Pool.withSynths_lpUnits]
    have hr' : (v.pendingNative + d.native).toNat < 2 ^ 81 :=
      lt_of_le_of_lt (Amount.toNat_add_le _ _) (by omega)
    have ha' : (v.pendingAsset + d.asset).toNat < 2 ^ 81 :=
      lt_of_le_of_lt (Amount.toNat_add_le _ _) (by omega)
    rw [Amount.toNat_add_of_lt (a := p.balanceNative) (lt_bound (by omega)),
      Amount.toNat_add_of_lt (a := p.balanceAsset) (lt_bound (by omega))]
    -- units that stop at the largest amount are only fewer
    have hunits : (p.lpUnits + issue.issued).toNat ^ 2 ≤
        (p.lpUnits.toNat + issue.issued.toNat) ^ 2 :=
      Nat.pow_le_pow_left (Amount.toNat_add_le _ _) 2
    refine (Nat.mul_le_mul_left _ hunits).trans ?_
    rcases Issue.forPool_inv hissue with hz | hi
    · -- nothing on a side of a pool with units: the product before is zero
      rw [Pool.poolUnits_of_synthUnits hplain.unsynthesized] at hz
      have hprod : p.balanceNative.toNat * p.balanceAsset.toNat = 0 := by
        rcases hz with hz | hz | hz
        · rw [hz, Nat.zero_mul]
        · rw [hz, Nat.mul_zero]
        · omega
      rw [hprod, Nat.zero_mul]
      exact Nat.zero_le _
    · rw [Pool.poolUnits_of_synthUnits hplain.unsynthesized] at hi
      rw [hi]
      exact issue_value _ _ _ _ _

/-- **A withdrawal does not lower the value of a unit.** -/
theorem Withdrawal.unitValueLE {w : Withdrawal} {v : Provider} {config : Config}
    {o : Withdrawal.Outcome} (hplain : p.IsPlain) (hsmall : p.IsSmall)
    (h : w.apply p v 0 config = .ok o) : p.UnitValueLE o.pool := by
  obtain ⟨hR, hA, -⟩ := hsmall
  rcases apply_cases h with ⟨-, h⟩ | ⟨-, h⟩
  · obtain ⟨-, hpool, -⟩ := release_inv h
    rw [Pool.withSynths_of_isPlain hplain] at hpool
    rw [hpool]
    exact .of_eq rfl rfl rfl
  · rw [Pool.withSynths_of_isPlain hplain] at h
    obtain ⟨claimed, n, m, floor, r, -, -, hn, hm, hr, -, -, -, -, hpool⟩ :=
      redeem_shares h
    obtain ⟨-, hlp, hbn, hba, -, -, hsynth⟩ := settle_fields p claimed r.native r.asset 0
    rw [← hpool] at hlp hbn hba hsynth
    have hunits : o.pool.poolUnits.toNat = p.poolUnits.toNat - claimed.toNat := by
      rw [Pool.poolUnits_of_synthUnits hsynth, hlp, Amount.toNat_sub,
        Pool.poolUnits_of_synthUnits hplain.unsynthesized]
    have hrest := Redemption.rest_product p.balanceNative p.balanceAsset n m
      (v.units - claimed) floor w.side
      (hn ▸ Amount.cappedShare_le _ _ _) (hm ▸ Amount.cappedShare_le _ _ _)
      (two_pow_lt_bound (by omega)) (two_pow_lt_bound (by omega))
    -- of either side at least the share of the remaining units is left
    have hnR := rest_mul_le (hn ▸ Amount.cappedShare_mul_le claimed p.poolUnits p.balanceNative)
    have hmA := rest_mul_le (hm ▸ Amount.cappedShare_mul_le claimed p.poolUnits p.balanceAsset)
    intro _ _
    rw [hunits, hbn, hba, Amount.toNat_sub, Amount.toNat_sub, hr]
    set P := p.poolUnits.toNat with hPdef
    calc p.balanceNative.toNat * p.balanceAsset.toNat * (P - claimed.toNat) ^ 2
        = p.balanceNative.toNat * (P - claimed.toNat) *
            (p.balanceAsset.toNat * (P - claimed.toNat)) := by ring
      _ ≤ (p.balanceNative.toNat - n.toNat) * P * ((p.balanceAsset.toNat - m.toNat) * P) :=
          Nat.mul_le_mul hnR hmA
      _ = (p.balanceNative.toNat - n.toNat) * (p.balanceAsset.toNat - m.toNat) * P ^ 2 := by ring
      _ ≤ _ := Nat.mul_le_mul_right _ hrest

/-- **A trade does not lower the value of a unit**, in either direction, as long as it is priced at
the balances themselves. -/
theorem Leg.unitValueLE {source target : Asset} {amount : Amount} {config : Config} {leg : Leg}
    (hvirtual : isVirtual source target p = false) (hsmall : p.IsSmall)
    (hamount : amount.toNat < 2 ^ 80) (h : trade p source target amount config = .ok leg) :
    p.UnitValueLE leg.pool := by
  obtain ⟨hR, hA, -⟩ := hsmall
  obtain ⟨-, -, -, -, hemit, hlt, hpool, -⟩ := trade_inv h
  have hsynth : source.isSynthetic = false ∧ target.isSynthetic = false := by
    simp only [isVirtual, Bool.or_eq_false_iff] at hvirtual
    exact hvirtual.1
  have hunits : leg.pool.poolUnits = p.poolUnits := by
    rw [hpool, settle]
    split <;> rfl
  simp only [pricedDepths, hvirtual, Bool.false_eq_true, if_false, depths] at hemit hlt
  intro _ _
  rw [hunits]
  refine Nat.mul_le_mul_right _ ?_
  rw [hpool, settle]
  cases hs : source.isNative with
  | true =>
      simp only [hs, if_true] at hemit hlt
      simp only [hsynth.2, if_true, Bool.false_eq_true, if_false, Amount.toNat_sub,
        Amount.toNat_add_of_lt (lt_bound (show p.balanceNative.toNat + amount.toNat < 2 ^ 82 by
          omega))]
      refine Curve.product_le_of_mul_le (Nat.le_of_lt (Amount.lt_def.mp hlt)) ?_
      rw [hemit]
      exact Curve.quote_mul_le _ (two_pow_lt_bound (by omega))
  | false =>
      simp only [hs, Bool.false_eq_true, if_false] at hemit hlt
      simp only [hsynth.1, Bool.false_eq_true, if_false, Amount.toNat_sub,
        Amount.toNat_add_of_lt (lt_bound (show p.balanceAsset.toNat + amount.toNat < 2 ^ 82 by
          omega))]
      -- the input side is the asset's, so the product is read the other way round
      rw [Nat.mul_comm, Nat.mul_comm (p.balanceNative.toNat - _)]
      refine Curve.product_le_of_mul_le (Nat.le_of_lt (Amount.lt_def.mp hlt)) ?_
      rw [hemit]
      exact Curve.quote_mul_le _ (two_pow_lt_bound (by omega))

/-! ### Any number of operations -/

theorem isVirtual_buy (hp : p.IsPlain) (k : HeldKind) :
    Leg.isVirtual .native { p.asset with kind := k } p = false := by
  simp [Leg.isVirtual, Asset.isSynthetic, Asset.native, k.2, hp.original]

theorem isVirtual_sell (hp : p.IsPlain) (k : HeldKind) :
    Leg.isVirtual { p.asset with kind := k } .native p = false := by
  simp [Leg.isVirtual, Asset.isSynthetic, Asset.native, k.2, hp.original]

/-- An operation leaves a pool of the same asset, without synthetic units. -/
theorem PoolOperation.isPlain_apply (hp : p.IsPlain) {op : PoolOperation}
    (h : op.apply p = .ok p') : p'.IsPlain := by
  have hplain : ∀ {q : Pool}, q.asset = p.asset → q.synthUnits = 0 → q.IsPlain := by
    intro q ha hs
    exact ⟨ha ▸ hp.layer1, ha ▸ hp.original, hs⟩
  have htrade : ∀ {source target amount config leg},
      Leg.trade p source target amount config = .ok leg → leg.pool.IsPlain := by
    intro source target amount config leg ht
    obtain ⟨-, -, -, -, -, -, hpool, -⟩ := Leg.trade_inv ht
    refine hplain (Leg.trade_sameClaims ht).asset ?_
    rw [hpool, Leg.settle]
    split <;> exact hp.unsynthesized
  cases op with
  | deposit d v =>
      obtain ⟨o, ho, rfl⟩ := map_eq_ok.mp h
      refine hplain (Deposit.apply_keys ho).1 ?_
      rcases Deposit.apply_cases ho with ⟨-, -, rfl⟩ | ho
      · rfl
      · obtain ⟨issue, -, -, hpool, -⟩ := Deposit.credit_inv ho
        rw [hpool]
        rfl
  | withdraw w v config =>
      obtain ⟨o, ho, rfl⟩ := map_eq_ok.mp h
      refine hplain (Withdrawal.apply_keys ho).1 ?_
      rcases Withdrawal.apply_cases ho with ⟨-, ho⟩ | ⟨-, ho⟩
      · obtain ⟨-, hpool, -⟩ := Withdrawal.release_inv ho
        rw [hpool]
        rfl
      · obtain ⟨r, -, -, -, hpool, -⟩ := Withdrawal.redeem_inv ho
        obtain ⟨-, -, -, -, -, -, hsynth⟩ := Withdrawal.settle_fields (p.withSynths 0)
          (v.units - r.unitsAfter) r.native r.asset 0
        rw [hpool, hsynth]
        rfl
  | buy k amount config | sell k amount config =>
      obtain ⟨leg, hleg, rfl⟩ := map_eq_ok.mp h
      exact htrade hleg

/-- **No operation lowers the value of a unit.** -/
theorem PoolOperation.unitValueLE (hp : p.IsPlain) (hsmall : p.IsSmall) {op : PoolOperation}
    (hop : op.IsSmall) (h : op.apply p = .ok p') : p.UnitValueLE p' := by
  cases op with
  | deposit d v =>
      obtain ⟨o, ho, rfl⟩ := map_eq_ok.mp h
      exact Deposit.unitValueLE hp hsmall hop ho
  | withdraw w v config =>
      obtain ⟨o, ho, rfl⟩ := map_eq_ok.mp h
      exact Withdrawal.unitValueLE hp hsmall ho
  | buy k amount config =>
      obtain ⟨leg, hleg, rfl⟩ := map_eq_ok.mp h
      exact Leg.unitValueLE (isVirtual_buy hp k) hsmall hop hleg
  | sell k amount config =>
      obtain ⟨leg, hleg, rfl⟩ := map_eq_ok.mp h
      exact Leg.unitValueLE (isVirtual_sell hp k) hsmall hop hleg

/-- One operation leads from one state of the pool to the next, and everything is small. -/
def PoolStep (p p' : Pool) : Prop :=
  p.IsSmall ∧ ∃ op : PoolOperation, op.IsSmall ∧ op.apply p = .ok p'

/-- **A unit of liquidity never loses value.**  Along any sequence of operations on a plain pool
that stays small, each state's units are worth at least what they were worth in the state before,
in exact integers. -/
theorem unit_value_never_falls (hp : p.IsPlain) {states : List Pool}
    (h : List.IsChain PoolStep (p :: states)) : List.IsChain Pool.UnitValueLE (p :: states) := by
  induction states generalizing p with
  | nil => exact .singleton p
  | cons p' states ih =>
      obtain ⟨⟨hsmall, op, hop, hap⟩, hrest⟩ := List.isChain_cons_cons.mp h
      exact List.isChain_cons_cons.mpr
        ⟨op.unitValueLE hp hsmall hop hap, ih (op.isPlain_apply hp hap) hrest⟩

/-- An open pool of bitcoin with the given balances and units. -/
def btcPool (native asset units : Amount) : Pool :=
  ⟨⟨"BTC", "BTC", .layer1⟩, native, asset, units, 0, 0, 0, .available, 8⟩

/-- A provider of `btcPool`. -/
def btcProvider (units : Amount) : Provider :=
  { Provider.new ⟨"BTC", "BTC", .layer1⟩ ⟨"alice"⟩ with units := units }

/-- An uneven deposit, a sale held on the ledger, and a redemption on the asset side only. -/
theorem unit_value_never_falls_btcPool :
    (btcPool 1000000000 500000000 1000000000).IsPlain ∧
      List.IsChain PoolStep
        [btcPool 1000000000 500000000 1000000000, btcPool 1001000000 503000000 1003493771,
          btcPool 997051344 505000000 1003493771, btcPool 997051344 457120803 953493771] ∧
      List.IsChain Pool.UnitValueLE
        [btcPool 1000000000 500000000 1000000000, btcPool 1001000000 503000000 1003493771,
          btcPool 997051344 505000000 1003493771, btcPool 997051344 457120803 953493771] := by
  have hplain : (btcPool 1000000000 500000000 1000000000).IsPlain := ⟨rfl, by decide, rfl⟩
  have hdeposit : PoolStep (btcPool 1000000000 500000000 1000000000)
      (btcPool 1001000000 503000000 1003493771) :=
    ⟨⟨by decide, by decide, by decide⟩,
      .deposit ⟨1000000, 3000000, ⟨"01"⟩, false, 1⟩ (btcProvider 100000000),
      ⟨by decide, by decide, by decide, by decide⟩, by decide +kernel⟩
  have hsale : PoolStep (btcPool 1001000000 503000000 1003493771)
      (btcPool 997051344 505000000 1003493771) :=
    ⟨⟨by decide, by decide, by decide⟩, .sell ⟨.trade, by decide⟩ 2000000 {},
      show (2000000 : Amount).toNat < 2 ^ 80 by decide, by decide +kernel⟩
  have hwithdrawal : PoolStep (btcPool 997051344 505000000 1003493771)
      (btcPool 997051344 457120803 953493771) :=
    ⟨⟨by decide, by decide, by decide⟩,
      .withdraw ⟨5000, .assetOnly, 2⟩ (btcProvider 100000000) {}, trivial, by decide +kernel⟩
  have hchain := List.isChain_cons_cons.mpr ⟨hdeposit, List.isChain_cons_cons.mpr
    ⟨hsale, List.isChain_cons_cons.mpr ⟨hwithdrawal, .singleton _⟩⟩⟩
  exact ⟨hplain, hchain, unit_value_never_falls hplain hchain⟩

end PoolExchange
