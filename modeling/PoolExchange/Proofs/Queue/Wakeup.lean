import PoolExchange.Proofs.Flow
import PoolExchange.Proofs.Queue.Flags
import PoolExchange.Proofs.Ratio

/-!
# Queue — the pairs that a trade improves

A sale to a pool makes the pool's asset cheaper and a purchase from it makes it dearer
(`Pool.Cheapens`), so an order makes nothing cheaper but what it sells and nothing dearer but what
it buys (`Order.cheapens_of_run`).  What the pools pay for a pair without a fee can therefore only
rise when the order sells what the pair buys or buys what the pair sells, both as pools: in whatever
form (`Order.clears_inv`).

Flags are set by the assets that the order names.  So **a pair that begins to clear is flagged,
unless it has another form of an asset of the order, or the pools pay nothing for it any more**,
which counts as clearing (`PairIndex.flagged_of_clears`).  A sale of a claim flags no pair of layer-1
assets at all (`PairIndex.improves_eq_false_of_form`).
-/

namespace PoolExchange

/-! ### Pools that become cheaper -/

/-- The pool holds no more native than before and no less of its asset. -/
structure Pool.Cheapens (p p' : Pool) : Prop where
  native : p'.balanceNative ≤ p.balanceNative
  asset : p.balanceAsset ≤ p'.balanceAsset

namespace Pool.Cheapens

theorem refl (p : Pool) : p.Cheapens p := ⟨Nat.le_refl _, Nat.le_refl _⟩

theorem trans {p p' p'' : Pool} (h : p.Cheapens p') (h' : p'.Cheapens p'') : p.Cheapens p'' :=
  ⟨Nat.le_trans h'.native h.native, Nat.le_trans h.asset h'.asset⟩

/-- What is paid across two pools, of which the first only became cheaper and the second only
dearer, has not grown, if anything was paid. -/
theorem share_share_le {first first' second second' : Pool} (h : first.Cheapens first')
    (h' : second'.Cheapens second) {one : Amount}
    (hpaid : (Amount.share (Amount.share one first.balanceAsset first.balanceNative)
      second.balanceNative second.balanceAsset).toNat ≠ 0) :
    Amount.share (Amount.share one first'.balanceAsset first'.balanceNative)
        second'.balanceNative second'.balanceAsset ≤
      Amount.share (Amount.share one first.balanceAsset first.balanceNative)
        second.balanceNative second.balanceAsset := by
  -- something was paid, so neither side by which it was divided was empty
  have hfirst : first.balanceAsset.toNat ≠ 0 := fun h =>
    hpaid (Amount.share_eq_zero (.inl (Amount.share_eq_zero (.inr h))))
  have hsecond : second.balanceNative.toNat ≠ 0 := fun h =>
    hpaid (Amount.share_eq_zero (.inr h))
  have hnative := Amount.share_mono (Nat.le_refl one.toNat) h.asset hfirst h.native
  exact Amount.share_mono hnative h'.native hsecond h'.asset

end Pool.Cheapens

namespace Leg

variable {p : Pool} {u : Amount} {source target : Asset} {amount : Amount} {config : Config}
  {leg : Leg}

/-- A sale makes the asset of the pool cheaper. -/
theorem cheapens_of_trade
    (h : trade { p with synthUnits := u } source target amount config = .ok leg)
    (hs : source.isNative = false) : p.Cheapens leg.pool := by
  obtain ⟨-, -, -, -, -, -, hpool, -⟩ := trade_inv h
  rw [hpool, settle, if_neg (by simp [hs])]
  refine ⟨?_, ?_⟩
  · show (p.balanceNative - leg.emit).toNat ≤ p.balanceNative.toNat
    rw [Amount.toNat_sub]
    exact Nat.sub_le _ _
  · dsimp only
    split
    · exact Nat.le_refl _
    · exact Amount.le_toNat_add _ _

/-- A purchase makes it dearer. -/
theorem dearens_of_trade
    (h : trade { p with synthUnits := u } source target amount config = .ok leg)
    (hs : source.isNative = true) : leg.pool.Cheapens p := by
  obtain ⟨-, -, -, -, -, -, hpool, -⟩ := trade_inv h
  rw [hpool, settle, if_pos hs]
  refine ⟨Amount.le_toNat_add _ _, ?_⟩
  dsimp only
  split
  · exact Nat.le_refl _
  · show (p.balanceAsset - leg.emit).toNat ≤ p.balanceAsset.toNat
    rw [Amount.toNat_sub]
    exact Nat.sub_le _ _

end Leg

/-- **What each leg does to the pool of `k`, the legs do together.** -/
theorem Store.Trades.related {R : Pool → Pool → Prop} (hrefl : ∀ p, R p p)
    (htrans : ∀ {p p' p''}, R p p' → R p' p'' → R p p'') {config : Config} {s s' : Store}
    {legs : List Leg} (t : s.Trades config legs s') (hs : s.Keyed) {k : Asset}
    (hleg : ∀ leg ∈ legs, leg.foreign.layer1 = k → ∀ p u,
      Leg.trade { p with synthUnits := u } leg.source leg.target leg.input config = .ok leg →
        R p leg.pool)
    {p' : Pool} (hp' : s'.pools.find? k = some p') :
    ∃ p, s.pools.find? k = some p ∧ R p p' := by
  induction t with
  | nil => exact ⟨p', hp', hrefl p'⟩
  | @cons s s' leg legs p u stored traded _ ih =>
      obtain ⟨p₁, hp₁, hrest⟩ :=
        ih (hs.setPool _) (fun l hl => hleg l (List.mem_cons_of_mem _ hl)) hp'
      rw [find?_setPool] at hp₁
      split at hp₁
      · rename_i hk
        obtain rfl := Option.some.inj hp₁
        have hasset : leg.foreign.layer1 = k := by
          rw [hk, (Leg.trade_sameClaims traded).asset]
          exact (hs.asset_of_pool? stored).symm
        exact ⟨p, hasset ▸ stored,
          htrans (hleg leg List.mem_cons_self hasset p u traded) hrest⟩
      · exact ⟨p₁, hp₁, hrest⟩

namespace Order

variable {o : Order} {config : Config} {l l' : Ledger} {fill : Fill} {k : Asset} {p' : Pool}

/-- **An order makes nothing cheaper but what it sells.** -/
theorem cheapens_of_run (h : o.run config l = .ok (l', fill)) (hs : l.store.Keyed)
    (hk : o.target.isNative = false → o.target.layer1 ≠ k)
    (hp' : l'.store.pools.find? k = some p') :
    ∃ p, l.store.pools.find? k = some p ∧ p.Cheapens p' := by
  obtain ⟨route, s, hroute, ht, hstore, -⟩ := run_inv h
  obtain ⟨hne, htraced, -⟩ := Route.find_inv hroute
  rw [hstore, settleSupply_pools] at hp'
  refine ht.related Pool.Cheapens.refl (fun h h' => h.trans h') hs
    (fun leg hl hforeign p u htrade => ?_) hp'
  rcases htraced.sides_of_mem hne hl with ⟨-, htarget, hbought⟩ | ⟨hsale, -, -⟩
  · exact absurd (hbought ▸ hforeign) (hk htarget)
  · exact Leg.cheapens_of_trade htrade hsale

/-- **It makes nothing dearer but what it buys.** -/
theorem dearens_of_run (h : o.run config l = .ok (l', fill)) (hs : l.store.Keyed)
    (hk : o.source.asset.isNative = false → o.source.asset.layer1 ≠ k)
    (hp' : l'.store.pools.find? k = some p') :
    ∃ p, l.store.pools.find? k = some p ∧ p'.Cheapens p := by
  obtain ⟨route, s, hroute, ht, hstore, -⟩ := run_inv h
  obtain ⟨hne, htraced, -⟩ := Route.find_inv hroute
  rw [hstore, settleSupply_pools] at hp'
  refine ht.related (R := fun p p' => p'.Cheapens p) Pool.Cheapens.refl (fun h h' => h'.trans h) hs
    (fun leg hl hforeign p u htrade => ?_) hp'
  rcases htraced.sides_of_mem hne hl with ⟨hpurchase, -, -⟩ | ⟨-, hsource, hsold⟩
  · exact Leg.dearens_of_trade htrade hpurchase
  · exact absurd (hsold ▸ hforeign) (hk hsource)

end Order

/-! ### What the pools pay -/

namespace PoolSource

variable {pools pools' : PoolSource} {pair : Pair}

/-- **When what the pair sells has only become cheaper and what it buys only dearer, the ratio of
the pair has not fallen**, unless the pools pay nothing for it any more. -/
theorem feelessRatio?_of_cheapens (hne : pair.source ≠ pair.target)
    (hsource : pair.source.isNative = false → ∀ p', pools'.pool? pair.source = some p' →
      ∃ p, pools.pool? pair.source = some p ∧ p.Cheapens p')
    (htarget : pair.target.isNative = false → ∀ p', pools'.pool? pair.target = some p' →
      ∃ p, pools.pool? pair.target = some p ∧ p'.Cheapens p)
    {r' : Ratio} (h : pools'.feelessRatio? pair = some r') :
    ∃ r, pools.feelessRatio? pair = some r ∧ (r.value ≤ r'.value ∨ r' = .zero) := by
  rw [feelessRatio?] at h ⊢
  cases hs : pair.source.isNative with
  | true =>
      have ht := Asset.isNative_eq_false_of_ne hne.symm hs
      rw [hs, if_pos rfl] at h
      obtain ⟨p', hp', rfl⟩ := Option.map_eq_some_iff.mp h
      obtain ⟨p, hp, hcheap⟩ := htarget ht p' hp'
      rw [if_pos rfl, hp]
      exact ⟨_, rfl, Ratio.le_or_zero_of hcheap.native hcheap.asset⟩
  | false =>
      rw [hs, if_neg Bool.false_ne_true] at h
      rw [if_neg Bool.false_ne_true]
      cases ht : pair.target.isNative with
      | true =>
          rw [ht, if_pos rfl] at h
          obtain ⟨p', hp', rfl⟩ := Option.map_eq_some_iff.mp h
          obtain ⟨p, hp, hcheap⟩ := hsource hs p' hp'
          rw [if_pos rfl, hp]
          exact ⟨_, rfl, Ratio.le_or_zero_of hcheap.asset hcheap.native⟩
      | false =>
          rw [ht, if_neg Bool.false_ne_true] at h
          rw [if_neg Bool.false_ne_true]
          split at h
          · rename_i first' second' hfirst' hsecond'
            obtain ⟨first, hfirst, hcheap⟩ := hsource hs first' hfirst'
            obtain ⟨second, hsecond, hdear⟩ := htarget ht second' hsecond'
            obtain rfl := Option.some.inj h
            rw [hfirst, hsecond]
            refine ⟨_, rfl, ?_⟩
            generalize Amount.clamp wholeCoin = one
            by_cases hout : (Amount.share (Amount.share one first.balanceAsset first.balanceNative)
                second.balanceNative second.balanceAsset).toNat = 0
            · rw [Ratio.of_eq_zero hout]
              exact .inl (Nat.zero_le _)
            · exact Ratio.le_or_zero_of (Nat.le_refl _) (hcheap.share_share_le hdear hout)
          · cases h

end PoolSource

/-- **A pair that begins to clear** sells what the order buys, or buys what the order sells, each
as a pool; or the pools pay nothing for it any more. -/
theorem Order.clears_inv {o : Order} {config : Config} {l l' : Ledger} {fill : Fill}
    (h : o.run config l = .ok (l', fill)) (hs : l.store.Keyed) {pair : Pair}
    (hne : pair.source ≠ pair.target) {b : Ratio}
    (hbefore : l.store.source.clears pair b = false)
    (hafter : l'.store.source.clears pair b = true) :
    (o.target.isNative = false ∧ o.target.layer1 = pair.source.layer1) ∨
      (o.source.asset.isNative = false ∧ o.source.asset.layer1 = pair.target.layer1) ∨
      l'.store.source.feelessRatio? pair = some .zero := by
  by_contra hnot
  rw [not_or, not_or, not_and, not_and] at hnot
  obtain ⟨hbuys, hsells, hpaid⟩ := hnot
  rw [PoolSource.clears] at hafter
  split at hafter
  · rename_i r' hr'
    obtain ⟨r, hr, hle | hzero⟩ := @PoolSource.feelessRatio?_of_cheapens l.store.source _ pair hne
      (fun _ _ hp' => cheapens_of_run h hs hbuys hp')
      (fun _ _ hp' => dearens_of_run h hs hsells hp') _ hr'
    · rw [PoolSource.clears, hr, decide_eq_false_iff_not] at hbefore
      exact hbefore (Nat.lt_of_le_of_lt hle (of_decide_eq_true hafter))
    · exact hpaid (hzero ▸ hr')
  · cases hafter

/-! ### Which pairs are flagged -/

namespace PairIndex

/-- The pair has another form of an asset of the trade, on the side that the trade improves. -/
def Renames (trade pair : Pair) : Prop :=
  (pair.source ≠ trade.target ∧ pair.source.layer1 = trade.target.layer1) ∨
    (pair.target ≠ trade.source ∧ pair.target.layer1 = trade.source.layer1)

instance (trade pair : Pair) : Decidable (Renames trade pair) := inferInstanceAs (Decidable (_ ∨ _))

/-- A trade that names no layer-1 asset but native flags no pair of layer-1 assets. -/
theorem improves_eq_false_of_form {trade pair : Pair} (hne : trade.source ≠ trade.target)
    (hsource : trade.source.isNative = true ∨ trade.source.layer1 ≠ trade.source)
    (htarget : trade.target.isNative = true ∨ trade.target.layer1 ≠ trade.target)
    (hpair : pair.source.layer1 = pair.source) (hpair' : pair.target.layer1 = pair.target) :
    improves trade pair = false := by
  have hbought : trade.target.isNative = false → pair.source ≠ trade.target := by
    rintro ht he
    rw [ht] at htarget
    exact htarget.resolve_left Bool.false_ne_true (he ▸ hpair)
  have hsold : trade.source.isNative = false → pair.target ≠ trade.source := by
    rintro hs he
    rw [hs] at hsource
    exact hsource.resolve_left Bool.false_ne_true (he ▸ hpair')
  rw [improves]
  split
  · rename_i hs
    exact decide_eq_false (hbought (Asset.isNative_eq_false_of_ne hne.symm hs))
  · rename_i hs
    have hs := hsold (Bool.eq_false_iff.mpr hs)
    split
    · exact decide_eq_false hs
    · rename_i ht
      rw [Bool.or_eq_false_iff]
      exact ⟨decide_eq_false (hbought (Bool.eq_false_iff.mpr ht)), decide_eq_false hs⟩

/-- What a trade sells, or buys, is what the flags go by. -/
theorem improves_of_sides {trade pair : Pair}
    (h : (trade.target.isNative = false ∧ trade.target = pair.source) ∨
      (trade.source.isNative = false ∧ trade.source = pair.target)) :
    improves trade pair = true := by
  rw [improves]
  split
  · rename_i hs
    rcases h with ⟨-, h⟩ | ⟨hs', -⟩
    · exact decide_eq_true h.symm
    · rw [hs] at hs'
      cases hs'
  · split
    · rename_i ht
      rcases h with ⟨ht', -⟩ | ⟨-, h⟩
      · rw [ht] at ht'
        cases ht'
      · exact decide_eq_true h.symm
    · rw [Bool.or_eq_true]
      rcases h with ⟨-, h⟩ | ⟨-, h⟩
      · exact .inl (decide_eq_true h.symm)
      · exact .inr (decide_eq_true h.symm)

/-- **Which improved pairs are flagged.**  An indexed pair that begins to clear with an order is
flagged for it, unless it has another form of an asset of the order, or the pools pay nothing for
it any more. -/
theorem flagged_of_clears {config : Config} {o : Order} {l l' : Ledger} (hs : l.store.Keyed)
    (hfilled : (Handler.pools.run config o () l).2.isOk = true)
    (hl' : l' = (Handler.pools.run config o () l).1.2) {pair : Pair}
    (hpair : pair ∈ (ofStore l.store).pairs) {b : Ratio}
    (hbefore : l.store.source.clears pair b = false)
    (hafter : l'.store.source.clears pair b = true) :
    pair ∈ (ofStore l.store).flagMatching [] ⟨o.source.asset, o.target⟩ ∨
      Renames ⟨o.source.asset, o.target⟩ pair ∨
      l'.store.source.feelessRatio? pair = some .zero := by
  rcases Handler.pools_cases config o l with ⟨l₁, fill, hrun, hout⟩ | ⟨e, -, hout⟩
  · rw [hout] at hl'
    subst hl'
    have hne := (mem_ofAssets.mp hpair).2.2
    have hflag : ∀ {trade : Pair}, improves trade pair = true →
        pair ∈ (ofStore l.store).flagMatching [] trade := fun himproves =>
      mem_flagMatching.mpr (.inr ⟨hpair, himproves⟩)
    rcases Order.clears_inv hrun hs hne hbefore hafter with ⟨ht, hbuys⟩ | ⟨ht, hsells⟩ | hzero
    · by_cases hsame : o.target = pair.source
      · exact .inl (hflag (improves_of_sides (.inl ⟨ht, hsame⟩)))
      · exact .inr (.inl (.inl ⟨Ne.symm hsame, hbuys.symm⟩))
    · by_cases hsame : o.source.asset = pair.target
      · exact .inl (hflag (improves_of_sides (.inr ⟨ht, hsame⟩)))
      · exact .inr (.inl (.inr ⟨Ne.symm hsame, hsells.symm⟩))
    · exact .inr (.inr hzero)
  · rw [hout] at hfilled
    cases hfilled

/-- An order for native. -/
def btcOrder (form : AssetKind) : Order :=
  ⟨⟨"02"⟩, ⟨⟨"BTC", "BTC", form⟩, 1000000000⟩, .native, 0, ⟨"bob"⟩⟩

/-- A sale of bitcoin makes it cheaper. -/
theorem flagged_of_clears_layer1 :
    let l := ((Exchange.empty {}).run Exchange.btcOpening).ledger
    let l' := (Handler.pools.run {} (btcOrder .layer1) () l).1.2
    let pair : Pair := ⟨.native, ⟨"BTC", "BTC", .layer1⟩⟩
    l.store.source.clears pair ⟨100000000⟩ = false ∧
      l'.store.source.clears pair ⟨100000000⟩ = true ∧
      pair ∈ (ofStore l.store).flagMatching [] ⟨⟨"BTC", "BTC", .layer1⟩, .native⟩ := by
  intro l l' pair
  have hempty : (Exchange.empty {}).store.Keyed := .empty
  have hs : l.store.Keyed := Exchange.keyed_run hempty _
  have hbefore : l.store.source.clears pair ⟨100000000⟩ = false := by decide +kernel
  have hafter : l'.store.source.clears pair ⟨100000000⟩ = true := by decide +kernel
  refine ⟨hbefore, hafter, (flagged_of_clears hs (by decide +kernel) rfl (by decide +kernel) hbefore
    hafter).resolve_right (by decide +kernel)⟩

/-- A sale of synthetic bitcoin takes native out of the pool, so bitcoin becomes cheaper in the same
way, and no pair is flagged. -/
theorem unflagged_synthetic :
    let btc : Asset := ⟨"BTC", "BTC", .layer1⟩
    let x := (Exchange.empty {}).run
      (Exchange.btcOpening ++ [.setSupply btc.synthetic 10000000000])
    let out := Handler.pools.run {} (btcOrder .synthetic) () x.ledger
    let pair : Pair := ⟨.native, btc⟩
    out.2.isOk = true ∧ pair ∈ (ofStore x.store).pairs ∧
      x.store.source.clears pair ⟨100000000⟩ = false ∧
      out.1.2.store.source.clears pair ⟨100000000⟩ = true ∧
      out.1.2.store.source.feelessRatio? pair = some ⟨99009925⟩ ∧
      pair ∉ (ofStore x.store).flagMatching [] ⟨btc.synthetic, .native⟩ := by
  intro btc x out pair
  refine ⟨by decide +kernel, by decide +kernel, by decide +kernel, by decide +kernel,
    by decide +kernel, fun hflagged => ?_⟩
  rcases mem_flagMatching.mp hflagged with hearlier | ⟨-, himproves⟩
  · cases hearlier
  · have hform : improves ⟨btc.synthetic, .native⟩ pair = false :=
      improves_eq_false_of_form (by decide) (.inr (by decide)) (.inl rfl) rfl rfl
    rw [hform] at himproves
    cases himproves

/-- A purchase of a scarce asset leaves less than a unit of it for a whole bitcoin.  The ratio of
nothing is zero, and the pair that is served worse than before begins to clear. -/
example :
    let btc : Asset := ⟨"BTC", "BTC", .layer1⟩
    let eth : Asset := ⟨"ETH", "ETH", .layer1⟩
    let x := (Exchange.empty {}).run (Exchange.btcOpening ++
      [.setPool ⟨eth, 5000000000, 50, 50, 0, 0, 0, .available, 8⟩])
    let o : Order := ⟨⟨"02"⟩, ⟨.native, 2500000000⟩, eth, 0, ⟨"bob"⟩⟩
    let out := Handler.pools.run {} o () x.ledger
    out.2.isOk = true ∧ ⟨btc, eth⟩ ∈ (ofStore x.store).pairs ∧
      x.store.source.feelessRatio? ⟨btc, eth⟩ = some ⟨10000000000000000⟩ ∧
      out.1.2.store.source.feelessRatio? ⟨btc, eth⟩ = some .zero ∧
      ¬ Renames ⟨.native, eth⟩ ⟨btc, eth⟩ ∧
      ⟨btc, eth⟩ ∉ (ofStore x.store).flagMatching [] ⟨.native, eth⟩ := by
  decide +kernel

end PairIndex

end PoolExchange
