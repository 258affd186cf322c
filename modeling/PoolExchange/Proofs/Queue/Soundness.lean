import PoolExchange.Proofs.Queue.Effects
import PoolExchange.Proofs.Soundness

/-!
# Queue — a block that drains no pool leaves the pools sound

An entry of a journal *drains* when it pays a fee or fills an order that does (`Entry.Drains`).
A pool that is not sound has an empty side, so nothing trades with it and no payment is priced by
it: the store after an entry is sound exactly when the store before is and the entry drains nothing
(`Entry.Leads.sound_iff`), and so it is for a block and its journal
(`SwapQueue.sound_endBlock_iff`).

An entry that drains a pool also *exhausts* one (`Entry.Exhausts`), which can be told from the order
or the coin and the pool that it meets, before the supplies have followed.
-/

namespace PoolExchange

namespace Store

/-- Every stored pool validates with the synthetic units of its own supply. -/
def Sound (s : Store) : Prop := ∀ p ∈ s.pools.values, p.Sound (s.supply p.asset)

instance (s : Store) : Decidable s.Sound :=
  inferInstanceAs (Decidable (∀ p ∈ s.pools.values, p.Sound (s.supply p.asset)))

/-- The pool that is kept under `k`, if there is one, is sound under `supply`. -/
def SoundAt (s : Store) (k : Asset) (supply : Amount) : Prop :=
  ∀ p, s.pools.find? k = some p → p.Sound supply

/-- Pools are kept under their own assets, and only under those of the first layer. -/
structure Founded (s : Store) : Prop where
  keyed : s.Keyed
  layer1 : ∀ k, k.layer1 ≠ k → s.pools.find? k = none

variable {s s' : Store}

theorem Keyed.sound_iff (hs : s.Keyed) : s.Sound ↔ ∀ k, s.SoundAt k (s.supply k) := by
  constructor
  · intro h k p hp
    rw [← hs.pool k p hp]
    exact h p (OrderedMap.mem_values_iff.mpr ⟨k, hp⟩)
  · intro h p hp
    obtain ⟨k, hk⟩ := OrderedMap.mem_values_iff.mp hp
    rw [hs.pool k p hk]
    exact h k p hk

theorem soundAt_setPool_self {p : Pool} {supply : Amount} :
    (s.setPool p).SoundAt p.asset supply ↔ p.Sound supply := by
  constructor
  · intro h
    exact h p (by rw [find?_setPool, if_pos rfl])
  · intro h q hq
    rw [find?_setPool, if_pos rfl] at hq
    rw [← Option.some.inj hq]
    exact h

theorem soundAt_setPool_of_ne {p : Pool} {k : Asset} {supply : Amount} (hk : k ≠ p.asset) :
    (s.setPool p).SoundAt k supply ↔ s.SoundAt k supply := by
  simp only [SoundAt, find?_setPool, if_neg hk]

theorem soundAt_of_sides {p : Pool} {k : Asset} {supply : Amount}
    (hp : s.pools.find? k = some p) (hn : p.balanceNative.toNat ≠ 0)
    (ha : p.balanceAsset.toNat ≠ 0) : s.SoundAt k supply := by
  intro q hq
  rw [hp] at hq
  rw [← Option.some.inj hq]
  exact Pool.sound_of_sides hn ha

/-- Only pools of the first layer count. -/
theorem Founded.soundAt_of_layer1_ne (hs : s.Founded) {k : Asset} {supply : Amount}
    (hk : k.layer1 ≠ k) : s.SoundAt k supply := by
  intro p hp
  rw [hs.layer1 k hk] at hp
  cases hp

/-- Putting a pool in the place of a sound one. -/
theorem sound_setPool_iff (hs : s.Keyed) {p : Pool} (hold : s.SoundAt p.asset (s.supply p.asset)) :
    (s.setPool p).Sound ↔ s.Sound ∧ p.Sound (s.supply p.asset) := by
  rw [(hs.setPool p).sound_iff, hs.sound_iff]
  constructor
  · intro h
    refine ⟨fun k => ?_, soundAt_setPool_self.mp (h p.asset)⟩
    by_cases hk : k = p.asset
    · rw [hk]
      exact hold
    · exact (soundAt_setPool_of_ne hk).mp (h k)
  · rintro ⟨h, hp⟩ k
    by_cases hk : k = p.asset
    · rw [hk]
      exact soundAt_setPool_self.mpr hp
    · exact (soundAt_setPool_of_ne hk).mpr (h k)

theorem Sound.setPool (h : s.Sound) (hs : s.Keyed) {p : Pool} (hp : p.Sound (s.supply p.asset)) :
    (s.setPool p).Sound :=
  (sound_setPool_iff hs (hs.sound_iff.mp h p.asset)).mpr ⟨h, hp⟩

/-- Changing the supply of a pool that is sound under any. -/
theorem sound_setSupply_iff (hs : s.Founded) {a : Asset} {n : Amount}
    (hold : ∀ supply, s.SoundAt a.layer1 supply) : (s.setSupply a n).Sound ↔ s.Sound := by
  rw [(hs.keyed.setSupply a n).sound_iff, hs.keyed.sound_iff]
  refine forall_congr' fun k => ?_
  by_cases hk : k.layer1 = a.layer1
  · by_cases hlayer : k.layer1 = k
    · rw [← hlayer, hk]
      exact iff_of_true (hold _) (hold _)
    · exact iff_of_true (hs.soundAt_of_layer1_ne hlayer) (hs.soundAt_of_layer1_ne hlayer)
  · rw [supply_setSupply, if_neg hk]
    exact Iff.rfl

/-! ### Legs that follow one another -/

namespace Trades

variable {config : Config} {legs : List Leg}

theorem supplies (t : s.Trades config legs s') : s'.supplies = s.supplies := by
  induction t with
  | nil s => rfl
  | cons _ _ _ _ _ ih => exact ih

/-- Every leg is a trade with some pool. -/
theorem exists_trade (t : s.Trades config legs s') {leg : Leg} (hl : leg ∈ legs) :
    ∃ pool, Leg.trade pool leg.source leg.target leg.input config = .ok leg := by
  induction t with
  | nil => cases hl
  | cons p u _ htrade _ ih =>
      rcases List.mem_cons.mp hl with rfl | hl
      · exact ⟨_, htrade⟩
      · exact ih hl

/-- **A pool that a route trades with has something on both sides before it.** -/
theorem sides (t : s.Trades config legs s') (hs : s.Keyed) {leg : Leg} (hl : leg ∈ legs) :
    ∃ p, s.pools.find? leg.foreign.layer1 = some p ∧ p.balanceNative.toNat ≠ 0 ∧
      p.balanceAsset.toNat ≠ 0 := by
  induction t with
  | nil => cases hl
  | @cons s s' first legs p u hp htrade _ ih =>
      have hfirst := Leg.sides_of_trade htrade
      rcases List.mem_cons.mp hl with rfl | hl
      · exact ⟨p, hp, hfirst⟩
      · obtain ⟨q, hq, hsides⟩ := ih (hs.setPool _) hl
        rw [find?_setPool] at hq
        split at hq
        · rename_i hk
          rw [hk, (Leg.trade_sameClaims htrade).asset, hs.asset_of_pool? hp]
          exact ⟨p, hp, hfirst⟩
        · exact ⟨q, hq, hsides⟩

/-- **Legs leave the pools they trade with sound exactly when none of them drains its own.** -/
theorem sound_iff (supply : Asset → Amount) (t : s.Trades config legs s') (hs : s.Keyed) :
    (∀ k, s'.SoundAt k (supply k)) ↔
      (∀ k, (∀ leg ∈ legs, k ≠ leg.foreign.layer1) → s.SoundAt k (supply k)) ∧
        ∀ leg ∈ legs, ¬ leg.Drains (supply leg.foreign.layer1) := by
  induction t with
  | nil s => simp
  | @cons s s' leg legs p u hp htrade rest ih =>
      have hasset : leg.pool.asset = leg.foreign.layer1 :=
        (Leg.trade_sameClaims htrade).asset.trans (show p.asset = _ from hs.asset_of_pool? hp)
      rw [ih (hs.setPool _)]
      constructor
      · rintro ⟨hoff, hlegs⟩
        refine ⟨fun k hk => ?_, fun l hl => ?_⟩
        · rw [← soundAt_setPool_of_ne (hasset ▸ hk leg List.mem_cons_self)]
          exact hoff k fun l hl => hk l (List.mem_cons_of_mem _ hl)
        · rcases List.mem_cons.mp hl with rfl | hl
          · refine (Leg.sound_iff htrade _).mp ?_
            by_cases hagain : ∃ l' ∈ legs, l'.foreign.layer1 = l.foreign.layer1
            · -- a later leg trades with what this one leaves
              obtain ⟨l', hl', hsame⟩ := hagain
              obtain ⟨q, hq, hsides⟩ := rest.sides (hs.setPool _) hl'
              rw [hsame, ← hasset, find?_setPool, if_pos rfl] at hq
              rw [Option.some.inj hq]
              exact Pool.sound_of_sides hsides.1 hsides.2
            · have hlast := hoff l.foreign.layer1 fun l' hl' e => hagain ⟨l', hl', e.symm⟩
              rw [← hasset] at hlast ⊢
              exact soundAt_setPool_self.mp hlast
          · exact hlegs l hl
      · rintro ⟨hoff, hlegs⟩
        refine ⟨fun k hk => ?_, fun l hl => hlegs l (List.mem_cons_of_mem _ hl)⟩
        by_cases hself : k = leg.pool.asset
        · rw [hself]
          refine soundAt_setPool_self.mpr ((Leg.sound_iff htrade _).mpr ?_)
          rw [hasset]
          exact hlegs leg List.mem_cons_self
        · rw [soundAt_setPool_of_ne hself]
          refine hoff k fun l hl => ?_
          rcases List.mem_cons.mp hl with rfl | hl
          · rw [← hasset]
            exact hself
          · exact hk l hl

end Trades

end Store

/-! ### Orders -/

namespace Route.Traced

variable {pools : PoolSource} {config : Config} {source target : Asset} {amount : Amount}
  {legs : List Leg}

/-- A source that is not native is sold to its own pool. -/
theorem exists_source (t : Traced pools config source target amount legs)
    (hs : source.isNative = false) : ∃ leg ∈ legs, leg.foreign = source := by
  cases t with
  | sale _ _ htrade | across _ _ _ htrade =>
      obtain ⟨-, -, -, -, -, -, -, hsource, -⟩ := Leg.trade_inv htrade
      refine ⟨_, List.mem_cons_self, ?_⟩
      rw [Leg.foreign, hsource, if_neg (by simp [hs])]
  | purchase hn => rw [hs] at hn; cases hn

/-- A target that is not native is bought from its own pool. -/
theorem exists_target (t : Traced pools config source target amount legs)
    (ht : target.isNative = false) : ∃ leg ∈ legs, leg.foreign = target := by
  cases t with
  | sale hn => rw [ht] at hn; cases hn
  | purchase _ _ _ htrade =>
      obtain ⟨-, -, -, -, -, -, -, hsource, htarget, -⟩ := Leg.trade_inv htrade
      refine ⟨_, List.mem_singleton_self _, ?_⟩
      rw [Leg.foreign, hsource, htarget]
      rfl
  | across _ _ _ _ _ htrade =>
      obtain ⟨-, -, -, -, -, -, -, hsource, htarget, -⟩ := Leg.trade_inv htrade
      refine ⟨_, List.mem_cons_of_mem _ (List.mem_singleton_self _), ?_⟩
      rw [Leg.foreign, hsource, htarget]
      rfl

end Route.Traced

theorem Asset.isNative_eq_false {a : Asset} (h : a.isSynthetic = true) : a.isNative = false := by
  rw [Bool.eq_false_iff]
  intro hn
  rw [isNative_iff.mp hn] at h
  cases h

namespace Order

/-- A leg of the order drains its pool, once the supplies have followed. -/
def Drains (o : Order) (config : Config) (s : Store) : Prop :=
  ∃ route, Route.find s.source o.source.asset o.target o.source.amount o.tradeTarget config =
      .ok route ∧
    ∃ leg ∈ route.legs, leg.Drains ((o.settleSupply route.emit s).supply leg.foreign)

theorem settleSupply_supply_congr (o : Order) (emit : Amount) {s s' : Store}
    (h : s'.supplies = s.supplies) (a : Asset) :
    (o.settleSupply emit s').supply a = (o.settleSupply emit s).supply a := by
  have hsupply : ∀ b, s'.supply b = s.supply b := fun b => by rw [Store.supply, Store.supply, h]
  simp only [settleSupply]
  split <;> split <;> simp only [Store.supply_setSupply, hsupply]

/-- Only the supplies of a synthetic target and a synthetic source follow an order. -/
theorem settleSupply_supply_of_ne (o : Order) (emit : Amount) (s : Store) {a : Asset}
    (ht : o.target.isSynthetic = true → a.layer1 ≠ o.target.layer1)
    (hs : o.source.asset.isSynthetic = true → a.layer1 ≠ o.source.asset.layer1) :
    (o.settleSupply emit s).supply a = s.supply a := by
  simp only [settleSupply]
  split
  · rename_i hsource
    rw [Store.supply_setSupply, if_neg (hs hsource)]
    split
    · rename_i htarget
      rw [Store.supply_setSupply, if_neg (ht htarget)]
    · rfl
  · split
    · rename_i htarget
      rw [Store.supply_setSupply, if_neg (ht htarget)]
    · rfl

/-- **An order leaves a store sound exactly when it was and no leg drains its pool.** -/
theorem sound_run_iff {o : Order} {config : Config} {l l' : Ledger} {fill : Fill}
    (h : o.run config l = .ok (l', fill)) (hs : l.store.Founded) :
    l'.store.Sound ↔ l.store.Sound ∧ ¬ o.Drains config l.store := by
  have hkeyed := run_keyed h hs.keyed
  obtain ⟨route, s, hroute, ht, hstore, -, -⟩ := run_inv h
  obtain ⟨-, htraced, -, -⟩ := Route.find_inv hroute
  have hdrains : o.Drains config l.store ↔
      ∃ leg ∈ route.legs, leg.Drains (l'.store.supply leg.foreign.layer1) := by
    have hsupply : ∀ a : Asset, l'.store.supply a.layer1 =
        (o.settleSupply route.emit l.store).supply a := fun a => by
      rw [hstore]
      exact o.settleSupply_supply_congr route.emit ht.supplies a
    simp only [hsupply]
    constructor
    · rintro ⟨route', hroute', hleg⟩
      obtain rfl : route' = route := Except.ok.inj (hroute'.symm.trans hroute)
      exact hleg
    · exact fun hleg => ⟨route, hroute, hleg⟩
  -- a pool that no leg trades with keeps its supply, the others were sound before
  have hbefore : l.store.Sound ↔ ∀ k, (∀ leg ∈ route.legs, k ≠ leg.foreign.layer1) →
      l.store.SoundAt k (l'.store.supply k) := by
    rw [hs.keyed.sound_iff]
    refine forall_congr' fun k => ?_
    by_cases hlayer : k.layer1 = k
    · by_cases hk : ∀ leg ∈ route.legs, k ≠ leg.foreign.layer1
      · have hsame : l'.store.supply k = l.store.supply k := by
          rw [hstore, o.settleSupply_supply_congr route.emit ht.supplies]
          refine o.settleSupply_supply_of_ne route.emit l.store (fun hsynth e => ?_)
            fun hsynth e => ?_
          · obtain ⟨leg, hl, hforeign⟩ := htraced.exists_target (Asset.isNative_eq_false hsynth)
            exact hk leg hl (by rw [hforeign, ← e, hlayer])
          · obtain ⟨leg, hl, hforeign⟩ := htraced.exists_source (Asset.isNative_eq_false hsynth)
            exact hk leg hl (by rw [hforeign, ← e, hlayer])
        rw [hsame]
        exact ⟨fun h _ => h, fun h => h hk⟩
      · refine iff_of_true ?_ fun h => absurd h hk
        simp only [not_forall, not_not] at hk
        obtain ⟨leg, hl, rfl⟩ := hk
        obtain ⟨p, hp, hn, ha⟩ := ht.sides hs.keyed hl
        exact Store.soundAt_of_sides hp hn ha
    · exact iff_of_true (hs.soundAt_of_layer1_ne hlayer) fun _ => hs.soundAt_of_layer1_ne hlayer
  have hpools : ∀ k, l'.store.SoundAt k (l'.store.supply k) ↔ s.SoundAt k (l'.store.supply k) := by
    intro k
    have : l'.store.pools = s.pools := by rw [hstore, o.settleSupply_pools]
    rw [Store.SoundAt, Store.SoundAt, this]
  rw [hkeyed.sound_iff, hbefore, hdrains, forall_congr' hpools, ht.sound_iff _ hs.keyed]
  simp only [not_exists, not_and]

end Order

/-! ### Payments -/

namespace Payout

/-- **A payment leaves a store sound exactly when it was and its fee drains no pool.** -/
theorem sound_settled_iff {s : Store} (hs : s.Founded) (coin : Coin) (config : Config) :
    (settled s coin config).Sound ↔ s.Sound ∧ ¬ Drains s coin config := by
  by_cases hpriced : ∃ pool, PricedBy s coin config pool
  · obtain ⟨pool, hp⟩ := hpriced
    have hasset : pool.asset = coin.asset.layer1 := hs.keyed.asset_of_pool? hp.stored
    have hold : ∀ supply, s.SoundAt coin.asset.layer1 supply := fun supply =>
      Store.soundAt_of_sides hp.stored hp.native hp.asset
    have hother : coin.asset.slipClass ≠ .layer1 → ¬ Drains s coin config := by
      rintro hc ⟨-, -, hlayer1, -⟩
      exact hc hlayer1
    rw [settled_of_pricedBy hp, keepFee]
    cases hc : coin.asset.slipClass with
    | layer1 =>
        rw [Store.sound_setPool_iff hs.keyed (hasset ▸ hold _)]
        refine and_congr_right fun _ => ?_
        rw [show s.supply _ = s.supply coin.asset by rw [Store.supply, hasset]; rfl]
        exact sound_charged_iff hp hc
    | synthetic =>
        rw [Store.sound_setSupply_iff hs hold]
        exact ⟨fun h => ⟨h, hother (by simp [hc])⟩, And.left⟩
    | trade | secured | derived => exact ⟨fun h => ⟨h, hother (by simp [hc])⟩, And.left⟩
  · rw [settled_of_unpriced (not_exists.mp hpriced)]
    refine ⟨fun h => ⟨h, ?_⟩, And.left⟩
    rintro ⟨pool, hp, -⟩
    exact hpriced ⟨pool, hp⟩

end Payout

/-! ### Effects -/

namespace Entry

/-- What the entry does drains a pool. -/
def Drains (e : Entry) (config : Config) : Prop :=
  match e.effect with
  | .order _ o (.ok _) => o.Drains config e.before
  | .refund _ coin _ | .outbound coin => Payout.Drains e.before coin config
  | _ => False

/-- What the entry does may leave nothing of a pool: a leg of its order exhausts one, or the pool of
the coin that it pays holds no more native than the outbound fee. -/
def Exhausts (e : Entry) (config : Config) : Prop :=
  match e.effect with
  | .order _ o (.ok _) =>
    ∃ route, Route.find e.before.source o.source.asset o.target o.source.amount o.tradeTarget
        config = .ok route ∧
      ∃ leg ∈ route.legs, ∃ pool, leg.Exhausts pool config
  | .refund _ coin _ | .outbound coin =>
    ∃ pool, e.before.pool? coin.asset = some pool ∧
      pool.balanceNative.toNat ≤ config.pricing.outboundFee
  | _ => False

variable {config : Config} {e : Entry} {s : Store}

/-- **What drains a pool exhausts one.** -/
theorem exhausts_of_drains (h : e.Drains config) : e.Exhausts config := by
  rw [Drains] at h
  rw [Exhausts]
  split at h
  · obtain ⟨route, hroute, leg, hl, hleg⟩ := h
    obtain ⟨pool, htrade⟩ := (Route.trades_of_find hroute).exists_trade hl
    exact ⟨route, hroute, leg, hl, pool, Leg.exhausts_of_drains htrade hleg⟩
  · exact Payout.native_le_of_drains h
  · exact Payout.native_le_of_drains h
  · cases h

/-- An effect makes no pool. -/
theorem Leads.founded (hl : e.Leads .pools config s) (hs : e.before.Founded) : s.Founded := by
  refine ⟨hl.keyed Handler.pools_keepsKeys hs.keyed, fun k hk => ?_⟩
  have hnone := hs.layer1 k hk
  cases hl with
  | order swap role o state l =>
      rcases Handler.pools_cases config o l with ⟨l', fill, hrun, hout⟩ | ⟨err, -, hout⟩
      · rw [hout]; exact Order.run_find?_eq_none hrun hs.keyed hnone
      · rw [hout]; exact hnone
  | refund swap t role coin reason =>
      exact Payout.settled_find?_eq_none hs.keyed hnone coin config
  | outbound swap t coin => exact Payout.settled_find?_eq_none hs.keyed hnone coin config
  | share swap t coin => exact hnone
  | progress swap t p => exact hnone
  | drop swap t => rw [(BlockRun.frame_dropSwap t swap).1]; exact hnone
  | retain swap t => exact hnone

/-- **The store after an effect is sound exactly when the store before it is and it drains no
pool.** -/
theorem Leads.sound_iff (hl : e.Leads .pools config s) (hs : e.before.Founded) :
    s.Sound ↔ e.before.Sound ∧ ¬ e.Drains config := by
  cases hl with
  | order swap role o state l =>
      rcases Handler.pools_cases config o l with ⟨l', fill, hrun, hout⟩ | ⟨err, -, hout⟩
      · rw [hout]
        exact Order.sound_run_iff hrun hs
      · rw [hout]
        exact (and_iff_left id).symm
  | refund swap t role coin reason => exact Payout.sound_settled_iff hs coin config
  | outbound swap t coin => exact Payout.sound_settled_iff hs coin config
  | share swap t coin => exact (and_iff_left id).symm
  | progress swap t p => exact (and_iff_left id).symm
  | drop swap t =>
      obtain ⟨hpools, -, hsupplies, -⟩ := BlockRun.frame_dropSwap t swap
      rw [Store.Sound, hpools]
      simp only [Store.supply, hsupplies]
      exact (and_iff_left id).symm
  | retain swap t => exact (and_iff_left id).symm

end Entry

/-- A run of effects keeps pools where they belong, and leaves a sound store exactly when it starts
with one and none of its effects drains a pool. -/
theorem Trail.sound_iff {config : Config} {start s : Store} {log : List Entry}
    (t : Trail .pools config start log s) (hs : start.Founded) :
    s.Founded ∧ (s.Sound ↔ start.Sound ∧ ∀ e ∈ log, ¬ e.Drains config) := by
  induction t with
  | nil => exact ⟨hs, by simp⟩
  | @snoc log e s _ last ih =>
      obtain ⟨hf, hbefore⟩ := ih
      refine ⟨last.founded hf, ?_⟩
      rw [last.sound_iff hf, hbefore, and_assoc]
      refine and_congr_right fun _ => ?_
      simp only [List.mem_append, List.mem_singleton, or_imp, forall_and, forall_eq]

namespace SwapQueue

variable (q : SwapQueue) (height : Nat) {l : Ledger}

theorem founded_endBlock (hs : l.store.Founded) :
    (endBlock .pools q height () l).2.ledger.store.Founded := by
  refine endBlock_induct .pools q height () l hs (fun s f h => ?_) fun e s h hl => hl.founded h
  exact ⟨h.keyed.setPairFlags f, h.layer1⟩

/-- **The store after a block is sound exactly when the store before it is and no entry of its
journal drains a pool.** -/
theorem sound_endBlock_iff (hs : l.store.Founded) :
    (endBlock .pools q height () l).2.ledger.store.Sound ↔
      l.store.Sound ∧ ∀ e ∈ journal .pools q height () l, ¬ e.Drains q.config := by
  rw [journal]
  cases hr : rests q.config height with
  | true =>
      rw [store_endBlock_of_rests .pools q height () l hr]
      simp
  | false =>
      rw [store_endBlock .pools q height () l hr]
      exact ((trail_runBlock .pools q height () l).sound_iff hs).2

end SwapQueue

end PoolExchange
