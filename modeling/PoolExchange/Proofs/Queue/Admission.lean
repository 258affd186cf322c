import PoolExchange.Proofs.Across
import PoolExchange.Proofs.Queue.Prefilter

/-!
# Queue — what is admitted is what executes

An order is priced twice: by the curve alone when it is admitted to a block (`PoolSource.fills`),
and by a route when it runs, with all that a leg checks and charges (`Route.find`).

Between layer-1 assets whose pools are open, and with no floor under their slip, a leg pays what the
curve pays, and it refuses nothing but what would pay nothing (`Leg.Plain.pays_iff`).  Two such legs
pay what the curve pays through the depths of both pools, because the second pool is not the first.
So **an order is admitted exactly when a route is found that pays more than it asks for**
(`PoolSource.fills_iff_find`).
-/

namespace PoolExchange

/-! ### One leg -/

namespace Curve

/-- An emission never drains the output side. -/
theorem emission_lt {inDepth x outDepth : Amount}
    (hfit : (x.toNat + inDepth.toNat) ^ 2 < Amount.bound)
    (hpaid : (emission inDepth x outDepth).toNat ≠ 0) :
    emission inDepth x outDepth < outDepth := by
  have hin := Nat.pos_of_ne_zero (ne_zero_of_emission hpaid).2
  have hle : (emission inDepth x outDepth).toNat * (x.toNat + inDepth.toNat) ≤
      x.toNat * outDepth.toNat := emission_mul_le hfit
  rw [Amount.lt_def]
  by_contra hnot
  have hmul := Nat.mul_le_mul_left x.toNat (Nat.not_lt.mp hnot)
  nlinarith [Nat.mul_pos (Nat.pos_of_ne_zero hpaid) hin]

end Curve

namespace Leg

/-- A leg with an open pool, priced at its balances and without a floor. -/
structure Plain (pool : Pool) (source target : Asset) (config : Config) : Prop where
  settled : pool.asset.isSynthetic = false
  opened : pool.isAvailable = true
  real : isVirtual source target pool = false
  free : slipFloor source target config = 0

namespace Plain

variable {pool : Pool} {source target : Asset} {amount emit : Amount} {config : Config}

theorem pricedDepths_eq (h : Plain pool source target config) :
    pricedDepths pool source target config = depths pool source := by
  rw [pricedDepths, h.real, if_neg Bool.false_ne_true]

theorem quote_emit (h : Plain pool source target config) :
    (Curve.quote (pricedDepths pool source target config).1 amount
        (pricedDepths pool source target config).2 (.clamp (slipFloor source target config))).emit =
      Curve.emission (depths pool source).1 amount (depths pool source).2 := by
  have hzero : Amount.clamp 0 = 0 := rfl
  rw [h.free, hzero, Curve.quote_zero, h.pricedDepths_eq]

/-- **A plain leg pays what the curve pays**, if that is anything. -/
theorem pays_iff (h : Plain pool source target config)
    (hfit : (amount.toNat + (depths pool source).1.toNat) ^ 2 < Amount.bound)
    (hpaid : emit.toNat ≠ 0) :
    (∃ leg, trade pool source target amount config = .ok leg ∧ leg.emit = emit) ↔
      Curve.emission (depths pool source).1 amount (depths pool source).2 = emit := by
  constructor
  · rintro ⟨leg, htrade, rfl⟩
    obtain ⟨-, -, -, -, hemit, -⟩ := trade_inv htrade
    exact (hemit.trans h.quote_emit).symm
  · rintro rfl
    obtain ⟨hamount, hin⟩ := Curve.ne_zero_of_emission hpaid
    obtain ⟨leg, htrade⟩ : ∃ leg, trade pool source target amount config = .ok leg := by
      refine exists_trade h.settled h.opened hamount ?_ ?_
      · rwa [h.pricedDepths_eq]
      · rw [h.quote_emit, h.pricedDepths_eq]
        exact Curve.emission_lt hfit hpaid
    obtain ⟨-, -, -, -, hemit, -⟩ := trade_inv htrade
    exact ⟨leg, htrade, hemit.trans h.quote_emit⟩

/-- More than `wanted` is paid by the leg exactly when it is by the curve. -/
theorem exceeds_iff (h : Plain pool source target config)
    (hfit : (amount.toNat + (depths pool source).1.toNat) ^ 2 < Amount.bound) {wanted : Amount} :
    (∃ leg, trade pool source target amount config = .ok leg ∧ wanted < leg.emit) ↔
      wanted < Curve.emission (depths pool source).1 amount (depths pool source).2 := by
  constructor
  · rintro ⟨leg, htrade, hwanted⟩
    rwa [(h.pays_iff hfit (Nat.ne_zero_of_lt hwanted)).mp ⟨leg, htrade, rfl⟩]
  · intro hwanted
    obtain ⟨leg, htrade, hemit⟩ := (h.pays_iff hfit (Nat.ne_zero_of_lt hwanted)).mpr rfl
    exact ⟨leg, htrade, hemit ▸ hwanted⟩

end Plain

end Leg

/-! ### Routes between layer-1 assets -/

namespace Asset

variable {a : Asset}

/-- The class of layer-1 assets is that of those that are not derived. -/
theorem slipClass_eq_layer1 : a.slipClass = .layer1 ↔ a.kind = .layer1 ∧ a.isDerived = false := by
  rw [slipClass]
  cases a.kind <;> simp

theorem isSynthetic_of_slipClass (h : a.slipClass = .layer1) : a.isSynthetic = false := by
  rw [isSynthetic, (slipClass_eq_layer1.mp h).1]
  rfl

theorem layer1_of_slipClass (h : a.slipClass = .layer1) : a.layer1 = a :=
  Asset.ext rfl rfl (slipClass_eq_layer1.mp h).1.symm

end Asset

/-- Between layer-1 assets a leg with an open pool is plain, if their class has no floor. -/
theorem Leg.plain_of_slipClass {pool : Pool} {source target : Asset} {config : Config}
    (hpool : pool.asset.slipClass = .layer1) (hsource : source.slipClass = .layer1)
    (htarget : target.slipClass = .layer1) (hopen : pool.isAvailable = true)
    (hfloor : config.slipFloors.layer1 = 0) : Plain pool source target config where
  settled := Asset.isSynthetic_of_slipClass hpool
  opened := hopen
  real := by
    rw [isVirtual, Asset.isSynthetic_of_slipClass hsource, Asset.isSynthetic_of_slipClass htarget,
      (Asset.slipClass_eq_layer1.mp hpool).2]
    rfl
  free := by
    have hclass : (if source.isNative then target else source).slipClass = .layer1 := by
      split <;> assumption
    rw [slipFloor, hclass]
    exact hfloor

namespace PoolSource

/-- The asset has a pool, which is kept under its name and open. -/
def Opens (pools : PoolSource) (a : Asset) : Prop :=
  ∃ p ∈ pools.pool? a, p.asset = a ∧ p.isAvailable = true

instance (pools : PoolSource) (a : Asset) : Decidable (pools.Opens a) :=
  inferInstanceAs (Decidable (∃ p ∈ pools.pool? a, _))

end PoolSource

namespace Route

variable {pools : PoolSource} {source target : Asset} {amount wanted : Amount} {config : Config}

/-- A route that pays more than was asked for is refused for nothing but its legs. -/
theorem find_exceeds_iff :
    (∃ route, find pools source target amount wanted config = .ok route ∧ wanted < route.emit) ↔
      source ≠ target ∧ ∃ legs, trace pools source target amount config = .ok legs ∧
        wanted < (ofLegs legs).emit := by
  simp only [find_eq_ok]
  constructor
  · rintro ⟨route, ⟨hne, legs, htrace, -, -, rfl⟩, hwanted⟩
    exact ⟨hne, legs, htrace, hwanted⟩
  · rintro ⟨hne, legs, htrace, hwanted⟩
    refine ⟨ofLegs legs, ⟨hne, legs, htrace, Nat.le_of_lt hwanted, ?_, rfl⟩, hwanted⟩
    rw [Bool.eq_false_iff, ne_eq, Amount.isZero_iff]
    exact Nat.ne_zero_of_lt hwanted

/-- The trade has one leg with the given pool. -/
theorem single_exceeds_iff {p : Pool} (hplain : Leg.Plain p source target config)
    (htrace : trace pools source target amount config = do
      return [← Leg.trade p source target amount config])
    (hfit : Curve.FitsThrough [Leg.depths p source] amount) :
    (∃ legs, trace pools source target amount config = .ok legs ∧ wanted < (ofLegs legs).emit) ↔
      wanted < Curve.through [Leg.depths p source] amount := by
  rw [htrace, Curve.through, List.foldl_cons, List.foldl_nil, ← hplain.exceeds_iff hfit.1]
  simp only [bind_eq_ok, pure_eq_ok]
  constructor
  · rintro ⟨legs, ⟨leg, htrade, rfl⟩, hwanted⟩
    exact ⟨leg, htrade, hwanted⟩
  · rintro ⟨leg, htrade, hwanted⟩
    exact ⟨[leg], ⟨leg, htrade, rfl⟩, hwanted⟩

/-- The trade has two legs, with different pools. -/
theorem double_exceeds_iff {p q : Pool} (hsold : Leg.Plain p source .native config)
    (hbought : Leg.Plain q .native target config) (hne : p.asset ≠ target.layer1)
    (hs : source.isNative = false) (ht : target.isNative = false)
    (hload : pools.load source = .ok p) (hload' : pools.load target = .ok q)
    (hfit : Curve.FitsThrough [Leg.depths p source, Leg.depths q .native] amount) :
    (∃ legs, trace pools source target amount config = .ok legs ∧ wanted < (ofLegs legs).emit) ↔
      wanted < Curve.through [Leg.depths p source, Leg.depths q .native] amount := by
  -- the second leg loads its own pool, because the first has left the pool of another asset
  have hsecond {first : Leg} (h : Leg.trade p source .native amount config = .ok first) :
      secondLeg pools first target config =
        Leg.trade q .native target first.emit config := by
    have hother : first.pool.asset ≠ target.layer1 := by
      rwa [(Leg.trade_sameClaims h).asset]
    rw [secondLeg, secondPool, if_neg hother, hload']
    rfl
  obtain ⟨hfit, hfit', -⟩ := hfit
  simp only [trace_across hs ht, bind_eq_ok, pure_eq_ok, firstLeg_eq_ok]
  constructor
  · rintro ⟨legs, ⟨first, ⟨⟨pool, hpool, htrade⟩, hpaid⟩, second, htrade', rfl⟩, hwanted⟩
    obtain rfl := Except.ok.inj (hload.symm.trans hpool)
    rw [hsecond htrade] at htrade'
    have hemit := (hsold.pays_iff hfit fun hz => by
      rw [Amount.isZero_iff.mpr hz] at hpaid
      cases hpaid).mp ⟨first, htrade, rfl⟩
    rw [hemit] at hfit'
    rw [Curve.through, List.foldl_cons, List.foldl_cons, List.foldl_nil, hemit]
    exact (hbought.exceeds_iff hfit').mp ⟨second, htrade', hwanted⟩
  · intro hwanted
    rw [Curve.through, List.foldl_cons, List.foldl_cons, List.foldl_nil] at hwanted
    have hpaid := (Curve.ne_zero_of_emission (Nat.ne_zero_of_lt hwanted)).1
    obtain ⟨first, htrade, hemit⟩ := (hsold.pays_iff hfit hpaid).mpr rfl
    obtain ⟨second, htrade', hwanted⟩ := (hbought.exceeds_iff hfit').mpr hwanted
    rw [← hemit] at htrade'
    refine ⟨[first, second], ⟨first, ⟨⟨p, hload, htrade⟩, ?_⟩, second, ?_, rfl⟩, hwanted⟩
    · rw [Bool.eq_false_iff, Ne, Amount.isZero_iff, hemit]
      exact hpaid
    · rw [hsecond htrade]
      exact htrade'

section
variable (hfloor : config.slipFloors.layer1 = 0)
  (hfit : ∀ depths ∈ pools.depths? ⟨source, target⟩, Curve.FitsThrough depths amount)
include hfloor hfit

theorem purchase_exceeds_iff (hs : source.isNative = true) (ht : target.isNative = false)
    (hclass : target.slipClass = .layer1) (hopens : pools.Opens target) :
    (∃ legs, trace pools source target amount config = .ok legs ∧ wanted < (ofLegs legs).emit) ↔
      ∃ depths, pools.depths? ⟨source, target⟩ = some depths ∧
        wanted < Curve.through depths amount := by
  obtain rfl := Asset.isNative_iff.mp hs
  obtain ⟨p, hp, hasset, hopen⟩ := hopens
  have hplain : Leg.Plain (p.withSynths (pools.supply target)) .native target config :=
    Leg.plain_of_slipClass (hasset.symm ▸ hclass) (by decide) hclass hopen hfloor
  have hdepths : pools.depths? ⟨.native, target⟩ = some [Leg.depths p .native] := by
    rw [PoolSource.depths?, if_pos hs, hp]
    rfl
  have htrace : trace pools .native target amount config = do
      return [← Leg.trade (p.withSynths (pools.supply target)) .native target amount config] := by
    rw [trace, if_neg (by simp [ht]), if_pos hs, PoolSource.load_eq_ok.mpr ⟨p, hp, rfl⟩]
    rfl
  simp only [hdepths, Option.some.injEq, exists_eq_left']
  exact single_exceeds_iff (p := p.withSynths _) hplain htrace (hfit _ hdepths)

theorem sale_exceeds_iff (hs : source.isNative = false) (ht : target.isNative = true)
    (hclass : source.slipClass = .layer1) (hopens : pools.Opens source) :
    (∃ legs, trace pools source target amount config = .ok legs ∧ wanted < (ofLegs legs).emit) ↔
      ∃ depths, pools.depths? ⟨source, target⟩ = some depths ∧
        wanted < Curve.through depths amount := by
  obtain rfl := Asset.isNative_iff.mp ht
  obtain ⟨p, hp, hasset, hopen⟩ := hopens
  have hplain : Leg.Plain (p.withSynths (pools.supply source)) source .native config :=
    Leg.plain_of_slipClass (hasset.symm ▸ hclass) hclass (by decide) hopen hfloor
  have hdepths : pools.depths? ⟨source, .native⟩ = some [Leg.depths p source] := by
    rw [PoolSource.depths?, if_neg (by simp [hs]), if_pos ht, hp, Leg.depths, hs]
    rfl
  have htrace : trace pools source .native amount config = do
      return [← Leg.trade (p.withSynths (pools.supply source)) source .native amount config] := by
    rw [trace, if_pos ht, PoolSource.load_eq_ok.mpr ⟨p, hp, rfl⟩]
    rfl
  simp only [hdepths, Option.some.injEq, exists_eq_left']
  exact single_exceeds_iff (p := p.withSynths _) hplain htrace (hfit _ hdepths)

theorem across_exceeds_iff (hs : source.isNative = false) (ht : target.isNative = false)
    (hne : source ≠ target) (hclass : source.slipClass = .layer1)
    (hclass' : target.slipClass = .layer1) (hopens : pools.Opens source)
    (hopens' : pools.Opens target) :
    (∃ legs, trace pools source target amount config = .ok legs ∧ wanted < (ofLegs legs).emit) ↔
      ∃ depths, pools.depths? ⟨source, target⟩ = some depths ∧
        wanted < Curve.through depths amount := by
  obtain ⟨p, hp, hasset, hopen⟩ := hopens
  obtain ⟨q, hq, hasset', hopen'⟩ := hopens'
  have hsold : Leg.Plain (p.withSynths (pools.supply source)) source .native config :=
    Leg.plain_of_slipClass (hasset.symm ▸ hclass) hclass (by decide) hopen hfloor
  have hbought : Leg.Plain (q.withSynths (pools.supply target)) .native target config :=
    Leg.plain_of_slipClass (hasset'.symm ▸ hclass') (by decide) hclass' hopen' hfloor
  have hdepths : pools.depths? ⟨source, target⟩ =
      some [Leg.depths p source, Leg.depths q .native] := by
    rw [PoolSource.depths?, if_neg (by simp [hs]), if_neg (by simp [ht]), hp, hq, Leg.depths, hs]
    rfl
  have hother : p.asset ≠ target.layer1 := by
    rw [hasset, Asset.layer1_of_slipClass hclass']
    exact hne
  simp only [hdepths, Option.some.injEq, exists_eq_left']
  exact double_exceeds_iff (p := p.withSynths _) (q := q.withSynths _) hsold hbought hother hs ht
    (PoolSource.load_eq_ok.mpr ⟨p, hp, rfl⟩) (PoolSource.load_eq_ok.mpr ⟨q, hq, rfl⟩)
    (hfit _ hdepths)

/-- **A trade between layer-1 assets pays more than `wanted` exactly when the curve does**, through
the depths that it meets. -/
theorem trace_exceeds_iff (hne : source ≠ target) (hclass : source.slipClass = .layer1)
    (hclass' : target.slipClass = .layer1)
    (hopens : ∀ a, (a = source ∨ a = target) → a.isNative = false → pools.Opens a) :
    (∃ legs, trace pools source target amount config = .ok legs ∧ wanted < (ofLegs legs).emit) ↔
      ∃ depths, pools.depths? ⟨source, target⟩ = some depths ∧
        wanted < Curve.through depths amount := by
  cases hs : source.isNative with
  | true =>
      have ht := Asset.isNative_eq_false_of_ne hne.symm hs
      exact purchase_exceeds_iff hfloor hfit hs ht hclass' (hopens _ (.inr rfl) ht)
  | false =>
      have hopen := hopens _ (.inl rfl) hs
      cases ht : target.isNative with
      | true => exact sale_exceeds_iff hfloor hfit hs ht hclass hopen
      | false =>
          exact across_exceeds_iff hfloor hfit hs ht hne hclass hclass' hopen
            (hopens _ (.inr rfl) ht)

end

end Route

namespace PoolSource

variable {pools : PoolSource} {swap : Swap} {config : Config}

theorem fills_iff : pools.fills swap = true ↔
    ∃ depths, pools.depths? swap.pair = some depths ∧
      swap.tradeTarget < Curve.through depths swap.primaryAmount := by
  rw [fills]
  constructor
  · intro h
    split at h
    · rename_i emit hemit
      obtain ⟨depths, hdepths, rfl⟩ := emission?_eq_some.mp hemit
      exact ⟨depths, hdepths, of_decide_eq_true h⟩
    · cases h
  · rintro ⟨depths, hdepths, hwanted⟩
    rw [emission?_eq_some.mpr ⟨depths, hdepths, rfl⟩]
    exact decide_eq_true hwanted

/-- **An order is admitted exactly when the route pays more than it asks for.** -/
theorem fills_iff_find (hne : swap.source.asset ≠ swap.target)
    (hsource : swap.source.asset.slipClass = .layer1) (htarget : swap.target.slipClass = .layer1)
    (hopens : ∀ a, (a = swap.source.asset ∨ a = swap.target) → a.isNative = false → pools.Opens a)
    (hfloor : config.slipFloors.layer1 = 0)
    (hfit : ∀ depths ∈ pools.depths? swap.pair, Curve.FitsThrough depths swap.primaryAmount) :
    pools.fills swap = true ↔
      ∃ route, Route.find pools swap.source.asset swap.target swap.primaryAmount swap.tradeTarget
          config = .ok route ∧ swap.tradeTarget < route.emit := by
  rw [fills_iff, Route.find_exceeds_iff, and_iff_right hne,
    Route.trace_exceeds_iff hfloor hfit hne hsource htarget hopens]
  rfl

/-- The referred order across two pools runs, and pays more than it asks for. -/
theorem fills_iff_find_referred :
    let source : Asset := ⟨"BTC", "BTC", .layer1⟩
    let target : Asset := ⟨"ETH", "ETH", .layer1⟩
    source ≠ target ∧ source.slipClass = .layer1 ∧ target.slipClass = .layer1 ∧
      (∀ a, (a = source ∨ a = target) → a.isNative = false → deepPools.source.Opens a) ∧
      ({} : Config).slipFloors.layer1 = 0 ∧
      (∀ depths ∈ deepPools.source.depths? ⟨source, target⟩,
        Curve.FitsThrough depths referredOrder.primaryAmount) ∧
      ∃ route, Route.find deepPools.source source target referredOrder.primaryAmount 15000000 {} =
        .ok route ∧ 15000000 < route.emit := by
  intro source target
  have hopens : ∀ a, (a = source ∨ a = target) → a.isNative = false →
      deepPools.source.Opens a := by
    rintro a (rfl | rfl) -
    · decide +kernel
    · decide +kernel
  have hfit : ∀ depths ∈ deepPools.source.depths? referredOrder.pair,
      Curve.FitsThrough depths referredOrder.primaryAmount := by decide +kernel
  refine ⟨by decide, by decide, by decide, hopens, rfl, hfit, ?_⟩
  exact (@fills_iff_find _ referredOrder _ (by decide) (by decide) (by decide) hopens rfl hfit).mp
    (by decide +kernel)

end PoolSource

end PoolExchange
