import PoolExchange.Proofs.Deposit
import PoolExchange.Proofs.Store
import PoolExchange.Queue.Order

/-!
# Trade — what a trade that succeeds has done

A leg that succeeds leaves the pool that `Leg.settle` describes, for an emission below the depth it
was priced at (`Leg.trade_inv`).  A route is one leg or two (`Route.Traced`), and an order that
succeeds stores the pools of its route and nothing else but supplies (`Order.run_inv`).

A trade moves balances: the units, the pending amounts and the status of a pool stay as they are
(`Pool.SameClaims`).
-/

namespace PoolExchange

/-- Two states of one pool with the same units of providers, pending amounts and status. -/
structure Pool.SameClaims (p p' : Pool) : Prop where
  asset : p'.asset = p.asset
  lpUnits : p'.lpUnits = p.lpUnits
  pendingNative : p'.pendingNative = p.pendingNative
  pendingAsset : p'.pendingAsset = p.pendingAsset
  status : p'.status = p.status

/-! ### Legs -/

namespace Leg

theorem sameClaims_settle (pool : Pool) (source target : Asset) (amount emit : Amount) :
    pool.SameClaims (settle pool source target amount emit) := by
  simp only [settle]
  split <;> exact ⟨rfl, rfl, rfl, rfl, rfl⟩

variable {pool : Pool} {source target : Asset} {amount : Amount} {config : Config} {leg : Leg}

/-- **Inversion of a leg.** -/
theorem trade_inv (h : trade pool source target amount config = .ok leg) :
    (source.isSynthetic = true ∨ pool.isAvailable = true) ∧ amount.toNat ≠ 0 ∧
      (pricedDepths pool source target config).1.toNat ≠ 0 ∧
      (pricedDepths pool source target config).2.toNat ≠ 0 ∧
      leg.emit = (Curve.quote (pricedDepths pool source target config).1 amount
        (pricedDepths pool source target config).2 (.clamp (slipFloor source target config))).emit ∧
      leg.emit < (pricedDepths pool source target config).2 ∧
      leg.pool = settle pool source target amount leg.emit ∧
      leg.source = source ∧ leg.target = target ∧ leg.input = amount := by
  simp only [trade, guard_eq_ok, Bool.or_eq_true, Amount.isZero_iff, not_or] at h
  obtain ⟨-, hopen, hamount, hdepth, hemit, h⟩ := h
  obtain rfl := Except.ok.inj h
  refine ⟨?_, hamount, hdepth.1, hdepth.2, rfl, Nat.not_le.mp hemit, rfl, rfl, rfl, rfl⟩
  cases hs : source.isSynthetic with
  | true => exact .inl rfl
  | false => exact .inr (by simpa [hs] using hopen)

theorem trade_sameClaims (h : trade pool source target amount config = .ok leg) :
    pool.SameClaims leg.pool := by
  obtain ⟨-, -, -, -, -, -, hpool, -⟩ := trade_inv h
  rw [hpool]
  exact sameClaims_settle pool source target amount leg.emit

/-- The side of a leg that is not native; its pool is the one traded with. -/
def foreign (leg : Leg) : Asset := if leg.source.isNative then leg.target else leg.source

end Leg

/-- Legs that follow one another from one store to the next: each trades with the stored pool,
whatever its synthetic units, and stores what it leaves. -/
inductive Store.Trades (config : Config) : Store → List Leg → Store → Prop
  | nil (s : Store) : Trades config s [] s
  | cons {s s' : Store} {leg : Leg} {legs : List Leg} (p : Pool) (u : Amount)
      (stored : s.pool? leg.foreign = some p)
      (traded : Leg.trade { p with synthUnits := u } leg.source leg.target leg.input config =
        .ok leg)
      (rest : Trades config (s.setPool leg.pool) legs s') : Trades config s (leg :: legs) s'

namespace Store.Trades

theorem keyed {config : Config} {s s' : Store} {legs : List Leg} (t : s.Trades config legs s')
    (hs : s.Keyed) : s'.Keyed := by
  induction t with
  | nil => exact hs
  | cons _ _ _ _ _ ih => exact ih (hs.setPool _)

/-- Trading makes no pool. -/
theorem find?_eq_none {config : Config} {s s' : Store} {legs : List Leg}
    (t : s.Trades config legs s') (hs : s.Keyed) {k : Asset} (h : s.pools.find? k = none) :
    s'.pools.find? k = none := by
  induction t with
  | nil => exact h
  | @cons s s' leg legs p u hp htrade _ ih =>
      refine ih (hs.setPool _) ?_
      have hasset : leg.pool.asset = leg.foreign.layer1 :=
        (Leg.trade_sameClaims htrade).asset.trans (show p.asset = _ from hs.asset_of_pool? hp)
      rw [find?_setPool, if_neg fun e => ?_]
      · exact h
      · rw [e, hasset, show s.pools.find? leg.foreign.layer1 = some p from hp] at h
        cases h

theorem sameBook {config : Config} {s s' : Store} {legs : List Leg} (t : s.Trades config legs s') :
    s.SameBook s' := by
  induction t with
  | nil s => exact .refl s
  | cons _ _ _ _ _ ih => exact (SameBook.setPool _ _).trans ih

end Store.Trades

/-! ### Routes -/

namespace PoolSource

/-- The pool that is loaded is the one of the store, with the synthetic units of the supply. -/
theorem load_eq_ok {pools : PoolSource} {asset : Asset} {pool : Pool} :
    pools.load asset = .ok pool ↔
      ∃ p, pools.pool? asset = some p ∧ pool = p.withSynths (pools.supply asset) := by
  rw [load, findPool]
  cases pools.pool? asset with
  | none => simp [Functor.map, Except.map]
  | some p => simp [Functor.map, Except.map, eq_comm]

end PoolSource

namespace Route

/-- The pool of a second leg: what the first leg left, when it is the same pool. -/
def secondPool (pools : PoolSource) (first : Leg) (target : Asset) : Except PoolError Pool :=
  if first.pool.asset = target.layer1 then pure first.pool else pools.load target

/-- The legs of a trade: a sale for native, a purchase with native, or one after the other. -/
inductive Traced (pools : PoolSource) (config : Config) (source target : Asset)
    (amount : Amount) : List Leg → Prop
  | sale {pool : Pool} {leg : Leg} (target_native : target.isNative = true)
      (loaded : pools.load source = .ok pool)
      (traded : Leg.trade pool source target amount config = .ok leg) :
      Traced pools config source target amount [leg]
  | purchase {pool : Pool} {leg : Leg} (source_native : source.isNative = true)
      (target_foreign : target.isNative = false)
      (loaded : pools.load target = .ok pool)
      (traded : Leg.trade pool .native target amount config = .ok leg) :
      Traced pools config source target amount [leg]
  | across {pool pool' : Pool} {first second : Leg} (source_foreign : source.isNative = false)
      (target_foreign : target.isNative = false)
      (loaded : pools.load source = .ok pool)
      (sold : Leg.trade pool source .native amount config = .ok first)
      (loaded' : secondPool pools first target = .ok pool')
      (bought : Leg.trade pool' .native target first.emit config = .ok second) :
      Traced pools config source target amount [first, second]

/-- The route of the given legs. -/
def ofLegs (legs : List Leg) : Route :=
  ⟨legs, (legs.getLast?.map Leg.emit).getD 0, Amount.sum (legs.map Leg.feeInNative)⟩

variable {pools : PoolSource} {source target : Asset} {amount tradeTarget : Amount}
  {config : Config} {route : Route} {legs : List Leg}

theorem firstLeg_eq_ok {leg : Leg} : firstLeg pools source amount config = .ok leg ↔
    (∃ pool, pools.load source = .ok pool ∧
      Leg.trade pool source .native amount config = .ok leg) ∧ leg.emit.isZero = false := by
  simp only [firstLeg, bind_eq_ok, guard_eq_ok, Bool.not_eq_true, Except.ok.injEq]
  constructor
  · rintro ⟨pool, hload, first, htrade, hemit, rfl⟩
    exact ⟨⟨pool, hload, htrade⟩, hemit⟩
  · rintro ⟨⟨pool, hload, htrade⟩, hemit⟩
    exact ⟨pool, hload, leg, htrade, hemit, rfl⟩

theorem trace_inv (h : trace pools source target amount config = .ok legs) :
    Traced pools config source target amount legs := by
  rw [trace] at h
  split at h
  · rename_i hn
    simp only [bind_eq_ok, pure_eq_ok] at h
    obtain ⟨pool, hload, leg, htrade, rfl⟩ := h
    exact .sale hn hload htrade
  · rename_i hn
    rw [Bool.not_eq_true] at hn
    split at h
    · rename_i hs
      simp only [bind_eq_ok, pure_eq_ok] at h
      obtain ⟨pool, hload, leg, htrade, rfl⟩ := h
      exact .purchase hs hn hload htrade
    · rename_i hs
      rw [Bool.not_eq_true] at hs
      rw [bind_eq_ok] at h
      obtain ⟨first, hfirst, h⟩ := h
      obtain ⟨⟨pool, hload, hsold⟩, -⟩ := firstLeg_eq_ok.mp hfirst
      -- the second pool is chosen by a test on the first leg, so each choice is followed
      by_cases hsame : first.pool.asset = target.layer1
      · simp only [if_pos hsame, pure_bind, bind_eq_ok, pure_eq_ok] at h
        obtain ⟨second, hbought, rfl⟩ := h
        exact .across hs hn hload hsold (by rw [secondPool, if_pos hsame]; rfl) hbought
      · simp only [if_neg hsame, bind_eq_ok, pure_eq_ok] at h
        obtain ⟨pool', hload', second, hbought, rfl⟩ := h
        exact .across hs hn hload hsold (by rw [secondPool, if_neg hsame]; exact hload') hbought

/-- **A trade is priced when its legs pay as much as was asked for, and something.** -/
theorem find_eq_ok : find pools source target amount tradeTarget config = .ok route ↔
    source ≠ target ∧ ∃ legs, trace pools source target amount config = .ok legs ∧
      tradeTarget ≤ (ofLegs legs).emit ∧ (ofLegs legs).emit.isZero = false ∧
      route = ofLegs legs := by
  have hpaid (legs : List Leg) :
      ¬ (!tradeTarget.isZero && (ofLegs legs).emit < tradeTarget) = true ↔
        tradeTarget ≤ (ofLegs legs).emit := by
    rw [Bool.and_eq_true, Bool.not_eq_true', Bool.eq_false_iff, ne_eq, Amount.isZero_iff,
      decide_eq_true_eq, Amount.lt_def, Amount.le_def]
    omega
  simp only [find, guard_eq_ok, bind_eq_ok]
  constructor
  · rintro ⟨hne, legs, htrace, hlimit, hemit, hroute⟩
    exact ⟨hne, legs, htrace, (hpaid legs).mp hlimit, Bool.eq_false_of_not_eq_true hemit,
      (Except.ok.inj hroute).symm⟩
  · rintro ⟨hne, legs, htrace, hle, hemit, rfl⟩
    exact ⟨hne, legs, htrace, (hpaid legs).mpr hle, ne_true_of_eq_false hemit, rfl⟩

/-- A priced trade is traced, and emits something. -/
theorem find_inv (h : find pools source target amount tradeTarget config = .ok route) :
    source ≠ target ∧ Traced pools config source target amount route.legs ∧
      route.emit = (route.legs.getLast?.map Leg.emit).getD 0 ∧ route.emit.toNat ≠ 0 := by
  obtain ⟨hne, legs, htrace, -, hemit, rfl⟩ := find_eq_ok.mp h
  rw [Bool.eq_false_iff, ne_eq, Amount.isZero_iff] at hemit
  exact ⟨hne, trace_inv htrace, rfl, hemit⟩

/-- Storing the pools of a route is storing the pool of each leg in turn. -/
theorem setPools_pools (s : Store) {r : Route} {source target : Asset} {amount : Amount}
    {pools : PoolSource} {config : Config} (h : Traced pools config source target amount r.legs) :
    s.setPools r.pools = s.setPools (r.legs.map Leg.pool) := by
  generalize hl : r.legs = legs at h
  cases h with
  | sale | purchase => simp [Route.pools, hl, putPool]
  | @across pool pool' first second =>
      by_cases he : first.pool.asset = second.pool.asset
      · have hp : r.pools = [second.pool] := by simp [Route.pools, hl, putPool, he]
        rw [hp]
        -- the second pool overwrites the first
        refine Store.ext (OrderedMap.ext_find? fun k => ?_) rfl rfl rfl rfl rfl rfl
        simp only [Store.setPools, List.map_cons, List.map_nil, List.foldl_cons, List.foldl_nil,
          Store.setPool, OrderedMap.find?_insert, he]
        split <;> rfl
      · simp [Route.pools, hl, putPool, he]

/-- **A route is its legs, one after the other.** -/
theorem trades_of_find {s : Store} {source target : Asset}
    {amount tradeTarget : Amount} {config : Config} {route : Route}
    (h : find s.source source target amount tradeTarget config = .ok route) :
    s.Trades config route.legs (s.setPools route.pools) := by
  obtain ⟨hne, htraced, -, -⟩ := find_inv h
  rw [setPools_pools s htraced]
  generalize route.legs = legs at htraced
  cases htraced with
  | @sale pool leg hn hload htrade =>
      obtain ⟨p, hp, rfl⟩ := PoolSource.load_eq_ok.mp hload
      obtain ⟨-, -, -, -, -, -, -, hsource, htarget, hinput⟩ := Leg.trade_inv htrade
      have hs' : source.isNative = false := by
        rw [Bool.eq_false_iff]
        exact fun hn' => hne ((Asset.isNative_iff.mp hn').trans (Asset.isNative_iff.mp hn).symm)
      refine .cons p (synthUnitsOf p.balanceAsset (s.supply source) p.lpUnits) ?_ ?_ (.nil _)
      · rw [Leg.foreign, hsource, hs']
        exact hp
      · rw [hsource, htarget, hinput]
        exact htrade
  | @purchase pool leg hn _ hload htrade =>
      obtain ⟨p, hp, rfl⟩ := PoolSource.load_eq_ok.mp hload
      obtain ⟨-, -, -, -, -, -, -, hsource, htarget, hinput⟩ := Leg.trade_inv htrade
      refine .cons p (synthUnitsOf p.balanceAsset (s.supply target) p.lpUnits) ?_ ?_ (.nil _)
      · rw [Leg.foreign, hsource, htarget]
        exact hp
      · rw [hsource, htarget, hinput]
        exact htrade
  | @across pool pool' first second hs' ht' hload hsold hload' hbought =>
      obtain ⟨p, hp, rfl⟩ := PoolSource.load_eq_ok.mp hload
      have hfirst := Leg.trade_inv hsold
      have hsecond := Leg.trade_inv hbought
      obtain ⟨-, -, -, -, -, -, -, hsource, htarget, hinput⟩ := hfirst
      obtain ⟨-, -, -, -, -, -, -, hsource', htarget', hinput'⟩ := hsecond
      -- the second leg trades with what the first has stored
      have hstored : ∃ q u, (s.setPool first.pool).pool? target = some q ∧
          pool' = { q with synthUnits := u } := by
        rw [Store.pool?_setPool]
        by_cases he : first.pool.asset = target.layer1
        · rw [secondPool, if_pos he] at hload'
          obtain rfl := pure_eq_ok.mp hload'
          exact ⟨first.pool, first.pool.synthUnits, by rw [if_pos he.symm], rfl⟩
        · rw [secondPool, if_neg he] at hload'
          obtain ⟨q, hq, rfl⟩ := PoolSource.load_eq_ok.mp hload'
          exact ⟨q, synthUnitsOf q.balanceAsset (s.supply target) q.lpUnits,
            by rw [if_neg (fun e => he e.symm)]; exact hq, rfl⟩
      obtain ⟨q, u, hq, rfl⟩ := hstored
      refine .cons p (synthUnitsOf p.balanceAsset (s.supply source) p.lpUnits) ?_ ?_
        (.cons q u ?_ ?_ (.nil _))
      · rw [Leg.foreign, hsource, hs']
        exact hp
      · rw [hsource, htarget, hinput]
        exact hsold
      · rw [Leg.foreign, hsource', htarget']
        exact hq
      · rw [hsource', htarget', hinput']
        exact hbought

end Route

/-! ### Orders -/

namespace Order

/-- The ledger after the order has taken `route`. -/
def settled (o : Order) (route : Route) (l : Ledger) : Ledger :=
  (l.withStore (o.settleSupply route.emit (l.store.setPools route.pools))).emitAll
    (route.legs.map o.legEvent)

/-- What the order pays by `route`. -/
def fillBy (o : Order) (route : Route) : Fill where
  emit := ⟨o.target, route.emit⟩
  feeInNative := route.feeInNative
  slip := Amount.sum (route.legs.map Leg.slip)

variable {o : Order} {config : Config} {l l' : Ledger} {fill : Fill}

theorem run_eq_ok : o.run config l = .ok (l', fill) ↔
    o.validate = .ok () ∧ ∃ route, Route.find l.store.source o.source.asset o.target
      o.source.amount o.tradeTarget config = .ok route ∧
      l' = o.settled route l ∧ fill = o.fillBy route := by
  simp only [run]
  cases o.validate with
  | error e => simp
  | ok _ =>
      cases Route.find l.store.source o.source.asset o.target o.source.amount o.tradeTarget
          config with
      | error e => simp
      | ok route =>
          simp only [Except.ok.injEq, Prod.mk.injEq, true_and, exists_eq_left', eq_comm (b := l'),
            eq_comm (b := fill)]
          rfl

/-- An order of nothing is refused. -/
theorem ne_zero_of_validate (h : o.validate = .ok ()) : o.source.amount.toNat ≠ 0 := by
  rw [validate, guard_eq_ok, Amount.isZero_iff] at h
  exact h.1

/-- **Inversion of an order.**  Its legs trade one after the other, and supplies follow. -/
theorem run_inv (h : o.run config l = .ok (l', fill)) :
    ∃ route s, Route.find l.store.source o.source.asset o.target o.source.amount o.tradeTarget
        config = .ok route ∧
      l.store.Trades config route.legs s ∧ l'.store = o.settleSupply route.emit s ∧
      fill.emit = ⟨o.target, route.emit⟩ ∧ o.source.amount.toNat ≠ 0 := by
  obtain ⟨hvalid, route, hroute, rfl, rfl⟩ := run_eq_ok.mp h
  exact ⟨route, _, hroute, Route.trades_of_find hroute, rfl, rfl, ne_zero_of_validate hvalid⟩

theorem settleSupply_pools (o : Order) (emit : Amount) (s : Store) :
    (o.settleSupply emit s).pools = s.pools := by
  simp only [settleSupply]
  split <;> split <;> rfl

theorem settleSupply_providers (o : Order) (emit : Amount) (s : Store) :
    (o.settleSupply emit s).providers = s.providers := by
  simp only [settleSupply]
  split <;> split <;> rfl

theorem settleSupply_keyed (o : Order) (emit : Amount) {s : Store} (hs : s.Keyed) :
    (o.settleSupply emit s).Keyed := by
  simp only [settleSupply]
  split <;> split <;> exact ⟨hs.pool, hs.provider, hs.swap, hs.stream⟩

theorem settleSupply_sameBook (o : Order) (emit : Amount) (s : Store) :
    s.SameBook (o.settleSupply emit s) := by
  simp only [settleSupply]
  split <;> split <;> exact ⟨rfl, rfl, rfl⟩

end Order

namespace Handler

/-- The pools' handler runs an order, or refuses it and leaves everything as it was. -/
theorem pools_cases (config : Config) (o : Order) (l : Ledger) :
    (∃ l' fill, o.run config l = .ok (l', fill) ∧
        pools.run config o () l = (((), l'), .ok fill)) ∨
      ∃ e, o.run config l = .error e ∧ pools.run config o () l = (((), l), .error e) := by
  simp only [pools]
  cases h : o.run config l with
  | ok out => exact .inl ⟨out.1, out.2, rfl, rfl⟩
  | error e => exact .inr ⟨e, rfl, rfl⟩

end Handler

end PoolExchange
