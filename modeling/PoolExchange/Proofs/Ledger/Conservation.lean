import PoolExchange.Proofs.Exchange
import PoolExchange.Proofs.Trade
import PoolExchange.Proofs.Withdrawal

/-!
# Ledger — what a pool owes is what its providers own

A pool keeps three totals for its providers: the units, and the pending amounts of either side
(`Holding`).  Each provider's record keeps a share of the three.  However deposits, withdrawals,
trades, payments and blocks follow one another, the shares add up to the totals.

The operations that touch both records subtract with a stop at zero, so a share above its total
would be lost without a trace.  The invariant (`Conserved`) rules that out: no share exceeds its
total because the shares add up to it, and no sum stops at the largest amount because no total
exceeds what was brought in so far.
-/

namespace PoolExchange

/-! ### Holdings -/

/-- What a pool keeps for its providers. -/
inductive Holding
  | units | native | asset
deriving DecidableEq, Repr

/-- The pool's total. -/
def Pool.held (p : Pool) : Holding → Amount
  | .units => p.lpUnits
  | .native => p.pendingNative
  | .asset => p.pendingAsset

/-- The provider's share of it. -/
def Provider.held (v : Provider) : Holding → Amount
  | .units => v.units
  | .native => v.pendingNative
  | .asset => v.pendingAsset

/-- What a deposit brings: the amounts deposited, and the units issued for it. -/
def Deposit.brings (d : Deposit) (o : Deposit.Outcome) : Holding → Amount
  | .units => o.unitsIssued
  | .native => d.native
  | .asset => d.asset

@[simp] theorem Pool.held_empty (a : Asset) (h : Holding) : (Pool.empty a).held h = 0 := by
  cases h <;> rfl

@[simp] theorem Provider.held_new (a : Asset) (owner : Address) (h : Holding) :
    (Provider.new a owner).held h = 0 := by
  cases h <;> rfl

@[simp] theorem Pool.held_withSynths (p : Pool) (supply : Amount) (h : Holding) :
    (p.withSynths supply).held h = p.held h := by
  cases h <;> rfl

theorem Pool.SameClaims.held {p p' : Pool} (hc : p.SameClaims p') (h : Holding) :
    p'.held h = p.held h := by
  cases h with
  | units => exact hc.lpUnits
  | native => exact hc.pendingNative
  | asset => exact hc.pendingAsset

/-! ### One operation on both records -/

/-- The pool's total and the provider's share move together, by no more than `b`. -/
def MovesTogether (pool pool' : Pool) (provider provider' : Provider) (h : Holding)
    (b : Nat) : Prop :=
  (pool'.held h).toNat + (provider.held h).toNat =
      (pool.held h).toNat + (provider'.held h).toNat ∧
    (pool'.held h).toNat ≤ (pool.held h).toNat + b

theorem MovesTogether.unchanged {pool pool' : Pool} {provider provider' : Provider}
    {h : Holding} (hp : pool'.held h = pool.held h) (hv : provider'.held h = provider.held h)
    (b : Nat) : MovesTogether pool pool' provider provider' h b :=
  ⟨by rw [hp, hv], by rw [hp]; exact Nat.le_add_right _ _⟩

/-- **A deposit moves both records together**, as long as the total fits. -/
theorem Deposit.movesTogether {d : Deposit} {pool : Pool} {provider : Provider}
    {supply : Amount} {o : Deposit.Outcome} (ho : d.apply pool provider supply = .ok o)
    (h : Holding) (hle : (provider.held h).toNat ≤ (pool.held h).toNat)
    (hfit : (pool.held h).toNat + (d.brings o h).toNat < Amount.bound) :
    MovesTogether pool o.pool provider o.provider h (d.brings o h).toNat := by
  rcases apply_cases ho with ⟨-, -, rfl⟩ | ho
  · cases h with
    | units => exact .unchanged rfl rfl _
    | native =>
        simp only [Pool.held, Provider.held, brings] at hle hfit
        simp only [MovesTogether, hold, Pool.held, Provider.held, brings,
          Pool.withSynths_pendingNative]
        rw [Amount.toNat_add_of_lt hfit, Amount.toNat_add_of_lt (by omega)]
        omega
    | asset =>
        simp only [Pool.held, Provider.held, brings] at hle hfit
        simp only [MovesTogether, hold, Pool.held, Provider.held, brings,
          Pool.withSynths_pendingAsset]
        rw [Amount.toNat_add_of_lt hfit, Amount.toNat_add_of_lt (by omega)]
        omega
  · obtain ⟨issue, -, hissued, hpool, -, -, -, hunits, hnative, hasset⟩ := credit_inv ho
    cases h with
    | units =>
        simp only [Pool.held, Provider.held, brings, hissued] at hle hfit
        simp only [MovesTogether, hpool, credited, Pool.held, Provider.held, brings, hissued,
          hunits, Pool.withSynths_lpUnits]
        rw [Amount.toNat_add_of_lt hfit, Amount.toNat_add_of_lt (by omega)]
        omega
    | native =>
        simp only [Pool.held, Provider.held] at hle
        simp only [MovesTogether, hpool, credited, Pool.held, Provider.held, hnative,
          Pool.withSynths_pendingNative, Amount.toNat_sub, Amount.toNat_zero]
        omega
    | asset =>
        simp only [Pool.held, Provider.held] at hle
        simp only [MovesTogether, hpool, credited, Pool.held, Provider.held, hasset,
          Pool.withSynths_pendingAsset, Amount.toNat_sub, Amount.toNat_zero]
        omega

/-- **A withdrawal moves both records together**, and brings nothing. -/
theorem Withdrawal.movesTogether {w : Withdrawal} {pool : Pool} {provider : Provider}
    {supply : Amount} {config : Config} {o : Withdrawal.Outcome}
    (ho : w.apply pool provider supply config = .ok o) (h : Holding)
    (hle : (provider.held h).toNat ≤ (pool.held h).toNat) :
    MovesTogether pool o.pool provider o.provider h 0 := by
  rcases apply_cases ho with ⟨-, ho⟩ | ⟨-, ho⟩
  · obtain ⟨-, hpool, -, hunits, hnative, hasset⟩ := release_inv ho
    cases h with
    | units => exact .unchanged (by rw [hpool]; rfl) (by exact hunits) _
    | native =>
        simp only [Pool.held, Provider.held] at hle
        simp only [MovesTogether, hpool, released, Pool.held, Provider.held, hnative,
          Pool.withSynths_pendingNative, Amount.toNat_sub, Amount.toNat_zero]
        omega
    | asset =>
        simp only [Pool.held, Provider.held] at hle
        simp only [MovesTogether, hpool, released, Pool.held, Provider.held, hasset,
          Pool.withSynths_pendingAsset, Amount.toNat_sub, Amount.toNat_zero]
        omega
  · obtain ⟨r, -, -, hlt, hpool, -, hunits, hnative, hasset⟩ := redeem_inv ho
    obtain ⟨-, hlp, -, -, hpn, hpa, -⟩ := settle_fields (pool.withSynths supply)
      (provider.units - r.unitsAfter) r.native r.asset supply
    cases h with
    | units =>
        have hlt' := Amount.lt_def.mp hlt
        simp only [Pool.held, Provider.held] at hle
        simp only [MovesTogether, hpool, Pool.held, Provider.held, hlp, hunits,
          Pool.withSynths_lpUnits, Amount.toNat_sub]
        omega
    | native => exact .unchanged (by rw [hpool]; exact hpn) (by exact hnative) _
    | asset => exact .unchanged (by rw [hpool]; exact hpa) (by exact hasset) _

/-! ### All providers of a pool -/

namespace Store

/-- What the providers of a pool own together. -/
def owed (s : Store) (pool : Asset) (h : Holding) : Nat :=
  ((s.providersOf pool).map fun v => (v.held h).toNat).sum

/-- What one record adds to it. -/
def shareIn (pool : Asset) (h : Holding) (e : PositionKey × Provider) : Nat :=
  if e.2.asset = pool.layer1 then (e.2.held h).toNat else 0

theorem owed_eq_sum (s : Store) (pool : Asset) (h : Holding) :
    s.owed pool h = (s.providers.entries.map (shareIn pool h)).sum := by
  rw [owed, providersOf, OrderedMap.values]
  induction s.providers.entries with
  | nil => rfl
  | cons e rest ih =>
      rw [List.map_cons, List.map_cons, List.sum_cons, List.filter_cons, ← ih, shareIn]
      split <;> rename_i he
      · rw [if_pos (of_decide_eq_true he), List.map_cons, List.sum_cons]
      · rw [if_neg (fun e => he (decide_eq_true e)), Nat.zero_add]

/-- A record that is replaced takes its share out and puts the new one in. -/
theorem owed_setProvider (s : Store) (v : Provider) (pool : Asset) (h : Holding) :
    (s.setProvider v).owed pool h +
        ((s.providers.find? v.key).map fun o => shareIn pool h (v.key, o)).getD 0 =
      s.owed pool h + shareIn pool h (v.key, v) := by
  rw [owed_eq_sum, owed_eq_sum]
  exact OrderedMap.sum_insert s.providers (shareIn pool h) v.key v

/-- The pool of an asset depends on its layer-1 form alone. -/
theorem poolFor_congr (s : Store) {a b : Asset} (h : a.layer1 = b.layer1) :
    Ledger.poolFor s a = Ledger.poolFor s b := by
  rw [Ledger.poolFor, Ledger.poolFor, Store.pool?, Store.pool?, h]
  simp only [Pool.empty, h]

theorem poolFor_setBoth (s : Store) {asset : Asset} {p : Pool} (hp : p.asset = asset)
    {v : Provider} (a : Asset) :
    Ledger.poolFor ((s.setPool p).setProvider v) a =
      if asset = a.layer1 then p else Ledger.poolFor s a := by
  have hfind : ((s.setPool p).setProvider v).pool? a =
      if a.layer1 = p.asset then some p else s.pool? a := pool?_setPool s p a
  rw [Ledger.poolFor, hfind, hp]
  by_cases he : asset = a.layer1
  · rw [if_pos he.symm, if_pos he]; rfl
  · rw [if_neg (fun e => he e.symm), if_neg he]; rfl

/-! ### One holding of all pools -/

section Tied

variable {s : Store}

/-- What a record under `k` adds is its share, if it is one of the pool's. -/
theorem Keyed.shareIn_providerFor (hs : s.Keyed) {asset : Asset} (ha : asset.layer1 = asset)
    (owner : Address) (a : Asset) (h : Holding) :
    ((s.providers.find? ⟨asset, owner⟩).map fun o => shareIn a h (⟨asset, owner⟩, o)).getD 0 =
      if asset = a.layer1 then ((Ledger.providerFor s asset owner).held h).toNat else 0 := by
  rw [Ledger.providerFor, Store.provider?, ha]
  cases hf : s.providers.find? ⟨asset, owner⟩ with
  | none => simp [Provider.held_new]
  | some o =>
      have hk : o.asset = asset := congrArg PositionKey.pool (hs.provider _ _ hf)
      simp only [Option.map_some, Option.getD_some, shareIn, hk]

/-- What the providers own once a record of `asset` has been replaced. -/
theorem Keyed.owed_setBoth (hs : s.Keyed) {asset : Asset} (ha : asset.layer1 = asset)
    {owner : Address} (pool' : Pool) {provider' : Provider} (hv : provider'.key = ⟨asset, owner⟩)
    (a : Asset) (h : Holding) :
    ((s.setPool pool').setProvider provider').owed a h +
        (if asset = a.layer1 then ((Ledger.providerFor s asset owner).held h).toNat else 0) =
      s.owed a h + if asset = a.layer1 then (provider'.held h).toNat else 0 := by
  have hva : provider'.asset = asset := congrArg PositionKey.pool hv
  have hset := owed_setProvider (s.setPool pool') provider' a h
  rw [hv] at hset
  rw [← hs.shareIn_providerFor ha owner a h]
  simp only [shareIn, hva] at hset ⊢
  exact hset

/-- The providers of every pool own together what it keeps of one holding. -/
def Tied (s : Store) (h : Holding) : Prop :=
  ∀ a, s.owed a h = ((Ledger.poolFor s a).held h).toNat

namespace Tied

variable {h : Holding}

theorem empty (h : Holding) : Tied .empty h := by
  intro a
  rw [Ledger.poolFor, show Store.empty.pool? a = none from rfl, Option.getD_none, Pool.held_empty]
  rfl

/-- No provider owns more than the pool keeps. -/
theorem held_le (ht : s.Tied h) (hs : s.Keyed) {asset : Asset} (ha : asset.layer1 = asset)
    (owner : Address) :
    ((Ledger.providerFor s asset owner).held h).toNat ≤
      ((Ledger.poolFor s asset).held h).toNat := by
  rw [← ht asset]
  have hw := hs.shareIn_providerFor ha owner asset h
  rw [if_pos ha.symm] at hw
  rw [← hw, owed_eq_sum]
  cases hf : s.providers.find? ⟨asset, owner⟩ with
  | none => exact Nat.zero_le _
  | some o => exact OrderedMap.le_sum_of_find? (shareIn asset h) hf

/-- **An operation that moves both records together keeps them tied.** -/
theorem setBoth (ht : s.Tied h) (hs : s.Keyed) {asset : Asset} (ha : asset.layer1 = asset)
    {owner : Address} {pool' : Pool} {provider' : Provider} {b : Nat}
    (hp : pool'.asset = asset) (hv : provider'.key = ⟨asset, owner⟩)
    (hm : MovesTogether (Ledger.poolFor s asset) pool' (Ledger.providerFor s asset owner)
      provider' h b) :
    ((s.setPool pool').setProvider provider').Tied h := by
  intro a
  have howed := hs.owed_setBoth ha pool' hv a h
  have htied := ht a
  rw [poolFor_setBoth s hp]
  by_cases he : asset = a.layer1
  · rw [if_pos he] at howed ⊢
    rw [if_pos he] at howed
    rw [poolFor_congr s (he.symm.trans ha.symm)] at htied
    have := hm.1
    omega
  · -- neither the pool of `a` nor its providers are concerned
    rw [if_neg he] at howed ⊢
    rw [if_neg he] at howed
    omega

/-- Storing a pool with the same holding changes nothing. -/
theorem setPool (ht : s.Tied h) {p p' : Pool} (hf : s.pools.find? p'.asset = some p)
    (hh : p'.held h = p.held h) : (s.setPool p').Tied h := by
  intro a
  refine (ht a).trans ?_
  rw [Ledger.poolFor, Ledger.poolFor, pool?_setPool]
  by_cases he : a.layer1 = p'.asset
  · have hp : s.pool? a = some p := by rw [Store.pool?, he]; exact hf
    rw [if_pos he, hp, Option.getD_some, Option.getD_some, hh]
  · rw [if_neg he]

/-- Neither does anything that leaves pools and positions alone. -/
theorem congr (ht : s.Tied h) {s' : Store} (hp : s'.pools = s.pools)
    (hv : s'.providers = s.providers) : s'.Tied h := by
  intro a
  rw [owed, providersOf, hv, Ledger.poolFor, Store.pool?, hp]
  exact ht a

end Tied

end Tied

/-- **Conservation.**  The providers of every pool own together what the pool keeps for them, and
no more than came in. -/
structure Conserved (s : Store) (inflow : Asset → Holding → Nat) : Prop where
  keyed : s.Keyed
  layer1 : ∀ k p, s.pools.find? k = some p → k.layer1 = k
  tied : ∀ h, s.Tied h
  bounded : ∀ a h, s.owed a h ≤ inflow a.layer1 h

namespace Conserved

variable {s : Store} {inflow : Asset → Holding → Nat}

theorem empty : Conserved .empty fun _ _ => 0 where
  keyed := .empty
  layer1 k p h := by cases h
  tied := .empty
  bounded a h := Nat.le_refl 0

/-- **An operation that moves both records together conserves.** -/
theorem setBoth (hc : s.Conserved inflow) {asset : Asset} (ha : asset.layer1 = asset)
    {owner : Address} {pool' : Pool} {provider' : Provider} {b : Holding → Nat}
    (hp : pool'.asset = asset) (hv : provider'.key = ⟨asset, owner⟩)
    (hm : ∀ h, MovesTogether (Ledger.poolFor s asset) pool' (Ledger.providerFor s asset owner)
      provider' h (b h)) :
    ((s.setPool pool').setProvider provider').Conserved
      fun a h => inflow a h + if asset = a then b h else 0 := by
  refine ⟨(hc.keyed.setPool pool').setProvider provider', fun k p hk => ?_,
    fun h => (hc.tied h).setBoth hc.keyed ha hp hv (hm h), fun a h => ?_⟩
  · have hk : (s.setPool pool').pools.find? k = some p := hk
    rw [find?_setPool] at hk
    split at hk
    · rename_i he
      rw [he, hp, ha]
    · exact hc.layer1 k p hk
  · have hs := hc.keyed.owed_setBoth ha pool' hv a h
    have ht := hc.tied h a
    have hb := hc.bounded a h
    by_cases he : asset = a.layer1
    · rw [if_pos he] at hs ⊢
      rw [if_pos he] at hs
      rw [poolFor_congr s (he.symm.trans ha.symm)] at ht
      have := (hm h).1
      have := (hm h).2
      omega
    · rw [if_neg he] at hs ⊢
      rw [if_neg he] at hs
      omega

/-- Storing a pool with the same holdings conserves. -/
theorem setPool (hc : s.Conserved inflow) {p p' : Pool} (hf : s.pools.find? p'.asset = some p)
    (hh : ∀ h, p'.held h = p.held h) : (s.setPool p').Conserved inflow := by
  refine ⟨hc.keyed.setPool p', fun k q hk => ?_, fun h => (hc.tied h).setPool hf (hh h), hc.bounded⟩
  rw [find?_setPool] at hk
  split at hk
  · rename_i he
    rw [he]
    exact hc.layer1 _ p hf
  · exact hc.layer1 k q hk

/-- So does anything that leaves pools and positions alone. -/
theorem congr (hc : s.Conserved inflow) {s' : Store} (hk : s'.Keyed) (hp : s'.pools = s.pools)
    (hv : s'.providers = s.providers) : s'.Conserved inflow := by
  refine ⟨hk, fun k p h => hc.layer1 k p (hp ▸ h), fun h => (hc.tied h).congr hp hv, fun a h => ?_⟩
  rw [owed, providersOf, hv]
  exact hc.bounded a h

/-- Storing the pool under which an asset is found, with the same holdings, conserves. -/
theorem setPool_of_pool? (hc : s.Conserved inflow) {asset : Asset} {p p' : Pool}
    (hp : s.pool? asset = some p) (ha : p'.asset = p.asset) (hh : ∀ h, p'.held h = p.held h) :
    (s.setPool p').Conserved inflow := by
  refine hc.setPool ?_ hh
  rw [ha, hc.keyed.asset_of_pool? hp]
  exact hp

/-! ### Blocks -/

theorem trades (hc : s.Conserved inflow) {config : Config} {legs : List Leg} {s' : Store}
    (t : s.Trades config legs s') : s'.Conserved inflow := by
  induction t with
  | nil => exact hc
  | cons p u hp htrade _ ih =>
      have hsame := Leg.trade_sameClaims htrade
      refine ih (hc.setPool_of_pool? hp hsame.asset fun h => (hsame.held h).trans ?_)
      cases h <;> rfl

theorem settled (hc : s.Conserved inflow) (coin : Coin) (config : Config) :
    (Payout.settled s coin config).Conserved inflow := by
  rcases Payout.settled_cases s coin config with h | ⟨pool, hpool, -, -, -, -, h⟩
  · rw [h]; exact hc
  · rw [h, Payout.keepFee]
    split
    · exact hc.setPool_of_pool? hpool rfl fun h => by cases h <;> rfl
    · exact hc.congr (hc.keyed.setSupply _ _) rfl rfl
    all_goals exact hc

theorem dropSwap (hc : s.Conserved inflow) (swap : Swap) :
    (BlockRun.dropSwap s swap).Conserved inflow := by
  obtain ⟨hp, hv, -⟩ := BlockRun.frame_dropSwap s swap
  exact hc.congr (BlockRun.keyed_dropSwap hc.keyed swap) hp hv

/-- **Every effect of a block conserves.** -/
theorem leads {config : Config} {e : Entry} (hc : e.before.Conserved inflow)
    (hl : e.Leads .pools config s) : s.Conserved inflow := by
  cases hl with
  | order swap role o state l =>
      rcases Handler.pools_cases config o l with ⟨l', fill, hrun, hout⟩ | ⟨err, -, hout⟩
      · rw [hout]
        obtain ⟨route, s₁, -, ht, hstore, -, -⟩ := Order.run_inv hrun
        rw [hstore]
        have hc₁ := hc.trades ht
        exact hc₁.congr (o.settleSupply_keyed route.emit hc₁.keyed)
          (o.settleSupply_pools route.emit s₁) (o.settleSupply_providers route.emit s₁)
      · rw [hout]; exact hc
  | refund swap s role coin reason => exact hc.settled coin config
  | outbound swap s coin => exact hc.settled coin config
  | share swap s coin => exact hc
  | progress swap s p => exact hc.congr (hc.keyed.setStream p) rfl rfl
  | drop swap s => exact hc.dropSwap swap
  | retain swap s => exact hc

theorem endBlock {l : Ledger} (hc : l.store.Conserved inflow) (q : SwapQueue) (height : Nat) :
    (SwapQueue.endBlock .pools q height () l).2.ledger.store.Conserved inflow :=
  SwapQueue.endBlock_induct (P := fun s => s.Conserved inflow) .pools q height () l hc
    (fun _ f h => h.congr (h.keyed.setPairFlags f) rfl rfl) fun _ _ h hl => h.leads hl

theorem enter (hc : s.Conserved inflow) (swap : Swap) :
    (SwapQueue.enter s swap).Conserved inflow := by
  obtain ⟨hp, hv, -⟩ := SwapQueue.frame_enter s swap
  exact hc.congr (SwapQueue.keyed_enter hc.keyed swap) hp hv

/-! ### Deposits and withdrawals -/

theorem deposit {l l' : Ledger} (hc : l.store.Conserved inflow) {asset : Asset}
    {owner : Address} {d : Deposit} {o : Deposit.Outcome}
    (ho : l.deposit asset owner d = .ok (l', o))
    (hfit : ∀ h, inflow asset h + (d.brings o h).toNat < Amount.bound) :
    l'.store.Conserved fun a h => inflow a h + if asset = a then (d.brings o h).toNat else 0 := by
  obtain ⟨ha, happly, hpool, hkey, hstore⟩ := Ledger.deposit_records hc.keyed ho
  rw [hstore]
  refine hc.setBoth ha hpool hkey fun h => Deposit.movesTogether happly h
    ((hc.tied h).held_le hc.keyed ha owner) ?_
  have hbound := hc.bounded asset h
  rw [hc.tied h asset, ha] at hbound
  exact Nat.lt_of_le_of_lt (Nat.add_le_add_right hbound _) (hfit h)

theorem withdraw {l l' : Ledger} (hc : l.store.Conserved inflow) {asset : Asset}
    {owner : Address} {w : Withdrawal} {config : Config} {o : Withdrawal.Outcome}
    (ho : l.withdraw asset owner w config = .ok (l', o)) : l'.store.Conserved inflow := by
  obtain ⟨happly, hpool, hkey, hstore⟩ := Ledger.withdraw_records hc.keyed ho
  rw [hstore]
  have hset := hc.setBoth (b := fun _ => 0) rfl hpool hkey fun h =>
    Withdrawal.movesTogether happly h ((hc.tied h).held_le hc.keyed rfl owner)
  simpa using hset

theorem setStatus {l l' : Ledger} (hc : l.store.Conserved inflow) {asset : Asset}
    {status : PoolStatus} {p : Pool} (ho : l.setStatus asset status = .ok (l', p)) :
    l'.store.Conserved inflow := by
  obtain ⟨pool, hpool, hstore | hstore⟩ := Ledger.setStatus_inv ho
  · rw [hstore]; exact hc
  · rw [hstore]
    exact hc.setPool_of_pool? hpool rfl fun h => by cases h <;> rfl

end Conserved

end Store

/-! ### Runs -/

namespace Exchange

/-- What an action brings into a pool: something only if it is a deposit that succeeds. -/
def brings (x : Exchange) (a : Action) (pool : Asset) (h : Holding) : Nat :=
  match a with
  | .deposit asset owner d =>
    match x.ledger.deposit asset owner d with
    | .ok (_, o) => if asset = pool then (d.brings o h).toNat else 0
    | .error _ => 0
  | _ => 0

/-- What a run brings into a pool. -/
def inflow (x : Exchange) : List Action → Asset → Holding → Nat
  | [], _, _ => 0
  | a :: actions, pool, h => x.brings a pool h + (x.act a).inflow actions pool h

variable {x : Exchange} {inflow : Asset → Holding → Nat}

/-- **Every action conserves**, except a pool put in place from outside. -/
theorem conserved_act (hc : x.store.Conserved inflow) (a : Action) (ha : ∀ p, a ≠ .setPool p)
    (hfit : ∀ pool h, inflow pool h + x.brings a pool h < Amount.bound) :
    (x.act a).store.Conserved fun pool h => inflow pool h + x.brings a pool h := by
  cases a with
  | deposit asset owner d =>
      cases ho : x.ledger.deposit asset owner d with
      | ok out =>
          obtain ⟨l, o⟩ := out
          have hact : (x.act (.deposit asset owner d)).store = l.store := by
            simp only [act, ho]
            rfl
          -- what the action brings is what the deposit of the outcome brings
          have hbrings : ∀ pool h, x.brings (.deposit asset owner d) pool h =
              if asset = pool then (d.brings o h).toNat else 0 := fun pool h => by
            simp only [brings, ho]
          simp only [hbrings] at hfit ⊢
          rw [hact]
          refine hc.deposit ho fun h => ?_
          have hasset := hfit asset h
          rw [if_pos rfl] at hasset
          exact hasset
      | error e =>
          have hact : x.act (.deposit asset owner d) = x := by simp only [act, ho]
          have hbrings : ∀ pool h, x.brings (.deposit asset owner d) pool h = 0 := fun pool h => by
            simp only [brings, ho]
          simp only [hbrings, Nat.add_zero]
          rw [hact]
          exact hc
  | withdraw asset owner w config =>
      simp only [act]
      split
      · rename_i l o ho
        exact hc.withdraw ho
      · exact hc
  | setStatus asset status =>
      simp only [act]
      split
      · rename_i l o ho
        exact hc.setStatus ho
      · exact hc
  | setSupply asset supply => exact hc.congr (hc.keyed.setSupply asset supply) rfl rfl
  | setPool pool => exact absurd rfl (ha pool)
  | accept swap =>
      simp only [act]
      split
      · rename_i q s ho
        obtain ⟨w, -, -, -, -, rfl⟩ := SwapQueue.accept_inv ho
        exact hc.enter w
      · exact hc
  | endBlock height => exact hc.endBlock x.queue height

theorem conserved_run (hc : x.store.Conserved inflow) (actions : List Action)
    (hactions : ∀ p, Action.setPool p ∉ actions)
    (hfit : ∀ pool h, inflow pool h + x.inflow actions pool h < Amount.bound) :
    (x.run actions).store.Conserved fun pool h => inflow pool h + x.inflow actions pool h := by
  induction actions generalizing x inflow with
  | nil => exact hc
  | cons a actions ih =>
      have hact := conserved_act hc a (fun p e => hactions p (e ▸ List.mem_cons_self))
        fun pool h => by
          have := hfit pool h
          simp only [Exchange.inflow] at this
          omega
      have hrun := ih hact (fun p hp => hactions p (List.mem_cons_of_mem _ hp)) fun pool h => by
        have := hfit pool h
        simp only [Exchange.inflow] at this
        omega
      simp only [Exchange.inflow, ← Nat.add_assoc]
      exact hrun

/-- Only a deposit into a pool brings anything into it. -/
theorem inflow_eq_zero {actions : List Action} {pool : Asset}
    (hn : ∀ owner d, Action.deposit pool owner d ∉ actions) (x : Exchange) (h : Holding) :
    x.inflow actions pool h = 0 := by
  induction actions generalizing x with
  | nil => rfl
  | cons a actions ih =>
      rw [Exchange.inflow, ih (fun owner d hm => hn owner d (List.mem_cons_of_mem _ hm)),
        Nat.add_zero]
      cases a with
      | deposit asset owner d =>
          simp only [brings]
          split
          · refine if_neg ?_
            rintro rfl
            exact hn owner d List.mem_cons_self
          · rfl
      | _ => rfl

/-- **Units and pending amounts are conserved.**  After any run from nothing that puts no pool in
place from outside, and whose deposits and issued units never add up to more than an amount, the
providers of every pool own exactly its units and its pending amounts. -/
theorem providers_own_holdings (config : Config) (actions : List Action)
    (hactions : ∀ p, Action.setPool p ∉ actions)
    (hfit : ∀ pool h, (empty config).inflow actions pool h < Amount.bound) :
    ∀ p ∈ ((empty config).run actions).store.pools.values, ∀ h,
      ((((empty config).run actions).store.providersOf p.asset).map
        fun v => (v.held h).toNat).sum = (p.held h).toNat := by
  intro p hp h
  have hc := conserved_run (x := empty config) Store.Conserved.empty actions hactions
    (fun pool h => by rw [Nat.zero_add]; exact hfit pool h)
  obtain ⟨k, hk⟩ := OrderedMap.mem_values_iff.mp hp
  have hasset := hc.keyed.pool k p hk
  have hlayer1 := hc.layer1 k p hk
  have htied := hc.tied h p.asset
  rw [Ledger.poolFor, Store.pool?, hasset, hlayer1, hk, Option.getD_some] at htied
  rw [hasset]
  exact htied

/-- A deposit in two halves, a trade with the pool it makes, and a withdrawal of half. -/
def twoHalves : List Action :=
  let btc : Asset := ⟨"BTC", "BTC", .layer1⟩
  [.deposit btc ⟨"alice"⟩ ⟨5000000000, 0, ⟨"01"⟩, true, 1⟩,
    .deposit btc ⟨"alice"⟩ ⟨0, 4000000000, ⟨"02"⟩, true, 2⟩,
    .setStatus btc .available,
    .accept ⟨⟨"03"⟩, 0, ⟨"bob"⟩, ⟨btc, 100000000⟩, .native, ⟨"bob"⟩, 0, .market, 0, 0, none, 2⟩,
    .endBlock 3,
    .withdraw btc ⟨"alice"⟩ ⟨5000, .both, 4⟩ {}]

theorem providers_own_holdings_twoHalves :
    (∀ p, Action.setPool p ∉ twoHalves) ∧
      (∀ pool h, (empty {}).inflow twoHalves pool h < Amount.bound) ∧
      ∀ p ∈ ((empty {}).run twoHalves).store.pools.values, ∀ h,
        ((((empty {}).run twoHalves).store.providersOf p.asset).map
          fun v => (v.held h).toNat).sum = (p.held h).toNat := by
  have hactions : ∀ p, Action.setPool p ∉ twoHalves := by simp [twoHalves]
  have hfit : ∀ pool h, (empty {}).inflow twoHalves pool h < Amount.bound := by
    intro pool h
    by_cases hp : pool = ⟨"BTC", "BTC", .layer1⟩
    · subst hp
      cases h <;> decide +kernel
    · rw [inflow_eq_zero (by simp [twoHalves, hp])]
      exact Amount.bound_pos
  exact ⟨hactions, hfit, providers_own_holdings {} twoHalves hactions hfit⟩

/-- The pool's units after `twoHalves` are the half that was left. -/
example : ((empty {}).run twoHalves).store.pools.values.map (fun p => p.lpUnits.toNat) =
    [2500000000] := by decide +kernel

end Exchange

end PoolExchange
