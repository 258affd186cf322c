import PoolExchange.Proofs.Backing
import PoolExchange.Proofs.Queue.Soundness

/-!
# Order — what a trade moves, and that it moves nothing else

A leg takes its input into one balance of its pool and its emission out of the other.  Both are
exact when the input fits (`Leg.Takes`) and the emission is backed, which it is at depths that are
at most quadrupled.  Along a route the movements add up (`Store.Moves.trans`): the native amount
that the first leg pays is what the second one takes, so the pools together hold as much native as
before.

**An order therefore moves its source in and its emission out, and nothing else**
(`Order.run_moves`): native as a whole, any other asset in its own pool, and a synthetic one in its
supply.
-/

namespace PoolExchange

/-- The amount as a movement, where it is one. -/
def Amount.moved (a : Amount) (applies : Bool) : ℤ := if applies then a.toNat else 0

@[simp] theorem Amount.moved_true (a : Amount) : a.moved true = a.toNat := rfl

@[simp] theorem Amount.moved_false (a : Amount) : a.moved false = 0 := rfl

/-- The asset is held by the pool of `k`: it is neither native nor a claim on a pool. -/
def Asset.isHeldBy (a k : Asset) : Bool := !a.isNative && !a.isSynthetic && a.layer1 == k

theorem Asset.isHeldBy_layer1 (a : Asset) :
    a.isHeldBy a.layer1 = (!a.isNative && !a.isSynthetic) := by
  rw [isHeldBy, beq_self_eq_true, Bool.and_true]

/-- No pool holds native as its asset. -/
theorem Asset.isHeldBy_of_isNative {a : Asset} (h : a.isNative = true) (k : Asset) :
    a.isHeldBy k = false := by
  rw [isHeldBy, h]
  rfl

/-- The asset is a claim on the pool of `k`. -/
def Asset.isClaimOn (a k : Asset) : Bool := a.isSynthetic && a.layer1 == k.layer1

namespace Pool

/-- Two states of one pool that differ in their balances and their synthetic units. -/
def Rebalanced (p p' : Pool) : Prop :=
  p' = { p with
    balanceNative := p'.balanceNative
    balanceAsset := p'.balanceAsset
    synthUnits := p'.synthUnits }

variable {p p' p'' : Pool}

theorem Rebalanced.refl (p : Pool) : p.Rebalanced p := rfl

theorem Rebalanced.trans (h : p.Rebalanced p') (h' : p'.Rebalanced p'') : p.Rebalanced p'' := by
  rw [Rebalanced] at h h' ⊢
  rw [h', h]

end Pool

namespace Store

/-- The native balances of all pools. -/
def nativeTotal (s : Store) : Nat := (s.pools.entries.map fun e => e.2.balanceNative.toNat).sum

/-- From `s` to `s'` the pools gain `total` of native altogether, and each pool `k` gains `own k` of
its asset; besides, they are the same pools. -/
structure Moves (s s' : Store) (total : ℤ) (own : Asset → ℤ) : Prop where
  native : (s'.nativeTotal : ℤ) = s.nativeTotal + total
  asset : ∀ k p, s.pools.find? k = some p → ∃ p', s'.pools.find? k = some p' ∧
    p.Rebalanced p' ∧ (p'.balanceAsset.toNat : ℤ) = p.balanceAsset.toNat + own k
  missing : ∀ k, s.pools.find? k = none → s'.pools.find? k = none

namespace Moves

variable {s s' s'' : Store} {n n' : ℤ} {f f' : Asset → ℤ}

theorem refl (s : Store) : Moves s s 0 fun _ => 0 where
  native := (add_zero _).symm
  asset _ p hp := ⟨p, hp, .refl p, (add_zero _).symm⟩
  missing _ h := h

theorem trans (h : Moves s s' n f) (h' : Moves s' s'' n' f') :
    Moves s s'' (n + n') fun k => f k + f' k where
  native := by rw [h'.native, h.native, add_assoc]
  asset k p hp := by
    obtain ⟨p', hp', hsame, hmoved⟩ := h.asset k p hp
    obtain ⟨p'', hp'', hsame', hmoved'⟩ := h'.asset k p' hp'
    exact ⟨p'', hp'', hsame.trans hsame', by rw [hmoved', hmoved, add_assoc]⟩
  missing k hk := h'.missing k (h.missing k hk)

theorem congr (h : Moves s s' n f) (hpools : s''.pools = s'.pools) (hn : n' = n)
    (hf : ∀ k, f' k = f k) : Moves s s'' n' f' where
  native := by rw [nativeTotal, hpools, hn]; exact h.native
  asset k p hp := by rw [hpools, hf]; exact h.asset k p hp
  missing k hk := by rw [hpools]; exact h.missing k hk

/-- Putting back a pool with other balances. -/
theorem setPool {p p' : Pool} {k : Asset} (hp : s.pools.find? k = some p) (hk : p.asset = k)
    (hsame : p.Rebalanced p') (hn : (p'.balanceNative.toNat : ℤ) = p.balanceNative.toNat + n)
    (hf : (p'.balanceAsset.toNat : ℤ) = p.balanceAsset.toNat + f k)
    (hoff : ∀ k', k' ≠ k → f k' = 0) : Moves s (s.setPool p') n f := by
  have hasset : p'.asset = k := by
    rw [hsame]
    exact hk
  constructor
  · have hsum := s.pools.sum_insert (fun e => e.2.balanceNative.toNat) k p'
    rw [hp, Option.map_some, Option.getD_some] at hsum
    rw [nativeTotal, nativeTotal, Store.setPool, hasset]
    dsimp only at hsum ⊢
    omega
  · intro k' q hq
    by_cases hkk : k' = k
    · subst hkk
      obtain rfl : p = q := Option.some.inj (hp.symm.trans hq)
      exact ⟨p', by rw [find?_setPool, if_pos hasset.symm], hsame, hf⟩
    · refine ⟨q, ?_, .refl q, by rw [hoff k' hkk, add_zero]⟩
      rw [find?_setPool, if_neg (hasset ▸ hkk)]
      exact hq
  · intro k' hk'
    rw [find?_setPool, if_neg]
    · exact hk'
    · rintro rfl
      rw [hasset, hp] at hk'
      cases hk'

end Moves

end Store

/-! ### Legs -/

namespace Leg

/-- Exactly one side of the leg is native. -/
def Crosses (leg : Leg) : Prop := leg.source.isNative ≠ leg.target.isNative

/-- The input fits into the balance that it goes to; a synthetic one goes to none. -/
def Takes (pool : Pool) (source : Asset) (amount : Amount) : Prop :=
  source.isSynthetic = false → (depths pool source).1.toNat + amount.toNat < Amount.bound

instance (pool : Pool) (source : Asset) (amount : Amount) :
    Decidable (Takes pool source amount) :=
  inferInstanceAs (Decidable (_ → _))

/-- What the pools hold more of native after the leg. -/
def nativeMove (leg : Leg) : ℤ :=
  leg.input.moved leg.source.isNative - leg.emit.moved leg.target.isNative

/-- What the pool of `k` holds more of its asset after the leg. -/
def assetMove (leg : Leg) (k : Asset) : ℤ :=
  leg.input.moved (leg.source.isHeldBy k) - leg.emit.moved (leg.target.isHeldBy k)

variable {pool : Pool} {source target : Asset} {amount : Amount} {config : Config} {leg : Leg}

theorem rebalanced_of_trade (h : trade pool source target amount config = .ok leg) :
    pool.Rebalanced leg.pool := by
  obtain ⟨-, -, -, -, -, -, hpool, -⟩ := trade_inv h
  rw [hpool, settle]
  split <;> rfl

/-- **A leg that takes its input and is backed moves exactly that.** -/
theorem balances_of_trade (h : trade pool source target amount config = .ok leg)
    (hcross : leg.Crosses) (htakes : Takes pool source amount)
    (hbacked : target.isSynthetic = false → Backed pool leg) :
    (leg.pool.balanceNative.toNat : ℤ) = pool.balanceNative.toNat + leg.nativeMove ∧
      (leg.pool.balanceAsset.toNat : ℤ) =
        pool.balanceAsset.toNat + leg.assetMove leg.foreign.layer1 := by
  obtain ⟨-, -, -, -, -, -, hpool, hsource, htarget, hinput⟩ := trade_inv h
  rw [Crosses, hsource, htarget] at hcross
  rw [Backed, hsource, hpool] at hbacked
  rw [nativeMove, assetMove, foreign, hsource, htarget, hinput, hpool]
  cases hs : source.isNative with
  | true =>
      have ht : target.isNative = false := by simpa [hs] using hcross.symm
      have hreal : source.isSynthetic = false := by
        rw [Asset.isNative_iff.mp hs]
        rfl
      have hsum := Amount.toNat_add_of_lt (htakes hreal)
      simp only [depths, settle, hs, if_true] at hbacked hsum ⊢
      rw [Asset.isHeldBy_of_isNative hs, Asset.isHeldBy_layer1, ht, Amount.moved_true,
        Amount.moved_false, Amount.moved_false]
      cases hc : target.isSynthetic with
      | true =>
          refine ⟨?_, (add_zero _).symm⟩
          rw [hsum]
          omega
      | false =>
          have hout := hbacked hc
          simp only [hc, Bool.false_eq_true, if_false, hsum, Bool.not_false, Bool.and_true,
            Amount.moved_true] at hout ⊢
          omega
  | false =>
      have ht : target.isNative = true := by simpa [hs] using hcross.symm
      have hreal : target.isSynthetic = false := by
        rw [Asset.isNative_iff.mp ht]
        rfl
      have hout := hbacked hreal
      simp only [depths, settle, hs, Bool.false_eq_true, if_false, Takes] at hout htakes ⊢
      rw [Asset.isHeldBy_of_isNative ht, Asset.isHeldBy_layer1, hs, ht, Amount.moved_true,
        Amount.moved_false, Amount.moved_false]
      cases hc : source.isSynthetic with
      | true =>
          refine ⟨?_, (add_zero _).symm⟩
          omega
      | false =>
          have hsum := Amount.toNat_add_of_lt (htakes hc)
          simp only [Bool.false_eq_true, if_false, hsum, Bool.not_false, Bool.and_true,
            Amount.moved_true]
          omega

/-- Only the pool of the side that is not native moves. -/
theorem assetMove_of_ne (hcross : leg.Crosses) {k : Asset} (hk : k ≠ leg.foreign.layer1) :
    leg.assetMove k = 0 := by
  rw [foreign] at hk
  cases hs : leg.source.isNative with
  | true =>
      rw [hs, if_pos rfl] at hk
      have hoff : (leg.target.layer1 == k) = false := beq_false_of_ne hk.symm
      simp [assetMove, Amount.moved, Asset.isHeldBy, hs, hoff]
  | false =>
      have ht : leg.target.isNative = true := by simpa [Crosses, hs] using hcross.symm
      rw [hs, if_neg Bool.false_ne_true] at hk
      have hoff : (leg.source.layer1 == k) = false := beq_false_of_ne hk.symm
      simp [assetMove, Amount.moved, Asset.isHeldBy, ht, hoff]

end Leg

/-! ### Legs that follow one another -/

namespace Store

/-- From `s` on, each leg is priced and takes its input without stopping at the largest amount. -/
def Fits (config : Config) : Store → List Leg → Prop
  | _, [] => True
  | s, leg :: legs =>
    (∀ p ∈ s.pool? leg.foreign,
      Leg.Fits p leg.source leg.target leg.input config ∧ Leg.Takes p leg.source leg.input) ∧
      Fits config (s.setPool leg.pool) legs

instance decidableFits (config : Config) :
    (s : Store) → (legs : List Leg) → Decidable (Fits config s legs)
  | _, [] => inferInstanceAs (Decidable True)
  | s, leg :: legs =>
    have := decidableFits config (s.setPool leg.pool) legs
    inferInstanceAs (Decidable (_ ∧ _))

theorem Moves.of_trades {config : Config} {s s' : Store} {legs : List Leg}
    (t : s.Trades config legs s') (hs : s.Keyed)
    (hscale : config.pricing.virtualMultiplier ≤ 4 * fullBasisPoints)
    (hcross : ∀ leg ∈ legs, leg.Crosses) (hfit : s.Fits config legs) :
    Moves s s' (legs.map Leg.nativeMove).sum fun k => (legs.map (Leg.assetMove · k)).sum := by
  induction t with
  | nil s => exact .refl s
  | @cons s s' leg legs p u hp htrade rest ih =>
      obtain ⟨hfirst, hlater⟩ := hfit
      obtain ⟨hleg, htakes⟩ := hfirst p hp
      have hpeak : config.pricing.virtualMultiplier *
          Curve.peak (Leg.slipFloor leg.source leg.target config) ≤ fullBasisPoints ^ 3 := by
        have hquarter := Curve.four_mul_peak_le (Leg.slipFloor leg.source leg.target config)
        nlinarith
      obtain ⟨hnative, hasset⟩ := Leg.balances_of_trade htrade
        (hcross leg List.mem_cons_self) htakes
        fun hreal => Leg.backed_of_peak htrade hreal hleg hpeak
      have hmoves : Moves s (s.setPool leg.pool) leg.nativeMove leg.assetMove := by
        refine setPool hp (hs.asset_of_pool? hp) ?_ hnative hasset
          fun k hk => Leg.assetMove_of_ne (hcross leg List.mem_cons_self) hk
        exact (Leg.rebalanced_of_trade htrade : Pool.Rebalanced { p with synthUnits := u } _)
      simp only [List.map_cons, List.sum_cons]
      exact hmoves.trans (ih (hs.setPool _) (fun l hl => hcross l (List.mem_cons_of_mem _ hl))
        hlater)

namespace Trades

variable {config : Config} {s s' : Store} {legs : List Leg}

/-- Legs change pools, -/
theorem rest (t : s.Trades config legs s') : s' = { s with pools := s'.pools } := by
  induction t with
  | nil => rfl
  | cons _ _ _ _ _ ih => rw [ih]; rfl

/-- and only those that they trade with. -/
theorem find?_of_ne (t : s.Trades config legs s') (hs : s.Keyed) {k : Asset}
    (hk : ∀ leg ∈ legs, k ≠ leg.foreign.layer1) : s'.pools.find? k = s.pools.find? k := by
  induction t with
  | nil => rfl
  | @cons s s' leg legs p u hp htrade rest ih =>
      have hasset : leg.pool.asset = leg.foreign.layer1 :=
        (Leg.trade_sameClaims htrade).asset.trans (show p.asset = _ from hs.asset_of_pool? hp)
      rw [ih (hs.setPool _) fun l hl => hk l (List.mem_cons_of_mem _ hl), find?_setPool, hasset,
        if_neg (hk leg List.mem_cons_self)]

end Trades

end Store

/-! ### Routes -/

/-- At most one of two assets is native. -/
theorem Asset.isNative_eq_false_of_ne {a b : Asset} (hne : a ≠ b) (hb : b.isNative = true) :
    a.isNative = false := by
  rw [Bool.eq_false_iff]
  exact fun ha => hne ((isNative_iff.mp ha).trans (isNative_iff.mp hb).symm)

namespace Route.Traced

variable {pools : PoolSource} {config : Config} {source target : Asset} {amount : Amount}
  {legs : List Leg}

theorem crosses (t : Traced pools config source target amount legs) (hne : source ≠ target) :
    ∀ leg ∈ legs, leg.Crosses := by
  cases t with
  | sale hn _ htrade =>
      obtain ⟨-, -, -, -, -, -, -, hsource, htarget, -⟩ := Leg.trade_inv htrade
      intro l hl
      obtain rfl := List.mem_singleton.mp hl
      rw [Leg.Crosses, hsource, htarget, hn, Asset.isNative_eq_false_of_ne hne hn]
      decide
  | purchase _ hf _ htrade =>
      obtain ⟨-, -, -, -, -, -, -, hsource, htarget, -⟩ := Leg.trade_inv htrade
      intro l hl
      obtain rfl := List.mem_singleton.mp hl
      rw [Leg.Crosses, hsource, htarget, hf]
      decide
  | across hs hf _ hsold _ hbought =>
      obtain ⟨-, -, -, -, -, -, -, hsource, htarget, -⟩ := Leg.trade_inv hsold
      obtain ⟨-, -, -, -, -, -, -, hsource', htarget', -⟩ := Leg.trade_inv hbought
      intro l hl
      rcases List.mem_pair.mp hl with rfl | rfl
      · rw [Leg.Crosses, hsource, htarget, hs]
        decide
      · rw [Leg.Crosses, hsource', htarget', hf]
        decide

/-- A leg of a route spends native on what the route buys, or sells what the route sells. -/
theorem sides_of_mem (t : Traced pools config source target amount legs) (hne : source ≠ target)
    {leg : Leg} (hl : leg ∈ legs) :
    (leg.source.isNative = true ∧ target.isNative = false ∧ leg.foreign = target) ∨
      (leg.source.isNative = false ∧ source.isNative = false ∧ leg.foreign = source) := by
  cases t with
  | sale hn _ htrade =>
      obtain ⟨-, -, -, -, -, -, -, hsource, -⟩ := Leg.trade_inv htrade
      obtain rfl := List.mem_singleton.mp hl
      have hs := Asset.isNative_eq_false_of_ne hne hn
      exact .inr ⟨by rw [hsource, hs], hs, by rw [Leg.foreign, hsource, hs]; rfl⟩
  | purchase _ hf _ htrade =>
      obtain ⟨-, -, -, -, -, -, -, hsource, htarget, -⟩ := Leg.trade_inv htrade
      obtain rfl := List.mem_singleton.mp hl
      exact .inl ⟨by rw [hsource]; rfl, hf, by rw [Leg.foreign, hsource, htarget]; rfl⟩
  | across hs hf _ hsold _ hbought =>
      obtain ⟨-, -, -, -, -, -, -, hsource, -⟩ := Leg.trade_inv hsold
      obtain ⟨-, -, -, -, -, -, -, hsource', htarget', -⟩ := Leg.trade_inv hbought
      rcases List.mem_pair.mp hl with rfl | rfl
      · exact .inr ⟨by rw [hsource, hs], hs, by rw [Leg.foreign, hsource, hs]; rfl⟩
      · exact .inl ⟨by rw [hsource']; rfl, hf, by rw [Leg.foreign, hsource', htarget']; rfl⟩

/-- The pools of a route are those of its sides that are not native. -/
theorem foreign_of_mem (t : Traced pools config source target amount legs) (hne : source ≠ target)
    {leg : Leg} (hl : leg ∈ legs) :
    (source.isNative = false ∧ leg.foreign = source) ∨
      (target.isNative = false ∧ leg.foreign = target) :=
  (t.sides_of_mem hne hl).symm.imp And.right And.right

/-- **The native that the first of two legs pays is what the second takes.** -/
theorem sum_moves (t : Traced pools config source target amount legs) {emit : Amount}
    (hemit : emit = (legs.getLast?.map Leg.emit).getD 0) :
    (legs.map Leg.nativeMove).sum = amount.moved source.isNative - emit.moved target.isNative ∧
      ∀ k, (legs.map (Leg.assetMove · k)).sum =
        amount.moved (source.isHeldBy k) - emit.moved (target.isHeldBy k) := by
  subst hemit
  cases t with
  | sale hn _ htrade =>
      obtain ⟨-, -, -, -, -, -, -, hsource, htarget, hinput⟩ := Leg.trade_inv htrade
      simp [Leg.nativeMove, Leg.assetMove, hsource, htarget, hinput]
  | purchase hn _ _ htrade =>
      obtain ⟨-, -, -, -, -, -, -, hsource, htarget, hinput⟩ := Leg.trade_inv htrade
      rw [Asset.isNative_iff.mp hn]
      simp [Leg.nativeMove, Leg.assetMove, hsource, htarget, hinput]
  | across hs hf _ hsold _ hbought =>
      obtain ⟨-, -, -, -, -, -, -, hsource, htarget, hinput⟩ := Leg.trade_inv hsold
      obtain ⟨-, -, -, -, -, -, -, hsource', htarget', hinput'⟩ := Leg.trade_inv hbought
      have hnative : Asset.native.isNative = true := rfl
      have hheld : ∀ k, Asset.native.isHeldBy k = false := fun _ => rfl
      simp [Leg.nativeMove, Leg.assetMove, hsource, htarget, hinput, hsource', htarget', hinput',
        hs, hf, Amount.moved, hnative, hheld, sub_eq_add_neg]

end Route.Traced

theorem Store.supply_setSupply_add {s : Store} {b : Asset} {n : Amount} {d : ℤ}
    (h : (n.toNat : ℤ) = (s.supply b).toNat + d) (a : Asset) :
    (((s.setSupply b n).supply a).toNat : ℤ) =
      (s.supply a).toNat + if b.layer1 == a.layer1 then d else 0 := by
  rw [supply_setSupply]
  by_cases hab : a.layer1 = b.layer1
  · have hsame : s.supply a = s.supply b := by rw [supply, supply, hab]
    rw [if_pos hab, h, hsame, hab, beq_self_eq_true, if_pos rfl]
  · rw [if_neg hab, beq_false_of_ne (Ne.symm hab), if_neg Bool.false_ne_true, add_zero]

namespace Order

/-- **A synthetic target is minted, and a synthetic source is burned.** -/
theorem settleSupply_supply {o : Order} {emit : Amount} {s : Store}
    (hmint : o.target.isSynthetic = true →
      (s.supply o.target).toNat + emit.toNat < Amount.bound)
    (hburn : o.source.asset.isSynthetic = true → o.source.amount ≤ s.supply o.source.asset)
    (a : Asset) :
    (((o.settleSupply emit s).supply a).toNat : ℤ) = (s.supply a).toNat +
      emit.moved (o.target.isClaimOn a) - o.source.amount.moved (o.source.asset.isClaimOn a) := by
  -- the store once the target is minted
  set s' := if o.target.isSynthetic then s.setSupply o.target (s.supply o.target + emit) else s
    with hs'
  have hminted : ∀ a, ((s'.supply a).toNat : ℤ) =
      (s.supply a).toNat + emit.moved (o.target.isClaimOn a) := by
    intro a
    rw [Amount.moved, Asset.isClaimOn, hs']
    cases ht : o.target.isSynthetic with
    | true =>
        refine Store.supply_setSupply_add (d := emit.toNat) ?_ a
        rw [Amount.toNat_add_of_lt (hmint ht), Nat.cast_add]
    | false => simp
  rw [← hminted]
  show (((if o.source.asset.isSynthetic then s'.setSupply o.source.asset
    (s'.supply o.source.asset - o.source.amount) else s').supply a).toNat : ℤ) = _
  rw [Amount.moved, Asset.isClaimOn]
  cases hs : o.source.asset.isSynthetic with
  | true =>
      have hle : o.source.amount.toNat ≤ (s'.supply o.source.asset).toNat := by
        have hgrown := hminted o.source.asset
        have hpos : 0 ≤ emit.moved (o.target.isClaimOn o.source.asset) := by
          rw [Amount.moved]
          split <;> omega
        have hburn := Amount.le_def.mp (hburn hs)
        omega
      rw [if_pos rfl, Store.supply_setSupply_add (d := -o.source.amount.toNat)]
      · rw [Bool.true_and]
        split <;> ring
      · rw [Amount.toNat_sub, Nat.cast_sub hle, sub_eq_add_neg]
  | false => simp

/-- No sum or product of the prices, the balances and the supplies of the order stops at the
largest amount. -/
def Fits (o : Order) (config : Config) (s : Store) : Prop :=
  ∀ route, Route.find s.source o.source.asset o.target o.source.amount o.tradeTarget config =
      .ok route →
    s.Fits config route.legs ∧
      (o.target.isSynthetic = true → (s.supply o.target).toNat + route.emit.toNat < Amount.bound)

instance (o : Order) (config : Config) (s : Store) : Decidable (o.Fits config s) :=
  match h : Route.find s.source o.source.asset o.target o.source.amount o.tradeTarget config with
  | .ok route =>
    decidable_of_iff (s.Fits config route.legs ∧ (o.target.isSynthetic = true →
        (s.supply o.target).toNat + route.emit.toNat < Amount.bound))
      ⟨fun hfit _ hroute => Except.ok.inj (h.symm.trans hroute) ▸ hfit, fun hfit => hfit route h⟩
  | .error _ => .isTrue fun _ hroute => by rw [h] at hroute; cases hroute

/-- From `s` to `s'` the source of the order comes in and `emit` of its target goes out, and
nothing else changes. -/
structure Moves (o : Order) (emit : Amount) (s s' : Store) : Prop where
  pools : s.Moves s'
    (o.source.amount.moved o.source.asset.isNative - emit.moved o.target.isNative)
    fun k => o.source.amount.moved (o.source.asset.isHeldBy k) - emit.moved (o.target.isHeldBy k)
  apart : ∀ k, (o.source.asset.isNative = false → k ≠ o.source.asset.layer1) →
    (o.target.isNative = false → k ≠ o.target.layer1) → s'.pools.find? k = s.pools.find? k
  supply : ∀ a, ((s'.supply a).toNat : ℤ) = (s.supply a).toNat +
    emit.moved (o.target.isClaimOn a) - o.source.amount.moved (o.source.asset.isClaimOn a)
  rest : s' = { s with pools := s'.pools, supplies := s'.supplies }

theorem run_moves {o : Order} {config : Config} {l l' : Ledger} {fill : Fill}
    (h : o.run config l = .ok (l', fill)) (hs : l.store.Keyed)
    (hscale : config.pricing.virtualMultiplier ≤ 4 * fullBasisPoints)
    (hburn : o.source.asset.isSynthetic = true →
      o.source.amount ≤ l.store.supply o.source.asset)
    (hfit : o.Fits config l.store) :
    fill.emit.asset = o.target ∧ o.Moves fill.emit.amount l.store l'.store := by
  obtain ⟨route, s, hroute, ht, hstore, hemit, -⟩ := run_inv h
  obtain ⟨hne, htraced, hlast, -⟩ := Route.find_inv hroute
  obtain ⟨hlegs, hmint⟩ := hfit route hroute
  obtain ⟨hnative, hasset⟩ := htraced.sum_moves hlast
  rw [hemit]
  refine ⟨rfl, ?_, fun k hsource htarget => ?_, fun a => ?_, ?_⟩
  · refine (Store.Moves.of_trades ht hs hscale (htraced.crosses hne) hlegs).congr ?_ hnative.symm
      fun k => (hasset k).symm
    rw [hstore, o.settleSupply_pools]
  · rw [hstore, o.settleSupply_pools]
    refine ht.find?_of_ne hs fun leg hl => ?_
    rcases htraced.foreign_of_mem hne hl with ⟨hn, hf⟩ | ⟨hn, hf⟩
    · exact hf ▸ hsource hn
    · exact hf ▸ htarget hn
  · rw [hstore, o.settleSupply_supply_congr route.emit ht.supplies]
    exact settleSupply_supply hmint hburn a
  · rw [hstore, ht.rest]
    simp only [settleSupply]
    split <;> split <;> rfl

end Order

namespace Handler

/-- **An order moves its source in and its emission out, and nothing else; refused, it moves
nothing.** -/
theorem pools_conserve_flow {o : Order} {config : Config} {l : Ledger} (hs : l.store.Keyed)
    (hscale : config.pricing.virtualMultiplier ≤ 4 * fullBasisPoints)
    (hburn : o.source.asset.isSynthetic = true →
      o.source.amount ≤ l.store.supply o.source.asset)
    (hfit : o.Fits config l.store) :
    match pools.run config o () l with
    | (((), l'), .ok fill) =>
      fill.emit.asset = o.target ∧ o.Moves fill.emit.amount l.store l'.store
    | (((), l'), .error _) => l' = l := by
  rcases pools_cases config o l with ⟨l', fill, hrun, h⟩ | ⟨e, -, h⟩
  · rw [h]
    exact o.run_moves hrun hs hscale hburn hfit
  · rw [h]

/-- A claim on the even pool is turned into the asset itself, through both legs of the pool. -/
def redemption : Order where
  tx := ⟨"01"⟩
  source := ⟨SlipClass.synthetic.sample, 100⟩
  target := SlipClass.layer1.sample
  tradeTarget := 0
  destination := ⟨"bob"⟩

theorem pools_conserve_flow_redemption :
    let l : Ledger := ⟨(Store.empty.setPool Leg.evenPool).setSupply Leg.evenPool.asset 300, []⟩
    l.store.Keyed ∧ (Leg.scaledConfig 20000).pricing.virtualMultiplier ≤ 4 * fullBasisPoints ∧
      redemption.source.amount ≤ l.store.supply redemption.source.asset ∧
      redemption.Fits (Leg.scaledConfig 20000) l.store ∧
      ∃ l' fill, pools.run (Leg.scaledConfig 20000) redemption () l = (((), l'), .ok fill) ∧
        redemption.Moves fill.emit.amount l.store l'.store := by
  intro l
  have hs : l.store.Keyed := (Store.Keyed.empty.setPool _).setSupply _ _
  have hburn : redemption.source.amount ≤ l.store.supply redemption.source.asset := by
    decide +kernel
  have hfit : redemption.Fits (Leg.scaledConfig 20000) l.store := by decide +kernel
  have hflow := @pools_conserve_flow redemption (Leg.scaledConfig 20000) l hs (by decide)
    (fun _ => hburn) hfit
  refine ⟨hs, by decide, hburn, hfit, ?_⟩
  rcases pools_cases (Leg.scaledConfig 20000) redemption l with ⟨l', fill, -, h⟩ | ⟨e, he, -⟩
  · rw [h] at hflow
    exact ⟨l', fill, h, hflow.2⟩
  · have hok : (redemption.run (Leg.scaledConfig 20000) l).isOk = true := by decide +kernel
    rw [he] at hok
    cases hok

end Handler

end PoolExchange
