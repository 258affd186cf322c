import PoolExchange.Proofs.Ledger.Funds
import PoolExchange.Proofs.UnitValue

/-!
# Staging — a deposit in parts is the deposit as a whole

While the other side is missing, a staged deposit only adds to what is pending, in the pool and for
the provider alike.  Deposits are *merged* by adding their amounts and keeping the later one's
transaction and height:

* holding one deposit after another is holding the merged one (`Deposit.hold_hold`), so a run of
  staged deposits of one side is one held deposit of their sum (`Deposit.applyAll_oneSided`);
* crediting a deposit after a held one is crediting the merged one, as nothing of what the pool
  had pending before is lost or kept on the way (`Deposit.credit_hold`).

**Staging is transparent** (`Deposit.staging_transparent`): the deposit that brings the other side
does what one deposit of the whole would have done, and fails when that fails; and who withdraws
before it gets exactly the sum back.
-/

namespace PoolExchange

/-! ### The two sides -/

def PoolSide.other : PoolSide → PoolSide
  | .native => .asset
  | .asset => .native

theorem PoolSide.eq_or_eq_other (side s : PoolSide) : s = side ∨ s = side.other := by
  cases side <;> cases s <;> simp [other]

theorem Provider.hasPending_iff {provider : Provider} :
    provider.hasPending = true ↔ ∃ side : PoolSide, (provider.held side.pending).toNat ≠ 0 := by
  simp only [hasPending, Bool.or_eq_true, Bool.not_eq_true', ← Bool.not_eq_true, Amount.isZero_iff]
  constructor
  · rintro (h | h)
    · exact ⟨.native, h⟩
    · exact ⟨.asset, h⟩
  · rintro ⟨_ | _, h⟩
    · exact .inl h
    · exact .inr h

theorem Provider.held_pending_eq_zero {provider : Provider} (h : provider.hasPending = false)
    (side : PoolSide) : provider.held side.pending = 0 := by
  by_contra hne
  have hsome := Provider.hasPending_iff.mpr ⟨side, fun hz => hne (Amount.eq_zero_iff.mpr hz)⟩
  rw [h] at hsome
  cases hsome

namespace Deposit

/-- A staged deposit of something on one side and nothing on the other. -/
structure OneSided (d : Deposit) (side : PoolSide) : Prop where
  stage : d.stage = true
  amount : d.amount side ≠ 0
  other : d.amount side.other = 0

/-- The sum of what deposits bring on one side. -/
def staged (side : PoolSide) (ds : List Deposit) : Nat :=
  (ds.map fun d => (d.amount side).toNat).sum

/-- Deposits of one provider, one after the other. -/
def applyAll (supply : Amount) (pool : Pool) (provider : Provider) :
    List Deposit → Except PoolError (Pool × Provider)
  | [] => .ok (pool, provider)
  | d :: ds => do
    let o ← d.apply pool provider supply
    applyAll supply o.pool o.provider ds

/-- The outcome as of another height. -/
def Outcome.atHeight (height : Nat) (o : Outcome) : Outcome :=
  { o with provider.lastAddHeight := height }

/-! ### Merged deposits -/

/-- Two deposits as one, with the transaction and the height of the later. -/
def merge (d later : Deposit) : Deposit :=
  { later with native := d.native + later.native, asset := d.asset + later.asset }

variable {d whole last : Deposit} {pool : Pool} {provider : Provider} {supply : Amount}
  {side : PoolSide}

theorem amount_merge (d later : Deposit) (s : PoolSide) :
    (d.merge later).amount s = d.amount s + later.amount s := by
  cases s <;> rfl

@[simp] theorem hold_pool_pending (s : PoolSide) :
    (d.hold pool provider).pool.held s.pending = pool.held s.pending + d.amount s := by
  cases s <;> rfl

@[simp] theorem hold_provider_pending (s : PoolSide) :
    (d.hold pool provider).provider.held s.pending = provider.held s.pending + d.amount s := by
  cases s <;> rfl

/-- Holding one deposit after another is holding both at once. -/
theorem hold_hold (d later : Deposit) (pool : Pool) (provider : Provider) :
    later.hold (d.hold pool provider).pool (d.hold pool provider).provider =
      (d.merge later).hold pool provider := by
  simp only [hold, merge, Amount.add_assoc]

/-- **A credit after a held deposit** is a credit of both at once, if the pending amounts did not
stop at the largest amount. -/
theorem credit_hold
    (hpool : ∀ s : PoolSide, (pool.held s.pending).toNat + (whole.amount s).toNat < Amount.bound)
    (hprovider : ∀ s : PoolSide,
      (provider.held s.pending).toNat + (whole.amount s).toNat < Amount.bound) :
    last.credit (whole.hold pool provider).pool (whole.hold pool provider).provider supply =
      (whole.merge last).credit pool provider supply := by
  have hnative : (whole.hold pool provider).provider.pendingNative + last.native =
      provider.pendingNative + (whole.merge last).native := Amount.add_assoc _ _ _
  have hasset : (whole.hold pool provider).provider.pendingAsset + last.asset =
      provider.pendingAsset + (whole.merge last).asset := Amount.add_assoc _ _ _
  have hrestNative : (whole.hold pool provider).pool.pendingNative -
      (whole.hold pool provider).provider.pendingNative =
        pool.pendingNative - provider.pendingNative :=
      Amount.add_sub_add (hpool .native) (hprovider .native)
  have hrestAsset : (whole.hold pool provider).pool.pendingAsset -
      (whole.hold pool provider).provider.pendingAsset =
        pool.pendingAsset - provider.pendingAsset :=
      Amount.add_sub_add (hpool .asset) (hprovider .asset)
  rw [credit, hnative, hasset, hrestNative, hrestAsset]
  rfl

/-- A credit depends on the amounts, and only the height of the provider's last deposit shows
anything else. -/
theorem credit_congr {d d' : Deposit} (h : ∀ s, d.amount s = d'.amount s) :
    d.credit pool provider supply =
      (d'.credit pool provider supply).map (Outcome.atHeight d.height) := by
  have hnative : d.native = d'.native := h .native
  have hasset : d.asset = d'.asset := h .asset
  simp only [credit, hnative, hasset]
  cases Issue.forPool pool.poolUnits pool.balanceNative pool.balanceAsset
      (provider.pendingNative + d'.native) (provider.pendingAsset + d'.asset) with
  | error e => rfl
  | ok issue =>
    simp only [bind, Except.bind]
    split <;> rfl

/-! ### Holding -/

theorem isHalf_iff : d.isHalf provider = true ↔
    ∃ s : PoolSide, (provider.held s.pending + d.amount s).toNat = 0 := by
  simp only [isHalf, Bool.or_eq_true, Amount.isZero_iff]
  constructor
  · rintro (h | h)
    · exact ⟨.asset, h⟩
    · exact ⟨.native, h⟩
  · rintro ⟨_ | _, h⟩
    · exact .inr h
    · exact .inl h

/-- A staged deposit of one side is held while nothing is pending on the other. -/
theorem apply_oneSided (h : d.OneSided side) (hother : provider.held side.other.pending = 0) :
    d.apply pool provider supply = .ok (d.hold (pool.withSynths supply) provider) := by
  have hhalf : d.isHalf provider = true :=
    isHalf_iff.mpr ⟨side.other, by rw [hother, h.other]; rfl⟩
  rw [apply, h.stage, hhalf]
  rfl

/-- **A run of staged deposits of one side** is one held deposit of their sum. -/
theorem applyAll_oneSided (supply : Amount) (pool : Pool) {ds : List Deposit} (hne : ds ≠ [])
    (hds : ∀ d ∈ ds, d.OneSided side) (hother : provider.held side.other.pending = 0)
    (hfit : staged side ds < Amount.bound) :
    ∃ whole : Deposit, (whole.amount side).toNat = staged side ds ∧ whole.amount side.other = 0 ∧
      applyAll supply pool provider ds =
        .ok ((whole.hold (pool.withSynths supply) provider).pool,
          (whole.hold (pool.withSynths supply) provider).provider) := by
  induction ds generalizing pool provider with
  | nil => exact absurd rfl hne
  | cons d ds ih =>
    have hd : d.OneSided side := hds d List.mem_cons_self
    have hsum : staged side (d :: ds) = (d.amount side).toNat + staged side ds := by
      rw [staged, List.map_cons, List.sum_cons, staged]
    rw [applyAll, apply_oneSided hd hother]
    rcases eq_or_ne ds [] with rfl | hrest
    · exact ⟨d, hsum.symm, hd.other, rfl⟩
    · have hstill :
          (d.hold (pool.withSynths supply) provider).provider.held side.other.pending = 0 := by
        rw [hold_provider_pending, hother, hd.other, Amount.zero_add]
      obtain ⟨whole, hamount, hnone, hrun⟩ := ih _ hrest (fun e he => hds e (.tail _ he))
        hstill (by omega)
      refine ⟨d.merge whole, ?_, ?_, ?_⟩
      · rw [amount_merge, hsum, ← hamount]
        exact Amount.toNat_add_of_lt (by omega)
      · rw [amount_merge, hd.other, hnone, Amount.zero_add]
      · rw [← hold_hold]
        exact hrun

/-! ### After a held deposit -/

variable {w : Withdrawal} {config : Config}

/-- A deposit of the other side is not held, staged or not. -/
theorem not_isHalf_hold (hside : (whole.amount side).toNat ≠ 0)
    (hlast : last.amount side.other ≠ 0) :
    last.isHalf (whole.hold pool provider).provider = false := by
  rw [← Bool.not_eq_true, isHalf_iff]
  rintro ⟨s, hs⟩
  obtain ⟨hheld, hamount⟩ := Amount.toNat_add_eq_zero.mp hs
  rcases PoolSide.eq_or_eq_other side s with rfl | rfl
  · rw [hold_provider_pending] at hheld
    exact hside (Amount.toNat_add_eq_zero.mp hheld).2
  · exact hlast (Amount.eq_zero_iff.mpr hamount)

/-- **The other side completes what is held**: the outcome is that of one deposit of both. -/
theorem apply_hold {total : Deposit} (hnone : provider.hasPending = false)
    (hside : (whole.amount side).toNat ≠ 0)
    (hroom : ∀ s : PoolSide, (pool.held s.pending).toNat + (whole.amount s).toNat < Amount.bound)
    (hlast : last.amount side.other ≠ 0) (htotal : total.stage = false)
    (hsum : ∀ s, (whole.merge last).amount s = total.amount s) :
    last.apply (whole.hold (pool.withSynths supply) provider).pool
        (whole.hold (pool.withSynths supply) provider).provider supply =
      (total.apply pool provider supply).map (Outcome.atHeight last.height) := by
  set base := pool.withSynths supply with hbase
  calc last.apply (whole.hold base provider).pool (whole.hold base provider).provider supply
      = last.credit (whole.hold base provider).pool (whole.hold base provider).provider supply := by
        rw [apply, not_isHalf_hold hside hlast, Bool.and_false]
        rfl
    _ = (whole.merge last).credit base provider supply := by
        refine credit_hold (fun s => ?_) fun s => ?_
        · rw [hbase, Pool.held_withSynths]
          exact hroom s
        · rw [Provider.held_pending_eq_zero hnone, Amount.toNat_zero, Nat.zero_add]
          exact (whole.amount s).toNat_lt
    _ = (total.credit base provider supply).map (Outcome.atHeight last.height) := credit_congr hsum
    _ = (total.apply pool provider supply).map (Outcome.atHeight last.height) := by
        rw [apply, htotal]
        rfl

/-- **A withdrawal gives back what is held** of a provider without units, and only that. -/
theorem withdraw_hold (hnone : provider.hasPending = false)
    (hside : (whole.amount side).toNat ≠ 0)
    (hroom : ∀ s : PoolSide, (pool.held s.pending).toNat + (whole.amount s).toNat < Amount.bound)
    (hunits : provider.units = 0)
    (hbps : Redemption.checkBasisPoints w.basisPoints = .ok ()) :
    ∃ o, w.apply (whole.hold (pool.withSynths supply) provider).pool
        (whole.hold (pool.withSynths supply) provider).provider supply config = .ok o ∧
      (∀ s, o.paid s = whole.amount s) ∧
      ∀ s : PoolSide, o.pool.held s.pending = pool.held s.pending := by
  set base := pool.withSynths supply with hbase
  have hown : ∀ s : PoolSide,
      (whole.hold base provider).provider.held s.pending = whole.amount s := fun s => by
    rw [hold_provider_pending, Provider.held_pending_eq_zero hnone, Amount.zero_add]
  have hzero : (whole.hold base provider).provider.units.isZero = true := by
    rw [show (whole.hold base provider).provider.units = 0 from hunits]
    rfl
  have hpending : (whole.hold base provider).provider.hasPending = true :=
    Provider.hasPending_iff.mpr ⟨side, by rwa [hown]⟩
  obtain ⟨o, ho⟩ : ∃ o, w.release ((whole.hold base provider).pool.withSynths supply)
      (whole.hold base provider).provider = .ok o := by
    rw [Withdrawal.release, hpending]
    exact ⟨_, rfl⟩
  refine ⟨o, ?_, fun s => ?_, fun s => ?_⟩
  · rw [Withdrawal.apply, hbps, hzero]
    exact ho
  · rw [(Withdrawal.release_side ho s).1, hown]
  · rw [(Withdrawal.release_side ho s).2.2, hown, Pool.held_withSynths, hold_pool_pending, hbase,
      Pool.held_withSynths]
    refine Amount.ext ?_
    rw [Amount.toNat_sub, Amount.toNat_add_of_lt (hroom s), Nat.add_sub_cancel]

/-! ### The whole -/

theorem staged_pos {ds : List Deposit} (hne : ds ≠ []) (hds : ∀ d ∈ ds, d.OneSided side) :
    0 < staged side ds := by
  obtain ⟨d, ds, rfl⟩ := List.exists_cons_of_ne_nil hne
  have hd : (d.amount side).toNat ≠ 0 := fun h =>
    (hds d List.mem_cons_self).amount (Amount.eq_zero_iff.mpr h)
  rw [staged, List.map_cons, List.sum_cons]
  omega

/-- **Staging is transparent.**  Deposits staged on one side by a provider with nothing pending are
all taken.  Then a deposit that brings something of the other side has the outcome of one deposit of
the whole, up to the height; and a withdrawal by a provider without units pays what was staged
and leaves the pool with what it had pending before. -/
theorem staging_transparent (side : PoolSide) (supply : Amount) (pool : Pool)
    (provider : Provider) (ds : List Deposit) (hnone : provider.hasPending = false)
    (hne : ds ≠ []) (hds : ∀ d ∈ ds, d.OneSided side)
    (hfit : (pool.held side.pending).toNat + staged side ds < Amount.bound) :
    ∃ pool' provider', applyAll supply pool provider ds = .ok (pool', provider') ∧
      (∀ last total : Deposit, last.amount side.other ≠ 0 → total.stage = false →
        (total.amount side).toNat = staged side ds + (last.amount side).toNat →
        total.amount side.other = last.amount side.other →
        last.apply pool' provider' supply =
          (total.apply pool provider supply).map (Outcome.atHeight last.height)) ∧
      (provider.units = 0 → ∀ (w : Withdrawal) (config : Config),
        Redemption.checkBasisPoints w.basisPoints = .ok () →
        ∃ o, w.apply pool' provider' supply config = .ok o ∧
          (o.paid side).toNat = staged side ds ∧ o.paid side.other = 0 ∧
          ∀ s : PoolSide, o.pool.held s.pending = pool.held s.pending) := by
  obtain ⟨whole, hamount, hother, hrun⟩ := applyAll_oneSided supply pool hne hds
    (Provider.held_pending_eq_zero hnone side.other) (by omega)
  have hside : (whole.amount side).toNat ≠ 0 := by
    rw [hamount]
    exact (staged_pos hne hds).ne'
  have hroom : ∀ s : PoolSide,
      (pool.held s.pending).toNat + (whole.amount s).toNat < Amount.bound := fun s => by
    rcases PoolSide.eq_or_eq_other side s with rfl | rfl
    · rwa [hamount]
    · rw [hother]
      exact (pool.held _).toNat_lt
  refine ⟨_, _, hrun, ?_, ?_⟩
  · intro last total hlast htotal hsum hrest
    refine apply_hold hnone hside hroom hlast htotal fun s => ?_
    rw [amount_merge]
    rcases PoolSide.eq_or_eq_other side s with rfl | rfl
    · have hexact : (whole.amount s).toNat + (last.amount s).toNat = (total.amount s).toNat := by
        rw [hamount, hsum]
      refine Amount.ext ((Amount.toNat_add_of_lt ?_).trans hexact)
      rw [hexact]
      exact (total.amount s).toNat_lt
    · rw [hother, Amount.zero_add, hrest]
  · intro hunits w config hbps
    obtain ⟨o, ho, hpaid, hpool⟩ := withdraw_hold hnone hside hroom hunits hbps
    exact ⟨o, ho, by rw [hpaid, hamount], by rw [hpaid, hother], hpool⟩

/-- A pool in which another provider has something pending. -/
def awaitingPool : Pool :=
  { btcPool 1000000000 500000000 1000000000 with pendingNative := 70 }

/-- Two staged deposits on the native side. -/
def nativeHalves : List Deposit :=
  [⟨3000000, 0, ⟨"01"⟩, true, 1⟩, ⟨2000000, 0, ⟨"02"⟩, true, 2⟩]

/-- Completed by the asset, they are one deposit of 5000000 and 2500000 and issue the same units;
withdrawn, they are 5000000, and the pool keeps the other provider's. -/
theorem staging_transparent_halves :
    ∃ pool' provider', applyAll 0 awaitingPool (btcProvider 0) nativeHalves =
        .ok (pool', provider') ∧
      Deposit.apply ⟨0, 2500000, ⟨"03"⟩, true, 3⟩ pool' provider' 0 =
        (Deposit.apply ⟨5000000, 2500000, ⟨"04"⟩, false, 4⟩ awaitingPool (btcProvider 0) 0).map
          (Outcome.atHeight 3) ∧
      ((Deposit.apply ⟨0, 2500000, ⟨"03"⟩, true, 3⟩ pool' provider' 0).map
        Outcome.unitsIssued).toOption = some 5000000 ∧
      ∃ o, Withdrawal.apply ⟨1, .both, 3⟩ pool' provider' 0 {} = .ok o ∧
        (o.paid .native).toNat = 5000000 ∧ o.paid .asset = 0 ∧ o.pool.pendingNative = 70 := by
  obtain ⟨pool', provider', hrun, hlast, hback⟩ :=
    staging_transparent .native 0 awaitingPool (btcProvider 0) nativeHalves rfl (by decide)
      (List.forall_mem_cons.mpr ⟨⟨rfl, by decide, rfl⟩,
        List.forall_mem_singleton.mpr ⟨rfl, by decide, rfl⟩⟩) (by decide)
  have hwhole := hlast ⟨0, 2500000, ⟨"03"⟩, true, 3⟩ ⟨5000000, 2500000, ⟨"04"⟩, false, 4⟩
    (by decide) rfl (by decide) rfl
  obtain ⟨o, ho, hpaid, hother, hpool⟩ := hback rfl ⟨1, .both, 3⟩ {} rfl
  exact ⟨pool', provider', hrun, hwhole, by rw [hwhole]; decide +kernel, o, ho,
    hpaid.trans (by decide), hother, hpool .native⟩

end Deposit

end PoolExchange
