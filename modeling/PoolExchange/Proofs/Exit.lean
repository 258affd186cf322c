import PoolExchange.Proofs.Withdrawal

/-!
# Exit — every provider can leave

A provider leaves a pool by redeeming all its units on both sides.  As long as the pool has more
units than the provider, the two shares are less than the balances, so neither side is drained and
something stays for the others (`leave_early`).  The provider that owns all units that are left is
paid all that is left, however the earlier shares were rounded (`leave_last`).

So **the providers of a pool can leave in any order, and together they are paid exactly what it
held** (`all_leave`).
-/

namespace PoolExchange

namespace Withdrawal

/-- Everything, on both sides. -/
def full (height : Nat) : Withdrawal := ⟨fullBasisPoints, .both, height⟩

/-- Providers leave one after the other, each from the pool that the one before left behind. -/
def leaveAll (config : Config) (pool : Pool) :
    List (Provider × Nat) → Except PoolError (Pool × List Outcome)
  | [] => .ok (pool, [])
  | (provider, height) :: rest => do
    let o ← (full height).apply pool provider 0 config
    let (last, outcomes) ← leaveAll config o.pool rest
    return (last, o :: outcomes)

/-- The products of leaving are amounts. -/
structure Fits (pool : Pool) (provider : Provider) : Prop where
  claim : fullBasisPoints * provider.units.toNat < Amount.bound
  native : provider.units.toNat * pool.balanceNative.toNat < Amount.bound
  asset : provider.units.toNat * pool.balanceAsset.toNat < Amount.bound

instance (pool : Pool) (provider : Provider) : Decidable (Fits pool provider) :=
  decidable_of_iff (_ ∧ _ ∧ _) ⟨fun h => ⟨h.1, h.2.1, h.2.2⟩, fun h => ⟨h.claim, h.native, h.asset⟩⟩

/-- The products are amounts all along `leaveAll`. -/
def AllFit (config : Config) (pool : Pool) : List (Provider × Nat) → Prop
  | [] => True
  | (provider, height) :: rest => Fits pool provider ∧
      ∀ o, (full height).apply pool provider 0 config = .ok o → AllFit config o.pool rest

/-! ### One provider -/

variable {pool : Pool} {provider : Provider} {config : Config}

/-- All basis points claim all units. -/
theorem claim_full {units : Amount} (h : fullBasisPoints * units.toNat < Amount.bound) :
    Redemption.claim fullBasisPoints units = units :=
  Amount.cappedShare_self (show fullBasisPoints ≠ 0 by decide) h

/-- Without synthetic units a pool's units are its providers'. -/
theorem poolUnits_withSynths_zero (pool : Pool) : (pool.withSynths 0).poolUnits = pool.lpUnits := by
  have hsum : (pool.withSynths 0).poolUnits.toNat = min (pool.lpUnits.toNat + 0) (Amount.bound - 1) :=
    rfl
  have := pool.lpUnits.toNat_lt
  exact Amount.ext (by omega)

/-- What makes a redemption succeed, and what it then does. -/
theorem redeem_ok (w : Withdrawal) (supply : Amount) {r : Redemption}
    (hr : Redemption.fromPool pool.asset pool.poolUnits pool.balanceNative pool.balanceAsset
      provider.units w.basisPoints w.side config = .ok r)
    (hside : r.native = pool.balanceNative ↔ r.asset = pool.balanceAsset)
    (hafter : r.unitsAfter < provider.units) :
    ∃ o, w.redeem pool provider supply config = .ok o ∧ o.native = r.native ∧ o.asset = r.asset ∧
      o.pool = settle pool (provider.units - r.unitsAfter) r.native r.asset supply := by
  have hdrains : ¬ (r.native = pool.balanceNative) ≠ (r.asset = pool.balanceAsset) :=
    not_not.mpr (propext hside)
  have hbelow : ¬ provider.units ≤ r.unitsAfter := Nat.not_le.mpr hafter
  simp only [redeem, valued_units, hr]
  exact ⟨_, (if_neg hdrains).trans (if_neg hbelow), rfl, rfl, rfl⟩

/-- **A provider can leave** when its two shares drain both sides or neither. -/
theorem leave (config : Config) (hfit : fullBasisPoints * provider.units.toNat < Amount.bound)
    (hunits : provider.units.toNat ≠ 0) (hle : provider.units.toNat ≤ pool.lpUnits.toNat)
    (hnative : pool.balanceNative.toNat ≠ 0) (hasset : pool.balanceAsset.toNat ≠ 0)
    (hside : Amount.cappedShare provider.units pool.lpUnits pool.balanceNative =
        pool.balanceNative ↔
      Amount.cappedShare provider.units pool.lpUnits pool.balanceAsset = pool.balanceAsset)
    (height : Nat) :
    ∃ o, (full height).apply pool provider 0 config = .ok o ∧
      o.native = Amount.cappedShare provider.units pool.lpUnits pool.balanceNative ∧
      o.asset = Amount.cappedShare provider.units pool.lpUnits pool.balanceAsset ∧
      o.pool = settle (pool.withSynths 0) provider.units o.native o.asset 0 := by
  have hpool : pool.lpUnits.toNat ≠ 0 := by omega
  have hleft : (provider.units - provider.units).toNat = 0 := by rw [Amount.toNat_sub, Nat.sub_self]
  have hburnt : provider.units - (provider.units - provider.units) = provider.units :=
    Amount.ext (by rw [Amount.toNat_sub, hleft, Nat.sub_zero])
  have hredemption : Redemption.fromPool pool.asset (pool.withSynths 0).poolUnits
      pool.balanceNative pool.balanceAsset provider.units fullBasisPoints .both config =
      .ok ⟨Amount.cappedShare provider.units pool.lpUnits pool.balanceNative,
        Amount.cappedShare provider.units pool.lpUnits pool.balanceAsset,
        provider.units - provider.units⟩ := by
    simp only [Redemption.fromPool, poolUnits_withSynths_zero, claim_full hfit, Amount.isZero_iff,
      if_neg hpool, if_neg hnative, if_neg hasset, if_neg hunits]
    rfl
  have happly : (full height).apply pool provider 0 config =
      (full height).redeem (pool.withSynths 0) provider 0 config := by
    simp only [apply, Amount.isZero_iff, if_neg hunits]
    rfl
  obtain ⟨o, ho, hn, ha, hsettle⟩ := redeem_ok (full height) 0 hredemption hside
    (Amount.lt_def.mpr (hleft ▸ Nat.pos_of_ne_zero hunits))
  rw [hburnt] at hsettle
  exact ⟨o, happly.trans ho, hn, ha, by rw [hsettle, hn, ha]⟩

/-- A pool that has nothing left on a side is staged. -/
theorem settle_status {redeemed native asset supply : Amount}
    (h : (pool.balanceNative - native).toNat = 0) :
    (settle pool redeemed native asset supply).status = .staged := by
  simp only [settle, Amount.isZero_iff.mpr h, Bool.true_or, if_true]
  rfl

/-- **Who owns less than all leaves something on both sides.** -/
theorem leave_early (config : Config) (hfit : Fits pool provider)
    (hunits : provider.units.toNat ≠ 0)
    (hlt : provider.units.toNat < pool.lpUnits.toNat)
    (hnative : pool.balanceNative.toNat ≠ 0) (hasset : pool.balanceAsset.toNat ≠ 0)
    (height : Nat) :
    ∃ o, (full height).apply pool provider 0 config = .ok o ∧
      o.pool.lpUnits.toNat + provider.units.toNat = pool.lpUnits.toNat ∧
      o.pool.balanceNative.toNat ≠ 0 ∧ o.pool.balanceAsset.toNat ≠ 0 ∧
      o.native.toNat + o.pool.balanceNative.toNat = pool.balanceNative.toNat ∧
      o.asset.toNat + o.pool.balanceAsset.toNat = pool.balanceAsset.toNat := by
  have hn := Amount.cappedShare_lt hlt hnative
  have ha := Amount.cappedShare_lt hlt hasset
  obtain ⟨o, ho, hon, hoa, hpool⟩ := leave config hfit.claim hunits hlt.le hnative hasset
    (iff_of_false (fun e => hn.ne (congrArg Amount.toNat e))
      fun e => ha.ne (congrArg Amount.toNat e)) height
  obtain ⟨-, hlp, hbn, hba, -⟩ := settle_fields (pool.withSynths 0) provider.units o.native o.asset 0
  rw [← hpool] at hlp hbn hba
  rw [← hon] at hn
  rw [← hoa] at ha
  refine ⟨o, ho, ?_, ?_, ?_, ?_, ?_⟩
  all_goals simp only [hlp, hbn, hba, Amount.toNat_sub, Pool.withSynths_lpUnits,
    Pool.withSynths_balanceNative, Pool.withSynths_balanceAsset]; omega

/-- **Who owns all units that are left is paid all that is left.** -/
theorem leave_last (config : Config) (hfit : Fits pool provider)
    (hunits : provider.units.toNat ≠ 0)
    (heq : provider.units = pool.lpUnits)
    (hnative : pool.balanceNative.toNat ≠ 0) (hasset : pool.balanceAsset.toNat ≠ 0)
    (height : Nat) :
    ∃ o, (full height).apply pool provider 0 config = .ok o ∧
      o.pool.lpUnits = 0 ∧ o.pool.balanceNative = 0 ∧ o.pool.balanceAsset = 0 ∧
      o.pool.status = .staged ∧
      o.native = pool.balanceNative ∧ o.asset = pool.balanceAsset := by
  have hn : Amount.cappedShare provider.units pool.lpUnits pool.balanceNative =
      pool.balanceNative := heq ▸ Amount.cappedShare_self hunits hfit.native
  have ha : Amount.cappedShare provider.units pool.lpUnits pool.balanceAsset =
      pool.balanceAsset := heq ▸ Amount.cappedShare_self hunits hfit.asset
  obtain ⟨o, ho, hon, hoa, hpool⟩ := leave config hfit.claim hunits (heq ▸ le_rfl) hnative hasset
    (iff_of_true hn ha) height
  rw [hn] at hon
  rw [ha] at hoa
  rw [hon, hoa, heq] at hpool
  obtain ⟨-, hlp, hbn, hba, -⟩ :=
    settle_fields (pool.withSynths 0) pool.lpUnits pool.balanceNative pool.balanceAsset 0
  have hself : ∀ a : Amount, a - a = 0 := fun a =>
    Amount.ext (by rw [Amount.toNat_sub, Nat.sub_self, Amount.toNat_zero])
  rw [← hpool] at hlp hbn hba
  refine ⟨o, ho, hlp.trans (hself _), hbn.trans (hself _), hba.trans (hself _), ?_, hon, hoa⟩
  rw [hpool]
  exact settle_status (by rw [Pool.withSynths_balanceNative, hself, Amount.toNat_zero])

/-! ### All of them -/

/-- No withdrawal adds to a balance. -/
theorem apply_balance_le {w : Withdrawal} {supply : Amount} {o : Outcome}
    (ho : w.apply pool provider supply config = .ok o) :
    o.pool.balanceNative.toNat ≤ pool.balanceNative.toNat ∧
      o.pool.balanceAsset.toNat ≤ pool.balanceAsset.toNat := by
  rcases apply_cases ho with ⟨-, ho⟩ | ⟨-, ho⟩
  · obtain ⟨-, hpool, -⟩ := release_inv ho
    rw [hpool]
    exact ⟨le_rfl, le_rfl⟩
  · obtain ⟨-, -, hbn, hba, -⟩ := redeem_paid ho
    rw [hbn, hba, Amount.toNat_sub, Amount.toNat_sub]
    exact ⟨Nat.sub_le _ _, Nat.sub_le _ _⟩

/-- So it is enough that the products are amounts before anyone leaves. -/
theorem allFit_of_forall {leavers : List (Provider × Nat)}
    (h : ∀ leaver ∈ leavers, Fits pool leaver.1) : AllFit config pool leavers := by
  induction leavers generalizing pool with
  | nil => trivial
  | cons leaver rest ih =>
      refine ⟨h _ List.mem_cons_self, fun o ho => ih fun other hm => ?_⟩
      obtain ⟨hn, ha⟩ := apply_balance_le ho
      have hfit := h other (List.mem_cons_of_mem _ hm)
      exact ⟨hfit.claim, (Nat.mul_le_mul_left _ hn).trans_lt hfit.native,
        (Nat.mul_le_mul_left _ ha).trans_lt hfit.asset⟩

def paidNative (outcomes : List Outcome) : Nat := (outcomes.map fun o => o.native.toNat).sum

def paidAsset (outcomes : List Outcome) : Nat := (outcomes.map fun o => o.asset.toNat).sum

theorem leaveAll_cons {height : Nat} {rest : List (Provider × Nat)} {o : Outcome} {last : Pool}
    {outcomes : List Outcome} (ho : (full height).apply pool provider 0 config = .ok o)
    (hrest : leaveAll config o.pool rest = .ok (last, outcomes)) :
    leaveAll config pool ((provider, height) :: rest) = .ok (last, o :: outcomes) := by
  rw [leaveAll, bind_eq_ok]
  exact ⟨o, ho, by rw [hrest]; rfl⟩

/-- **Who owns the units of a pool can leave it in any order.**  The last one leaves it empty, and
nothing is lost to rounding. -/
theorem leaveAll_drains {leavers : List (Provider × Nat)} (hne : leavers ≠ [])
    (hfit : AllFit config pool leavers)
    (hunits : ∀ leaver ∈ leavers, leaver.1.units.toNat ≠ 0)
    (hsum : (leavers.map fun leaver => leaver.1.units.toNat).sum = pool.lpUnits.toNat)
    (hnative : pool.balanceNative.toNat ≠ 0) (hasset : pool.balanceAsset.toNat ≠ 0) :
    ∃ last outcomes, leaveAll config pool leavers = .ok (last, outcomes) ∧
      outcomes.length = leavers.length ∧
      last.lpUnits = 0 ∧ last.balanceNative = 0 ∧ last.balanceAsset = 0 ∧
      last.status = .staged ∧
      paidNative outcomes = pool.balanceNative.toNat ∧
      paidAsset outcomes = pool.balanceAsset.toNat := by
  induction leavers generalizing pool with
  | nil => exact absurd rfl hne
  | cons leaver rest ih =>
      obtain ⟨provider, height⟩ := leaver
      obtain ⟨hhere, hthere⟩ := hfit
      have hown : provider.units.toNat ≠ 0 := hunits _ List.mem_cons_self
      replace hsum : provider.units.toNat + (rest.map fun leaver => leaver.1.units.toNat).sum =
          pool.lpUnits.toNat := hsum
      cases rest with
      | nil =>
          obtain ⟨o, ho, hlp, hbn, hba, hstatus, hn, ha⟩ :=
            leave_last config hhere hown (Amount.ext hsum) hnative hasset height
          refine ⟨o.pool, [o], leaveAll_cons ho rfl, rfl, hlp, hbn, hba, hstatus, ?_, ?_⟩
          · rw [← hn]; exact List.sum_singleton
          · rw [← ha]; exact List.sum_singleton
      | cons next others =>
          have hnext := hunits next (List.mem_cons_of_mem _ List.mem_cons_self)
          have hless : provider.units.toNat < pool.lpUnits.toNat := by
            rw [List.map_cons, List.sum_cons] at hsum
            omega
          obtain ⟨o, ho, hlp, hbn, hba, hn, ha⟩ :=
            leave_early config hhere hown hless hnative hasset height
          obtain ⟨last, outcomes, hall, hlength, hl, hln, hla, hstatus, hpn, hpa⟩ :=
            ih (List.cons_ne_nil _ _) (hthere o ho)
              (fun leaver hm => hunits leaver (List.mem_cons_of_mem _ hm)) (by omega) hbn hba
          refine ⟨last, o :: outcomes, leaveAll_cons ho hall, congrArg Nat.succ hlength, hl, hln, hla,
            hstatus, ?_, ?_⟩
          · rw [← hn, ← hpn]; rfl
          · rw [← ha, ← hpa]; rfl

/-- Who owns nothing adds nothing. -/
theorem sum_owners (providers : List Provider) :
    ((providers.filter fun v => v.units.toNat ≠ 0).map fun v => v.units.toNat).sum =
      (providers.map fun v => v.units.toNat).sum := by
  induction providers with
  | nil => rfl
  | cons v rest ih =>
      by_cases hv : v.units.toNat = 0
      · rw [List.filter_cons_of_neg (by simpa using hv), ih, List.map_cons, List.sum_cons, hv,
          Nat.zero_add]
      · rw [List.filter_cons_of_pos (by simpa using hv), List.map_cons, List.map_cons,
          List.sum_cons, List.sum_cons, ih]

/-- **All providers can leave.**  Of a pool with something on both sides and no synthetic supply,
whose units are its providers', the providers that own any can redeem everything one after the
other, in any order.  The last one leaves no units and nothing on either side, in a staged pool, and
what they were paid adds up to what the pool held. -/
theorem all_leave (config : Config) (pool : Pool) (providers : List Provider)
    (leavers : List (Provider × Nat))
    (horder : (leavers.map Prod.fst).Perm (providers.filter fun v => v.units.toNat ≠ 0))
    (hsum : (providers.map fun v => v.units.toNat).sum = pool.lpUnits.toNat)
    (hunits : pool.lpUnits.toNat ≠ 0)
    (hnative : pool.balanceNative.toNat ≠ 0) (hasset : pool.balanceAsset.toNat ≠ 0)
    (hfit : AllFit config pool leavers) :
    ∃ last outcomes, leaveAll config pool leavers = .ok (last, outcomes) ∧
      outcomes.length = leavers.length ∧
      last.lpUnits = 0 ∧ last.balanceNative = 0 ∧ last.balanceAsset = 0 ∧
      last.status = .staged ∧
      paidNative outcomes = pool.balanceNative.toNat ∧
      paidAsset outcomes = pool.balanceAsset.toNat := by
  have hleavers : (leavers.map fun leaver => leaver.1.units.toNat).sum = pool.lpUnits.toNat := by
    rw [← hsum, ← sum_owners, ← (horder.map _).sum_eq, List.map_map]
    rfl
  refine leaveAll_drains ?_ hfit (fun leaver hm => ?_) hleavers hnative hasset
  · rintro rfl
    exact hunits hleavers.symm
  · have hmem := horder.mem_iff.mp (List.mem_map_of_mem hm)
    simpa using (List.mem_filter.mp hmem).2

/-- Seven units of three owners, one of them without any, in a pool of amounts that seven does not
divide. -/
def sevenths : Pool :=
  ⟨⟨"BTC", "BTC", .layer1⟩, 100, 1000, 7, 3, 0, 0, .available, 8⟩

def seventhsOwner (owner : String) (units : Amount) : Provider :=
  ⟨⟨"BTC", "BTC", .layer1⟩, ⟨owner⟩, units, 0, 0, none, 0, 0, 1, 0⟩

def seventhsOwners : List Provider :=
  [seventhsOwner "alice" 3, seventhsOwner "bob" 0, seventhsOwner "carol" 2, seventhsOwner "dave" 2]

def seventhsLeavers : List (Provider × Nat) :=
  [(seventhsOwner "dave" 2, 5), (seventhsOwner "alice" 3, 5), (seventhsOwner "carol" 2, 9)]

theorem all_leave_sevenths :
    (seventhsLeavers.map Prod.fst).Perm (seventhsOwners.filter fun v => v.units.toNat ≠ 0) ∧
      (seventhsOwners.map fun v => v.units.toNat).sum = sevenths.lpUnits.toNat ∧
      sevenths.lpUnits.toNat ≠ 0 ∧ sevenths.balanceNative.toNat ≠ 0 ∧
      sevenths.balanceAsset.toNat ≠ 0 ∧ AllFit {} sevenths seventhsLeavers ∧
      ∃ last outcomes, leaveAll {} sevenths seventhsLeavers = .ok (last, outcomes) ∧
        outcomes.length = seventhsLeavers.length ∧
        last.lpUnits = 0 ∧ last.balanceNative = 0 ∧ last.balanceAsset = 0 ∧
        last.status = .staged ∧
        paidNative outcomes = sevenths.balanceNative.toNat ∧
        paidAsset outcomes = sevenths.balanceAsset.toNat := by
  have horder : (seventhsLeavers.map Prod.fst).Perm
      (seventhsOwners.filter fun v => v.units.toNat ≠ 0) := by decide +kernel
  have hfit : AllFit {} sevenths seventhsLeavers := allFit_of_forall (by decide +kernel)
  refine ⟨horder, by decide, by decide, by decide, by decide, hfit, ?_⟩
  exact all_leave {} sevenths seventhsOwners seventhsLeavers horder (by decide) (by decide)
    (by decide) (by decide) hfit

/-- What each of them is paid: a seventh of a hundred is rounded down, and the last one takes what
that leaves. -/
example : (leaveAll {} sevenths seventhsLeavers).toOption.map
    (fun out => out.2.map fun o => (o.native.toNat, o.asset.toNat)) =
    some [(28, 285), (43, 429), (29, 286)] := by decide +kernel

end Withdrawal

end PoolExchange
