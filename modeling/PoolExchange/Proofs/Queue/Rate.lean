import PoolExchange.Proofs.Queue.Prefilter

/-!
# Queue — dearer pools clear no more buckets

When the side that a trade pays into has grown and the side that it is paid from has shrunk, in
every pool on its way, the trade pays no more than before (`Curve.paid_mono`).  So the ratio that
buckets are tested against has not fallen, and a bucket that did not clear does not clear now.

There is one exception.  The ratio of no output is zero, the lowest of all, and not the highest:
**a bucket that did not clear still does not, unless the pools pay nothing for the pair any more**,
and then every bucket but that of ratio zero clears (`PoolSource.clears_of_dearer`).
-/

namespace PoolExchange

namespace Curve

/-- One side or both of a list of depths have moved against the trader. -/
def Dearer : List (Amount × Amount) → List (Amount × Amount) → Prop :=
  List.Forall₂ fun d d' => d.1 ≤ d'.1 ∧ d'.2 ≤ d.2

instance (depths depths' : List (Amount × Amount)) : Decidable (Dearer depths depths') :=
  inferInstanceAs (Decidable (List.Forall₂ _ _ _))

instance : (before after : Option (List (Amount × Amount))) →
    Decidable (Option.Rel Dearer before after)
  | none, none => .isTrue .none
  | some depths, some depths' =>
    decidable_of_iff (Dearer depths depths') ⟨.some, fun | .some h => h⟩
  | none, some _ => .isFalse nofun
  | some _, none => .isFalse nofun

variable {depths depths' : List (Amount × Amount)} {x x' : Amount}

/-- What a trade through the given depths would pay without a fee. -/
def paid (depths : List (Amount × Amount)) (x : Amount) : Amount :=
  depths.foldl (fun x d => Amount.share x d.1 d.2) x

theorem ne_zero_of_paid (h : (paid depths x).toNat ≠ 0) : x.toNat ≠ 0 := by
  induction depths generalizing x with
  | nil => exact h
  | cons d rest ih => exact fun hx => ih h (Amount.share_eq_zero (.inl hx))

/-- **Dearer depths pay no more**, if anything was paid before. -/
theorem paid_mono (h : Dearer depths depths') (hx : x' ≤ x) (hpaid : (paid depths x).toNat ≠ 0) :
    paid depths' x' ≤ paid depths x := by
  induction h generalizing x x' with
  | nil => exact hx
  | @cons d d' rest rest' hd _ ih =>
      -- a share of an empty side is nothing, and nothing is paid for nothing
      have hin : d.1.toNat ≠ 0 := fun hzero =>
        @ne_zero_of_paid rest _ hpaid (Amount.share_eq_zero (.inr hzero))
      exact ih (Amount.share_mono hx hd.1 hin hd.2) hpaid

/-- The input and the output whose ratio is that of the depths: the sides of the one pool, or one
whole coin and what is paid for it across several. -/
def terms : List (Amount × Amount) → Amount × Amount
  | [d] => d
  | depths => (.clamp wholeCoin, paid depths (.clamp wholeCoin))

/-- Dearer depths have dearer terms, if the terms had an output. -/
theorem terms_mono (h : Dearer depths depths') (hout : (terms depths).2.toNat ≠ 0) :
    (terms depths).1 ≤ (terms depths').1 ∧ (terms depths').2 ≤ (terms depths).2 := by
  have hwhole : Amount.clamp wholeCoin ≤ Amount.clamp wholeCoin := Nat.le_refl _
  cases h with
  | nil => exact ⟨hwhole, hwhole⟩
  | cons hd hrest =>
      cases hrest with
      | nil => exact hd
      | cons hd' hrest => exact ⟨hwhole, paid_mono (.cons hd (.cons hd' hrest)) hwhole hout⟩

end Curve

namespace PoolSource

variable {pools pools' : PoolSource} {pair : Pair} {bucket : Ratio}

/-- The pools trade the pair in the same way, at depths that have only moved against the trader. -/
def Dearer (pools pools' : PoolSource) (pair : Pair) : Prop :=
  Option.Rel Curve.Dearer (pools.depths? pair) (pools'.depths? pair)

instance (pools pools' : PoolSource) (pair : Pair) : Decidable (pools.Dearer pools' pair) :=
  inferInstanceAs (Decidable (Option.Rel _ _ _))

theorem feelessRatio?_eq_terms : pools.feelessRatio? pair =
    (pools.depths? pair).map fun depths =>
      Ratio.of (Curve.terms depths).1 (Curve.terms depths).2 := by
  simp only [feelessRatio?, depths?]
  split
  · rw [Option.map_map]
    rfl
  · split
    · rw [Option.map_map]
      rfl
    · cases pools.pool? pair.source <;> cases pools.pool? pair.target <;> rfl

/-- What the pools pay for the pair without a fee, for what they take. -/
def feelessOutput? (pools : PoolSource) (pair : Pair) : Option Amount :=
  (pools.depths? pair).map fun depths => (Curve.terms depths).2

/-- **A bucket that does not clear does not clear at dearer depths, unless the pools pay nothing
there.**  Nothing is asked of the size of the amounts. -/
theorem clears_of_dearer (h : pools.Dearer pools' pair) (hfails : pools.clears pair bucket = false) :
    pools'.clears pair bucket = false ↔
      bucket.value = 0 ∨ ∀ out ∈ pools'.feelessOutput? pair, out.toNat ≠ 0 := by
  rw [Dearer] at h
  rw [clears, feelessRatio?_eq_terms] at hfails ⊢
  rw [feelessOutput?]
  generalize pools.depths? pair = before, pools'.depths? pair = after at h hfails ⊢
  cases h with
  | none => simp
  | @some depths depths' hdearer =>
      simp only [Option.map_some, decide_eq_false_iff_not, Nat.not_lt, Option.mem_some,
        forall_eq'] at hfails ⊢
      constructor
      · intro hfails'
        rw [or_iff_not_imp_right, not_not]
        intro hout
        rw [Ratio.of_eq_zero hout] at hfails'
        exact Nat.le_zero.mp hfails'
      · rintro (hzero | hout)
        · exact hzero ▸ Nat.zero_le _
        · by_cases hbefore : (Curve.terms depths).2.toNat = 0
          · rw [Ratio.of_eq_zero hbefore] at hfails
            exact hfails.trans (Nat.zero_le _)
          · obtain ⟨hin, hless⟩ := Curve.terms_mono hdearer hbefore
            exact hfails.trans (Ratio.of_mono hin hless hout)

/-- Two pools of a thousand coins each, of which the second may hold less of its asset. -/
def coinPools (units : Amount) : PoolSource :=
  let pool (asset : Asset) (units : Amount) : Pool :=
    { Pool.empty asset with
      balanceNative := 100000000000
      balanceAsset := units
      lpUnits := 100000000000
      status := .available }
  ((Store.empty.setPool (pool ⟨"BTC", "BTC", .layer1⟩ 100000000000)).setPool
    (pool ⟨"ETH", "ETH", .layer1⟩ units)).source

theorem clears_of_dearer_half :
    let pair : Pair := ⟨⟨"BTC", "BTC", .layer1⟩, ⟨"ETH", "ETH", .layer1⟩⟩
    (coinPools 100000000000).Dearer (coinPools 50000000000) pair ∧
      (coinPools 100000000000).clears pair ⟨100000000⟩ = false ∧
      (coinPools 50000000000).clears pair ⟨100000000⟩ = false := by
  intro pair
  have hdearer : (coinPools 100000000000).Dearer (coinPools 50000000000) pair :=
    by decide +kernel
  have hfails : (coinPools 100000000000).clears pair ⟨100000000⟩ = false := by decide +kernel
  exact ⟨hdearer, hfails, (clears_of_dearer hdearer hfails).mpr (.inr (by decide +kernel))⟩

/-- Buckets that begin to clear when the pools pay nothing any more: because no output is left, and
because a whole coin buys less than a unit. -/
theorem clears_exhausted :
    let btc : Asset := ⟨"BTC", "BTC", .layer1⟩
    let eth : Asset := ⟨"ETH", "ETH", .layer1⟩
    ∀ c ∈ [((⟨.native, eth⟩ : Pair), (0 : Amount)), (⟨btc, eth⟩, 0), (⟨btc, eth⟩, 100)],
      (coinPools 100000000000).Dearer (coinPools c.2) c.1 ∧
        (coinPools 100000000000).clears c.1 ⟨100000000⟩ = false ∧
        (coinPools c.2).clears c.1 ⟨100000000⟩ = true := by
  decide +kernel

end PoolSource

end PoolExchange
