import PoolExchange.Queue.Candidate

/-!
# Queue — the order of execution

A candidate is scored by the fee it would pay at the present depths, in native units, over its
legs; one whose pool is missing, empty on a side or not available scores nothing for that leg.
Candidates run by falling fee, and among equals by transaction and index.

Of a backlog of candidates, half run in a block, or all of them when there are no more than the
smallest batch, and never more than the largest batch.
-/

namespace PoolExchange

namespace Candidate

/-- The depths at which a leg is scored. -/
def scoredDepths (pool : Pool) (source target : Asset) (config : Config) : Amount × Amount :=
  let d := Leg.depths pool source
  let multiplier :=
    if Leg.isVirtual source target pool then config.pricing.virtualMultiplier
    else fullBasisPoints
  (Curve.scaleDepth d.1 multiplier, Curve.scaleDepth d.2 multiplier)

/-- The fee of a leg, in native units, and its slip. -/
def legScore (pool : Pool) (source target : Asset) (amount : Amount) (config : Config) :
    Amount × Amount :=
  let d := scoredDepths pool source target config
  let fee := Curve.fee d.1 amount d.2
  (if source.isNative then pool.assetInNative fee else fee, Curve.slip d.1 amount)

/-- The pool of an asset, if it can be scored. -/
def scorable? (pools : PoolSource) (asset : Asset) : Option Pool :=
  (pools.pool? asset).filter fun p =>
    p.isAvailable && !p.balanceNative.isZero && !p.balanceAsset.isZero

/-- The fee and slip of a swap. -/
def scoreOf (pools : PoolSource) (swap : Swap) (config : Config) : Amount × Amount :=
  let source := swap.source.asset
  let target := swap.target
  let amount := swap.source.amount
  if source.isNative then
    match scorable? pools target with
    | some pool => legScore pool source target amount config
    | none => (0, 0)
  else
    match scorable? pools source with
    | none => (0, 0)
    | some first =>
      if target.isNative then legScore first source target amount config
      else
        let a := legScore first source .native amount config
        match scorable? pools target with
        | none => a
        | some second =>
          let b := legScore second .native target (first.assetInNative amount) config
          (a.1 + b.1, a.2 + b.2)

/-- The candidate with its score. -/
def scored (c : Candidate) (pools : PoolSource) (config : Config) : Candidate :=
  let s := scoreOf pools c.swap config
  { c with fee := s.1, slip := s.2 }

/-- `a` runs no later than `b`. -/
def runsBefore (a b : Candidate) : Bool :=
  if a.fee = b.fee then (compare a.swap.key b.swap.key).isLE else b.fee < a.fee

/-- The candidates in the order of execution. -/
def sorted (cs : List Candidate) : List Candidate := cs.mergeSort runsBefore

end Candidate

/-- The number of candidates that run. -/
def todoCount (backlog minSwaps maxSwaps : Nat) : Nat :=
  min (if backlog ≤ minSwaps then backlog else backlog / 2) maxSwaps

end PoolExchange
