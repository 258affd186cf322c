import PoolExchange.Route
import PoolExchange.SwapStream

/-!
# Slicing — how many slices a stream may have

Below the size at which a slip floor begins to bind, smaller slices only pay the floor more often.
So the deposit divided by that *floor size* bounds the number of slices, the stream's greatest
length divided by its interval bounds it as well, and a derived asset whose pool is a large share
of its anchor's depth bounds it further.
-/

namespace PoolExchange.Slicing

/-- The assets of a trade that have pools, with their pools. -/
def poolLegs (pools : PoolSource) (source target : Asset) :
    Except PoolError (List (Asset × Pool)) :=
  ([source, target].filter fun a => !a.isNative).mapM fun a => do
    return (a, ← pools.findPool a)

/-- The least element, if there is one. -/
def least? : List Amount → Option Amount
  | [] => none
  | a :: rest => some (rest.foldl min a)

/-- The floor of a leg. -/
def legFloor (config : Config) (leg : Asset × Pool) : Nat :=
  config.slipFloors.forClass leg.1.slipClass

/-- The share of a native depth at which a floor begins to bind. -/
def floorSize (floor : Nat) (depth : Amount) : Amount :=
  Amount.cappedShare (.clamp floor) Curve.full depth

/-- The least floor size of a leg that has a floor, or zero. -/
def perLegSize (legs : List (Asset × Pool)) (config : Config) : Amount :=
  let floored := legs.filter fun leg => legFloor config leg ≠ 0
  (least? (floored.map fun leg => floorSize (legFloor config leg) leg.2.balanceNative)).getD 0

/-- The native depth of the trade as a whole: the harmonic mean of two depths. -/
def meanDepth : List (Asset × Pool) → Except PoolError Amount
  | [leg] => .ok leg.2.balanceNative
  | [first, second] =>
    let a := first.2.balanceNative
    let b := second.2.balanceNative
    PoolError.ofAmount ((a * b * 2).quo? (a + b))
  | _ => .error .noPoolsSelected

/-- The floor size of the lowest positive floor at the mean depth. -/
def meanSize (legs : List (Asset × Pool)) (config : Config) : Except PoolError Amount := do
  let depth ← meanDepth legs
  let floors := (legs.map (legFloor config)).filter (0 < ·)
  return floorSize (floors.min?.getD 0) depth

/-- The floor size of the trade, in native units. -/
def nativeSize (legs : List (Asset × Pool)) (config : Config) : Except PoolError Amount :=
  match config.streaming.sizer with
  | .perLegFloor => .ok (perLegSize legs config)
  | .virtualDepth => meanSize legs config

/-- The share of its anchor's depth that a derived leg's pool holds, in basis points. -/
def anchorShare (pools : PoolSource) (leg : Asset × Pool) : Amount :=
  Amount.share leg.2.balanceNative (pools.anchorDepth leg.1) Curve.full

/-- `10000 / (10000 - d)`, where `d` is the least positive anchor share of a derived leg. -/
def derivedCap? (pools : PoolSource) (legs : List (Asset × Pool)) : Option Nat := do
  let derived := legs.filter fun leg => leg.1.isDerived
  let share ← least? ((derived.map (anchorShare pools)).filter fun s => !s.isZero)
  let rest := Curve.full - share
  if rest.isZero then none else (Curve.full / rest).toWord? 64

/-- The greatest length of a stream between the two assets, in blocks. -/
def maxLength (source target : Asset) (config : Config) : Nat :=
  if source.isLedgerNative && target.isLedgerNative then config.streaming.maxLengthNative
  else config.streaming.maxLength

/-- The floor size in units of the source. -/
def sourceSize (source : Asset) (first : Pool) (size : Amount) : Amount :=
  if source.isNative then size else Amount.share size first.balanceNative first.balanceAsset

/-- The number of slices, given the floor size in units of the source and the caps. -/
def quantityFor (deposit size : Amount) (byLength : Nat) (cap : Option Nat) : Nat :=
  let slices := ((deposit / size).toWord? 64).getD (wordBound 64 - 1)
  if byLength < slices then byLength
  else
    let slices := max slices 1
    match cap with
    | some most => min slices most
    | none => slices

/-- The greatest number of slices of a stream; zero if there is no interval. -/
def maxQuantity (pools : PoolSource) (source target : Asset) (deposit : Amount) (interval : Nat)
    (config : Config) : Except PoolError Nat :=
  if interval = 0 then .ok 0
  else do
    let legs ← poolLegs pools source target
    match legs with
    | [] => .error .noPoolsSelected
    | first :: _ =>
      let size := sourceSize source first.2 (← nativeSize legs config)
      if size.isZero then return 1
      else
        return quantityFor deposit size (maxLength source target config / interval)
          (derivedCap? pools legs)

end PoolExchange.Slicing

namespace PoolExchange.SwapStream

/-- The next slice, or an error once every slice is used. -/
def nextSlice (s : SwapStream) : Except PoolError (Amount × Amount) :=
  if (0 < s.quantity && s.isDone) || s.deposit ≤ s.input then .error .streamCompleted
  else .ok s.nextSize

end PoolExchange.SwapStream
