import PoolExchange.Json.Records
import PoolExchange.Queue.Block
import PoolExchange.Withdrawal

/-!
# Json — what the exchange reports

The report of a block, a payment and the side of a withdrawal, as JSON.
-/

namespace PoolExchange

open Json

def WithdrawSide.ofName? : String → Option WithdrawSide
  | "both" => some .both
  | "native_only" => some .nativeOnly
  | "asset_only" => some .assetOnly
  | _ => none

instance : Codec WithdrawSide :=
  ⟨fun s => .text s.name, fun j => j.variant?.bind WithdrawSide.ofName?⟩

instance : Codec Payout where
  toJson p := .object [("coin", toJson p.coin), ("fee", toJson p.fee)]
  ofJson? j := do
    let r ← j.record? ["coin", "fee"]
    return { coin := ← r.get "coin", fee := ← r.get "fee" }

def BlockReport.fieldNames : List String :=
  ["height", "skipped", "fetched", "executed", "retained", "refunded", "sub_swap_failures",
    "flagged_pairs"]

instance : Codec BlockReport where
  toJson b := .object [
    ("height", .nat b.height),
    ("skipped", toJson b.skipped),
    ("fetched", .nat b.fetched),
    ("executed", .nat b.executed),
    ("retained", .nat b.retained),
    ("refunded", .nat b.refunded),
    ("sub_swap_failures", .nat b.sliceFailures),
    ("flagged_pairs", .nat b.flaggedPairs)]
  ofJson? j := do
    let r ← j.record? BlockReport.fieldNames
    return {
      height := ← r.getWord 64 "height"
      skipped := ← r.get "skipped"
      fetched := ← r.getWord 64 "fetched"
      executed := ← r.getWord 64 "executed"
      retained := ← r.getWord 64 "retained"
      refunded := ← r.getWord 64 "refunded"
      sliceFailures := ← r.getWord 64 "sub_swap_failures"
      flaggedPairs := ← r.getWord 64 "flagged_pairs" }

end PoolExchange
