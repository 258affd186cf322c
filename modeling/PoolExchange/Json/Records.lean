import PoolExchange.Json.Codec
import PoolExchange.LimitKey
import PoolExchange.Pool
import PoolExchange.Provider
import PoolExchange.SwapStream

/-!
# Json — the records of the exchange

Amounts are written as decimal strings, assets, transactions and addresses as their texts, and
everything else as records.  The synthetic units of a pool are not part of its record: they read
as zero.
-/

namespace PoolExchange

open Json

/-- Reads a string by a reader that may refuse it. -/
def Json.readWith {ε α : Type} (read : String → Except ε α) (j : Json) : Option α :=
  j.string?.bind fun s =>
    match read s with
    | .ok a => some a
    | .error _ => none

/-! ### Amounts and names -/

instance : Codec Amount := ⟨fun a => .text a.text, readWith Amount.read?⟩

def AssetKind.ofName? : String → Option AssetKind
  | "Layer1" => some .layer1
  | "Synth" => some .synthetic
  | "Trade" => some .trade
  | "Secured" => some .secured
  | _ => none

instance : Codec AssetKind :=
  ⟨fun k => .text k.name, fun j => j.variant?.bind AssetKind.ofName?⟩

instance : Codec Asset := ⟨fun a => .text a.text, readWith Asset.read?⟩

instance : Codec TxId := ⟨fun t => .text t.text, readWith TxId.read?⟩

/-- A stored address is taken as it is. -/
instance : Codec Address := ⟨fun a => .text a.text, fun j => Address.mk <$> j.string?⟩

instance : Codec Coin where
  toJson c := .object [("asset", toJson c.asset), ("amount", toJson c.amount)]
  ofJson? j := do
    let r ← j.record? ["asset", "amount"]
    return { asset := ← r.get "asset", amount := ← r.get "amount" }

/-! ### Pools and positions -/

def PoolStatus.ofName? : String → Option PoolStatus
  | "Available" => some .available
  | "Staged" => some .staged
  | "Suspended" => some .suspended
  | _ => none

instance : Codec PoolStatus :=
  ⟨fun s => .text s.name, fun j => j.variant?.bind PoolStatus.ofName?⟩

def Pool.fieldNames : List String :=
  ["asset", "balance_native", "balance_asset", "lp_units", "pending_inbound_native",
    "pending_inbound_asset", "status", "decimals"]

instance : Codec Pool where
  toJson p := .object [
    ("asset", toJson p.asset),
    ("balance_native", toJson p.balanceNative),
    ("balance_asset", toJson p.balanceAsset),
    ("lp_units", toJson p.lpUnits),
    ("pending_inbound_native", toJson p.pendingNative),
    ("pending_inbound_asset", toJson p.pendingAsset),
    ("status", toJson p.status),
    ("decimals", .nat p.decimals)]
  ofJson? j := do
    let r ← j.record? Pool.fieldNames
    return {
      asset := ← r.get "asset"
      balanceNative := ← r.get "balance_native"
      balanceAsset := ← r.get "balance_asset"
      lpUnits := ← r.get "lp_units"
      synthUnits := 0
      pendingNative := ← r.get "pending_inbound_native"
      pendingAsset := ← r.get "pending_inbound_asset"
      status := ← r.get "status"
      decimals := ← r.getWord 8 "decimals" }

def Provider.fieldNames : List String :=
  ["asset", "owner", "units", "pending_native", "pending_asset", "pending_tx",
    "native_deposit_value", "asset_deposit_value", "last_add_height", "last_withdraw_height"]

instance : Codec Provider where
  toJson p := .object [
    ("asset", toJson p.asset),
    ("owner", toJson p.owner),
    ("units", toJson p.units),
    ("pending_native", toJson p.pendingNative),
    ("pending_asset", toJson p.pendingAsset),
    ("pending_tx", toJson p.pendingTx),
    ("native_deposit_value", toJson p.nativeDepositValue),
    ("asset_deposit_value", toJson p.assetDepositValue),
    ("last_add_height", .nat p.lastAddHeight),
    ("last_withdraw_height", .nat p.lastWithdrawHeight)]
  ofJson? j := do
    let r ← j.record? Provider.fieldNames
    return {
      asset := ← r.get "asset"
      owner := ← r.get "owner"
      units := ← r.get "units"
      pendingNative := ← r.get "pending_native"
      pendingAsset := ← r.get "pending_asset"
      pendingTx := ← r.getOption "pending_tx"
      nativeDepositValue := ← r.get "native_deposit_value"
      assetDepositValue := ← r.get "asset_deposit_value"
      lastAddHeight := ← r.getWord 64 "last_add_height"
      lastWithdrawHeight := ← r.getWord 64 "last_withdraw_height" }

/-! ### Swaps -/

def SwapType.name : SwapType → String
  | .market => "Market"
  | .limit => "Limit"

def SwapType.ofName? : String → Option SwapType
  | "Market" => some .market
  | "Limit" => some .limit
  | _ => none

instance : Codec SwapType :=
  ⟨fun t => .text t.name, fun j => j.variant?.bind SwapType.ofName?⟩

instance : Codec Affiliate where
  toJson a := .object [("address", toJson a.address), ("basis_points", .nat a.basisPoints)]
  ofJson? j := do
    let r ← j.record? ["address", "basis_points"]
    return { address := ← r.get "address", basisPoints := ← r.getWord 64 "basis_points" }

instance : Codec SwapKey where
  toJson k := .object [("tx_id", toJson k.tx), ("index", .nat k.index)]
  ofJson? j := do
    let r ← j.record? ["tx_id", "index"]
    return { tx := ← r.get "tx_id", index := ← r.getWord 32 "index" }

instance : Codec Pair where
  toJson p := .object [("source", toJson p.source), ("target", toJson p.target)]
  ofJson? j := do
    let r ← j.record? ["source", "target"]
    return { source := ← r.get "source", target := ← r.get "target" }

instance : Codec Ratio := ⟨fun r => .nat r.value, fun j => Ratio.mk <$> j.word? 64⟩

instance : Codec LimitKey where
  toJson k := .object [("pair", toJson k.pair), ("ratio", toJson k.ratio)]
  ofJson? j := do
    let r ← j.record? ["pair", "ratio"]
    return { pair := ← r.get "pair", ratio := ← r.get "ratio" }

def Swap.fieldNames : List String :=
  ["tx_id", "index", "from_address", "source", "target_asset", "destination", "trade_target",
    "swap_type", "stream_interval", "stream_quantity", "affiliate", "initial_height"]

instance : Codec Swap where
  toJson s := .object [
    ("tx_id", toJson s.tx),
    ("index", .nat s.index),
    ("from_address", toJson s.sender),
    ("source", toJson s.source),
    ("target_asset", toJson s.target),
    ("destination", toJson s.destination),
    ("trade_target", toJson s.tradeTarget),
    ("swap_type", toJson s.type),
    ("stream_interval", .nat s.streamInterval),
    ("stream_quantity", .nat s.streamQuantity),
    ("affiliate", toJson s.affiliate),
    ("initial_height", .nat s.initialHeight)]
  ofJson? j := do
    let r ← j.record? Swap.fieldNames
    return {
      tx := ← r.get "tx_id"
      index := ← r.getWord 32 "index"
      sender := ← r.get "from_address"
      source := ← r.get "source"
      target := ← r.get "target_asset"
      destination := ← r.get "destination"
      tradeTarget := ← r.get "trade_target"
      type := ← r.get "swap_type"
      streamInterval := ← r.getWord 64 "stream_interval"
      streamQuantity := ← r.getWord 64 "stream_quantity"
      affiliate := ← r.getOption "affiliate"
      initialHeight := ← r.getWord 64 "initial_height" }

def SwapStream.fieldNames : List String :=
  ["tx_id", "interval", "quantity", "count", "last_height", "trade_target", "deposit", "in", "out",
    "failed_swaps", "failed_swap_reasons"]

/-- A list of natural numbers of 64 bits. -/
def Json.words? : Json → Option (List Nat)
  | .array items => items.mapM (word? 64)
  | _ => none

instance : Codec SwapStream where
  toJson s := .object [
    ("tx_id", toJson s.tx),
    ("interval", .nat s.interval),
    ("quantity", .nat s.quantity),
    ("count", .nat s.count),
    ("last_height", .nat s.lastHeight),
    ("trade_target", toJson s.tradeTarget),
    ("deposit", toJson s.deposit),
    ("in", toJson s.input),
    ("out", toJson s.output),
    ("failed_swaps", .array (s.failedSwaps.map .nat)),
    ("failed_swap_reasons", toJson s.failedSwapReasons)]
  ofJson? j := do
    let r ← j.record? SwapStream.fieldNames
    return {
      tx := ← r.get "tx_id"
      interval := ← r.getWord 64 "interval"
      quantity := ← r.getWord 64 "quantity"
      count := ← r.getWord 64 "count"
      lastHeight := ← r.getWord 64 "last_height"
      tradeTarget := ← r.get "trade_target"
      deposit := ← r.get "deposit"
      input := ← r.get "in"
      output := ← r.get "out"
      failedSwaps := ← (r.find? "failed_swaps").bind words?
      failedSwapReasons := ← r.get "failed_swap_reasons" }

end PoolExchange
