import PoolExchange.Event
import PoolExchange.Json.Reader
import PoolExchange.Json.Records

/-!
# Json — events

An event is written as an object that begins with its kind, under `type`.  It is read from an
object in which the kind may stand anywhere, but once; or from an array that begins with the kind
and goes on with the fields in order.  In an event an empty object may stand in the place of null
beside the name of a status.
-/

namespace PoolExchange.Event

/-- The fields of an event, in order. -/
def fields : Event → List (String × Json)
  | addLiquidity pool provider tx units native asset =>
    [("pool", toJson pool), ("provider", toJson provider), ("tx_id", toJson tx),
      ("units", toJson units), ("native", toJson native), ("asset", toJson asset)]
  | pendingLiquidity pool provider tx native asset =>
    [("pool", toJson pool), ("provider", toJson provider), ("tx_id", toJson tx),
      ("native", toJson native), ("asset", toJson asset)]
  | withdraw pool provider basisPoints units native asset =>
    [("pool", toJson pool), ("provider", toJson provider), ("basis_points", .nat basisPoints),
      ("units", toJson units), ("native", toJson native), ("asset", toJson asset)]
  | swap pool tx input emit fee feeInNative slip =>
    [("pool", toJson pool), ("tx_id", toJson tx), ("input", toJson input), ("emit", toJson emit),
      ("liquidity_fee", toJson fee), ("liquidity_fee_in_native", toJson feeInNative),
      ("swap_slip_bps", toJson slip)]
  | refund tx coin fee reason =>
    [("tx_id", toJson tx), ("coin", toJson coin), ("fee", toJson fee), ("reason", toJson reason)]
  | refundDropped tx coin reason =>
    [("tx_id", toJson tx), ("coin", toJson coin), ("reason", toJson reason)]
  | streamingSwap tx source target interval quantity count deposit input output failedSwaps =>
    [("tx_id", toJson tx), ("source", toJson source), ("target", toJson target),
      ("interval", .nat interval), ("quantity", .nat quantity), ("count", .nat count),
      ("deposit", toJson deposit), ("input", toJson input), ("output", toJson output),
      ("failed_swaps", .array (failedSwaps.map .nat))]
  | outbound tx recipient coin =>
    [("tx_id", toJson tx), ("to", toJson recipient), ("coin", toJson coin)]
  | affiliateFee tx recipient coin =>
    [("tx_id", toJson tx), ("to", toJson recipient), ("coin", toJson coin)]
  | poolStatusChange pool before after =>
    [("pool", toJson pool), ("from", toJson before), ("to", toJson after)]

def encode (e : Event) : Json := .object (("type", .text e.kind) :: e.fields)

/-- The names of the fields of a kind. -/
def fieldNames? : String → Option (List String)
  | "add_liquidity" => some ["pool", "provider", "tx_id", "units", "native", "asset"]
  | "pending_liquidity" => some ["pool", "provider", "tx_id", "native", "asset"]
  | "withdraw" => some ["pool", "provider", "basis_points", "units", "native", "asset"]
  | "swap" => some ["pool", "tx_id", "input", "emit", "liquidity_fee", "liquidity_fee_in_native",
      "swap_slip_bps"]
  | "refund" => some ["tx_id", "coin", "fee", "reason"]
  | "refund_dropped" => some ["tx_id", "coin", "reason"]
  | "streaming_swap" => some ["tx_id", "source", "target", "interval", "quantity", "count",
      "deposit", "input", "output", "failed_swaps"]
  | "outbound" => some ["tx_id", "to", "coin"]
  | "affiliate_fee" => some ["tx_id", "to", "coin"]
  | "pool_status_change" => some ["pool", "from", "to"]
  | _ => none

/-- A status within an event. -/
def status? : Json → Option PoolStatus
  | .object [(name, .object [])] => PoolStatus.ofName? name
  | j => ofJson? j

/-- The event of a kind with the given fields. -/
def ofRecord? (kind : String) (r : Json.Record) : Option Event :=
  match kind with
  | "add_liquidity" => do
    return addLiquidity (← r.get "pool") (← r.get "provider") (← r.get "tx_id") (← r.get "units")
      (← r.get "native") (← r.get "asset")
  | "pending_liquidity" => do
    return pendingLiquidity (← r.get "pool") (← r.get "provider") (← r.get "tx_id")
      (← r.get "native") (← r.get "asset")
  | "withdraw" => do
    return withdraw (← r.get "pool") (← r.get "provider") (← r.getWord 64 "basis_points")
      (← r.get "units") (← r.get "native") (← r.get "asset")
  | "swap" => do
    return swap (← r.get "pool") (← r.get "tx_id") (← r.get "input") (← r.get "emit")
      (← r.get "liquidity_fee") (← r.get "liquidity_fee_in_native") (← r.get "swap_slip_bps")
  | "refund" => do
    return refund (← r.get "tx_id") (← r.get "coin") (← r.get "fee") (← r.get "reason")
  | "refund_dropped" => do
    return refundDropped (← r.get "tx_id") (← r.get "coin") (← r.get "reason")
  | "streaming_swap" => do
    return streamingSwap (← r.get "tx_id") (← r.get "source") (← r.get "target")
      (← r.getWord 64 "interval") (← r.getWord 64 "quantity") (← r.getWord 64 "count")
      (← r.get "deposit") (← r.get "input") (← r.get "output")
      (← (r.find? "failed_swaps").bind Json.words?)
  | "outbound" => do
    return outbound (← r.get "tx_id") (← r.get "to") (← r.get "coin")
  | "affiliate_fee" => do
    return affiliateFee (← r.get "tx_id") (← r.get "to") (← r.get "coin")
  | "pool_status_change" => do
    return poolStatusChange (← r.get "pool") (← (r.find? "from").bind status?)
      (← (r.find? "to").bind status?)
  | _ => none

/-- The kind of an event, and the rest of it. -/
def tagged? : Json → Option (String × Json)
  | .object members =>
    match members.filter fun m => m.1 == "type" with
    | [(_, .text kind)] => some (kind, .object (members.filter fun m => m.1 != "type"))
    | _ => none
  | .array (.text kind :: items) => some (kind, .array items)
  | _ => none

def decode? (j : Json) : Option Event := do
  let (kind, rest) ← tagged? j
  let names ← fieldNames? kind
  ofRecord? kind (← rest.record? names)

instance : Codec Event := ⟨encode, decode?⟩

/-- The event that a JSON text denotes. -/
def read? (text : String) : Option Event := do
  let j ← Json.read? text
  if j.isKeepable then decode? j else none

end PoolExchange.Event
