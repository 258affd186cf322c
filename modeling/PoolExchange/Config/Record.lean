import PoolExchange.Config.Setting
import PoolExchange.Json.Codec

/-!
# Config — the configuration as JSON

The configuration is written with all its sections and fields.  It is read strictly: numbers are
integers of 64 bits, flags are booleans, and whatever is missing has its default.
-/

namespace PoolExchange

mutual
/-- A JSON value as a tree of settings. -/
def Setting.ofJson : Json → Setting
  | .null => .nothing
  | .bool b => .flag b
  | .number n => .integer n
  | .real literal =>
    match Text.RealText.read? literal with
    | some x => .real x
    | none => .text literal
  | .text s => .text s
  | .unpaired => .text ""
  | .array items => .list (Setting.ofItems items)
  | .object members => .group (Setting.ofMembers members)

def Setting.ofItems : List Json → List Setting
  | [] => []
  | j :: rest => Setting.ofJson j :: Setting.ofItems rest

def Setting.ofMembers : List (String × Json) → List (String × Setting)
  | [] => []
  | (k, j) :: rest => (k, Setting.ofJson j) :: Setting.ofMembers rest
end

namespace Config

/-- A name is a string, or a group with that one name and nothing in it. -/
def recordName? (names : List String) : Setting → Option String
  | .text s => if names.contains s then some s else none
  | .group [(name, .nothing)] => if names.contains name then some name else none
  | _ => none

def recordDialect : Setting.Dialect where
  word? := Setting.strictWord?
  flag? := Setting.strictFlag?
  name? := recordName?
  allowsExtra := false

def Queue.toJson (q : Queue) : Json := .object [
  ("min_swaps_per_block", .nat q.minSwaps),
  ("max_swaps_per_block", .nat q.maxSwaps),
  ("pool_cycle", .nat q.poolCycle)]

def SlipFloors.toJson (f : SlipFloors) : Json := .object [
  ("layer1", .nat f.layer1),
  ("synth", .nat f.synthetic),
  ("trade", .nat f.trade),
  ("secured", .nat f.secured),
  ("derived", .nat f.derived)]

def Streaming.toJson (s : Streaming) : Json := .object [
  ("max_length", .nat s.maxLength),
  ("max_length_native", .nat s.maxLengthNative),
  ("pause", .bool s.pause),
  ("sizer", .text s.sizer.name)]

def Pricing.toJson (p : Pricing) : Json := .object [
  ("virtual_mult_synths_bps", .nat p.virtualMultiplier),
  ("native_outbound_fee", .nat p.outboundFee)]

instance : Codec Config where
  toJson c := .object [
    ("queue", c.queue.toJson),
    ("slip_floors", c.slipFloors.toJson),
    ("streaming", c.streaming.toJson),
    ("pricing", c.pricing.toJson)]
  ofJson? j := Config.read? recordDialect (.ofJson j)

end Config

end PoolExchange
