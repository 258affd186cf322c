import PoolExchange.Config
import PoolExchange.Text.Scientific

/-!
# Config — reading settings

Settings come as a tree: groups of named settings, lists, and plain values.  A section of the
configuration is read from a group, with unknown names ignored and missing ones left at their
defaults, or from a list of its fields in order, again with the rest at their defaults.

What counts as a number, as a flag or as a name depends on where the settings come from; a
`Dialect` says so.
-/

namespace PoolExchange

/-- A tree of settings. -/
inductive Setting
  | nothing
  | flag (b : Bool)
  | integer (n : Int)
  | real (x : Text.RealText)
  | text (s : String)
  | list (items : List Setting)
  | group (members : List (String × Setting))
deriving Inhabited, Repr

namespace Setting

/-- How plain values are read. -/
structure Dialect where
  /-- A natural number of 64 bits. -/
  word? : Setting → Option Nat
  flag? : Setting → Option Bool
  /-- The name of an alternative, out of those given. -/
  name? : List String → Setting → Option String
  /-- A list may go on after the last field. -/
  allowsExtra : Bool

def strictWord? : Setting → Option Nat
  | integer n => unsignedWord? 64 n
  | _ => none

def strictFlag? : Setting → Option Bool
  | flag b => some b
  | _ => none

/-- The fields of a section that are present, by name. -/
def section? (d : Dialect) (names : List String) : Setting → Option (List (String × Setting))
  | group members =>
    let known := members.filter fun m => names.contains m.1
    if (known.map Prod.fst).Nodup then some known else none
  | list items =>
    if items.length ≤ names.length || d.allowsExtra then some (names.zip items) else none
  | _ => none

/-- Reads a field, or keeps its default. -/
def field {α : Type} (fields : List (String × Setting)) (name : String) (default : α)
    (read : Setting → Option α) : Option α :=
  match fields.lookup name with
  | some s => read s
  | none => some default

end Setting

namespace Config

open Setting (Dialect section? field)

def sizerNames : List String := ["per_leg_floor", "virtual_depth"]

def Sizer.name : Sizer → String
  | .perLegFloor => "per_leg_floor"
  | .virtualDepth => "virtual_depth"

def Sizer.ofName? : String → Option Sizer
  | "per_leg_floor" => some .perLegFloor
  | "virtual_depth" => some .virtualDepth
  | _ => none

def Queue.read? (d : Dialect) (s : Setting) : Option Queue := do
  let fs ← section? d ["min_swaps_per_block", "max_swaps_per_block", "pool_cycle"] s
  let base : Queue := {}
  return {
    minSwaps := ← field fs "min_swaps_per_block" base.minSwaps d.word?
    maxSwaps := ← field fs "max_swaps_per_block" base.maxSwaps d.word?
    poolCycle := ← field fs "pool_cycle" base.poolCycle d.word? }

def SlipFloors.read? (d : Dialect) (s : Setting) : Option SlipFloors := do
  let fs ← section? d ["layer1", "synth", "trade", "secured", "derived"] s
  let base : SlipFloors := {}
  return {
    layer1 := ← field fs "layer1" base.layer1 d.word?
    synthetic := ← field fs "synth" base.synthetic d.word?
    trade := ← field fs "trade" base.trade d.word?
    secured := ← field fs "secured" base.secured d.word?
    derived := ← field fs "derived" base.derived d.word? }

def Streaming.read? (d : Dialect) (s : Setting) : Option Streaming := do
  let fs ← section? d ["max_length", "max_length_native", "pause", "sizer"] s
  let base : Streaming := {}
  return {
    maxLength := ← field fs "max_length" base.maxLength d.word?
    maxLengthNative := ← field fs "max_length_native" base.maxLengthNative d.word?
    pause := ← field fs "pause" base.pause d.flag?
    sizer := ← field fs "sizer" base.sizer fun s => (d.name? sizerNames s).bind Sizer.ofName? }

def Pricing.read? (d : Dialect) (s : Setting) : Option Pricing := do
  let fs ← section? d ["virtual_mult_synths_bps", "native_outbound_fee"] s
  let base : Pricing := {}
  return {
    virtualMultiplier := ← field fs "virtual_mult_synths_bps" base.virtualMultiplier d.word?
    outboundFee := ← field fs "native_outbound_fee" base.outboundFee d.word? }

/-- The configuration that the settings describe. -/
def read? (d : Dialect) (s : Setting) : Option Config := do
  let fs ← section? d ["queue", "slip_floors", "streaming", "pricing"] s
  return {
    queue := ← field fs "queue" {} (Queue.read? d)
    slipFloors := ← field fs "slip_floors" {} (SlipFloors.read? d)
    streaming := ← field fs "streaming" {} (Streaming.read? d)
    pricing := ← field fs "pricing" {} (Pricing.read? d) }

end Config

end PoolExchange
