import PoolExchange.Asset
import PoolExchange.Scale

/-!
# Config — the economic parameters

The parameters come in four sections: the batch size of the swap queue, the slip floors of the
asset classes, the limits of streaming, and pricing.  A configuration is *valid* when its smallest
batch is at most its largest, its depth multiplier is positive and no floor is above one hundred
percent (`validate`).

Parameters can be overridden at run time by name (`Parameter`).  A negative value means "as
configured", an unknown name means nothing, and overrides that would make the configuration
invalid are dropped together (`withOverrides`).
-/

namespace PoolExchange

/-- The batch size of the swap queue. -/
@[ext]
structure Config.Queue where
  minSwaps : Nat := 10
  maxSwaps : Nat := 100
  /-- The queue rests at the multiples of this height; zero means never. -/
  poolCycle : Nat := 43200
deriving DecidableEq, Repr

/-- The least slip of each asset class, in basis points. -/
@[ext]
structure Config.SlipFloors where
  layer1 : Nat := 0
  synthetic : Nat := 0
  trade : Nat := 0
  secured : Nat := 5
  derived : Nat := 0
deriving DecidableEq, Repr

/-- How the smallest slice of a stream is found. -/
inductive Config.Sizer
  /-- From the thinnest leg's own native depth. -/
  | perLegFloor
  /-- From the harmonic mean of both legs' native depths. -/
  | virtualDepth
deriving DecidableEq, Repr

/-- The number of blocks in a day. -/
def Config.blocksPerDay : Nat := 14400

@[ext]
structure Config.Streaming where
  /-- The longest stream, in blocks. -/
  maxLength : Nat := Config.blocksPerDay
  /-- The longest stream between two assets of the ledger. -/
  maxLengthNative : Nat := Config.blocksPerDay * 365
  pause : Bool := false
  sizer : Config.Sizer := .perLegFloor
deriving DecidableEq, Repr

@[ext]
structure Config.Pricing where
  /-- The depth multiplier of synthetic and derived trades, in basis points. -/
  virtualMultiplier : Nat := 20000
  /-- The fee kept from every outgoing payment, in native units. -/
  outboundFee : Nat := 2000000
deriving DecidableEq, Repr

@[ext]
structure Config where
  queue : Config.Queue := {}
  slipFloors : Config.SlipFloors := {}
  streaming : Config.Streaming := {}
  pricing : Config.Pricing := {}
deriving DecidableEq, Repr

instance : Inhabited Config := ⟨{}⟩

/-- Why a configuration is not valid. -/
inductive ConfigError
  | batchBounds (minSwaps maxSwaps : Nat)
  | zeroMultiplier
  | slipFloor (name : String) (value : Nat)
deriving DecidableEq, Repr

def ConfigError.message : ConfigError → String
  | .batchBounds lo hi =>
    "min_swaps_per_block " ++ toString lo ++ " exceeds max_swaps_per_block " ++ toString hi
  | .zeroMultiplier => "virtual_mult_synths_bps must be positive"
  | .slipFloor name value =>
    name ++ " slip floor " ++ toString value ++ " exceeds " ++ toString fullBasisPoints ++ " bps"

namespace Config

/-- The floor of a class. -/
def SlipFloors.forClass (f : SlipFloors) : SlipClass → Nat
  | .layer1 => f.layer1
  | .synthetic => f.synthetic
  | .trade => f.trade
  | .secured => f.secured
  | .derived => f.derived

/-- The floors with their names, in the order in which they are checked. -/
def SlipFloors.named (f : SlipFloors) : List (String × Nat) :=
  [("layer1", f.layer1), ("synth", f.synthetic), ("trade", f.trade), ("secured", f.secured),
    ("derived", f.derived)]

def validate (c : Config) : Except ConfigError Unit :=
  if c.queue.maxSwaps < c.queue.minSwaps then
    .error (.batchBounds c.queue.minSwaps c.queue.maxSwaps)
  else if c.pricing.virtualMultiplier = 0 then .error .zeroMultiplier
  else
    match c.slipFloors.named.find? fun f => fullBasisPoints < f.2 with
    | some f => .error (.slipFloor f.1 f.2)
    | none => .ok ()

def isValid (c : Config) : Bool :=
  match c.validate with
  | .ok _ => true
  | .error _ => false

/-! ### Overrides -/

/-- The parameters that can be overridden. -/
inductive Parameter
  | minSwaps | maxSwaps | poolCycle
  | layer1Floor | syntheticFloor | tradeFloor | securedFloor | derivedFloor
  | virtualMultiplier | outboundFee
  | maxLength | maxLengthNative | pause
deriving DecidableEq, Repr

namespace Parameter

def name : Parameter → String
  | minSwaps => "MinSwapsPerBlock"
  | maxSwaps => "MaxSwapsPerBlock"
  | poolCycle => "PoolCycle"
  | layer1Floor => "L1SlipMinBps"
  | syntheticFloor => "SynthSlipMinBps"
  | tradeFloor => "TradeAccountsSlipMinBps"
  | securedFloor => "SecuredAssetSlipMinBps"
  | derivedFloor => "DerivedSlipMinBps"
  | virtualMultiplier => "VirtualMultSynthsBasisPoints"
  | outboundFee => "NativeOutboundFee"
  | maxLength => "StreamingSwapMaxLength"
  | maxLengthNative => "StreamingSwapMaxLengthNative"
  | pause => "StreamingSwapPause"

def all : List Parameter :=
  [minSwaps, maxSwaps, poolCycle, layer1Floor, syntheticFloor, tradeFloor, securedFloor,
    derivedFloor, virtualMultiplier, outboundFee, maxLength, maxLengthNative, pause]

theorem mem_all (p : Parameter) : p ∈ all := by cases p <;> decide

def ofName? (s : String) : Option Parameter :=
  all.find? fun p => p.name == s

/-- The configuration with one parameter replaced. -/
def set (p : Parameter) (value : Nat) (c : Config) : Config :=
  match p with
  | minSwaps => { c with queue.minSwaps := value }
  | maxSwaps => { c with queue.maxSwaps := value }
  | poolCycle => { c with queue.poolCycle := value }
  | layer1Floor => { c with slipFloors.layer1 := value }
  | syntheticFloor => { c with slipFloors.synthetic := value }
  | tradeFloor => { c with slipFloors.trade := value }
  | securedFloor => { c with slipFloors.secured := value }
  | derivedFloor => { c with slipFloors.derived := value }
  | virtualMultiplier => { c with pricing.virtualMultiplier := value }
  | outboundFee => { c with pricing.outboundFee := value }
  | maxLength => { c with streaming.maxLength := value }
  | maxLengthNative => { c with streaming.maxLengthNative := value }
  | pause => { c with streaming.pause := 0 < value }

end Parameter

/-- Applies one override, if it names a parameter and is not negative. -/
def override (c : Config) (entry : String × Int) : Config :=
  if entry.2 < 0 then c
  else
    match Parameter.ofName? entry.1 with
    | some p => p.set entry.2.toNat c
    | none => c

/-- Applies the overrides, all of them or, if the result is not valid, none. -/
def withOverrides (c : Config) (overrides : List (String × Int)) : Config :=
  let effective := overrides.foldl override c
  if effective.isValid then effective else c

end Config

end PoolExchange
