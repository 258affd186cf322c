import PoolExchange.InputError

/-!
# Asset — what is traded

An asset is a chain, a symbol and a *kind*: how it is held.  It is written chain, separator,
symbol, and the separator tells the kind:

* layer-1, `.` (`BTC.BTC`): held on its own chain; pools are keyed by this form;
* synthetic, `/`: a claim on a pool;
* trade, `~`, and secured, `-`: held on the ledger, settled in the pool of the layer-1 form.

The *native* asset, in which every pool is balanced, is the layer-1 asset `THOR.RUNE`.  Any other
layer-1 asset of the native chain is *derived*: it stands for the layer-1 asset that has its
symbol for both chain and symbol (its *anchor*).

`read?` accepts a non-empty run of ASCII letters and digits, a separator and a non-empty rest, and
puts ASCII letters in upper case.  Assets are ordered by chain, symbol and kind.
-/

namespace PoolExchange

/-- How an asset is held. -/
inductive AssetKind
  | layer1 | synthetic | trade | secured
deriving DecidableEq, Repr

namespace AssetKind

def separator : AssetKind → Char
  | layer1 => '.'
  | synthetic => '/'
  | trade => '~'
  | secured => '-'

def ofSeparator? : Char → Option AssetKind
  | '.' => some layer1
  | '/' => some synthetic
  | '~' => some trade
  | '-' => some secured
  | _ => none

theorem ofSeparator?_eq_some {c : Char} {k : AssetKind} :
    ofSeparator? c = some k ↔ c = k.separator := by
  constructor
  · intro h
    unfold ofSeparator? at h
    split at h <;> simp_all <;> subst h <;> rfl
  · rintro rfl
    cases k <;> rfl

def name : AssetKind → String
  | layer1 => "Layer1"
  | synthetic => "Synth"
  | trade => "Trade"
  | secured => "Secured"

/-- The place of the kind in the order of kinds. -/
def rank : AssetKind → Nat
  | layer1 => 0
  | synthetic => 1
  | trade => 2
  | secured => 3

theorem rank_injective {a b : AssetKind} (h : a.rank = b.rank) : a = b := by
  cases a <;> cases b <;> first | rfl | cases h

end AssetKind

/-- The groups of assets that have a slip floor of their own. -/
inductive SlipClass
  | layer1 | synthetic | trade | secured | derived
deriving DecidableEq, Repr

def SlipClass.name : SlipClass → String
  | .layer1 => "Layer1"
  | .synthetic => "Synthetic"
  | .trade => "Trade"
  | .secured => "Secured"
  | .derived => "Derived"

@[ext]
structure Asset where
  chain : String
  symbol : String
  kind : AssetKind
deriving DecidableEq, Repr

namespace Asset

def nativeChain : String := "THOR"

def nativeSymbol : String := "RUNE"

/-- The asset with its names in upper case. -/
def ofNames (chain symbol : String) (kind : AssetKind) : Asset :=
  ⟨Text.upper chain, Text.upper symbol, kind⟩

/-- The asset that every pool holds on its native side. -/
def native : Asset := ⟨nativeChain, nativeSymbol, .layer1⟩

def isNative (a : Asset) : Bool :=
  a.kind == .layer1 && a.chain == nativeChain && a.symbol == nativeSymbol

theorem isNative_iff {a : Asset} : a.isNative = true ↔ a = native := by
  obtain ⟨c, s, k⟩ := a
  simp [isNative, native]
  grind

def isSynthetic (a : Asset) : Bool := a.kind == .synthetic

def isTrade (a : Asset) : Bool := a.kind == .trade

def isSecured (a : Asset) : Bool := a.kind == .secured

def isDerived (a : Asset) : Bool :=
  a.kind == .layer1 && a.chain == nativeChain && a.symbol != nativeSymbol

/-- Held on the ledger, with nothing to settle on another chain. -/
def isLedgerNative (a : Asset) : Bool :=
  a.chain == nativeChain || a.kind != .layer1

def slipClass (a : Asset) : SlipClass :=
  match a.kind with
  | .synthetic => .synthetic
  | .trade => .trade
  | .secured => .secured
  | .layer1 => if a.isDerived then .derived else .layer1

/-- The form that keys the asset's pool. -/
def layer1 (a : Asset) : Asset := { a with kind := .layer1 }

@[simp] theorem layer1_layer1 (a : Asset) : a.layer1.layer1 = a.layer1 := rfl

def synthetic (a : Asset) : Asset := { a with kind := .synthetic }

/-- The asset that a derived asset stands for. -/
def anchor? (a : Asset) : Option Asset :=
  if a.isDerived then some (ofNames a.symbol a.symbol .layer1) else none

/-! ### Text -/

def text (a : Asset) : String :=
  a.chain ++ String.ofList [a.kind.separator] ++ a.symbol

instance : ToString Asset := ⟨text⟩

def read? (s : String) : Except InputError Asset :=
  let chain := s.toList.takeWhile Char.isAlphanum
  match s.toList.dropWhile Char.isAlphanum with
  | [] => .error (.invalidAsset s)
  | sep :: symbol =>
    match AssetKind.ofSeparator? sep with
    | none => .error (.invalidAsset s)
    | some kind =>
      if chain.isEmpty || symbol.isEmpty then .error (.invalidAsset s)
      else .ok (ofNames (String.ofList chain) (String.ofList symbol) kind)

/-! ### Order -/

instance : Ord Asset :=
  ⟨compareLex (compareOn chain) (compareLex (compareOn symbol) (compareOn fun a => a.kind.rank))⟩

instance : Std.TransOrd Asset :=
  inferInstanceAs (Std.TransCmp (compareLex (compareOn chain)
    (compareLex (compareOn symbol) (compareOn fun a => a.kind.rank))))

instance : Std.LawfulEqOrd Asset where
  eq_of_compare {a b} h := by
    have h : compareLex (compareOn chain)
      (compareLex (compareOn symbol) (compareOn fun a => a.kind.rank)) a b = .eq := h
    simp only [compareLex_eq_eq, compareOn, Std.LawfulEqOrd.compare_eq_iff_eq] at h
    exact Asset.ext h.1 h.2.1 (AssetKind.rank_injective h.2.2)

end Asset

end PoolExchange
