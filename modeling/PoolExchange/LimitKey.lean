import PoolExchange.StoreError
import PoolExchange.Swap

/-!
# LimitKey — the order of limit swaps

A limit swap rests in the bucket of its pair and of the rate it asks for: input per unit of
output, counted in `10⁻⁸` (`Ratio.of`).  A higher ratio offers more input, so it clears first, and
buckets of one pair are in descending order of ratio.

The text of a ratio has a fixed width, so that ratios compare as their texts do; a ratio too large
for the width counts as the largest that fits.
-/

namespace PoolExchange

/-- Input per unit of output, in units of `10⁻⁸`. -/
@[ext]
structure Ratio where
  value : Nat
deriving DecidableEq, Repr

namespace Ratio

/-- The number of digits of a written ratio. -/
def width : Nat := 18

/-- The largest ratio that can be written. -/
def maxValue : Nat := 999999999999999999

def zero : Ratio := ⟨0⟩

def largest : Ratio := ⟨maxValue⟩

/-- The ratio of an input to an output, zero if there is no output. -/
def of (input output : Amount) : Ratio :=
  if output.isZero then zero
  else ⟨min (input * .clamp wholeCoin / output).toNat maxValue⟩

theorem value_of_le (input output : Amount) : (of input output).value ≤ maxValue := by
  unfold of
  split
  · exact Nat.zero_le _
  · exact Nat.min_le_right _ _

def text (r : Ratio) : String := String.ofList (Text.padded width r.value)

def read? (s : String) : Except StoreError Ratio :=
  if s.toList.length = width then
    match Text.numeral? s.toList with
    | some n => .ok ⟨n⟩
    | none => .error (.malformed (.ratio s))
  else .error (.malformed (.ratio s))

instance : Ord Ratio := ⟨compareOn value⟩
instance : Std.TransOrd Ratio := inferInstanceAs (Std.TransCmp (compareOn value))
instance : Std.LawfulEqOrd Ratio where
  eq_of_compare h := Ratio.ext (Std.LawfulEqOrd.eq_of_compare (α := Nat) h)

end Ratio

/-- A bucket of limit swaps. -/
@[ext]
structure LimitKey where
  pair : Pair
  ratio : Ratio
deriving DecidableEq, Repr

namespace LimitKey

/-- The bucket of a limit swap. -/
def ofSwap (s : Swap) : LimitKey := ⟨s.pair, Ratio.of s.source.amount s.tradeTarget⟩

/-- The first bucket of a pair. -/
def best (pair : Pair) : LimitKey := ⟨pair, .largest⟩

/-- The last bucket of a pair. -/
def worst (pair : Pair) : LimitKey := ⟨pair, .zero⟩

instance : Ord LimitKey :=
  ⟨compareLex (compareOn pair) (fun a b => compareOn ratio b a)⟩

instance : Std.TransOrd LimitKey :=
  inferInstanceAs (Std.TransCmp (compareLex (compareOn pair) (fun a b => compareOn ratio b a)))

instance : Std.LawfulEqOrd LimitKey where
  eq_of_compare {a b} h := by
    have h : compareLex (compareOn pair) (fun a b => compareOn ratio b a) a b = .eq := h
    simp only [compareLex_eq_eq, compareOn, Std.LawfulEqOrd.compare_eq_iff_eq] at h
    exact LimitKey.ext h.1 h.2.symm

/-! ### Text -/

def text (k : LimitKey) : String := k.pair.text ++ "/" ++ k.ratio.text ++ "/"

instance : ToString LimitKey := ⟨text⟩

/-- The part before the last slash and the part after it. -/
def splitLast? (cs : List Char) : Option (List Char × List Char) :=
  match cs.reverse.dropWhile (· ≠ '/') with
  | [] => none
  | _ :: before => some (before.reverse, (cs.reverse.takeWhile (· ≠ '/')).reverse)

/-- The part before the first `>` and the part after it. -/
def splitPair? (cs : List Char) : Option (List Char × List Char) :=
  match cs.dropWhile (· ≠ '>') with
  | [] => none
  | _ :: after => some (cs.takeWhile (· ≠ '>'), after)

/-- The source, target and ratio of a key's text. -/
def segments? (s : String) : Option (String × String × String) := do
  let cs := s.toList
  if cs.getLast? ≠ some '/' then none
  let (pair, ratio) ← splitLast? cs.dropLast
  let (source, target) ← splitPair? pair
  return (String.ofList source, String.ofList target, String.ofList ratio)

def readAsset (s : String) : Except StoreError Asset :=
  match Asset.read? s with
  | .ok a => .ok a
  | .error e => .error (.input e)

def read? (s : String) : Except StoreError LimitKey :=
  match segments? s with
  | none => .error (.malformed (.limitKey s))
  | some (source, target, ratio) => do
    let source ← readAsset source
    let target ← readAsset target
    let ratio ← Ratio.read? ratio
    return ⟨⟨source, target⟩, ratio⟩

end LimitKey

end PoolExchange
