import PoolExchange.Amount

/-!
# Fixed — decimals with eighteen places

A `Fixed` is an amount counted in units of `10⁻¹⁸`.  `ofAmount?` and `ratio?` fail when the scaled
value does not fit; a ratio keeps eighteen places and drops the rest.  The text always shows all
eighteen places.
-/

namespace PoolExchange

/-- A number with eighteen decimal places. -/
structure Fixed where
  raw : Amount
deriving DecidableEq, Repr

namespace Fixed

def places : Nat := 18

/-- One, in units of the last place. -/
def scale : Amount := 1000000000000000000

def ofAmount? (a : Amount) : Except AmountError Fixed :=
  Fixed.mk <$> a.mul? scale

/-- `num / den` to eighteen places. -/
def ratio? (num den : Amount) : Except AmountError Fixed := do
  let whole ← num.quo? den
  let left ← num.rem? den
  let scaled ← left.mul? scale
  let fraction ← scaled.quo? den
  let units ← whole.mul? scale
  return ⟨← units.add? fraction⟩

/-- The part before the point. -/
def truncate (f : Fixed) : Amount :=
  f.raw / scale

def text (f : Fixed) : String :=
  let fraction := f.raw - f.truncate * scale
  f.truncate.text ++ "." ++ String.ofList (Text.padded places fraction.toNat)

end Fixed

end PoolExchange
