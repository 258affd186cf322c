import PoolExchange.Fixed

/-!
# Decimal — decimals of limited precision, for display

A `Decimal` is `mantissa * 10⁻ˢᶜᵃˡᵉ` with a mantissa of 96 bits and at most 28 places.  Reading
keeps as many places as the mantissa holds: the first digit that does not fit is rounded half up
and the rest is dropped; trailing zeros that fit are kept.  A whole part that does not fit has no
decimal.
-/

namespace PoolExchange

/-- A number of limited precision. -/
structure Decimal where
  mantissa : Nat
  scale : Nat
deriving DecidableEq, Repr

namespace Decimal

def mantissaBits : Nat := 96

def maxScale : Nat := 28

/-- Adds one in the last place if `digit` rounds up. A mantissa that grows out of its bits gives
up one place, and there is no decimal if it has none to give. -/
def roundAt (d : Decimal) (digit : Nat) : Option Decimal :=
  if digit < 5 then some d
  else if d.mantissa + 1 < wordBound mantissaBits then some { d with mantissa := d.mantissa + 1 }
  else if d.scale = 0 then none
  else some ⟨(d.mantissa + 1 + 4) / 10, d.scale - 1⟩

/-- Appends places as long as they fit. -/
def addPlaces (d : Decimal) : List Nat → Option Decimal
  | [] => some d
  | digit :: rest =>
    let next := d.mantissa * 10 + digit
    if next < wordBound mantissaBits ∧ d.scale < maxScale then
      addPlaces ⟨next, d.scale + 1⟩ rest
    else d.roundAt digit

/-- The decimal with the given whole part and digits after the point. -/
def ofDigits? (whole : Nat) (places : List Nat) : Option Decimal :=
  if whole < wordBound mantissaBits then addPlaces ⟨whole, 0⟩ places else none

def text (d : Decimal) : String :=
  let digits := Text.padded (d.scale + 1) d.mantissa
  let cut := digits.length - d.scale
  let places := digits.drop cut
  String.ofList (digits.take cut ++ (if places.isEmpty then [] else '.' :: places))

end Decimal

/-- The amount as a decimal, if its digits fit. -/
def Amount.toDecimal? (a : Amount) : Option Decimal :=
  Decimal.ofDigits? a.toNat []

/-- The digits of the places of `f`, and as many of them as fit a decimal. -/
def Fixed.toDecimal? (f : Fixed) : Option Decimal :=
  let fraction := f.raw - f.truncate * Fixed.scale
  Decimal.ofDigits? f.truncate.toNat
    ((Text.padded Fixed.places fraction.toNat).map fun c => c.toNat - '0'.toNat)

end PoolExchange
