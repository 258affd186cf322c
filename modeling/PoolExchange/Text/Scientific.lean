import PoolExchange.Text.Numeral

/-!
# Text — decimal fractions and their double-precision values

A decimal fraction is `±mantissa * 10^exponent`.  Its text has a sign, digits around an optional
point, with at least one digit, and an optional exponent.  A `RealText` is such a fraction or one
of the words for infinity and for no number.
-/

namespace PoolExchange.Text

/-- The number `mantissa * 10 ^ exponent`, or its negative. -/
structure Scientific where
  negative : Bool
  mantissa : Nat
  exponent : Int
deriving DecidableEq, Repr

/-- A sign, and what follows it. -/
def takeSign : List Char → Bool × List Char
  | '-' :: rest => (true, rest)
  | '+' :: rest => (false, rest)
  | rest => (false, rest)

/-- The exponent part of a decimal fraction, zero if it is not there. -/
def exponentPart? : List Char → Option Int
  | [] => some 0
  | e :: rest =>
    if e = 'e' || e = 'E' then
      let (negative, ds) := takeSign rest
      (numeral? ds).map fun n => if negative then -(n : Int) else n
    else none

/-- Splits off the point and the digits after it. -/
def pointPart : List Char → List Char × List Char
  | '.' :: rest => (rest.takeWhile Char.isDigit, rest.dropWhile Char.isDigit)
  | rest => ([], rest)

def scientific? (s : String) : Option Scientific :=
  let (negative, cs) := takeSign s.toList
  let whole := cs.takeWhile Char.isDigit
  let (places, rest) := pointPart (cs.dropWhile Char.isDigit)
  if whole.isEmpty && places.isEmpty then none
  else
    (exponentPart? rest).map fun e =>
      ⟨negative, Nat.ofDigitChars 10 (whole ++ places) 0, e - places.length⟩

/-- Exponents beyond these cannot change the double that a fraction with `digits` digits
rounds to. -/
def clampExponent (digits : Nat) (e : Int) : Int :=
  max (-(400 + digits : Int)) (min e 400)

/-- The nearest double. -/
def Scientific.toFloat (x : Scientific) : Float :=
  let e := clampExponent (Nat.toDigits 10 x.mantissa).length x.exponent
  let f := Float.ofScientific x.mantissa (e < 0) e.natAbs
  if x.negative then -f else f

def isFiniteDouble (x : Scientific) : Bool := x.toFloat.isFinite

/-- A real number as it is written. -/
inductive RealText
  | finite (x : Scientific)
  | infinite (negative : Bool)
  | nan
deriving DecidableEq, Repr

namespace RealText

/-- Reads a fraction, or a word for infinity or for no number in any case, with a sign. -/
def read? (s : String) : Option RealText :=
  let (negative, cs) := takeSign s.toList
  let word := lower (String.ofList cs)
  if word = "inf" || word = "infinity" then some (.infinite negative)
  else if word = "nan" then some .nan
  else finite <$> scientific? s

def toFloat : RealText → Float
  | finite x => x.toFloat
  | infinite negative => if negative then -(1.0 / 0.0) else 1.0 / 0.0
  | nan => 0.0 / 0.0

/-- The nearest number of 64 bits, halves away from zero; no number counts as zero. -/
def toWord (x : RealText) : Nat := x.toFloat.round.toUInt64.toNat

def isNonzero (x : RealText) : Bool := x.toFloat != 0.0

end RealText

end PoolExchange.Text
