import PoolExchange.Json
import PoolExchange.Text.Scientific

/-!
# Json — numbers

A number is a whole part, an optional fraction and an optional exponent.  It is an integer when it
has neither of the latter two and fits 64 bits, signed or not; every other number is a real.

A real is taken to double precision in two steps.  Its *significand* is made of as many leading
digits as fit 64 bits, and its *scale* is the power of ten that makes up for the point, the
exponent and the whole digits left out.  It is in range when the significand, rounded to a double,
can be multiplied by that power without overflow (`isInRange`); a small scale never overflows.
-/

namespace PoolExchange.Json

/-! ### Reading -/

/-- A non-empty run of digits, and what follows. -/
def digits? (cs : List Char) : Option (List Char × List Char) :=
  let ds := cs.takeWhile Char.isDigit
  if ds.isEmpty then none else some (ds, cs.dropWhile Char.isDigit)

/-- The digits before the point: one zero, or a run that starts with no zero. -/
def whole? : List Char → Option (List Char × List Char)
  | '0' :: rest => some (['0'], rest)
  | cs => digits? cs

/-- The point and the digits after it, if they are there. -/
def fraction? : List Char → Option (List Char × List Char)
  | '.' :: rest => (fun r => ('.' :: r.1, r.2)) <$> digits? rest
  | cs => some ([], cs)

/-- The exponent, if it is there. -/
def exponent? : List Char → Option (List Char × List Char)
  | e :: rest =>
    if e = 'e' || e = 'E' then
      match rest with
      | s :: rest' =>
        if s = '+' || s = '-' then (fun r => (e :: s :: r.1, r.2)) <$> digits? rest'
        else (fun r => (e :: r.1, r.2)) <$> digits? rest
      | [] => none
    else some ([], e :: rest)
  | [] => some ([], [])

/-- An integer of 64 bits, signed or not; minus zero is none. -/
def wordInteger? (negative : Bool) (n : Nat) : Option Int :=
  if negative then if 0 < n && n ≤ wordBound 63 then some (-n) else none
  else if n < wordBound 64 then some n else none

def readNumber (cs : List Char) : Option (Json × List Char) := do
  let negative := cs.head? == some '-'
  let (w, rest) ← whole? (if negative then cs.drop 1 else cs)
  let (f, rest) ← fraction? rest
  let (e, rest) ← exponent? rest
  let literal := (if negative then ['-'] else []) ++ w ++ f ++ e
  let asReal := Json.real (String.ofList literal)
  if f.isEmpty && e.isEmpty then
    match wordInteger? negative (Nat.ofDigitChars 10 w 0) with
    | some n => return (.number n, rest)
    | none => return (asReal, rest)
  else return (asReal, rest)

/-! ### The range of reals -/

/-- Appends digits to a number for as long as it fits 64 bits; the digits left over come with
it. -/
def appendDigits (n : Nat) : List Char → Nat × List Char
  | [] => (n, [])
  | d :: ds =>
    let m := Nat.ofDigitChars 10 [d] n
    if m < wordBound 64 then appendDigits m ds else (n, d :: ds)

/-- The significand of a real and its scale, from its digits before and after the point and its
exponent. -/
def scaled (whole places : List Char) (exponent : Int) : Nat × Int :=
  let (n, wholeLeft) := appendDigits 0 whole
  let (n, placesLeft) := appendDigits n places
  (n, exponent + wholeLeft.length - (places.length - placesLeft.length : Nat))

/-- The largest power of ten that is a double. -/
def maxScale : Nat := 308

/-- A number of 64 bits times ten to the given power is finite in double precision. -/
def isFiniteScaled (significand : Nat) (scale : Int) : Bool :=
  significand = 0 || scale < 0 ||
    (scale ≤ maxScale &&
      (Float.ofNat significand * Float.ofScientific 1 false scale.toNat).isFinite)

/-- The literal of a real is within the range of double precision. -/
def isInRange (literal : String) : Bool :=
  let (_, cs) := Text.takeSign literal.toList
  let whole := cs.takeWhile Char.isDigit
  let (places, rest) := Text.pointPart (cs.dropWhile Char.isDigit)
  (Text.exponentPart? rest).any fun e =>
    let (significand, scale) := scaled whole places e
    isFiniteScaled significand scale

end PoolExchange.Json
