import PoolExchange.Text.Scientific
import PoolExchange.Toml.Moment
import PoolExchange.Word

/-!
# Toml — numbers, flags and moments

A plain value is one run of letters, digits and the signs `_ + - . :`.  It is a flag, an integer
of 64 bits (decimal, or with a base in front), a real number, or a moment.  Digits may be grouped
by single underscores, and a decimal number does not begin with a zero that is not its only digit.
Only a moment may hold a space, between its date and its time.
-/

namespace PoolExchange.Toml

def isScalarChar (c : Char) : Bool :=
  c.isAlphanum || c = '_' || c = '+' || c = '-' || c = '.' || c = ':'

/-! ### Numbers -/

/-- The digits of a group, without the underscores between them. -/
def ungroup? (isDigit : Char → Bool) : List Char → Option (List Char)
  | [] => none
  | [c] => if isDigit c then some [c] else none
  | c :: '_' :: rest => if isDigit c then (c :: ·) <$> ungroup? isDigit rest else none
  | c :: rest => if isDigit c then (c :: ·) <$> ungroup? isDigit rest else none

def digitValue (c : Char) : Nat :=
  if c.isDigit then c.toNat - '0'.toNat
  else if 'a' ≤ c && c ≤ 'z' then c.toNat - 'a'.toNat + 10
  else c.toNat - 'A'.toNat + 10

def isDigitOf (base : Nat) (c : Char) : Bool :=
  c.isAlphanum && digitValue c < base

/-- The number that grouped digits denote. -/
def groupedNumber? (base : Nat) (cs : List Char) : Option Nat :=
  (ungroup? (isDigitOf base) cs).map fun ds => ds.foldl (fun n c => base * n + digitValue c) 0

/-- Decimal digits without a needless zero in front. -/
def decimal? (cs : List Char) : Option (List Char) := do
  let ds ← ungroup? Char.isDigit cs
  if ds.head? = some '0' && ds.length ≠ 1 then none else some ds

def splitSign (cs : List Char) : Bool × List Char := Text.takeSign cs

def asInt (negative : Bool) (n : Nat) : Int := if negative then -(n : Int) else n

/-- An integer, of any size. -/
def integerOf? : List Char → Option Int
  | '0' :: 'x' :: ds => (groupedNumber? 16 ds).map Int.ofNat
  | '0' :: 'o' :: ds => (groupedNumber? 8 ds).map Int.ofNat
  | '0' :: 'b' :: ds => (groupedNumber? 2 ds).map Int.ofNat
  | cs => do
    let (negative, cs) := splitSign cs
    let ds ← decimal? cs
    return asInt negative (Nat.ofDigitChars 10 ds 0)

/-- The exponent after its letter. -/
def exponentOf? (cs : List Char) : Option Int := do
  let (negative, cs) := splitSign cs
  let ds ← ungroup? Char.isDigit cs
  return asInt negative (Nat.ofDigitChars 10 ds 0)

/-- The places after the point, if there is one. -/
def placesOf? : List Char → Option (List Char)
  | [] => some []
  | '.' :: cs => ungroup? Char.isDigit cs
  | _ => none

def isExponentMark (c : Char) : Bool := c = 'e' || c = 'E'

/-- A real number with a point or an exponent. -/
def realOf? (cs : List Char) : Option Text.RealText := do
  let (negative, cs) := splitSign cs
  if cs = ['i', 'n', 'f'] then some (.infinite negative)
  else if cs = ['n', 'a', 'n'] then some .nan
  else
    let body := cs.takeWhile fun c => !isExponentMark c
    let whole ← decimal? (body.takeWhile (· ≠ '.'))
    let point := body.dropWhile (· ≠ '.')
    let places ← placesOf? point
    let exponent ←
      match cs.dropWhile (fun c => !isExponentMark c) with
      | [] => if point.isEmpty then none else some 0
      | _ :: rest => exponentOf? rest
    let x : Text.Scientific :=
      ⟨negative, Nat.ofDigitChars 10 (whole ++ places) 0, exponent - places.length⟩
    if negative || Text.isFiniteDouble x then some (.finite x) else none

/-! ### Plain values -/

/-- The value that a run of characters denotes. -/
def scalarOf? (cs : List Char) : Option Toml :=
  if cs = ['t', 'r', 'u', 'e'] then some (.flag true)
  else if cs = ['f', 'a', 'l', 's', 'e'] then some (.flag false)
  else if isMoment cs then some (.moment (String.ofList cs))
  else
    match integerOf? cs with
    | some n => if isSigned64 n then some (.integer n) else none
    | none => real <$> realOf? cs

/-- A plain value, and what follows.  A date and a time may be separated by a space. -/
def takeScalar? (cs : List Char) : Option (Toml × List Char) :=
  let run := cs.takeWhile isScalarChar
  let rest := cs.dropWhile isScalarChar
  match rest with
  | ' ' :: c :: more =>
    if isDate run && c.isDigit then
      let moment := run ++ ' ' :: (c :: more).takeWhile isScalarChar
      if isMoment moment then
        some (.moment (String.ofList moment), (c :: more).dropWhile isScalarChar)
      else none
    else (·, rest) <$> scalarOf? run
  | _ => (·, rest) <$> scalarOf? run

end PoolExchange.Toml
