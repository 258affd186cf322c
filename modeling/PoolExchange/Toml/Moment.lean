import PoolExchange.Text.Numeral
import PoolExchange.Toml

/-!
# Toml — moments

A moment is a date, a time, or both.  `T`, `t` or a space divides a date from its time, and an
offset from universal time may follow the two.  A minute may have a leap second.

A table whose first key is `momentKey` stands for the moment that the value of that key spells.
`resolve?` puts the moments in the places of such tables.
-/

namespace PoolExchange.Toml

/-! ### Dates and times -/

/-- A number of exactly so many digits, and what follows. -/
def fixedDigits? (n : Nat) (cs : List Char) : Option (Nat × List Char) :=
  let ds := cs.take n
  if ds.length = n && Text.allDigits ds then some (Nat.ofDigitChars 10 ds 0, cs.drop n) else none

/-- The given character, and what follows. -/
def expect? (c : Char) : List Char → Option (List Char)
  | [] => none
  | d :: rest => if c = d then some rest else none

def isLeapYear (y : Nat) : Bool := (y % 4 == 0 && y % 100 != 0) || y % 400 == 0

def daysIn (year month : Nat) : Nat :=
  if month = 2 then (if isLeapYear year then 29 else 28)
  else if month = 4 || month = 6 || month = 9 || month = 11 then 30
  else 31

/-- A date, and what follows. -/
def takeDate? (cs : List Char) : Option (List Char) := do
  let (y, cs) ← fixedDigits? 4 cs
  let cs ← expect? '-' cs
  let (m, cs) ← fixedDigits? 2 cs
  let cs ← expect? '-' cs
  let (d, cs) ← fixedDigits? 2 cs
  if 1 ≤ m && m ≤ 12 && 1 ≤ d && d ≤ daysIn y m then some cs else none

/-- The fraction of a second, if it is there, and what follows. -/
def takeFraction? : List Char → Option (List Char)
  | '.' :: rest =>
    if (rest.takeWhile Char.isDigit).isEmpty then none else some (rest.dropWhile Char.isDigit)
  | cs => some cs

/-- A time of day, and what follows. -/
def takeTime? (cs : List Char) : Option (List Char) := do
  let (h, cs) ← fixedDigits? 2 cs
  let cs ← expect? ':' cs
  let (m, cs) ← fixedDigits? 2 cs
  let cs ← expect? ':' cs
  let (s, cs) ← fixedDigits? 2 cs
  if h ≤ 23 && m ≤ 59 && s ≤ 60 then takeFraction? cs else none

/-- The hours and minutes of an offset, and what follows. -/
def takeOffset? (cs : List Char) : Option (List Char) := do
  let (h, cs) ← fixedDigits? 2 cs
  let cs ← expect? ':' cs
  let (m, cs) ← fixedDigits? 2 cs
  if h ≤ 23 && m ≤ 59 then some cs else none

/-- Nothing, or an offset from universal time. -/
def isOffset : List Char → Bool
  | [] => true
  | ['Z'] => true
  | ['z'] => true
  | sign :: cs => (sign = '+' || sign = '-') && takeOffset? cs == some []

def isDivider (c : Char) : Bool := c = 'T' || c = 't' || c = ' '

def isMoment (cs : List Char) : Bool :=
  match takeDate? cs with
  | none => takeTime? cs == some []
  | some [] => true
  | some (c :: rest) => isDivider c && (takeTime? rest).any isOffset

def isDate (cs : List Char) : Bool := takeDate? cs == some []

/-! ### Tables that stand for moments -/

/-- The key by which a table stands for a moment. -/
def momentKey : String := "$__toml_private_datetime"

def standsForMoment (ms : Members) : Bool := ms.head?.any fun m => m.1 == momentKey

/-- The moment that the first of the members spells. -/
def spelledMoment? : Members → Option Toml
  | (_, .text s) :: _ => if isMoment s.toList then some (.moment s) else none
  | _ => none

mutual
/-- The value with moments in the places of the tables that stand for them, if each of these
spells one. -/
def resolve? : Toml → Option Toml
  | .array items => .array <$> resolveItems? items
  | .table origin members =>
    if standsForMoment members then spelledMoment? members
    else .table origin <$> resolveMembers? members
  | .tables items => .array <$> resolveTables? items
  | t => some t

def resolveItems? : List Toml → Option (List Toml)
  | [] => some []
  | t :: rest => do return (← resolve? t) :: (← resolveItems? rest)

def resolveMembers? : List (String × Toml) → Option (List (String × Toml))
  | [] => some []
  | (key, t) :: rest => do return (key, ← resolve? t) :: (← resolveMembers? rest)

def resolveTables? : List (List (String × Toml)) → Option (List Toml)
  | [] => some []
  | ms :: rest => do
    let t ← if standsForMoment ms then spelledMoment? ms
      else .table .header <$> resolveMembers? ms
    return t :: (← resolveTables? rest)
end

end PoolExchange.Toml
