import PoolExchange.Text.Numeral
import PoolExchange.Word

/-!
# Json — values and their compact text

A number is kept as an integer when it has neither a fraction nor an exponent and fits 64 bits,
signed or not; every other number is kept as it is written (`real`).  An object is the list of its
members as they stand, so that a member given twice can be told.  A string that is no text,
because it holds one half of a surrogate pair, is `unpaired`, and so is an object in which it is a
name.

The compact text has no blanks; a string escapes the quote, the backslash and the control
characters, the latter by their short names where they have one.
-/

namespace PoolExchange

inductive Json
  | null
  | bool (b : Bool)
  | number (n : Int)
  | real (literal : String)
  | text (s : String)
  | unpaired
  | array (items : List Json)
  | object (members : List (String × Json))
deriving Inhabited, Repr

namespace Json

def nat (n : Nat) : Json := .number n

/-! ### Printing -/

/-- The short names of control characters, and the other escapes. -/
def escapeChar (c : Char) : List Char :=
  if c = '"' then ['\\', '"']
  else if c = '\\' then ['\\', '\\']
  else if c = '\n' then ['\\', 'n']
  else if c = '\r' then ['\\', 'r']
  else if c = '\t' then ['\\', 't']
  else if c.toNat = 8 then ['\\', 'b']
  else if c.toNat = 12 then ['\\', 'f']
  else if c.toNat < 32 then
    ['\\', 'u', '0', '0', (c.toNat / 16).digitChar, (c.toNat % 16).digitChar]
  else [c]

def quote (s : String) : List Char :=
  '"' :: s.toList.flatMap escapeChar ++ ['"']

def integer (n : Int) : List Char :=
  match n with
  | .ofNat n => Nat.toDigits 10 n
  | .negSucc n => '-' :: Nat.toDigits 10 (n + 1)

mutual
def print : Json → List Char
  | null => ['n', 'u', 'l', 'l']
  | bool true => ['t', 'r', 'u', 'e']
  | bool false => ['f', 'a', 'l', 's', 'e']
  | number n => integer n
  | real literal => literal.toList
  | text s => quote s
  | unpaired => quote ""
  | array items => '[' :: printItems items ++ [']']
  | object members => '{' :: printMembers members ++ ['}']

/-- The items with commas between them. -/
def printItems : List Json → List Char
  | [] => []
  | [j] => j.print
  | j :: rest => j.print ++ ',' :: printItems rest

/-- The members with commas between them. -/
def printMembers : List (String × Json) → List Char
  | [] => []
  | [(k, j)] => quote k ++ ':' :: j.print
  | (k, j) :: rest => quote k ++ ':' :: (j.print ++ ',' :: printMembers rest)
end

/-- The compact text. -/
def compact (j : Json) : String := String.ofList j.print

/-! ### Depth -/

mutual
/-- The number of arrays and objects around the innermost value. -/
def depth : Json → Nat
  | array items => itemDepth items + 1
  | object members => memberDepth members + 1
  | _ => 0

def itemDepth : List Json → Nat
  | [] => 0
  | j :: rest => max j.depth (itemDepth rest)

def memberDepth : List (String × Json) → Nat
  | [] => 0
  | (_, j) :: rest => max j.depth (memberDepth rest)
end

mutual
/-- Every string in the value is a text, and every number is one that the predicate accepts. -/
def isSound (accepts : String → Bool) : Json → Bool
  | unpaired => false
  | real literal => accepts literal
  | array items => soundItems accepts items
  | object members => soundMembers accepts members
  | _ => true

def soundItems (accepts : String → Bool) : List Json → Bool
  | [] => true
  | j :: rest => j.isSound accepts && soundItems accepts rest

def soundMembers (accepts : String → Bool) : List (String × Json) → Bool
  | [] => true
  | (_, j) :: rest => j.isSound accepts && soundMembers accepts rest
end

/-- The last member of that name. -/
def member? (j : Json) (name : String) : Option Json :=
  match j with
  | object members => members.reverse.lookup name
  | _ => none

/-! ### Order -/

/-- Puts a member before the first one of a later name. -/
def insertMember (m : String × Json) : List (String × Json) → List (String × Json)
  | [] => [m]
  | n :: rest => if m.1 < n.1 then m :: n :: rest else n :: insertMember m rest

mutual
/-- The value with the members of its objects in the order of their names; of those with one name
the last one stays. -/
def canonical : Json → Json
  | array items => array (canonicalItems items)
  | object members => object (canonicalMembers members)
  | j => j

def canonicalItems : List Json → List Json
  | [] => []
  | j :: rest => j.canonical :: canonicalItems rest

def canonicalMembers : List (String × Json) → List (String × Json)
  | [] => []
  | (k, j) :: rest =>
    let rest' := canonicalMembers rest
    if rest'.any fun m => m.1 == k then rest' else insertMember (k, j.canonical) rest'
end

end Json

end PoolExchange
