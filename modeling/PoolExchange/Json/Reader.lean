import PoolExchange.Json.Number

/-!
# Json — reading a text

`Json.read? s` is the value that `s` denotes, or nothing when `s` is no JSON text.  Blanks are
space, tab, line feed and carriage return, and may stand around every token.

A string is read in two steps: its characters and escapes become *units*, and the units become
text by joining surrogate pairs.
-/

namespace PoolExchange.Json

def isSpace (c : Char) : Bool :=
  c = ' ' || c = '\n' || c = '\t' || c = '\r'

def skip (cs : List Char) : List Char := cs.dropWhile isSpace

/-! ### Strings -/

/-- A character as it stands, or the code that an escape gives. -/
inductive StringUnit
  | char (c : Char)
  | code (n : Nat)
deriving DecidableEq, Repr

def hexValue? (c : Char) : Option Nat :=
  if c.isDigit then some (c.toNat - '0'.toNat)
  else if 'a' ≤ c && c ≤ 'f' then some (c.toNat - 'a'.toNat + 10)
  else if 'A' ≤ c && c ≤ 'F' then some (c.toNat - 'A'.toNat + 10)
  else none

/-- The number that the hex digits denote. -/
def hexNumber? (cs : List Char) : Option Nat :=
  cs.foldlM (fun n c => (hexValue? c).map (16 * n + ·)) 0

/-- The character that a one-letter escape stands for. -/
def escape? : Char → Option Char
  | '"' => some '"'
  | '\\' => some '\\'
  | '/' => some '/'
  | 'b' => some (Char.ofNat 8)
  | 'f' => some (Char.ofNat 12)
  | 'n' => some '\n'
  | 'r' => some '\r'
  | 't' => some '\t'
  | _ => none

/-- The units up to the closing quote, and what follows it. -/
def units? : List Char → Option (List StringUnit × List Char)
  | [] => none
  | '"' :: rest => some ([], rest)
  | '\\' :: 'u' :: a :: b :: c :: d :: rest => do
    let n ← hexNumber? [a, b, c, d]
    let (us, rest) ← units? rest
    return (.code n :: us, rest)
  | '\\' :: e :: rest => do
    let c ← escape? e
    let (us, rest) ← units? rest
    return (.char c :: us, rest)
  | c :: rest =>
    if c.toNat < 32 then none
    else do
      let (us, rest) ← units? rest
      return (.char c :: us, rest)

def isHigh (n : Nat) : Bool := 0xD800 ≤ n && n ≤ 0xDBFF

def isLow (n : Nat) : Bool := 0xDC00 ≤ n && n ≤ 0xDFFF

/-- The text of the units, if every surrogate is one of a pair. -/
def join? : List StringUnit → Option (List Char)
  | [] => some []
  | .char c :: rest => (c :: ·) <$> join? rest
  | .code n :: .code m :: rest =>
    if isHigh n && isLow m then
      (Char.ofNat (0x10000 + (n - 0xD800) * 0x400 + (m - 0xDC00)) :: ·) <$> join? rest
    else if isHigh n || isLow n then none
    else (Char.ofNat n :: ·) <$> join? (.code m :: rest)
  | .code n :: rest =>
    if isHigh n || isLow n then none else (Char.ofNat n :: ·) <$> join? rest

/-- The string after its opening quote. -/
def readString (cs : List Char) : Option (Json × List Char) := do
  let (us, rest) ← units? cs
  match join? us with
  | some s => return (.text (String.ofList s), rest)
  | none => return (.unpaired, rest)

/-! ### Values -/

def stripPrefix? : List Char → List Char → Option (List Char)
  | [], cs => some cs
  | p :: ps, c :: cs => if p = c then stripPrefix? ps cs else none
  | _ :: _, [] => none

/-- A name of a member, if it is a text, with its colon. -/
def readName (cs : List Char) : Option (Option String × List Char) :=
  match skip cs with
  | '"' :: rest => do
    let (us, rest) ← units? rest
    match skip rest with
    | ':' :: rest => return (String.ofList <$> join? us, rest)
    | _ => none
  | _ => none

/-- The object with the given members, if all their names are texts. -/
def objectOf : Option (List (String × Json)) → Json
  | some members => object members
  | none => unpaired

mutual
/-- A value of at most `fuel` nested steps, and what follows it. -/
def readValue : Nat → List Char → Option (Json × List Char)
  | 0, _ => none
  | fuel + 1, cs =>
    match skip cs with
    | 'n' :: rest => (Json.null, ·) <$> stripPrefix? ['u', 'l', 'l'] rest
    | 't' :: rest => (Json.bool true, ·) <$> stripPrefix? ['r', 'u', 'e'] rest
    | 'f' :: rest => (Json.bool false, ·) <$> stripPrefix? ['a', 'l', 's', 'e'] rest
    | '"' :: rest => readString rest
    | '[' :: rest =>
      match skip rest with
      | ']' :: rest => some (.array [], rest)
      | rest => (fun r => (.array r.1, r.2)) <$> readItems fuel rest
    | '{' :: rest =>
      match skip rest with
      | '}' :: rest => some (.object [], rest)
      | rest => (fun r => (objectOf r.1, r.2)) <$> readMembers fuel rest
    | rest => readNumber rest

/-- Items up to the closing bracket. -/
def readItems : Nat → List Char → Option (List Json × List Char)
  | 0, _ => none
  | fuel + 1, cs => do
    let (j, rest) ← readValue fuel cs
    match skip rest with
    | ',' :: rest => (fun r => (j :: r.1, r.2)) <$> readItems fuel rest
    | ']' :: rest => return ([j], rest)
    | _ => none

/-- Members up to the closing brace, if all their names are texts. -/
def readMembers : Nat → List Char → Option (Option (List (String × Json)) × List Char)
  | 0, _ => none
  | fuel + 1, cs => do
    let (name, rest) ← readName cs
    let (j, rest) ← readValue fuel rest
    let member := name.map fun n => (n, j)
    match skip rest with
    | ',' :: rest =>
      (fun r => (member.bind fun m => r.1.map (m :: ·), r.2)) <$> readMembers fuel rest
    | '}' :: rest => return (member.map fun m => [m], rest)
    | _ => none
end

/-- The value that the text denotes. -/
def read? (s : String) : Option Json := do
  let cs := s.toList
  let (j, rest) ← readValue (2 * cs.length + 2) cs
  if (skip rest).isEmpty then some j else none

/-- A value that can be kept as a whole: not too deep, every string a text, and every number
within the range of double precision. -/
def isKeepable (j : Json) : Bool :=
  j.depth < 128 && j.isSound isInRange

end PoolExchange.Json
