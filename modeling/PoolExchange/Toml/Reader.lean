import PoolExchange.Toml.Scalar

/-!
# Toml — reading a document

A document is a sequence of lines; each holds a statement, a comment, both or nothing.  Strings
come in four forms: with escapes or without, on one line or on many.  A string on many lines drops
a line break right after its opening, and one with escapes also drops a line break after a
backslash, with all blanks that follow.

Neither the parts of a key nor the brackets around a value may be as many as `nestingLimit`.
-/

namespace PoolExchange.Toml

def nestingLimit : Nat := 80

def isWs (c : Char) : Bool := c = ' ' || c = '\t'

def skipWs (cs : List Char) : List Char := cs.dropWhile isWs

/-- A character that may stand in a comment or in a literal string. -/
def isPrintable (c : Char) : Bool := c = '\t' || (32 ≤ c.toNat && c.toNat ≠ 127)

/-- What follows a line break, if there is one. -/
def newline? : List Char → Option (List Char)
  | '\n' :: rest => some rest
  | '\r' :: '\n' :: rest => some rest
  | _ => none

def skipComment : List Char → List Char
  | '#' :: rest => rest.dropWhile isPrintable
  | cs => cs

/-- What follows the end of a line: blanks, a comment, and a line break or the end. -/
def endLine? (cs : List Char) : Option (List Char) :=
  match skipComment (skipWs cs) with
  | [] => some []
  | cs => newline? cs

/-- Drops blanks, comments and line breaks. -/
def skipLines : Nat → List Char → List Char
  | 0, cs => cs
  | fuel + 1, cs =>
    let rest := skipComment (skipWs cs)
    match newline? rest with
    | some rest => skipLines fuel rest
    | none => rest

/-! ### Strings -/

/-- The character of a short escape. -/
def shortEscape? : Char → Option Char
  | 'b' => some (Char.ofNat 8)
  | 't' => some '\t'
  | 'n' => some '\n'
  | 'f' => some (Char.ofNat 12)
  | 'r' => some '\r'
  | '"' => some '"'
  | '\\' => some '\\'
  | _ => none

/-- The character with a code of so many hex digits, and what follows. -/
def takeCode? (digits : Nat) (cs : List Char) : Option (Char × List Char) :=
  let ds := cs.take digits
  if ds.length = digits && ds.all (isDigitOf 16) then
    let n := ds.foldl (fun n c => 16 * n + digitValue c) 0
    if n.isValidChar then some (Char.ofNat n, cs.drop digits) else none
  else none

/-- The character of an escape after its backslash, and what follows. -/
def takeEscape? : List Char → Option (Char × List Char)
  | 'u' :: rest => takeCode? 4 rest
  | 'U' :: rest => takeCode? 8 rest
  | c :: rest => (·, rest) <$> shortEscape? c
  | [] => none

/-- A string with escapes, on one line, after its quote. -/
def takeBasic? : Nat → List Char → Option (List Char × List Char)
  | 0, _ => none
  | _ + 1, [] => none
  | _ + 1, '"' :: rest => some ([], rest)
  | fuel + 1, '\\' :: rest => do
    let (c, rest) ← takeEscape? rest
    let (s, rest) ← takeBasic? fuel rest
    return (c :: s, rest)
  | fuel + 1, c :: rest =>
    if isPrintable c then do
      let (s, rest) ← takeBasic? fuel rest
      return (c :: s, rest)
    else none

/-- A string without escapes, on one line, after its quote. -/
def takeLiteral? (cs : List Char) : Option (List Char × List Char) :=
  let body := cs.takeWhile fun c => isPrintable c && c ≠ '\''
  match cs.dropWhile fun c => isPrintable c && c ≠ '\'' with
  | '\'' :: rest => some (body, rest)
  | _ => none

/-- The quotes that end a string on many lines: the last three close it, and up to two before
them belong to it. -/
def closing? (q : Char) : List Char → Option (List Char × List Char)
  | a :: b :: c :: rest =>
    if a = q && b = q && c = q then
      match rest with
      | d :: e :: more =>
        if d = q && e = q then some ([q, q], more)
        else if d = q then some ([q], e :: more)
        else some ([], rest)
      | [d] => if d = q then some ([q], []) else some ([], rest)
      | [] => some ([], [])
    else none
  | _ => none

/-- Drops blanks and line breaks. -/
def skipBreaks : Nat → List Char → List Char
  | 0, cs => cs
  | fuel + 1, cs =>
    match newline? (skipWs cs) with
    | some rest => skipBreaks fuel rest
    | none => skipWs cs

/-- A string on many lines after its opening quotes. -/
def takeLong? (q : Char) (escapes : Bool) : Nat → List Char → Option (List Char × List Char)
  | 0, _ => none
  | fuel + 1, cs =>
    match closing? q cs with
    | some r => some r
    | none =>
      match newline? cs with
      | some rest => do
        let (s, rest) ← takeLong? q escapes fuel rest
        return ('\n' :: s, rest)
      | none =>
        match cs with
        | [] => none
        | c :: rest =>
          if escapes && c = '\\' then
            match newline? (skipWs rest) with
            | some rest => takeLong? q escapes fuel (skipBreaks rest.length rest)
            | none => do
              let (c, rest) ← takeEscape? rest
              let (s, rest) ← takeLong? q escapes fuel rest
              return (c :: s, rest)
          else if isPrintable c then do
            let (s, rest) ← takeLong? q escapes fuel rest
            return (c :: s, rest)
          else none

/-- Drops the line break right after the opening quotes. -/
def dropBreak (cs : List Char) : List Char := (newline? cs).getD cs

/-- A string of any form, and what follows. -/
def takeString? : List Char → Option (String × List Char)
  | '"' :: '"' :: '"' :: rest =>
    (fun r => (String.ofList r.1, r.2)) <$> takeLong? '"' true (rest.length + 1) (dropBreak rest)
  | '\'' :: '\'' :: '\'' :: rest =>
    (fun r => (String.ofList r.1, r.2)) <$> takeLong? '\'' false (rest.length + 1) (dropBreak rest)
  | '"' :: rest => (fun r => (String.ofList r.1, r.2)) <$> takeBasic? (rest.length + 1) rest
  | '\'' :: rest => (fun r => (String.ofList r.1, r.2)) <$> takeLiteral? rest
  | _ => none

/-! ### Keys -/

def isKeyChar (c : Char) : Bool := c.isAlphanum || c = '_' || c = '-'

/-- One part of a key, and what follows. -/
def takeSimpleKey? : List Char → Option (String × List Char)
  | '"' :: rest => (fun r => (String.ofList r.1, r.2)) <$> takeBasic? (rest.length + 1) rest
  | '\'' :: rest => (fun r => (String.ofList r.1, r.2)) <$> takeLiteral? rest
  | cs =>
    let key := cs.takeWhile isKeyChar
    if key.isEmpty then none else some (String.ofList key, cs.dropWhile isKeyChar)

/-- The parts of a key, and what follows them and their blanks. -/
def takeParts? : Nat → List Char → Option (List String × List Char)
  | 0, _ => none
  | fuel + 1, cs => do
    let (part, rest) ← takeSimpleKey? (skipWs cs)
    match skipWs rest with
    | '.' :: rest => (fun r => (part :: r.1, r.2)) <$> takeParts? fuel rest
    | rest => return ([part], rest)

/-- A key, and what follows it and its blanks. -/
def takeKey? (cs : List Char) : Option (List String × List Char) :=
  (takeParts? (cs.length + 1) cs).filter fun r => r.1.length < nestingLimit

/-- A key with its equals sign, and what follows. -/
def takeAssigned? (cs : List Char) : Option (List String × List Char) := do
  let (key, rest) ← takeKey? cs
  return (key, ← expect? '=' rest)

/-! ### Values -/

mutual
/-- A value, and what follows. -/
def takeValue? : Nat → List Char → Option (Toml × List Char)
  | 0, _ => none
  | fuel + 1, cs =>
    match skipWs cs with
    | '"' :: rest => (fun r => (.text r.1, r.2)) <$> takeString? ('"' :: rest)
    | '\'' :: rest => (fun r => (.text r.1, r.2)) <$> takeString? ('\'' :: rest)
    | '[' :: rest => (fun r => (.array r.1, r.2)) <$> takeItems? fuel rest
    | '{' :: rest =>
      match skipWs rest with
      | '}' :: rest => some (.table .value [], rest)
      | rest => (fun r => (.table .value r.1, r.2)) <$> takePairs? fuel [] rest
    | rest => takeScalar? rest

/-- The items of an array up to its closing bracket. -/
def takeItems? : Nat → List Char → Option (List Toml × List Char)
  | 0, _ => none
  | fuel + 1, cs =>
    match skipLines (cs.length + 1) cs with
    | ']' :: rest => some ([], rest)
    | rest => do
      let (v, rest) ← takeValue? fuel rest
      match skipLines (rest.length + 1) rest with
      | ',' :: rest => (fun r => (v :: r.1, r.2)) <$> takeItems? fuel rest
      | ']' :: rest => return ([v], rest)
      | _ => none

/-- The assignments of a table up to its closing brace, added to those before. -/
def takePairs? : Nat → Members → List Char → Option (Members × List Char)
  | 0, _, _ => none
  | fuel + 1, ms, cs => do
    let (key, rest) ← takeAssigned? cs
    let (v, rest) ← takeValue? fuel rest
    let ms ← assignDotted? v key ms
    match skipWs rest with
    | ',' :: rest => takePairs? fuel ms rest
    | '}' :: rest => return (ms, rest)
    | _ => none
end

/-! ### Documents -/

/-- A statement, and what follows. -/
def takeStatement? (cs : List Char) : Option (Statement × List Char) :=
  match cs with
  | '[' :: '[' :: rest => do
    let (path, rest) ← takeKey? rest
    match rest with
    | ']' :: ']' :: rest => return (.arrayHeader path, rest)
    | _ => none
  | '[' :: rest => do
    let (path, rest) ← takeKey? rest
    return (.header path, ← expect? ']' rest)
  | _ => do
    let (key, rest) ← takeAssigned? cs
    let (v, rest) ← takeValue? (2 * rest.length + 2) rest
    if v.nesting < nestingLimit then some (.assignment key v, rest) else none

/-- The statements of a document. -/
def takeStatements? : Nat → List Char → Option (List Statement)
  | 0, _ => none
  | fuel + 1, cs =>
    match skipWs cs with
    | [] => some []
    | cs =>
      match endLine? cs with
      | some rest => takeStatements? fuel rest
      | none => do
        let (s, rest) ← takeStatement? cs
        let rest ← endLine? rest
        return s :: (← takeStatements? fuel rest)

/-- Drops the mark that may stand at the start of a text. -/
def dropMark (cs : List Char) : List Char :=
  match cs with
  | c :: rest => if c.toNat = 0xFEFF then rest else cs
  | [] => []

/-- The table that a document denotes. -/
def read? (s : String) : Option Toml :=
  let cs := dropMark s.toList
  (takeStatements? (cs.length + 1) cs).bind ofStatements?

end PoolExchange.Toml
