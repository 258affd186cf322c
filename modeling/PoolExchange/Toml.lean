import PoolExchange.Text.Scientific

/-!
# Toml — documents and how they grow

A document is a table.  It grows by statements: a header opens a table, a doubled header adds a
table to an array of tables, and an assignment puts a value into the table that was opened last,
possibly below further tables that its dotted key names.

What may be named again depends on how a table came about (`Origin`).  A table that a header
opened is never opened again; one that stands only in the path of a header may be opened once; one
that dotted keys made grows by dotted keys only, in the section that made it; a table written as a
value never grows.  No key is ever assigned twice.
-/

namespace PoolExchange

namespace Toml

/-- How a table came about. -/
inductive Origin
  /-- A header opened it. -/
  | header
  /-- It stands in the path of a header. -/
  | path
  /-- Dotted keys made it. -/
  | dotted
  /-- It was written as a value. -/
  | value
deriving DecidableEq, Repr

end Toml

inductive Toml
  | text (s : String)
  | integer (n : Int)
  | real (x : Text.RealText)
  | flag (b : Bool)
  /-- A date, a time, or both, as written. -/
  | moment (s : String)
  | array (items : List Toml)
  | table (origin : Toml.Origin) (members : List (String × Toml))
  /-- An array that doubled headers made, with the members of its tables. -/
  | tables (items : List (List (String × Toml)))
deriving Inhabited, Repr

namespace Toml

/-- The members of a table. -/
abbrev Members := List (String × Toml)

mutual
/-- The number of brackets and braces around the innermost value. -/
def nesting : Toml → Nat
  | array items => itemNesting items + 1
  | table .value members => memberNesting members + 1
  | table _ members => memberNesting members
  | _ => 0

def itemNesting : List Toml → Nat
  | [] => 0
  | t :: rest => max t.nesting (itemNesting rest)

def memberNesting : List (String × Toml) → Nat
  | [] => 0
  | (_, t) :: rest => max t.nesting (memberNesting rest)
end

/-- Replaces the value of a key that is there. -/
def replace (ms : Members) (key : String) (v : Toml) : Members :=
  ms.map fun m => if m.1 == key then (key, v) else m

/-- Adds a key that is not there. -/
def assign? (ms : Members) (key : String) (v : Toml) : Option Members :=
  if (ms.lookup key).isSome then none else some (ms ++ [(key, v)])

/-- Changes the last of several things. -/
def changeLast? {α : Type} (f : α → Option α) : List α → Option (List α)
  | [] => none
  | [a] => (fun b => [b]) <$> f a
  | a :: rest => (a :: ·) <$> changeLast? f rest

/-- Walks down the path of a header, making the tables that are missing, and changes the members
found there. -/
def atPath? (f : Members → Option Members) : List String → Members → Option Members
  | [], ms => f ms
  | key :: rest, ms =>
    match ms.lookup key with
    | none => do return ms ++ [(key, .table .path (← atPath? f rest []))]
    | some (.table .value _) => none
    | some (.table origin inner) => do
      return replace ms key (.table origin (← atPath? f rest inner))
    | some (.tables items) => do
      return replace ms key (.tables (← changeLast? (atPath? f rest) items))
    | some _ => none

/-- Walks down a dotted key, making the tables that are missing, and assigns a value there.  The
tables it meets are of dotted keys; one that a header made may only be passed through. -/
def assignDotted? (v : Toml) : List String → Members → Option Members
  | [], _ => none
  | [key], ms => assign? ms key v
  | key :: rest, ms =>
    match ms.lookup key with
    | none => do return ms ++ [(key, .table .dotted (← assignDotted? v rest []))]
    | some (.table .dotted inner) => do
      return replace ms key (.table .dotted (← assignDotted? v rest inner))
    | some (.table .path inner) =>
      if rest.length = 1 then none
      else do return replace ms key (.table .path (← assignDotted? v rest inner))
    | some (.tables items) =>
      if rest.length = 1 then none
      else do
        return replace ms key (.tables (← changeLast? (assignDotted? v rest) items))
    | some _ => none

/-- Opens a table: a new one, or one that stands in a path only and comes last from then on. -/
def openTable? (key : String) (ms : Members) : Option Members :=
  match ms.lookup key with
  | none => some (ms ++ [(key, .table .header [])])
  | some (.table .path inner) =>
    some ((ms.filter fun m => m.1 != key) ++ [(key, .table .header inner)])
  | some _ => none

/-- Adds a table to an array of tables. -/
def addTable? (key : String) (ms : Members) : Option Members :=
  match ms.lookup key with
  | none => some (ms ++ [(key, .tables [[]])])
  | some (.tables items) => some (replace ms key (.tables (items ++ [[]])))
  | some _ => none

/-! ### Statements -/

inductive Statement
  | header (path : List String)
  | arrayHeader (path : List String)
  | assignment (key : List String) (v : Toml)
deriving Inhabited, Repr

/-- A document on its way: its members, and the path of the table that is open. -/
structure Draft where
  members : Members := []
  opened : List String := []

/-- Changes the members at the path of a header whose last key is given to `f`. -/
def atHeader? (f : String → Members → Option Members) (path : List String) (ms : Members) :
    Option Members :=
  match path.getLast? with
  | some key => atPath? (f key) path.dropLast ms
  | none => none

def Draft.add? (d : Draft) : Statement → Option Draft
  | .header path => do return ⟨← atHeader? openTable? path d.members, path⟩
  | .arrayHeader path => do return ⟨← atHeader? addTable? path d.members, path⟩
  | .assignment key v => do
    return ⟨← atPath? (assignDotted? v key) d.opened d.members, d.opened⟩

/-- The table that the statements make. -/
def ofStatements? (ss : List Statement) : Option Toml := do
  let d ← ss.foldlM Draft.add? {}
  return .table .header d.members

end Toml

end PoolExchange
