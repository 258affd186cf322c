import PoolExchange.Config.Setting

/-!
# Config — layers of settings

Settings from several sources are laid over each other: each entry of a source is put at the path
that its name spells, and later entries replace earlier ones.  A group put over a group is merged
name by name, and an empty group changes nothing; anything else replaces what is there, and so
does everything that is put at a position of a list.  Putting something below a value that is no
group makes a group of it.  Names are kept in lower case.

A path is a name followed by further names after points and positions in brackets; a name that
spells no path stands for itself.
-/

namespace PoolExchange.Setting

/-! ### Paths -/

/-- A step down from a setting. -/
inductive Step
  | member (name : String)
  | item (position : Int)
deriving DecidableEq, Repr

def isPathChar (c : Char) : Bool := c.isAlphanum || c = '_' || c = '-' || c = ' '

/-- A name of path characters, and what follows. -/
def takeName? (cs : List Char) : Option (String × List Char) :=
  let name := cs.takeWhile isPathChar
  if name.isEmpty then none else some (String.ofList name, cs.dropWhile isPathChar)

/-- Drops spaces and tabs. -/
def dropGap (cs : List Char) : List Char := cs.dropWhile fun c => c = ' ' || c = '\t'

/-- A position with its closing bracket, and what follows. -/
def takePosition? (cs : List Char) : Option (Int × List Char) :=
  let cs := dropGap cs
  let negative := cs.head? == some '-'
  let cs := if negative then cs.drop 1 else cs
  let ds := cs.takeWhile Char.isDigit
  match dropGap (cs.dropWhile Char.isDigit) with
  | ']' :: rest =>
    let n : Int := Nat.ofDigitChars 10 ds 0
    let n := if negative then -n else n
    if ds.isEmpty || !isSigned64 n then none else some (n, rest)
  | _ => none

/-- The steps that a text spells after its first name. -/
def takeSteps? : Nat → List Char → Option (List Step)
  | 0, _ => none
  | _ + 1, [] => some []
  | fuel + 1, '.' :: rest => do
    let (name, rest) ← takeName? rest
    return .member name :: (← takeSteps? fuel rest)
  | fuel + 1, '[' :: rest => do
    let (n, rest) ← takePosition? rest
    return .item n :: (← takeSteps? fuel rest)
  | _ + 1, _ :: _ => none

/-- The path that a name spells. -/
def pathOf (name : String) : List Step :=
  let spelled : Option (List Step) := do
    let (first, rest) ← takeName? name.toList
    return .member first :: (← takeSteps? (rest.length + 1) rest)
  spelled.getD [.member name]

/-! ### Putting a setting at a path -/

/-- The members of a group; anything else has none. -/
def members : Setting → List (String × Setting)
  | group ms => ms
  | _ => []

/-- The items of a list; anything else has none. -/
def items : Setting → List Setting
  | list xs => xs
  | _ => []

/-- Replaces the member of that name, or adds one. -/
def putMember (ms : List (String × Setting)) (name : String) (s : Setting) :
    List (String × Setting) :=
  if (ms.lookup name).isSome then ms.map fun m => if m.1 == name then (name, s) else m
  else ms ++ [(name, s)]

/-- The setting where an empty group is laid over it. -/
def orGroup : Setting → Setting
  | nothing => group []
  | s => s

mutual
/-- Lays `s` over `base`. -/
def overlay (base : Setting) : Setting → Setting
  | group [] => base.orGroup
  | group (m :: ms) => group (overlayMembers base.members (m :: ms))
  | s => s

/-- Lays the members, one after another, over those that are there. -/
def overlayMembers (base : List (String × Setting)) : List (String × Setting) →
    List (String × Setting)
  | [] => base
  | (name, s) :: rest =>
    let name := Text.lower name
    overlayMembers (putMember base name (overlay ((base.lookup name).getD .nothing) s)) rest
end

/-- The place that a position names; one from the end counts back. -/
def placeOf (xs : List Setting) (position : Int) : Option Nat :=
  if 0 ≤ position then some position.toNat
  else if -(xs.length : Int) ≤ position then some (xs.length - position.natAbs)
  else none

/-- Puts `new` at the end of a path below a setting. -/
def putAt (new : Setting) : List Step → Setting → Setting
  | [], _ => new
  | .member name :: rest, s =>
    let inner := (s.members.lookup name).getD .nothing
    let inner := if rest.isEmpty then overlay inner new else putAt new rest inner
    group (putMember s.members name inner)
  | .item position :: rest, s =>
    match placeOf s.items position with
    | none => list s.items
    | some n =>
      let xs := s.items ++ List.replicate (n + 1 - s.items.length) .nothing
      list (xs.set n (putAt new rest ((xs[n]?).getD .nothing)))

/-- Puts an entry of a source over the settings. -/
def put (base : Setting) (entry : String × Setting) : Setting :=
  putAt entry.2 (pathOf (Text.lower entry.1)) base

/-- The settings of several entries, the later over the earlier. -/
def layers (entries : List (String × Setting)) : Setting :=
  entries.foldl put (group [])

end PoolExchange.Setting
