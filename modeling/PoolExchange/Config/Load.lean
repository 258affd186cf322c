import PoolExchange.Config.Layers
import PoolExchange.Toml.Reader

/-!
# Config — loading

A configuration is read from a TOML text alone (`ofToml?`), where numbers are integers and flags
are booleans; or from a file and the environment together (`load?`), where the environment is laid
over the file and values are read leniently.

A variable counts when its name, in lower case, begins with `engine_`; the rest of the name is a
path, with two underscores for a point.  Its value is a flag, an integer, a real number or a text,
whichever comes first.

In a lenient reading a flag counts as one or zero, a real number is rounded, and some words count
as flags; names are recognised in any case.  A moment of the file is a text there.
-/

namespace PoolExchange

/-! ### TOML as settings -/

mutual
/-- A TOML value as a tree of settings, given what becomes of a moment. -/
def Setting.ofToml (moment : String → Setting) : Toml → Setting
  | .text s => .text s
  | .integer n => .integer n
  | .real x => .real x
  | .flag b => .flag b
  | .moment s => moment s
  | .array items => .list (Setting.ofTomlItems moment items)
  | .table _ members => .group (Setting.ofTomlMembers moment members)
  | .tables items => .list (Setting.ofTomlTables moment items)

def Setting.ofTomlItems (moment : String → Setting) : List Toml → List Setting
  | [] => []
  | t :: rest => Setting.ofToml moment t :: Setting.ofTomlItems moment rest

def Setting.ofTomlMembers (moment : String → Setting) :
    List (String × Toml) → List (String × Setting)
  | [] => []
  | (k, t) :: rest => (k, Setting.ofToml moment t) :: Setting.ofTomlMembers moment rest

def Setting.ofTomlTables (moment : String → Setting) :
    List (List (String × Toml)) → List Setting
  | [] => []
  | ms :: rest =>
    .group (Setting.ofTomlMembers moment ms) :: Setting.ofTomlTables moment rest
end

namespace Config

/-- Why a configuration cannot be loaded. -/
inductive LoadError
  /-- The TOML text does not denote a configuration. -/
  | unreadable
  /-- A source is missing or not readable. -/
  | badSource
  /-- The settings do not fit the configuration. -/
  | badSettings
  | invalid (cause : ConfigError)
deriving DecidableEq, Repr

def LoadError.message : LoadError → String
  | .unreadable => "Failed to parse engine configuration"
  | .badSource => "Failed to build engine configuration"
  | .badSettings => "Failed to deserialize engine configuration"
  | .invalid cause => cause.message

/-- The configuration, if it is valid. -/
def checked (c : Config) : Except LoadError Config :=
  match c.validate with
  | .ok _ => .ok c
  | .error e => .error (.invalid e)

/-! ### A TOML text -/

def isEmptySetting : Setting → Bool
  | .list [] => true
  | .group [] => true
  | _ => false

/-- A name is a string, or a group with that one name and something empty in it. -/
def tomlName? (names : List String) : Setting → Option String
  | .text s => if names.contains s then some s else none
  | .group [(name, s)] => if names.contains name && isEmptySetting s then some name else none
  | _ => none

def tomlDialect : Setting.Dialect where
  word? := Setting.strictWord?
  flag? := Setting.strictFlag?
  name? := tomlName?
  allowsExtra := true

/-- A moment reads as a group with one member of no known name. -/
def tomlMoment (s : String) : Setting := .group [(Toml.momentKey, .text s)]

def ofToml? (text : String) : Except LoadError Config :=
  match (Toml.read? text).bind fun t => read? tomlDialect (.ofToml tomlMoment t) with
  | some c => checked c
  | none => .error .unreadable

/-! ### A file and the environment -/

/-- The words that count as flags. -/
def flagWord? (s : String) : Option Bool :=
  let s := Text.lower s
  if s = "true" || s = "on" || s = "yes" then some true
  else if s = "false" || s = "off" || s = "no" then some false
  else none

/-- A natural number of 64 bits in digits, with an optional plus sign. -/
def wordText? (s : String) : Option Nat := do
  let n ← Text.numeral? (Amount.unsigned s.toList)
  unsignedWord? 64 n

def lenientWord? : Setting → Option Nat
  | .integer n => unsignedWord? 64 n
  | .flag b => some b.toNat
  | .real x => some x.toWord
  | .text s =>
    match flagWord? s with
    | some b => some b.toNat
    | none => wordText? s
  | _ => none

def lenientFlag? : Setting → Option Bool
  | .flag b => some b
  | .integer n => some (n != 0)
  | .real x => some x.isNonzero
  | .text s =>
    if s = "1" then some true else if s = "0" then some false else flagWord? s
  | _ => none

/-- A name in any case, as a string or as the only name of a group. -/
def lenientName? (names : List String) : Setting → Option String
  | .text s => names.find? fun n => n == Text.lower s
  | .group [(name, _)] => names.find? fun n => n == Text.lower name
  | _ => none

def lenientDialect : Setting.Dialect where
  word? := lenientWord?
  flag? := lenientFlag?
  name? := lenientName?
  allowsExtra := true

/-- The settings of a file, if it is readable.  Its tables may stand for moments, but the file as
a whole may not. -/
def fileEntries? (text : String) : Option (List (String × Setting)) := do
  let t ← Toml.read? text
  match Setting.ofToml .text (← t.resolve?) with
  | .group members => some members
  | _ => none

def environmentMark : List Char := "engine_".toList

/-- Reads two underscores as a point. -/
def pointed : List Char → List Char
  | '_' :: '_' :: rest => '.' :: pointed rest
  | c :: rest => c :: pointed rest
  | [] => []

/-- The path of a variable, if it counts. -/
def variablePath? (name : String) : Option String :=
  let cs := (Text.lower name).toList
  if environmentMark.isPrefixOf cs then
    some (String.ofList (pointed (cs.drop environmentMark.length)))
  else none

/-- An integer of 64 bits in digits, with an optional sign. -/
def integerText? (s : String) : Option Int := do
  let (negative, cs) := Text.takeSign s.toList
  let n ← Text.numeral? cs
  let i : Int := if negative then -(n : Int) else n
  if isSigned64 i then some i else none

/-- The value of a variable. -/
def variableValue (s : String) : Setting :=
  let low := Text.lower s
  if low = "true" then .flag true
  else if low = "false" then .flag false
  else
    match integerText? s with
    | some n => .integer n
    | none =>
      match Text.RealText.read? s with
      | some x => .real x
      | none => .text s

/-- The settings of the environment. -/
def environmentEntries (environment : List (String × String)) : List (String × Setting) :=
  environment.filterMap fun v => (variablePath? v.1).map fun path => (path, variableValue v.2)

/-- Where the settings of a file come from. -/
inductive ConfigFile
  | absent
  /-- A file is asked for, but it is not there. -/
  | missing
  | present (text : String)
deriving DecidableEq, Repr

def ConfigFile.entries? : ConfigFile → Option (List (String × Setting))
  | absent => some []
  | missing => none
  | present text => fileEntries? text

/-- Loads a configuration from a file and the environment. -/
def load? (file : ConfigFile) (environment : List (String × String)) : Except LoadError Config :=
  match file.entries? with
  | none => .error .badSource
  | some entries =>
    match read? lenientDialect (Setting.layers (entries ++ environmentEntries environment)) with
    | some c => checked c
    | none => .error .badSettings

end Config

end PoolExchange
