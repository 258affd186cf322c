import PoolExchange.Json

/-!
# Json — values of other types as JSON

A type with a `Codec` is written to JSON and read from it; what is written reads back.

A *record* is written as an object with its fields in a fixed order.  It is read from an object,
with its fields in any order, each at most once, and unknown ones ignored; or from an array of
exactly its fields, in order.  A field that may be absent reads as nothing when it is absent or
null.
-/

namespace PoolExchange

class Codec (α : Type) where
  toJson : α → Json
  ofJson? : Json → Option α

export Codec (toJson ofJson?)

namespace Json

/-! ### Numbers and texts -/

/-- A natural number of so many bits. -/
def word? (bits : Nat) : Json → Option Nat
  | number n => unsignedWord? bits n
  | _ => none

/-- A signed number of 64 bits. -/
def signed? : Json → Option Int
  | number n => if isSigned64 n then some n else none
  | _ => none

def string? : Json → Option String
  | text s => some s
  | _ => none

/-- One of several names, given as a string, or as an object with that one name and null. -/
def variant? : Json → Option String
  | text s => some s
  | object [(name, null)] => some name
  | _ => none

instance : Codec String := ⟨text, string?⟩

instance : Codec Bool where
  toJson := bool
  ofJson?
    | bool b => some b
    | _ => none

instance {α : Type} [Codec α] : Codec (List α) where
  toJson xs := array (xs.map toJson)
  ofJson?
    | array items => items.mapM ofJson?
    | _ => none

instance {α : Type} [Codec α] : Codec (Option α) where
  toJson
    | some a => toJson a
    | none => null
  ofJson?
    | null => some none
    | j => some <$> ofJson? j

instance {α β : Type} [Codec α] [Codec β] : Codec (α × β) where
  toJson p := array [toJson p.1, toJson p.2]
  ofJson?
    | array [a, b] => do return (← ofJson? a, ← ofJson? b)
    | _ => none

/-! ### Records -/

/-- The fields of a record, as they were found. -/
structure Record where
  fields : List (String × Json)

/-- The named fields of an object, or those of an array that has one item for each. -/
def record? (names : List String) : Json → Option Record
  | object members =>
    let known := members.filter fun m => names.contains m.1
    if (known.map Prod.fst).Nodup then some ⟨known⟩ else none
  | array items => if items.length = names.length then some ⟨names.zip items⟩ else none
  | _ => none

namespace Record

def find? (r : Record) (name : String) : Option Json := r.fields.lookup name

/-- A field that must be there. -/
def get {α : Type} [Codec α] (r : Record) (name : String) : Option α :=
  (r.find? name).bind ofJson?

/-- A field that may be absent or null. -/
def getOption {α : Type} [Codec α] (r : Record) (name : String) : Option (Option α) :=
  match r.find? name with
  | none => some none
  | some j => ofJson? j

/-- A natural number of so many bits. -/
def getWord (r : Record) (bits : Nat) (name : String) : Option Nat :=
  (r.find? name).bind (word? bits)

end Record

end Json

end PoolExchange
