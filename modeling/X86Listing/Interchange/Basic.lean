import X86Listing.Json.Schema

/-! The interchange form of a type: a schema for the trees that stand for its values, the canonical tree
of each value, and the reader of canonical trees. A tree is decoded by bringing it to its canonical
spelling first. -/

namespace X86Listing

/-- A type with an interchange form. -/
class Interchange (α : Type) where
  /-- The trees that stand for values. -/
  schema (α) : Schema
  /-- The canonical tree of a value. -/
  encode : α → Json
  /-- The value of a canonical tree. -/
  ofCanonical? : Json → Option α

namespace Interchange

/-- The value of a tree in any spelling that the schema allows. -/
def decode? {α : Type} [Interchange α] (tree : Json) : Option α :=
  (schema α).normalize? tree >>= ofCanonical?

/-- The tag of a name that is written in lower case elsewhere: its first letter is a capital. -/
def tag (name : String) : String :=
  match name.toList with
  | [] => ""
  | first :: rest => String.ofList (first.toUpper :: rest)

/-- Reads one of a list of values by its tag. -/
def ofTag? {α : Type} (all : List α) (tag : α → String) : Json → Option α
  | .string name => all.find? fun value => tag value = name
  | _ => none

/-- Reads the members of an object in the order they are written in. -/
abbrev MemberReader := StateT (List (String × Json)) Option

/-- The value of the next member, which has to have the name. -/
def member {α : Type} [Interchange α] (name : String) : MemberReader α
  | (found, tree) :: rest => if found = name then (ofCanonical? tree).map (·, rest) else none
  | [] => none

/-- What is read from the members of an object if none of them is left over. -/
def ofObject? {α : Type} (read : MemberReader α) : Json → Option α
  | .object members =>
    match read.run members with
    | some (value, []) => some value
    | _ => none
  | _ => none

instance : Interchange String where
  schema := .text
  encode content := .string content
  ofCanonical?
    | .string content => some content
    | _ => none

instance : Interchange UInt32 where
  schema := .integer 0 4294967295
  encode number := .integer number.toNat
  ofCanonical?
    | .integer number =>
      let value := UInt32.ofNat number.toNat
      if (value.toNat : Int) = number then some value else none
    | _ => none

instance : Interchange UInt64 where
  schema := .integer 0 18446744073709551615
  encode number := .integer number.toNat
  ofCanonical?
    | .integer number =>
      let value := UInt64.ofNat number.toNat
      if (value.toNat : Int) = number then some value else none
    | _ => none

instance : Interchange Int32 where
  schema := .integer (-2147483648) 2147483647
  encode number := .integer number.toInt
  ofCanonical?
    | .integer number =>
      let value := Int32.ofInt number
      if value.toInt = number then some value else none
    | _ => none

instance {α : Type} [Interchange α] : Interchange (Option α) where
  schema := .nullable (schema α)
  encode
    | none => .null
    | some value => encode value
  ofCanonical?
    | .null => some none
    | tree => (ofCanonical? tree).map some

instance {α : Type} [Interchange α] : Interchange (Array α) where
  schema := .sequence (schema α)
  encode values := .array (values.toList.map encode)
  ofCanonical?
    | .array items => (items.mapM ofCanonical?).map List.toArray
    | _ => none

end Interchange
end X86Listing
