/-! Document trees. The members of an object keep the order and the repetitions they were written
with, and a number that is not written as a plain integer keeps its spelling. -/

namespace X86Listing

/-- A document tree. -/
inductive Json where
  | null
  | bool (value : Bool)
  | integer (number : Int)
  /-- A number with a fraction or an exponent, or `-0`, as written. -/
  | decimal (literal : String)
  | string (content : String)
  | array (items : List Json)
  | object (members : List (String × Json))

namespace Json

/-- The value of the first member of a given name, if the tree is an object that has one. -/
def get? (tree : Json) (name : String) : Option Json :=
  match tree with
  | .object members => members.lookup name
  | _ => none

end Json
end X86Listing
