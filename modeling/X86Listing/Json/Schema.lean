import X86Listing.Json

/-! Schemas. A schema says which trees stand for the values of a type, and `normalize?` brings each of
them to its canonical spelling. The spellings allowed beside the canonical one are: the members of a
record in any order, members that the record does not name, a record as the array of all its fields, a
nullable field left out of an object, and a unit alternative as an object whose content is null. -/

namespace X86Listing

mutual

/-- The trees that stand for the values of a type. -/
inductive Schema where
  /-- An integer between two bounds. -/
  | integer (low high : Int)
  | text
  /-- A tree of the content, or null. -/
  | nullable (content : Schema)
  /-- An array of items. -/
  | sequence (item : Schema)
  | record (fields : Fields)
  | choice (alternatives : Alternatives)

/-- The fields of a record, in the order they are written. -/
inductive Fields where
  | nil
  | cons (name : String) (content : Schema) (rest : Fields)

/-- The alternatives of a choice. -/
inductive Alternatives where
  | nil
  /-- An alternative without content. -/
  | unit (name : String) (rest : Alternatives)
  /-- An alternative with content. -/
  | carrying (name : String) (content : Schema) (rest : Alternatives)

end

/-- Fields from a list of names and schemas. -/
def Fields.ofList : List (String × Schema) → Fields
  | [] => .nil
  | (name, content) :: rest => .cons name content (ofList rest)

/-- Alternatives with content. -/
def Alternatives.ofList : List (String × Schema) → Alternatives
  | [] => .nil
  | (name, content) :: rest => .carrying name content (ofList rest)

/-- Alternatives: units, and then those with content. -/
def Alternatives.ofLists : List String → List (String × Schema) → Alternatives
  | [], contents => .ofList contents
  | name :: units, contents => .unit name (ofLists units contents)

namespace Schema

/-- A record of the given fields. -/
def ofFields (fields : List (String × Schema)) : Schema := .record (.ofList fields)

/-- A choice between the given names. -/
def enumeration (names : List String) : Schema := .choice (.ofLists names [])

/-- A choice between alternatives that carry content. -/
def variants (contents : List (String × Schema)) : Schema := .choice (.ofLists [] contents)

/-- The canonical tree of a field that is left out of an object. -/
def absent? : Schema → Option Json
  | .nullable _ => some .null
  | _ => none

end Schema

mutual

/-- The canonical spelling of a tree, if the schema has it. -/
def Schema.normalize? : Schema → Json → Option Json
  | .integer low high, tree =>
    match tree with
    | .integer number => if low ≤ number ∧ number ≤ high then some (.integer number) else none
    | _ => none
  | .text, tree =>
    match tree with
    | .string content => some (.string content)
    | _ => none
  | .nullable content, tree =>
    match tree with
    | .null => some .null
    | tree => content.normalize? tree
  | .sequence item, tree =>
    match tree with
    | .array items => (items.mapM item.normalize?).map .array
    | _ => none
  | .record fields, tree =>
    match tree with
    | .object members => (fields.ofMembers? members).map .object
    | .array items => (fields.ofItems? items).map .object
    | _ => none
  | .choice alternatives, tree =>
    match tree with
    | .string name => if alternatives.hasUnit name then some (.string name) else none
    | .object [(name, content)] => alternatives.ofContent? name content
    | _ => none

/-- Finds each field among the members of an object. A field that is there twice is refused. -/
def Fields.ofMembers? : Fields → List (String × Json) → Option (List (String × Json))
  | .nil, _ => some []
  | .cons name content rest, members => do
    let value ←
      match members.filter (·.1 = name) with
      | [] => content.absent?
      | [(_, tree)] => content.normalize? tree
      | _ => none
    return (name, value) :: (← rest.ofMembers? members)

/-- Takes each field from an array that has exactly as many items. -/
def Fields.ofItems? : Fields → List Json → Option (List (String × Json))
  | .nil, items => if items.isEmpty then some [] else none
  | .cons name content rest, items =>
    match items with
    | [] => none
    | tree :: items => do
      let value ← content.normalize? tree
      return (name, value) :: (← rest.ofItems? items)

/-- Whether there is a unit alternative of this name. -/
def Alternatives.hasUnit : Alternatives → String → Bool
  | .nil, _ => false
  | .unit name rest, wanted => name = wanted || rest.hasUnit wanted
  | .carrying _ _ rest, wanted => rest.hasUnit wanted

/-- The canonical spelling of an alternative given with its content. -/
def Alternatives.ofContent? : Alternatives → String → Json → Option Json
  | .nil, _, _ => none
  | .unit name rest, wanted, tree =>
    if name = wanted then
      match tree with
      | .null => some (.string name)
      | _ => none
    else rest.ofContent? wanted tree
  | .carrying name content rest, wanted, tree =>
    if name = wanted then (content.normalize? tree).map fun tree => .object [(name, tree)]
    else rest.ofContent? wanted tree

end

end X86Listing
