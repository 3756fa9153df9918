import X86Listing.Json
import X86Listing.Text.Numeral

/-! Writing a tree as text, without blanks. In a string only the quote, the backslash and control
characters are escaped. -/

namespace X86Listing.Json

namespace Writer

/-- A character of a string. -/
def escape (c : Char) : List Char :=
  if c = '"' then ['\\', '"']
  else if c = '\\' then ['\\', '\\']
  else if c = '\x08' then ['\\', 'b']
  else if c = '\x0c' then ['\\', 'f']
  else if c = '\n' then ['\\', 'n']
  else if c = '\r' then ['\\', 'r']
  else if c = '\t' then ['\\', 't']
  else if c.toNat < 0x20 then
    ['\\', 'u', '0', '0', Nat.digitChar (c.toNat / 16), Nat.digitChar (c.toNat % 16)]
  else [c]

/-- A string in quotes. -/
def quoted (content : String) : String :=
  String.ofList ('"' :: (content.toList.flatMap escape ++ ['"']))

/-- An integer in decimal. -/
def integer (number : Int) : String :=
  if number < 0 then "-" ++ Text.decimal number.natAbs else Text.decimal number.natAbs

end Writer

mutual

/-- The text of a tree. -/
def compact : Json → String
  | .null => "null"
  | .bool true => "true"
  | .bool false => "false"
  | .integer number => Writer.integer number
  | .decimal literal => literal
  | .string content => Writer.quoted content
  | .array items => "[" ++ String.intercalate "," (compactItems items) ++ "]"
  | .object members => "\x7b" ++ String.intercalate "," (compactMembers members) ++ "\x7d"

/-- The texts of the items of an array. -/
def compactItems : List Json → List String
  | [] => []
  | item :: items => item.compact :: compactItems items

/-- The texts of the members of an object. -/
def compactMembers : List (String × Json) → List String
  | [] => []
  | (name, content) :: members =>
    (Writer.quoted name ++ ":" ++ content.compact) :: compactMembers members

end

end X86Listing.Json
