import X86Listing.OperandSize
import X86Listing.Text.Backquoted

/-! Data members. A data member repeats one value a number of times; a string is declared as its bytes
with a zero byte after them. -/

namespace X86Listing

/-- Initial value of a data member. -/
inductive DataValue where
  | integer (number : UInt32)
  | string (content : String)
  deriving DecidableEq

/-- A named data member. -/
structure DataMember where
  name : String
  value : DataValue
  element : OperandSize
  count : UInt32
  deriving DecidableEq

namespace DataValue

/-- Text of the value. -/
def text : DataValue → String
  | .integer number => Text.hexadecimal number.toNat
  | .string content => Text.Backquoted.write content ++ ", 0"

end DataValue

namespace DataMember

/-- The repetition that stands before the directive; a single element has none. -/
def repetitionText (count : UInt32) : String :=
  if count = 1 then "" else "times " ++ Text.decimal count.toNat ++ " "

/-- Text of the declaration. -/
def text (member : DataMember) : String :=
  member.name ++ " " ++ repetitionText member.count ++ member.element.directive ++ " " ++
    member.value.text

/-- One 32-bit number. -/
def scalar (name : String) (number : UInt32) : DataMember := ⟨name, .integer number, .dword, 1⟩

/-- A string. -/
def string (name content : String) : DataMember := ⟨name, .string content, .byte, 1⟩

/-- A number repeated in elements of a given width. -/
def array (name : String) (count : UInt32) (element : OperandSize) (number : UInt32) : DataMember :=
  ⟨name, .integer number, element, count⟩

end DataMember
end X86Listing
