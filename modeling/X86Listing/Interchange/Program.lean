import X86Listing.Interchange.Instruction
import X86Listing.Program

/-! Interchange form of data members, statements and programs. -/

namespace X86Listing

open Interchange

instance Constant.interchange : Interchange Constant where
  schema := .ofFields [("name", schema String), ("value", schema String)]
  encode constant := .object [("name", encode constant.name), ("value", encode constant.value)]
  ofCanonical? := ofObject? do
    return { name := ← member "name", value := ← member "value" }

instance DataValue.interchange : Interchange DataValue where
  schema := .variants [("Integer", schema UInt32), ("Str", schema String)]
  encode
    | .integer number => .object [("Integer", encode number)]
    | .string content => .object [("Str", encode content)]
  ofCanonical?
    | .object [("Integer", tree)] => (ofCanonical? tree).map .integer
    | .object [("Str", tree)] => (ofCanonical? tree).map .string
    | _ => none

instance DataMember.interchange : Interchange DataMember where
  schema := .ofFields [("name", schema String), ("value", schema DataValue),
    ("element", schema OperandSize), ("count", schema UInt32)]
  encode member := .object [("name", encode member.name), ("value", encode member.value),
    ("element", encode member.element), ("count", encode member.count)]
  ofCanonical? := ofObject? do
    return {
      name := ← member "name"
      value := ← member "value"
      element := ← member "element"
      count := ← member "count" }

instance Statement.interchange : Interchange Statement where
  schema := .variants [("Instruction", schema Instruction), ("Implicit", schema Mnemonic),
    ("Label", schema String), ("Comment", schema String), ("Const", schema Constant),
    ("Literal", schema String)]
  encode
    | .instruction i => .object [("Instruction", encode i)]
    | .implicit kind => .object [("Implicit", encode kind)]
    | .label name => .object [("Label", encode name)]
    | .comment content => .object [("Comment", encode content)]
    | .constant c => .object [("Const", encode c)]
    | .literal code => .object [("Literal", encode code)]
  ofCanonical?
    | .object [("Instruction", tree)] => (ofCanonical? tree).map .instruction
    | .object [("Implicit", tree)] => (ofCanonical? tree).map .implicit
    | .object [("Label", tree)] => (ofCanonical? tree).map .label
    | .object [("Comment", tree)] => (ofCanonical? tree).map .comment
    | .object [("Const", tree)] => (ofCanonical? tree).map .constant
    | .object [("Literal", tree)] => (ofCanonical? tree).map .literal
    | _ => none

instance Program.interchange : Interchange Program where
  schema := .ofFields [("statements", schema (Array Statement)),
    ("data_members", schema (Array DataMember))]
  encode program := .object [("statements", encode program.statements),
    ("data_members", encode program.dataMembers)]
  ofCanonical? := ofObject? do
    return { statements := ← member "statements", dataMembers := ← member "data_members" }

end X86Listing
