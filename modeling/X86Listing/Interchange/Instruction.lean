import X86Listing.Instruction
import X86Listing.Interchange.Enumeration

/-! Interchange form of operands and instructions. -/

namespace X86Listing

open Interchange

instance Symbol.interchange : Interchange Symbol where
  schema := schema String
  encode symbol := encode symbol.name
  ofCanonical? tree := (ofCanonical? tree).map Symbol.mk

instance Value.interchange : Interchange Value where
  schema := .variants
    [("Register", schema Register), ("Immediate", schema UInt32), ("Symbol", schema Symbol)]
  encode
    | .register r => .object [("Register", encode r)]
    | .immediate n => .object [("Immediate", encode n)]
    | .symbol s => .object [("Symbol", encode s)]
  ofCanonical?
    | .object [("Register", tree)] => (ofCanonical? tree).map .register
    | .object [("Immediate", tree)] => (ofCanonical? tree).map .immediate
    | .object [("Symbol", tree)] => (ofCanonical? tree).map .symbol
    | _ => none

instance Access.interchange : Interchange Access where
  schema := .choice (.ofLists ["Direct"] [("Indirect", .ofFields [("displacement", schema Int32)])])
  encode
    | .direct => .string "Direct"
    | .indirect displacement => .object [("Indirect", .object [("displacement", encode displacement)])]
  ofCanonical?
    | .string "Direct" => some .direct
    | .object [("Indirect", tree)] => ofObject? (return .indirect (← member "displacement")) tree
    | _ => none

instance Operand.interchange : Interchange Operand where
  schema := .ofFields [("value", schema Value), ("access", schema Access)]
  encode operand := .object [("value", encode operand.value), ("access", encode operand.access)]
  ofCanonical? := ofObject? do
    return { value := ← member "value", access := ← member "access" }

instance Instruction.interchange : Interchange Instruction where
  schema := .ofFields [("kind", schema Mnemonic), ("destination", schema Operand),
    ("source", schema (Option Operand)), ("size", schema (Option OperandSize))]
  encode instruction := .object [("kind", encode instruction.kind),
    ("destination", encode instruction.destination), ("source", encode instruction.source),
    ("size", encode instruction.size)]
  ofCanonical? := ofObject? do
    return {
      kind := ← member "kind"
      destination := ← member "destination"
      source := ← member "source"
      size := ← member "size" }

end X86Listing
