import X86Listing.Interchange.Basic
import X86Listing.Mnemonic
import X86Listing.Register

/-! Interchange form of widths, registers, conditions and instruction kinds: a tag each, and the two
kinds with a parameter as an object of one member. -/

namespace X86Listing

open Interchange

/-- Tag of the width. -/
def OperandSize.tag (size : OperandSize) : String := Interchange.tag size.text

/-- Tag of the register. -/
def Register.tag (register : Register) : String := Interchange.tag register.text

/-- Tag of the condition. -/
def Condition.tag : Condition → String
  | .overflow => "Overflow"
  | .noOverflow => "NoOverflow"
  | .below => "Below"
  | .aboveOrEqual => "AboveOrEqual"
  | .equal => "Equal"
  | .notEqual => "NotEqual"
  | .belowOrEqual => "BelowOrEqual"
  | .above => "Above"
  | .sign => "Sign"
  | .notSign => "NotSign"
  | .parity => "Parity"
  | .notParity => "NotParity"
  | .less => "Less"
  | .greaterOrEqual => "GreaterOrEqual"
  | .lessOrEqual => "LessOrEqual"
  | .greater => "Greater"

namespace Mnemonic

/-- The kinds without a parameter. -/
def plain : List Mnemonic :=
  BinaryOp.all.map .binary ++ ShiftOp.all.map .shift ++ UnaryOp.all.map .unary ++
    DeviceOp.all.map .device ++ [.jump] ++ AddressOp.all.map .address ++ ImplicitOp.plain.map .implicit

/-- Tag of a kind without a parameter. -/
def tag (kind : Mnemonic) : String := Interchange.tag kind.text

end Mnemonic

instance OperandSize.interchange : Interchange OperandSize where
  schema := .enumeration (OperandSize.all.map OperandSize.tag)
  encode size := .string size.tag
  ofCanonical? := ofTag? OperandSize.all OperandSize.tag

instance Register.interchange : Interchange Register where
  schema := .enumeration (Register.all.map Register.tag)
  encode register := .string register.tag
  ofCanonical? := ofTag? Register.all Register.tag

instance Condition.interchange : Interchange Condition where
  schema := .enumeration (Condition.all.map Condition.tag)
  encode condition := .string condition.tag
  ofCanonical? := ofTag? Condition.all Condition.tag

instance Mnemonic.interchange : Interchange Mnemonic where
  schema := .choice (.ofLists (Mnemonic.plain.map Mnemonic.tag)
    [("Jcc", schema Condition), ("SignExtendAx", schema OperandSize)])
  encode
    | .jumpIf condition => .object [("Jcc", encode condition)]
    | .implicit (.signExtend size) => .object [("SignExtendAx", encode size)]
    | kind => .string kind.tag
  ofCanonical?
    | .object [("Jcc", tree)] => (ofCanonical? tree).map .jumpIf
    | .object [("SignExtendAx", tree)] => (ofCanonical? tree).map fun size => .implicit (.signExtend size)
    | tree => ofTag? Mnemonic.plain Mnemonic.tag tree

end X86Listing
