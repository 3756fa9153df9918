import X86Listing.Mnemonic
import X86Listing.Operand

/-! Instructions with explicit operands, and their line of text. -/

namespace X86Listing

/-- An instruction with its operands. -/
structure Instruction where
  kind : Mnemonic
  destination : Operand
  source : Option Operand
  size : Option OperandSize
  deriving DecidableEq

namespace Instruction

/-- Text of an operand in an instruction of a given width: the width is written before `ptr` for an
operand in memory, and not at all for a direct one. -/
def operandText (size : Option OperandSize) (operand : Operand) : String :=
  match size with
  | some size => if operand.isIndirect then size.text ++ " ptr " ++ operand.text else operand.text
  | none => operand.text

/-- Text of the instruction. -/
def text (instruction : Instruction) : String :=
  let head := instruction.kind.text ++ " " ++ operandText instruction.size instruction.destination
  match instruction.source with
  | some source => head ++ ", " ++ operandText instruction.size source
  | none => head

/-- The byte store `mov byte ptr [address], value`. -/
def byteStore (address : UInt32) (value : UInt8) : Instruction where
  kind := .binary .mov
  destination := .indirect (.immediate address) 0
  source := some (.direct (.immediate value.toUInt32))
  size := some .byte

end Instruction
end X86Listing
