import X86Listing.Instruction

/-! Statements of a program, and the line each takes in a listing. -/

namespace X86Listing

/-- A named constant; its value is passed on as text. -/
structure Constant where
  name : String
  value : String
  deriving DecidableEq

/-- A statement. -/
inductive Statement where
  | instruction (instruction : Instruction)
  /-- An instruction written without operands. -/
  | implicit (kind : Mnemonic)
  | label (name : String)
  | comment (content : String)
  | constant (constant : Constant)
  /-- Text that is passed on as it is. -/
  | literal (code : String)
  deriving DecidableEq

namespace Statement

/-- The instruction, if the statement is one with operands. -/
def instruction? : Statement → Option Instruction
  | .instruction i => some i
  | _ => none

/-- Whether the statement is a label. -/
def isLabel : Statement → Bool
  | .label _ => true
  | _ => false

/-- Text of the statement. -/
def text : Statement → String
  | .instruction i => i.text
  | .implicit kind => kind.text
  | .label name => name ++ ":"
  | .comment content => "; " ++ content
  | .constant c => c.name ++ " equ " ++ c.value
  | .literal code => code

/-- Line of the statement in a listing: a label is flush left, all else is indented by four spaces. -/
def line (statement : Statement) : String :=
  if statement.isLabel then statement.text else "    " ++ statement.text

end Statement
end X86Listing
