import X86Listing.Mnemonic
import X86Listing.Operand

/-! Errors of building a program. An error names the instruction kind it was found in, unless it is
that a limit was reached. -/

namespace X86Listing

/-- Why the operands of a request do not fit its instruction kind. -/
inductive OperandFault where
  | takesNone
  | missingSource
  | unexpectedSource
  | indirectCount
  | symbolicCount
  /-- The operand of a call or table load is neither a symbol nor a register of 32 or 64 bits. -/
  | notAnAddress (found : Value)
  deriving DecidableEq

/-- What a limit counts. -/
inductive Resource where
  | statements
  | dataMembers
  deriving DecidableEq

/-- An error of building a program. -/
inductive BuildError where
  /-- Both operands are in memory. -/
  | conflictingIndirection (kind : Mnemonic)
  /-- No width was given, and none follows from the operands. -/
  | missingSize (kind : Mnemonic)
  /-- Two direct registers differ in width. -/
  | sizeMismatch (kind : Mnemonic) (destination source : Register)
  /-- A shift count is in a register other than `cl`. -/
  | invalidCountRegister (kind : Mnemonic) (register : Register)
  /-- The operands do not fit the instruction kind. -/
  | invalidOperands (kind : Mnemonic) (detail : String)
  /-- A limit was reached. -/
  | limitExceeded (resource : String) (limit : UInt64)
  deriving DecidableEq

namespace OperandFault

/-- The fault in words. -/
def detail : OperandFault → String
  | .takesNone => "instruction takes no operands"
  | .missingSource => "missing source operand"
  | .unexpectedSource => "unexpected source operand"
  | .indirectCount => "shift count cannot be indirect"
  | .symbolicCount => "shift count must be an immediate or cl"
  | .notAnAddress found => "expected a label or a 32/64-bit register, found " ++ found.text

end OperandFault

namespace Resource

/-- The resource in words. -/
def text : Resource → String
  | .statements => "statements"
  | .dataMembers => "data members"

end Resource

namespace BuildError

/-- The error of an operand fault. -/
def operands (kind : Mnemonic) (fault : OperandFault) : BuildError := .invalidOperands kind fault.detail

/-- The error of a reached limit. -/
def limit (resource : Resource) (limit : UInt64) : BuildError := .limitExceeded resource.text limit

/-- The instruction kind the error was found in. -/
def kind? : BuildError → Option Mnemonic
  | .conflictingIndirection kind => some kind
  | .missingSize kind => some kind
  | .sizeMismatch kind _ _ => some kind
  | .invalidCountRegister kind _ => some kind
  | .invalidOperands kind _ => some kind
  | .limitExceeded _ _ => none

/-- Whether the error is about indirection, width or the count register. -/
def isConfiguration : BuildError → Bool
  | .conflictingIndirection _ | .missingSize _ | .sizeMismatch _ _ _ | .invalidCountRegister _ _ => true
  | .invalidOperands _ _ | .limitExceeded _ _ => false

/-- A register with its width in bits. -/
def registerWidth (register : Register) : String :=
  register.text ++ " is " ++ Text.decimal register.size.bits ++ " bits"

/-- The error in words. -/
def message : BuildError → String
  | .conflictingIndirection kind => kind.text ++ ": both destination and source cannot be indirect"
  | .missingSize kind => kind.text ++ ": no size specified"
  | .sizeMismatch kind destination source =>
    kind.text ++ ": register sizes must match (" ++ registerWidth destination ++ ", " ++
      registerWidth source ++ ")"
  | .invalidCountRegister kind register =>
    kind.text ++ ": invalid count register '" ++ register.text ++ "' (only cl is allowed)"
  | .invalidOperands kind detail => kind.text ++ ": invalid operand combination: " ++ detail
  | .limitExceeded resource limit =>
    "resource limit exceeded: " ++ resource ++ " (limit: " ++ Text.decimal limit.toNat ++ ")"

end BuildError
end X86Listing
