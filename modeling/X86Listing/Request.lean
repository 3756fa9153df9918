import X86Listing.Argument
import X86Listing.BuildError
import X86Listing.Instruction

/-! Requests. A request names an instruction kind and its arguments; `resolve` checks it and gives the
instruction. The checks are made in a fixed order, and the first that fails gives the error: the operand
slots, the shift count, two operands in memory, two registers of different widths, a missing width. -/

namespace X86Listing

/-- Whether two direct registers must have the same width. -/
inductive WidthCheck where
  | enforce
  | skip
  deriving DecidableEq

/-- A request for an instruction. -/
structure Request where
  kind : Mnemonic
  destination : Argument
  source : Option Argument := none
  /-- The width, if the caller fixes it. -/
  size : Option OperandSize := none
  check : WidthCheck := .enforce
  deriving DecidableEq

namespace Request

/-- The operand slots of the kind, which the arguments have to fill. -/
def checkForm (request : Request) : Except BuildError Form :=
  match request.kind.form? with
  | none => .error (.operands request.kind .takesNone)
  | some form =>
    match form.hasSource, request.source with
    | true, none => .error (.operands request.kind .missingSource)
    | false, some _ => .error (.operands request.kind .unexpectedSource)
    | _, _ => .ok form

/-- A shift count is a number or the register `cl`, whose width is not compared with the
destination's. -/
def checkCount (kind : Mnemonic) (count : Argument) (check : WidthCheck) :
    Except BuildError WidthCheck :=
  if count.isIndirect then .error (.operands kind .indirectCount)
  else
    match count.value with
    | .register .cl => .ok .skip
    | .register register => .error (.invalidCountRegister kind register)
    | .immediate _ => .ok check
    | .symbol _ => .error (.operands kind .symbolicCount)

/-- The width check that applies, once a shift count has been checked. -/
def widthCheck (request : Request) : Except BuildError WidthCheck :=
  match request.kind.isShift, request.source with
  | true, some count => checkCount request.kind count request.check
  | _, _ => .ok request.check

/-- At most one operand is in memory. -/
def checkMemory (kind : Mnemonic) (destination : Operand) (source : Option Operand) :
    Except BuildError Unit :=
  if destination.isIndirect && source.any Operand.isIndirect then
    .error (.conflictingIndirection kind)
  else .ok ()

/-- Two direct registers have the same width. -/
def checkWidths (kind : Mnemonic) (destination : Operand) (source : Option Operand) :
    Except BuildError Unit :=
  match destination.directRegister?, source.bind Operand.directRegister? with
  | some d, some s => if d.size = s.size then .ok () else .error (.sizeMismatch kind d s)
  | _, _ => .ok ()

/-- The width of the operation: the caller's, else that of a direct destination register, else that of
a direct source register. An operand in memory has no width of its own. -/
def pickSize (kind : Mnemonic) (explicit : Option OperandSize) (destination : Operand)
    (source : Option Operand) : Except BuildError OperandSize :=
  match explicit with
  | some size => .ok size
  | none =>
    if destination.isIndirect then .error (.missingSize kind)
    else
      match destination.directRegister?.or (source.bind Operand.directRegister?) with
      | some register => .ok register.size
      | none => .error (.missingSize kind)

/-- The width that the instruction carries, if its form has one. -/
def resolveSize (kind : Mnemonic) (form : Form) (check : WidthCheck) (explicit : Option OperandSize)
    (destination : Operand) (source : Option Operand) : Except BuildError (Option OperandSize) :=
  if form.isSized then do
    match check with
    | .enforce => checkWidths kind destination source
    | .skip => pure ()
    return some (← pickSize kind explicit destination source)
  else return none

/-- The instruction of a request, or the first fault found in it. -/
def resolve (request : Request) : Except BuildError Instruction := do
  let form ← request.checkForm
  let check ← request.widthCheck
  let destination := request.destination.normalize
  let source := request.source.map Argument.normalize
  checkMemory request.kind destination source
  let size ← resolveSize request.kind form check request.size destination source
  return { kind := request.kind, destination, source, size }

end Request
end X86Listing
