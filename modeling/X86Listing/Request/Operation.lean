import X86Listing.Request

/-! Requests of the named operations. Where neither the caller nor a register gives a width, an operation
on a number or a symbol takes a default one; an operand in memory at a register never does. A shift is
counted by a number or by `cl`, the only register that can hold a count. -/

namespace X86Listing

/-- How many bits to shift by. -/
inductive ShiftCount where
  | immediate (bits : UInt8)
  | register (register : Register)
  deriving DecidableEq

/-- The source argument of a count, with the width check that it needs. -/
def ShiftCount.source (kind : Mnemonic) : ShiftCount → Except BuildError (Argument × WidthCheck)
  | .immediate n => .ok (.ofValue (.immediate n.toUInt32), .enforce)
  | .register .cl => .ok (.ofValue (.register .cl), .skip)
  | .register r => .error (.invalidCountRegister kind r)

namespace Request

/-- The width of an operation on one operand, before the operand's own register is asked. -/
def operandSize (default : OperandSize) (operand : Argument) : Option OperandSize :=
  operand.sizeHint.or <|
    match operand.value with
    | .register _ => none
    | _ => some default

/-- The width of an operation on two operands, before the destination's own register is asked. A direct
source register stands in before the default. -/
def operandsSize (default : OperandSize) (destination source : Argument) : Option OperandSize :=
  destination.sizeHint.or <| source.sizeHint.or <|
    match destination.value, source.value with
    | .register _, _ => none
    | _, .register r => if source.isIndirect then some default else some r.size
    | _, _ => some default

/-- A two-operand operation with a width. -/
def binary (default : OperandSize) (op : BinaryOp) (destination source : Argument) : Request where
  kind := .binary op
  destination := destination
  source := some source
  size := operandsSize default destination source

/-- A one-operand operation with a width. -/
def unary (default : OperandSize) (op : UnaryOp) (operand : Argument) : Request where
  kind := .unary op
  destination := operand
  size := operandSize default operand

/-- A shift or rotate; the count is checked before anything else. -/
def shift (default : OperandSize) (op : ShiftOp) (destination : Argument) (count : ShiftCount) :
    Except BuildError Request := do
  let (source, check) ← count.source (.shift op)
  return {
    kind := .shift op
    destination
    source := some source
    size := operandSize default destination
    check }

/-- A jump to a label. -/
def jump (label : Symbol) : Request where
  kind := .jump
  destination := .ofValue (.symbol label)

/-- A conditional jump to a label. -/
def jumpIf (condition : Condition) (label : Symbol) : Request where
  kind := .jumpIf condition
  destination := .ofValue (.symbol label)

/-- Whether a value can be an address operand: a symbol, or a register that can hold an address. -/
def isAddress : Value → Bool
  | .symbol _ => true
  | .register r => r.isAddressSized
  | .immediate _ => false

/-- A call or a descriptor table load. -/
def address (op : AddressOp) (operand : Argument) : Except BuildError Request :=
  if isAddress operand.value then .ok { kind := .address op, destination := operand }
  else .error (.operands (.address op) (.notAnAddress operand.value))

/-- A write of a register to the device whose address is in `dx`. -/
def writeDevice (register : Register) : Request where
  kind := .device .output
  destination := .ofValue (.register .dx)
  source := some (.ofValue (.register register))

/-- A read from the device whose address is in `dx` into a register. -/
def readDevice (register : Register) : Request where
  kind := .device .input
  destination := .ofValue (.register register)
  source := some (.ofValue (.register .dx))

end Request
end X86Listing
