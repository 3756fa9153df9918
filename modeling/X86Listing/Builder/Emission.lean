import X86Listing.Request.Operation
import X86Listing.Sink

/-! Emissions. An emission asks for one item of a program; which item that is, or why it is none, depends
on the emission and the default width alone. -/

namespace X86Listing

/-- What a builder can be asked to add. -/
inductive Emission where
  /-- Any request, without defaults. -/
  | instruction (request : Request)
  | binary (op : BinaryOp) (destination source : Argument)
  | shift (op : ShiftOp) (destination : Argument) (count : ShiftCount)
  | unary (op : UnaryOp) (operand : Argument)
  | jump (label : Symbol)
  | jumpIf (condition : Condition) (label : Symbol)
  | address (op : AddressOp) (operand : Argument)
  | writeDevice (register : Register)
  | readDevice (register : Register)
  | byteStore (address : UInt32) (value : UInt8)
  | implicit (op : ImplicitOp)
  | label (name : String)
  | comment (content : String)
  | constant (constant : Constant)
  | literal (code : String)
  | scalar (name : String) (number : UInt32)
  | string (name content : String)
  | array (name : String) (count : UInt32) (element : OperandSize) (number : UInt32)
  deriving DecidableEq

namespace Emission

/-- The instruction statement of a request. -/
def resolved (request : Request) : Except BuildError Item :=
  request.resolve.map fun instruction => .statement (.instruction instruction)

/-- The item that is asked for. -/
def item (default : OperandSize) : Emission → Except BuildError Item
  | .instruction request => resolved request
  | .binary op destination source => resolved (.binary default op destination source)
  | .shift op destination count => Request.shift default op destination count >>= resolved
  | .unary op operand => resolved (.unary default op operand)
  | .jump name => resolved (.jump name)
  | .jumpIf condition name => resolved (.jumpIf condition name)
  | .address op operand => Request.address op operand >>= resolved
  | .writeDevice register => resolved (.writeDevice register)
  | .readDevice register => resolved (.readDevice register)
  | .byteStore target value => .ok (.statement (.instruction (.byteStore target value)))
  | .implicit op => .ok (.statement (.implicit (.implicit op)))
  | .label name => .ok (.statement (.label name))
  | .comment content => .ok (.statement (.comment content))
  | .constant c => .ok (.statement (.constant c))
  | .literal code => .ok (.statement (.literal code))
  | .scalar name number => .ok (.data (.scalar name number))
  | .string name content => .ok (.data (.string name content))
  | .array name count element number => .ok (.data (.array name count element number))

end Emission
end X86Listing
