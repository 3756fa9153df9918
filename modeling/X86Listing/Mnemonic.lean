import X86Listing.Condition
import X86Listing.OperandSize

/-! Instruction kinds. They are grouped by what their operands are for, so that the operand slots of
a kind are read off its group. -/

namespace X86Listing

/-- Two-operand instructions with a width. -/
inductive BinaryOp where
  | mov
  | xchg
  | add
  | adc
  | sub
  | sbb
  | and
  | or
  | xor
  | cmp
  | test
  | imul
  deriving DecidableEq

/-- Shifts and rotates, whose source is a bit count. -/
inductive ShiftOp where
  | shl
  | shr
  | rol
  | ror
  deriving DecidableEq

/-- One-operand instructions with a width. -/
inductive UnaryOp where
  | inc
  | dec
  | neg
  | not
  | mul
  | div
  | idiv
  | push
  | pop
  deriving DecidableEq

/-- Transfers between a register and the device whose address is in `dx`. -/
inductive DeviceOp where
  | input
  | output
  deriving DecidableEq

/-- One-operand instructions whose operand is an address. -/
inductive AddressOp where
  | call
  | lgdt
  | lidt
  deriving DecidableEq

/-- Instructions without explicit operands. -/
inductive ImplicitOp where
  | ret
  | iret
  | cli
  | sti
  | cld
  | hlt
  | int3
  | nop
  | pushad
  | popad
  | stosb
  | stosw
  /-- Sign-extends the accumulator of this width into the next wider register. -/
  | signExtend (size : OperandSize)
  deriving DecidableEq

/-- Instruction kind. -/
inductive Mnemonic where
  | binary (op : BinaryOp)
  | shift (op : ShiftOp)
  | unary (op : UnaryOp)
  | device (op : DeviceOp)
  | jump
  | jumpIf (condition : Condition)
  | address (op : AddressOp)
  | implicit (op : ImplicitOp)
  deriving DecidableEq

/-- The operand slots of an instruction. -/
inductive Form where
  /-- One operand, no width: `jmp label`. -/
  | destination
  /-- One operand with a width: `inc eax`. -/
  | destinationSized
  /-- Two operands, no width: `out dx, al`. -/
  | destinationSource
  /-- Two operands with a width: `add eax, ebx`. -/
  | destinationSourceSized
  deriving DecidableEq

namespace Form

/-- Whether the instruction has a source operand. -/
def hasSource : Form → Bool
  | .destinationSource | .destinationSourceSized => true
  | .destination | .destinationSized => false

/-- Whether the instruction carries a width. -/
def isSized : Form → Bool
  | .destinationSized | .destinationSourceSized => true
  | .destination | .destinationSource => false

end Form

namespace BinaryOp

/-- Every two-operand instruction with a width. -/
def all : List BinaryOp := [.mov, .xchg, .add, .adc, .sub, .sbb, .and, .or, .xor, .cmp, .test, .imul]

/-- Name of the instruction. -/
def text : BinaryOp → String
  | .mov => "mov"
  | .xchg => "xchg"
  | .add => "add"
  | .adc => "adc"
  | .sub => "sub"
  | .sbb => "sbb"
  | .and => "and"
  | .or => "or"
  | .xor => "xor"
  | .cmp => "cmp"
  | .test => "test"
  | .imul => "imul"

end BinaryOp

namespace ShiftOp

/-- Every shift and rotate. -/
def all : List ShiftOp := [.shl, .shr, .rol, .ror]

/-- Name of the instruction. -/
def text : ShiftOp → String
  | .shl => "shl"
  | .shr => "shr"
  | .rol => "rol"
  | .ror => "ror"

end ShiftOp

namespace UnaryOp

/-- Every one-operand instruction with a width. -/
def all : List UnaryOp := [.inc, .dec, .neg, .not, .mul, .div, .idiv, .push, .pop]

/-- Name of the instruction. -/
def text : UnaryOp → String
  | .inc => "inc"
  | .dec => "dec"
  | .neg => "neg"
  | .not => "not"
  | .mul => "mul"
  | .div => "div"
  | .idiv => "idiv"
  | .push => "push"
  | .pop => "pop"

end UnaryOp

namespace DeviceOp

/-- Both device transfers. -/
def all : List DeviceOp := [.input, .output]

/-- Name of the instruction. -/
def text : DeviceOp → String
  | .input => "in"
  | .output => "out"

end DeviceOp

namespace AddressOp

/-- Every instruction on an address. -/
def all : List AddressOp := [.call, .lgdt, .lidt]

/-- Name of the instruction. -/
def text : AddressOp → String
  | .call => "call"
  | .lgdt => "lgdt"
  | .lidt => "lidt"

end AddressOp

namespace ImplicitOp

/-- Every instruction without operands whose name is fixed. -/
def plain : List ImplicitOp :=
  [.ret, .iret, .cli, .sti, .cld, .hlt, .int3, .nop, .pushad, .popad, .stosb, .stosw]

/-- Name of the instruction. -/
def text : ImplicitOp → String
  | .ret => "ret"
  | .iret => "iret"
  | .cli => "cli"
  | .sti => "sti"
  | .cld => "cld"
  | .hlt => "hlt"
  | .int3 => "int3"
  | .nop => "nop"
  | .pushad => "pushad"
  | .popad => "popad"
  | .stosb => "stosb"
  | .stosw => "stosw"
  | .signExtend .byte => "cbw"
  | .signExtend .word => "cwd"
  | .signExtend .dword => "cdq"
  | .signExtend .qword => "cqo"

end ImplicitOp

namespace Mnemonic

/-- The operand slots of the kind, or `none` for one without explicit operands. -/
def form? : Mnemonic → Option Form
  | .binary _ | .shift _ => some .destinationSourceSized
  | .unary _ => some .destinationSized
  | .device _ => some .destinationSource
  | .jump | .jumpIf _ | .address _ => some .destination
  | .implicit _ => none

/-- Whether the kind is a shift or rotate. -/
def isShift : Mnemonic → Bool
  | .shift _ => true
  | _ => false

theorem form?_of_isShift {kind : Mnemonic} (hshift : kind.isShift = true) :
    kind.form? = some .destinationSourceSized := by
  cases kind with
  | shift op => rfl
  | _ => cases hshift

/-- Name of the instruction. -/
def text : Mnemonic → String
  | .binary op => op.text
  | .shift op => op.text
  | .unary op => op.text
  | .device op => op.text
  | .jump => "jmp"
  | .jumpIf condition => "j" ++ condition.text
  | .address op => op.text
  | .implicit op => op.text

end Mnemonic
end X86Listing
