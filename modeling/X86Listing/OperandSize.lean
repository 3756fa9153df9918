/-! Operand widths. The four widths are ordered by their number of bits, and a width is recovered
from that number. -/

namespace X86Listing

/-- Width of an operand. -/
inductive OperandSize where
  | byte
  | word
  | dword
  | qword
  deriving DecidableEq

namespace OperandSize

/-- Every width, narrowest first. -/
def all : List OperandSize := [.byte, .word, .dword, .qword]

theorem mem_all (size : OperandSize) : size ∈ all := by
  cases size <;> decide

/-- Number of bits of an operand of this width. -/
def bits : OperandSize → Nat
  | .byte => 8
  | .word => 16
  | .dword => 32
  | .qword => 64

/-- The width with this number of bits, if there is one. -/
def ofBits? : Nat → Option OperandSize
  | 8 => some .byte
  | 16 => some .word
  | 32 => some .dword
  | 64 => some .qword
  | _ => none

theorem ofBits?_bits (size : OperandSize) : ofBits? size.bits = some size := by
  cases size <;> rfl

instance : Ord OperandSize := ⟨fun left right => compare left.bits right.bits⟩

/-- The word that stands before `ptr`. -/
def text : OperandSize → String
  | .byte => "byte"
  | .word => "word"
  | .dword => "dword"
  | .qword => "qword"

/-- The directive that declares data elements of this width. -/
def directive : OperandSize → String
  | .byte => "db"
  | .word => "dw"
  | .dword => "dd"
  | .qword => "dq"

end OperandSize
end X86Listing
