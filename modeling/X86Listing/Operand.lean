import X86Listing.Register

/-! Operands. An operand names a register, a number or a symbol, and is either that value itself or the
memory at that value plus a displacement. -/

namespace X86Listing

/-- A reference to a label or data member; the name is not checked. -/
structure Symbol where
  name : String
  deriving DecidableEq

/-- What an operand names. -/
inductive Value where
  | register (register : Register)
  /-- A number, which is an absolute address when the operand is indirect. -/
  | immediate (number : UInt32)
  | symbol (symbol : Symbol)
  deriving DecidableEq

/-- How an operand is accessed. -/
inductive Access where
  /-- The operand's own value. -/
  | direct
  /-- The memory at the operand's value plus a byte displacement; zero is the plain `[value]`. -/
  | indirect (displacement : Int32)
  deriving DecidableEq

/-- An operand of an instruction. -/
structure Operand where
  value : Value
  access : Access
  deriving DecidableEq

namespace Value

/-- The register, if the value is one. -/
def register? : Value → Option Register
  | .register r => some r
  | _ => none

/-- Text of the value. -/
def text : Value → String
  | .register r => r.text
  | .immediate n => Text.hexadecimal n.toNat
  | .symbol s => s.name

end Value

namespace Access

/-- Whether the access is to memory. -/
def isIndirect : Access → Bool
  | .direct => false
  | .indirect _ => true

/-- The displacement, if it is written: `none` for direct access and for zero. -/
def displacement? : Access → Option Int32
  | .direct => none
  | .indirect displacement => if displacement = 0 then none else some displacement

end Access

namespace Operand

/-- The value itself. -/
def direct (value : Value) : Operand := ⟨value, .direct⟩

/-- The memory at a value plus a displacement. -/
def indirect (value : Value) (displacement : Int32) : Operand := ⟨value, .indirect displacement⟩

/-- Whether the operand is in memory. -/
def isIndirect (operand : Operand) : Bool := operand.access.isIndirect

@[simp] theorem isIndirect_direct (value : Value) : (direct value).isIndirect = false := rfl

@[simp] theorem isIndirect_indirect (value : Value) (displacement : Int32) :
    (indirect value displacement).isIndirect = true := rfl

/-- The displacement, if it is written. -/
def displacement? (operand : Operand) : Option Int32 := operand.access.displacement?

/-- The register of a direct register operand. -/
def directRegister? (operand : Operand) : Option Register :=
  match operand.access with
  | .direct => operand.value.register?
  | .indirect _ => none

@[simp] theorem directRegister?_direct (value : Value) :
    (direct value).directRegister? = value.register? := rfl

@[simp] theorem directRegister?_indirect (value : Value) (displacement : Int32) :
    (indirect value displacement).directRegister? = none := rfl

/-- A displacement as sign and magnitude, and nothing for zero. -/
def offsetText (displacement : Int) : String :=
  if 0 < displacement then "+" ++ Text.hexadecimal displacement.natAbs
  else if displacement < 0 then "-" ++ Text.hexadecimal displacement.natAbs
  else ""

/-- Text of the operand: an indirect one in brackets. -/
def text (operand : Operand) : String :=
  match operand.access with
  | .direct => operand.value.text
  | .indirect displacement => "[" ++ operand.value.text ++ offsetText displacement.toInt ++ "]"

end Operand
end X86Listing
