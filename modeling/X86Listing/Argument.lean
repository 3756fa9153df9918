import X86Listing.Operand

/-! Arguments. An argument is an operand as the caller gives it: a value, refined step by step. A
displacement makes it indirect, and an indirect argument without one has displacement zero. -/

namespace X86Listing

/-- An operand as the caller gives it. -/
structure Argument where
  value : Value
  /-- Whether the argument was marked as indirect. -/
  marked : Bool := false
  /-- The displacement last given. -/
  offset : Option Int32 := none
  /-- The width last given. -/
  sizeHint : Option OperandSize := none
  deriving DecidableEq

/-- One refinement of an argument. -/
inductive Refinement where
  | indirect
  | displacement (offset : Int32)
  | sized (size : OperandSize)
  deriving DecidableEq

namespace Argument

/-- A direct argument. -/
def ofValue (value : Value) : Argument where
  value := value

/-- Marks the argument as indirect. -/
def indirect (argument : Argument) : Argument := { argument with marked := true }

/-- Gives the argument a displacement, in place of an earlier one. -/
def displacement (argument : Argument) (offset : Int32) : Argument :=
  { argument with offset := some offset }

/-- Gives the argument a width, in place of an earlier one. -/
def sized (argument : Argument) (size : OperandSize) : Argument :=
  { argument with sizeHint := some size }

/-- The argument `[value]`. -/
def deref (value : Value) : Argument := (ofValue value).indirect

/-- The argument `[value + offset]`. -/
def mem (value : Value) (offset : Int32) : Argument := (ofValue value).displacement offset

/-- Applies one refinement. -/
def refine (argument : Argument) : Refinement → Argument
  | .indirect => argument.indirect
  | .displacement offset => argument.displacement offset
  | .sized size => argument.sized size

/-- Whether the argument stands for memory. -/
def isIndirect (argument : Argument) : Bool := argument.marked || argument.offset.isSome

/-- The operand that the argument stands for. -/
def normalize (argument : Argument) : Operand :=
  match argument.offset, argument.marked with
  | some offset, _ => .indirect argument.value offset
  | none, true => .indirect argument.value 0
  | none, false => .direct argument.value

@[simp] theorem normalize_ofValue (value : Value) : (ofValue value).normalize = .direct value := rfl

@[simp] theorem normalize_deref (value : Value) : (deref value).normalize = .indirect value 0 := rfl

@[simp] theorem normalize_mem (value : Value) (offset : Int32) :
    (mem value offset).normalize = .indirect value offset := rfl

@[simp] theorem value_normalize (argument : Argument) :
    argument.normalize.value = argument.value := by
  unfold normalize
  split <;> rfl

@[simp] theorem isIndirect_normalize (argument : Argument) :
    argument.normalize.isIndirect = argument.isIndirect := by
  obtain ⟨value, marked, offset, sizeHint⟩ := argument
  cases offset <;> cases marked <;> rfl

end Argument
end X86Listing
