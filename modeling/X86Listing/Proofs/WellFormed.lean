import X86Listing.Sink

/-! Well-formed items. An instruction fills exactly the operand slots of its kind and carries a width
exactly if its kind has one; at most one of its operands is in memory, and a shift counts bits by a
number or by `cl`. A string is declared once, as bytes. -/

namespace X86Listing

/-- Whether the value can count the bits of a shift: a number or `cl`. -/
def Value.CountsBits : Value → Prop
  | .immediate _ => True
  | .register r => r = .cl
  | .symbol _ => False

instance : DecidablePred Value.CountsBits
  | .immediate _ => inferInstanceAs (Decidable True)
  | .register r => inferInstanceAs (Decidable (r = .cl))
  | .symbol _ => inferInstanceAs (Decidable False)

/-- Whether the operand can count the bits of a shift, for which it has to be direct. -/
def Operand.CountsBits (operand : Operand) : Prop :=
  operand.access = .direct ∧ operand.value.CountsBits

instance : DecidablePred Operand.CountsBits := fun operand =>
  inferInstanceAs (Decidable (operand.access = .direct ∧ operand.value.CountsBits))

/-- The operands and the width of an instruction are those that its kind calls for. -/
structure Instruction.WellFormed (instruction : Instruction) : Prop where
  form : ∃ form ∈ instruction.kind.form?,
    instruction.source.isSome = form.hasSource ∧ instruction.size.isSome = form.isSized
  /-- Not both operands are in memory. -/
  memory : ∀ source ∈ instruction.source,
    ¬(instruction.destination.isIndirect = true ∧ source.isIndirect = true)
  count : instruction.kind.isShift = true → ∃ source ∈ instruction.source, source.CountsBits

instance : DecidablePred Instruction.WellFormed := fun instruction =>
  decidable_of_iff
    ((∃ form ∈ instruction.kind.form?,
        instruction.source.isSome = form.hasSource ∧ instruction.size.isSome = form.isSized) ∧
      (∀ source ∈ instruction.source,
        ¬(instruction.destination.isIndirect = true ∧ source.isIndirect = true)) ∧
      (instruction.kind.isShift = true → ∃ source ∈ instruction.source, source.CountsBits))
    ⟨fun ⟨form, memory, count⟩ => ⟨form, memory, count⟩, fun ⟨form, memory, count⟩ =>
      ⟨form, memory, count⟩⟩

theorem Instruction.wellFormed_byteStore (address : UInt32) (value : UInt8) :
    (byteStore address value).WellFormed where
  form := ⟨.destinationSourceSized, rfl, rfl, rfl⟩
  memory := by
    rintro _ ⟨⟩ ⟨-, hsource⟩
    cases hsource
  count hshift := by cases hshift

/-- A statement whose instruction, if it is one, is well formed, and whose kind takes no operands if it
is written without them. -/
def Statement.WellFormed : Statement → Prop
  | .instruction i => i.WellFormed
  | .implicit kind => kind.form? = none
  | .label _ | .comment _ | .constant _ | .literal _ => True

instance : DecidablePred Statement.WellFormed
  | .instruction i => inferInstanceAs (Decidable i.WellFormed)
  | .implicit kind => inferInstanceAs (Decidable (kind.form? = none))
  | .label _ | .comment _ | .constant _ | .literal _ => inferInstanceAs (Decidable True)

/-- A string is declared once, as bytes. -/
def DataMember.WellFormed (member : DataMember) : Prop :=
  match member.value with
  | .integer _ => True
  | .string _ => member.element = .byte ∧ member.count = 1

instance : DecidablePred DataMember.WellFormed
  | ⟨_, .integer _, _, _⟩ => inferInstanceAs (Decidable True)
  | ⟨_, .string _, element, count⟩ => inferInstanceAs (Decidable (element = .byte ∧ count = 1))

/-- A well-formed statement or data member. -/
def Item.WellFormed : Item → Prop
  | .statement s => s.WellFormed
  | .data member => member.WellFormed

/-- A program of well-formed statements and data members. -/
structure Program.WellFormed (program : Program) : Prop where
  statements : ∀ statement ∈ program.statements, statement.WellFormed
  dataMembers : ∀ member ∈ program.dataMembers, member.WellFormed

instance : DecidablePred Program.WellFormed := fun program =>
  decidable_of_iff
    ((∀ statement ∈ program.statements, statement.WellFormed) ∧
      ∀ member ∈ program.dataMembers, member.WellFormed)
    ⟨fun ⟨statements, dataMembers⟩ => ⟨statements, dataMembers⟩,
      fun ⟨statements, dataMembers⟩ => ⟨statements, dataMembers⟩⟩

end X86Listing
