import X86Listing.Proofs.NamedOperations
import X86Listing.Proofs.ShiftRequests

/-! What an operation on one operand comes to. It has a single fault. For an operation with a width this is that
nothing gives the width, in memory at a register; for a call or table load it is a value that cannot be an
address, in memory or not. Without the fault, a builder with room adds the operand. -/

namespace X86Listing

universe u

/-- Whether nothing gives a width to an operation on the operand: it is in memory at a register, without a
hint. -/
structure Argument.Unsized (operand : Argument) : Prop where
  memory : operand.isIndirect = true
  register : ∃ r, operand.value = .register r
  hint : operand.sizeHint = none

/-- Whether the value cannot be an address: a number, a segment register, or a register of less than 32
bits. -/
inductive Value.NoAddress : Value → Prop
  | immediate (number : UInt32) : NoAddress (.immediate number)
  | segment {r : Register} (hsegment : r.isSegment = true) : NoAddress (.register r)
  | narrow {r : Register} (hnarrow : r.size.bits < 32) : NoAddress (.register r)

theorem Value.noAddress_iff {value : Value} : value.NoAddress ↔ ¬value.HoldsAddress := by
  cases value with
  | immediate number => exact ⟨fun _ => id, fun _ => .immediate number⟩
  | symbol s => exact ⟨nofun, fun h => absurd trivial h⟩
  | register r =>
    have hnarrow : r.size.bits < 32 ↔ ¬(r.size = .dword ∨ r.size = .qword) := by
      cases r.size <;> decide
    constructor
    · rintro (_ | hsegment | hbits) ⟨hgeneral, hwide⟩
      · cases hsegment.symm.trans hgeneral
      · exact hnarrow.mp hbits hwide
    · intro h
      cases hsegment : r.isSegment with
      | true => exact .segment hsegment
      | false => exact .narrow (hnarrow.mpr fun hwide => h ⟨hsegment, hwide⟩)

namespace Request

variable {default : OperandSize} {operand : Argument}

/-- Without a source there is nothing to check but the width. -/
theorem resolve_without_source {kind : Mnemonic} {form : Form} (hform : kind.form? = some form)
    (hneeded : form.hasSource = false) (destination : Argument) (size : Option OperandSize)
    (check : WidthCheck) :
    resolve ⟨kind, destination, none, size, check⟩ =
      (resolveSize kind form check size destination.normalize none).map fun width =>
        ⟨kind, destination.normalize, none, width⟩ := by
  have hchecked : checkForm ⟨kind, destination, none, size, check⟩ = .ok form :=
    checkForm_eq_ok.mpr ⟨hform, hneeded.symm⟩
  have hcheck : widthCheck ⟨kind, destination, none, size, check⟩ = .ok check :=
    widthCheck_of_not_source rfl
  have hmemory : checkMemory kind destination.normalize none = .ok () := checkMemory_eq_ok.mpr nofun
  unfold resolve
  rw [hchecked, hcheck]
  change (checkMemory kind destination.normalize none >>= _) = _
  rw [hmemory]
  change (resolveSize kind form check size destination.normalize none >>= _) = _
  cases resolveSize kind form check size destination.normalize none <;> rfl

/-! ### Operations with a width -/

/-- The width of a one-operand operation: its hint, else that of a direct register, else the default. -/
def unaryWidth (default : OperandSize) (operand : Argument) : OperandSize :=
  (operand.sizeHint.or (operand.normalize.directRegister?.map Register.size)).getD default

theorem pickSize_of_not_unsized {kind : Mnemonic} (h : ¬operand.Unsized) :
    pickSize kind (operandSize default operand) operand.normalize none =
      .ok (unaryWidth default operand) := by
  unfold unaryWidth
  rw [operandSize_eq]
  cases hhint : operand.sizeHint with
  | some size => rfl
  | none =>
    cases hvalue : operand.value.register? with
    | none =>
      have hdirect : operand.normalize.directRegister? = none := by
        rw [Argument.directRegister?_normalize, hvalue, ite_self]
      rw [hdirect]
      rfl
    | some r =>
      have hmemory : operand.isIndirect = false := by
        rw [← Bool.not_eq_true]
        intro hindirect
        exact h ⟨hindirect, ⟨r, Value.register?_eq_some.mp hvalue⟩, hhint⟩
      have hdirect : operand.normalize.directRegister? = some r := by
        rw [Argument.directRegister?_normalize, hmemory]
        exact hvalue
      simp [pickSize, hmemory, hdirect]

theorem resolve_unary (default : OperandSize) (op : UnaryOp) (operand : Argument) :
    (unary default op operand).resolve =
      (pickSize (.unary op) (operandSize default operand) operand.normalize none).map fun width =>
        ⟨.unary op, operand.normalize, none, some width⟩ := by
  have hform : (Mnemonic.unary op).form? = some .destinationSized := rfl
  have hwidths : compareWidths (.unary op) .enforce operand.normalize none = .ok () :=
    checkWidths_eq_ok.mpr fun _ _ _ => nofun
  refine (resolve_without_source hform rfl operand (operandSize default operand) .enforce).trans ?_
  rw [resolveSize_of_isSized rfl, hwidths]
  cases pickSize (.unary op) (operandSize default operand) operand.normalize none <;> rfl

theorem resolve_unary_of_unsized (h : operand.Unsized) (default : OperandSize) (op : UnaryOp) :
    (unary default op operand).resolve = .error (.missingSize (.unary op)) := by
  rw [resolve_unary, pickSize_operandSize_eq_error.mpr ⟨⟨h.memory, h.register, h.hint⟩, rfl⟩]
  rfl

theorem resolve_unary_of_not_unsized (h : ¬operand.Unsized) (default : OperandSize) (op : UnaryOp) :
    (unary default op operand).resolve =
      .ok ⟨.unary op, operand.normalize, none, some (unaryWidth default operand)⟩ := by
  rw [resolve_unary, pickSize_of_not_unsized h]
  rfl

/-! ### Operations on an address -/

theorem address_of_noAddress (h : operand.value.NoAddress) (op : AddressOp) :
    address op operand = .error (.operands (.address op) (.notAnAddress operand.value)) := by
  unfold address
  rw [if_neg (mt isAddress_iff.mp (Value.noAddress_iff.mp h))]

theorem address_of_not_noAddress (h : ¬operand.value.NoAddress) (op : AddressOp) :
    address op operand = .ok { kind := .address op, destination := operand } := by
  have haddress : operand.value.HoldsAddress := Classical.not_not.mp (mt Value.noAddress_iff.mpr h)
  exact address_eq_ok.mpr ⟨isAddress_iff.mpr haddress, rfl⟩

theorem resolve_address (op : AddressOp) (operand : Argument) :
    resolve { kind := .address op, destination := operand } =
      .ok ⟨.address op, operand.normalize, none, none⟩ := by
  have hform : (Mnemonic.address op).form? = some .destination := rfl
  refine (resolve_without_source hform rfl operand none .enforce).trans ?_
  rw [resolveSize_of_not_isSized rfl]
  rfl

end Request

namespace Emission

theorem item_address_of_noAddress {operand : Argument} (h : operand.value.NoAddress)
    (default : OperandSize) (op : AddressOp) :
    (Emission.address op operand).item default =
      .error (.operands (.address op) (.notAnAddress operand.value)) := by
  change Request.address op operand >>= resolved = _
  rw [Request.address_of_noAddress h]
  rfl

theorem item_address_of_not_noAddress {operand : Argument} (h : ¬operand.value.NoAddress)
    (default : OperandSize) (op : AddressOp) :
    (Emission.address op operand).item default =
      .ok (.statement (.instruction ⟨.address op, operand.normalize, none, none⟩)) := by
  change Request.address op operand >>= resolved = _
  rw [Request.address_of_not_noAddress h]
  exact resolved_eq_ok_instruction.mpr (Request.resolve_address op operand)

end Emission

namespace Builder

variable {σ : Type u} [Sink σ]

/-- Whether an emission has one fault. With the fault it fails with the error and changes nothing; without it, a
statement is added. -/
structure AddsUnless (builder : Builder σ) (emission : Emission) (fault : Prop) (error : BuildError)
    (statement : Statement) : Prop where
  fails_iff : ∀ found, (builder.perform (.emit emission)).2.error = some found ↔ fault ∧ found = error
  failed : fault →
    builder.perform (.emit emission) = (builder, { error := some error, log := [.rejected error] })
  added : ¬fault →
    builder.perform (.emit emission) =
      (builder.add (.statement statement), { log := [.appended builder.statementCount statement] })

theorem addsUnless_of_item {builder : Builder σ} {emission : Emission} {fault : Prop}
    {error : BuildError} {statement : Statement}
    (hroom : builder.statementCount < builder.limits.maxStatements)
    (hfault : fault → emission.item builder.defaultSize = .error error)
    (hitem : ¬fault → emission.item builder.defaultSize = .ok (.statement statement)) :
    builder.AddsUnless emission fault error statement := by
  have hfailed (h : fault) : builder.perform (.emit emission) =
      (builder, { error := some error, log := [.rejected error] }) :=
    emit_of_error (hfault h)
  have hadded (h : ¬fault) : builder.perform (.emit emission) =
      (builder.add (.statement statement), { log := [.appended builder.statementCount statement] }) :=
    (emit_of_ok (hitem h)).trans (accept_of_hasRoom hroom)
  refine ⟨fun found => ?_, hfailed, hadded⟩
  by_cases h : fault
  · rw [hfailed h, Option.some.injEq]
    exact ⟨fun hsame => ⟨h, hsame.symm⟩, fun hsame => hsame.2.symm⟩
  · rw [hadded h]
    exact ⟨nofun, fun hsame => absurd hsame.1 h⟩

/-- What an operation on one operand comes to where there is room for a statement. One with a width fails exactly
on memory at a register without a hint, since its width is missing; else it adds the operand, with the hint, or
the width of a direct register, or the default. A call or table load fails exactly on a value that is no address,
however it is accessed or hinted; else it adds the operand, without a width. -/
theorem outcome_of_one_operand (builder : Builder σ) (operand : Argument)
    (hroom : builder.statementCount < builder.limits.maxStatements) :
    (∀ op : UnaryOp,
      builder.AddsUnless (.unary op operand) operand.Unsized (.missingSize (.unary op))
        (.instruction ⟨.unary op, operand.normalize, none,
          some (Request.unaryWidth builder.defaultSize operand)⟩)) ∧
    ∀ op : AddressOp,
      builder.AddsUnless (.address op operand) operand.value.NoAddress
        (.operands (.address op) (.notAnAddress operand.value))
        (.instruction ⟨.address op, operand.normalize, none, none⟩) := by
  constructor
  · intro op
    apply addsUnless_of_item hroom
    · intro hunsized
      exact Emission.resolved_of_error (Request.resolve_unary_of_unsized hunsized builder.defaultSize op)
    · intro hsized
      exact Emission.resolved_eq_ok_instruction.mpr
        (Request.resolve_unary_of_not_unsized hsized builder.defaultSize op)
  · intro op
    apply addsUnless_of_item hroom
    · intro hnone
      exact Emission.item_address_of_noAddress hnone builder.defaultSize op
    · intro haddress
      exact Emission.item_address_of_not_noAddress haddress builder.defaultSize op

/-- Memory at a register is no operand of a push, for want of a width, but one of a call; memory at a number is
the other way round, and takes the default width. -/
theorem outcome_of_one_operand_in_memory :
    let atRegister : Argument := .mem (.register (.pointer .bp .dword)) 8
    let atNumber : Argument := .deref (.immediate 0x10)
    let called : Statement := .instruction
      ⟨.address .call, .indirect (.register (.pointer .bp .dword)) 8, none, none⟩
    let pushed : Statement := .instruction
      ⟨.unary .push, .indirect (.immediate 0x10) 0, none, some .dword⟩
    let refusal : BuildError := .invalidOperands (.address .call)
      "expected a label or a 32/64-bit register, found 0x10"
    Builder.new.statementCount < Builder.new.limits.maxStatements ∧
    (Builder.new.perform (.emit (.unary .push atRegister))).2.error =
      some (.missingSize (.unary .push)) ∧
    (Builder.new.perform (.emit (.address .call atRegister))).1 =
      Builder.new.add (.statement called) ∧
    (Builder.new.perform (.emit (.unary .push atNumber))).1 = Builder.new.add (.statement pushed) ∧
    (Builder.new.perform (.emit (.address .call atNumber))).2.error = some refusal := by
  intro atRegister atNumber called pushed refusal
  have hroom : Builder.new.statementCount < Builder.new.limits.maxStatements := by decide
  obtain ⟨hpush, hcall⟩ := outcome_of_one_operand Builder.new atRegister hroom
  obtain ⟨hpushNumber, hcallNumber⟩ := outcome_of_one_operand Builder.new atNumber hroom
  have haddress : ¬atRegister.value.NoAddress := by
    rw [Value.noAddress_iff]
    exact not_not_intro ⟨rfl, Or.inl rfl⟩
  have hsized : ¬atNumber.Unsized := by
    rintro ⟨-, ⟨r, ⟨⟩⟩, -⟩
  refine ⟨hroom, ((hpush .push).fails_iff _).mpr ⟨⟨rfl, ⟨_, rfl⟩, rfl⟩, rfl⟩, ?_, ?_, ?_⟩
  · exact congrArg Prod.fst ((hcall .call).added haddress)
  · exact congrArg Prod.fst ((hpushNumber .push).added hsized)
  · exact ((hcallNumber .call).fails_iff refusal).mpr ⟨.immediate 0x10, by decide⟩

end Builder
end X86Listing
