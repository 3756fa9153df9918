import X86Listing.Proofs.Rules
import X86Listing.Proofs.Stream

/-! The byte store and its checks. A byte store is added without a request, and so without any check. What it
adds is what the request for it resolves to, since a number as a direct source can break no rule once the width
is given. So a builder cannot tell it from the move that is checked, in one call or in a run. -/

namespace X86Listing

universe u

namespace Request

/-- The request for a byte store. -/
def byteStore (address : UInt32) (value : UInt8) (check : WidthCheck) : Request where
  kind := .binary .mov
  destination := .mem (.immediate address) 0
  source := some (.ofValue (.immediate value.toUInt32))
  size := some .byte
  check := check

/-- With a width of its own, a two-operand operation from a direct number or symbol passes every check. -/
theorem resolve_of_direct_source {source : Argument} (hdirect : source.isIndirect = false)
    (hvalue : source.value.register? = none) (op : BinaryOp) (destination : Argument) (size : OperandSize)
    (check : WidthCheck) :
    resolve ⟨.binary op, destination, some source, some size, check⟩ =
      .ok ⟨.binary op, destination.normalize, some source.normalize, some size⟩ := by
  have hmemory : checkMemory (.binary op) destination.normalize (some source.normalize) = .ok () := by
    apply checkMemory_eq_ok.mpr
    rintro _ ⟨⟩ ⟨-, hindirect⟩
    rw [Argument.isIndirect_normalize, hdirect] at hindirect
    cases hindirect
  have hwidths : checkWidths (.binary op) destination.normalize (some source.normalize) = .ok () := by
    apply checkWidths_eq_ok.mpr
    rintro d - _ ⟨⟩ s hs
    rw [Argument.directRegister?_normalize, hvalue, ite_self] at hs
    cases hs
  exact resolve_eq_ok.mpr ⟨.destinationSourceSized, check, some size, checkForm_eq_ok.mpr ⟨rfl, rfl⟩,
    widthCheck_of_not_isShift rfl, hmemory,
    (resolveSize_eq_ok rfl).mpr ⟨fun _ => hwidths, size, rfl, rfl⟩, rfl⟩

theorem resolve_byteStore (address : UInt32) (value : UInt8) (check : WidthCheck) :
    (byteStore address value check).resolve = .ok (.byteStore address value) :=
  resolve_of_direct_source rfl rfl .mov (.mem (.immediate address) 0) .byte check

end Request

namespace Emission

/-- The byte store as a move to a sized argument, with all its checks. -/
def checkedByteStore (address : UInt32) (value : UInt8) : Emission :=
  .binary .mov ((Argument.deref (.immediate address)).sized .byte) (.ofValue (.immediate value.toUInt32))

theorem item_instruction_byteStore (default : OperandSize) (address : UInt32) (value : UInt8)
    (check : WidthCheck) :
    (Emission.instruction (.byteStore address value check)).item default =
      (Emission.byteStore address value).item default :=
  resolved_eq_ok_instruction.mpr (Request.resolve_byteStore address value check)

theorem item_checkedByteStore (default : OperandSize) (address : UInt32) (value : UInt8) :
    (checkedByteStore address value).item default = (Emission.byteStore address value).item default := by
  have hresolve : (Request.binary default .mov ((Argument.deref (.immediate address)).sized .byte)
      (.ofValue (.immediate value.toUInt32))).resolve = .ok (.byteStore address value) :=
    -- the hint is the width, before the default is asked
    Request.resolve_of_direct_source rfl rfl .mov ((Argument.deref (.immediate address)).sized .byte) .byte
      .enforce
  exact resolved_eq_ok_instruction.mpr hresolve

end Emission

/-- The call with a byte store replaced by the move that is checked. -/
def Call.checked : Call → Call
  | .emit (.byteStore address value) => .emit (.checkedByteStore address value)
  | call => call

namespace Builder

variable {σ : Type u} [Sink σ]

theorem perform_checked (builder : Builder σ) (call : Call) :
    builder.perform call.checked = builder.perform call := by
  unfold Call.checked
  split
  · exact perform_congr_item (Emission.item_checkedByteStore builder.defaultSize _ _)
  · rfl

theorem run_checked (builder : Builder σ) (calls : List Call) :
    builder.run (calls.map Call.checked) = builder.run calls := by
  induction calls generalizing builder with
  | nil => rfl
  | cons call calls ih => rw [List.map_cons, run_cons, run_cons, perform_checked, ih]

/-- In every state of a builder, whatever sink it fills, a byte store does what the checked move to `[address]`
in bytes does, and what the request for it does with either width check: same builder, same answer, same log.
Its instruction is what that request resolves to. So a run stays what it is when each of its byte stores is
checked. -/
theorem byteStore_agrees_with_checks (builder : Builder σ) (address : UInt32) (value : UInt8) :
    let outcome := builder.perform (.emit (.byteStore address value))
    outcome = builder.perform (.emit (.checkedByteStore address value)) ∧
    (∀ check : WidthCheck,
      outcome = builder.perform (.emit (.instruction (.byteStore address value check))) ∧
        (Request.byteStore address value check).resolve = .ok (.byteStore address value)) ∧
    ∀ calls : List Call, builder.run (calls.map Call.checked) = builder.run calls := by
  intro outcome
  refine ⟨?_, fun check => ⟨?_, Request.resolve_byteStore address value check⟩, builder.run_checked⟩
  · exact (builder.perform_checked (.emit (.byteStore address value))).symm
  · apply perform_congr_item
    exact (Emission.item_instruction_byteStore builder.defaultSize address value check).symm

end Builder
end X86Listing
