import X86Listing.Proofs.DefaultWidth
import X86Listing.Proofs.Rules

/-! Counts and widths. A shift by `cl` is accepted and gets its width as a shift by a number does: from the
caller or from the destination. The one exception is a shift of a number or a symbol itself, where neither
gives a width; there it takes the width of `cl`. The named shifts have a width for such a destination. -/

namespace X86Listing

/-- The instruction up to its source. -/
def Instruction.withoutSource (instruction : Instruction) : Instruction :=
  { instruction with source := none }

namespace Request

/-- A shift or rotate by a given value. -/
def shiftBy (op : ShiftOp) (destination : Argument) (size : Option OperandSize) (check : WidthCheck)
    (count : Value) : Request where
  kind := .shift op
  destination := destination
  source := some (.ofValue count)
  size := size
  check := check

/-- Whether neither the caller nor the destination can give a width, so that a direct source register is
asked. -/
structure LacksWidth (destination : Argument) (size : Option OperandSize) : Prop where
  size : size = none
  direct : destination.isIndirect = false
  value : destination.value.register? = none

variable {op : ShiftOp} {destination : Argument} {size : Option OperandSize} {check : WidthCheck}
  {kind : Mnemonic} {count : Value}

/-- Where a width comes from the caller or the destination, no source has a part in it. -/
theorem pickSize_of_not_lacksWidth (h : ¬LacksWidth destination size) (source : Option Operand) :
    pickSize kind size destination.normalize source =
      pickSize kind size destination.normalize none := by
  unfold pickSize
  cases size with
  | some size => rfl
  | none =>
    cases hindirect : destination.isIndirect with
    | true => simp only [Argument.isIndirect_normalize, hindirect, if_true]
    | false =>
      cases hvalue : destination.value.register? with
      | none => exact absurd ⟨rfl, hindirect, hvalue⟩ h
      | some r =>
        simp only [Argument.directRegister?_normalize, hindirect, hvalue, Bool.false_eq_true,
          if_false, Option.some_or]

theorem pickSize_of_lacksWidth (h : LacksWidth destination size) (count : Value) :
    pickSize kind size destination.normalize (some (.direct count)) =
      match count.register? with
      | some r => .ok r.size
      | none => .error (.missingSize kind) := by
  unfold pickSize
  rw [h.size]
  cases hcount : count.register? <;>
    simp only [Argument.isIndirect_normalize, Argument.directRegister?_normalize, h.direct, h.value,
      Operand.directRegister?_direct, hcount, Option.none_or, Option.bind_some, Bool.false_eq_true,
      if_false]

/-- A count passes every check of a shift, so that only the width is left to find. -/
theorem resolve_shiftBy (hcount : count.CountsBits) :
    (shiftBy op destination size check count).resolve =
      (pickSize (.shift op) size destination.normalize (some (.direct count))).map fun width =>
        ⟨.shift op, destination.normalize, some (.direct count), some width⟩ := by
  have hmemory : checkMemory (.shift op) destination.normalize (some (.direct count)) = .ok () := by
    apply checkMemory_eq_ok.mpr
    rintro _ ⟨⟩ ⟨-, hindirect⟩
    cases hindirect
  have hpassed : ∃ applied, (shiftBy op destination size check count).widthCheck = .ok applied ∧
      compareWidths (.shift op) applied destination.normalize (some (.direct count)) = .ok () := by
    cases count with
    | immediate number =>
      refine ⟨check, rfl, ?_⟩
      cases check with
      | skip => rfl
      | enforce =>
        apply checkWidths_eq_ok.mpr
        rintro d - _ ⟨⟩ s ⟨⟩
    | register r =>
      obtain rfl : r = .cl := hcount
      exact ⟨.skip, rfl, rfl⟩
    | symbol s => cases hcount
  obtain ⟨applied, hcheck, hwidths⟩ := hpassed
  unfold resolve
  rw [hcheck]
  change (checkMemory (.shift op) destination.normalize (some (.direct count)) >>= fun _ =>
    resolveSize (.shift op) .destinationSourceSized applied size destination.normalize
      (some (.direct count)) >>= fun found => Except.ok (Instruction.mk (.shift op)
        destination.normalize (some (.direct count)) found)) = _
  rw [hmemory, resolveSize_of_isSized rfl, hwidths]
  cases pickSize (.shift op) size destination.normalize (some (.direct count)) with
  | error error => rfl
  | ok width => rfl

/-- Two counts are told apart by the source alone, unless the width has to come from one of them. -/
theorem withoutSource_shiftBy {other : Value} {otherCheck : WidthCheck} (hcount : count.CountsBits)
    (hother : other.CountsBits) (h : ¬LacksWidth destination size) :
    (shiftBy op destination size check count).resolve.map Instruction.withoutSource =
      (shiftBy op destination size otherCheck other).resolve.map Instruction.withoutSource := by
  rw [resolve_shiftBy hcount, resolve_shiftBy hother, pickSize_of_not_lacksWidth h,
    pickSize_of_not_lacksWidth h (some (.direct other))]
  cases pickSize (.shift op) size destination.normalize none with
  | error error => rfl
  | ok width => rfl

theorem resolve_shiftBy_cl (h : LacksWidth destination size) :
    (shiftBy op destination size check (.register .cl)).resolve =
      .ok ⟨.shift op, destination.normalize, some (.direct (.register .cl)), some .byte⟩ := by
  have hcl : (Value.register .cl).CountsBits := rfl
  rw [resolve_shiftBy hcl, pickSize_of_lacksWidth h]
  rfl

theorem resolve_shiftBy_immediate (h : LacksWidth destination size) (number : UInt32) :
    (shiftBy op destination size check (.immediate number)).resolve =
      .error (.missingSize (.shift op)) := by
  have hnumber : (Value.immediate number).CountsBits := trivial
  rw [resolve_shiftBy hnumber, pickSize_of_lacksWidth h]
  rfl

/-- A named shift gives a width to every destination that has none. -/
theorem not_lacksWidth_operandSize (default : OperandSize) (destination : Argument) :
    ¬LacksWidth destination (operandSize default destination) := by
  intro h
  have hsome := isSome_operandSize h.value default
  rw [h.size] at hsome
  cases hsome

theorem withoutSource_shift (default : OperandSize) (op : ShiftOp) (destination : Argument)
    (bits : UInt8) :
    (shift default op destination (.register .cl) >>= resolve).map Instruction.withoutSource =
      (shift default op destination (.immediate bits) >>= resolve).map Instruction.withoutSource := by
  have hcl : (Value.register .cl).CountsBits := rfl
  have hbits : (Value.immediate bits.toUInt32).CountsBits := trivial
  exact withoutSource_shiftBy hcl hbits (not_lacksWidth_operandSize default destination)

/-- A shift by `cl` and the same shift by a number agree in all but the source exactly if the caller or
the destination can give a width. If neither can, the first takes the width of `cl`, and the second is
refused. The named shifts always agree. -/
theorem width_of_shift_by_cl (op : ShiftOp) (destination : Argument) (size : Option OperandSize)
    (check : WidthCheck) (number : UInt32) :
    let byCl := (shiftBy op destination size check (.register .cl)).resolve
    let byNumber := (shiftBy op destination size check (.immediate number)).resolve
    (byCl.map Instruction.withoutSource = byNumber.map Instruction.withoutSource ↔
      ¬LacksWidth destination size) ∧
    (LacksWidth destination size →
      byCl = .ok ⟨.shift op, destination.normalize, some (.direct (.register .cl)), some .byte⟩ ∧
        byNumber = .error (.missingSize (.shift op))) ∧
    ∀ (default : OperandSize) (bits : UInt8),
      (shift default op destination (.register .cl) >>= resolve).map Instruction.withoutSource =
        (shift default op destination (.immediate bits) >>= resolve).map
          Instruction.withoutSource := by
  intro byCl byNumber
  have hlacking (h : LacksWidth destination size) :
      byCl = .ok ⟨.shift op, destination.normalize, some (.direct (.register .cl)), some .byte⟩ ∧
        byNumber = .error (.missingSize (.shift op)) :=
    ⟨resolve_shiftBy_cl h, resolve_shiftBy_immediate h number⟩
  refine ⟨⟨fun hsame h => ?_, withoutSource_shiftBy rfl trivial⟩, hlacking,
    fun default bits => withoutSource_shift default op destination bits⟩
  obtain ⟨hcl, hnumber⟩ := hlacking h
  rw [hcl, hnumber] at hsame
  cases hsame

/-- Of a symbol itself, a shift by `cl` is a byte shift, and a shift by one is refused. -/
theorem shift_of_symbol_by_cl :
    let symbol : Argument := .ofValue (.symbol ⟨"x"⟩)
    (shiftBy .shl symbol none .enforce (.register .cl)).resolve =
        .ok ⟨.shift .shl, .direct (.symbol ⟨"x"⟩), some (.direct (.register .cl)), some .byte⟩ ∧
      (shiftBy .shl symbol none .enforce (.immediate 1)).resolve =
        .error (.missingSize (.shift .shl)) :=
  ⟨rfl, rfl⟩

end Request
end X86Listing
