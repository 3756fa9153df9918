import X86Listing.Proofs.Outcomes
import X86Listing.Proofs.Relaxation
import X86Listing.Proofs.ShiftWidth

/-! Shifts by name and by request. The width check decides no shift: what it could find, the rule of counts
finds before. So a named shift does what the bare request for it does, with the count as its source and the
width of a hint or else, where the destination names no register, of the default. It has two faults: a count
in a register other than `cl`, and a destination in memory at a register that nothing gives a width. -/

namespace X86Listing

universe u

theorem map_eq_error {ε α β : Type} {attempt : Except ε α} {f : α → β} {error : ε} :
    attempt.map f = .error error ↔ attempt = .error error := by
  cases attempt <;> simp [Except.map]

/-- The value that counts the bits. -/
def ShiftCount.value : ShiftCount → Value
  | .immediate bits => .immediate bits.toUInt32
  | .register r => .register r

namespace ShiftCount

variable {count : ShiftCount}

theorem exists_register_of_not_countsBits (h : ¬count.value.CountsBits) :
    ∃ r, count = .register r ∧ r ≠ .cl := by
  cases count with
  | immediate bits => exact absurd trivial h
  | register r => exact ⟨r, rfl, h⟩

theorem source_of_countsBits (h : count.value.CountsBits) (kind : Mnemonic) :
    ∃ check, count.source kind = .ok (.ofValue count.value, check) := by
  cases count with
  | immediate bits => exact ⟨.enforce, rfl⟩
  | register r =>
    obtain rfl : r = .cl := h
    exact ⟨.skip, rfl⟩

theorem source_of_register {r : Register} (hcl : r ≠ .cl) (kind : Mnemonic) :
    (register r).source kind = .error (.invalidCountRegister kind r) := by
  simp [source]

end ShiftCount

namespace Request

variable {default : OperandSize} {op : ShiftOp} {destination : Argument} {count : ShiftCount}
  {check : WidthCheck} {size : Option OperandSize} {error : BuildError}

/-! ### The width check of a shift -/

/-- A shift that fails the width check is by a register other than `cl`, which is refused before. -/
theorem BreaksFirst.ne_widths {request : Request} {rule : Rule} (h : request.BreaksFirst rule error)
    (hshift : request.kind.isShift = true) : rule ≠ .widths := by
  rintro rfl
  cases h.breaks with
  | @widths form d s hform hsized hcheck hcl hdestination hsource hne =>
    have hregister : s ≠ .cl := by
      rintro rfl
      exact hcl ⟨hshift, hsource⟩
    exact h.earlier .count (by decide) _ (.countRegister hshift hsource hregister)

theorem resolve_enforce_of_isShift (request : Request) (hshift : request.kind.isShift = true) :
    { request with check := .enforce }.resolve = { request with check := .skip }.resolve := by
  symm
  apply request.relaxes_skip.resolve_eq rfl
  intro error hfirst
  exact absurd rfl (hfirst.ne_widths hshift)

theorem resolve_check_of_isShift (request : Request) (hshift : request.kind.isShift = true)
    (check : WidthCheck) : { request with check }.resolve = request.resolve := by
  have hsame (check : WidthCheck) :
      { request with check }.resolve = { request with check := .skip }.resolve := by
    cases check with
    | skip => rfl
    | enforce => exact request.resolve_enforce_of_isShift hshift
  exact (hsame check).trans (hsame request.check).symm

/-! ### Named shifts -/

theorem resolve_shiftBy_of_register {r : Register} (hcl : r ≠ .cl) :
    (shiftBy op destination size check (.register r)).resolve =
      .error (.invalidCountRegister (.shift op) r) := by
  have hcount : (shiftBy op destination size check (.register r)).widthCheck =
      .error (.invalidCountRegister (.shift op) r) :=
    checkCount_eq_error.mpr (Or.inr (Or.inl ⟨r, rfl, hcl, rfl⟩))
  unfold resolve
  rw [hcount]
  rfl

/-- A named shift resolves like the bare request for it, whatever width check that asks for. -/
theorem shift_bind_resolve (default : OperandSize) (op : ShiftOp) (destination : Argument)
    (count : ShiftCount) (check : WidthCheck) :
    shift default op destination count >>= resolve =
      (shiftBy op destination (operandSize default destination) check count.value).resolve := by
  by_cases hbits : count.value.CountsBits
  -- the named shift skips the width check by `cl` only; for either check the request is the same
  · obtain ⟨found, hsource⟩ := ShiftCount.source_of_countsBits hbits (.shift op)
    have hshift : shift default op destination count =
        .ok (shiftBy op destination (operandSize default destination) found count.value) :=
      shift_eq_ok.mpr ⟨_, found, hsource, rfl⟩
    rw [hshift]
    exact ((shiftBy op destination (operandSize default destination) found
      count.value).resolve_check_of_isShift rfl check).symm
  · obtain ⟨r, rfl, hcl⟩ := ShiftCount.exists_register_of_not_countsBits hbits
    change _ = (shiftBy op destination _ check (.register r)).resolve
    rw [resolve_shiftBy_of_register hcl, shift, ShiftCount.source_of_register hcl]
    rfl

/-- The width of an operation on one operand is its hint, or else the default if it names no register. -/
theorem operandSize_eq (default : OperandSize) (operand : Argument) :
    operandSize default operand =
      operand.sizeHint.or (if operand.value.register?.isSome then none else some default) := by
  unfold operandSize
  cases operand.value <;> rfl

/-- An operation on one operand lacks a width only in memory at a register, and without a hint. -/
theorem pickSize_operandSize_eq_error {kind : Mnemonic} {operand : Argument} :
    pickSize kind (operandSize default operand) operand.normalize none = .error error ↔
      (operand.isIndirect = true ∧ (∃ r, operand.value = .register r) ∧ operand.sizeHint = none) ∧
        error = .missingSize kind := by
  cases hvalue : operand.value with
  | register r =>
    rw [operandSize_of_register hvalue]
    cases hhint : operand.sizeHint with
    | some size => simp [pickSize]
    | none =>
      have hregister : operand.value.register? = some r := congrArg Value.register? hvalue
      cases hindirect : operand.isIndirect with
      | true => simp [pickSize, hindirect, eq_comm]
      | false => simp [pickSize, hindirect, Argument.directRegister?_normalize, hregister]
  | immediate _ | symbol _ =>
    have hsome : (operandSize default operand).isSome = true :=
      isSome_operandSize (congrArg Value.register? hvalue) default
    obtain ⟨size, hsize⟩ := Option.isSome_iff_exists.mp hsome
    simp [pickSize, hsize]

/-- What is wrong with a named shift. -/
inductive ShiftFault (op : ShiftOp) (destination : Argument) (count : ShiftCount) : BuildError → Prop
  | count {r : Register} (hcount : count = .register r) (hcl : r ≠ .cl) :
      ShiftFault op destination count (.invalidCountRegister (.shift op) r)
  | size {r : Register} (hcount : ∀ counter, count = .register counter → counter = .cl)
      (hdestination : destination.isIndirect = true) (hvalue : destination.value = .register r)
      (hhint : destination.sizeHint = none) :
      ShiftFault op destination count (.missingSize (.shift op))

theorem resolve_shiftBy_eq_error :
    (shiftBy op destination (operandSize default destination) check count.value).resolve =
      .error error ↔ ShiftFault op destination count error := by
  by_cases hbits : count.value.CountsBits
  · have hcl (counter : Register) (hcount : count = .register counter) : counter = .cl := by
      subst hcount
      exact hbits
    rw [resolve_shiftBy hbits, map_eq_error,
      pickSize_of_not_lacksWidth (not_lacksWidth_operandSize default destination),
      pickSize_operandSize_eq_error]
    constructor
    · rintro ⟨⟨hindirect, ⟨r, hvalue⟩, hhint⟩, rfl⟩
      exact .size hcl hindirect hvalue hhint
    · intro hfault
      cases hfault with
      | count hcount hother => exact absurd (hcl _ hcount) hother
      | size hcount hindirect hvalue hhint => exact ⟨⟨hindirect, ⟨_, hvalue⟩, hhint⟩, rfl⟩
  · obtain ⟨r, rfl, hother⟩ := ShiftCount.exists_register_of_not_countsBits hbits
    change (shiftBy op destination _ check (.register r)).resolve = _ ↔ _
    rw [resolve_shiftBy_of_register hother, Except.error.injEq]
    constructor
    · rintro rfl
      exact .count rfl hother
    · intro hfault
      cases hfault with
      | count hcount =>
        cases hcount
        rfl
      | size hcount => exact absurd (hcount r rfl) hother

end Request

/-- A named shift asks for the item that the bare request for it asks for. -/
theorem Emission.item_shift (default : OperandSize) (op : ShiftOp) (destination : Argument)
    (count : ShiftCount) (check : WidthCheck) :
    (Emission.shift op destination count).item default =
      resolved (.shiftBy op destination (Request.operandSize default destination) check count.value) := by
  unfold resolved
  rw [← Request.shift_bind_resolve]
  change Request.shift default op destination count >>= resolved = _
  cases Request.shift default op destination count with
  | error error => rfl
  | ok request => rfl

namespace Builder

variable {σ : Type u} [Sink σ]

/-- A shift by name is the same as by request. The width check decides no shift. A builder does for a named
shift what it does for the bare request, with either width check, with the count as a direct source, and with
the width of the destination's hint, or else none if it names a register, or else the default: same builder,
same answer, same log. A fault of the shift changes nothing, whether there is room or not; and where there is
room, the shift fails with such a fault only. -/
theorem shift_by_name_is_by_request (builder : Builder σ) (op : ShiftOp) (destination : Argument) :
    (∀ (source : Option Argument) (size : Option OperandSize),
      Request.resolve ⟨.shift op, destination, source, size, .enforce⟩ =
        Request.resolve ⟨.shift op, destination, source, size, .skip⟩) ∧
    ∀ count : ShiftCount,
      let outcome := builder.perform (.emit (.shift op destination count))
      (∀ check : WidthCheck, outcome = builder.perform (.emit (.instruction {
        kind := .shift op
        destination := destination
        source := some (.ofValue count.value)
        size := destination.sizeHint.or
          (if destination.value.register?.isSome then none else some builder.defaultSize)
        check := check }))) ∧
      (∀ error, Request.ShiftFault op destination count error →
        outcome = (builder, { error := some error, log := [.rejected error] })) ∧
      (builder.statementCount < builder.limits.maxStatements →
        ∀ error, outcome.2.error = some error ↔ Request.ShiftFault op destination count error) := by
  refine ⟨fun source size => ?_, fun count => ⟨fun check => ?_, fun error hfault => ?_,
    fun hroom error => ?_⟩⟩
  · exact Request.resolve_enforce_of_isShift ⟨.shift op, destination, source, size, .enforce⟩ rfl
  · rw [← Request.operandSize_eq]
    apply perform_congr_item
    exact Emission.item_shift builder.defaultSize op destination count check
  · have hitem := Emission.item_shift builder.defaultSize op destination count .enforce
    exact perform_of_resolve_error hitem (Request.resolve_shiftBy_eq_error.mpr hfault)
  · have hitem := Emission.item_shift builder.defaultSize op destination count .enforce
    exact (error_perform_eq_some hitem hroom error).trans Request.resolve_shiftBy_eq_error

/-- At a register in memory and without a hint, a count in `dl` is refused first, and by `cl` the width is
missing; the bare request answers the same. -/
theorem shift_by_name_of_dl :
    let dl : Register := .lettered .d .byte
    let cell : Argument := .deref (.register (.pointer .bp .dword))
    let request : Request := {
      kind := .shift .rol, destination := cell, source := some (.ofValue (.register .cl)) }
    Builder.new.statementCount < Builder.new.limits.maxStatements ∧
    (Builder.new.perform (.emit (.shift .rol cell (.register dl)))).2.error =
      some (.invalidCountRegister (.shift .rol) dl) ∧
    Builder.new.perform (.emit (.shift .rol cell (.register .cl))) =
      (Builder.new, {
        error := some (.missingSize (.shift .rol))
        log := [.rejected (.missingSize (.shift .rol))] }) ∧
    Builder.new.perform (.emit (.shift .rol cell (.register .cl))) =
      Builder.new.perform (.emit (.instruction request)) := by
  intro dl cell request
  have hroom : Builder.new.statementCount < Builder.new.limits.maxStatements := by decide
  obtain ⟨-, hshift⟩ := shift_by_name_is_by_request Builder.new .rol cell
  obtain ⟨-, -, herror⟩ := hshift (.register dl)
  obtain ⟨hrequest, hrefused, -⟩ := hshift (.register .cl)
  have hcl : ∀ counter, ShiftCount.register .cl = .register counter → counter = .cl := by
    rintro _ ⟨⟩
    rfl
  exact ⟨hroom, (herror hroom _).mpr (.count rfl (by decide)), hrefused _ (.size hcl rfl rfl rfl),
    hrequest .enforce⟩

end Builder
end X86Listing
