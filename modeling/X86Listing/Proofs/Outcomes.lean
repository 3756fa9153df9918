import X86Listing.Proofs.DefaultWidth
import X86Listing.Proofs.Rules

/-! What a named operation comes to. An operation on two operands has three faults, no two of which it can
have at once: both operands in memory, two registers of different widths, and a destination in memory at a
register that nothing gives a width. Without a fault, a builder with room adds the operands, with the first
width that is found. -/

namespace X86Listing

universe u

namespace Request

/-- What is wrong with the operands of a two-operand operation. -/
inductive BinaryFault (op : BinaryOp) (destination source : Argument) : BuildError → Prop
  | memory (hdestination : destination.isIndirect = true) (hsource : source.isIndirect = true) :
      BinaryFault op destination source (.conflictingIndirection (.binary op))
  | widths {d s : Register} (hdestination : destination.normalize = .direct (.register d))
      (hsource : source.normalize = .direct (.register s)) (hne : d.size ≠ s.size) :
      BinaryFault op destination source (.sizeMismatch (.binary op) d s)
  | size {r : Register} (hdestination : destination.isIndirect = true)
      (hsource : source.isIndirect = false) (hvalue : destination.value = .register r)
      (hhint : destination.sizeHint = none) (hsourceHint : source.sizeHint = none) :
      BinaryFault op destination source (.missingSize (.binary op))

/-- The width of a two-operand operation: the first of the destination's hint, the source's hint, the width
of a direct destination register, that of a direct source register if the destination names no register,
and the default. -/
def binaryWidth (default : OperandSize) (destination source : Argument) : OperandSize :=
  let sourceRegister? :=
    if destination.value.register? = none then source.normalize.directRegister? else none
  (destination.sizeHint.or <| source.sizeHint.or <|
    (destination.normalize.directRegister?.or sourceRegister?).map Register.size).getD default

variable {default : OperandSize} {op : BinaryOp} {destination source : Argument} {error : BuildError}

theorem BinaryFault.unique {other : BuildError} (h : BinaryFault op destination source error)
    (h' : BinaryFault op destination source other) : error = other := by
  have hdirect {argument : Argument} {r : Register}
      (hindirect : argument.isIndirect = true) : argument.normalize ≠ .direct (.register r) := by
    intro hnormal
    cases hindirect.symm.trans (Argument.normalize_eq_direct.mp hnormal).1
  cases h with
  | memory hdestination hsource =>
    cases h' with
    | memory => rfl
    | widths hd => exact absurd hd (hdirect hdestination)
    | size hdestination' hsource' => cases hsource.symm.trans hsource'
  | widths hd hs hne =>
    cases h' with
    | memory hdestination => exact absurd hd (hdirect hdestination)
    | widths hd' hs' hne' =>
      cases hd.symm.trans hd'
      cases hs.symm.trans hs'
      rfl
    | size hdestination => exact absurd hd (hdirect hdestination)
  | size hdestination hsource =>
    cases h' with
    | memory hdestination' hsource' => cases hsource.symm.trans hsource'
    | widths hd => exact absurd hd (hdirect hdestination)
    | size => rfl

/-- A fault breaks the rule that it is named for. -/
theorem BinaryFault.breaks (h : BinaryFault op destination source error) (default : OperandSize) :
    ∃ rule, (binary default op destination source).Breaks rule error := by
  cases h with
  | memory hdestination hsource =>
    refine ⟨.memory, .memory rfl ?_ ?_⟩
    · rw [← hdestination]
      exact destination.isIndirect_normalize
    · rw [← hsource]
      exact source.isIndirect_normalize
  | widths hd hs hne =>
    refine ⟨.widths, .widths rfl rfl rfl ?_ hd (congrArg some hs) hne⟩
    rintro ⟨⟨⟩, -⟩
  | size hdestination hsource hvalue hhint hsourceHint =>
    refine ⟨.size, .size rfl rfl ?_ (Or.inl ?_)⟩
    · change operandsSize default destination source = none
      rw [operandsSize_of_register hvalue, hhint, hsourceHint]
      rfl
    · rw [← hdestination]
      exact destination.isIndirect_normalize

/-- The operation gives no width only for a register, and without a hint. -/
theorem operandsSize_eq_none (h : operandsSize default destination source = none) :
    (∃ r, destination.value = .register r) ∧ destination.sizeHint = none ∧
      source.sizeHint = none := by
  cases hvalue : destination.value.register? with
  | none =>
    have hsome : (operandsSize default destination source).isSome = true :=
      isSome_operandsSize hvalue default
    rw [h] at hsome
    cases hsome
  | some r =>
    have hregister := Value.register?_eq_some.mp hvalue
    rw [operandsSize_of_register hregister, Option.or_eq_none_iff] at h
    exact ⟨⟨r, hregister⟩, h⟩

/-- The first rule that a two-operand operation breaks finds a fault of its operands. -/
theorem binaryFault_of_breaksFirst {rule : Rule}
    (h : (binary default op destination source).BreaksFirst rule error) :
    BinaryFault op destination source error := by
  obtain ⟨hbreaks, hearlier⟩ := h
  cases hbreaks with
  | form hform => cases hform
  | missingSource hform hneeded hsource => cases hsource
  | unexpectedSource hform hneeded hsource =>
    cases hform
    cases hneeded
  | indirectCount hshift => cases hshift
  | countRegister hshift => cases hshift
  | symbolicCount hshift => cases hshift
  | memory hsource hdestination hindirect =>
    obtain rfl := Option.some.inj hsource
    exact .memory (destination.isIndirect_normalize.symm.trans hdestination)
      (source.isIndirect_normalize.symm.trans hindirect)
  | widths hform hsized hcheck hcl hd hs hne => exact .widths hd (Option.some.inj hs) hne
  | size hform hsized hsize hoperands =>
    obtain ⟨⟨r, hvalue⟩, hhint, hsourceHint⟩ := operandsSize_eq_none hsize
    rcases hoperands with hindirect | ⟨hnone, -⟩
    · have hdestination := destination.isIndirect_normalize.symm.trans hindirect
      refine .size hdestination ?_ hvalue hhint hsourceHint
      -- a source in memory too would have broken an earlier rule
      cases hsource : source.isIndirect with
      | false => rfl
      | true =>
        exact absurd (.memory rfl hindirect (source.isIndirect_normalize.trans hsource))
          (hearlier .memory (by decide) _)
    · change destination.normalize.value.register? = none at hnone
      rw [Argument.value_normalize, hvalue] at hnone
      cases hnone

theorem resolve_binary_eq_error :
    (binary default op destination source).resolve = .error error ↔
      BinaryFault op destination source error := by
  constructor
  · intro h
    obtain ⟨rule, hfirst⟩ := breaksFirst_of_resolve h
    exact binaryFault_of_breaksFirst hfirst
  · intro h
    obtain ⟨rule, hbreaks⟩ := h.breaks default
    obtain ⟨found, hresolve⟩ := hbreaks.refused
    obtain ⟨first, hfirst⟩ := breaksFirst_of_resolve hresolve
    rw [hresolve, (binaryFault_of_breaksFirst hfirst).unique h]

/-- For a destination that names no register, the operation settles the width by itself. -/
theorem operandsSize_of_not_register (hvalue : destination.value.register? = none) :
    operandsSize default destination source = some (binaryWidth default destination source) := by
  have hdestination : destination.normalize.directRegister? = none := by
    rw [Argument.directRegister?_normalize, hvalue, ite_self]
  unfold operandsSize binaryWidth
  rw [hdestination, if_pos hvalue, Argument.directRegister?_normalize]
  cases destination.sizeHint with
  | some size => rfl
  | none =>
    cases source.sizeHint with
    | some size => rfl
    | none =>
      cases hdestinationValue : destination.value with
      | register r =>
        rw [hdestinationValue] at hvalue
        cases hvalue
      | immediate _ | symbol _ =>
        cases source.value with
        | register s => cases source.isIndirect <;> rfl
        | immediate _ | symbol _ => cases source.isIndirect <;> rfl

/-- Without a fault, a destination that names a register is sized by a hint or is that register. -/
theorem width_binary (h : ∀ error, ¬BinaryFault op destination source error) :
    (binary default op destination source).width = some (binaryWidth default destination source) := by
  have hwidth : (binary default op destination source).width =
      (operandsSize default destination source).or
        (binary default op destination source).inferredSize := rfl
  cases hvalue : destination.value.register? with
  | none => rw [hwidth, operandsSize_of_not_register hvalue, Option.some_or]
  | some r =>
    have hregister := Value.register?_eq_some.mp hvalue
    rw [hwidth, operandsSize_of_register hregister]
    unfold binaryWidth
    cases hhint : destination.sizeHint with
    | some size => rfl
    | none =>
      cases hsourceHint : source.sizeHint with
      | some size => rfl
      | none =>
        cases hdestination : destination.isIndirect with
        | false =>
          have hdirect : destination.normalize.directRegister? = some r := by
            rw [Argument.directRegister?_normalize, hdestination]
            exact hvalue
          change Option.map Register.size (destination.normalize.directRegister?.or _) = _
          rw [hdirect]
          rfl
        | true =>
          cases hsource : source.isIndirect with
          | false => exact absurd (.size hdestination hsource hregister hhint hsourceHint) (h _)
          | true => exact absurd (.memory hdestination hsource) (h _)

theorem resolve_binary_eq_ok (h : ∀ error, ¬BinaryFault op destination source error) :
    (binary default op destination source).resolve =
      .ok ⟨.binary op, destination.normalize, some source.normalize,
        some (binaryWidth default destination source)⟩ := by
  cases hresolve : (binary default op destination source).resolve with
  | error error => exact absurd (resolve_binary_eq_error.mp hresolve) (h error)
  | ok instruction =>
    rw [(passes_of_resolve hresolve).2, width_binary h]
    rfl

end Request

namespace Builder

variable {σ : Type u} [Sink σ]

/-- A request that resolves is added as a statement if there is room for it. -/
theorem perform_of_resolve_ok {builder : Builder σ} {emission : Emission} {request : Request}
    {instruction : Instruction}
    (hitem : emission.item builder.defaultSize = Emission.resolved request)
    (hresolve : request.resolve = .ok instruction)
    (hroom : builder.statementCount < builder.limits.maxStatements) :
    builder.perform (.emit emission) =
      (builder.add (.statement (.instruction instruction)),
        { log := [.appended builder.statementCount (.instruction instruction)] }) := by
  have hok : emission.item builder.defaultSize = .ok (.statement (.instruction instruction)) :=
    hitem.trans (Emission.resolved_eq_ok_instruction.mpr hresolve)
  exact (emit_of_ok hok).trans (accept_of_hasRoom hroom)

/-- A request that is refused changes nothing. -/
theorem perform_of_resolve_error {builder : Builder σ} {emission : Emission} {request : Request}
    {error : BuildError} (hitem : emission.item builder.defaultSize = Emission.resolved request)
    (hresolve : request.resolve = .error error) :
    builder.perform (.emit emission) =
      (builder, { error := some error, log := [.rejected error] }) :=
  emit_of_error (hitem.trans (Emission.resolved_of_error hresolve))

/-- Where there is room, an operation fails with what its request fails with. -/
theorem error_perform_eq_some {builder : Builder σ} {emission : Emission} {request : Request}
    (hitem : emission.item builder.defaultSize = Emission.resolved request)
    (hroom : builder.statementCount < builder.limits.maxStatements) (error : BuildError) :
    (builder.perform (.emit emission)).2.error = some error ↔ request.resolve = .error error := by
  cases hresolve : request.resolve with
  | error found =>
    rw [perform_of_resolve_error hitem hresolve, Option.some.injEq, Except.error.injEq]
  | ok instruction =>
    rw [perform_of_resolve_ok hitem hresolve hroom]
    exact ⟨nofun, nofun⟩

/-- What a two-operand operation comes to where there is room for a statement. It fails exactly with a
fault of its operands, which is one of three, and then changes nothing. Without one it adds the normalized
operands, with the first width that is found. -/
theorem outcome_of_binary (builder : Builder σ) (op : BinaryOp) (destination source : Argument)
    (hroom : builder.statementCount < builder.limits.maxStatements) :
    let outcome := builder.perform (.emit (.binary op destination source))
    (∀ error, outcome.2.error = some error ↔ Request.BinaryFault op destination source error) ∧
    (∀ error, Request.BinaryFault op destination source error →
      outcome = (builder, { error := some error, log := [.rejected error] })) ∧
    ((∀ error, ¬Request.BinaryFault op destination source error) →
      let statement : Statement := .instruction ⟨.binary op, destination.normalize,
        some source.normalize, some (Request.binaryWidth builder.defaultSize destination source)⟩
      outcome = (builder.add (.statement statement),
        { log := [.appended builder.statementCount statement] })) := by
  intro outcome
  refine ⟨fun error => ?_, fun error hfault => ?_, fun hnone => ?_⟩
  · exact (error_perform_eq_some rfl hroom error).trans Request.resolve_binary_eq_error
  · exact perform_of_resolve_error rfl (Request.resolve_binary_eq_error.mpr hfault)
  · exact perform_of_resolve_ok rfl (Request.resolve_binary_eq_ok hnone) hroom

/-- Of two operations on the same memory, one at a symbol takes the width of its source, and the other, at
a register, is refused. -/
theorem outcome_of_binary_at_memory :
    let dx : Argument := .ofValue (.register .dx)
    let atSymbol : Argument := .deref (.symbol ⟨"total"⟩)
    let atRegister : Argument := .mem (.register (.pointer .si .dword)) 4
    let added : Statement := .instruction
      ⟨.binary .add, .indirect (.symbol ⟨"total"⟩) 0, some (.direct (.register .dx)), some .word⟩
    Builder.new.statementCount < Builder.new.limits.maxStatements ∧
    (Builder.new.perform (.emit (.binary .add atSymbol dx))).1 = Builder.new.add (.statement added) ∧
    Builder.new.perform (.emit (.binary .add atRegister dx)) =
      (Builder.new, {
        error := some (.missingSize (.binary .add))
        log := [.rejected (.missingSize (.binary .add))] }) := by
  intro dx atSymbol atRegister added
  have hroom : Builder.new.statementCount < Builder.new.limits.maxStatements := by decide
  obtain ⟨-, -, hadded⟩ := outcome_of_binary Builder.new .add atSymbol dx hroom
  obtain ⟨-, hrefused, -⟩ := outcome_of_binary Builder.new .add atRegister dx hroom
  have hnone (error : BuildError) : ¬Request.BinaryFault .add atSymbol dx error := by
    rintro (⟨-, ⟨⟩⟩ | ⟨⟨⟩, -, -⟩ | ⟨-, -, ⟨⟩, -, -⟩)
  exact ⟨hroom, congrArg Prod.fst (hadded hnone), hrefused _ (.size rfl rfl rfl rfl rfl)⟩

end Builder
end X86Listing
