import X86Listing.Proofs.Stream

/-! Streams of the named operations. An operation with a name of its own fixes more than a request does:
the registers of a two-operand operation agree in width, a count fits a byte, and jumps, calls, table
loads and device transfers take the operands that they are for. So a run without bare requests keeps all
its instructions to these rules, whatever fails in between. -/

namespace X86Listing

universe u

/-! ### What the named operations promise -/

/-- Whether the value is an address: a symbol, or a general-purpose register of 32 or 64 bits. -/
def Value.HoldsAddress : Value → Prop
  | .symbol _ => True
  | .register r => r.isSegment = false ∧ (r.size = .dword ∨ r.size = .qword)
  | .immediate _ => False

/-- Whether the operand is a number of at most 255 or `cl`, both direct. -/
def Operand.CountsByte (operand : Operand) : Prop :=
  operand = .direct (.register .cl) ∨ ∃ number ≤ 255, operand = .direct (.immediate number)

/-- Whether two operands that are both direct registers have the same width. -/
def Operand.WidthsAgree (destination source : Operand) : Prop :=
  ∀ d ∈ destination.directRegister?, ∀ s ∈ source.directRegister?, d.size = s.size

/-- The operands that an instruction of the kind has when a named operation made it. Two-operand kinds
with a width are binary ones and shifts. -/
def Instruction.HasNamedOperands (instruction : Instruction) : Prop :=
  match instruction.kind with
  | .binary _ => ∀ source ∈ instruction.source, instruction.destination.WidthsAgree source
  | .shift _ => ∃ count ∈ instruction.source, count.CountsByte
  | .jump | .jumpIf _ => ∃ label, instruction.destination = .direct (.symbol label)
  | .address _ => instruction.destination.value.HoldsAddress
  | .device .output =>
    instruction.destination = .direct (.register .dx) ∧
      ∃ r, instruction.source = some (.direct (.register r))
  | .device .input =>
    (∃ r, instruction.destination = .direct (.register r)) ∧
      instruction.source = some (.direct (.register .dx))
  | .unary _ | .implicit _ => True

/-- An instruction as the named operations make it. -/
structure Instruction.Strict (instruction : Instruction) : Prop where
  operands : instruction.HasNamedOperands
  /-- Hints of the arguments do not reach a kind without a width. -/
  unsized : ∀ form ∈ instruction.kind.form?, form.isSized = false → instruction.size = none

/-- Whether the emission has a name of its own, and is not a bare request. -/
def Emission.isNamed : Emission → Bool
  | .instruction _ => false
  | _ => true

/-- Whether the call is anything but a bare request. -/
def Call.isNamed : Call → Bool
  | .emit emission => emission.isNamed
  | .setLimits _ | .setDefaultSize _ => true

/-- Whether the command is anything but a bare request. -/
def Command.isNamed : Command → Bool
  | .call request => request.isNamed
  | .reset => true

theorem Instruction.WellFormed.size_eq_none {instruction : Instruction} (h : instruction.WellFormed)
    {form : Form} (hform : form ∈ instruction.kind.form?) (hsized : form.isSized = false) :
    instruction.size = none := by
  obtain ⟨found, hfound, -, hsize⟩ := h.form
  obtain rfl : form = found := Option.mem_unique hform hfound
  rw [hsized] at hsize
  exact Option.isNone_iff_eq_none.mp (Option.isSome_eq_false_iff.mp hsize)

/-! ### One operation -/

theorem ShiftCount.countsByte_of_source {count : ShiftCount} {kind : Mnemonic} {argument : Argument}
    {check : WidthCheck} (h : count.source kind = .ok (argument, check)) :
    argument.normalize.CountsByte := by
  cases count with
  | immediate bits =>
    cases h
    have hbits : bits.toUInt32 ≤ 255 := by
      rw [UInt32.le_iff_toNat_le, UInt8.toNat_toUInt32]
      exact Nat.le_of_lt_succ bits.toNat_lt
    exact Or.inr ⟨bits.toUInt32, hbits, rfl⟩
  | register r =>
    unfold source at h
    split at h
    · rename_i himpossible
      cases himpossible
    · cases h
      exact Or.inl rfl
    · cases h

theorem Request.isAddress_iff {value : Value} : isAddress value = true ↔ value.HoldsAddress := by
  cases value with
  | symbol s => simp [isAddress, Value.HoldsAddress]
  | immediate number => simp [isAddress, Value.HoldsAddress]
  | register r => simp [isAddress, Value.HoldsAddress, Register.isAddressSized]

namespace Emission

theorem widthsAgree_of_binary {default : OperandSize} {op : BinaryOp} {destination source : Argument}
    {instruction : Instruction}
    (h : (Request.binary default op destination source).resolve = .ok instruction) :
    ∀ operand ∈ instruction.source, instruction.destination.WidthsAgree operand := by
  have hwidths := Request.checkWidths_of_resolve h rfl rfl rfl rfl
  intro operand hoperand d hd s hs
  exact Request.checkWidths_eq_ok.mp hwidths d hd operand hoperand s hs

theorem hasNamedOperands_of_item {default : OperandSize} {emission : Emission}
    {instruction : Instruction} (hnamed : emission.isNamed = true)
    (h : emission.item default = .ok (.statement (.instruction instruction))) :
    instruction.HasNamedOperands := by
  obtain ⟨kind, destination, source, size⟩ := instruction
  cases emission with
  | instruction request => cases hnamed
  | binary op destination source =>
    have hresolve := resolved_eq_ok_instruction.mp h
    have hwidths := widthsAgree_of_binary hresolve
    obtain ⟨rfl, rfl, rfl⟩ := Request.operands_of_resolve hresolve
    exact hwidths
  | shift op destination count =>
    obtain ⟨request, hrequest, hresolved⟩ := bind_eq_ok.mp h
    obtain ⟨argument, check, hcount, rfl⟩ := Request.shift_eq_ok.mp hrequest
    obtain ⟨rfl, -, rfl⟩ := Request.operands_of_resolve (resolved_eq_ok_instruction.mp hresolved)
    exact ⟨argument.normalize, rfl, ShiftCount.countsByte_of_source hcount⟩
  | unary op operand =>
    obtain ⟨rfl, -, -⟩ := Request.operands_of_resolve (resolved_eq_ok_instruction.mp h)
    trivial
  | jump name =>
    obtain ⟨rfl, rfl, -⟩ := Request.operands_of_resolve (resolved_eq_ok_instruction.mp h)
    exact ⟨name, rfl⟩
  | jumpIf condition name =>
    obtain ⟨rfl, rfl, -⟩ := Request.operands_of_resolve (resolved_eq_ok_instruction.mp h)
    exact ⟨name, rfl⟩
  | address op operand =>
    obtain ⟨request, hrequest, hresolved⟩ := bind_eq_ok.mp h
    obtain ⟨haddress, rfl⟩ := Request.address_eq_ok.mp hrequest
    obtain ⟨rfl, rfl, -⟩ := Request.operands_of_resolve (resolved_eq_ok_instruction.mp hresolved)
    change operand.normalize.value.HoldsAddress
    rw [Argument.value_normalize]
    exact Request.isAddress_iff.mp haddress
  | writeDevice register =>
    obtain ⟨rfl, rfl, rfl⟩ := Request.operands_of_resolve (resolved_eq_ok_instruction.mp h)
    exact ⟨rfl, register, rfl⟩
  | readDevice register =>
    obtain ⟨rfl, rfl, rfl⟩ := Request.operands_of_resolve (resolved_eq_ok_instruction.mp h)
    exact ⟨⟨register, rfl⟩, rfl⟩
  | byteStore target value =>
    -- made without a request; its source is a number, so no two registers meet
    cases h
    rintro _ ⟨⟩ d hd
    cases hd
  | _ => cases h

theorem strict_of_item {default : OperandSize} {emission : Emission} {instruction : Instruction}
    (hnamed : emission.isNamed = true)
    (h : emission.item default = .ok (.statement (.instruction instruction))) :
    instruction.Strict where
  operands := hasNamedOperands_of_item hnamed h
  unsized _ hform hsized := (wellFormed_of_item h).size_eq_none hform hsized

end Emission

/-! ### Runs -/

/-- The statements of a program are those that it started with or was handed. -/
theorem Program.mem_statements_of_receive {program : Program} {deliveries : List Delivery}
    {s : Statement} (h : s ∈ (deliveries.foldl receive program).statements.toList) :
    s ∈ program.statements.toList ∨ .item (.statement s) ∈ deliveries := by
  induction deliveries generalizing program with
  | nil => exact Or.inl h
  | cons delivery deliveries ih =>
    rcases ih h with hstart | hlater
    · cases delivery with
      | restart => cases hstart
      | item item =>
        cases item with
        | data member => exact Or.inl hstart
        | statement first =>
          change s ∈ (program.append first).statements.toList at hstart
          rw [toList_statements_append, List.mem_append, List.mem_singleton] at hstart
          rcases hstart with hstart | rfl
          · exact Or.inl hstart
          · exact Or.inr List.mem_cons_self
    · exact Or.inr (List.mem_cons_of_mem delivery hlater)

theorem Program.mem_instructions_iff {program : Program} {instruction : Instruction} :
    instruction ∈ program.instructions ↔ .instruction instruction ∈ program.statements.toList := by
  unfold instructions
  rw [List.mem_filterMap]
  constructor
  · rintro ⟨s, hs, hinstruction⟩
    cases s with
    | instruction i =>
      cases hinstruction
      exact hs
    | _ => cases hinstruction
  · intro h
    exact ⟨.instruction instruction, h, rfl⟩

namespace Builder

theorem strict_of_added {σ : Type u} [Sink σ] {builder : Builder σ} {call : Call}
    {instruction : Instruction} (hnamed : call.isNamed = true)
    (h : .statement (.instruction instruction) ∈ builder.added call) : instruction.Strict := by
  obtain ⟨emission, rfl, hitem⟩ := item_of_added h
  exact Emission.strict_of_item hnamed hitem

theorem strict_of_mem_deliveries {builder : Builder Program} {commands : List Command}
    {instruction : Instruction} (hcommands : ∀ command ∈ commands, command.isNamed = true)
    (h : .item (.statement (.instruction instruction)) ∈ builder.deliveries commands) :
    instruction.Strict := by
  obtain ⟨call, hcall, state, hadded⟩ := exists_added_of_mem_deliveries h
  exact strict_of_added (hcommands (.call call) hcall) hadded

/-- Without bare requests, every instruction that reaches a sink is strict: any sink, from any state of
its builder, and also where the builder starts over in between. A program so built holds strict
instructions alone, those apart that it held before. -/
theorem strict_of_named {σ : Type u} [Sink σ] (builder : Builder σ) (calls : List Call)
    (restartable : Builder Program) (commands : List Command)
    (hcalls : ∀ call ∈ calls, call.isNamed = true)
    (hcommands : ∀ command ∈ commands, command.isNamed = true) :
    (∀ instruction, .statement (.instruction instruction) ∈ builder.stream calls →
      instruction.Strict) ∧
    (∀ instruction,
      .item (.statement (.instruction instruction)) ∈ restartable.deliveries commands →
        instruction.Strict) ∧
    ∀ instruction ∈ (restartable.runCommands commands).1.sink.instructions,
      instruction ∈ restartable.sink.instructions ∨ instruction.Strict := by
  refine ⟨?_, fun _ => strict_of_mem_deliveries hcommands, ?_⟩
  · intro instruction hmem
    obtain ⟨call, hcall, state, hadded⟩ := exists_added_of_mem_stream hmem
    exact strict_of_added (hcalls call hcall) hadded
  · intro instruction hmem
    rw [Program.mem_instructions_iff, sink_runCommands] at hmem
    rw [Program.mem_instructions_iff]
    rcases Program.mem_statements_of_receive hmem with hstart | hdelivered
    · exact Or.inl hstart
    · exact Or.inr (strict_of_mem_deliveries hcommands hdelivered)

/-- A call through memory, whose hint of a width is dropped, after a move that fails. -/
theorem strict_of_named_call :
    let r8 : Register := .numbered 0 .qword
    let call : Instruction := ⟨.address .call, .indirect (.register r8) 0, none, none⟩
    let calls : List Call := [
      .emit (.binary .mov (.ofValue (.register r8)) (.ofValue (.register .dx))),
      .setDefaultSize .word,
      .emit (.address .call ((Argument.deref (.register r8)).sized .byte))]
    let commands : List Command := .reset :: calls.map .call
    ((∀ call ∈ calls, call.isNamed = true) ∧ ∀ command ∈ commands, command.isNamed = true) ∧
      (.statement (.instruction call) ∈ Builder.new.stream calls ∧ call.Strict) ∧
      (.item (.statement (.instruction call)) ∈ Builder.new.deliveries commands ∧ call.Strict) ∧
      call ∈ (Builder.new.runCommands commands).1.sink.instructions ∧
      (call ∈ Builder.new.sink.instructions ∨ call.Strict) := by
  intro r8 call calls commands
  have hcalls : ∀ call ∈ calls, call.isNamed = true := by decide
  have hcommands : ∀ command ∈ commands, command.isNamed = true := by decide
  have hstream : .statement (.instruction call) ∈ Builder.new.stream calls := by decide
  have hdeliveries : .item (.statement (.instruction call)) ∈ Builder.new.deliveries commands := by
    decide
  have hprogram : call ∈ (Builder.new.runCommands commands).1.sink.instructions := by decide
  obtain ⟨hstrict, hdelivered, hheld⟩ :=
    strict_of_named Builder.new calls Builder.new commands hcalls hcommands
  exact ⟨⟨hcalls, hcommands⟩, ⟨hstream, hstrict call hstream⟩,
    ⟨hdeliveries, hdelivered call hdeliveries⟩, hprogram, hheld call hprogram⟩

end Builder
end X86Listing
