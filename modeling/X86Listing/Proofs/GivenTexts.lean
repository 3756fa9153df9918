import X86Listing.Proofs.Listing
import X86Listing.Proofs.NamedOperations
import X86Listing.Proofs.SinkView

/-! Where the texts of a program come from. A builder makes up no name: the symbols, labels, constants,
literals and data members of an item are named as in the emission that asked for it, since resolving a request
keeps the values of its arguments. So every such text of a program was there before the run, or one of the
calls gave it. -/

namespace X86Listing

universe u

/-- The texts of the statement that its author has given, comments apart. -/
def Statement.codeTexts : Statement → List String
  | .comment _ => []
  | s => s.givenTexts

/-- The texts of the item that its author has given, comments and strings apart. -/
def Item.codeTexts : Item → List String
  | .statement s => s.codeTexts
  | .data member => [member.name]

/-- The texts of the program that its author has given, comments and strings apart. -/
def Program.codeTexts (program : Program) : List String :=
  program.statements.toList.flatMap Statement.codeTexts ++
    program.dataMembers.toList.map DataMember.name

theorem Program.mem_codeTexts_accept {program : Program} {item : Item} {text : String} :
    text ∈ (Sink.accept program item).codeTexts ↔
      text ∈ program.codeTexts ∨ text ∈ item.codeTexts := by
  cases item with
  | statement s =>
    change text ∈ (program.append s).codeTexts ↔ _ ∨ text ∈ s.codeTexts
    unfold codeTexts
    rw [toList_statements_append, dataMembers_append, List.flatMap_append, List.flatMap_singleton]
    simp only [List.mem_append]
    exact or_right_comm
  | data member =>
    change text ∈ (program.defineData member).codeTexts ↔ _ ∨ text ∈ [member.name]
    unfold codeTexts
    rw [toList_dataMembers_defineData, statements_defineData, List.map_append, List.map_singleton]
    simp only [List.mem_append, or_assoc]

/-- Names of the symbols among the arguments. -/
def Argument.symbolNames (arguments : List Argument) : List String :=
  arguments.filterMap fun argument => argument.value.symbolName?

/-- Names of the symbols among the arguments of the request. -/
def Request.symbolNames (request : Request) : List String :=
  Argument.symbolNames (request.destination :: request.source.toList)

theorem Request.symbolNames_of_resolve {request : Request} {i : Instruction}
    (h : request.resolve = .ok i) : i.symbolNames = request.symbolNames := by
  obtain ⟨-, hdestination, hsource⟩ := operands_of_resolve h
  have hoperands : i.destination :: i.source.toList =
      (request.destination :: request.source.toList).map Argument.normalize := by
    rw [hdestination, hsource]
    cases request.source <;> rfl
  unfold Instruction.symbolNames symbolNames Argument.symbolNames
  rw [hoperands, List.filterMap_map]
  simp only [Function.comp_def, Argument.value_normalize]

theorem ShiftCount.symbolNames_of_source {count : ShiftCount} {kind : Mnemonic} {argument : Argument}
    {check : WidthCheck} (h : count.source kind = .ok (argument, check)) (destination : Argument) :
    Argument.symbolNames [destination, argument] = Argument.symbolNames [destination] := by
  have hnone : argument.value.symbolName? = none := by
    rcases countsByte_of_source h with hcl | ⟨number, -, hnumber⟩
    · rw [(Argument.normalize_eq_direct.mp hcl).2]
      rfl
    · rw [(Argument.normalize_eq_direct.mp hnumber).2]
      rfl
  simp only [Argument.symbolNames, List.filterMap_cons, hnone]

namespace Emission

/-- The texts that the emission is given, comments and strings apart. -/
def codeTexts : Emission → List String
  | .instruction request => request.symbolNames
  | .binary _ destination source => Argument.symbolNames [destination, source]
  | .shift _ operand _ | .unary _ operand | .address _ operand => Argument.symbolNames [operand]
  | .jump target | .jumpIf _ target => [target.name]
  | .label name | .scalar name _ | .string name _ | .array name _ _ _ => [name]
  | .constant c => [c.name, c.value]
  | .literal code => [code]
  | .writeDevice _ | .readDevice _ | .byteStore _ _ | .implicit _ | .comment _ => []

theorem codeTexts_of_resolved {request : Request} {item : Item} (h : resolved request = .ok item) :
    item.codeTexts = request.symbolNames := by
  obtain ⟨i, hresolve, rfl⟩ := resolved_eq_ok.mp h
  exact Request.symbolNames_of_resolve hresolve

/-- An item has the texts of its emission. -/
theorem codeTexts_of_item {default : OperandSize} {emission : Emission} {item : Item}
    (h : emission.item default = .ok item) : item.codeTexts = emission.codeTexts := by
  cases emission with
  | instruction request => exact codeTexts_of_resolved h
  | binary op destination source => exact codeTexts_of_resolved h
  | shift op destination count =>
    obtain ⟨request, hrequest, hresolved⟩ := bind_eq_ok.mp h
    obtain ⟨argument, check, hcount, rfl⟩ := Request.shift_eq_ok.mp hrequest
    exact (codeTexts_of_resolved hresolved).trans (ShiftCount.symbolNames_of_source hcount destination)
  | unary op operand => exact codeTexts_of_resolved h
  | jump label => exact codeTexts_of_resolved h
  | jumpIf condition label => exact codeTexts_of_resolved h
  | address op operand =>
    obtain ⟨request, hrequest, hresolved⟩ := bind_eq_ok.mp h
    obtain ⟨-, rfl⟩ := Request.address_eq_ok.mp hrequest
    exact codeTexts_of_resolved hresolved
  | writeDevice register => exact codeTexts_of_resolved h
  | readDevice register => exact codeTexts_of_resolved h
  | byteStore target value => cases h; rfl
  | implicit op => cases h; rfl
  | label name => cases h; rfl
  | comment content => cases h; rfl
  | constant c => cases h; rfl
  | literal code => cases h; rfl
  | scalar name number => cases h; rfl
  | string name content => cases h; rfl
  | array name count element number => cases h; rfl

end Emission

/-- The texts that the call is given, comments and strings apart. -/
def Call.codeTexts : Call → List String
  | .emit emission => emission.codeTexts
  | .setLimits _ | .setDefaultSize _ => []

/-- The texts that the command is given, comments and strings apart. -/
def Command.codeTexts : Command → List String
  | .call request => request.codeTexts
  | .reset => []

/-- If the first step keeps or brings what is there after it, then what the later steps keep or bring is kept
or brought by all of them. -/
theorem mem_append_flatMap_cons {α β : Type} {brought : α → List β} {first : α} {rest : List α}
    {before after : List β} {text : β} (hfirst : text ∈ after → text ∈ before ∨ text ∈ brought first)
    (h : text ∈ after ++ rest.flatMap brought) :
    text ∈ before ++ (first :: rest).flatMap brought := by
  rw [List.flatMap_cons]
  rcases List.mem_append.mp h with hafter | hlater
  · rcases hfirst hafter with hkept | hbrought
    · exact List.mem_append_left _ hkept
    · exact List.mem_append_right _ (List.mem_append_left _ hbrought)
  · exact List.mem_append_right _ (List.mem_append_right _ hlater)

namespace Builder

variable {π : Type u} [ProgramSink π]

theorem mem_codeTexts_perform {builder : Builder π} {call : Call} {text : String}
    (h : text ∈ (ProgramSink.program (builder.perform call).1.sink).codeTexts) :
    text ∈ (ProgramSink.program builder.sink).codeTexts ∨ text ∈ call.codeTexts := by
  rw [sink_perform, ProgramSink.preserves.foldl] at h
  cases hadded : builder.added call with
  | none =>
    rw [hadded] at h
    exact Or.inl h
  | some item =>
    obtain ⟨emission, rfl, hitem⟩ := item_of_added (Option.mem_def.mpr hadded)
    rw [hadded] at h
    rcases Program.mem_codeTexts_accept.mp h with hbefore | hnew
    · exact Or.inl hbefore
    · rw [Emission.codeTexts_of_item hitem] at hnew
      exact Or.inr hnew

/-- A run brings no texts into a program but those of its calls. -/
theorem mem_codeTexts_run {builder : Builder π} {calls : List Call} {text : String}
    (h : text ∈ (ProgramSink.program (builder.run calls).1.sink).codeTexts) :
    text ∈ (ProgramSink.program builder.sink).codeTexts ++ calls.flatMap Call.codeTexts := by
  induction calls generalizing builder with
  | nil => exact List.mem_append_left _ h
  | cons call calls ih => exact mem_append_flatMap_cons mem_codeTexts_perform (ih h)

theorem mem_codeTexts_execute {builder : Builder Program} {command : Command} {text : String}
    (h : text ∈ (builder.execute command).1.sink.codeTexts) :
    text ∈ builder.sink.codeTexts ∨ text ∈ command.codeTexts := by
  cases command with
  | call call =>
    change text ∈ (ProgramSink.program (builder.perform call).1.sink).codeTexts at h
    exact mem_codeTexts_perform h
  | reset => cases h

theorem mem_codeTexts_runCommands {builder : Builder Program} {commands : List Command} {text : String}
    (h : text ∈ (builder.runCommands commands).1.sink.codeTexts) :
    text ∈ builder.sink.codeTexts ++ commands.flatMap Command.codeTexts := by
  induction commands generalizing builder with
  | nil => exact List.mem_append_left _ h
  | cons command commands ih => exact mem_append_flatMap_cons mem_codeTexts_execute (ih h)

end Builder
end X86Listing
