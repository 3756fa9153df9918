import Mathlib.Data.List.Forall2
import X86Listing.Proofs.Stream

/-! The default width decides no outcome. An operation takes the default only where its destination names
no register, and there some width is given whatever the default is. So two runs that differ in their
default widths have the same replies and counts, and their programs differ in such widths at most. -/

namespace X86Listing

/-! ### Up to widths of numbers and symbols -/

/-- Two statements that are the same, or instructions that differ in their width alone, of a kind with a
width and with a destination that names no register. -/
inductive Statement.Alike : Statement → Statement → Prop
  | same (s : Statement) : Alike s s
  | widths (instruction : Instruction) {form : Form} (size other : OperandSize)
      (hform : instruction.kind.form? = some form) (hsized : form.isSized = true)
      (hvalue : instruction.destination.value.register? = none) :
      Alike (.instruction { instruction with size := some size })
        (.instruction { instruction with size := some other })

/-- Alike statements, or the same data member. -/
inductive Item.Alike : Item → Item → Prop
  | statement {s t : Statement} (h : s.Alike t) : Alike (.statement s) (.statement t)
  | data (member : DataMember) : Alike (.data member) (.data member)

/-- Alike statements in the same order, and the same data members. -/
structure Program.Alike (program other : Program) : Prop where
  statements : List.Forall₂ Statement.Alike program.statements.toList other.statements.toList
  dataMembers : program.dataMembers = other.dataMembers

/-- The same error, or alike items. -/
inductive Emission.AlikeItems : Except BuildError Item → Except BuildError Item → Prop
  | error (error : BuildError) : AlikeItems (.error error) (.error error)
  | ok {item other : Item} (h : item.Alike other) : AlikeItems (.ok item) (.ok other)

theorem Item.Alike.refl (item : Item) : item.Alike item := by
  cases item with
  | statement s => exact .statement (.same s)
  | data member => exact .data member

theorem Program.Alike.refl (program : Program) : program.Alike program where
  statements := List.forall₂_same.mpr fun s _ => .same s
  dataMembers := rfl

/-- Whether two widths of an operation on the destination are the same, or both are given where it names
no register. -/
def Argument.SizesAlike (destination : Argument) (size? other? : Option OperandSize) : Prop :=
  size? = other? ∨
    destination.value.register? = none ∧ size?.isSome = true ∧ other?.isSome = true

theorem Value.register?_eq_some {value : Value} {r : Register} :
    value.register? = some r ↔ value = .register r := by
  cases value <;> simp [register?]

namespace Request

theorem operandSize_of_register {operand : Argument} {r : Register}
    (hvalue : operand.value = .register r) (default : OperandSize) :
    operandSize default operand = operand.sizeHint := by
  unfold operandSize
  rw [hvalue]
  exact Option.or_none

theorem isSome_operandSize {operand : Argument} (hvalue : operand.value.register? = none)
    (default : OperandSize) : (operandSize default operand).isSome = true := by
  unfold operandSize
  rw [Option.isSome_or]
  split
  · rename_i r hregister
    rw [hregister] at hvalue
    cases hvalue
  · exact Bool.or_true _

theorem operandsSize_of_register {destination source : Argument} {r : Register}
    (hvalue : destination.value = .register r) (default : OperandSize) :
    operandsSize default destination source = destination.sizeHint.or source.sizeHint := by
  unfold operandsSize
  rw [hvalue]
  exact congrArg destination.sizeHint.or Option.or_none

theorem isSome_operandsSize {destination source : Argument}
    (hvalue : destination.value.register? = none) (default : OperandSize) :
    (operandsSize default destination source).isSome = true := by
  unfold operandsSize
  rw [Option.isSome_or, Option.isSome_or]
  split
  · rename_i r value hregister
    rw [hregister] at hvalue
    cases hvalue
  · cases source.isIndirect <;> simp
  · simp

theorem sizesAlike_operandSize (operand : Argument) (default other : OperandSize) :
    operand.SizesAlike (operandSize default operand) (operandSize other operand) := by
  cases hvalue : operand.value.register? with
  | none => exact Or.inr ⟨hvalue, isSome_operandSize hvalue default, isSome_operandSize hvalue other⟩
  | some r =>
    have hregister := Value.register?_eq_some.mp hvalue
    rw [operandSize_of_register hregister, operandSize_of_register hregister]
    exact Or.inl rfl

theorem sizesAlike_operandsSize (destination source : Argument) (default other : OperandSize) :
    destination.SizesAlike (operandsSize default destination source)
      (operandsSize other destination source) := by
  cases hvalue : destination.value.register? with
  | none =>
    exact Or.inr ⟨hvalue, isSome_operandsSize hvalue default, isSome_operandsSize hvalue other⟩
  | some r =>
    have hregister := Value.register?_eq_some.mp hvalue
    rw [operandsSize_of_register hregister, operandsSize_of_register hregister]
    exact Or.inl rfl

end Request

namespace Emission

theorem AlikeItems.refl (attempt : Except BuildError Item) : AlikeItems attempt attempt := by
  cases attempt with
  | error error => exact .error error
  | ok item => exact .ok (.refl item)

/-- Requests that differ in a width that is given, for a destination that names no register. -/
theorem alike_resolved_of_size {request : Request} {form : Form}
    (hform : request.kind.form? = some form) (hsized : form.isSized = true)
    (hvalue : request.destination.value.register? = none) (size other : OperandSize) :
    AlikeItems (resolved { request with size := some size })
      (resolved { request with size := some other }) := by
  have hresolve (given : OperandSize) : ({ request with size := some given } : Request).resolve =
      request.checkOperands.map fun _ => { request.draft with size := some given } :=
    Request.resolve_of_size hform hsized rfl
  have hdestination : request.draft.destination.value.register? = none := by
    rw [← hvalue, ← request.destination.value_normalize]
    rfl
  unfold resolved
  rw [hresolve, hresolve]
  cases request.checkOperands with
  | error error => exact .error error
  | ok _ => exact .ok (.statement (.widths request.draft size other hform hsized hdestination))

theorem alike_resolved {request : Request} {form : Form} {other? : Option OperandSize}
    (hform : request.kind.form? = some form) (hsized : form.isSized = true)
    (hsizes : request.destination.SizesAlike request.size other?) :
    AlikeItems (resolved request) (resolved { request with size := other? }) := by
  rcases hsizes with rfl | ⟨hvalue, hsize, hother⟩
  · exact .refl _
  · obtain ⟨size, hsize⟩ := Option.isSome_iff_exists.mp hsize
    obtain ⟨other, rfl⟩ := Option.isSome_iff_exists.mp hother
    have halike := alike_resolved_of_size hform hsized hvalue size other
    rw [← hsize] at halike
    exact halike

/-- Whatever the default width is, an emission fails with the same error or asks for alike items. -/
theorem alike_item (emission : Emission) (default other : OperandSize) :
    AlikeItems (emission.item default) (emission.item other) := by
  cases emission with
  | binary op destination source =>
    exact alike_resolved rfl rfl (Request.sizesAlike_operandsSize destination source default other)
  | shift op destination count =>
    change AlikeItems (Request.shift default op destination count >>= resolved)
      (Request.shift other op destination count >>= resolved)
    unfold Request.shift
    cases count.source (.shift op) with
    | error error => exact .error error
    | ok found =>
      obtain ⟨argument, check⟩ := found
      have hsizes := Request.sizesAlike_operandSize destination default other
      change AlikeItems
        (resolved ⟨.shift op, destination, some argument, Request.operandSize default destination, check⟩)
        (resolved ⟨.shift op, destination, some argument, Request.operandSize other destination, check⟩)
      exact alike_resolved rfl rfl hsizes
  | unary op operand =>
    exact alike_resolved rfl rfl (Request.sizesAlike_operandSize operand default other)
  -- what all others ask for does not depend on the default
  | _ => exact .refl _

end Emission

/-! ### Runs -/

/-- Commands that are the same, or that each set a default width. -/
inductive Command.SameButWidth : Command → Command → Prop
  | same (command : Command) : SameButWidth command command
  | widths (size other : OperandSize) :
      SameButWidth (.call (.setDefaultSize size)) (.call (.setDefaultSize other))

theorem Program.Alike.accept {program other : Program} (h : program.Alike other) {item item' : Item}
    (hitem : item.Alike item') : (Sink.accept program item).Alike (Sink.accept other item') := by
  cases hitem with
  | statement hs =>
    constructor
    · change List.Forall₂ _ (program.append _).statements.toList (other.append _).statements.toList
      rw [toList_statements_append, toList_statements_append]
      exact List.rel_append h.statements (.cons hs .nil)
    · exact h.dataMembers
  | data member =>
    constructor
    · exact h.statements
    · exact congrArg (·.push member) h.dataMembers

namespace Builder

/-- Builders of alike programs, which differ in nothing else but their default widths. -/
structure Alike (builder other : Builder Program) : Prop where
  program : builder.sink.Alike other.sink
  limits : builder.limits = other.limits
  statementCount : builder.statementCount = other.statementCount
  dataMemberCount : builder.dataMemberCount = other.dataMemberCount

variable {builder other : Builder Program}

theorem Alike.hasRoom_iff (h : Alike builder other) {item item' : Item} (hitem : item.Alike item') :
    builder.HasRoom item ↔ other.HasRoom item' := by
  cases hitem with
  | statement hs =>
    unfold HasRoom
    rw [h.limits, h.statementCount]
  | data member =>
    unfold HasRoom
    rw [h.limits, h.dataMemberCount]

theorem Alike.add (h : Alike builder other) {item item' : Item} (hitem : item.Alike item') :
    Alike (builder.add item) (other.add item') where
  program := by
    rw [sink_add, sink_add]
    exact h.program.accept hitem
  limits := by rw [limits_add, limits_add, h.limits]
  statementCount := by
    cases hitem with
    | statement hs => exact congrArg (· + 1) h.statementCount
    | data member => exact h.statementCount
  dataMemberCount := by
    cases hitem with
    | statement hs => exact h.dataMemberCount
    | data member => exact congrArg (· + 1) h.dataMemberCount

theorem Alike.error_refusal (h : Alike builder other) {item item' : Item}
    (hitem : item.Alike item') : (builder.refusal item).error = (other.refusal item').error := by
  unfold refusal
  rw [h.limits]
  cases hitem <;> rfl

theorem Alike.accept (h : Alike builder other) {item item' : Item} (hitem : item.Alike item') :
    Alike (builder.accept item).1 (other.accept item').1 ∧
      (builder.accept item).2.error = (other.accept item').2.error := by
  by_cases hroom : builder.HasRoom item
  · rw [accept_of_hasRoom hroom, accept_of_hasRoom ((h.hasRoom_iff hitem).mp hroom)]
    exact ⟨h.add hitem, rfl⟩
  · rw [accept_of_not_hasRoom hroom, accept_of_not_hasRoom (mt (h.hasRoom_iff hitem).mpr hroom)]
    exact ⟨h, h.error_refusal hitem⟩

theorem Alike.emit (h : Alike builder other) (emission : Emission) :
    Alike (builder.emit emission).1 (other.emit emission).1 ∧
      (builder.emit emission).2.error = (other.emit emission).2.error := by
  have hitems := emission.alike_item builder.defaultSize other.defaultSize
  unfold Builder.emit
  generalize emission.item builder.defaultSize = attempt, emission.item other.defaultSize = attempt'
    at hitems
  cases hitems with
  | error error => exact ⟨h, rfl⟩
  | ok hitem => exact h.accept hitem

theorem Alike.execute (h : Alike builder other) {command command' : Command}
    (hcommand : command.SameButWidth command') :
    Alike (builder.execute command).1 (other.execute command').1 ∧
      (builder.execute command).2.error = (other.execute command').2.error := by
  cases hcommand with
  | widths size size' => exact ⟨⟨h.program, h.limits, h.statementCount, h.dataMemberCount⟩, rfl⟩
  | same =>
    cases command with
    | reset => exact ⟨⟨.refl .empty, h.limits, rfl, rfl⟩, rfl⟩
    | call call =>
      cases call with
      | emit emission => exact h.emit emission
      | setLimits limits => exact ⟨⟨h.program, rfl, h.statementCount, h.dataMemberCount⟩, rfl⟩
      | setDefaultSize size => exact ⟨⟨h.program, h.limits, h.statementCount, h.dataMemberCount⟩, rfl⟩

theorem Alike.runCommands (h : Alike builder other) {commands commands' : List Command}
    (hcommands : List.Forall₂ Command.SameButWidth commands commands') :
    Alike (builder.runCommands commands).1 (other.runCommands commands').1 ∧
      (builder.runCommands commands).2.map Reply.error =
        (other.runCommands commands').2.map Reply.error := by
  induction hcommands generalizing builder other with
  | nil => exact ⟨h, rfl⟩
  | cons hcommand hcommands ih =>
    obtain ⟨hnext, herror⟩ := h.execute hcommand
    obtain ⟨hlast, herrors⟩ := ih hnext
    rw [runCommands_cons, runCommands_cons, List.map_cons, List.map_cons, herror, herrors]
    exact ⟨hlast, rfl⟩

end Builder
end X86Listing
