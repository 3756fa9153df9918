import X86Listing.Proofs.SinkView
import X86Listing.Proofs.Stream

/-! Accounting. A call that fails changes nothing, a setting changes itself alone, and a successful
emission adds one item at the end and counts it. A limit is at most the largest counter, so that no
counter wraps, and the counters say how far the program has grown since the builder took it over. -/

namespace X86Listing

universe u

namespace Emission

/-- Whether the emission declares a data member; all others make a statement. -/
def isDeclaration : Emission → Bool
  | .scalar _ _ | .string _ _ | .array _ _ _ _ => true
  | _ => false

theorem member?_of_resolved {request : Request} {item : Item} (h : resolved request = .ok item) :
    item.member? = none := by
  obtain ⟨instruction, -, rfl⟩ := resolved_eq_ok.mp h
  rfl

theorem isDeclaration_of_item {default : OperandSize} {emission : Emission} {item : Item}
    (h : emission.item default = .ok item) : emission.isDeclaration = item.member?.isSome := by
  cases emission with
  | shift | address =>
    obtain ⟨request, -, hresolved⟩ := bind_eq_ok.mp h
    rw [member?_of_resolved hresolved]
    rfl
  | byteStore | implicit | label | comment | constant | literal | scalar | string | array =>
    cases h
    rfl
  | _ =>
    rw [member?_of_resolved h]
    rfl

end Emission

namespace Builder

/-! ### Counters -/

theorem toNat_add_one_of_lt {count limit : UInt64} (h : count < limit) :
    (count + 1).toNat = count.toNat + 1 := by
  have hlt : count.toNat < limit.toNat := UInt64.lt_iff_toNat_lt.mp h
  have hlimit : limit.toNat < 2 ^ 64 := limit.toNat_lt
  rw [UInt64.toNat_add]
  change (count.toNat + 1) % 2 ^ 64 = count.toNat + 1
  exact Nat.mod_eq_of_lt (by omega)

/-- The counters after as many more items as the list holds. -/
structure CountsUp {σ : Type u} (before after : Builder σ) (items : List Item) : Prop where
  statementCount : after.statementCount.toNat =
    before.statementCount.toNat + (items.filterMap Item.statement?).length
  dataMemberCount : after.dataMemberCount.toNat =
    before.dataMemberCount.toNat + (items.filterMap Item.member?).length

variable {σ : Type u}

theorem CountsUp.trans {first second third : Builder σ} {items later : List Item}
    (h : CountsUp first second items) (h' : CountsUp second third later) :
    CountsUp first third (items ++ later) where
  statementCount := by
    rw [h'.statementCount, h.statementCount, List.filterMap_append, List.length_append, Nat.add_assoc]
  dataMemberCount := by
    rw [h'.dataMemberCount, h.dataMemberCount, List.filterMap_append, List.length_append,
      Nat.add_assoc]

variable [Sink σ]

theorem countsUp_add {builder : Builder σ} {item : Item} (hroom : builder.HasRoom item) :
    CountsUp builder (builder.add item) [item] := by
  cases item with
  | statement s => exact ⟨toNat_add_one_of_lt hroom, rfl⟩
  | data member => exact ⟨rfl, toNat_add_one_of_lt hroom⟩

theorem countsUp_perform (builder : Builder σ) (call : Call) :
    CountsUp builder (builder.perform call).1 (builder.added call).toList := by
  have hstep := builder.step_perform call
  generalize builder.added call = item?, builder.perform call = outcome at hstep ⊢
  cases hstep with
  | setLimits limits => exact ⟨rfl, rfl⟩
  | setDefaultSize size => exact ⟨rfl, rfl⟩
  | rejected hitem => exact ⟨rfl, rfl⟩
  | dropped hitem hfull => exact ⟨rfl, rfl⟩
  | added hitem hroom => exact countsUp_add hroom

theorem countsUp_run (builder : Builder σ) (calls : List Call) :
    CountsUp builder (builder.run calls).1 (builder.stream calls) := by
  induction calls generalizing builder with
  | nil => exact ⟨rfl, rfl⟩
  | cons call calls ih => exact (countsUp_perform builder call).trans (ih _)

/-! ### One call -/

variable {π : Type u} [ProgramSink π]

/-- One more statement at the end, and counted; all else is as it was. -/
structure Appends (before after : Builder π) (s : Statement) : Prop where
  statements : (ProgramSink.program after.sink).statements.toList =
    (ProgramSink.program before.sink).statements.toList ++ [s]
  dataMembers : (ProgramSink.program after.sink).dataMembers =
    (ProgramSink.program before.sink).dataMembers
  statementCount : after.statementCount.toNat = before.statementCount.toNat + 1
  dataMemberCount : after.dataMemberCount = before.dataMemberCount
  limits : after.limits = before.limits
  defaultSize : after.defaultSize = before.defaultSize

/-- One more data member at the end, and counted; all else is as it was. -/
structure Declares (before after : Builder π) (member : DataMember) : Prop where
  statements : (ProgramSink.program after.sink).statements =
    (ProgramSink.program before.sink).statements
  dataMembers : (ProgramSink.program after.sink).dataMembers.toList =
    (ProgramSink.program before.sink).dataMembers.toList ++ [member]
  statementCount : after.statementCount = before.statementCount
  dataMemberCount : after.dataMemberCount.toNat = before.dataMemberCount.toNat + 1
  limits : after.limits = before.limits
  defaultSize : after.defaultSize = before.defaultSize

/-- What calls on the builder change: nothing if they fail, the setting that they are for, or the one
item that a successful emission asks for. -/
structure Accounted (builder : Builder π) : Prop where
  failed : ∀ call : Call, (builder.perform call).2.error ≠ none → (builder.perform call).1 = builder
  setLimits : ∀ limits : Limits, builder.perform (.setLimits limits) = ({ builder with limits }, {})
  setDefaultSize : ∀ size : OperandSize,
    builder.perform (.setDefaultSize size) = ({ builder with defaultSize := size }, {})
  statement : ∀ emission : Emission, emission.isDeclaration = false →
    (builder.perform (.emit emission)).2.error = none →
    ∃ s, emission.item builder.defaultSize = .ok (.statement s) ∧
      Appends builder (builder.perform (.emit emission)).1 s
  declaration : ∀ emission : Emission, emission.isDeclaration = true →
    (builder.perform (.emit emission)).2.error = none →
    ∃ member, emission.item builder.defaultSize = .ok (.data member) ∧
      Declares builder (builder.perform (.emit emission)).1 member

theorem program_add (builder : Builder π) (item : Item) :
    ProgramSink.program (builder.add item).sink =
      Sink.accept (ProgramSink.program builder.sink) item := by
  rw [sink_add, ProgramSink.preserves]

theorem appends_add {builder : Builder π} {s : Statement} (hroom : builder.HasRoom (.statement s)) :
    Appends builder (builder.add (.statement s)) s where
  statements := by
    rw [program_add]
    exact Program.toList_statements_append _ s
  dataMembers := by
    rw [program_add]
    rfl
  statementCount := (countsUp_add hroom).statementCount
  dataMemberCount := rfl
  limits := rfl
  defaultSize := rfl

theorem declares_add {builder : Builder π} {member : DataMember}
    (hroom : builder.HasRoom (.data member)) : Declares builder (builder.add (.data member)) member where
  statements := by
    rw [program_add]
    rfl
  dataMembers := by
    rw [program_add]
    exact Program.toList_dataMembers_defineData _ member
  statementCount := rfl
  dataMemberCount := (countsUp_add hroom).dataMemberCount
  limits := rfl
  defaultSize := rfl

theorem accounted (builder : Builder π) : Accounted builder where
  failed := builder.perform_of_error
  setLimits _ := rfl
  setDefaultSize _ := rfl
  statement emission hkind hsuccess := by
    obtain ⟨item, hitem, hroom, hafter⟩ := perform_of_success hsuccess
    rw [Emission.isDeclaration_of_item hitem] at hkind
    cases item with
    | statement s => exact ⟨s, hitem, hafter ▸ appends_add hroom⟩
    | data member => cases hkind
  declaration emission hkind hsuccess := by
    obtain ⟨item, hitem, hroom, hafter⟩ := perform_of_success hsuccess
    rw [Emission.isDeclaration_of_item hitem] at hkind
    cases item with
    | statement s => cases hkind
    | data member => exact ⟨member, hitem, hafter ▸ declares_add hroom⟩

/-! ### Runs -/

/-- The program of a builder that has counted from zero on, after a run. Both counters are the number of
items by which it has grown. -/
structure Grown (start : Builder π) (calls : List Call) : Prop where
  statements : (ProgramSink.program (start.run calls).1.sink).statements.toList =
    (ProgramSink.program start.sink).statements.toList ++
      (start.stream calls).filterMap Item.statement?
  dataMembers : (ProgramSink.program (start.run calls).1.sink).dataMembers.toList =
    (ProgramSink.program start.sink).dataMembers.toList ++
      (start.stream calls).filterMap Item.member?
  statementCount : (ProgramSink.program start.sink).size + (start.run calls).1.statementCount.toNat =
    (ProgramSink.program (start.run calls).1.sink).size
  dataMemberCount :
    (ProgramSink.program start.sink).dataMembers.size + (start.run calls).1.dataMemberCount.toNat =
      (ProgramSink.program (start.run calls).1.sink).dataMembers.size

theorem grown_run {start : Builder π} (hstatements : start.statementCount = 0)
    (hmembers : start.dataMemberCount = 0) (calls : List Call) : Grown start calls := by
  have hprogram : ProgramSink.program (start.run calls).1.sink =
      (start.stream calls).foldl Sink.accept (ProgramSink.program start.sink) := by
    rw [sink_run]
    exact ProgramSink.preserves.foldl start.sink (start.stream calls)
  have hcounts := countsUp_run start calls
  have hitems := Program.accept_append (ProgramSink.program start.sink) (start.stream calls)
  have hsizes := Program.size_accept (ProgramSink.program start.sink) (start.stream calls)
  rw [← hprogram] at hitems hsizes
  refine ⟨hitems.1, hitems.2, ?_, ?_⟩
  · rw [hsizes.1, hcounts.statementCount, hstatements, UInt64.toNat_zero, Nat.zero_add]
  · rw [hsizes.2, hcounts.dataMemberCount, hmembers, UInt64.toNat_zero, Nat.zero_add]

/-- Whether the counters of the builder are the sizes of its program. -/
structure Balanced (builder : Builder Program) : Prop where
  statementCount : builder.statementCount.toNat = builder.sink.size
  dataMemberCount : builder.dataMemberCount.toNat = builder.sink.dataMembers.size

theorem balanced_perform {builder : Builder Program} (h : Balanced builder) (call : Call) :
    Balanced (builder.perform call).1 := by
  have hcounts := countsUp_perform builder call
  have hsizes := Program.size_accept builder.sink (builder.added call).toList
  rw [← sink_perform] at hsizes
  constructor
  · rw [hsizes.1, hcounts.statementCount, h.statementCount]
  · rw [hsizes.2, hcounts.dataMemberCount, h.dataMemberCount]

theorem balanced_reset (builder : Builder Program) : Balanced builder.reset := ⟨rfl, rfl⟩

theorem balanced_runCommands {builder : Builder Program} (h : Balanced builder)
    (commands : List Command) : Balanced (builder.runCommands commands).1 := by
  induction commands generalizing builder with
  | nil => exact h
  | cons command commands ih =>
    rw [runCommands_cons]
    cases command with
    | call call => exact ih (balanced_perform h call)
    | reset => exact ih (balanced_reset builder)

/-- A call that fails changes nothing and every other call only what it is for, in every state. After
any run the program has grown by the items of the successful calls, which the counters count exactly;
and where the builder of an empty program can start over at any time, they are the sizes of the program. -/
theorem atomic_and_accounted (sink : π) (limits : Limits) (defaultSize : OperandSize)
    (calls : List Call) (commands : List Command) :
    (∀ builder : Builder π, Accounted builder) ∧
    Grown ({ sink, limits, defaultSize } : Builder π) calls ∧
    Balanced (({ sink := .empty, limits, defaultSize } : Builder Program).runCommands commands).1 :=
  ⟨accounted, grown_run rfl rfl calls, balanced_runCommands ⟨rfl, rfl⟩ commands⟩

end Builder
end X86Listing
