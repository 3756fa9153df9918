import X86Listing.Proofs.Resolution
import X86Listing.Proofs.Step

/-! The stream of a builder. Whatever is called, in whatever order and with whatever failures between,
only well-formed items reach the sink. An emission gets its item from a resolved request, or makes one
whose form is fixed; starting over puts an empty program in place of the old one. -/

namespace X86Listing

universe u

namespace Emission

theorem resolved_eq_ok {request : Request} {item : Item} :
    resolved request = .ok item ↔
      ∃ instruction, request.resolve = .ok instruction ∧
        item = .statement (.instruction instruction) := by
  unfold resolved
  cases request.resolve with
  | error error => simp [Except.map]
  | ok instruction => simp [Except.map, eq_comm]

theorem resolved_eq_ok_instruction {request : Request} {instruction : Instruction} :
    resolved request = .ok (.statement (.instruction instruction)) ↔
      request.resolve = .ok instruction := by
  rw [resolved_eq_ok]
  constructor
  · rintro ⟨_, hresolve, ⟨⟩⟩
    exact hresolve
  · intro hresolve
    exact ⟨instruction, hresolve, rfl⟩

theorem resolved_of_error {request : Request} {error : BuildError}
    (h : request.resolve = .error error) : resolved request = .error error := by
  unfold resolved
  rw [h]
  rfl

theorem wellFormed_of_resolved {request : Request} {item : Item}
    (h : resolved request = .ok item) : item.WellFormed := by
  obtain ⟨instruction, hresolve, rfl⟩ := resolved_eq_ok.mp h
  exact Request.wellFormed_of_resolve hresolve

/-- What an emission asks for is well formed, whichever way it gets its item. -/
theorem wellFormed_of_item {default : OperandSize} {emission : Emission} {item : Item}
    (h : emission.item default = .ok item) : item.WellFormed := by
  cases emission with
  | instruction request => exact wellFormed_of_resolved h
  | binary op destination source => exact wellFormed_of_resolved h
  | shift op destination count =>
    obtain ⟨request, -, hresolved⟩ := bind_eq_ok.mp h
    exact wellFormed_of_resolved hresolved
  | unary op operand => exact wellFormed_of_resolved h
  | jump name => exact wellFormed_of_resolved h
  | jumpIf condition name => exact wellFormed_of_resolved h
  | address op operand =>
    obtain ⟨request, -, hresolved⟩ := bind_eq_ok.mp h
    exact wellFormed_of_resolved hresolved
  | writeDevice register => exact wellFormed_of_resolved h
  | readDevice register => exact wellFormed_of_resolved h
  | byteStore target value =>
    cases h
    exact Instruction.wellFormed_byteStore target value
  | implicit op => cases h; rfl
  | label name => cases h; trivial
  | comment content => cases h; trivial
  | constant c => cases h; trivial
  | literal code => cases h; trivial
  | scalar name number => cases h; trivial
  | string name content => cases h; exact ⟨rfl, rfl⟩
  | array name count element number => cases h; trivial

end Emission

/-- What a command brings to the program under construction. -/
inductive Delivery where
  | item (item : Item)
  /-- An empty program in place of the old one. -/
  | restart
  deriving DecidableEq

/-- Takes a delivery. -/
def Program.receive (program : Program) : Delivery → Program
  | .item item => Sink.accept program item
  | .restart => .empty

namespace Builder

theorem wellFormed_of_added {σ : Type u} [Sink σ] (builder : Builder σ) (call : Call) :
    ∀ item ∈ builder.added call, item.WellFormed := by
  intro item h
  obtain ⟨emission, -, hitem⟩ := item_of_added h
  exact Emission.wellFormed_of_item hitem

/-- What a command delivers. -/
def delivered (builder : Builder Program) : Command → List Delivery
  | .call call => (builder.added call).toList.map .item
  | .reset => [.restart]

/-- What the commands of a run deliver, in order. -/
def deliveries (builder : Builder Program) : List Command → List Delivery
  | [] => []
  | command :: commands =>
    builder.delivered command ++ (builder.execute command).1.deliveries commands

theorem runCommands_cons (builder : Builder Program) (command : Command) (commands : List Command) :
    builder.runCommands (command :: commands) =
      (((builder.execute command).1.runCommands commands).1,
        (builder.execute command).2 :: ((builder.execute command).1.runCommands commands).2) := rfl

theorem sink_execute (builder : Builder Program) (command : Command) :
    (builder.execute command).1.sink =
      (builder.delivered command).foldl Program.receive builder.sink := by
  cases command with
  | reset => rfl
  | call call =>
    change (builder.perform call).1.sink =
      ((builder.added call).toList.map Delivery.item).foldl Program.receive builder.sink
    rw [sink_perform, List.foldl_map]
    rfl

theorem sink_runCommands (builder : Builder Program) (commands : List Command) :
    (builder.runCommands commands).1.sink =
      (builder.deliveries commands).foldl Program.receive builder.sink := by
  induction commands generalizing builder with
  | nil => rfl
  | cons command commands ih =>
    rw [runCommands_cons, deliveries, List.foldl_append, ← sink_execute]
    exact ih _

/-- Every delivered item was added by a call among the commands, in some state of the builder. -/
theorem exists_added_of_mem_deliveries {builder : Builder Program} {commands : List Command}
    {item : Item} (h : .item item ∈ builder.deliveries commands) :
    ∃ call, .call call ∈ commands ∧ ∃ state : Builder Program, item ∈ state.added call := by
  induction commands generalizing builder with
  | nil => cases h
  | cons command commands ih =>
    rw [deliveries, List.mem_append] at h
    rcases h with h | h
    · cases command with
      | reset => simp [delivered] at h
      | call call =>
        obtain ⟨_, hitem, ⟨⟩⟩ := List.mem_map.mp h
        exact ⟨call, List.mem_cons_self, builder, Option.mem_toList.mp hitem⟩
    · obtain ⟨call, hcall, hadded⟩ := ih h
      exact ⟨call, List.mem_cons_of_mem command hcall, hadded⟩

theorem wellFormed_of_deliveries (builder : Builder Program) (commands : List Command) (item : Item)
    (h : .item item ∈ builder.deliveries commands) : item.WellFormed := by
  obtain ⟨call, -, state, hstate⟩ := exists_added_of_mem_deliveries h
  exact wellFormed_of_added state call item hstate

/-- Only well-formed items ever reach a sink: any sink, from any state of its builder, and also where
the builder starts over in between. -/
theorem wellFormed_of_handed {σ : Type u} [Sink σ] (builder : Builder σ) (calls : List Call)
    (restartable : Builder Program) (commands : List Command) :
    ((builder.run calls).1.sink = (builder.stream calls).foldl Sink.accept builder.sink ∧
      ∀ item ∈ builder.stream calls, item.WellFormed) ∧
    ((restartable.runCommands commands).1.sink =
        (restartable.deliveries commands).foldl Program.receive restartable.sink ∧
      ∀ item, .item item ∈ restartable.deliveries commands → item.WellFormed) := by
  have hstream := stream_induction wellFormed_of_added builder calls
  exact ⟨⟨builder.sink_run calls, hstream⟩, restartable.sink_runCommands commands,
    restartable.wellFormed_of_deliveries commands⟩

/-- A shift by `cl` after an emission that fails, thrown away by starting over before a string comes. -/
theorem wellFormed_of_handed_before_restart :
    let eax : Register := .lettered .a .dword
    let shift : Item := .statement (.instruction
      ⟨.shift .shl, .direct (.register eax), some (.direct (.register .cl)), some .dword⟩)
    let calls : List Call := [.emit (.unary .inc (.deref (.register eax))),
      .emit (.shift .shl (.ofValue (.register eax)) (.register .cl))]
    let commands : List Command := calls.map .call ++ [.reset, .call (.emit (.string "text" "hello"))]
    (shift ∈ Builder.new.stream calls ∧ shift.WellFormed) ∧
      .item shift ∈ Builder.new.deliveries commands ∧ shift.WellFormed := by
  intro eax shift calls commands
  have hstream : shift ∈ Builder.new.stream calls := by decide
  have hdeliveries : .item shift ∈ Builder.new.deliveries commands := by decide
  obtain ⟨⟨-, hitems⟩, -, hdelivered⟩ := wellFormed_of_handed Builder.new calls Builder.new commands
  exact ⟨⟨hstream, hitems shift hstream⟩, hdeliveries, hdelivered shift hdeliveries⟩

end Builder
end X86Listing
