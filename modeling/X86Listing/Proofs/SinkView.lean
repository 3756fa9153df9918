import X86Listing.Proofs.Step

/-! Views of sinks. A map between sinks that keeps what they take carries a whole run along: settings,
counters, replies and stream are those of the run on the other sink. Every sink is the image of the
journal, and a program can be read off whatever hands everything on to one. -/

namespace X86Listing

universe u v w

/-- The statement, if the item is one. -/
def Item.statement? : Item → Option Statement
  | .statement s => some s
  | .data _ => none

/-- The data member, if the item is one. -/
def Item.member? : Item → Option DataMember
  | .statement _ => none
  | .data member => some member

theorem Program.accept_append (program : Program) (items : List Item) :
    ((items.foldl Sink.accept program).statements.toList =
        program.statements.toList ++ items.filterMap Item.statement?) ∧
      (items.foldl Sink.accept program).dataMembers.toList =
        program.dataMembers.toList ++ items.filterMap Item.member? := by
  induction items generalizing program with
  | nil => simp
  | cons item items ih =>
    obtain ⟨hstatements, hmembers⟩ := ih (Sink.accept program item)
    rw [List.foldl_cons, hstatements, hmembers]
    cases item with
    | statement s =>
      change (program.append s).statements.toList ++ _ = _ ∧
        (program.append s).dataMembers.toList ++ _ = _
      rw [toList_statements_append, dataMembers_append, List.append_assoc]
      exact ⟨rfl, rfl⟩
    | data member =>
      change (program.defineData member).statements.toList ++ _ = _ ∧
        (program.defineData member).dataMembers.toList ++ _ = _
      rw [toList_dataMembers_defineData, statements_defineData, List.append_assoc]
      exact ⟨rfl, rfl⟩

theorem Program.size_accept (program : Program) (items : List Item) :
    (items.foldl Sink.accept program).size =
        program.size + (items.filterMap Item.statement?).length ∧
      (items.foldl Sink.accept program).dataMembers.size =
        program.dataMembers.size + (items.filterMap Item.member?).length := by
  obtain ⟨hstatements, hmembers⟩ := program.accept_append items
  have hsize := congrArg List.length hstatements
  have hmembersSize := congrArg List.length hmembers
  rw [List.length_append, Array.length_toList, Array.length_toList] at hsize hmembersSize
  exact ⟨hsize, hmembersSize⟩

section View

variable {σ : Type u} {τ : Type v} [Sink σ] [Sink τ]

/-- Whether a map of sinks keeps what they take. -/
def Sink.Preserves (view : σ → τ) : Prop :=
  ∀ (sink : σ) (item : Item), view (accept sink item) = accept (view sink) item

theorem Sink.Preserves.comp {ρ : Type w} [Sink ρ] {outer : τ → ρ} {inner : σ → τ}
    (houter : Preserves outer) (hinner : Preserves inner) :
    Preserves fun sink => outer (inner sink) := by
  intro sink item
  change outer (inner (accept sink item)) = accept (outer (inner sink)) item
  rw [hinner, houter]

theorem Sink.Preserves.foldl {view : σ → τ} (hview : Preserves view) (sink : σ)
    (items : List Item) : view (items.foldl accept sink) = items.foldl accept (view sink) := by
  induction items generalizing sink with
  | nil => rfl
  | cons item items ih => rw [List.foldl_cons, List.foldl_cons, ih, hview]

/-- The builder with another sink in place of its own. -/
def Builder.mapSink {σ : Type u} {τ : Type v} (view : σ → τ) (builder : Builder σ) : Builder τ where
  sink := view builder.sink
  limits := builder.limits
  defaultSize := builder.defaultSize
  statementCount := builder.statementCount
  dataMemberCount := builder.dataMemberCount

namespace Builder

variable {view : σ → τ}

theorem add_mapSink (hview : Sink.Preserves view) (builder : Builder σ) (item : Item) :
    (builder.mapSink view).add item = (builder.add item).mapSink view := by
  cases item with
  | statement s =>
    have happend : view (Sink.append builder.sink s) = Sink.append (view builder.sink) s :=
      hview builder.sink (.statement s)
    simp only [add, mapSink, happend]
  | data member =>
    have hdefine : view (Sink.defineData builder.sink member) =
        Sink.defineData (view builder.sink) member := hview builder.sink (.data member)
    simp only [add, mapSink, hdefine]

omit [Sink σ] [Sink τ] in
theorem hasRoom_mapSink (builder : Builder σ) (item : Item) :
    (builder.mapSink view).HasRoom item ↔ builder.HasRoom item := by
  cases item <;> exact Iff.rfl

theorem accept_mapSink (hview : Sink.Preserves view) (builder : Builder σ) (item : Item) :
    (builder.mapSink view).accept item =
      ((builder.accept item).1.mapSink view, (builder.accept item).2) := by
  by_cases hroom : builder.HasRoom item
  · rw [accept_of_hasRoom hroom, accept_of_hasRoom ((hasRoom_mapSink builder item).mpr hroom),
      add_mapSink hview]
    cases item <;> rfl
  · rw [accept_of_not_hasRoom hroom,
      accept_of_not_hasRoom (mt (hasRoom_mapSink builder item).mp hroom)]
    cases item <;> rfl

theorem perform_mapSink (hview : Sink.Preserves view) (builder : Builder σ) (call : Call) :
    (builder.mapSink view).perform call =
      ((builder.perform call).1.mapSink view, (builder.perform call).2) := by
  cases call with
  | setLimits limits => rfl
  | setDefaultSize size => rfl
  | emit emission =>
    change (builder.mapSink view).emit emission =
      ((builder.emit emission).1.mapSink view, (builder.emit emission).2)
    have hdefault : (builder.mapSink view).defaultSize = builder.defaultSize := rfl
    cases hitem : emission.item builder.defaultSize with
    | error error =>
      rw [emit_of_error hitem]
      rw [← hdefault] at hitem
      exact emit_of_error hitem
    | ok item =>
      rw [emit_of_ok hitem, ← accept_mapSink hview]
      rw [← hdefault] at hitem
      exact emit_of_ok hitem

/-- A run on one sink is the run on the other, seen through the view. -/
theorem run_mapSink (hview : Sink.Preserves view) (builder : Builder σ) (calls : List Call) :
    (builder.mapSink view).run calls =
      ((builder.run calls).1.mapSink view, (builder.run calls).2) := by
  induction calls generalizing builder with
  | nil => rfl
  | cons call calls ih => rw [run_cons, run_cons, perform_mapSink hview, ih]

theorem added_mapSink (hview : Sink.Preserves view) (builder : Builder σ) (call : Call) :
    (builder.mapSink view).added call = builder.added call := by
  cases call with
  | setLimits limits => rfl
  | setDefaultSize size => rfl
  | emit emission =>
    -- an emission adds its item exactly if the reply has no error, and the replies are the same
    have hreply := congrArg Prod.snd (perform_mapSink hview builder (.emit emission))
    change ((builder.mapSink view).emit emission).2 = (builder.emit emission).2 at hreply
    simp only [added, hreply]
    rfl

theorem stream_mapSink (hview : Sink.Preserves view) (builder : Builder σ) (calls : List Call) :
    (builder.mapSink view).stream calls = builder.stream calls := by
  induction calls generalizing builder with
  | nil => rfl
  | cons call calls ih =>
    rw [stream_cons, stream_cons, added_mapSink hview, perform_mapSink hview, ih]

end Builder
end View

/-! ### The journal -/

/-- Hands the items of the journal to a sink. -/
def Journal.replay {σ : Type u} [Sink σ] (sink : σ) (journal : Journal) : σ :=
  journal.items.toList.foldl Sink.accept sink

theorem Journal.accept_eq_record (journal : Journal) (item : Item) :
    Sink.accept journal item = journal.record item := by
  cases item <;> rfl

theorem Journal.preserves_replay {σ : Type u} [Sink σ] (sink : σ) :
    Sink.Preserves (Journal.replay sink) := by
  intro journal item
  unfold replay
  rw [accept_eq_record, toList_items_record, List.foldl_append]
  rfl

theorem Journal.toList_accept (journal : Journal) (items : List Item) :
    (items.foldl Sink.accept journal).items.toList = journal.items.toList ++ items := by
  induction items generalizing journal with
  | nil => simp
  | cons item items ih =>
    rw [List.foldl_cons, ih, accept_eq_record, toList_items_record, List.append_assoc]
    rfl

/-! ### Sinks that hold a program -/

/-- A sink that a program is read off: a program, or a chain of sinks that hand everything on to one. -/
class ProgramSink (σ : Type u) extends Sink σ where
  program : σ → Program
  preserves : Sink.Preserves program

instance : ProgramSink Program where
  program := id
  preserves _ _ := rfl

theorem Forwarding.preserves_target {σ : Type u} [Sink σ] :
    Sink.Preserves (Forwarding.target : Forwarding σ → σ) := by
  intro sink item
  cases item <;> rfl

instance {σ : Type u} [ProgramSink σ] : ProgramSink (Forwarding σ) where
  program sink := ProgramSink.program sink.target
  preserves := Sink.Preserves.comp ProgramSink.preserves Forwarding.preserves_target

example : ProgramSink (Forwarding (Forwarding Program)) := inferInstance

end X86Listing
