import X86Listing.Proofs.Accounting

/-! Replay. Every well-formed item is what some emission asks for, whatever the default width. So a
well-formed program whose sizes fit the counters can be built again, call by call and without a failure,
once the limits are out of the way. -/

namespace X86Listing

universe u

theorem Item.WellFormed.exists_emission {item : Item} (h : item.WellFormed) :
    ∃ emission : Emission, ∀ default : OperandSize, emission.item default = .ok item := by
  cases item with
  | statement s =>
    cases s with
    | instruction i =>
      refine ⟨.instruction (.ofInstruction i), fun default => ?_⟩
      exact Emission.resolved_eq_ok.mpr ⟨i, Request.resolve_ofInstruction h, rfl⟩
    | implicit kind =>
      cases kind with
      | implicit op => exact ⟨.implicit op, fun _ => rfl⟩
      -- every other kind has operand slots
      | _ => cases h
    | label name => exact ⟨.label name, fun _ => rfl⟩
    | comment content => exact ⟨.comment content, fun _ => rfl⟩
    | constant c => exact ⟨.constant c, fun _ => rfl⟩
    | literal code => exact ⟨.literal code, fun _ => rfl⟩
  | data member =>
    obtain ⟨name, value, element, count⟩ := member
    cases value with
    | integer number => exact ⟨.array name count element number, fun _ => rfl⟩
    | string content =>
      -- a string leaves no choice of element and count
      obtain ⟨rfl, rfl⟩ : element = .byte ∧ count = 1 := h
      exact ⟨.string name content, fun _ => rfl⟩

/-- The largest limits that there are. -/
def Limits.greatest : Limits := ⟨.ofNat (UInt64.size - 1), .ofNat (UInt64.size - 1)⟩

theorem Limits.toNat_greatest : greatest.maxStatements.toNat = UInt64.size - 1 ∧
    greatest.maxDataMembers.toNat = UInt64.size - 1 := by decide

namespace Builder

variable {σ : Type u}

/-- Whether no limit is reached while the items are added. -/
structure HasRoomFor (builder : Builder σ) (items : List Item) : Prop where
  statements : builder.statementCount.toNat + (items.filterMap Item.statement?).length ≤
    builder.limits.maxStatements.toNat
  dataMembers : builder.dataMemberCount.toNat + (items.filterMap Item.member?).length ≤
    builder.limits.maxDataMembers.toNat

theorem HasRoomFor.head {builder : Builder σ} {item : Item} {items : List Item}
    (h : HasRoomFor builder (item :: items)) : builder.HasRoom item := by
  cases item with
  | statement s =>
    have hstatements := h.statements
    change builder.statementCount.toNat + ((items.filterMap Item.statement?).length + 1) ≤ _
      at hstatements
    exact UInt64.lt_iff_toNat_lt.mpr (by omega)
  | data member =>
    have hmembers := h.dataMembers
    change builder.dataMemberCount.toNat + ((items.filterMap Item.member?).length + 1) ≤ _
      at hmembers
    exact UInt64.lt_iff_toNat_lt.mpr (by omega)

variable [Sink σ]

theorem HasRoomFor.tail {builder : Builder σ} {item : Item} {items : List Item}
    (h : HasRoomFor builder (item :: items)) : HasRoomFor (builder.add item) items := by
  have hcounts := countsUp_add h.head
  have hstatements := h.statements
  have hmembers := h.dataMembers
  rw [← List.singleton_append, List.filterMap_append, List.length_append] at hstatements hmembers
  constructor
  · rw [hcounts.statementCount, limits_add]
    omega
  · rw [hcounts.dataMemberCount, limits_add]
    omega

theorem exists_calls_of_wellFormed {builder : Builder σ} {items : List Item}
    (hitems : ∀ item ∈ items, item.WellFormed) (hroom : HasRoomFor builder items) :
    ∃ calls : List Call, (∀ reply ∈ (builder.run calls).2, reply.error = none) ∧
      (builder.run calls).1.sink = items.foldl Sink.accept builder.sink := by
  induction items generalizing builder with
  | nil => exact ⟨[], by simp, rfl⟩
  | cons item items ih =>
    obtain ⟨emission, hemission⟩ := (hitems item List.mem_cons_self).exists_emission
    have hperform : builder.perform (.emit emission) =
        (builder.add item, { log := [builder.record item] }) :=
      (emit_of_ok (hemission builder.defaultSize)).trans (accept_of_hasRoom hroom.head)
    obtain ⟨calls, hreplies, hsink⟩ :=
      ih (fun later hlater => hitems later (List.mem_cons_of_mem item hlater)) hroom.tail
    refine ⟨.emit emission :: calls, ?_, ?_⟩
    · intro reply hreply
      rw [run_cons, hperform] at hreply
      rcases List.mem_cons.mp hreply with rfl | hreply
      · rfl
      · exact hreplies reply hreply
    · rw [run_cons, hperform, List.foldl_cons, ← sink_add]
      exact hsink

end Builder

/-! ### Programs -/

/-- The items of a program: the statements, and after them the data members. -/
def Program.items (program : Program) : List Item :=
  program.statements.toList.map .statement ++ program.dataMembers.toList.map .data

theorem Program.ext_toList {left right : Program}
    (hstatements : left.statements.toList = right.statements.toList)
    (hmembers : left.dataMembers.toList = right.dataMembers.toList) : left = right := by
  obtain ⟨statements, dataMembers⟩ := left
  obtain ⟨statements', dataMembers'⟩ := right
  rw [mk.injEq]
  exact ⟨Array.toList_inj.mp hstatements, Array.toList_inj.mp hmembers⟩

theorem Program.filterMap_items (program : Program) :
    program.items.filterMap Item.statement? = program.statements.toList ∧
      program.items.filterMap Item.member? = program.dataMembers.toList := by
  have hstatements : Item.statement? ∘ Item.statement = some := rfl
  have hmembers : Item.member? ∘ Item.data = some := rfl
  have hdata : Item.statement? ∘ Item.data = fun _ => none := rfl
  have hcode : Item.member? ∘ Item.statement = fun _ => none := rfl
  unfold items
  constructor
  · rw [List.filterMap_append, List.filterMap_map, List.filterMap_map, hstatements, hdata]
    simp
  · rw [List.filterMap_append, List.filterMap_map, List.filterMap_map, hmembers, hcode]
    simp

theorem Program.foldl_items (program : Program) :
    program.items.foldl Sink.accept Program.empty = program := by
  obtain ⟨hstatements, hmembers⟩ := Program.empty.accept_append program.items
  rw [program.filterMap_items.1] at hstatements
  rw [program.filterMap_items.2] at hmembers
  exact ext_toList hstatements hmembers

theorem Program.WellFormed.items {program : Program} (h : program.WellFormed) :
    ∀ item ∈ program.items, item.WellFormed := by
  intro item hitem
  rcases List.mem_append.mp hitem with hitem | hitem
  · obtain ⟨s, hs, rfl⟩ := List.mem_map.mp hitem
    exact h.statements s (Array.mem_toList_iff.mp hs)
  · obtain ⟨member, hmember, rfl⟩ := List.mem_map.mp hitem
    exact h.dataMembers member (Array.mem_toList_iff.mp hmember)

namespace Builder

theorem hasRoomFor_items {program : Program} (hstatements : program.size < UInt64.size)
    (hmembers : program.dataMembers.size < UInt64.size) :
    HasRoomFor { Builder.new with limits := .greatest } program.items := by
  obtain ⟨hstatementLimit, hmemberLimit⟩ := Limits.toNat_greatest
  constructor
  · rw [program.filterMap_items.1, Array.length_toList]
    change (0 : UInt64).toNat + program.size ≤ Limits.greatest.maxStatements.toNat
    rw [hstatementLimit, UInt64.toNat_zero, Nat.zero_add]
    exact Nat.le_sub_one_of_lt hstatements
  · rw [program.filterMap_items.2, Array.length_toList]
    change (0 : UInt64).toNat + program.dataMembers.size ≤ Limits.greatest.maxDataMembers.toNat
    rw [hmemberLimit, UInt64.toNat_zero, Nat.zero_add]
    exact Nat.le_sub_one_of_lt hmembers

theorem exists_run_of_wellFormed {program : Program} (h : program.WellFormed)
    (hstatements : program.size < UInt64.size) (hmembers : program.dataMembers.size < UInt64.size) :
    ∃ calls : List Call, (∀ reply ∈ (Builder.new.run calls).2, reply.error = none) ∧
      (Builder.new.run calls).1.sink = program := by
  obtain ⟨calls, hreplies, hsink⟩ :=
    exists_calls_of_wellFormed h.items (hasRoomFor_items hstatements hmembers)
  refine ⟨.setLimits .greatest :: calls, ?_, ?_⟩
  · intro reply hreply
    rcases List.mem_cons.mp hreply with rfl | hreply
    · rfl
    · exact hreplies reply hreply
  · rw [← program.foldl_items]
    exact hsink

/-- Every well-formed program that the counters can count is built by calls that all succeed. At its
core, a well-formed instruction is what the request rebuilt from it resolves to, and so resolving again
what was resolved once gives the same instruction. -/
theorem replay_complete (program : Program) (instruction : Instruction) (request : Request) :
    (program.WellFormed → program.size < UInt64.size → program.dataMembers.size < UInt64.size →
      ∃ calls : List Call, (∀ reply ∈ (Builder.new.run calls).2, reply.error = none) ∧
        (Builder.new.run calls).1.sink = program) ∧
    (instruction.WellFormed → (Request.ofInstruction instruction).resolve = .ok instruction) ∧
    (request.resolve = .ok instruction →
      (Request.ofInstruction instruction).resolve = .ok instruction) :=
  ⟨exists_run_of_wellFormed, Request.resolve_ofInstruction, fun hresolve =>
    Request.resolve_ofInstruction (Request.wellFormed_of_resolve hresolve)⟩

/-- A rotation of memory by `cl`, a return and a string, and the rotation alone. -/
theorem replay_complete_of_rotation :
    let rotation : Instruction := ⟨.shift .rol, .indirect (.register (.lettered .b .dword)) (-4),
      some (.direct (.register .cl)), some .word⟩
    let program : Program :=
      ⟨#[.instruction rotation, .implicit (.implicit .ret)], #[.string "greeting" "hello"]⟩
    let request : Request := {
      kind := .shift .rol
      destination := (Argument.mem (.register (.lettered .b .dword)) (-4)).indirect
      source := some ((Argument.ofValue (.register .cl)).sized .dword)
      size := some .word }
    (program.WellFormed ∧ program.size < UInt64.size ∧ program.dataMembers.size < UInt64.size ∧
      ∃ calls : List Call, (∀ reply ∈ (Builder.new.run calls).2, reply.error = none) ∧
        (Builder.new.run calls).1.sink = program) ∧
    (rotation.WellFormed ∧ (Request.ofInstruction rotation).resolve = .ok rotation) ∧
    request.resolve = .ok rotation ∧ (Request.ofInstruction rotation).resolve = .ok rotation := by
  intro rotation program request
  have hprogram : program.WellFormed := by decide
  have hrotation : rotation.WellFormed := by decide
  have hrequest : request.resolve = .ok rotation := by rfl
  obtain ⟨hcalls, hrebuilt, hagain⟩ := replay_complete program rotation request
  exact ⟨⟨hprogram, by decide, by decide, hcalls hprogram (by decide) (by decide)⟩,
    ⟨hrotation, hrebuilt hrotation⟩, hrequest, hagain hrequest⟩

end Builder
end X86Listing
