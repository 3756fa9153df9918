import X86Listing.Builder

/-! What one call does to a builder, and what the calls of a run add. A call changes a setting, or adds
one item and counts it, or fails and changes nothing. `Step` lists these cases, each with the item that is
added; the stream of a run is the items of its steps. -/

namespace X86Listing

universe u

namespace Builder

variable {σ : Type u}

/-- Whether the limit of the item's kind is not reached yet. -/
def HasRoom (builder : Builder σ) : Item → Prop
  | .statement _ => builder.statementCount < builder.limits.maxStatements
  | .data _ => builder.dataMemberCount < builder.limits.maxDataMembers

instance (builder : Builder σ) : DecidablePred builder.HasRoom
  | .statement _ =>
    inferInstanceAs (Decidable (builder.statementCount < builder.limits.maxStatements))
  | .data _ => inferInstanceAs (Decidable (builder.dataMemberCount < builder.limits.maxDataMembers))

/-- The record of an item that is added. -/
def record (builder : Builder σ) : Item → LogRecord
  | .statement s => .appended builder.statementCount s
  | .data member => .declared member

/-- The answer to an item that there is no room for. -/
def refusal (builder : Builder σ) : Item → Reply
  | .statement s => {
      error := some (.limit .statements builder.limits.maxStatements)
      log := [.statementDropped builder.limits.maxStatements s] }
  | .data member => {
      error := some (.limit .dataMembers builder.limits.maxDataMembers)
      log := [.memberDropped builder.limits.maxDataMembers member] }

theorem error_refusal_ne_none (builder : Builder σ) (item : Item) :
    (builder.refusal item).error ≠ none := by
  cases item <;> exact nofun

variable [Sink σ]

/-- Hands an item to the sink and counts it. -/
def add (builder : Builder σ) : Item → Builder σ
  | .statement s => { builder with
      sink := Sink.append builder.sink s
      statementCount := builder.statementCount + 1 }
  | .data member => { builder with
      sink := Sink.defineData builder.sink member
      dataMemberCount := builder.dataMemberCount + 1 }

@[simp] theorem sink_add (builder : Builder σ) (item : Item) :
    (builder.add item).sink = Sink.accept builder.sink item := by
  cases item <;> rfl

@[simp] theorem limits_add (builder : Builder σ) (item : Item) :
    (builder.add item).limits = builder.limits := by
  cases item <;> rfl

@[simp] theorem defaultSize_add (builder : Builder σ) (item : Item) :
    (builder.add item).defaultSize = builder.defaultSize := by
  cases item <;> rfl

theorem accept_of_hasRoom {builder : Builder σ} {item : Item} (hroom : builder.HasRoom item) :
    builder.accept item = (builder.add item, { log := [builder.record item] }) := by
  cases item with
  | statement s => exact if_neg (UInt64.not_le.mpr hroom)
  | data member => exact if_neg (UInt64.not_le.mpr hroom)

theorem accept_of_not_hasRoom {builder : Builder σ} {item : Item}
    (hfull : ¬builder.HasRoom item) : builder.accept item = (builder, builder.refusal item) := by
  cases item with
  | statement s => exact if_pos (UInt64.not_lt.mp hfull)
  | data member => exact if_pos (UInt64.not_lt.mp hfull)

theorem emit_of_error {builder : Builder σ} {emission : Emission} {error : BuildError}
    (hitem : emission.item builder.defaultSize = .error error) :
    builder.emit emission = (builder, { error := some error, log := [.rejected error] }) := by
  unfold emit
  rw [hitem]

theorem emit_of_ok {builder : Builder σ} {emission : Emission} {item : Item}
    (hitem : emission.item builder.defaultSize = .ok item) :
    builder.emit emission = builder.accept item := by
  unfold emit
  rw [hitem]

theorem perform_congr_item {builder : Builder σ} {emission other : Emission}
    (h : emission.item builder.defaultSize = other.item builder.defaultSize) :
    builder.perform (.emit emission) = builder.perform (.emit other) := by
  change builder.emit emission = builder.emit other
  unfold emit
  rw [h]

/-! ### One call -/

/-- The item that a call adds: what an emission asks for, if it succeeds. -/
def added (builder : Builder σ) : Call → Option Item
  | .emit emission =>
    match emission.item builder.defaultSize, (builder.emit emission).2.error with
    | .ok item, none => some item
    | _, _ => none
  | .setLimits _ | .setDefaultSize _ => none

/-- What a call can add, do and answer. -/
inductive Step (builder : Builder σ) : Call → Option Item → Builder σ × Reply → Prop
  | setLimits (limits : Limits) : Step builder (.setLimits limits) none ({ builder with limits }, {})
  | setDefaultSize (size : OperandSize) :
      Step builder (.setDefaultSize size) none ({ builder with defaultSize := size }, {})
  /-- An operand error. -/
  | rejected {emission : Emission} {error : BuildError}
      (hitem : emission.item builder.defaultSize = .error error) :
      Step builder (.emit emission) none (builder, { error := some error, log := [.rejected error] })
  /-- A reached limit. -/
  | dropped {emission : Emission} {item : Item}
      (hitem : emission.item builder.defaultSize = .ok item) (hfull : ¬builder.HasRoom item) :
      Step builder (.emit emission) none (builder, builder.refusal item)
  | added {emission : Emission} {item : Item}
      (hitem : emission.item builder.defaultSize = .ok item) (hroom : builder.HasRoom item) :
      Step builder (.emit emission) (some item)
        (builder.add item, { log := [builder.record item] })

theorem step_perform (builder : Builder σ) (call : Call) :
    Step builder call (builder.added call) (builder.perform call) := by
  cases call with
  | setLimits limits => exact .setLimits limits
  | setDefaultSize size => exact .setDefaultSize size
  | emit emission =>
    change Step builder (.emit emission) (builder.added (.emit emission)) (builder.emit emission)
    cases hitem : emission.item builder.defaultSize with
    | error error =>
      simp only [added, hitem, emit_of_error hitem]
      exact .rejected hitem
    | ok item =>
      by_cases hroom : builder.HasRoom item
      · simp only [added, hitem, emit_of_ok hitem, accept_of_hasRoom hroom]
        exact .added hitem hroom
      · simp only [added, hitem, emit_of_ok hitem, accept_of_not_hasRoom hroom]
        -- the item is asked for all the same, and only the reply says that it was not taken
        cases herror : (builder.refusal item).error with
        | none => exact absurd herror (builder.error_refusal_ne_none item)
        | some error => exact .dropped hitem hroom

theorem item_of_added {builder : Builder σ} {call : Call} {item : Item}
    (h : item ∈ builder.added call) :
    ∃ emission, call = .emit emission ∧ emission.item builder.defaultSize = .ok item := by
  have hstep := builder.step_perform call
  rw [Option.mem_def.mp h] at hstep
  generalize builder.perform call = outcome at hstep
  cases hstep with
  | added hitem hroom => exact ⟨_, rfl, hitem⟩

/-- A call that fails leaves the builder as it was. -/
theorem perform_of_error (builder : Builder σ) (call : Call)
    (h : (builder.perform call).2.error ≠ none) : (builder.perform call).1 = builder := by
  have hstep := builder.step_perform call
  generalize builder.added call = item?, builder.perform call = outcome at hstep h ⊢
  cases hstep with
  | setLimits limits => exact absurd rfl h
  | setDefaultSize size => exact absurd rfl h
  | rejected hitem => rfl
  | dropped hitem hfull => rfl
  | added hitem hroom => exact absurd rfl h

/-- A successful emission adds the item that it asks for, and there was room for it. -/
theorem perform_of_success {builder : Builder σ} {emission : Emission}
    (h : (builder.perform (.emit emission)).2.error = none) :
    ∃ item, emission.item builder.defaultSize = .ok item ∧ builder.HasRoom item ∧
      (builder.perform (.emit emission)).1 = builder.add item := by
  have hstep := builder.step_perform (.emit emission)
  generalize builder.added (.emit emission) = item?, builder.perform (.emit emission) = outcome
    at hstep h ⊢
  cases hstep with
  | rejected hitem => cases h
  | dropped hitem hfull => exact absurd h (builder.error_refusal_ne_none _)
  | added hitem hroom => exact ⟨_, hitem, hroom, rfl⟩

/-- A call hands the item that it adds to the sink, and nothing else. -/
theorem sink_perform (builder : Builder σ) (call : Call) :
    (builder.perform call).1.sink = (builder.added call).toList.foldl Sink.accept builder.sink := by
  have hstep := builder.step_perform call
  generalize builder.added call = item?, builder.perform call = outcome at hstep ⊢
  cases hstep with
  | setLimits limits => rfl
  | setDefaultSize size => rfl
  | rejected hitem => rfl
  | dropped hitem hfull => rfl
  | added hitem hroom => exact sink_add builder _

/-! ### Runs -/

@[simp] theorem run_nil (builder : Builder σ) : builder.run [] = (builder, []) := rfl

theorem run_cons (builder : Builder σ) (call : Call) (calls : List Call) :
    builder.run (call :: calls) =
      (((builder.perform call).1.run calls).1,
        (builder.perform call).2 :: ((builder.perform call).1.run calls).2) := rfl

/-- The items that a run adds, in the order of the calls. -/
def stream (builder : Builder σ) : List Call → List Item
  | [] => []
  | call :: calls => (builder.added call).toList ++ (builder.perform call).1.stream calls

theorem stream_cons (builder : Builder σ) (call : Call) (calls : List Call) :
    builder.stream (call :: calls) =
      (builder.added call).toList ++ (builder.perform call).1.stream calls := rfl

/-- A run hands its stream to the sink, item by item, and nothing else. -/
theorem sink_run (builder : Builder σ) (calls : List Call) :
    (builder.run calls).1.sink = (builder.stream calls).foldl Sink.accept builder.sink := by
  induction calls generalizing builder with
  | nil => rfl
  | cons call calls ih =>
    rw [run_cons, stream_cons, List.foldl_append, ← sink_perform]
    exact ih _

/-- Every item of a stream was added by one of the calls, in some state of the builder. -/
theorem exists_added_of_mem_stream {builder : Builder σ} {calls : List Call} {item : Item}
    (h : item ∈ builder.stream calls) :
    ∃ call ∈ calls, ∃ state : Builder σ, item ∈ state.added call := by
  induction calls generalizing builder with
  | nil => cases h
  | cons call calls ih =>
    rw [stream_cons, List.mem_append, Option.mem_toList] at h
    rcases h with h | h
    · exact ⟨call, List.mem_cons_self, builder, h⟩
    · obtain ⟨later, hlater, hadded⟩ := ih h
      exact ⟨later, List.mem_cons_of_mem call hlater, hadded⟩

/-- What holds of every item that some call can add holds of the whole stream. -/
theorem stream_induction {p : Item → Prop}
    (hadded : ∀ (builder : Builder σ) (call : Call), ∀ item ∈ builder.added call, p item)
    (builder : Builder σ) (calls : List Call) : ∀ item ∈ builder.stream calls, p item := by
  intro item hitem
  obtain ⟨call, -, state, hstate⟩ := exists_added_of_mem_stream hitem
  exact hadded state call item hstate

end Builder
end X86Listing
