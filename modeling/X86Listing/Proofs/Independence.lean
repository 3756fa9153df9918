import X86Listing.Proofs.Truncation

/-! Independence of statements and data members. A builder is made of two halves, each with its items,
their counter and their limit, and the default width goes with the statements. A call is about one half:
it reads nothing of the other and leaves it alone. So the half of a run is the run of the half, and calls
can be reordered as long as those about each half keep their order. -/

namespace X86Listing

universe u

/-- What the emission makes an item of. -/
def Emission.resource (emission : Emission) : Resource :=
  if emission.isDeclaration then .dataMembers else .statements

theorem Emission.resource_of_item {default : OperandSize} {emission : Emission} {item : Item}
    (h : emission.item default = .ok item) : item.resource = emission.resource := by
  unfold resource
  rw [isDeclaration_of_item h]
  cases item <;> rfl

/-- A declaration does not depend on the default width. -/
theorem Emission.item_of_dataMembers {emission : Emission} (h : emission.resource = .dataMembers)
    (default other : OperandSize) : emission.item default = emission.item other := by
  cases emission with
  | scalar | string | array => rfl
  | _ => cases h

/-- What the call is about: the default width is one of statements, and limits are not looked at. -/
def Call.resource : Call → Resource
  | .emit emission => emission.resource
  | .setDefaultSize _ | .setLimits _ => .statements

/-- The same calls in another order, in which those about each resource come as before. -/
def Call.Reordered (calls other : List Call) : Prop :=
  ∀ resource : Resource, calls.filter (·.resource = resource) = other.filter (·.resource = resource)

theorem Call.Reordered.mem {calls other : List Call} (h : Reordered calls other) {call : Call}
    (hcall : call ∈ other) : call ∈ calls := by
  have hfilter : call ∈ calls.filter (·.resource = call.resource) := by
    rw [h call.resource]
    exact List.mem_filter.mpr ⟨hcall, decide_eq_true rfl⟩
  exact (List.mem_filter.mp hfilter).1

namespace Builder

/-! ### Halves -/

/-- The builder with nothing but what calls about the resource read and write. -/
def half (builder : Builder Program) : Resource → Builder Program
  | .statements => { builder with
      sink := { builder.sink with dataMembers := #[] }
      limits := { builder.limits with maxDataMembers := 0 }
      dataMemberCount := 0 }
  | .dataMembers => { builder with
      sink := { builder.sink with statements := #[] }
      limits := { builder.limits with maxStatements := 0 }
      defaultSize := .dword
      statementCount := 0 }

theorem ext_half {builder other : Builder Program}
    (h : ∀ resource : Resource, builder.half resource = other.half resource) : builder = other := by
  have hstatements := h .statements
  have hmembers := h .dataMembers
  obtain ⟨⟨statements, dataMembers⟩, ⟨maxStatements, maxDataMembers⟩, defaultSize, statementCount,
    dataMemberCount⟩ := builder
  obtain ⟨⟨statements', dataMembers'⟩, ⟨maxStatements', maxDataMembers'⟩, defaultSize',
    statementCount', dataMemberCount'⟩ := other
  simp only [half, Builder.mk.injEq, Program.mk.injEq, Limits.mk.injEq, and_true, true_and]
    at hstatements hmembers
  obtain ⟨rfl, rfl, rfl, rfl⟩ := hstatements
  obtain ⟨rfl, rfl, rfl⟩ := hmembers
  rfl

theorem accept_half (builder : Builder Program) (item : Item) :
    (builder.half item.resource).accept item =
      ((builder.accept item).1.half item.resource, (builder.accept item).2) := by
  cases item with
  | statement s =>
    by_cases hfull : builder.limits.maxStatements ≤ builder.statementCount
    · simp only [accept, half, Item.resource, hfull, if_true]
    · simp only [accept, half, Item.resource, hfull, if_false]
      rfl
  | data member =>
    by_cases hfull : builder.limits.maxDataMembers ≤ builder.dataMemberCount
    · simp only [accept, half, Item.resource, hfull, if_true]
    · simp only [accept, half, Item.resource, hfull, if_false]
      rfl

theorem half_accept_of_ne (builder : Builder Program) {item : Item} {resource : Resource}
    (h : item.resource ≠ resource) : (builder.accept item).1.half resource = builder.half resource := by
  cases item with
  | statement s =>
    cases resource with
    | statements => exact absurd rfl h
    | dataMembers =>
      by_cases hfull : builder.limits.maxStatements ≤ builder.statementCount
      · simp only [accept, half, hfull, if_true]
      · simp only [accept, half, hfull, if_false]
        rfl
  | data member =>
    cases resource with
    | statements =>
      by_cases hfull : builder.limits.maxDataMembers ≤ builder.dataMemberCount
      · simp only [accept, half, hfull, if_true]
      · simp only [accept, half, hfull, if_false]
        rfl
    | dataMembers => exact absurd rfl h

/-! ### Calls on one half -/

theorem item_half (builder : Builder Program) (emission : Emission) :
    emission.item (builder.half emission.resource).defaultSize = emission.item builder.defaultSize := by
  cases hresource : emission.resource with
  | statements => rfl
  | dataMembers => exact Emission.item_of_dataMembers hresource _ _

/-- A call works on its half as on the whole builder. -/
theorem perform_half (builder : Builder Program) {call : Call} (hcall : call.keepsLimits = true) :
    (builder.half call.resource).perform call =
      ((builder.perform call).1.half call.resource, (builder.perform call).2) := by
  cases call with
  | setLimits limits => cases hcall
  | setDefaultSize size => rfl
  | emit emission =>
    change (builder.half emission.resource).emit emission =
      ((builder.emit emission).1.half emission.resource, (builder.emit emission).2)
    have hhalf := builder.item_half emission
    cases hitem : emission.item builder.defaultSize with
    | error error =>
      rw [emit_of_error hitem]
      rw [hitem] at hhalf
      exact emit_of_error hhalf
    | ok item =>
      rw [emit_of_ok hitem]
      rw [hitem] at hhalf
      rw [emit_of_ok hhalf, ← Emission.resource_of_item hitem]
      exact builder.accept_half item

/-- A call leaves the other half alone. -/
theorem half_perform_of_ne (builder : Builder Program) {call : Call} {resource : Resource}
    (hcall : call.keepsLimits = true) (h : call.resource ≠ resource) :
    (builder.perform call).1.half resource = builder.half resource := by
  cases call with
  | setLimits limits => cases hcall
  | setDefaultSize size =>
    cases resource with
    | statements => exact absurd rfl h
    | dataMembers => rfl
  | emit emission =>
    change (builder.emit emission).1.half resource = builder.half resource
    cases hitem : emission.item builder.defaultSize with
    | error error => rw [emit_of_error hitem]
    | ok item =>
      rw [emit_of_ok hitem]
      apply half_accept_of_ne
      rw [Emission.resource_of_item hitem]
      exact h

/-! ### Runs -/

/-- The calls about the resource, each with its reply. -/
def answered (resource : Resource) (calls : List Call) (replies : List Reply) : List (Call × Reply) :=
  (calls.zip replies).filter fun (call, _) => call.resource = resource

/-- The half of a run is the run of the half on the calls about it. -/
theorem run_half (builder : Builder Program) {calls : List Call}
    (hcalls : ∀ call ∈ calls, call.keepsLimits = true) (resource : Resource) :
    let about := calls.filter (·.resource = resource)
    ((builder.half resource).run about).1 = (builder.run calls).1.half resource ∧
      about.zip ((builder.half resource).run about).2 =
        answered resource calls (builder.run calls).2 := by
  induction calls generalizing builder with
  | nil => exact ⟨rfl, rfl⟩
  | cons call calls ih =>
    obtain ⟨hcall, hcalls⟩ := List.forall_mem_cons.mp hcalls
    obtain ⟨hlater, hanswers⟩ := ih (builder.perform call).1 hcalls
    intro about
    by_cases hresource : call.resource = resource
    · subst hresource
      have habout : about = call :: calls.filter (·.resource = call.resource) :=
        List.filter_cons_of_pos (by simp)
      rw [habout, run_cons, run_cons, perform_half builder hcall]
      refine ⟨hlater, ?_⟩
      rw [List.zip_cons_cons, hanswers]
      exact (List.filter_cons_of_pos (by simp)).symm
    · have habout : about = calls.filter (·.resource = resource) :=
        List.filter_cons_of_neg (by simpa using hresource)
      rw [habout, run_cons, ← half_perform_of_ne builder hcall hresource]
      refine ⟨hlater, hanswers.trans ?_⟩
      exact (List.filter_cons_of_neg (by simpa using hresource)).symm

/-- Calls that keep the limits, in any order that leaves those about each resource in theirs: every one
has the same reply, and in the end program, counters and settings are the same. -/
theorem run_reordered {π : Type u} [ProgramSink π] (builder : Builder π) {calls other : List Call}
    (hcalls : ∀ call ∈ calls, call.keepsLimits = true) (h : Call.Reordered calls other) :
    (builder.run calls).1.mapSink ProgramSink.program =
        (builder.run other).1.mapSink ProgramSink.program ∧
      ∀ resource : Resource, answered resource calls (builder.run calls).2 =
        answered resource other (builder.run other).2 := by
  have hother (call : Call) (hcall : call ∈ other) : call.keepsLimits = true :=
    hcalls call (h.mem hcall)
  -- seen through the program, both runs are those of the builder that fills it itself
  have hcallsView := run_mapSink ProgramSink.preserves builder calls
  have hotherView := run_mapSink ProgramSink.preserves builder other
  generalize builder.mapSink ProgramSink.program = seen at hcallsView hotherView
  have hhalves (resource : Resource) := And.intro (seen.run_half hcalls resource)
    (seen.run_half hother resource)
  simp only [hcallsView, hotherView, h _] at hhalves
  refine ⟨ext_half fun resource => ?_, fun resource => ?_⟩
  · obtain ⟨⟨hfirst, -⟩, hsecond, -⟩ := hhalves resource
    exact hfirst.symm.trans hsecond
  · obtain ⟨⟨-, hfirst⟩, -, hsecond⟩ := hhalves resource
    exact hfirst.symm.trans hsecond

/-- Both limits are one, and each is reached in another place: the second data member comes first, a
default width follows a declaration, and the increment that finds no room does so in either order. -/
theorem run_reordered_at_limits :
    let eax : Argument := .ofValue (.register (.lettered .a .dword))
    let first : Call := .emit (.string "text" "hello")
    let second : Call := .emit (.scalar "count" 1)
    let push : Call := .emit (.unary .push (.ofValue (.immediate 5)))
    let increment : Call := .emit (.unary .inc eax)
    let calls : List Call := [.setDefaultSize .word, push, increment, first, second]
    let other : List Call := [first, second, .setDefaultSize .word, push, increment]
    let builder : Builder Program := { Builder.new with limits := ⟨1, 1⟩ }
    ((∀ call ∈ calls, call.keepsLimits = true) ∧ Call.Reordered calls other) ∧
    (builder.run calls).1 = (builder.run other).1 ∧
    answered .statements calls (builder.run calls).2 =
      answered .statements other (builder.run other).2 ∧
    (builder.run other).2.map Reply.error =
      [none, some (.limitExceeded "data members" 1), none, none,
        some (.limitExceeded "statements" 1)] := by
  intro eax first second push increment calls other builder
  have hcalls : ∀ call ∈ calls, call.keepsLimits = true := by decide
  have hreordered : Call.Reordered calls other := by
    intro resource
    cases resource <;> decide
  obtain ⟨hbuilder, hanswers⟩ := run_reordered builder hcalls hreordered
  exact ⟨⟨hcalls, hreordered⟩, hbuilder, hanswers .statements, by decide⟩

end Builder
end X86Listing
