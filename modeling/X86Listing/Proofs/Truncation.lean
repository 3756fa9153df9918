import X86Listing.Proofs.Accounting
import X86Listing.Proofs.Rejection

/-! Truncation by limits. The same calls are made on two new builders, one of which has limits that it
cannot reach. Both ask for the same items, and the limited one takes those of each kind until its limit,
so that it holds the first ones of what the other holds. Operand errors do not depend on limits. -/

namespace X86Listing

universe u

/-- What the item counts as. -/
def Item.resource : Item → Resource
  | .statement _ => .statements
  | .data _ => .dataMembers

theorem Item.isSome_statement? (item : Item) :
    item.statement?.isSome = true ↔ item.resource = .statements := by
  cases item <;> simp [statement?, resource]

theorem Item.isSome_member? (item : Item) :
    item.member?.isSome = true ↔ item.resource = .dataMembers := by
  cases item <;> simp [member?, resource]

/-- The most items that count as the resource. -/
def Limits.most (limits : Limits) : Resource → UInt64
  | .statements => limits.maxStatements
  | .dataMembers => limits.maxDataMembers

/-- How many of the items count as the resource. -/
def Resource.usedBy (resource : Resource) (items : List Item) : Nat :=
  items.countP fun item => item.resource = resource

theorem Resource.usedBy_append (resource : Resource) (items later : List Item) :
    resource.usedBy (items ++ later) = resource.usedBy items + resource.usedBy later :=
  List.countP_append

/-- Whether the call leaves the limits alone. -/
def Call.keepsLimits : Call → Bool
  | .emit _ | .setDefaultSize _ => true
  | .setLimits _ => false

/-- The default width after the call. -/
def Call.defaultSizeAfter (default : OperandSize) : Call → OperandSize
  | .setDefaultSize size => size
  | .emit _ | .setLimits _ => default

namespace Builder

/-! ### Room -/

section Room

variable {σ : Type u}

/-- How many items of the resource there is still room for. -/
def room (builder : Builder σ) : Resource → Nat
  | .statements => builder.limits.maxStatements.toNat - builder.statementCount.toNat
  | .dataMembers => builder.limits.maxDataMembers.toNat - builder.dataMemberCount.toNat

theorem hasRoom_iff {builder : Builder σ} {item : Item} :
    builder.HasRoom item ↔ 0 < builder.room item.resource := by
  cases item with
  | statement s =>
    change builder.statementCount < builder.limits.maxStatements ↔
      0 < builder.limits.maxStatements.toNat - builder.statementCount.toNat
    rw [UInt64.lt_iff_toNat_lt, Nat.sub_pos_iff_lt]
  | data member =>
    change builder.dataMemberCount < builder.limits.maxDataMembers ↔
      0 < builder.limits.maxDataMembers.toNat - builder.dataMemberCount.toNat
    rw [UInt64.lt_iff_toNat_lt, Nat.sub_pos_iff_lt]

theorem room_of_new {sink : σ} {limits : Limits} {defaultSize : OperandSize} (resource : Resource) :
    ({ sink, limits, defaultSize } : Builder σ).room resource = (limits.most resource).toNat := by
  cases resource <;> exact Nat.sub_zero _

theorem error_refusal (builder : Builder σ) (item : Item) :
    (builder.refusal item).error =
      some (.limit item.resource (builder.limits.most item.resource)) := by
  cases item <;> rfl

variable [Sink σ]

/-- Adding an item takes one place of its own resource, and none of the other. -/
theorem room_add {builder : Builder σ} {item : Item} (hroom : builder.HasRoom item)
    (resource : Resource) :
    resource.usedBy [item] + (builder.add item).room resource = builder.room resource := by
  cases item with
  | statement s =>
    cases resource with
    | statements =>
      have hcount := toNat_add_one_of_lt hroom
      have hlt := UInt64.lt_iff_toNat_lt.mp hroom
      change 1 + (builder.limits.maxStatements.toNat - (builder.statementCount + 1).toNat) =
        builder.limits.maxStatements.toNat - builder.statementCount.toNat
      omega
    | dataMembers => exact Nat.zero_add _
  | data member =>
    cases resource with
    | statements => exact Nat.zero_add _
    | dataMembers =>
      have hcount := toNat_add_one_of_lt hroom
      have hlt := UInt64.lt_iff_toNat_lt.mp hroom
      change 1 + (builder.limits.maxDataMembers.toNat - (builder.dataMemberCount + 1).toNat) =
        builder.limits.maxDataMembers.toNat - builder.dataMemberCount.toNat
      omega

theorem defaultSize_perform (builder : Builder σ) (call : Call) :
    (builder.perform call).1.defaultSize = call.defaultSizeAfter builder.defaultSize := by
  have hstep := builder.step_perform call
  generalize builder.added call = item?, builder.perform call = outcome at hstep ⊢
  cases hstep with
  | added hitem hroom => exact defaultSize_add builder _
  | _ => rfl

theorem limits_perform (builder : Builder σ) {call : Call} (hcall : call.keepsLimits = true) :
    (builder.perform call).1.limits = builder.limits := by
  have hstep := builder.step_perform call
  generalize builder.added call = item?, builder.perform call = outcome at hstep ⊢
  cases hstep with
  | setLimits limits => cases hcall
  | added hitem hroom => exact limits_add builder _
  | _ => rfl

theorem room_perform (builder : Builder σ) {call : Call} (hcall : call.keepsLimits = true)
    (resource : Resource) :
    resource.usedBy (builder.added call).toList + (builder.perform call).1.room resource =
      builder.room resource := by
  have hstep := builder.step_perform call
  generalize builder.added call = item?, builder.perform call = outcome at hstep ⊢
  cases hstep with
  | setLimits limits => cases hcall
  | setDefaultSize size => exact Nat.zero_add _
  | rejected hitem => exact Nat.zero_add _
  | dropped hitem hfull => exact Nat.zero_add _
  | added hitem hroom => exact room_add hroom resource

/-- What a run has used of a resource and what is left make up what there was. -/
theorem room_run (builder : Builder σ) {calls : List Call}
    (hcalls : ∀ call ∈ calls, call.keepsLimits = true) (resource : Resource) :
    resource.usedBy (builder.stream calls) + (builder.run calls).1.room resource =
      builder.room resource := by
  induction calls generalizing builder with
  | nil => exact Nat.zero_add _
  | cons call calls ih =>
    obtain ⟨hcall, hcalls⟩ := List.forall_mem_cons.mp hcalls
    rw [stream_cons, run_cons, Resource.usedBy_append, Nat.add_assoc, ih _ hcalls]
    exact builder.room_perform hcall resource

theorem limits_run (builder : Builder σ) {calls : List Call}
    (hcalls : ∀ call ∈ calls, call.keepsLimits = true) :
    (builder.run calls).1.limits = builder.limits := by
  induction calls generalizing builder with
  | nil => rfl
  | cons call calls ih =>
    obtain ⟨hcall, hcalls⟩ := List.forall_mem_cons.mp hcalls
    rw [run_cons, ih _ hcalls, limits_perform builder hcall]

end Room

/-! ### Two builders side by side -/

section Pair

variable {σ : Type u}

/-- Whether both builders have the same default width and the second has room for whatever the calls
add. -/
structure Trails (limited free : Builder σ) (calls : List Call) : Prop where
  defaultSize : limited.defaultSize = free.defaultSize
  room : ∀ resource : Resource, calls.length ≤ free.room resource

/-- New builders that differ in their limits, the second of which has a place for every call. -/
theorem trails_of_new {sink : σ} {limits ample : Limits} {defaultSize : OperandSize}
    {calls : List Call} (hample : ∀ resource : Resource, calls.length ≤ (ample.most resource).toNat) :
    Trails ({ sink, limits, defaultSize } : Builder σ) { sink, limits := ample, defaultSize } calls where
  defaultSize := rfl
  room resource := by
    rw [room_of_new]
    exact hample resource

theorem Trails.hasRoom {limited free : Builder σ} {call : Call} {calls : List Call}
    (h : Trails limited free (call :: calls)) (item : Item) : free.HasRoom item :=
  hasRoom_iff.mpr (Nat.lt_of_lt_of_le (Nat.succ_pos calls.length) (h.room item.resource))

/-- What a call adds and answers on the limited builder, and what on the other. -/
inductive Paired (limited : Builder σ) :
    Option Item → Option BuildError → Option Item → Option BuildError → Prop
  | setting : Paired limited none none none none
  | rejected {error : BuildError} (hoperand : error.isOperandError = true) :
      Paired limited none (some error) none (some error)
  | dropped {item : Item} (hfull : ¬limited.HasRoom item) :
      Paired limited none (some (.limit item.resource (limited.limits.most item.resource)))
        (some item) none
  | added {item : Item} (hroom : limited.HasRoom item) :
      Paired limited (some item) none (some item) none

variable {limited : Builder σ} {item? freeItem? : Option Item} {error? freeError? : Option BuildError}

theorem Paired.operandError_iff (h : Paired limited item? error? freeItem? freeError?)
    {error : BuildError} (herror : error.isOperandError = true) :
    error? = some error ↔ freeError? = some error := by
  cases h with
  | setting => exact Iff.rfl
  | rejected hoperand => exact Iff.rfl
  | added hroom => exact Iff.rfl
  | dropped hfull =>
    constructor
    · rintro ⟨⟩
      cases herror
    · nofun

theorem Paired.limitExceeded_iff (h : Paired limited item? error? freeItem? freeError?)
    (resource : String) (limit : UInt64) :
    error? = some (.limitExceeded resource limit) ↔
      freeError? = none ∧ ∃ item ∈ freeItem?, resource = item.resource.text ∧
        limit = limited.limits.most item.resource ∧ ¬limited.HasRoom item := by
  cases h with
  | setting =>
    constructor
    · nofun
    · rintro ⟨-, _, ⟨⟩, -⟩
  | rejected hoperand =>
    constructor
    · rintro ⟨⟩
      cases hoperand
    · rintro ⟨⟨⟩, -⟩
  | @dropped item hfull =>
    constructor
    · rintro ⟨⟩
      exact ⟨rfl, item, rfl, rfl, rfl, hfull⟩
    · rintro ⟨-, _, ⟨⟩, rfl, rfl, -⟩
      rfl
  | added hroom =>
    constructor
    · nofun
    · rintro ⟨-, _, ⟨⟩, -, -, hfull⟩
      exact absurd hroom hfull

theorem Paired.eq_of_passed (h : Paired limited item? error? freeItem? freeError?)
    (hpassed : error? = none) : freeError? = none ∧ item? = freeItem? := by
  cases h with
  | setting => exact ⟨rfl, rfl⟩
  | rejected hoperand => cases hpassed
  | dropped hfull => cases hpassed
  | added hroom => exact ⟨rfl, rfl⟩

variable [Sink σ]

theorem Trails.paired {limited free : Builder σ} {call : Call} {calls : List Call}
    (h : Trails limited free (call :: calls)) :
    Paired limited (limited.added call) (limited.perform call).2.error (free.added call)
      (free.perform call).2.error := by
  have hlimited := limited.step_perform call
  have hfree := free.step_perform call
  generalize limited.added call = item?, limited.perform call = outcome at hlimited ⊢
  generalize free.added call = freeItem?, free.perform call = freeOutcome at hfree ⊢
  -- both ask for the same item at the same default width, so few pairs of steps can meet
  cases hlimited with
  | setLimits limits =>
    cases hfree
    exact .setting
  | setDefaultSize size =>
    cases hfree
    exact .setting
  | rejected hitem =>
    have hoperand := Emission.isOperandError_of_item_error hitem
    rw [h.defaultSize] at hitem
    cases hfree with
    | rejected hfreeItem =>
      obtain rfl := Except.error.inj (hitem.symm.trans hfreeItem)
      exact .rejected hoperand
    | dropped hfreeItem hfull => cases hitem.symm.trans hfreeItem
    | added hfreeItem hroom => cases hitem.symm.trans hfreeItem
  | dropped hitem hfull =>
    rw [h.defaultSize] at hitem
    cases hfree with
    | rejected hfreeItem => cases hitem.symm.trans hfreeItem
    | dropped hfreeItem hfreeFull => exact absurd (h.hasRoom _) hfreeFull
    | added hfreeItem hfreeRoom =>
      obtain rfl := Except.ok.inj (hitem.symm.trans hfreeItem)
      rw [error_refusal]
      exact .dropped hfull
  | added hitem hroom =>
    rw [h.defaultSize] at hitem
    cases hfree with
    | rejected hfreeItem => cases hitem.symm.trans hfreeItem
    | dropped hfreeItem hfreeFull => exact absurd (h.hasRoom _) hfreeFull
    | added hfreeItem hfreeRoom =>
      obtain rfl := Except.ok.inj (hitem.symm.trans hfreeItem)
      exact .added hroom

theorem Trails.tail {limited free : Builder σ} {call : Call} {calls : List Call}
    (h : Trails limited free (call :: calls)) (hcall : call.keepsLimits = true) :
    Trails (limited.perform call).1 (free.perform call).1 calls where
  defaultSize := by rw [defaultSize_perform, defaultSize_perform, h.defaultSize]
  room resource := by
    have hplaces := free.room_perform hcall resource
    have hused : resource.usedBy (free.added call).toList ≤ 1 :=
      Nat.le_trans List.countP_le_length Option.length_toList_le
    have hroom : calls.length + 1 ≤ free.room resource := h.room resource
    omega

theorem Trails.run {limited free : Builder σ} {before after : List Call}
    (h : Trails limited free (before ++ after))
    (hbefore : ∀ call ∈ before, call.keepsLimits = true) :
    Trails (limited.run before).1 (free.run before).1 after := by
  induction before generalizing limited free with
  | nil => exact h
  | cons call before ih =>
    obtain ⟨hcall, hbefore⟩ := List.forall_mem_cons.mp hbefore
    exact ih (h.tail hcall) hbefore

theorem Resource.length_filterMap {α : Type} {select : Item → Option α} {resource : Resource}
    (hselect : ∀ item, (select item).isSome = true ↔ item.resource = resource) (items : List Item) :
    (items.filterMap select).length = resource.usedBy items := by
  rw [List.length_filterMap_eq_countP]
  exact List.countP_congr fun item _ => (hselect item).trans decide_eq_true_iff.symm

/-- Of the items of one resource, the limited builder takes the first that it has room for. The items
are seen through a selection of those of the resource. -/
theorem Trails.filterMap_stream {α : Type} {select : Item → Option α} {resource : Resource}
    (hselect : ∀ item, (select item).isSome = true ↔ item.resource = resource)
    {limited free : Builder σ} {calls : List Call} (h : Trails limited free calls)
    (hcalls : ∀ call ∈ calls, call.keepsLimits = true) :
    (limited.stream calls).filterMap select =
      ((free.stream calls).filterMap select).take (limited.room resource) := by
  induction calls generalizing limited free with
  | nil => exact List.take_nil.symm
  | cons call calls ih =>
    obtain ⟨hcall, hcalls⟩ := List.forall_mem_cons.mp hcalls
    have hplaces := limited.room_perform hcall resource
    have hpaired := h.paired
    rw [stream_cons, stream_cons, List.filterMap_append, List.filterMap_append,
      ih (h.tail hcall) hcalls, ← hplaces]
    generalize limited.added call = item?, free.added call = freeItem? at hplaces hpaired ⊢
    generalize (limited.perform call).2.error = error?, (free.perform call).2.error = freeError?
      at hpaired
    have hboth (items : List Item) (left : Nat) (later : List α) :
        items.filterMap select ++ later.take left =
          (items.filterMap select ++ later).take (resource.usedBy items + left) := by
      rw [← Resource.length_filterMap hselect, List.take_length_add_append]
    cases hpaired with
    | setting => exact hboth [] _ _
    | rejected hoperand => exact hboth [] _ _
    | added hroom => exact hboth [_] _ _
    | @dropped item hfull =>
      have hnothing : resource.usedBy (none : Option Item).toList = 0 := rfl
      cases hitem : select item with
      | none =>
        rw [Option.toList_some, List.filterMap_cons_none hitem]
        exact hboth [] _ _
      | some value =>
        -- the item is of the resource, of which there is nothing left
        have hresource := (hselect item).mp (Option.isSome_iff_exists.mpr ⟨value, hitem⟩)
        rw [hasRoom_iff, hresource] at hfull
        have hleft : (limited.perform call).1.room resource = 0 := by omega
        rw [hnothing, hleft]
        rfl

/-! ### What limits make of a call -/

/-- What limits make of a call, given the items that the limited builder has accepted before: nothing of
an operand error, a refusal once its resource is used up, and nothing of an item that there is room
for. -/
structure Truncates (limits : Limits) (accepted : List Item) (limited free : Builder σ)
    (call : Call) : Prop where
  operand : ∀ error : BuildError, error.isOperandError = true →
    ((limited.perform call).2.error = some error ↔ (free.perform call).2.error = some error)
  full : ∀ (resource : String) (limit : UInt64),
    (limited.perform call).2.error = some (.limitExceeded resource limit) ↔
      (free.perform call).2.error = none ∧ ∃ item ∈ free.added call,
        resource = item.resource.text ∧ limit = limits.most item.resource ∧
        item.resource.usedBy accepted = (limits.most item.resource).toNat
  passed : (limited.perform call).2.error = none →
    (free.perform call).2.error = none ∧ limited.added call = free.added call

theorem Trails.truncates {limits : Limits} {accepted : List Item} {limited free : Builder σ}
    {call : Call} {calls : List Call} (h : Trails limited free (call :: calls))
    (hlimits : limited.limits = limits)
    (haccepted : ∀ resource : Resource,
      resource.usedBy accepted + limited.room resource = (limits.most resource).toNat) :
    Truncates limits accepted limited free call where
  operand _ herror := h.paired.operandError_iff herror
  full resource limit := by
    have hfull (item : Item) : ¬limited.HasRoom item ↔
        item.resource.usedBy accepted = (limits.most item.resource).toNat := by
      have hplaces := haccepted item.resource
      rw [hasRoom_iff]
      omega
    rw [h.paired.limitExceeded_iff, hlimits]
    simp only [hfull]
  passed hpassed := h.paired.eq_of_passed hpassed

theorem stream_of_new {sink : σ} {limits ample : Limits} {defaultSize : OperandSize}
    {calls : List Call} (hcalls : ∀ call ∈ calls, call.keepsLimits = true)
    (hample : ∀ resource : Resource, calls.length ≤ (ample.most resource).toNat) :
    let limited : Builder σ := { sink, limits, defaultSize }
    let free : Builder σ := { sink, limits := ample, defaultSize }
    (limited.stream calls).filterMap Item.statement? =
        ((free.stream calls).filterMap Item.statement?).take limits.maxStatements.toNat ∧
      (limited.stream calls).filterMap Item.member? =
        ((free.stream calls).filterMap Item.member?).take limits.maxDataMembers.toNat :=
  ⟨(trails_of_new hample).filterMap_stream Item.isSome_statement? hcalls,
    (trails_of_new hample).filterMap_stream Item.isSome_member? hcalls⟩

end Pair

theorem program_of_new (limits : Limits) (defaultSize : OperandSize) (calls : List Call) :
    let start : Builder Program := { sink := .empty, limits, defaultSize }
    (start.run calls).1.sink.statements.toList =
        (start.stream calls).filterMap Item.statement? ∧
      (start.run calls).1.sink.dataMembers.toList =
        (start.stream calls).filterMap Item.member? := by
  intro start
  rw [sink_run]
  exact Program.empty.accept_append (start.stream calls)

/-- Limits only truncate. A new builder and one that has a place for every call take the same calls; the
first holds the first statements and the first data members of the other, up to its limits, and its
answer to each call is the other's, unless the limit of what the call adds is reached. -/
theorem truncated_by_limits {σ : Type u} [Sink σ] (sink : σ) (defaultSize : OperandSize)
    (limits ample : Limits) (calls : List Call)
    (hcalls : ∀ call ∈ calls, call.keepsLimits = true)
    (hample : ∀ resource : Resource, calls.length ≤ (ample.most resource).toNat) :
    let limited : Builder σ := { sink, limits, defaultSize }
    let free : Builder σ := { sink, limits := ample, defaultSize }
    let held (limits : Limits) : Program :=
      (({ sink := .empty, limits, defaultSize } : Builder Program).run calls).1.sink
    ((limited.stream calls).filterMap Item.statement? =
        ((free.stream calls).filterMap Item.statement?).take limits.maxStatements.toNat ∧
      (limited.stream calls).filterMap Item.member? =
        ((free.stream calls).filterMap Item.member?).take limits.maxDataMembers.toNat) ∧
    ((held limits).statements.toList =
        (held ample).statements.toList.take limits.maxStatements.toNat ∧
      (held limits).dataMembers.toList =
        (held ample).dataMembers.toList.take limits.maxDataMembers.toNat) ∧
    ∀ before call after, calls = before ++ call :: after →
      Truncates limits (limited.stream before) (limited.run before).1 (free.run before).1 call := by
  intro limited free held
  refine ⟨stream_of_new hcalls hample, ?_, ?_⟩
  · obtain ⟨hstatements, hmembers⟩ := program_of_new limits defaultSize calls
    obtain ⟨hallStatements, hallMembers⟩ := program_of_new ample defaultSize calls
    rw [hstatements, hmembers, hallStatements, hallMembers]
    exact stream_of_new hcalls hample
  · rintro before call after rfl
    have hbefore (earlier : Call) (h : earlier ∈ before) : earlier.keepsLimits = true :=
      hcalls earlier (List.mem_append_left _ h)
    refine ((trails_of_new hample).run hbefore).truncates (limits_run limited hbefore) fun resource => ?_
    rw [limited.room_run hbefore resource, room_of_new]

/-- Room for one item of each kind: a label is taken, an operand error comes all the same, and then an
increment and the second data member find no place. -/
theorem truncated_by_limits_of_one :
    let eax : Argument := .ofValue (.register (.lettered .a .dword))
    let before : List Call := [.emit (.label "start"), .setDefaultSize .word,
      .emit (.binary .mov eax (.ofValue (.register .dx)))]
    let increment : Call := .emit (.unary .inc eax)
    let after : List Call := [.emit (.scalar "count" 1), .emit (.string "text" "hello")]
    let calls := before ++ increment :: after
    let limited : Builder Program := { Builder.new with limits := ⟨1, 1⟩ }
    let free : Builder Program := { Builder.new with limits := ⟨6, 6⟩ }
    ((∀ call ∈ calls, call.keepsLimits = true) ∧
      ∀ resource : Resource, calls.length ≤ ((⟨6, 6⟩ : Limits).most resource).toNat) ∧
    (limited.stream calls).filterMap Item.statement? =
      ((free.stream calls).filterMap Item.statement?).take 1 ∧
    (limited.run calls).1.sink.dataMembers.toList =
      (free.run calls).1.sink.dataMembers.toList.take 1 ∧
    ((limited.run before).1.perform increment).2.error = some (.limitExceeded "statements" 1) := by
  intro eax before increment after calls limited free
  have hcalls : ∀ call ∈ calls, call.keepsLimits = true := by decide
  have hample (resource : Resource) : calls.length ≤ ((⟨6, 6⟩ : Limits).most resource).toNat := by
    cases resource <;> decide
  obtain ⟨⟨hstatements, -⟩, ⟨-, hmembers⟩, htruncates⟩ :=
    truncated_by_limits Program.empty .dword ⟨1, 1⟩ ⟨6, 6⟩ calls hcalls hample
  have hfree : ((free.run before).1.perform increment).2.error = none := by decide
  have hadded : (free.run before).1.added increment = some (.statement (.instruction
      ⟨.unary .inc, .direct (.register (.lettered .a .dword)), none, some .dword⟩)) := by decide
  have hused : Resource.statements.usedBy (limited.stream before) = 1 := by decide
  exact ⟨⟨hcalls, hample⟩, hstatements, hmembers,
    ((htruncates before increment after rfl).full "statements" 1).mpr
      ⟨hfree, _, hadded, rfl, rfl, hused⟩⟩

end Builder
end X86Listing
