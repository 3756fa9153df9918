import X86Listing.Proofs.Rules

/-! Requests with the same operands. Of its arguments a request reads the operands alone, so that two that
agree in these, in the width and in the width check resolve alike. A request that asks for less than another
breaks no rule that the other passes: what skipping the width check or giving a width can change is that one
fault, and the width of the instruction. -/

namespace X86Listing

namespace Argument

variable {argument other : Argument}

/-- Two arguments stand for the same operand exactly if they name one value, accessed alike, at one
displacement, where none counts as zero. -/
theorem normalize_eq_iff :
    argument.normalize = other.normalize ↔
      argument.value = other.value ∧ argument.isIndirect = other.isIndirect ∧
        argument.offset.getD 0 = other.offset.getD 0 := by
  obtain ⟨value, marked, offset, sizeHint⟩ := argument
  obtain ⟨value', marked', offset', sizeHint'⟩ := other
  cases offset <;> cases marked <;> cases offset' <;> cases marked' <;>
    simp [normalize, isIndirect, Operand.direct, Operand.indirect]

theorem normalize_withHint (argument : Argument) (hint : Option OperandSize) :
    { argument with sizeHint := hint }.normalize = argument.normalize :=
  normalize_eq_iff.mpr ⟨rfl, rfl, rfl⟩

/-- The ways to write the memory at a value itself. -/
def atValue (value : Value) : List Argument :=
  [mem value 0, deref value, (deref value).displacement 0]

theorem normalize_of_mem_atValue {value : Value} (h : argument ∈ atValue value) :
    argument.normalize = .indirect value 0 := by
  simp only [atValue, List.mem_cons, List.not_mem_nil, or_false] at h
  rcases h with rfl | rfl | rfl <;> rfl

end Argument

namespace Request

variable {request other strict : Request} {rule : Rule} {error : BuildError}

/-! ### One set of operands -/

theorem Breaks.check_eq_enforce (h : request.Breaks .widths error) : request.check = .enforce := by
  cases h with
  | widths hform hsized hcheck => exact hcheck

theorem Breaks.size_eq_none (h : request.Breaks .size error) : request.size = none := by
  cases h with
  | size hform hsized hsize => exact hsize

/-- Rules are about the operands; but for the width check and the width, nothing else of a request has a
part in them. -/
theorem Breaks.of_draft_eq (h : request.Breaks rule error) (hdraft : request.draft = other.draft)
    (hcheck : rule = .widths → other.check = .enforce) (hsize : rule = .size → other.size = none) :
    other.Breaks rule error := by
  have hkind : request.kind = other.kind := congrArg Instruction.kind hdraft
  cases h with
  | form hform =>
    rw [hkind] at hform ⊢
    exact .form hform
  | missingSource hform hneeded hsource =>
    rw [hdraft] at hsource
    rw [hkind] at hform ⊢
    exact .missingSource hform hneeded hsource
  | unexpectedSource hform hneeded hsource =>
    rw [hdraft] at hsource
    rw [hkind] at hform ⊢
    exact .unexpectedSource hform hneeded hsource
  | indirectCount hshift hsource hindirect =>
    rw [hdraft] at hsource
    rw [hkind] at hshift ⊢
    exact .indirectCount hshift hsource hindirect
  | countRegister hshift hsource hcl =>
    rw [hdraft] at hsource
    rw [hkind] at hshift ⊢
    exact .countRegister hshift hsource hcl
  | symbolicCount hshift hsource =>
    rw [hdraft] at hsource
    rw [hkind] at hshift ⊢
    exact .symbolicCount hshift hsource
  | memory hsource hdestination hindirect =>
    rw [hdraft] at hsource hdestination
    rw [hkind]
    exact .memory hsource hdestination hindirect
  | widths hform hsized _ hcl hdestination hsource hne =>
    rw [ShiftsByCl, hdraft, hkind] at hcl
    rw [hdraft] at hdestination hsource
    rw [hkind] at hform ⊢
    exact .widths hform hsized (hcheck rfl) hcl hdestination hsource hne
  | size hform hsized _ hoperands =>
    rw [hdraft] at hoperands
    rw [hkind] at hform ⊢
    exact .size hform hsized (hsize rfl) hoperands

theorem width_eq (request : Request) :
    request.width =
      if request.kind.form?.any Form.isSized then request.size.or request.inferredSize else none := by
  unfold width
  cases request.kind.form? <;> rfl

theorem width_congr (hdraft : request.draft = other.draft) (hsize : request.size = other.size) :
    request.width = other.width := by
  have hkind : request.kind = other.kind := congrArg Instruction.kind hdraft
  rw [width_eq, width_eq, inferredSize, inferredSize, hkind, hdraft, hsize]

theorem resolve_of_passes (h : ∀ rule, request.Passes rule) :
    request.resolve = .ok { request.draft with size := request.width } := by
  cases hresolve : request.resolve with
  | ok instruction => rw [(passes_of_resolve hresolve).2]
  | error error =>
    obtain ⟨rule, hfirst⟩ := breaksFirst_of_resolve hresolve
    exact absurd hfirst.breaks (h rule error)

/-! ### Asking for less -/

/-- Whether a request has the operands of a stricter one and asks for no more: it compares widths only if
the other does, and leaves its own width open only if the other does. -/
structure Relaxes (request strict : Request) : Prop where
  draft : request.draft = strict.draft
  check : request.check = .enforce → strict.check = .enforce
  size : request.size = none → strict.size = none

theorem Relaxes.passes (h : request.Relaxes strict) (hstrict : strict.Passes rule) :
    request.Passes rule := by
  intro error hbreaks
  refine hstrict error (hbreaks.of_draft_eq h.draft ?_ ?_)
  · rintro rfl
    exact h.check hbreaks.check_eq_enforce
  · rintro rfl
    exact h.size hbreaks.size_eq_none

/-- What a stricter request resolves to, a relaxed one does too, up to its width. -/
theorem Relaxes.resolve_eq_ok {instruction : Instruction} (h : request.Relaxes strict)
    (hstrict : strict.resolve = .ok instruction) :
    request.resolve = .ok { instruction with size := request.width } := by
  obtain ⟨hpasses, rfl⟩ := passes_of_resolve hstrict
  rw [resolve_of_passes fun rule => h.passes (hpasses rule), h.draft]

/-- The fault of a stricter request stays, unless it is one that the relaxed request does not look for. -/
theorem Relaxes.resolve_eq_error (h : request.Relaxes strict) (hfirst : strict.BreaksFirst rule error)
    (hcheck : rule = .widths → request.check = .enforce) (hsize : rule = .size → request.size = none) :
    request.resolve = .error error := by
  have hrequest : request.BreaksFirst rule error := {
    breaks := hfirst.breaks.of_draft_eq h.draft.symm hcheck hsize
    earlier := fun earlier hearlier => h.passes (hfirst.earlier earlier hearlier) }
  exact hrequest.resolve

/-- A relaxed request that passes the rule of the fault, and all later ones, has no fault. -/
theorem Relaxes.resolve_of_breaksFirst (h : request.Relaxes strict)
    (hfirst : strict.BreaksFirst rule error)
    (hlater : ∀ later : Rule, rule.place ≤ later.place → request.Passes later) :
    request.resolve = .ok { request.draft with size := request.width } := by
  apply resolve_of_passes
  intro other
  by_cases hplace : other.place < rule.place
  · exact h.passes (hfirst.earlier other hplace)
  · exact hlater other (Nat.le_of_not_lt hplace)

/-- Of two requests with one width, the relaxed one resolves like the stricter, unless that fails a width
check which it alone makes. -/
theorem Relaxes.resolve_eq (h : request.Relaxes strict) (hsize : request.size = strict.size)
    (hcheck : ∀ error, strict.BreaksFirst .widths error → request.check = .enforce) :
    request.resolve = strict.resolve := by
  cases hstrict : strict.resolve with
  | ok instruction =>
    obtain ⟨-, hinstruction⟩ := passes_of_resolve hstrict
    rw [h.resolve_eq_ok hstrict, width_congr h.draft hsize, hinstruction]
  | error error =>
    obtain ⟨rule, hfirst⟩ := breaksFirst_of_resolve hstrict
    apply h.resolve_eq_error hfirst
    · rintro rfl
      exact hcheck error hfirst
    · rintro rfl
      exact hsize.trans hfirst.breaks.size_eq_none

/-- Requests with the same operands, width and width check resolve alike. -/
theorem resolve_congr (hdraft : request.draft = other.draft) (hsize : request.size = other.size)
    (hcheck : request.check = other.check) : request.resolve = other.resolve := by
  have hrelaxes : request.Relaxes other := ⟨hdraft, hcheck.symm.trans, hsize.symm.trans⟩
  apply hrelaxes.resolve_eq hsize
  intro error hfirst
  exact hcheck.trans hfirst.breaks.check_eq_enforce

theorem draft_congr (hkind : request.kind = other.kind)
    (hdestination : request.destination.normalize = other.destination.normalize)
    (hsource : request.source.map Argument.normalize = other.source.map Argument.normalize) :
    request.draft = other.draft := by
  unfold draft
  rw [hkind, hdestination, hsource]

/-- A request is resolved on its normalized operands alone. Two requests of one kind, width and width check
whose arguments stand for the same operands resolve alike, to the same instruction or the same error. In
either slot, and for a shift count too, no hint and no choice among the ways to write a plain access to
memory makes a difference. -/
theorem resolve_factors_through_normalize (request other : Request)
    (hkind : request.kind = other.kind) (hsize : request.size = other.size)
    (hcheck : request.check = other.check)
    (hdestination : request.destination.normalize = other.destination.normalize)
    (hsource : request.source.map Argument.normalize = other.source.map Argument.normalize) :
    request.resolve = other.resolve ∧
    (∀ (argument : Argument) (hint : Option OperandSize),
      let hinted := { argument with sizeHint := hint }
      { request with destination := hinted }.resolve =
          { other with destination := argument }.resolve ∧
        { request with source := some hinted }.resolve =
          { other with source := some argument }.resolve) ∧
    ∀ (value : Value), ∀ spelled ∈ Argument.atValue value, ∀ respelled ∈ Argument.atValue value,
      { request with destination := spelled }.resolve =
          { other with destination := respelled }.resolve ∧
        { request with source := some spelled }.resolve =
          { other with source := some respelled }.resolve := by
  have hslots {spelled respelled : Argument} (h : spelled.normalize = respelled.normalize) :
      { request with destination := spelled }.resolve =
          { other with destination := respelled }.resolve ∧
        { request with source := some spelled }.resolve =
          { other with source := some respelled }.resolve :=
    ⟨resolve_congr (draft_congr hkind h hsource) hsize hcheck,
      resolve_congr (draft_congr hkind hdestination (congrArg some h)) hsize hcheck⟩
  refine ⟨resolve_congr (draft_congr hkind hdestination hsource) hsize hcheck, ?_, ?_⟩
  · intro argument hint
    exact hslots (argument.normalize_withHint hint)
  · intro value spelled hspelled respelled hrespelled
    have hnormal := Argument.normalize_of_mem_atValue hspelled
    exact hslots (hnormal.trans (Argument.normalize_of_mem_atValue hrespelled).symm)

/-- A shift of memory at a register, with and without a hint; the count in memory is refused however it is
written. -/
theorem resolve_factors_of_hint :
    let cell : Value := .register (.pointer .bp .dword)
    let one : Argument := .ofValue (.immediate 1)
    let request : Request := { kind := .shift .shl, destination := .mem cell 0, source := some one }
    let other : Request := {
      kind := .shift .shl, destination := (Argument.deref cell).sized .byte, source := some one }
    request.kind = other.kind ∧ request.size = other.size ∧ request.check = other.check ∧
    request.destination.normalize = other.destination.normalize ∧
    request.source.map Argument.normalize = other.source.map Argument.normalize ∧
    request.resolve = other.resolve ∧
    other.resolve = .error (.missingSize (.shift .shl)) ∧
    { request with source := some (.mem (.register .cl) 0) }.resolve =
      { other with source := some (.deref (.register .cl)) }.resolve := by
  intro cell one request other
  obtain ⟨hsame, -, hmemory⟩ := resolve_factors_through_normalize request other rfl rfl rfl rfl rfl
  have hspelled : Argument.mem (.register .cl) 0 ∈ Argument.atValue (.register .cl) := by decide
  have hrespelled : Argument.deref (.register .cl) ∈ Argument.atValue (.register .cl) := by decide
  exact ⟨rfl, rfl, rfl, rfl, rfl, hsame, rfl, (hmemory _ _ hspelled _ hrespelled).2⟩

/-! ### The width check and the width -/

theorem Breaks.rule_of_sizeMismatch {kind : Mnemonic} {d s : Register}
    (h : request.Breaks rule (.sizeMismatch kind d s)) : rule = .widths := by
  cases h with
  | widths => rfl

theorem Breaks.rule_of_missingSize {kind : Mnemonic} (h : request.Breaks rule (.missingSize kind)) :
    rule = .size := by
  cases h with
  | size => rfl

theorem Breaks.exists_sizeMismatch (h : request.Breaks .widths error) :
    ∃ d s, error = .sizeMismatch request.kind d s ∧
      request.draft.destination = .direct (.register d) := by
  cases h with
  | widths hform hsized hcheck hcl hdestination => exact ⟨_, _, rfl, hdestination⟩

theorem Breaks.eq_missingSize (h : request.Breaks .size error) : error = .missingSize request.kind := by
  cases h with
  | size => rfl

/-- Only a request for a kind with a width can be refused for one. -/
theorem Breaks.isSized (h : request.Breaks rule error) (hrule : rule = .widths ∨ rule = .size) :
    request.kind.form?.any Form.isSized = true := by
  cases h with
  | widths hform hsized | size hform hsized =>
    rw [hform]
    exact hsized
  | _ => rcases hrule with ⟨⟨⟩⟩ | ⟨⟨⟩⟩

theorem inferredSize_of_destination {d : Register}
    (h : request.draft.destination = .direct (.register d)) : request.inferredSize = some d.size := by
  unfold inferredSize
  rw [h]
  rfl

/-- A direct destination register leaves no width open. -/
theorem passes_size_of_destination {d : Register}
    (h : request.draft.destination = .direct (.register d)) : request.Passes .size := by
  intro error hbreaks
  cases hbreaks with
  | size hform hsized hsize hoperands =>
    rw [h] at hoperands
    rcases hoperands with ⟨⟨⟩⟩ | ⟨⟨⟩, -⟩

/-- Where only the width check failed, a request without it takes its own width, or the destination's. -/
theorem Relaxes.resolve_of_sizeMismatch {kind : Mnemonic} {d s : Register} (h : request.Relaxes strict)
    (hskip : request.check = .skip) (hstrict : strict.resolve = .error (.sizeMismatch kind d s)) :
    request.draft.destination = .direct (.register d) ∧
      request.resolve = .ok { request.draft with size := some (request.size.getD d.size) } := by
  obtain ⟨rule, hfirst⟩ := breaksFirst_of_resolve hstrict
  obtain rfl := hfirst.breaks.rule_of_sizeMismatch
  obtain ⟨d', s', hsame, hdestination⟩ := hfirst.breaks.exists_sizeMismatch
  cases hsame
  rw [← h.draft] at hdestination
  have hkind : request.kind = strict.kind := congrArg Instruction.kind h.draft
  have hsized : request.kind.form?.any Form.isSized = true := by
    rw [hkind]
    exact hfirst.breaks.isSized (Or.inl rfl)
  have hwidth : request.width = some (request.size.getD d.size) := by
    rw [width_eq, if_pos hsized, inferredSize_of_destination hdestination]
    cases request.size <;> rfl
  refine ⟨hdestination, ?_⟩
  rw [h.resolve_of_breaksFirst hfirst, hwidth]
  -- after the width check stands only the width, which the destination register gives
  intro later hlater
  cases later with
  | widths =>
    intro error hbreaks
    cases hskip.symm.trans hbreaks.check_eq_enforce
  | size => exact passes_size_of_destination hdestination
  | form | slots | count | memory => exact absurd hlater (by decide)

/-- Where only a width was missing, a request with one is accepted. -/
theorem Relaxes.resolve_of_missingSize {kind : Mnemonic} {size : OperandSize}
    (h : request.Relaxes strict) (hsize : request.size = some size)
    (hstrict : strict.resolve = .error (.missingSize kind)) :
    request.resolve = .ok { request.draft with size := some size } := by
  obtain ⟨rule, hfirst⟩ := breaksFirst_of_resolve hstrict
  obtain rfl := hfirst.breaks.rule_of_missingSize
  have hkind : request.kind = strict.kind := congrArg Instruction.kind h.draft
  have hsized : request.kind.form?.any Form.isSized = true := by
    rw [hkind]
    exact hfirst.breaks.isSized (Or.inr rfl)
  have hwidth : request.width = some size := by
    rw [width_eq, if_pos hsized, hsize, Option.some_or]
  rw [h.resolve_of_breaksFirst hfirst, hwidth]
  intro later hlater
  cases later with
  | size =>
    intro error hbreaks
    cases hsize.symm.trans hbreaks.size_eq_none
  | form | slots | count | memory | widths => exact absurd hlater (by decide)

/-- A width of its own replaces the one that an accepted request has, if its kind has one. -/
theorem Relaxes.resolve_of_size {instruction : Instruction} {size : OperandSize}
    (h : request.Relaxes strict) (hsize : request.size = some size)
    (hstrict : strict.resolve = .ok instruction) :
    request.resolve = .ok
      (if request.kind.form?.any Form.isSized then { instruction with size := some size }
        else instruction) := by
  have hkind : request.kind = strict.kind := congrArg Instruction.kind h.draft
  have hinstruction := (passes_of_resolve hstrict).2
  rw [h.resolve_eq_ok hstrict, width_eq, hsize, Option.some_or]
  split
  · rfl
  · rename_i hunsized
    have hnone : instruction.size = none := by
      rw [hinstruction]
      rw [hkind] at hunsized
      exact (width_eq strict).trans (if_neg hunsized)
    rw [← hnone]

theorem relaxes_skip (request : Request) :
    { request with check := .skip }.Relaxes { request with check := .enforce } where
  draft := rfl
  check := nofun
  size := id

theorem relaxes_size (request : Request) (size : OperandSize) :
    { request with size := some size }.Relaxes { request with size := none } where
  draft := rfl
  check := id
  size := nofun

/-- Skipping the width check and giving a width only relax a request. Without the check, what was accepted
stays as it is, two registers of different widths become an instruction of the given width or of the
destination's, and every other error stays. With a width, what was accepted takes that width if its kind has
one, a missing width becomes an instruction of the given one, and every other error stays. -/
theorem check_and_size_only_relax (request : Request) :
    let enforced : Request := { request with check := .enforce }
    let skipped : Request := { request with check := .skip }
    let unsized : Request := { request with size := none }
    (∀ instruction, enforced.resolve = .ok instruction → skipped.resolve = .ok instruction) ∧
    (∀ error, enforced.resolve = .error error → (∀ kind d s, error ≠ .sizeMismatch kind d s) →
      skipped.resolve = .error error) ∧
    (∀ kind d s, enforced.resolve = .error (.sizeMismatch kind d s) →
      request.draft.destination = .direct (.register d) ∧
        skipped.resolve = .ok { request.draft with size := some (request.size.getD d.size) }) ∧
    ∀ size : OperandSize,
      let sized : Request := { request with size := some size }
      (∀ instruction, unsized.resolve = .ok instruction →
        sized.resolve = .ok
          (if request.kind.form?.any Form.isSized then { instruction with size := some size }
            else instruction)) ∧
      (∀ kind, unsized.resolve = .error (.missingSize kind) →
        sized.resolve = .ok { request.draft with size := some size }) ∧
      ∀ error, unsized.resolve = .error error → (∀ kind, error ≠ .missingSize kind) →
        sized.resolve = .error error := by
  intro enforced skipped unsized
  refine ⟨fun instruction h => ?_, fun error h hother => ?_,
    fun kind d s h => request.relaxes_skip.resolve_of_sizeMismatch rfl h, fun size => ?_⟩
  · rw [request.relaxes_skip.resolve_eq_ok h, (passes_of_resolve h).2]
    rfl
  · obtain ⟨rule, hfirst⟩ := breaksFirst_of_resolve h
    apply request.relaxes_skip.resolve_eq_error hfirst
    · rintro rfl
      obtain ⟨d, s, hmismatch, -⟩ := hfirst.breaks.exists_sizeMismatch
      exact absurd hmismatch (hother _ d s)
    · rintro rfl
      exact hfirst.breaks.size_eq_none
  · have hrelaxes := request.relaxes_size size
    refine ⟨fun instruction h => hrelaxes.resolve_of_size rfl h,
      fun kind h => hrelaxes.resolve_of_missingSize rfl h, fun error h hother => ?_⟩
    obtain ⟨rule, hfirst⟩ := breaksFirst_of_resolve h
    apply hrelaxes.resolve_eq_error hfirst
    · rintro rfl
      exact hfirst.breaks.check_eq_enforce
    · rintro rfl
      exact absurd hfirst.breaks.eq_missingSize (hother _)

/-- Two registers of different widths, a store without a width, and a copy from memory to memory: only the
last is refused whatever is asked for. -/
theorem check_and_size_only_relax_of_add :
    let eax : Register := .lettered .a .dword
    let esi : Value := .register (.pointer .si .dword)
    let sum : Request := {
      kind := .binary .add, destination := .ofValue (.register eax), source := some (.ofValue (.register .dx)) }
    let store : Request := {
      kind := .binary .mov, destination := .mem esi 4, source := some (.ofValue (.immediate 7)) }
    let copy : Request := { store with source := some (.deref esi) }
    sum.resolve = .error (.sizeMismatch (.binary .add) eax .dx) ∧
    { sum with check := .skip }.resolve =
      .ok ⟨.binary .add, .direct (.register eax), some (.direct (.register .dx)), some .dword⟩ ∧
    store.resolve = .error (.missingSize (.binary .mov)) ∧
    { store with size := some .byte }.resolve =
      .ok ⟨.binary .mov, .indirect esi 4, some (.direct (.immediate 7)), some .byte⟩ ∧
    copy.resolve = .error (.conflictingIndirection (.binary .mov)) ∧
    { copy with size := some .byte }.resolve = .error (.conflictingIndirection (.binary .mov)) := by
  intro eax esi sum store copy
  have hsum : sum.resolve = .error (.sizeMismatch (.binary .add) eax .dx) := rfl
  have hstore : store.resolve = .error (.missingSize (.binary .mov)) := rfl
  have hcopy : copy.resolve = .error (.conflictingIndirection (.binary .mov)) := rfl
  obtain ⟨-, -, hmismatch, -⟩ := check_and_size_only_relax sum
  obtain ⟨-, hmissing, -⟩ := (check_and_size_only_relax store).2.2.2 .byte
  obtain ⟨-, -, hother⟩ := (check_and_size_only_relax copy).2.2.2 .byte
  exact ⟨hsum, (hmismatch _ _ _ hsum).2, hstore, hmissing _ hstore, hcopy, hother _ hcopy nofun⟩

end Request
end X86Listing
