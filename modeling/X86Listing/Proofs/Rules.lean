import X86Listing.Proofs.Resolution

/-! The rules of requests. A request is refused by the first rule that it breaks, with the fault that this
rule finds, and every rule is about the normalized operands. A request that breaks none resolves to these
operands, with the width that was given or else that of a direct register. -/

namespace X86Listing

/-- The rules of requests, in the order in which they apply. -/
inductive Rule where
  /-- The kind takes operands. -/
  | form
  /-- There is a source exactly if the kind has one. -/
  | slots
  /-- A shift counts bits by a number or by `cl`. -/
  | count
  /-- At most one operand is in memory. -/
  | memory
  /-- Two direct registers have the same width. -/
  | widths
  /-- A width is given or follows from the operands. -/
  | size
  deriving DecidableEq

/-- Place of the rule in the order. -/
def Rule.place : Rule → Nat
  | .form => 0
  | .slots => 1
  | .count => 2
  | .memory => 3
  | .widths => 4
  | .size => 5

theorem Rule.place_injective {rule other : Rule} (h : rule.place = other.place) : rule = other := by
  cases rule <;> cases other <;> first | rfl | cases h

theorem Operand.directRegister?_eq_some {operand : Operand} {r : Register} :
    operand.directRegister? = some r ↔ operand = .direct (.register r) := by
  obtain ⟨value, access⟩ := operand
  cases access with
  | indirect displacement => simp [directRegister?, direct]
  | direct => cases value <;> simp [directRegister?, direct, Value.register?]

theorem Operand.directRegister?_of_not_isIndirect {operand : Operand}
    (h : operand.isIndirect = false) : operand.directRegister? = operand.value.register? := by
  obtain ⟨value, access⟩ := operand
  cases access with
  | direct => rfl
  | indirect displacement => cases h

theorem Argument.directRegister?_normalize (argument : Argument) :
    argument.normalize.directRegister? =
      if argument.isIndirect then none else argument.value.register? := by
  obtain ⟨value, marked, offset, sizeHint⟩ := argument
  cases offset <;> cases marked <;> rfl

namespace Request

/-! ### Faults -/

/-- Whether the request is a shift by `cl`. -/
def ShiftsByCl (request : Request) : Prop :=
  request.kind.isShift = true ∧ request.draft.source = some (.direct (.register .cl))

/-- What a rule finds wrong with a request. -/
inductive Breaks (request : Request) : Rule → BuildError → Prop
  | form (hform : request.kind.form? = none) :
      Breaks request .form (.operands request.kind .takesNone)
  | missingSource {form : Form} (hform : request.kind.form? = some form)
      (hneeded : form.hasSource = true) (hsource : request.draft.source = none) :
      Breaks request .slots (.operands request.kind .missingSource)
  | unexpectedSource {form : Form} {source : Operand} (hform : request.kind.form? = some form)
      (hneeded : form.hasSource = false) (hsource : request.draft.source = some source) :
      Breaks request .slots (.operands request.kind .unexpectedSource)
  | indirectCount {count : Operand} (hshift : request.kind.isShift = true)
      (hsource : request.draft.source = some count) (hindirect : count.isIndirect = true) :
      Breaks request .count (.operands request.kind .indirectCount)
  | countRegister {r : Register} (hshift : request.kind.isShift = true)
      (hsource : request.draft.source = some (.direct (.register r))) (hcl : r ≠ .cl) :
      Breaks request .count (.invalidCountRegister request.kind r)
  | symbolicCount {s : Symbol} (hshift : request.kind.isShift = true)
      (hsource : request.draft.source = some (.direct (.symbol s))) :
      Breaks request .count (.operands request.kind .symbolicCount)
  | memory {source : Operand} (hsource : request.draft.source = some source)
      (hdestination : request.draft.destination.isIndirect = true)
      (hindirect : source.isIndirect = true) :
      Breaks request .memory (.conflictingIndirection request.kind)
  | widths {form : Form} {d s : Register} (hform : request.kind.form? = some form)
      (hsized : form.isSized = true) (hcheck : request.check = .enforce)
      (hcl : ¬request.ShiftsByCl)
      (hdestination : request.draft.destination = .direct (.register d))
      (hsource : request.draft.source = some (.direct (.register s))) (hne : d.size ≠ s.size) :
      Breaks request .widths (.sizeMismatch request.kind d s)
  | size {form : Form} (hform : request.kind.form? = some form) (hsized : form.isSized = true)
      (hsize : request.size = none)
      (hoperands : request.draft.destination.isIndirect = true ∨
        request.draft.destination.value.register? = none ∧
          ∀ r, request.draft.source ≠ some (.direct (.register r))) :
      Breaks request .size (.missingSize request.kind)

/-- Whether the rule finds nothing wrong with the request. -/
def Passes (request : Request) (rule : Rule) : Prop :=
  ∀ error, ¬request.Breaks rule error

/-- Whether no rule before the place finds anything wrong. -/
def PassesBefore (request : Request) (place : Nat) : Prop :=
  ∀ rule : Rule, rule.place < place → request.Passes rule

/-- Whether the rule is the first that the request breaks. -/
structure BreaksFirst (request : Request) (rule : Rule) (error : BuildError) : Prop where
  breaks : request.Breaks rule error
  earlier : request.PassesBefore rule.place

variable {request : Request} {rule : Rule} {error : BuildError}

theorem PassesBefore.next (h : request.PassesBefore rule.place) (hrule : request.Passes rule) :
    request.PassesBefore (rule.place + 1) := by
  intro other hother
  rcases Nat.lt_succ_iff_lt_or_eq.mp hother with hlt | heq
  · exact h other hlt
  · rw [Rule.place_injective heq]
    exact hrule

/-- A rule finds at most one fault. -/
theorem Breaks.unique {other : BuildError} (h : request.Breaks rule error)
    (h' : request.Breaks rule other) : error = other := by
  cases h with
  | form | memory | size =>
    cases h'
    rfl
  | missingSource hform hneeded hsource =>
    cases h' with
    | missingSource => rfl
    | unexpectedSource hform' hneeded' hsource' => cases hsource.symm.trans hsource'
  | unexpectedSource hform hneeded hsource =>
    cases h' with
    | missingSource hform' hneeded' hsource' => cases hsource.symm.trans hsource'
    | unexpectedSource => rfl
  | indirectCount hshift hsource hindirect =>
    cases h' with
    | indirectCount => rfl
    | countRegister hshift' hsource' hcl =>
      cases hsource.symm.trans hsource'
      cases hindirect
    | symbolicCount hshift' hsource' =>
      cases hsource.symm.trans hsource'
      cases hindirect
  | countRegister hshift hsource hcl =>
    cases h' with
    | indirectCount hshift' hsource' hindirect =>
      cases hsource.symm.trans hsource'
      cases hindirect
    | countRegister hshift' hsource' hcl' =>
      cases hsource.symm.trans hsource'
      rfl
    | symbolicCount hshift' hsource' => cases hsource.symm.trans hsource'
  | symbolicCount hshift hsource =>
    cases h' with
    | indirectCount hshift' hsource' hindirect =>
      cases hsource.symm.trans hsource'
      cases hindirect
    | countRegister hshift' hsource' hcl => cases hsource.symm.trans hsource'
    | symbolicCount => rfl
  | widths hform hsized hcheck hcl hdestination hsource hne =>
    cases h' with
    | widths hform' hsized' hcheck' hcl' hdestination' hsource' hne' =>
      cases hdestination.symm.trans hdestination'
      cases hsource.symm.trans hsource'
      rfl

theorem BreaksFirst.unique {other : Rule} {otherError : BuildError}
    (h : request.BreaksFirst rule error) (h' : request.BreaksFirst other otherError) :
    rule = other ∧ error = otherError := by
  rcases Nat.lt_trichotomy rule.place other.place with hlt | heq | hgt
  · exact absurd h.breaks (h'.earlier rule hlt error)
  · obtain rfl := Rule.place_injective heq
    exact ⟨rfl, h.breaks.unique h'.breaks⟩
  · exact absurd h'.breaks (h.earlier other hgt otherError)

/-! ### The checks -/

theorem checkForm_eq_error (error : BuildError) :
    request.checkForm = .error error ↔ request.Breaks .form error ∨ request.Breaks .slots error := by
  have hsource : request.draft.source = request.source.map Argument.normalize := rfl
  unfold checkForm
  constructor
  · intro h
    cases hform : request.kind.form? with
    | none =>
      rw [hform] at h
      cases h
      exact Or.inl (.form hform)
    | some form =>
      rw [hform] at h
      cases hneeded : form.hasSource <;> cases hargument : request.source <;>
        simp only [hneeded, hargument, reduceCtorEq, Except.error.injEq] at h
      · subst h
        exact Or.inr (.unexpectedSource hform hneeded (by rw [hsource, hargument, Option.map_some]))
      · subst h
        exact Or.inr (.missingSource hform hneeded (by rw [hsource, hargument, Option.map_none]))
  · rintro (h | h)
    · cases h with
      | form hform => rw [hform]
    · cases h with
      | missingSource hform hneeded hnone =>
        rw [hsource, Option.map_eq_none_iff] at hnone
        simp only [hform, hneeded, hnone]
      | unexpectedSource hform hneeded hsome =>
        rw [hsource, Option.map_eq_some_iff] at hsome
        obtain ⟨argument, hargument, -⟩ := hsome
        simp only [hform, hneeded, hargument]

theorem checkCount_eq_error {kind : Mnemonic} {count : Argument} {check : WidthCheck} :
    checkCount kind count check = .error error ↔
      count.normalize.isIndirect = true ∧ error = .operands kind .indirectCount ∨
        (∃ r, count.normalize = .direct (.register r) ∧ r ≠ .cl ∧
          error = .invalidCountRegister kind r) ∨
        ∃ s, count.normalize = .direct (.symbol s) ∧ error = .operands kind .symbolicCount := by
  simp only [checkCount, Argument.normalize_eq_direct, Argument.isIndirect_normalize]
  cases hindirect : count.isIndirect with
  | true => simp [eq_comm]
  | false =>
    cases hvalue : count.value with
    | register r =>
      by_cases hcl : r = .cl
      · subst hcl
        simp
      · simp [hcl, eq_comm]
    | immediate number => simp
    | symbol s => simp [eq_comm]

theorem widthCheck_of_not_source (hsource : request.source = none) :
    request.widthCheck = .ok request.check := by
  unfold widthCheck
  rw [hsource]
  cases request.kind.isShift <;> rfl

theorem widthCheck_eq_error (error : BuildError) :
    request.widthCheck = .error error ↔ request.Breaks .count error := by
  have hdraft : request.draft.source = request.source.map Argument.normalize := rfl
  constructor
  · intro h
    cases hshift : request.kind.isShift with
    | false => cases (widthCheck_of_not_isShift hshift).symm.trans h
    | true =>
      cases hsource : request.source with
      | none =>
        cases (widthCheck_of_not_source hsource).symm.trans h
      | some count =>
        rw [widthCheck_of_isShift hshift hsource] at h
        rw [hsource, Option.map_some] at hdraft
        rcases checkCount_eq_error.mp h with ⟨hindirect, rfl⟩ | ⟨r, hr, hcl, rfl⟩ | ⟨s, hs, rfl⟩
        · exact .indirectCount hshift hdraft hindirect
        · exact .countRegister hshift (hdraft.trans (congrArg some hr)) hcl
        · exact .symbolicCount hshift (hdraft.trans (congrArg some hs))
  · intro h
    have hcount {operand : Operand} (hshift : request.kind.isShift = true)
        (hsource : request.draft.source = some operand) :
        ∃ count : Argument, count.normalize = operand ∧
          request.widthCheck = checkCount request.kind count request.check := by
      rw [hdraft, Option.map_eq_some_iff] at hsource
      obtain ⟨count, hargument, hoperand⟩ := hsource
      exact ⟨count, hoperand, widthCheck_of_isShift hshift hargument⟩
    cases h with
    | indirectCount hshift hsource hindirect =>
      obtain ⟨count, rfl, hcheck⟩ := hcount hshift hsource
      rw [hcheck]
      exact checkCount_eq_error.mpr (Or.inl ⟨hindirect, rfl⟩)
    | countRegister hshift hsource hcl =>
      obtain ⟨count, hoperand, hcheck⟩ := hcount hshift hsource
      rw [hcheck]
      exact checkCount_eq_error.mpr (Or.inr (Or.inl ⟨_, hoperand, hcl, rfl⟩))
    | symbolicCount hshift hsource =>
      obtain ⟨count, hoperand, hcheck⟩ := hcount hshift hsource
      rw [hcheck]
      exact checkCount_eq_error.mpr (Or.inr (Or.inr ⟨_, hoperand, rfl⟩))

/-- The width check stays on exactly if the request asks for it and is no shift by `cl`. -/
theorem widthCheck_eq_enforce {check : WidthCheck} (h : request.widthCheck = .ok check) :
    check = .enforce ↔ request.check = .enforce ∧ ¬request.ShiftsByCl := by
  cases hshift : request.kind.isShift with
  | false =>
    cases (widthCheck_of_not_isShift hshift).symm.trans h
    simp [ShiftsByCl, hshift]
  | true =>
    cases hsource : request.source with
    | none =>
      have hdraft : request.draft.source = none := congrArg (Option.map Argument.normalize) hsource
      cases (widthCheck_of_not_source hsource).symm.trans h
      simp [ShiftsByCl, hdraft]
    | some count =>
      have hdraft : request.draft.source = some count.normalize :=
        congrArg (Option.map Argument.normalize) hsource
      rw [widthCheck_of_isShift hshift hsource] at h
      rcases checkCount_eq_ok.mp h with ⟨hcl, rfl⟩ | ⟨⟨number, hnumber⟩, rfl⟩
      · simp [ShiftsByCl, hshift, hdraft, hcl]
      · simp [ShiftsByCl, hdraft, hnumber, Operand.direct]

theorem checkMemory_eq_error (error : BuildError) :
    checkMemory request.kind request.draft.destination request.draft.source = .error error ↔
      request.Breaks .memory error := by
  unfold checkMemory
  constructor
  · intro h
    split at h
    · rename_i hboth
      cases h
      rw [Bool.and_eq_true, Option.any_eq_true_iff_get] at hboth
      obtain ⟨hdestination, hsome, hindirect⟩ := hboth
      exact .memory (Option.some_get hsome).symm hdestination hindirect
    · cases h
  · intro h
    cases h with
    | memory hsource hdestination hindirect =>
      rw [hsource, hdestination, Option.any_some, hindirect]
      rfl

theorem checkWidths_eq_error {kind : Mnemonic} {destination : Operand} {source : Option Operand} :
    checkWidths kind destination source = .error error ↔
      ∃ d s, destination = .direct (.register d) ∧ source = some (.direct (.register s)) ∧
        d.size ≠ s.size ∧ error = .sizeMismatch kind d s := by
  unfold checkWidths
  constructor
  · intro h
    split at h
    · rename_i d s hd hs
      obtain ⟨operand, rfl, hregister⟩ := Option.bind_eq_some_iff.mp hs
      rw [Operand.directRegister?_eq_some] at hd hregister
      split at h
      · cases h
      · rename_i hne
        cases h
        exact ⟨d, s, hd, congrArg some hregister, hne, rfl⟩
    · cases h
  · rintro ⟨d, s, rfl, rfl, hne, rfl⟩
    exact if_neg hne

theorem compareWidths_eq_error {form : Form} {check : WidthCheck}
    (hform : request.kind.form? = some form) (hsized : form.isSized = true)
    (hcheck : request.widthCheck = .ok check) (error : BuildError) :
    compareWidths request.kind check request.draft.destination request.draft.source = .error error ↔
      request.Breaks .widths error := by
  have henforce := widthCheck_eq_enforce hcheck
  constructor
  · intro h
    cases check with
    | skip => cases h
    | enforce =>
      obtain ⟨hasked, hcl⟩ := henforce.mp rfl
      obtain ⟨d, s, hd, hs, hne, rfl⟩ := checkWidths_eq_error.mp h
      exact .widths hform hsized hasked hcl hd hs hne
  · intro h
    cases h with
    | widths hform' hsized' hasked hcl hd hs hne =>
      obtain rfl := henforce.mpr ⟨hasked, hcl⟩
      exact checkWidths_eq_error.mpr ⟨_, _, hd, hs, hne, rfl⟩

/-- The width that follows from the operands: that of a direct register, the destination's first. -/
def inferredSize (request : Request) : Option OperandSize :=
  (request.draft.destination.directRegister?.or
    (request.draft.source.bind Operand.directRegister?)).map Register.size

/-- Without a direct register, no width follows from the operands. -/
theorem inferredSize_eq_none :
    request.inferredSize = none ↔
      request.draft.destination.directRegister? = none ∧
        ∀ r, request.draft.source ≠ some (.direct (.register r)) := by
  unfold inferredSize
  rw [Option.map_eq_none_iff, Option.or_eq_none_iff, Option.bind_eq_none_iff]
  constructor
  · rintro ⟨hdestination, hsource⟩
    exact ⟨hdestination, fun r hr => absurd (hsource _ hr) (by simp [Value.register?])⟩
  · rintro ⟨hdestination, hsource⟩
    refine ⟨hdestination, fun operand hoperand => ?_⟩
    cases hregister : operand.directRegister? with
    | none => rfl
    | some r =>
      rw [Operand.directRegister?_eq_some] at hregister
      exact absurd (hoperand.trans (congrArg some hregister)) (hsource r)

theorem pickSize_of_not_size (hsize : request.size = none) :
    pickSize request.kind request.size request.draft.destination request.draft.source =
      if request.draft.destination.isIndirect then .error (.missingSize request.kind)
      else
        match request.inferredSize with
        | some size => .ok size
        | none => .error (.missingSize request.kind) := by
  unfold pickSize inferredSize
  rw [hsize]
  cases request.draft.destination.isIndirect with
  | true => rfl
  | false =>
    cases request.draft.destination.directRegister?.or
      (request.draft.source.bind Operand.directRegister?) <;> rfl

theorem pickSize_eq_error {form : Form} (hform : request.kind.form? = some form)
    (hsized : form.isSized = true) (error : BuildError) :
    pickSize request.kind request.size request.draft.destination request.draft.source = .error error ↔
      request.Breaks .size error := by
  constructor
  · intro h
    cases hsize : request.size with
    | some size =>
      rw [hsize] at h
      cases h
    | none =>
      rw [pickSize_of_not_size hsize] at h
      cases hindirect : request.draft.destination.isIndirect with
      | true =>
        rw [hindirect] at h
        cases h
        exact .size hform hsized hsize (Or.inl hindirect)
      | false =>
        rw [hindirect] at h
        cases hinferred : request.inferredSize with
        | some size =>
          rw [hinferred] at h
          cases h
        | none =>
          rw [hinferred] at h
          cases h
          obtain ⟨hdestination, hsource⟩ := inferredSize_eq_none.mp hinferred
          rw [Operand.directRegister?_of_not_isIndirect hindirect] at hdestination
          exact .size hform hsized hsize (Or.inr ⟨hdestination, hsource⟩)
  · intro h
    cases h with
    | size hform' hsized' hsize hoperands =>
      rw [pickSize_of_not_size hsize]
      cases hindirect : request.draft.destination.isIndirect with
      | true => rfl
      | false =>
        rcases hoperands with htrue | ⟨hdestination, hsource⟩
        · cases hindirect.symm.trans htrue
        · rw [← Operand.directRegister?_of_not_isIndirect hindirect] at hdestination
          rw [inferredSize_eq_none.mpr ⟨hdestination, hsource⟩]
          rfl

theorem size_of_pickSize {size : OperandSize}
    (h : pickSize request.kind request.size request.draft.destination request.draft.source = .ok size) :
    request.size.or request.inferredSize = some size := by
  cases hsize : request.size with
  | some given =>
    rw [hsize] at h
    cases h
    rfl
  | none =>
    rw [pickSize_of_not_size hsize] at h
    split at h
    · cases h
    · split at h
      · rename_i inferred hinferred
        cases h
        exact hinferred
      · cases h

/-! ### The first broken rule -/

theorem resolveSize_of_isSized {kind : Mnemonic} {form : Form} (hsized : form.isSized = true)
    (check : WidthCheck) (size : Option OperandSize) (destination : Operand)
    (source : Option Operand) :
    resolveSize kind form check size destination source = do
      compareWidths kind check destination source
      return some (← pickSize kind size destination source) := by
  unfold resolveSize
  rw [if_pos hsized]
  cases check <;> rfl

/-- The width of a request that breaks no rule, if its kind has one: the given one first. -/
def width (request : Request) : Option OperandSize :=
  match request.kind.form? with
  | some form => if form.isSized then request.size.or request.inferredSize else none
  | none => none

theorem passes_of_isSized_eq_false {form : Form} (hform : request.kind.form? = some form)
    (hsized : form.isSized = false) : request.Passes .widths ∧ request.Passes .size := by
  constructor
  · intro error h
    cases h with
    | widths hform' hsized' =>
      obtain rfl := Option.some.inj (hform.symm.trans hform')
      cases hsized.symm.trans hsized'
  · intro error h
    cases h with
    | size hform' hsized' =>
      obtain rfl := Option.some.inj (hform.symm.trans hform')
      cases hsized.symm.trans hsized'

theorem passes_of_ok {α : Type} {attempt : Except BuildError α} {value : α}
    (h : attempt = .ok value)
    (herror : ∀ error, attempt = .error error ↔ request.Breaks rule error) : request.Passes rule := by
  intro error hbreaks
  cases h.symm.trans ((herror error).mpr hbreaks)

theorem passes_of_checkForm {form : Form} (h : request.checkForm = .ok form) :
    request.Passes .form ∧ request.Passes .slots := by
  constructor
  · intro error hbreaks
    cases h.symm.trans ((checkForm_eq_error error).mpr (Or.inl hbreaks))
  · intro error hbreaks
    cases h.symm.trans ((checkForm_eq_error error).mpr (Or.inr hbreaks))

theorem Breaks.passes_form (h : request.Breaks .slots error) : request.Passes .form := by
  intro other hother
  cases hother with
  | form hnone =>
    cases h with
    | missingSource hform => cases hnone.symm.trans hform
    | unexpectedSource hform => cases hnone.symm.trans hform

theorem resolveSize_eq_error {form : Form} {check : WidthCheck}
    (hform : request.kind.form? = some form) (hcheck : request.widthCheck = .ok check)
    (h : resolveSize request.kind form check request.size request.draft.destination
      request.draft.source = .error error) :
    request.Breaks .widths error ∨ request.Passes .widths ∧ request.Breaks .size error := by
  cases hsized : form.isSized with
  | false =>
    rw [resolveSize_of_not_isSized hsized] at h
    cases h
  | true =>
    have hwidths := compareWidths_eq_error hform hsized hcheck
    rw [resolveSize_of_isSized hsized] at h
    rcases bind_eq_error.mp h with h | ⟨⟨⟩, hpassed, h⟩
    · exact Or.inl ((hwidths error).mp h)
    · refine Or.inr ⟨passes_of_ok hpassed hwidths, ?_⟩
      rcases bind_eq_error.mp h with h | ⟨size, -, h⟩
      · exact (pickSize_eq_error hform hsized error).mp h
      · cases h

theorem passes_of_resolveSize {form : Form} {check : WidthCheck} {size : Option OperandSize}
    (hform : request.kind.form? = some form) (hcheck : request.widthCheck = .ok check)
    (h : resolveSize request.kind form check request.size request.draft.destination
      request.draft.source = .ok size) :
    request.Passes .widths ∧ request.Passes .size ∧ size = request.width := by
  have hwidth : request.width =
      if form.isSized then request.size.or request.inferredSize else none := by
    unfold width
    rw [hform]
  cases hsized : form.isSized with
  | false =>
    obtain ⟨hwidths, hsize⟩ := passes_of_isSized_eq_false hform hsized
    rw [resolveSize_of_not_isSized hsized] at h
    cases h
    rw [hsized] at hwidth
    exact ⟨hwidths, hsize, hwidth.symm⟩
  | true =>
    rw [resolveSize_of_isSized hsized] at h
    obtain ⟨⟨⟩, hpassed, h⟩ := bind_eq_ok.mp h
    obtain ⟨picked, hpicked, h⟩ := bind_eq_ok.mp h
    cases h
    rw [hsized, if_pos rfl, size_of_pickSize hpicked] at hwidth
    exact ⟨passes_of_ok hpassed (compareWidths_eq_error hform hsized hcheck),
      passes_of_ok hpicked (pickSize_eq_error hform hsized), hwidth.symm⟩

/-- A request that is refused breaks a rule, and its error is the fault that the first such rule finds. -/
theorem breaksFirst_of_resolve (h : request.resolve = .error error) :
    ∃ rule, request.BreaksFirst rule error := by
  have hform : request.PassesBefore Rule.form.place := fun rule hrule =>
    absurd hrule (Nat.not_lt_zero _)
  unfold resolve at h
  rcases bind_eq_error.mp h with hfault | ⟨form, hchecked, h⟩
  · rcases (checkForm_eq_error error).mp hfault with hbreaks | hbreaks
    · exact ⟨.form, hbreaks, hform⟩
    · exact ⟨.slots, hbreaks, hform.next hbreaks.passes_form⟩
  have hslots : request.PassesBefore Rule.slots.place := hform.next (passes_of_checkForm hchecked).1
  have hcount : request.PassesBefore Rule.count.place := hslots.next (passes_of_checkForm hchecked).2
  rcases bind_eq_error.mp h with hfault | ⟨check, hcheck, h⟩
  · exact ⟨.count, (widthCheck_eq_error error).mp hfault, hcount⟩
  have hmemory : request.PassesBefore Rule.memory.place :=
    hcount.next (passes_of_ok hcheck widthCheck_eq_error)
  rcases bind_eq_error.mp h with hfault | ⟨⟨⟩, hapart, h⟩
  · exact ⟨.memory, (checkMemory_eq_error error).mp hfault, hmemory⟩
  have hwidths : request.PassesBefore Rule.widths.place :=
    hmemory.next (passes_of_ok hapart checkMemory_eq_error)
  rcases bind_eq_error.mp h with hfault | ⟨size, -, h⟩
  · have hkind := (checkForm_eq_ok.mp hchecked).1
    rcases resolveSize_eq_error hkind hcheck hfault with hbreaks | ⟨hpasses, hbreaks⟩
    · exact ⟨.widths, hbreaks, hwidths⟩
    · exact ⟨.size, hbreaks, hwidths.next hpasses⟩
  · cases h

/-- A request that is accepted breaks no rule, and keeps its operands. -/
theorem passes_of_resolve {instruction : Instruction} (h : request.resolve = .ok instruction) :
    (∀ rule, request.Passes rule) ∧ instruction = { request.draft with size := request.width } := by
  obtain ⟨form, check, size, hform, hcheck, hmemory, hsize, rfl⟩ := resolve_eq_ok.mp h
  obtain ⟨hwidths, hpicked, rfl⟩ :=
    passes_of_resolveSize (checkForm_eq_ok.mp hform).1 hcheck hsize
  refine ⟨fun rule => ?_, rfl⟩
  cases rule with
  | form => exact (passes_of_checkForm hform).1
  | slots => exact (passes_of_checkForm hform).2
  | count => exact passes_of_ok hcheck widthCheck_eq_error
  | memory => exact passes_of_ok hmemory checkMemory_eq_error
  | widths => exact hwidths
  | size => exact hpicked

/-- A request that breaks a rule is refused, if not always with the fault of that rule. -/
theorem Breaks.refused (h : request.Breaks rule error) :
    ∃ found, request.resolve = .error found := by
  cases hresolve : request.resolve with
  | ok instruction => exact absurd h ((passes_of_resolve hresolve).1 rule error)
  | error found => exact ⟨found, rfl⟩

theorem BreaksFirst.resolve (h : request.BreaksFirst rule error) :
    request.resolve = .error error := by
  obtain ⟨found, hresolve⟩ := h.breaks.refused
  obtain ⟨other, hother⟩ := breaksFirst_of_resolve hresolve
  rw [hresolve, (h.unique hother).2]

/-- The rules decide every request. It is refused exactly if it breaks one of them, with the fault found by
the first; else it resolves to its normalized operands, with no width for a kind that has none, and otherwise
the given one, or that of a direct destination register, or that of a direct source register. -/
theorem resolve_decided_by_rules (request : Request) :
    (∀ error, request.resolve = .error error ↔ ∃ rule, request.BreaksFirst rule error) ∧
      ∀ instruction, request.resolve = .ok instruction ↔
        (∀ rule, request.Passes rule) ∧ instruction = { request.draft with size := request.width } := by
  constructor
  · intro error
    constructor
    · exact breaksFirst_of_resolve
    · rintro ⟨rule, hfirst⟩
      exact hfirst.resolve
  · intro instruction
    constructor
    · exact passes_of_resolve
    · rintro ⟨hpasses, rfl⟩
      cases hresolve : request.resolve with
      | ok found => rw [(passes_of_resolve hresolve).2]
      | error error =>
        obtain ⟨rule, hfirst⟩ := breaksFirst_of_resolve hresolve
        exact absurd hfirst.breaks (hpasses rule error)

end Request
end X86Listing
