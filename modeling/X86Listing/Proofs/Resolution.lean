import X86Listing.Proofs.WellFormed
import X86Listing.Request.Operation

/-! What the checks of a request let through. Each check has one lemma that says when it succeeds. From
these, a resolved request gives a well-formed instruction, and a well-formed instruction is what the
request rebuilt from it resolves to. -/

namespace X86Listing

theorem bind_eq_ok {ε α β : Type} {attempt : Except ε α} {next : α → Except ε β} {result : β} :
    attempt >>= next = .ok result ↔ ∃ value, attempt = .ok value ∧ next value = .ok result := by
  constructor
  · intro h
    cases attempt with
    | error error => cases h
    | ok value => exact ⟨value, rfl, h⟩
  · rintro ⟨value, rfl, h⟩
    exact h

theorem bind_eq_error {ε α β : Type} {attempt : Except ε α} {next : α → Except ε β} {error : ε} :
    attempt >>= next = .error error ↔
      attempt = .error error ∨ ∃ value, attempt = .ok value ∧ next value = .error error := by
  cases attempt with
  | error found =>
    constructor
    · rintro ⟨⟩
      exact Or.inl rfl
    · rintro (⟨⟨⟩⟩ | ⟨_, ⟨⟩, -⟩)
      rfl
  | ok value =>
    constructor
    · intro h
      exact Or.inr ⟨value, rfl, h⟩
    · rintro (⟨⟨⟩⟩ | ⟨_, ⟨⟩, h⟩)
      exact h

theorem Argument.normalize_eq_direct {argument : Argument} {value : Value} :
    argument.normalize = .direct value ↔ argument.isIndirect = false ∧ argument.value = value := by
  obtain ⟨found, marked, offset, sizeHint⟩ := argument
  cases offset with
  | some offset => simp [normalize, isIndirect, Operand.direct, Operand.indirect]
  | none => cases marked <;> simp [normalize, isIndirect, Operand.direct, Operand.indirect]

theorem Operand.countsBits_iff {operand : Operand} :
    operand.CountsBits ↔
      operand = .direct (.register .cl) ∨ ∃ number, operand = .direct (.immediate number) := by
  obtain ⟨value, access⟩ := operand
  cases value <;> simp [CountsBits, Value.CountsBits, direct, and_comm]

namespace Request

/-! ### The checks -/

theorem checkForm_eq_ok {request : Request} {form : Form} :
    request.checkForm = .ok form ↔
      request.kind.form? = some form ∧ request.source.isSome = form.hasSource := by
  unfold checkForm
  cases hform : request.kind.form? with
  | none => simp
  | some found =>
    rw [Option.some.injEq]
    cases hneeded : found.hasSource <;> cases hsource : request.source <;> simp [hneeded]
    all_goals
      rintro rfl
      simp [hneeded]

theorem checkCount_eq_ok {kind : Mnemonic} {count : Argument} {check result : WidthCheck} :
    checkCount kind count check = .ok result ↔
      count.normalize = .direct (.register .cl) ∧ result = .skip ∨
        (∃ number, count.normalize = .direct (.immediate number)) ∧ result = check := by
  simp only [checkCount, Argument.normalize_eq_direct]
  cases hindirect : count.isIndirect with
  | true => simp
  | false =>
    cases hvalue : count.value with
    | register r =>
      by_cases hcl : r = .cl
      · subst hcl
        simp [eq_comm]
      · simp [hcl]
    | immediate number => simp [eq_comm]
    | symbol s => simp

theorem widthCheck_of_isShift {request : Request} {count : Argument}
    (hshift : request.kind.isShift = true) (hsource : request.source = some count) :
    request.widthCheck = checkCount request.kind count request.check := by
  unfold widthCheck
  rw [hshift, hsource]

theorem widthCheck_of_not_isShift {request : Request} (hshift : request.kind.isShift = false) :
    request.widthCheck = .ok request.check := by
  unfold widthCheck
  rw [hshift]

theorem checkMemory_eq_ok {kind : Mnemonic} {destination : Operand} {source : Option Operand} :
    checkMemory kind destination source = .ok () ↔
      ∀ operand ∈ source, ¬(destination.isIndirect = true ∧ operand.isIndirect = true) := by
  unfold checkMemory
  cases source with
  | none => simp
  | some operand =>
    cases hd : destination.isIndirect <;> cases hs : operand.isIndirect <;> simp [hs]

theorem checkWidths_eq_ok {kind : Mnemonic} {destination : Operand} {source : Option Operand} :
    checkWidths kind destination source = .ok () ↔
      ∀ d ∈ destination.directRegister?, ∀ operand ∈ source, ∀ s ∈ operand.directRegister?,
        d.size = s.size := by
  unfold checkWidths
  cases destination.directRegister? with
  | none => simp
  | some d =>
    cases source with
    | none => simp
    | some operand =>
      cases hs : operand.directRegister? with
      | none => simp [hs]
      | some s => by_cases hsize : d.size = s.size <;> simp [hs, hsize]

theorem resolveSize_eq_ok {kind : Mnemonic} {form : Form} {check : WidthCheck}
    {explicit size : Option OperandSize} {destination : Operand} {source : Option Operand}
    (hsized : form.isSized = true) :
    resolveSize kind form check explicit destination source = .ok size ↔
      (check = .enforce → checkWidths kind destination source = .ok ()) ∧
        ∃ picked, pickSize kind explicit destination source = .ok picked ∧ size = some picked := by
  unfold resolveSize
  rw [if_pos hsized]
  cases check with
  | enforce =>
    constructor
    · intro h
      obtain ⟨⟨⟩, hwidths, h⟩ := bind_eq_ok.mp h
      obtain ⟨picked, hpicked, h⟩ := bind_eq_ok.mp h
      cases h
      exact ⟨fun _ => hwidths, picked, hpicked, rfl⟩
    · rintro ⟨hwidths, picked, hpicked, rfl⟩
      exact bind_eq_ok.mpr ⟨(), hwidths rfl, bind_eq_ok.mpr ⟨picked, hpicked, rfl⟩⟩
  | skip =>
    constructor
    · intro h
      obtain ⟨picked, hpicked, h⟩ := bind_eq_ok.mp h
      cases h
      exact ⟨nofun, picked, hpicked, rfl⟩
    · rintro ⟨-, picked, hpicked, rfl⟩
      exact bind_eq_ok.mpr ⟨picked, hpicked, rfl⟩

theorem resolveSize_of_not_isSized {kind : Mnemonic} {form : Form} {check : WidthCheck}
    {explicit : Option OperandSize} {destination : Operand} {source : Option Operand}
    (hsized : form.isSized = false) :
    resolveSize kind form check explicit destination source = .ok none := by
  unfold resolveSize
  rw [hsized]
  rfl

theorem isSome_of_resolveSize {kind : Mnemonic} {form : Form} {check : WidthCheck}
    {explicit size : Option OperandSize} {destination : Operand} {source : Option Operand}
    (h : resolveSize kind form check explicit destination source = .ok size) :
    size.isSome = form.isSized := by
  cases hsized : form.isSized with
  | false =>
    rw [resolveSize_of_not_isSized hsized] at h
    cases h
    rfl
  | true =>
    obtain ⟨-, picked, -, rfl⟩ := (resolveSize_eq_ok hsized).mp h
    rfl

/-- A width that is given is taken as it is when the width check is off. -/
theorem resolveSize_skip {kind : Mnemonic} {form : Form} {size : Option OperandSize}
    (hsize : size.isSome = form.isSized) (destination : Operand) (source : Option Operand) :
    resolveSize kind form .skip size destination source = .ok size := by
  cases size with
  | none => exact resolveSize_of_not_isSized hsize.symm
  | some size => exact (resolveSize_eq_ok hsize.symm).mpr ⟨nofun, size, rfl, rfl⟩

/-- A request resolves exactly if all its checks succeed, and then to its normalized operands. -/
theorem resolve_eq_ok {request : Request} {instruction : Instruction} :
    request.resolve = .ok instruction ↔
      ∃ form check size,
        request.checkForm = .ok form ∧ request.widthCheck = .ok check ∧
        checkMemory request.kind request.destination.normalize
          (request.source.map Argument.normalize) = .ok () ∧
        resolveSize request.kind form check request.size request.destination.normalize
          (request.source.map Argument.normalize) = .ok size ∧
        instruction = ⟨request.kind, request.destination.normalize,
          request.source.map Argument.normalize, size⟩ := by
  unfold resolve
  constructor
  · intro h
    obtain ⟨form, hform, h⟩ := bind_eq_ok.mp h
    obtain ⟨check, hcheck, h⟩ := bind_eq_ok.mp h
    obtain ⟨⟨⟩, hmemory, h⟩ := bind_eq_ok.mp h
    obtain ⟨size, hsize, h⟩ := bind_eq_ok.mp h
    cases h
    exact ⟨form, check, size, hform, hcheck, hmemory, hsize, rfl⟩
  · rintro ⟨form, check, size, hform, hcheck, hmemory, hsize, rfl⟩
    refine bind_eq_ok.mpr ⟨form, hform, bind_eq_ok.mpr ⟨check, hcheck, ?_⟩⟩
    exact bind_eq_ok.mpr ⟨(), hmemory, bind_eq_ok.mpr ⟨size, hsize, rfl⟩⟩

theorem operands_of_resolve {request : Request} {instruction : Instruction}
    (h : request.resolve = .ok instruction) :
    instruction.kind = request.kind ∧ instruction.destination = request.destination.normalize ∧
      instruction.source = request.source.map Argument.normalize := by
  obtain ⟨form, check, size, -, -, -, -, rfl⟩ := resolve_eq_ok.mp h
  exact ⟨rfl, rfl, rfl⟩

/-- The width check of a request is made on the operands of its instruction, a shift apart. -/
theorem checkWidths_of_resolve {request : Request} {instruction : Instruction} {form : Form}
    (h : request.resolve = .ok instruction) (hform : request.kind.form? = some form)
    (hsized : form.isSized = true) (hshift : request.kind.isShift = false)
    (hcheck : request.check = .enforce) :
    checkWidths instruction.kind instruction.destination instruction.source = .ok () := by
  obtain ⟨found, check, size, hfound, hwidth, -, hsize, rfl⟩ := resolve_eq_ok.mp h
  obtain rfl : form = found :=
    Option.some.inj (hform.symm.trans (checkForm_eq_ok.mp hfound).1)
  rw [widthCheck_of_not_isShift hshift, hcheck] at hwidth
  cases hwidth
  exact ((resolveSize_eq_ok hsized).mp hsize).1 rfl

/-! ### Requests with a width of their own -/

/-- The comparison of register widths, if it is asked for. -/
def compareWidths (kind : Mnemonic) (check : WidthCheck) (destination : Operand)
    (source : Option Operand) : Except BuildError Unit :=
  match check with
  | .enforce => checkWidths kind destination source
  | .skip => .ok ()

theorem resolveSize_of_size {kind : Mnemonic} {form : Form} (hsized : form.isSized = true)
    (check : WidthCheck) (size : OperandSize) (destination : Operand) (source : Option Operand) :
    resolveSize kind form check (some size) destination source =
      (compareWidths kind check destination source).map fun _ => some size := by
  unfold resolveSize
  rw [if_pos hsized]
  cases check with
  | skip => rfl
  | enforce =>
    unfold compareWidths
    cases checkWidths kind destination source with
    | error error => rfl
    | ok _ => rfl

/-- The checks of a request for a kind with a width, up to the choice of that width. -/
def checkOperands (request : Request) : Except BuildError Unit := do
  let _ ← request.checkForm
  let check ← request.widthCheck
  let destination := request.destination.normalize
  let source := request.source.map Argument.normalize
  checkMemory request.kind destination source
  compareWidths request.kind check destination source

/-- The operands of a request, before they get a width. -/
def draft (request : Request) : Instruction :=
  ⟨request.kind, request.destination.normalize, request.source.map Argument.normalize, none⟩

/-- A width that is given decides nothing: it is what the instruction carries if the operands pass. -/
theorem resolve_of_size {request : Request} {form : Form} {size : OperandSize}
    (hform : request.kind.form? = some form) (hsized : form.isSized = true)
    (hsize : request.size = some size) :
    request.resolve = request.checkOperands.map fun _ => { request.draft with size := some size } := by
  unfold resolve checkOperands
  dsimp only
  cases hfound : request.checkForm with
  | error error => rfl
  | ok found =>
    obtain rfl : form = found := Option.some.inj (hform.symm.trans (checkForm_eq_ok.mp hfound).1)
    cases request.widthCheck with
    | error error => rfl
    | ok check =>
      cases checkMemory request.kind request.destination.normalize
          (request.source.map Argument.normalize) with
      | error error => rfl
      | ok _ =>
        change (resolveSize request.kind form check request.size _ _ >>= _) =
          Except.map _ (compareWidths request.kind check _ _)
        rw [hsize, resolveSize_of_size hsized]
        cases compareWidths request.kind check request.destination.normalize
            (request.source.map Argument.normalize) with
        | error error => rfl
        | ok _ => rfl

/-! ### Requests that are checked first -/

theorem shift_eq_ok {default : OperandSize} {op : ShiftOp} {destination : Argument}
    {count : ShiftCount} {request : Request} :
    shift default op destination count = .ok request ↔
      ∃ argument check, count.source (.shift op) = .ok (argument, check) ∧
        request = ⟨.shift op, destination, some argument, operandSize default destination, check⟩ := by
  unfold shift
  constructor
  · intro h
    obtain ⟨⟨argument, check⟩, hcount, hmake⟩ := bind_eq_ok.mp h
    cases hmake
    exact ⟨argument, check, hcount, rfl⟩
  · rintro ⟨argument, check, hcount, rfl⟩
    exact bind_eq_ok.mpr ⟨(argument, check), hcount, rfl⟩

theorem address_eq_ok {op : AddressOp} {operand : Argument} {request : Request} :
    address op operand = .ok request ↔
      isAddress operand.value = true ∧
        request = { kind := .address op, destination := operand } := by
  unfold address
  cases haddress : isAddress operand.value with
  | false => simp
  | true => simp [eq_comm]

/-! ### Soundness -/

theorem countsBits_of_checkCount {kind : Mnemonic} {count : Argument} {check result : WidthCheck}
    (h : checkCount kind count check = .ok result) : count.normalize.CountsBits := by
  rw [Operand.countsBits_iff]
  rcases checkCount_eq_ok.mp h with ⟨hcl, -⟩ | ⟨hnumber, -⟩
  · exact Or.inl hcl
  · exact Or.inr hnumber

theorem wellFormed_of_resolve {request : Request} {instruction : Instruction}
    (h : request.resolve = .ok instruction) : instruction.WellFormed := by
  obtain ⟨form, check, size, hform, hcheck, hmemory, hsize, rfl⟩ := resolve_eq_ok.mp h
  obtain ⟨hkind, hsource⟩ := checkForm_eq_ok.mp hform
  refine ⟨⟨form, hkind, ?_, isSome_of_resolveSize hsize⟩, checkMemory_eq_ok.mp hmemory, ?_⟩
  · rw [← hsource, Option.isSome_map]
  · intro hshift
    change request.kind.isShift = true at hshift
    -- a shift has a source slot, so the count is there
    rw [Mnemonic.form?_of_isShift hshift, Option.some.injEq] at hkind
    subst hkind
    obtain ⟨count, hcount⟩ := Option.isSome_iff_exists.mp hsource
    rw [widthCheck_of_isShift hshift hcount] at hcheck
    refine ⟨count.normalize, ?_, countsBits_of_checkCount hcheck⟩
    rw [hcount]
    rfl

end Request

/-! ### Completeness -/

/-- The argument that stands for the operand. -/
def Operand.argument (operand : Operand) : Argument :=
  match operand.access with
  | .direct => .ofValue operand.value
  | .indirect displacement => .mem operand.value displacement

@[simp] theorem Operand.normalize_argument (operand : Operand) :
    operand.argument.normalize = operand := by
  obtain ⟨value, access⟩ := operand
  cases access <;> rfl

namespace Request

/-- The request rebuilt from an instruction, with its width and without a width check. -/
def ofInstruction (instruction : Instruction) : Request where
  kind := instruction.kind
  destination := instruction.destination.argument
  source := instruction.source.map Operand.argument
  size := instruction.size
  check := .skip

theorem map_normalize_argument (source : Option Operand) :
    (source.map Operand.argument).map Argument.normalize = source := by
  cases source with
  | none => rfl
  | some operand => rw [Option.map_some, Option.map_some, Operand.normalize_argument]

theorem widthCheck_ofInstruction {instruction : Instruction}
    (hcount : instruction.kind.isShift = true →
      ∃ source ∈ instruction.source, source.CountsBits) :
    (ofInstruction instruction).widthCheck = .ok .skip := by
  cases hshift : instruction.kind.isShift with
  | false => exact widthCheck_of_not_isShift hshift
  | true =>
    obtain ⟨count, hsource, hcounts⟩ := hcount hshift
    have hargument : (ofInstruction instruction).source = some count.argument := by
      change instruction.source.map Operand.argument = some count.argument
      rw [Option.mem_def.mp hsource, Option.map_some]
    rw [widthCheck_of_isShift hshift hargument]
    apply checkCount_eq_ok.mpr
    rw [Operand.normalize_argument]
    rcases Operand.countsBits_iff.mp hcounts with hcl | hnumber
    · exact Or.inl ⟨hcl, rfl⟩
    · exact Or.inr ⟨hnumber, rfl⟩

/-- No check is stronger than well-formedness, and normalizing changes nothing. -/
theorem resolve_ofInstruction {instruction : Instruction} (h : instruction.WellFormed) :
    (ofInstruction instruction).resolve = .ok instruction := by
  obtain ⟨form, hkind, hsource, hsize⟩ := h.form
  apply resolve_eq_ok.mpr
  change ∃ form check size, _ ∧ _ ∧
    checkMemory instruction.kind instruction.destination.argument.normalize
      ((instruction.source.map Operand.argument).map Argument.normalize) = .ok () ∧
    resolveSize instruction.kind form check instruction.size
      instruction.destination.argument.normalize
      ((instruction.source.map Operand.argument).map Argument.normalize) = .ok size ∧
    instruction = ⟨instruction.kind, instruction.destination.argument.normalize,
      (instruction.source.map Operand.argument).map Argument.normalize, size⟩
  rw [map_normalize_argument, Operand.normalize_argument]
  refine ⟨form, .skip, instruction.size, ?_, widthCheck_ofInstruction h.count,
    checkMemory_eq_ok.mpr h.memory, resolveSize_skip hsize _ _, rfl⟩
  apply checkForm_eq_ok.mpr
  refine ⟨hkind, ?_⟩
  rw [← hsource]
  exact Option.isSome_map

end Request
end X86Listing
