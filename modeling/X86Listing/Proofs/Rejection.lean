import X86Listing.Proofs.Stream

/-! Rejections. Whatever check fails, its error names the instruction kind that was asked for; only a
reached limit names none. So the error of a call tells what became of it: an operand error comes from
the emission alone, and a limit is looked at only once there is an item. -/

namespace X86Listing

/-- Whether the error is one of operands, which names the instruction kind it was found in. -/
def BuildError.isOperandError (error : BuildError) : Bool := error.kind?.isSome

/-- Whether every error of the attempt names the kind. -/
def Blames {α : Type} (kind : Mnemonic) (attempt : Except BuildError α) : Prop :=
  ∀ error, attempt = .error error → error.kind? = some kind

theorem blames_ok {α : Type} {kind : Mnemonic} {value : α} : Blames kind (.ok value) := by
  rintro _ ⟨⟩

theorem blames_error {α : Type} {kind : Mnemonic} {error : BuildError}
    (h : error.kind? = some kind) : Blames kind (.error error : Except BuildError α) := by
  rintro _ ⟨⟩
  exact h

theorem Blames.bind {α β : Type} {kind : Mnemonic} {attempt : Except BuildError α}
    {next : α → Except BuildError β} (hattempt : Blames kind attempt)
    (hnext : ∀ value, attempt = .ok value → Blames kind (next value)) :
    Blames kind (attempt >>= next) := by
  cases attempt with
  | error error => exact blames_error (hattempt error rfl)
  | ok value => exact hnext value rfl

namespace Request

theorem blames_checkForm (request : Request) : Blames request.kind request.checkForm := by
  unfold checkForm
  split
  · exact blames_error rfl
  · split
    · exact blames_error rfl
    · exact blames_error rfl
    · exact blames_ok

theorem blames_checkCount (kind : Mnemonic) (count : Argument) (check : WidthCheck) :
    Blames kind (checkCount kind count check) := by
  unfold checkCount
  split
  · exact blames_error rfl
  · split
    · exact blames_ok
    · exact blames_error rfl
    · exact blames_ok
    · exact blames_error rfl

theorem blames_widthCheck (request : Request) : Blames request.kind request.widthCheck := by
  unfold widthCheck
  split
  · exact blames_checkCount request.kind _ request.check
  · exact blames_ok

theorem blames_checkMemory (kind : Mnemonic) (destination : Operand) (source : Option Operand) :
    Blames kind (checkMemory kind destination source) := by
  unfold checkMemory
  split
  · exact blames_error rfl
  · exact blames_ok

theorem blames_checkWidths (kind : Mnemonic) (destination : Operand) (source : Option Operand) :
    Blames kind (checkWidths kind destination source) := by
  unfold checkWidths
  split
  · split
    · exact blames_ok
    · exact blames_error rfl
  · exact blames_ok

theorem blames_pickSize (kind : Mnemonic) (explicit : Option OperandSize) (destination : Operand)
    (source : Option Operand) : Blames kind (pickSize kind explicit destination source) := by
  unfold pickSize
  split
  · exact blames_ok
  · split
    · exact blames_error rfl
    · split
      · exact blames_ok
      · exact blames_error rfl

theorem blames_resolveSize (kind : Mnemonic) (form : Form) (check : WidthCheck)
    (explicit : Option OperandSize) (destination : Operand) (source : Option Operand) :
    Blames kind (resolveSize kind form check explicit destination source) := by
  have hpick : Blames kind do
      return some (← pickSize kind explicit destination source) :=
    (blames_pickSize kind explicit destination source).bind fun _ _ => blames_ok
  unfold resolveSize
  split
  · cases check with
    | enforce => exact (blames_checkWidths kind destination source).bind fun _ _ => hpick
    | skip => exact hpick
  · exact blames_ok

/-- Every error of a request names its kind. -/
theorem blames_resolve (request : Request) : Blames request.kind request.resolve := by
  unfold resolve
  refine request.blames_checkForm.bind fun form _ => request.blames_widthCheck.bind fun check _ => ?_
  refine (blames_checkMemory request.kind _ _).bind fun _ _ => ?_
  exact (blames_resolveSize request.kind form check request.size _ _).bind fun _ _ => blames_ok

theorem blames_shift (default : OperandSize) (op : ShiftOp) (destination : Argument)
    (count : ShiftCount) : Blames (.shift op) (shift default op destination count) := by
  have hcount : Blames (.shift op) (count.source (.shift op)) := by
    unfold ShiftCount.source
    split
    · exact blames_ok
    · exact blames_ok
    · exact blames_error rfl
  exact hcount.bind fun _ _ => blames_ok

theorem blames_address (op : AddressOp) (operand : Argument) :
    Blames (.address op) (address op operand) := by
  unfold address
  split
  · exact blames_ok
  · exact blames_error rfl

end Request

namespace Emission

/-- The kind of the instruction that is asked for, if it is one with operands. -/
def kind? : Emission → Option Mnemonic
  | .instruction request => some request.kind
  | .binary op _ _ => some (.binary op)
  | .shift op _ _ => some (.shift op)
  | .unary op _ => some (.unary op)
  | .jump _ => some .jump
  | .jumpIf condition _ => some (.jumpIf condition)
  | .address op _ => some (.address op)
  | .writeDevice _ => some (.device .output)
  | .readDevice _ => some (.device .input)
  | .byteStore _ _ => some (.binary .mov)
  | _ => none

theorem blames_resolved (request : Request) : Blames request.kind (resolved request) := by
  intro error h
  unfold resolved at h
  cases hresolve : request.resolve with
  | ok instruction =>
    rw [hresolve] at h
    cases h
  | error found =>
    rw [hresolve] at h
    cases h
    exact request.blames_resolve _ hresolve

/-- Every error of an emission names the kind that was asked for. -/
theorem kind?_of_item_error {default : OperandSize} {emission : Emission} {error : BuildError}
    (h : emission.item default = .error error) :
    ∃ kind, emission.kind? = some kind ∧ error.kind? = some kind := by
  cases emission with
  | instruction request => exact ⟨_, rfl, blames_resolved request error h⟩
  | binary op destination source => exact ⟨_, rfl, blames_resolved _ error h⟩
  | shift op destination count =>
    refine ⟨_, rfl, (Request.blames_shift default op destination count).bind ?_ error h⟩
    intro request hrequest
    obtain ⟨argument, check, -, rfl⟩ := Request.shift_eq_ok.mp hrequest
    exact blames_resolved _
  | unary op operand => exact ⟨_, rfl, blames_resolved _ error h⟩
  | jump name => exact ⟨_, rfl, blames_resolved _ error h⟩
  | jumpIf condition name => exact ⟨_, rfl, blames_resolved _ error h⟩
  | address op operand =>
    refine ⟨_, rfl, (Request.blames_address op operand).bind ?_ error h⟩
    intro request hrequest
    obtain ⟨-, rfl⟩ := Request.address_eq_ok.mp hrequest
    exact blames_resolved _
  | writeDevice register => exact ⟨_, rfl, blames_resolved _ error h⟩
  | readDevice register => exact ⟨_, rfl, blames_resolved _ error h⟩
  | _ => cases h

theorem isOperandError_of_item_error {default : OperandSize} {emission : Emission}
    {error : BuildError} (h : emission.item default = .error error) :
    error.isOperandError = true := by
  obtain ⟨kind, -, hkind⟩ := kind?_of_item_error h
  exact Option.isSome_iff_exists.mpr ⟨kind, hkind⟩

end Emission
end X86Listing
