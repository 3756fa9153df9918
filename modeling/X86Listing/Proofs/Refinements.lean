import Mathlib.Data.List.Induction
import X86Listing.Argument

/-! Refining an argument. Refinements keep the value; of the displacements and of the widths that are given the
last counts, and one displacement or mark is enough to make the argument indirect, whatever comes before or
after it. So what an argument stands for does not depend on the order in which its parts are given. -/

namespace X86Listing

namespace Refinement

/-- The displacement that is given. -/
def offset? : Refinement → Option Int32
  | .displacement offset => some offset
  | .indirect | .sized _ => none

/-- The width that is given. -/
def size? : Refinement → Option OperandSize
  | .sized size => some size
  | .indirect | .displacement _ => none

/-- Whether it makes an argument indirect. -/
def makesIndirect : Refinement → Bool
  | .indirect | .displacement _ => true
  | .sized _ => false

/-- The displacement that is given last. -/
def lastOffset? (refinements : List Refinement) : Option Int32 :=
  (refinements.filterMap offset?).getLast?

/-- The width that is given last. -/
def lastSize? (refinements : List Refinement) : Option OperandSize :=
  (refinements.filterMap size?).getLast?

end Refinement

namespace Argument

open Refinement

/-- How an argument is made from a value, before it is refined. -/
inductive Origin where
  | direct
  | deref
  | mem (offset : Int32)
  deriving DecidableEq

namespace Origin

/-- The argument that is made. -/
def argument (value : Value) : Origin → Argument
  | .direct => .ofValue value
  | .deref => .deref value
  | .mem offset => .mem value offset

/-- Whether the argument that is made is indirect. -/
def isIndirect : Origin → Bool
  | .direct => false
  | .deref | .mem _ => true

/-- The displacement that the argument is made with. -/
def offset? : Origin → Option Int32
  | .mem offset => some offset
  | .direct | .deref => none

theorem value_argument (value : Value) (origin : Origin) : (origin.argument value).value = value := by
  cases origin <;> rfl

theorem isIndirect_argument (value : Value) (origin : Origin) :
    (origin.argument value).isIndirect = origin.isIndirect := by
  cases origin <;> rfl

theorem offset_argument (value : Value) (origin : Origin) :
    (origin.argument value).offset = origin.offset? := by
  cases origin <;> rfl

theorem sizeHint_argument (value : Value) (origin : Origin) :
    (origin.argument value).sizeHint = none := by
  cases origin <;> rfl

end Origin

/-! ### One refinement -/

theorem value_refine (argument : Argument) (refinement : Refinement) :
    (argument.refine refinement).value = argument.value := by
  cases refinement <;> rfl

theorem offset_refine (argument : Argument) (refinement : Refinement) :
    (argument.refine refinement).offset = refinement.offset?.or argument.offset := by
  cases refinement <;> rfl

theorem sizeHint_refine (argument : Argument) (refinement : Refinement) :
    (argument.refine refinement).sizeHint = refinement.size?.or argument.sizeHint := by
  cases refinement <;> rfl

theorem isIndirect_refine (argument : Argument) (refinement : Refinement) :
    (argument.refine refinement).isIndirect = (argument.isIndirect || refinement.makesIndirect) := by
  cases refinement with
  | indirect => exact (Bool.or_true _).symm
  | displacement offset => exact (Bool.or_true _).trans (Bool.or_true _).symm
  | sized size => exact (Bool.or_false _).symm

/-! ### A sequence of refinements -/

variable (start : Argument) (refinements : List Refinement)

theorem value_foldl_refine : (refinements.foldl refine start).value = start.value := by
  induction refinements generalizing start with
  | nil => rfl
  | cons refinement refinements ih => rw [List.foldl_cons, ih, value_refine]

/-- A part that each refinement replaces or keeps is the one that was given last. -/
theorem last_foldl_refine {α : Type} {part : Argument → Option α} {given? : Refinement → Option α}
    (hstep : ∀ argument refinement,
      part (argument.refine refinement) = (given? refinement).or (part argument)) :
    part (refinements.foldl refine start) =
      (refinements.filterMap given?).getLast?.or (part start) := by
  -- the last refinement decides, so the sequence is taken apart at its end
  induction refinements using List.reverseRecOn with
  | nil => rfl
  | append_singleton refinements refinement ih =>
    have hlast : ([refinement].filterMap given?).getLast? = given? refinement := by
      rw [List.filterMap_cons]
      cases given? refinement <;> rfl
    rw [List.foldl_append, List.foldl_cons, List.foldl_nil, hstep, ih, List.filterMap_append,
      List.getLast?_append, hlast, Option.or_assoc]

theorem offset_foldl_refine :
    (refinements.foldl refine start).offset = (lastOffset? refinements).or start.offset :=
  last_foldl_refine start refinements offset_refine

theorem sizeHint_foldl_refine :
    (refinements.foldl refine start).sizeHint = (lastSize? refinements).or start.sizeHint :=
  last_foldl_refine start refinements sizeHint_refine

theorem isIndirect_foldl_refine :
    (refinements.foldl refine start).isIndirect =
      (start.isIndirect || refinements.any makesIndirect) := by
  induction refinements generalizing start with
  | nil => exact (Bool.or_false _).symm
  | cons refinement refinements ih =>
    rw [List.foldl_cons, ih, isIndirect_refine, List.any_cons, Bool.or_assoc]

theorem normalize_eq (argument : Argument) :
    argument.normalize =
      if argument.isIndirect then .indirect argument.value (argument.offset.getD 0)
      else .direct argument.value := by
  obtain ⟨value, marked, offset, sizeHint⟩ := argument
  cases offset <;> cases marked <;> rfl

/-- What a sequence of refinements comes to, whichever way the argument was made. The value stays. The argument
is indirect exactly if it was made so or is ever marked or given a displacement, and so is its operand, at the
displacement that was given last, or else the one it was made with, or else zero. The hint is the width that was
given last. Hence two sequences that agree in these three give the same operand and the same hint. -/
theorem refinements_in_any_order (value : Value) (origin : Origin) (refinements : List Refinement) :
    let argument := refinements.foldl refine (origin.argument value)
    argument.value = value ∧
    (argument.isIndirect = true ↔
      origin.isIndirect = true ∨ ∃ refinement ∈ refinements, refinement.makesIndirect = true) ∧
    argument.normalize.isIndirect = argument.isIndirect ∧
    argument.normalize =
      (if argument.isIndirect then
        .indirect value (((lastOffset? refinements).or origin.offset?).getD 0)
      else .direct value) ∧
    argument.sizeHint = lastSize? refinements ∧
    ∀ others : List Refinement,
      let other := others.foldl refine (origin.argument value)
      lastOffset? others = lastOffset? refinements → lastSize? others = lastSize? refinements →
      other.isIndirect = argument.isIndirect →
      other.normalize = argument.normalize ∧ other.sizeHint = argument.sizeHint := by
  intro argument
  have hnormalize (calls : List Refinement) :
      (calls.foldl refine (origin.argument value)).normalize =
        if (calls.foldl refine (origin.argument value)).isIndirect then
          .indirect value (((lastOffset? calls).or origin.offset?).getD 0)
        else .direct value := by
    rw [normalize_eq, value_foldl_refine, offset_foldl_refine, origin.value_argument,
      origin.offset_argument]
  have hhint (calls : List Refinement) :
      (calls.foldl refine (origin.argument value)).sizeHint = lastSize? calls := by
    rw [sizeHint_foldl_refine, origin.sizeHint_argument, Option.or_none]
  refine ⟨?_, ?_, argument.isIndirect_normalize, hnormalize refinements, hhint refinements, ?_⟩
  · exact (value_foldl_refine _ refinements).trans (origin.value_argument value)
  · change (refinements.foldl refine (origin.argument value)).isIndirect = true ↔ _
    rw [isIndirect_foldl_refine, origin.isIndirect_argument, Bool.or_eq_true, List.any_eq_true]
  · intro others other hoffset hsize hindirect
    constructor
    · rw [hnormalize others, hnormalize refinements, hoffset, hindirect]
    · rw [hhint others, hhint refinements, hsize]

/-- A displacement of zero is given last, and replaces both the earlier one and the one that the argument was
made with; the mark after it changes nothing. -/
theorem refinements_in_any_order_at_zero :
    let value : Value := .register (.pointer .bp .dword)
    let refinements : List Refinement :=
      [.displacement (-8), .sized .byte, .displacement 0, .indirect, .sized .word]
    let others : List Refinement := [.sized .word, .displacement 0]
    let argument := refinements.foldl refine (mem value 4)
    let other := others.foldl refine (mem value 4)
    lastOffset? others = lastOffset? refinements ∧ lastSize? others = lastSize? refinements ∧
    other.isIndirect = argument.isIndirect ∧
    argument.normalize = .indirect value 0 ∧ other.normalize = argument.normalize ∧
    other.sizeHint = argument.sizeHint ∧ argument.sizeHint = some .word := by
  intro value refinements others argument other
  obtain ⟨-, -, -, hnormalize, hhint, hothers⟩ :=
    refinements_in_any_order value (.mem 4) refinements
  obtain ⟨hoperand, hsame⟩ := hothers others rfl rfl rfl
  exact ⟨rfl, rfl, rfl, hnormalize, hoperand, hsame, hhint⟩

end Argument
end X86Listing
