import X86Listing.Proofs.Escapes
import X86Listing.Proofs.InstructionText

/-! Reading a data declaration off its line. The name ends at the first blank. What stands next tells whether
there is a repetition, since no directive starts like one, and the first character of the value tells a number
from a string. So for names without blanks the line determines the declaration, down to the bytes of its
string. -/

namespace X86Listing

open Text

theorem Text.avoids_decimal (n : Nat) : Avoids [' '] (decimal n) := by
  unfold Avoids decimal
  rw [String.toList_ofList]
  intro c hc hblank
  have hdigit : c.isDigit = true := Nat.isDigit_of_mem_toDigits (by decide) (by decide) hc
  rw [List.mem_singleton.mp hblank] at hdigit
  exact absurd hdigit (by decide)

theorem Text.startsWith_blank (text : String) : StartsWith [' '] (" " ++ text) :=
  startsWith_append rfl (by decide) text

theorem Text.Backquoted.head?_write (s : String) : (write s).toList.head? = some quote := by
  unfold write chars
  rw [String.toList_ofList]
  rfl

namespace OperandSize

theorem directive_inj {size other : OperandSize} (h : size.directive = other.directive) :
    size = other := by
  have hdirectives : ∀ size ∈ all, ∀ other ∈ all, size.directive = other.directive → size = other := by
    decide
  exact hdirectives size size.mem_all other other.mem_all h

theorem avoids_directive (size : OperandSize) : Avoids [' '] size.directive := by
  cases size <;> decide

theorem head?_directive (size : OperandSize) : size.directive.toList.head? = some 'd' := by
  cases size <;> decide

end OperandSize

namespace DataValue

/-- The first character of a value is a digit or a backquote. -/
theorem text_integer_ne_string (number : UInt32) (content : String) :
    (integer number).text ≠ (string content).text := by
  intro h
  have hhead : (string content).text.toList.head? = some Backquoted.quote := by
    change (Backquoted.write content ++ ", 0").toList.head? = _
    rw [String.toList_append, List.head?_append, Backquoted.head?_write, Option.some_or]
  rw [← h] at hhead
  change (hexadecimal number.toNat).toList.head? = _ at hhead
  rw [head?_hexadecimal] at hhead
  exact absurd hhead (by decide)

theorem text_inj {value other : DataValue} (h : value.text = other.text) : value = other := by
  cases value with
  | integer number =>
    cases other with
    | integer number' => rw [UInt32.toNat_inj.mp (hexadecimal_inj h)]
    | string content => exact absurd h (text_integer_ne_string number content)
  | string content =>
    cases other with
    | integer number => exact absurd h.symm (text_integer_ne_string number content)
    | string content' =>
      have hwritten : Backquoted.write content = Backquoted.write content' :=
        (String.append_left_inj ", 0").mp h
      rw [Backquoted.write_injective hwritten]

end DataValue

namespace DataMember

/-- What is repeated. -/
def elementText (element : OperandSize) (value : DataValue) : String :=
  element.directive ++ (" " ++ value.text)

theorem head?_elementText (element : OperandSize) (value : DataValue) :
    (elementText element value).toList.head? = some 'd' := by
  unfold elementText
  rw [String.toList_append, List.head?_append, element.head?_directive, Option.some_or]

theorem elementText_inj {element other : OperandSize} {value otherValue : DataValue}
    (h : elementText element value = elementText other otherValue) :
    element = other ∧ value = otherValue := by
  obtain ⟨hdirectives, hvalues⟩ := append_inj_of_stops element.avoids_directive other.avoids_directive
    (startsWith_blank _) (startsWith_blank _) h
  exact ⟨OperandSize.directive_inj hdirectives,
    DataValue.text_inj ((String.append_right_inj " ").mp hvalues)⟩

theorem repetitionText_of_ne {count : UInt32} (hcount : count ≠ 1) (later : String) :
    repetitionText count ++ later = "times " ++ (decimal count.toNat ++ (" " ++ later)) := by
  unfold repetitionText
  rw [if_neg hcount, String.append_assoc, String.append_assoc]

theorem repetitionText_one (later : String) : repetitionText 1 ++ later = later :=
  String.empty_append

theorem eq_one_of_repetitionText_append {count : UInt32} {later : String} {element : OperandSize}
    {value : DataValue} (h : repetitionText count ++ later = elementText element value) : count = 1 := by
  by_cases hcount : count = 1
  · exact hcount
  · have hhead := head?_elementText element value
    rw [← h, repetitionText_of_ne hcount, String.toList_append] at hhead
    cases hhead

/-- The count is read off even where it is not written. -/
theorem repetitionText_append_inj {count otherCount : UInt32} {element other : OperandSize}
    {value otherValue : DataValue}
    (h : repetitionText count ++ elementText element value =
      repetitionText otherCount ++ elementText other otherValue) :
    count = otherCount ∧ elementText element value = elementText other otherValue := by
  by_cases hcount : count = 1
  · subst hcount
    rw [repetitionText_one] at h
    obtain rfl := eq_one_of_repetitionText_append h.symm
    rw [repetitionText_one] at h
    exact ⟨rfl, h⟩
  · by_cases hother : otherCount = 1
    · subst hother
      rw [repetitionText_one] at h
      exact absurd (eq_one_of_repetitionText_append h) hcount
    · rw [repetitionText_of_ne hcount, repetitionText_of_ne hother, String.append_right_inj] at h
      obtain ⟨hcounts, helements⟩ := append_inj_of_stops (avoids_decimal _) (avoids_decimal _)
        (startsWith_blank _) (startsWith_blank _) h
      exact ⟨UInt32.toNat_inj.mp (decimal_inj hcounts), (String.append_right_inj " ").mp helements⟩

theorem text_eq_words (member : DataMember) :
    member.text = member.name ++
      (" " ++ (repetitionText member.count ++ elementText member.element member.value)) := by
  unfold text elementText
  simp only [String.append_assoc]

/-- The line of a declaration determines the declaration: its name, its count, the width of its elements, and
whether its value is a number or a string, and which. It only takes names that hold no blank. -/
theorem text_determines_declaration (member other : DataMember) (hname : Avoids [' '] member.name)
    (hother : Avoids [' '] other.name) (h : member.text = other.text) : member = other := by
  rw [text_eq_words, text_eq_words] at h
  -- no name holds a blank, so the first one ends it
  obtain ⟨hnames, hrest⟩ := append_inj_of_stops hname hother (startsWith_blank _) (startsWith_blank _) h
  obtain ⟨hcounts, helements⟩ := repetitionText_append_inj ((String.append_right_inj " ").mp hrest)
  obtain ⟨helement, hvalue⟩ := elementText_inj helements
  obtain ⟨name, value, element, count⟩ := member
  obtain ⟨name', value', element', count'⟩ := other
  rw [DataMember.mk.injEq]
  exact ⟨hnames, hvalue, helement, hcounts⟩

/-- A number and an array of one such number share the line, and are one declaration; with no element at all
the line is another. A name with a blank in it can take the words of a repetition for itself. -/
theorem text_determines_declaration_of_one :
    let one := array "ticks" 1 .dword 7
    let none := array "ticks" 0 .dword 7
    (Avoids [' '] one.name ∧ Avoids [' '] (scalar "ticks" 7).name ∧ one.text = "ticks dd 0x7") ∧
    one.text = (scalar "ticks" 7).text ∧ one = scalar "ticks" 7 ∧ one.text ≠ none.text ∧
    (scalar "ticks times 2" 7).text = (array "ticks" 2 .dword 7).text := by
  intro one none
  have hname : Avoids [' '] "ticks" := by decide
  have htext : one.text = (scalar "ticks" 7).text := rfl
  refine ⟨⟨hname, hname, by decide⟩, htext, ?_, ?_, by decide⟩
  · exact text_determines_declaration one (scalar "ticks" 7) hname hname htext
  · intro hnone
    have hsame := text_determines_declaration one none hname hname hnone
    exact absurd hsame (by decide)

end DataMember
end X86Listing
