import X86Listing.Proofs.JsonText
import X86Listing.Proofs.LawfulInterchange

/-! Values are read back from what is written for them. A canonical tree has no fractions and exponents,
so its text is read as the same tree, and the tree as the value it was made from. -/

namespace X86Listing

open Interchange

/-- A property of every type that has an interchange form. -/
structure OnEveryType (p : (α : Type) → [Interchange α] → Prop) : Prop where
  register : p Register
  operandSize : p OperandSize
  condition : p Condition
  mnemonic : p Mnemonic
  symbol : p Symbol
  value : p Value
  access : p Access
  operand : p Operand
  instruction : p Instruction
  constant : p Constant
  dataValue : p DataValue
  dataMember : p DataMember
  statement : p Statement
  program : p Program
  buildError : p BuildError
  limits : p Limits

theorem OnEveryType.of_lawful {p : (α : Type) → [Interchange α] → Prop}
    (h : ∀ (α : Type) [Interchange α] [LawfulInterchange α], p α) : OnEveryType p where
  register := h Register
  operandSize := h OperandSize
  condition := h Condition
  mnemonic := h Mnemonic
  symbol := h Symbol
  value := h Value
  access := h Access
  operand := h Operand
  instruction := h Instruction
  constant := h Constant
  dataValue := h DataValue
  dataMember := h DataMember
  statement := h Statement
  program := h Program
  buildError := h BuildError
  limits := h Limits

/-- A canonical tree has no fractions and exponents. -/
theorem Schema.WellNamed.integral {schema : Schema} (hschema : schema.WellNamed) {tree canonical : Json}
    (h : schema.normalize? tree = some canonical) : canonical.Integral := by
  induction hschema generalizing tree canonical with
  | integer =>
    obtain ⟨number, -, -, rfl⟩ := normalize?_integer_cases h
    exact .integer number
  | text =>
    obtain ⟨content, -, rfl⟩ := normalize?_text_cases h
    exact .string content
  | nullable _ ih =>
    rcases normalize?_nullable_cases h with ⟨-, rfl⟩ | h
    · exact .null
    · exact ih h
  | sequence _ ih =>
    obtain ⟨items, values, -, rfl, hvalues⟩ := normalize?_sequence_cases h
    apply Json.Integral.array
    intro value hvalue
    obtain ⟨item, -, hitem⟩ := exists_of_mem_right hvalues hvalue
    exact ih hitem
  | record hnames _ ih =>
    obtain ⟨members, values, -, rfl, hvalues⟩ := normalize?_record_cases hnames h
    apply Json.Integral.object
    intro value hvalue
    obtain ⟨field, hfield, -, hread⟩ := exists_of_mem_right hvalues hvalue
    rcases field?_eq_some.mp hread with ⟨-, habsent⟩ | ⟨inner, -, hinner⟩
    · rw [(absent?_eq_some habsent).2]
      exact .null
    · exact ih field hfield hinner
  | choice _ _ ih =>
    rcases normalize?_choice_cases h with
      ⟨name, -, -, rfl⟩ | ⟨name, content, inner, value, hcontent, -, hvalue, rfl⟩
    · exact .string name
    · apply Json.Integral.object
      rintro member (_ | ⟨_, ⟨⟩⟩)
      exact ih _ hcontent hvalue

namespace LawfulInterchange

variable {α : Type} [Interchange α] [LawfulInterchange α]

theorem integral_encode (value : α) : (encode value).Integral :=
  (wellNamed α).integral (normalize?_encode value)

theorem parse?_encode (value : α) : Json.parse? (encode value).compact = some (encode value) :=
  Json.parse?_compact (integral_encode value)

end LawfulInterchange

namespace Interchange

/-- Every value of every type is read back from its tree and from the text of it, so no two values are
written alike. -/
theorem round_trip : OnEveryType fun α _ =>
    (∀ value : α, decode? (encode value) = some value ∧
      Json.parse? (encode value).compact >>= decode? = some value) ∧
    (Function.Injective fun value : α => encode value) ∧
    Function.Injective fun value : α => (encode value).compact := by
  apply OnEveryType.of_lawful
  intro α _ _
  have htext : ∀ value : α, Json.parse? (encode value).compact >>= decode? = some value := by
    intro value
    rw [LawfulInterchange.parse?_encode]
    exact LawfulInterchange.decode?_encode value
  refine ⟨fun value => ⟨LawfulInterchange.decode?_encode value, htext value⟩,
    LawfulInterchange.encode_injective, ?_⟩
  intro left right h
  have hleft := htext left
  rw [show (encode left).compact = (encode right).compact from h, htext right] at hleft
  exact (Option.some.inj hleft).symm

end Interchange
end X86Listing
