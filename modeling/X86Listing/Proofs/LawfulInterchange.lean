import X86Listing.Interchange.Builder
import X86Listing.Proofs.Schema

/-! The laws of an interchange form: the schema gives no name twice, the tree of a value is canonical, and
a canonical tree is read as the value it was written for and no other. A type inherits them from its
parts, so each form is checked on its own. -/

namespace X86Listing

open Interchange

/-- An interchange form whose canonical trees stand for one value each. -/
class LawfulInterchange (α : Type) [Interchange α] : Prop where
  wellNamed (α) : (schema α).WellNamed
  normalize?_encode (value : α) : (schema α).normalize? (encode value) = some (encode value)
  ofCanonical?_encode (value : α) : ofCanonical? (encode value) = some value
  eq_encode {tree : Json} {value : α} (h : ofCanonical? tree = some value) : tree = encode value

namespace LawfulInterchange

attribute [simp] wellNamed normalize?_encode ofCanonical?_encode

section Laws

variable {α : Type} [Interchange α] [LawfulInterchange α]

@[simp] theorem ofCanonical?_eq_some {tree : Json} {value : α} :
    ofCanonical? tree = some value ↔ tree = encode value := by
  constructor
  · exact eq_encode
  · rintro rfl
    exact ofCanonical?_encode value

/-- A value made from a part is read where the part is. -/
theorem map_ofCanonical?_eq_some {β : Type} {make : α → β} {tree : Json} {whole : β} :
    (ofCanonical? tree).map make = some whole ↔ ∃ part, tree = encode part ∧ make part = whole := by
  simp only [Option.map_eq_some_iff, ofCanonical?_eq_some]

theorem encode_injective : Function.Injective fun value : α => encode value := by
  intro left right h
  have hleft := ofCanonical?_encode left
  rw [show encode left = encode right from h, ofCanonical?_encode] at hleft
  exact (Option.some.inj hleft).symm

/-- A tree stands for a value if its canonical spelling is the tree of that value. -/
theorem decode?_eq_some {tree : Json} {value : α} :
    decode? tree = some value ↔ (schema α).normalize? tree = some (encode value) := by
  rw [decode?, Option.bind_eq_bind, Option.bind_eq_some_iff]
  constructor
  · rintro ⟨canonical, hcanonical, hvalue⟩
    rw [hcanonical, eq_encode hvalue]
  · intro h
    exact ⟨encode value, h, ofCanonical?_encode value⟩

theorem decode?_encode (value : α) : decode? (encode value) = some value :=
  decode?_eq_some.mpr (normalize?_encode value)

end Laws

instance : LawfulInterchange String where
  wellNamed := .text
  normalize?_encode _ := rfl
  ofCanonical?_encode _ := rfl
  eq_encode {tree content} h := by
    cases tree with
    | string found =>
      cases h
      rfl
    | _ => cases h

/-- A type of words: each is written as the integer it stands for, and read from no other. -/
theorem of_word {α : Type} [Interchange α] {low high : Int} (toInt : α → Int) (ofInt : Int → α)
    (hschema : schema α = .integer low high) (hencode : ∀ value, encode value = .integer (toInt value))
    (hread : ∀ tree, ofCanonical? tree = match tree with
      | .integer number => if toInt (ofInt number) = number then some (ofInt number) else none
      | _ => none)
    (hofInt : ∀ value, ofInt (toInt value) = value) (hlow : ∀ value, low ≤ toInt value)
    (hhigh : ∀ value, toInt value ≤ high) : LawfulInterchange α where
  wellNamed := by
    rw [hschema]
    exact .integer
  normalize?_encode value := by
    rw [hschema, hencode]
    exact Schema.normalize?_integer (hlow value) (hhigh value)
  ofCanonical?_encode value := by
    rw [hencode, hread]
    dsimp only
    rw [hofInt, if_pos rfl]
  eq_encode {tree value} h := by
    rw [hread] at h
    cases tree with
    | integer number =>
      obtain ⟨hnumber, hvalue⟩ := Option.ite_none_right_eq_some.mp h
      rw [hencode, ← hnumber, Option.some.inj hvalue]
    | _ => cases h

instance : LawfulInterchange UInt32 := by
  apply of_word (fun n : UInt32 => (n.toNat : Int)) (fun n => UInt32.ofNat n.toNat) rfl (fun _ => rfl)
  · intro tree
    cases tree <;> rfl
  · simp
  · intro number
    exact Int.natCast_nonneg number.toNat
  · intro number
    have hlt := number.toNat_lt
    omega

instance : LawfulInterchange UInt64 := by
  apply of_word (fun n : UInt64 => (n.toNat : Int)) (fun n => UInt64.ofNat n.toNat) rfl (fun _ => rfl)
  · intro tree
    cases tree <;> rfl
  · simp
  · intro number
    exact Int.natCast_nonneg number.toNat
  · intro number
    have hlt := number.toNat_lt
    omega

instance : LawfulInterchange Int32 := by
  apply of_word Int32.toInt Int32.ofInt rfl (fun _ => rfl)
  · intro tree
    cases tree <;> rfl
  · simp
  · exact Int32.le_toInt
  · intro number
    exact Int.le_of_lt_add_one number.toInt_lt

instance {α : Type} [Interchange α] [LawfulInterchange α] : LawfulInterchange (Array α) where
  wellNamed := .sequence (wellNamed α)
  normalize?_encode values := by
    have hitems : (values.toList.map encode).mapM (schema α).normalize? =
        some (values.toList.map encode) := by
      rw [mapM_eq_some, List.forall₂_same]
      intro item hitem
      obtain ⟨value, -, rfl⟩ := List.mem_map.mp hitem
      exact normalize?_encode value
    change (Schema.sequence (schema α)).normalize? (.array (values.toList.map encode)) = _
    rw [Schema.normalize?, hitems, Option.map_some]
    rfl
  ofCanonical?_encode values := by
    have hitems : (values.toList.map encode).mapM (ofCanonical? (α := α)) = some values.toList := by
      rw [mapM_eq_some, List.forall₂_map_left_iff, List.forall₂_same]
      intro value _
      exact ofCanonical?_encode value
    change ((values.toList.map encode).mapM (ofCanonical? (α := α))).map List.toArray = some values
    rw [hitems, Option.map_some, Array.toArray_toList]
  eq_encode {tree values} h := by
    cases tree with
    | array items =>
      obtain ⟨found, hfound, rfl⟩ := Option.map_eq_some_iff.mp h
      have hitems : List.Forall₂ (fun item value => item = encode value) items found :=
        (mapM_eq_some.mp hfound).imp fun _ _ => eq_encode
      rw [← List.forall₂_map_right_iff, List.forall₂_eq_eq_eq] at hitems
      rw [hitems]
      rfl
    | _ => cases h

theorem ofCanonical?_nullable {α : Type} [Interchange α] {tree : Json} (htree : tree ≠ .null) :
    ofCanonical? tree = (ofCanonical? tree : Option α).map some := by
  cases tree <;> first | rfl | exact absurd rfl htree

/-- An optional value is written as the value or as null, which has to mean its absence. -/
theorem option {α : Type} [Interchange α] [LawfulInterchange α]
    (hnull : ∀ value : α, encode value ≠ .null) : LawfulInterchange (Option α) where
  wellNamed := .nullable (wellNamed α)
  normalize?_encode value := by
    cases value with
    | none => rfl
    | some value =>
      change (Schema.nullable (schema α)).normalize? (encode value) = some (encode value)
      rw [Schema.normalize?_nullable (hnull value), normalize?_encode]
  ofCanonical?_encode value := by
    cases value with
    | none => rfl
    | some value =>
      change ofCanonical? (encode value) = some (some value)
      rw [ofCanonical?_nullable (hnull value), ofCanonical?_encode, Option.map_some]
  eq_encode {tree value} h := by
    cases tree with
    | null =>
      cases h
      rfl
    | _ =>
      obtain ⟨found, htree, rfl⟩ := map_ofCanonical?_eq_some.mp h
      exact htree

section Records

variable {α β : Type}

/-- A member is read from a tree of its value under its name, and what follows it is left over. -/
@[simp] theorem run_member_eq_some [Interchange α] [LawfulInterchange α] {name : String}
    {members rest : List (String × Json)} {value : α} :
    (member name).run members = some (value, rest) ↔ members = (name, encode value) :: rest := by
  cases members with
  | nil => simp [member, StateT.run]
  | cons first others =>
    obtain ⟨found, tree⟩ := first
    simp [member, StateT.run, Option.ite_none_right_eq_some, and_assoc]

/-- Members are read one after the other. -/
theorem run_member_bind_eq_some [Interchange α] [LawfulInterchange α] {name : String}
    {next : α → MemberReader β} {members rest : List (String × Json)} {result : β} :
    (member name >>= next).run members = some (result, rest) ↔
      ∃ value others, members = (name, encode value) :: others ∧
        (next value).run others = some (result, rest) := by
  rw [StateT.run_bind, Option.bind_eq_bind, Option.bind_eq_some_iff, Prod.exists]
  simp only [run_member_eq_some]

theorem run_pure_eq_some {members rest : List (String × Json)} {value result : α} :
    (pure value : MemberReader α).run members = some (result, rest) ↔ value = result ∧ members = rest := by
  rw [StateT.run_pure, Option.pure_def, Option.some.injEq, Prod.mk.injEq]

theorem ofObject?_eq_some {read : MemberReader α} {tree : Json} {value : α} :
    ofObject? read tree = some value ↔
      ∃ members, tree = .object members ∧ read.run members = some (value, []) := by
  constructor
  · intro h
    cases tree with
    | object members =>
      rw [ofObject?] at h
      split at h
      · rename_i hmembers
        cases h
        exact ⟨members, rfl, hmembers⟩
      · cases h
    | _ => cases h
  · rintro ⟨members, rfl, hmembers⟩
    rw [ofObject?, hmembers]

/-- A type of records: each is written as the object of its fields, and read from these members and no
others. -/
theorem of_record [Interchange α] {fields : List (String × Schema)}
    {members : α → List (String × Json)} {read : MemberReader α} (hschema : schema α = .ofFields fields)
    (hencode : ∀ value : α, encode value = .object (members value))
    (hofObject : (ofCanonical? : Json → Option α) = ofObject? read)
    (hnames : (fields.map Prod.fst).Nodup) (hfields : ∀ field ∈ fields, field.2.WellNamed)
    (hmembers : ∀ value, List.Forall₂ (fun field member => field.1 = member.1 ∧
      field.2.normalize? member.2 = some member.2) fields (members value))
    (hread : ∀ found value, read.run found = some (value, []) ↔ found = members value) :
    LawfulInterchange α where
  wellNamed := by
    rw [hschema, Schema.wellNamed_ofFields]
    exact ⟨hnames, hfields⟩
  normalize?_encode value := by
    rw [hschema, hencode]
    exact Schema.normalize?_ofFields hnames (hmembers value)
  ofCanonical?_encode value := by
    rw [hofObject, hencode]
    exact ofObject?_eq_some.mpr ⟨members value, rfl, (hread _ _).mpr rfl⟩
  eq_encode {tree value} h := by
    rw [hofObject] at h
    obtain ⟨found, rfl, hfound⟩ := ofObject?_eq_some.mp h
    rw [hencode, (hread found value).mp hfound]

end Records

section Enumerations

variable {α : Type} {all : List α} {tag : α → String}

/-- A value whose tag no other value has is read from its tag. -/
theorem ofTag?_tag (htags : (all.map tag).Nodup) {value : α} (hvalue : value ∈ all) :
    ofTag? all tag (.string (tag value)) = some value := by
  have hsome : (all.find? fun other => tag other = tag value).isSome = true := by
    rw [List.find?_isSome]
    exact ⟨value, hvalue, decide_eq_true rfl⟩
  obtain ⟨found, hfound⟩ := Option.isSome_iff_exists.mp hsome
  have htag : tag found = tag value := by simpa using List.find?_some hfound
  rw [ofTag?, hfound, List.inj_on_of_nodup_map htags (List.mem_of_find?_eq_some hfound) hvalue htag]

theorem eq_tag {tree : Json} {value : α} (h : ofTag? all tag tree = some value) :
    value ∈ all ∧ tree = .string (tag value) := by
  cases tree with
  | string name =>
    have htag : tag value = name := by simpa using List.find?_some h
    exact ⟨List.mem_of_find?_eq_some h, by rw [htag]⟩
  | _ => cases h

/-- A type whose values are written as their tags. -/
theorem of_tags [Interchange α] (hschema : schema α = .enumeration (all.map tag))
    (hencode : ∀ value : α, encode value = .string (tag value))
    (hread : (ofCanonical? : Json → Option α) = ofTag? all tag) (hall : ∀ value, value ∈ all)
    (htags : (all.map tag).Nodup) : LawfulInterchange α where
  wellNamed := by
    rw [hschema, Schema.enumeration, Schema.wellNamed_ofLists]
    simpa using htags
  normalize?_encode value := by
    rw [hschema, hencode]
    exact Schema.normalize?_unit (List.mem_map_of_mem (hall value))
  ofCanonical?_encode value := by
    rw [hencode, hread]
    exact ofTag?_tag htags (hall value)
  eq_encode {tree value} h := by
    rw [hread] at h
    rw [hencode]
    exact (eq_tag h).2

end Enumerations

instance : LawfulInterchange OperandSize :=
  of_tags rfl (fun _ => rfl) rfl OperandSize.mem_all (by decide)

instance : LawfulInterchange Register :=
  of_tags rfl (fun _ => rfl) rfl Register.mem_all (by decide +kernel)

instance : LawfulInterchange Condition :=
  of_tags rfl (fun _ => rfl) rfl Condition.mem_all (by decide)

private theorem nodup_names_mnemonic :
    (Mnemonic.plain.map Mnemonic.tag ++ ["Jcc", "SignExtendAx"]).Nodup := by
  decide +kernel

theorem encode_of_mem_plain {kind : Mnemonic} (h : kind ∈ Mnemonic.plain) :
    encode kind = Json.string kind.tag := by
  cases kind with
  | jumpIf condition => cases condition <;> exact absurd h (by decide)
  | implicit op =>
    cases op with
    | signExtend size => cases size <;> exact absurd h (by decide)
    | _ => rfl
  | _ => rfl

/-- A kind is written as its tag, unless it has a parameter. -/
theorem plain_or_parameter (kind : Mnemonic) :
    kind ∈ Mnemonic.plain ∨ (∃ condition, kind = .jumpIf condition) ∨
      ∃ size, kind = .implicit (.signExtend size) := by
  cases kind with
  | binary op | shift op | unary op | device op | address op =>
    left
    cases op <;> decide
  | jump => exact .inl (by decide)
  | jumpIf condition => exact .inr (.inl ⟨condition, rfl⟩)
  | implicit op =>
    cases op with
    | signExtend size => exact .inr (.inr ⟨size, rfl⟩)
    | _ => exact .inl (by decide)

instance : LawfulInterchange Mnemonic where
  wellNamed := Schema.wellNamed_ofLists.mpr ⟨nodup_names_mnemonic, by simp⟩
  normalize?_encode kind := by
    rcases plain_or_parameter kind with hplain | ⟨condition, rfl⟩ | ⟨size, rfl⟩
    · rw [encode_of_mem_plain hplain]
      exact Schema.normalize?_unit (List.mem_map_of_mem hplain)
    · exact Schema.normalize?_content nodup_names_mnemonic rfl (normalize?_encode condition)
    · exact Schema.normalize?_content nodup_names_mnemonic rfl (normalize?_encode size)
  ofCanonical?_encode kind := by
    rcases plain_or_parameter kind with hplain | ⟨condition, rfl⟩ | ⟨size, rfl⟩
    · rw [encode_of_mem_plain hplain]
      exact ofTag?_tag nodup_names_mnemonic.of_append_left hplain
    · exact congrArg (Option.map _) (ofCanonical?_encode condition)
    · exact congrArg (Option.map _) (ofCanonical?_encode size)
  eq_encode {tree kind} h := by
    unfold Mnemonic.interchange at h
    dsimp only at h
    split at h
    · obtain ⟨condition, rfl, rfl⟩ := map_ofCanonical?_eq_some.mp h
      rfl
    · obtain ⟨size, rfl, rfl⟩ := map_ofCanonical?_eq_some.mp h
      rfl
    · rw [encode_of_mem_plain (eq_tag h).1]
      exact (eq_tag h).2

instance : LawfulInterchange Symbol where
  wellNamed := .text
  normalize?_encode _ := rfl
  ofCanonical?_encode _ := rfl
  eq_encode {tree symbol} h := by
    obtain ⟨name, rfl, rfl⟩ := map_ofCanonical?_eq_some.mp h
    rfl

instance : LawfulInterchange Value where
  wellNamed := Schema.wellNamed_ofLists.mpr ⟨by decide, by simp⟩
  normalize?_encode value := by
    cases value with
    | register content | immediate content | symbol content =>
      exact Schema.normalize?_content (by decide) rfl (normalize?_encode content)
  ofCanonical?_encode value := by
    cases value with
    | register content | immediate content | symbol content =>
      exact congrArg (Option.map _) (ofCanonical?_encode content)
  eq_encode {tree value} h := by
    unfold Value.interchange at h
    dsimp only at h
    split at h
    case h_4 => cases h
    all_goals
      obtain ⟨content, rfl, rfl⟩ := map_ofCanonical?_eq_some.mp h
      rfl

instance : LawfulInterchange Access where
  wellNamed := Schema.wellNamed_ofLists.mpr ⟨by decide, by simp⟩
  normalize?_encode access := by
    cases access with
    | direct => exact Schema.normalize?_unit (.head _)
    | indirect displacement =>
      exact Schema.normalize?_content (by decide) rfl (Schema.normalize?_ofFields (by decide) (by simp))
  ofCanonical?_encode access := by
    cases access with
    | direct => rfl
    | indirect displacement => exact ofObject?_eq_some.mpr ⟨_, rfl, by simp⟩
  eq_encode {tree access} h := by
    unfold Access.interchange at h
    dsimp only at h
    split at h
    · cases h
      rfl
    · simp only [ofObject?_eq_some, run_member_bind_eq_some, run_pure_eq_some] at h
      obtain ⟨_, rfl, displacement, _, rfl, rfl, rfl⟩ := h
      rfl
    · cases h

instance : LawfulInterchange Operand := by
  apply of_record rfl (fun _ => rfl) rfl (by decide) (by simp) (fun _ => by simp)
  rintro found ⟨value, access⟩
  simp [Option.bind_eq_some_iff]

-- An operand is written as an object and a width as a string, neither of them as null.
instance : LawfulInterchange (Option Operand) := option fun _ h => by cases h

instance : LawfulInterchange (Option OperandSize) := option fun _ h => by cases h

instance : LawfulInterchange Instruction := by
  apply of_record rfl (fun _ => rfl) rfl (by decide) (by simp) (fun _ => by simp)
  rintro found ⟨kind, destination, source, size⟩
  simp [Option.bind_eq_some_iff]

instance : LawfulInterchange Constant := by
  apply of_record rfl (fun _ => rfl) rfl (by decide) (by simp) (fun _ => by simp)
  rintro found ⟨name, value⟩
  simp [Option.bind_eq_some_iff]

instance : LawfulInterchange DataValue where
  wellNamed := Schema.wellNamed_ofLists.mpr ⟨by decide, by simp⟩
  normalize?_encode value := by
    cases value with
    | integer content | string content =>
      exact Schema.normalize?_content (by decide) rfl (normalize?_encode content)
  ofCanonical?_encode value := by
    cases value with
    | integer content | string content =>
      exact congrArg (Option.map _) (ofCanonical?_encode content)
  eq_encode {tree value} h := by
    unfold DataValue.interchange at h
    dsimp only at h
    split at h
    case h_3 => cases h
    all_goals
      obtain ⟨content, rfl, rfl⟩ := map_ofCanonical?_eq_some.mp h
      rfl

instance : LawfulInterchange DataMember := by
  apply of_record rfl (fun _ => rfl) rfl (by decide) (by simp) (fun _ => by simp)
  rintro found ⟨name, value, element, count⟩
  simp [Option.bind_eq_some_iff]

instance : LawfulInterchange Statement where
  wellNamed := Schema.wellNamed_ofLists.mpr ⟨by decide, by simp⟩
  normalize?_encode statement := by
    cases statement with
    | instruction content | implicit content | label content | comment content | constant content
    | literal content =>
      exact Schema.normalize?_content (by decide) rfl (normalize?_encode content)
  ofCanonical?_encode statement := by
    cases statement with
    | instruction content | implicit content | label content | comment content | constant content
    | literal content =>
      exact congrArg (Option.map _) (ofCanonical?_encode content)
  eq_encode {tree statement} h := by
    unfold Statement.interchange at h
    dsimp only at h
    split at h
    case h_7 => cases h
    all_goals
      obtain ⟨content, rfl, rfl⟩ := map_ofCanonical?_eq_some.mp h
      rfl

instance : LawfulInterchange Program := by
  apply of_record rfl (fun _ => rfl) rfl (by decide) (by simp) (fun _ => by simp)
  rintro found ⟨statements, dataMembers⟩
  simp [Option.bind_eq_some_iff]

instance : LawfulInterchange BuildError where
  wellNamed := Schema.wellNamed_ofLists.mpr ⟨by decide, by simp⟩
  normalize?_encode error := by
    cases error with
    | conflictingIndirection | missingSize | sizeMismatch | invalidCountRegister | invalidOperands
    | limitExceeded =>
      exact Schema.normalize?_content (by decide) rfl (Schema.normalize?_ofFields (by decide) (by simp))
  ofCanonical?_encode error := by
    unfold BuildError.interchange
    cases error <;> simp [ofObject?_eq_some, Option.bind_eq_some_iff]
  eq_encode {tree error} h := by
    unfold BuildError.interchange at h
    dsimp only at h
    split at h
    case h_7 => cases h
    all_goals simp only [ofObject?_eq_some, run_member_bind_eq_some, run_pure_eq_some] at h
    · obtain ⟨_, rfl, kind, _, rfl, rfl, rfl⟩ := h
      rfl
    · obtain ⟨_, rfl, kind, _, rfl, rfl, rfl⟩ := h
      rfl
    · obtain ⟨_, rfl, kind, _, rfl, destination, _, rfl, source, _, rfl, rfl, rfl⟩ := h
      rfl
    · obtain ⟨_, rfl, kind, _, rfl, register, _, rfl, rfl, rfl⟩ := h
      rfl
    · obtain ⟨_, rfl, kind, _, rfl, detail, _, rfl, rfl, rfl⟩ := h
      rfl
    · obtain ⟨_, rfl, resource, _, rfl, limit, _, rfl, rfl, rfl⟩ := h
      rfl

instance : LawfulInterchange Limits := by
  apply of_record rfl (fun _ => rfl) rfl (by decide) (by simp) (fun _ => by simp)
  rintro found ⟨maxStatements, maxDataMembers⟩
  simp [Option.bind_eq_some_iff]

end LawfulInterchange
end X86Listing
