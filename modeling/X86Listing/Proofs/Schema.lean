import Mathlib.Data.List.Forall2
import Mathlib.Data.List.Nodup
import X86Listing.Json.Schema

/-! What a schema asks of a tree, one construct at a time. The laws are about schemas that give no name
twice. A record is then read field by field from the members of an object, whatever their order, and an
array is read as the object that names its items. -/

namespace X86Listing

namespace Fields

/-- The fields with their names, in the order they are written. -/
def toList : Fields → List (String × Schema)
  | .nil => []
  | .cons name content rest => (name, content) :: rest.toList

/-- Names of the fields. -/
def names (fields : Fields) : List String := fields.toList.map Prod.fst

@[simp] theorem toList_ofList (fields : List (String × Schema)) : (ofList fields).toList = fields := by
  induction fields with
  | nil => rfl
  | cons field rest ih => rw [ofList, toList, ih]

@[simp] theorem names_ofList (fields : List (String × Schema)) :
    (ofList fields).names = fields.map Prod.fst := by
  rw [names, toList_ofList]

@[elab_as_elim]
theorem induction {motive : Fields → Prop} (nil : motive .nil)
    (cons : ∀ name content rest, motive rest → motive (.cons name content rest)) :
    ∀ fields, motive fields
  | .nil => nil
  | .cons name content rest => cons name content rest (induction nil cons rest)

end Fields

namespace Alternatives

/-- Names of the alternatives without content. -/
def units : Alternatives → List String
  | .nil => []
  | .unit name rest => name :: rest.units
  | .carrying _ _ rest => rest.units

/-- The alternatives with content, with their names. -/
def contents : Alternatives → List (String × Schema)
  | .nil => []
  | .unit _ rest => rest.contents
  | .carrying name content rest => (name, content) :: rest.contents

/-- Names of the alternatives. -/
def names (alternatives : Alternatives) : List String :=
  alternatives.units ++ alternatives.contents.map Prod.fst

theorem units_ofList (contents : List (String × Schema)) : (ofList contents).units = [] := by
  induction contents with
  | nil => rfl
  | cons carried rest ih => exact ih

theorem contents_ofList (contents : List (String × Schema)) : (ofList contents).contents = contents := by
  induction contents with
  | nil => rfl
  | cons carried rest ih => rw [ofList, Alternatives.contents, ih]

@[simp] theorem units_ofLists (units : List String) (contents : List (String × Schema)) :
    (ofLists units contents).units = units := by
  induction units with
  | nil => exact units_ofList contents
  | cons name rest ih => rw [ofLists, Alternatives.units, ih]

@[simp] theorem contents_ofLists (units : List String) (contents : List (String × Schema)) :
    (ofLists units contents).contents = contents := by
  induction units with
  | nil => exact contents_ofList contents
  | cons name rest ih => rw [ofLists, Alternatives.contents, ih]

@[elab_as_elim]
theorem induction {motive : Alternatives → Prop} (nil : motive .nil)
    (unit : ∀ name rest, motive rest → motive (.unit name rest))
    (carrying : ∀ name content rest, motive rest → motive (.carrying name content rest)) :
    ∀ alternatives, motive alternatives
  | .nil => nil
  | .unit name rest => unit name rest (induction nil unit carrying rest)
  | .carrying name content rest => carrying name content rest (induction nil unit carrying rest)

end Alternatives

namespace Schema

/-- No record and no choice of the schema, at any depth, gives a name twice. -/
inductive WellNamed : Schema → Prop where
  | integer {low high : Int} : WellNamed (.integer low high)
  | text : WellNamed .text
  | nullable {content : Schema} (hcontent : WellNamed content) : WellNamed (.nullable content)
  | sequence {item : Schema} (hitem : WellNamed item) : WellNamed (.sequence item)
  | record {fields : Fields} (hnames : fields.names.Nodup)
      (hfields : ∀ field ∈ fields.toList, WellNamed field.2) : WellNamed (.record fields)
  | choice {alternatives : Alternatives} (hnames : alternatives.names.Nodup)
      (hcontents : ∀ carried ∈ alternatives.contents, WellNamed carried.2) :
      WellNamed (.choice alternatives)

/-- The canonical spelling of one field of a record, from the members of an object. -/
def field? (content : Schema) (name : String) (members : List (String × Json)) : Option Json :=
  match members.filter (·.1 = name) with
  | [] => content.absent?
  | [(_, tree)] => content.normalize? tree
  | _ => none

theorem field?_congr {content : Schema} {name : String} {members others : List (String × Json)}
    (h : members.filter (·.1 = name) = others.filter (·.1 = name)) :
    content.field? name members = content.field? name others := by
  rw [field?, field?, h]

/-- A field is read from its only member, or taken as absent. -/
theorem field?_eq_some {content : Schema} {name : String} {members : List (String × Json)}
    {value : Json} :
    content.field? name members = some value ↔
      (members.filter (·.1 = name) = [] ∧ content.absent? = some value) ∨
        ∃ tree, members.filter (·.1 = name) = [(name, tree)] ∧ content.normalize? tree = some value := by
  rw [field?]
  split
  · rename_i hnone
    simp [hnone]
  · rename_i found tree hone
    have hname : found = name := by
      have hmem : (found, tree) ∈ members.filter (·.1 = name) := by simp [hone]
      simpa using (List.mem_filter.mp hmem).2
    subst hname
    simp [hone]
  · rename_i hnone hone
    simp only [reduceCtorEq, false_iff]
    rintro (⟨h, -⟩ | ⟨tree, h, -⟩)
    · exact hnone h
    · exact hone name tree h

/-- Only a field that may be null can be left out. -/
theorem absent?_eq_some {content : Schema} {value : Json} (h : content.absent? = some value) :
    (∃ inner, content = .nullable inner) ∧ value = .null := by
  cases content with
  | nullable inner =>
    cases h
    exact ⟨⟨inner, rfl⟩, rfl⟩
  | _ => cases h

end Schema

/-- What each field is given by the members of an object, in the order of the fields. -/
abbrev FieldsRead (members : List (String × Json)) :
    List (String × Schema) → List (String × Json) → Prop :=
  List.Forall₂ fun field value => field.1 = value.1 ∧ field.2.field? field.1 members = some value.2

theorem mapM_eq_some {α β : Type} {f : α → Option β} {items : List α} {results : List β} :
    items.mapM f = some results ↔
      List.Forall₂ (fun item result => f item = some result) items results := by
  induction items generalizing results with
  | nil => simp [eq_comm]
  | cons item items ih =>
    rw [List.mapM_cons, Option.bind_eq_bind, Option.bind_eq_some_iff]
    constructor
    · rintro ⟨result, hresult, h⟩
      obtain ⟨rest, hrest, heq⟩ := Option.bind_eq_some_iff.mp h
      cases heq
      exact .cons hresult (ih.mp hrest)
    · rintro (_ | ⟨hresult, hrest⟩)
      exact ⟨_, hresult, by rw [ih.mpr hrest]; rfl⟩

theorem exists_of_mem_right {α β : Type} {related : α → β → Prop} {lefts : List α} {rights : List β}
    (h : List.Forall₂ related lefts rights) {right : β} (hright : right ∈ rights) :
    ∃ left ∈ lefts, related left right := by
  induction h with
  | nil => cases hright
  | @cons first _ lefts _ hfirst _ ih =>
    rcases List.mem_cons.mp hright with rfl | hright
    · exact ⟨first, List.mem_cons_self, hfirst⟩
    · obtain ⟨left, hleft, hrelated⟩ := ih hright
      exact ⟨left, List.mem_cons_of_mem first hleft, hrelated⟩

theorem map_fst_eq {α β : Type} {related : String × α → String × β → Prop}
    {lefts : List (String × α)} {rights : List (String × β)}
    (h : List.Forall₂ (fun left right => left.1 = right.1 ∧ related left right) lefts rights) :
    rights.map Prod.fst = lefts.map Prod.fst := by
  induction h with
  | nil => rfl
  | cons hhead _ ih => rw [List.map_cons, List.map_cons, ih, hhead.1]

namespace Fields

@[simp] theorem names_cons (name : String) (content : Schema) (rest : Fields) :
    (Fields.cons name content rest).names = name :: rest.names := rfl

theorem ofMembers?_cons (name : String) (content : Schema) (rest : Fields)
    (members : List (String × Json)) :
    (Fields.cons name content rest).ofMembers? members =
      (content.field? name members).bind fun value =>
        (rest.ofMembers? members).bind fun canonical => some ((name, value) :: canonical) := by
  rw [ofMembers?, Schema.field?]
  generalize members.filter (·.1 = name) = found
  rcases found with _ | ⟨only, _ | ⟨second, others⟩⟩ <;> rfl

/-- Reading an object looks at each field on its own. -/
theorem ofMembers?_eq_some {fields : Fields} {members canonical : List (String × Json)} :
    fields.ofMembers? members = some canonical ↔ FieldsRead members fields.toList canonical := by
  induction fields using Fields.induction generalizing canonical with
  | nil => simp [ofMembers?, toList, eq_comm]
  | cons name content rest ih =>
    rw [ofMembers?_cons, toList, Option.bind_eq_some_iff]
    constructor
    · rintro ⟨value, hvalue, h⟩
      obtain ⟨others, hothers, heq⟩ := Option.bind_eq_some_iff.mp h
      cases heq
      exact .cons ⟨rfl, hvalue⟩ (ih.mp hothers)
    · intro h
      cases h with
      | @cons _ member _ others hhead hothers =>
        obtain ⟨found, value⟩ := member
        obtain ⟨rfl, hvalue⟩ := hhead
        exact ⟨value, hvalue, by rw [ih.mpr hothers, Option.bind_some]⟩

/-- Only the members with the names of the fields matter. -/
theorem ofMembers?_congr {fields : Fields} {members others : List (String × Json)}
    (h : ∀ name ∈ fields.names, members.filter (·.1 = name) = others.filter (·.1 = name)) :
    fields.ofMembers? members = fields.ofMembers? others := by
  induction fields using Fields.induction with
  | nil => rw [ofMembers?, ofMembers?]
  | cons name content rest ih =>
    rw [names_cons, List.forall_mem_cons] at h
    rw [ofMembers?_cons, ofMembers?_cons, Schema.field?_congr h.1, ih h.2]

/-- A field whose name comes first is read from the first member, the others from the rest. -/
theorem ofMembers?_cons_cons {name : String} {content : Schema} {rest : Fields}
    (hname : name ∉ rest.names) {tree : Json} {members : List (String × Json)}
    (hmembers : ∀ member ∈ members, member.1 ∈ rest.names) :
    (Fields.cons name content rest).ofMembers? ((name, tree) :: members) =
      (content.normalize? tree).bind fun value =>
        (rest.ofMembers? members).bind fun canonical => some ((name, value) :: canonical) := by
  have hnone : members.filter (·.1 = name) = [] := by
    rw [List.filter_eq_nil_iff]
    intro member hmember
    simp only [decide_eq_true_eq]
    intro heq
    exact hname (heq ▸ hmembers member hmember)
  have hfirst : content.field? name ((name, tree) :: members) = content.normalize? tree := by
    rw [Schema.field?, List.filter_cons_of_pos (by simp), hnone]
  have hothers : rest.ofMembers? ((name, tree) :: members) = rest.ofMembers? members := by
    apply ofMembers?_congr
    intro other hother
    apply List.filter_cons_of_neg
    simp only [decide_eq_true_eq]
    intro heq
    exact hname (heq ▸ hother)
  rw [ofMembers?_cons, hfirst, hothers]

/-- An array of all fields is read as the object that gives each item the name of its field. -/
theorem ofItems?_eq_some {fields : Fields} (hnames : fields.names.Nodup) {items : List Json}
    {canonical : List (String × Json)} :
    fields.ofItems? items = some canonical ↔
      items.length = fields.names.length ∧
        fields.ofMembers? (fields.names.zip items) = some canonical := by
  induction fields using Fields.induction generalizing items canonical with
  | nil =>
    cases items with
    | nil => simp [ofItems?, ofMembers?, names, toList]
    | cons tree items => simp [ofItems?, names, toList]
  | cons name content rest ih =>
    rw [names_cons, List.nodup_cons] at hnames
    cases items with
    | nil => simp [ofItems?, names_cons]
    | cons tree items =>
      have hmembers : ∀ member ∈ rest.names.zip items, member.1 ∈ rest.names :=
        fun member hmember => (List.of_mem_zip hmember).1
      rw [ofItems?, names_cons, List.zip_cons_cons, ofMembers?_cons_cons hnames.1 hmembers]
      simp only [Option.bind_eq_bind, Option.bind_eq_some_iff, ih hnames.2, List.length_cons,
        Nat.add_right_cancel_iff]
      constructor
      · rintro ⟨value, hvalue, others, ⟨hlength, hothers⟩, heq⟩
        exact ⟨hlength, value, hvalue, others, hothers, heq⟩
      · rintro ⟨hlength, value, hvalue, others, hothers, heq⟩
        exact ⟨value, hvalue, others, ⟨hlength, hothers⟩, heq⟩

end Fields

namespace Alternatives

theorem nodup_names_unit {name : String} {rest : Alternatives} :
    (Alternatives.unit name rest).names.Nodup ↔ name ∉ rest.names ∧ rest.names.Nodup :=
  List.nodup_cons

theorem nodup_names_carrying {name : String} {content : Schema} {rest : Alternatives} :
    (Alternatives.carrying name content rest).names.Nodup ↔ name ∉ rest.names ∧ rest.names.Nodup := by
  rw [names, units, contents, List.map_cons, List.nodup_middle, List.nodup_cons, names]

theorem hasUnit_iff {alternatives : Alternatives} {name : String} :
    alternatives.hasUnit name = true ↔ name ∈ alternatives.units := by
  induction alternatives using Alternatives.induction with
  | nil => simp [hasUnit, units]
  | unit first rest ih =>
    rw [hasUnit, units, Bool.or_eq_true, ih, List.mem_cons, decide_eq_true_eq, eq_comm]
  | carrying first content rest ih => rw [hasUnit, units, ih]

/-- An alternative given with its content is a unit with null, or one whose content has a spelling. -/
theorem ofContent?_cases {alternatives : Alternatives} {name : String} {tree canonical : Json}
    (h : alternatives.ofContent? name tree = some canonical) :
    (name ∈ alternatives.units ∧ tree = .null ∧ canonical = .string name) ∨
      ∃ content value, (name, content) ∈ alternatives.contents ∧ content.normalize? tree = some value ∧
        canonical = .object [(name, value)] := by
  induction alternatives using Alternatives.induction with
  | nil => cases h
  | unit first rest ih =>
    unfold ofContent? at h
    split at h
    · rename_i hname
      subst hname
      split at h
      · cases h
        exact .inl ⟨List.mem_cons_self, rfl, rfl⟩
      · cases h
    · rcases ih h with ⟨hunit, htree⟩ | hcontent
      · exact .inl ⟨List.mem_cons_of_mem first hunit, htree⟩
      · exact .inr hcontent
  | carrying first content rest ih =>
    unfold ofContent? at h
    split at h
    · rename_i hname
      subst hname
      obtain ⟨value, hvalue, heq⟩ := Option.map_eq_some_iff.mp h
      exact .inr ⟨content, value, List.mem_cons_self, hvalue, heq.symm⟩
    · rcases ih h with hunit | ⟨inner, value, hinner, hvalue⟩
      · exact .inl hunit
      · exact .inr ⟨inner, value, List.mem_cons_of_mem _ hinner, hvalue⟩

theorem ofContent?_unit {alternatives : Alternatives} (hnames : alternatives.names.Nodup)
    {name : String} (h : name ∈ alternatives.units) :
    alternatives.ofContent? name .null = some (.string name) := by
  induction alternatives using Alternatives.induction with
  | nil => cases h
  | unit first rest ih =>
    rw [nodup_names_unit] at hnames
    unfold ofContent?
    split
    · rename_i hname
      rw [hname]
    · rename_i hname
      exact ih hnames.2 ((List.mem_cons.mp h).resolve_left (Ne.symm hname))
  | carrying first content rest ih =>
    rw [nodup_names_carrying] at hnames
    have hne : first ≠ name := by
      rintro rfl
      exact hnames.1 (List.mem_append_left _ h)
    rw [ofContent?, if_neg hne]
    exact ih hnames.2 h

theorem ofContent?_content {alternatives : Alternatives} (hnames : alternatives.names.Nodup)
    {name : String} {content : Schema} (h : (name, content) ∈ alternatives.contents) (tree : Json) :
    alternatives.ofContent? name tree = (content.normalize? tree).map fun value =>
      .object [(name, value)] := by
  induction alternatives using Alternatives.induction with
  | nil => cases h
  | unit first rest ih =>
    rw [nodup_names_unit] at hnames
    have hne : first ≠ name := by
      rintro rfl
      exact hnames.1 (List.mem_append_right _ (List.mem_map_of_mem h))
    unfold ofContent?
    rw [if_neg hne]
    exact ih hnames.2 h
  | carrying first inner rest ih =>
    rw [nodup_names_carrying] at hnames
    rw [ofContent?]
    rcases List.mem_cons.mp h with heq | hrest
    · cases heq
      rw [if_pos rfl]
    · have hne : first ≠ name := by
        rintro rfl
        exact hnames.1 (List.mem_append_right _ (List.mem_map_of_mem hrest))
      rw [if_neg hne]
      exact ih hnames.2 hrest

end Alternatives

namespace Schema

theorem wellNamed_record {fields : Fields} :
    (Schema.record fields).WellNamed ↔ fields.names.Nodup ∧ ∀ field ∈ fields.toList, field.2.WellNamed :=
  ⟨fun | .record hnames hfields => ⟨hnames, hfields⟩, fun h => .record h.1 h.2⟩

theorem wellNamed_choice {alternatives : Alternatives} :
    (Schema.choice alternatives).WellNamed ↔
      alternatives.names.Nodup ∧ ∀ carried ∈ alternatives.contents, carried.2.WellNamed :=
  ⟨fun | .choice hnames hcontents => ⟨hnames, hcontents⟩, fun h => .choice h.1 h.2⟩

@[simp] theorem wellNamed_ofFields {fields : List (String × Schema)} :
    (Schema.ofFields fields).WellNamed ↔
      (fields.map Prod.fst).Nodup ∧ ∀ field ∈ fields, field.2.WellNamed := by
  rw [ofFields, wellNamed_record, Fields.names_ofList, Fields.toList_ofList]

@[simp] theorem wellNamed_ofLists {units : List String} {contents : List (String × Schema)} :
    (Schema.choice (.ofLists units contents)).WellNamed ↔
      (units ++ contents.map Prod.fst).Nodup ∧ ∀ carried ∈ contents, carried.2.WellNamed := by
  rw [wellNamed_choice, Alternatives.names, Alternatives.units_ofLists, Alternatives.contents_ofLists]

theorem normalize?_integer {low high number : Int} (hlow : low ≤ number) (hhigh : number ≤ high) :
    (Schema.integer low high).normalize? (.integer number) = some (.integer number) :=
  if_pos ⟨hlow, hhigh⟩

theorem normalize?_nullable {content : Schema} {tree : Json} (htree : tree ≠ .null) :
    (Schema.nullable content).normalize? tree = content.normalize? tree := by
  cases tree <;> first | rfl | exact absurd rfl htree

/-- An object of all fields in order, each in its canonical spelling, is canonical itself. -/
theorem normalize?_ofFields {fields : List (String × Schema)} {members : List (String × Json)}
    (hnames : (fields.map Prod.fst).Nodup)
    (h : List.Forall₂ (fun field member => field.1 = member.1 ∧
      field.2.normalize? member.2 = some member.2) fields members) :
    (Schema.ofFields fields).normalize? (.object members) = some (.object members) := by
  suffices hmembers : (Fields.ofList fields).ofMembers? members = some members by
    rw [ofFields, normalize?, hmembers, Option.map_some]
  induction h with
  | nil => rw [Fields.ofList, Fields.ofMembers?]
  | @cons field member fields members hhead hrest ih =>
    obtain ⟨name, content⟩ := field
    obtain ⟨found, tree⟩ := member
    obtain ⟨rfl, htree⟩ := hhead
    rw [List.map_cons, List.nodup_cons] at hnames
    have hmembers : ∀ member ∈ members, member.1 ∈ (Fields.ofList fields).names := by
      intro member hmember
      rw [Fields.names_ofList, ← map_fst_eq hrest]
      exact List.mem_map_of_mem hmember
    have hname : name ∉ (Fields.ofList fields).names := by
      rw [Fields.names_ofList]
      exact hnames.1
    rw [Fields.ofList, Fields.ofMembers?_cons_cons hname hmembers, ih hnames.2]
    simp [htree]

theorem normalize?_unit {units : List String} {contents : List (String × Schema)} {name : String}
    (h : name ∈ units) :
    (Schema.choice (.ofLists units contents)).normalize? (.string name) = some (.string name) := by
  rw [normalize?, if_pos]
  rwa [Alternatives.hasUnit_iff, Alternatives.units_ofLists]

theorem normalize?_content {units : List String} {contents : List (String × Schema)}
    (hnames : (units ++ contents.map Prod.fst).Nodup) {name : String} {content : Schema} {tree : Json}
    (h : contents.lookup name = some content) (htree : content.normalize? tree = some tree) :
    (Schema.choice (.ofLists units contents)).normalize? (.object [(name, tree)]) =
      some (.object [(name, tree)]) := by
  have hcontent : (name, content) ∈ (Alternatives.ofLists units contents).contents := by
    obtain ⟨before, after, heq, -⟩ := List.lookup_eq_some_iff.mp h
    simp [heq]
  rw [normalize?, Alternatives.ofContent?_content _ hcontent, htree, Option.map_some]
  rwa [Alternatives.names, Alternatives.units_ofLists, Alternatives.contents_ofLists]

section Cases

variable {tree canonical : Json}

theorem normalize?_integer_cases {low high : Int}
    (h : (Schema.integer low high).normalize? tree = some canonical) :
    ∃ number, tree = .integer number ∧ (low ≤ number ∧ number ≤ high) ∧ canonical = .integer number := by
  cases tree with
  | integer number =>
    obtain ⟨hbounds, heq⟩ := Option.ite_none_right_eq_some.mp h
    cases heq
    exact ⟨number, rfl, hbounds, rfl⟩
  | _ => cases h

theorem normalize?_text_cases (h : Schema.text.normalize? tree = some canonical) :
    ∃ content, tree = .string content ∧ canonical = .string content := by
  cases tree with
  | string content =>
    cases h
    exact ⟨content, rfl, rfl⟩
  | _ => cases h

theorem normalize?_nullable_cases {content : Schema}
    (h : (Schema.nullable content).normalize? tree = some canonical) :
    (tree = .null ∧ canonical = .null) ∨ content.normalize? tree = some canonical := by
  cases tree with
  | null =>
    cases h
    exact .inl ⟨rfl, rfl⟩
  | _ => exact .inr h

theorem normalize?_sequence_cases {item : Schema}
    (h : (Schema.sequence item).normalize? tree = some canonical) :
    ∃ items values, tree = .array items ∧ canonical = .array values ∧
      List.Forall₂ (fun tree value => item.normalize? tree = some value) items values := by
  cases tree with
  | array items =>
    obtain ⟨values, hvalues, rfl⟩ := Option.map_eq_some_iff.mp h
    exact ⟨items, values, rfl, rfl, mapM_eq_some.mp hvalues⟩
  | _ => cases h

/-- A record is spelled as an object, or as the array of what the object gives its fields in order. -/
theorem normalize?_record_cases {fields : Fields} (hnames : fields.names.Nodup)
    (h : (Schema.record fields).normalize? tree = some canonical) :
    ∃ members values,
      (tree = .object members ∨
        (members.map Prod.fst = fields.names ∧ tree = .array (members.map Prod.snd))) ∧
      canonical = .object values ∧ FieldsRead members fields.toList values := by
  cases tree with
  | object members =>
    obtain ⟨values, hvalues, rfl⟩ := Option.map_eq_some_iff.mp h
    exact ⟨members, values, .inl rfl, rfl, Fields.ofMembers?_eq_some.mp hvalues⟩
  | array items =>
    obtain ⟨values, hvalues, rfl⟩ := Option.map_eq_some_iff.mp h
    obtain ⟨hlength, hmembers⟩ := (Fields.ofItems?_eq_some hnames).mp hvalues
    refine ⟨fields.names.zip items, values, .inr ⟨?_, ?_⟩, rfl, Fields.ofMembers?_eq_some.mp hmembers⟩
    · exact List.map_fst_zip (Nat.le_of_eq hlength.symm)
    · rw [List.map_snd_zip (Nat.le_of_eq hlength)]
  | _ => cases h

theorem normalize?_choice_cases {alternatives : Alternatives}
    (h : (Schema.choice alternatives).normalize? tree = some canonical) :
    (∃ name ∈ alternatives.units, (tree = .string name ∨ tree = .object [(name, .null)]) ∧
        canonical = .string name) ∨
      ∃ name content inner value, (name, content) ∈ alternatives.contents ∧
        tree = .object [(name, inner)] ∧ content.normalize? inner = some value ∧
        canonical = .object [(name, value)] := by
  unfold normalize? at h
  split at h
  · rename_i name
    obtain ⟨hunit, heq⟩ := Option.ite_none_right_eq_some.mp h
    cases heq
    exact .inl ⟨name, Alternatives.hasUnit_iff.mp hunit, .inl rfl, rfl⟩
  · rename_i name inner
    rcases Alternatives.ofContent?_cases h with
      ⟨hunit, rfl, rfl⟩ | ⟨content, value, hcontent, hvalue, rfl⟩
    · exact .inl ⟨name, hunit, .inr rfl, rfl⟩
    · exact .inr ⟨name, content, inner, value, hcontent, rfl, hvalue, rfl⟩
  · cases h

end Cases

end Schema

end X86Listing
