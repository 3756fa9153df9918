import Mathlib.Logic.Relation
import X86Listing.Proofs.RoundTrip

/-! The spellings of a value. One respelling changes a tree in one place: it reorders the members of a
record, adds a member that the record does not name, leaves out a null, writes the record as the array of
its fields, or writes a unit alternative as an object. The trees that are read as a value are those that
respellings make of its canonical tree. -/

namespace X86Listing

open Interchange Relation

namespace Schema

/-- One respelling of a tree. Members are changed where they come first, since any of them can be brought
there. -/
inductive Respells : Schema → Json → Json → Prop where
  | reordered {fields : Fields} {members others : List (String × Json)} (h : members.Perm others) :
    Respells (.record fields) (.object members) (.object others)
  /-- A member is added under a name that no field has. -/
  | extended {fields : Fields} {name : String} (hname : name ∉ fields.names) (tree : Json)
    (members : List (String × Json)) :
    Respells (.record fields) (.object members) (.object ((name, tree) :: members))
  /-- A field that may be null is left out where it is null. -/
  | shortened {fields : Fields} {name : String} {content : Schema}
    (hfield : (name, .nullable content) ∈ fields.toList) (members : List (String × Json)) :
    Respells (.record fields) (.object ((name, .null) :: members)) (.object members)
  /-- All fields, and nothing else, are written without their names. -/
  | listed {fields : Fields} {members : List (String × Json)}
    (hmembers : members.map Prod.fst = fields.names) :
    Respells (.record fields) (.object members) (.array (members.map Prod.snd))
  | wrapped {alternatives : Alternatives} {name : String} (hunit : name ∈ alternatives.units) :
    Respells (.choice alternatives) (.string name) (.object [(name, .null)])
  | inMember {fields : Fields} {name : String} {content : Schema}
    (hfield : (name, content) ∈ fields.toList) {tree other : Json} (h : Respells content tree other)
    (members : List (String × Json)) :
    Respells (.record fields) (.object ((name, tree) :: members)) (.object ((name, other) :: members))
  | inListed {fields : Fields} {name : String} {content : Schema} {before : List Json}
    (hfield : fields.toList[before.length]? = some (name, content)) {tree other : Json}
    (h : Respells content tree other) (after : List Json) :
    Respells (.record fields) (.array (before ++ tree :: after)) (.array (before ++ other :: after))
  | inContent {alternatives : Alternatives} {name : String} {content : Schema}
    (hcontent : (name, content) ∈ alternatives.contents) {tree other : Json}
    (h : Respells content tree other) :
    Respells (.choice alternatives) (.object [(name, tree)]) (.object [(name, other)])
  | inItem {item : Schema} {tree other : Json} (h : Respells item tree other)
    (before after : List Json) :
    Respells (.sequence item) (.array (before ++ tree :: after)) (.array (before ++ other :: after))
  | inNullable {content : Schema} {tree other : Json} (h : Respells content tree other) :
    Respells (.nullable content) tree other

/-- Null is no other spelling of anything, and has no other spelling. -/
theorem Respells.ne_null {schema : Schema} {tree other : Json} (h : schema.Respells tree other) :
    tree ≠ .null ∧ other ≠ .null := by
  induction h with
  | inNullable _ ih => exact ih
  | _ => exact ⟨Json.noConfusion, Json.noConfusion⟩

section Fields

variable {content : Schema} {name : String} {value : Json}

theorem field?_cons_of_ne {found : String} (hne : found ≠ name) (tree : Json)
    (members : List (String × Json)) :
    content.field? name ((found, tree) :: members) = content.field? name members :=
  field?_congr (List.filter_cons_of_neg (by simpa using hne))

/-- A field is read from the first member if it is the only one of its name. -/
theorem field?_cons_self {tree : Json} {members : List (String × Json)} :
    content.field? name ((name, tree) :: members) = some value ↔
      members.filter (·.1 = name) = [] ∧ content.normalize? tree = some value := by
  rw [field?_eq_some, List.filter_cons_of_pos (by simp)]
  constructor
  · rintro (⟨h, -⟩ | ⟨other, h, hother⟩)
    · cases h
    · obtain ⟨hfirst, hmembers⟩ := List.cons.inj h
      cases hfirst
      exact ⟨hmembers, hother⟩
  · rintro ⟨hmembers, htree⟩
    exact .inr ⟨tree, by rw [hmembers], htree⟩

theorem field?_of_perm {members others : List (String × Json)} (hperm : members.Perm others)
    (h : content.field? name members = some value) : content.field? name others = some value := by
  have hfilter := hperm.filter (·.1 = name)
  rw [field?_eq_some] at h ⊢
  rcases h with ⟨hnone, habsent⟩ | ⟨tree, hone, htree⟩
  · rw [hnone] at hfilter
    exact .inl ⟨List.nil_perm.mp hfilter, habsent⟩
  · rw [hone] at hfilter
    exact .inr ⟨tree, (List.singleton_perm.mp hfilter).symm, htree⟩

end Fields

section Sound

variable {fields : Fields} {canonical : Json}

/-- An object keeps its canonical spelling where every field does. -/
theorem normalize?_object_mono {members others : List (String × Json)}
    (h : ∀ field ∈ fields.toList, ∀ value, field.2.field? field.1 members = some value →
      field.2.field? field.1 others = some value)
    (hcanonical : (Schema.record fields).normalize? (.object members) = some canonical) :
    (Schema.record fields).normalize? (.object others) = some canonical := by
  obtain ⟨values, hvalues, rfl⟩ := Option.map_eq_some_iff.mp hcanonical
  have hothers : fields.ofMembers? others = some values := by
    have hread := (List.forall₂_and_left _ _).mpr
      ⟨fun field hfield => hfield, Fields.ofMembers?_eq_some.mp hvalues⟩
    rw [Fields.ofMembers?_eq_some]
    refine hread.imp ?_
    rintro field member ⟨hfield, hname, hvalue⟩
    exact ⟨hname, h field hfield member.2 hvalue⟩
  rw [normalize?, hothers, Option.map_some]

/-- Names that differ tell fields apart. -/
theorem eq_of_mem_toList (hnames : fields.names.Nodup) {name : String} {content other : Schema}
    (hcontent : (name, content) ∈ fields.toList) (hother : (name, other) ∈ fields.toList) :
    content = other := by
  have heq := List.inj_on_of_nodup_map hnames hcontent hother rfl
  exact congrArg Prod.snd heq

theorem ofItems?_inListed {content : Schema} {tree other : Json}
    (h : ∀ value, content.normalize? tree = some value → content.normalize? other = some value)
    {name : String} {before after : List Json}
    (hfield : fields.toList[before.length]? = some (name, content)) {values : List (String × Json)}
    (hvalues : fields.ofItems? (before ++ tree :: after) = some values) :
    fields.ofItems? (before ++ other :: after) = some values := by
  induction fields using Fields.induction generalizing before values with
  | nil => cases hfield
  | cons first inner rest ih =>
    cases before with
    | nil =>
      cases hfield
      rw [List.nil_append, Fields.ofItems?, Option.bind_eq_bind, Option.bind_eq_some_iff] at hvalues ⊢
      obtain ⟨value, hvalue, hrest⟩ := hvalues
      exact ⟨value, h value hvalue, hrest⟩
    | cons item before =>
      rw [List.cons_append, Fields.ofItems?, Option.bind_eq_bind, Option.bind_eq_some_iff] at hvalues ⊢
      obtain ⟨value, hvalue, hrest⟩ := hvalues
      obtain ⟨others, hothers, heq⟩ := Option.bind_eq_some_iff.mp hrest
      exact ⟨value, hvalue, Option.bind_eq_some_iff.mpr ⟨others, ih hfield hothers, heq⟩⟩

theorem mapM_inItem {item : Schema} {tree other : Json}
    (h : ∀ value, item.normalize? tree = some value → item.normalize? other = some value)
    {before after values : List Json}
    (hvalues : (before ++ tree :: after).mapM item.normalize? = some values) :
    (before ++ other :: after).mapM item.normalize? = some values := by
  rw [mapM_eq_some] at hvalues ⊢
  induction before generalizing values with
  | nil =>
    obtain _ | ⟨hvalue, hrest⟩ := hvalues
    exact .cons (h _ hvalue) hrest
  | cons first before ih =>
    obtain _ | ⟨hvalue, hrest⟩ := hvalues
    exact .cons hvalue (ih hrest)

/-- A respelling keeps what a tree is read as. -/
theorem Respells.normalize? {schema : Schema} {tree other : Json} (h : schema.Respells tree other)
    (hschema : schema.WellNamed) (hcanonical : schema.normalize? tree = some canonical) :
    schema.normalize? other = some canonical := by
  induction h generalizing canonical with
  | reordered h =>
    apply normalize?_object_mono _ hcanonical
    intro field _ value hvalue
    exact field?_of_perm h hvalue
  | @extended fields name hname tree members =>
    apply normalize?_object_mono _ hcanonical
    intro field hfield value hvalue
    rw [field?_cons_of_ne]
    · exact hvalue
    · rintro rfl
      exact hname (List.mem_map_of_mem hfield)
  | @shortened fields name content hnull members =>
    obtain ⟨hnames, hfields⟩ := wellNamed_record.mp hschema
    apply normalize?_object_mono _ hcanonical
    rintro ⟨found, inner⟩ hfield value hvalue
    by_cases hname : name = found
    · subst hname
      obtain rfl := eq_of_mem_toList hnames hnull hfield
      obtain ⟨hnone, hvalue⟩ := field?_cons_self.mp hvalue
      cases hvalue
      exact field?_eq_some.mpr (.inl ⟨hnone, rfl⟩)
    · rwa [field?_cons_of_ne hname] at hvalue
  | @listed fields members hmembers =>
    obtain ⟨hnames, hfields⟩ := wellNamed_record.mp hschema
    obtain ⟨values, hvalues, rfl⟩ := Option.map_eq_some_iff.mp hcanonical
    have hitems : fields.ofItems? (members.map Prod.snd) = some values := by
      rw [Fields.ofItems?_eq_some hnames]
      refine ⟨by rw [← hmembers, List.length_map, List.length_map], ?_⟩
      rwa [← List.zip_of_prod hmembers rfl]
    rw [Schema.normalize?, hitems, Option.map_some]
  | @wrapped alternatives name hunit =>
    obtain ⟨hnames, hcontents⟩ := wellNamed_choice.mp hschema
    obtain ⟨-, heq⟩ := Option.ite_none_right_eq_some.mp hcanonical
    rw [Schema.normalize?, Alternatives.ofContent?_unit hnames hunit]
    exact heq
  | @inMember fields name content hcontent tree other _ members ih =>
    obtain ⟨hnames, hfields⟩ := wellNamed_record.mp hschema
    apply normalize?_object_mono _ hcanonical
    rintro ⟨found, inner⟩ hfield value hvalue
    by_cases hname : name = found
    · subst hname
      obtain rfl := eq_of_mem_toList hnames hcontent hfield
      obtain ⟨hnone, hvalue⟩ := field?_cons_self.mp hvalue
      exact field?_cons_self.mpr ⟨hnone, ih (hfields _ hfield) hvalue⟩
    · rwa [field?_cons_of_ne hname] at hvalue ⊢
  | @inListed fields name content before hcontent tree other _ after ih =>
    obtain ⟨hnames, hfields⟩ := wellNamed_record.mp hschema
    obtain ⟨values, hvalues, rfl⟩ := Option.map_eq_some_iff.mp hcanonical
    have hitems := ofItems?_inListed
      (fun value hvalue => ih (hfields _ (List.mem_of_getElem? hcontent)) hvalue) hcontent hvalues
    rw [Schema.normalize?, hitems, Option.map_some]
  | @inContent alternatives name content hcontent tree other _ ih =>
    obtain ⟨hnames, hcontents⟩ := wellNamed_choice.mp hschema
    rw [Schema.normalize?, Alternatives.ofContent?_content hnames hcontent] at hcanonical ⊢
    obtain ⟨value, hvalue, rfl⟩ := Option.map_eq_some_iff.mp hcanonical
    rw [ih (hcontents _ hcontent) hvalue, Option.map_some]
  | inItem _ before after ih =>
    obtain _ | _ | _ | hitem := hschema
    obtain ⟨values, hvalues, rfl⟩ := Option.map_eq_some_iff.mp hcanonical
    have hitems := mapM_inItem (fun value hvalue => ih hitem hvalue) hvalues
    rw [Schema.normalize?, hitems, Option.map_some]
  | inNullable h ih =>
    obtain _ | _ | hcontent := hschema
    rw [normalize?_nullable h.ne_null.1] at hcanonical
    rw [normalize?_nullable h.ne_null.2]
    exact ih hcontent hcanonical

end Sound

section Complete

/-- Items are respelled one after the other. -/
theorem reflTransGen_items {item : Schema} {values items : List Json}
    (h : List.Forall₂ (fun value tree => ReflTransGen item.Respells value tree) values items) :
    ReflTransGen (Schema.sequence item).Respells (.array values) (.array items) := by
  -- Items that are done stay in front, so the induction is on what follows them.
  suffices hbefore : ∀ before, ReflTransGen (Schema.sequence item).Respells
      (.array (before ++ values)) (.array (before ++ items)) from hbefore []
  induction h with
  | nil => exact fun _ => .refl
  | @cons value tree values items hvalue _ ih =>
    intro before
    have hfirst : ReflTransGen (Schema.sequence item).Respells
        (.array (before ++ value :: values)) (.array (before ++ tree :: values)) :=
      hvalue.lift (fun tree => Json.array (before ++ tree :: values))
        fun _ _ hstep => .inItem hstep before values
    have hrest := ih (before ++ [tree])
    rw [List.append_assoc, List.append_assoc, List.singleton_append, List.singleton_append] at hrest
    exact hfirst.trans hrest

variable {fields : Fields}

theorem reflTransGen_extended {unknown : List (String × Json)}
    (hunknown : ∀ member ∈ unknown, member.1 ∉ fields.names) (members : List (String × Json)) :
    ReflTransGen (Schema.record fields).Respells (.object members) (.object (unknown ++ members)) := by
  induction unknown with
  | nil => exact .refl
  | cons member unknown ih =>
    rw [List.forall_mem_cons] at hunknown
    exact (ih hunknown.2).tail (.extended hunknown.1 member.2 (unknown ++ members))

/-- The members that fields are read from, in the order of the fields. -/
def found (fields : List (String × Schema)) (members : List (String × Json)) : List (String × Json) :=
  fields.flatMap fun field => members.filter (·.1 = field.1)

/-- Field after field is respelled or left out, while those that are done wait behind the others. -/
theorem reflTransGen_found {members values : List (String × Json)}
    {remaining : List (String × Schema)}
    (hremaining : ∀ field ∈ remaining, field ∈ fields.toList)
    (hrespells : ∀ field ∈ remaining, ∀ {tree value}, field.2.normalize? tree = some value →
      ReflTransGen field.2.Respells value tree)
    (hvalues : FieldsRead members remaining values)
    (settled : List (String × Json)) :
    ReflTransGen (Schema.record fields).Respells (.object (values ++ settled))
      (.object (found remaining members ++ settled)) := by
  induction hvalues generalizing settled with
  | nil => exact .refl
  | @cons field member remaining values hmember _ ih =>
    obtain ⟨name, content⟩ := field
    obtain ⟨_, value⟩ := member
    obtain ⟨rfl, hvalue⟩ := hmember
    rw [List.forall_mem_cons] at hremaining hrespells
    have hrest := ih hremaining.2 hrespells.2
    rcases field?_eq_some.mp hvalue with ⟨hnone, habsent⟩ | ⟨tree, hone, htree⟩
    · obtain ⟨⟨inner, rfl⟩, rfl⟩ := absent?_eq_some habsent
      rw [found, List.flatMap_cons, hnone, List.nil_append]
      exact .head (.shortened hremaining.1 (values ++ settled)) (hrest settled)
    · rw [found, List.flatMap_cons, hone, List.singleton_append]
      -- Only the first member can be respelled: the one that is done goes behind the others, and comes
      -- back once they are done.
      have hfirst : ReflTransGen (Schema.record fields).Respells
          (.object ((name, value) :: (values ++ settled)))
          (.object ((name, tree) :: (values ++ settled))) :=
        (hrespells.1 htree).lift (fun tree => Json.object ((name, tree) :: (values ++ settled)))
          fun _ _ hstep => .inMember hremaining.1 hstep (values ++ settled)
      have hbehind : Schema.Respells (.record fields) (.object ((name, tree) :: (values ++ settled)))
          (.object (values ++ (name, tree) :: settled)) := .reordered List.perm_middle.symm
      have hback : Schema.Respells (.record fields)
          (.object (found remaining members ++ (name, tree) :: settled))
          (.object ((name, tree) :: (found remaining members ++ settled))) := .reordered List.perm_middle
      exact (hfirst.tail hbehind).trans ((hrest ((name, tree) :: settled)).tail hback)

/-- Fields that differ in their names find every member that has one of the names, once. -/
theorem found_perm {remaining : List (String × Schema)} (hnames : (remaining.map Prod.fst).Nodup)
    (members : List (String × Json)) :
    (found remaining members).Perm (members.filter (·.1 ∈ remaining.map Prod.fst)) := by
  induction remaining with
  | nil => simp [found]
  | cons field remaining ih =>
    rw [List.map_cons, List.nodup_cons] at hnames
    -- The members that are found split into those of the first field and those of the others.
    have hsplit := List.filter_append_perm (fun member : String × Json => member.1 = field.1)
      (members.filter (·.1 ∈ (field :: remaining).map Prod.fst))
    have hfirst : (members.filter (·.1 ∈ (field :: remaining).map Prod.fst)).filter
        (fun member => member.1 = field.1) = members.filter (·.1 = field.1) := by
      rw [List.filter_filter]
      apply List.filter_congr
      intro member _
      simp +contextual
    have hrest : (members.filter (·.1 ∈ (field :: remaining).map Prod.fst)).filter
        (fun member => !decide (member.1 = field.1)) =
          members.filter (·.1 ∈ remaining.map Prod.fst) := by
      rw [List.filter_filter]
      apply List.filter_congr
      intro member _
      by_cases hmember : member.1 = field.1
      · simpa [hmember] using hnames.1
      · simp [hmember]
    rw [hfirst, hrest] at hsplit
    exact (List.Perm.append_left _ (ih hnames.2)).trans hsplit

/-- An object that is read as a record is a spelling of what it is read as. -/
theorem reflTransGen_object (hnames : fields.names.Nodup) {members values : List (String × Json)}
    (hrespells : ∀ field ∈ fields.toList, ∀ {tree value}, field.2.normalize? tree = some value →
      ReflTransGen field.2.Respells value tree)
    (hvalues : FieldsRead members fields.toList values) :
    ReflTransGen (Schema.record fields).Respells (.object values) (.object members) := by
  have hfound := reflTransGen_found (fun _ hfield => hfield) hrespells hvalues []
  rw [List.append_nil, List.append_nil] at hfound
  have hunknown : ∀ member ∈ members.filter fun member => !decide (member.1 ∈ fields.names),
      member.1 ∉ fields.names := by simp
  have hextended := reflTransGen_extended hunknown (found fields.toList members)
  have hperm : ((members.filter fun member => !decide (member.1 ∈ fields.names)) ++
      found fields.toList members).Perm members :=
    ((List.Perm.append_left _ (found_perm hnames members)).trans List.perm_append_comm).trans
      (List.filter_append_perm _ members)
  exact (hfound.trans hextended).tail (.reordered hperm)

/-- Whatever a tree is read as, respellings lead to the tree from there. -/
theorem WellNamed.reflTransGen {schema : Schema} (hschema : schema.WellNamed) {tree canonical : Json}
    (h : schema.normalize? tree = some canonical) : ReflTransGen schema.Respells canonical tree := by
  induction hschema generalizing tree canonical with
  | integer =>
    obtain ⟨number, rfl, -, rfl⟩ := normalize?_integer_cases h
    exact .refl
  | text =>
    obtain ⟨content, rfl, rfl⟩ := normalize?_text_cases h
    exact .refl
  | nullable _ ih =>
    rcases normalize?_nullable_cases h with ⟨rfl, rfl⟩ | h
    · exact .refl
    · exact (ih h).lift id fun _ _ hstep => .inNullable hstep
  | sequence _ ih =>
    obtain ⟨items, values, rfl, rfl, hvalues⟩ := normalize?_sequence_cases h
    apply reflTransGen_items
    exact hvalues.flip.imp fun _ _ hvalue => ih hvalue
  | record hnames _ ih =>
    obtain ⟨members, values, htree, rfl, hvalues⟩ := normalize?_record_cases hnames h
    have hobject := reflTransGen_object hnames (fun field hfield _ _ => ih field hfield) hvalues
    rcases htree with rfl | ⟨hmembers, rfl⟩
    · exact hobject
    · exact hobject.tail (.listed hmembers)
  | choice _ _ ih =>
    rcases normalize?_choice_cases h with
      ⟨name, hunit, rfl | rfl, rfl⟩ | ⟨name, content, inner, value, hcontent, rfl, hvalue, rfl⟩
    · exact .refl
    · exact .single (.wrapped hunit)
    · exact (ih _ hcontent hvalue).lift (fun tree => Json.object [(name, tree)])
        fun _ _ hstep => .inContent hcontent hstep

end Complete

/-- A place of the tree, at any depth, does not fit the schema. -/
inductive Refuses : Schema → Json → Prop where
  | outOfRange {low high number : Int} (h : number < low ∨ high < number) :
    Refuses (.integer low high) (.integer number)
  /-- A number with a fraction or an exponent. -/
  | decimal {low high : Int} (literal : String) : Refuses (.integer low high) (.decimal literal)
  /-- The name of an alternative that has to have content. -/
  | bare {alternatives : Alternatives} {name : String} (h : name ∉ alternatives.units) :
    Refuses (.choice alternatives) (.string name)
  | keys {alternatives : Alternatives} {members : List (String × Json)} (h : members.length ≠ 1) :
    Refuses (.choice alternatives) (.object members)
  | length {fields : Fields} {items : List Json} (h : items.length ≠ fields.names.length) :
    Refuses (.record fields) (.array items)
  | missing {fields : Fields} {name : String} {content : Schema}
    (hfield : (name, content) ∈ fields.toList) (hcontent : content.absent? = none)
    {members : List (String × Json)} (h : name ∉ members.map Prod.fst) :
    Refuses (.record fields) (.object members)
  | inMember {fields : Fields} {name : String} {content : Schema}
    (hfield : (name, content) ∈ fields.toList) {members : List (String × Json)} {tree : Json}
    (hmember : (name, tree) ∈ members) (h : Refuses content tree) :
    Refuses (.record fields) (.object members)
  | inListed {fields : Fields} {name : String} {content : Schema} {index : Nat}
    (hfield : fields.toList[index]? = some (name, content)) {items : List Json} {tree : Json}
    (hitem : items[index]? = some tree) (h : Refuses content tree) :
    Refuses (.record fields) (.array items)
  | inContent {alternatives : Alternatives} {name : String} {content : Schema}
    (hcontent : (name, content) ∈ alternatives.contents) {tree : Json} (h : Refuses content tree) :
    Refuses (.choice alternatives) (.object [(name, tree)])
  | inItem {item : Schema} {items : List Json} {tree : Json} (hitem : tree ∈ items)
    (h : Refuses item tree) : Refuses (.sequence item) (.array items)
  | inNullable {content : Schema} {tree : Json} (htree : tree ≠ .null) (h : Refuses content tree) :
    Refuses (.nullable content) tree

section Refused

variable {fields : Fields} {name : String} {content : Schema} {members values : List (String × Json)}

theorem exists_field? (hvalues : FieldsRead members fields.toList values)
    (hfield : (name, content) ∈ fields.toList) :
    ∃ value, content.field? name members = some value := by
  obtain ⟨member, -, -, hmember⟩ := exists_of_mem_right hvalues.flip hfield
  exact ⟨member.2, hmember⟩

/-- A field is read from any member of its name, since there can be no other. -/
theorem normalize?_of_mem {tree value : Json} (hmember : (name, tree) ∈ members)
    (h : content.field? name members = some value) : content.normalize? tree = some value := by
  have hmem : (name, tree) ∈ members.filter (·.1 = name) := List.mem_filter.mpr ⟨hmember, by simp⟩
  rcases field?_eq_some.mp h with ⟨hnone, -⟩ | ⟨other, hone, hother⟩
  · rw [hnone] at hmem
    cases hmem
  · rw [hone] at hmem
    cases List.mem_singleton.mp hmem
    exact hother

/-- What does not fit at some place is not read. -/
theorem Refuses.normalize?_ne {schema : Schema} {tree canonical : Json} (h : schema.Refuses tree)
    (hschema : schema.WellNamed) : schema.normalize? tree ≠ some canonical := by
  intro hcanonical
  induction h generalizing canonical with
  | outOfRange h =>
    obtain ⟨number, heq, hbounds, -⟩ := normalize?_integer_cases hcanonical
    cases heq
    omega
  | decimal literal => cases hcanonical
  | bare h =>
    rcases normalize?_choice_cases hcanonical with ⟨name, hunit, heq | heq, -⟩ | ⟨_, _, _, _, -, heq, -⟩
    · cases heq
      exact h hunit
    · cases heq
    · cases heq
  | keys h =>
    rcases normalize?_choice_cases hcanonical with ⟨name, hunit, heq | heq, -⟩ | ⟨_, _, _, _, -, heq, -⟩
    · cases heq
    · cases heq
      exact h rfl
    · cases heq
      exact h rfl
  | @length fields items h =>
    obtain ⟨hnames, hfields⟩ := wellNamed_record.mp hschema
    obtain ⟨members, values, heq | ⟨hmembers, heq⟩, -⟩ := normalize?_record_cases hnames hcanonical
    · cases heq
    · cases heq
      apply h
      rw [← hmembers, List.length_map, List.length_map]
  | @missing fields name content hfield hcontent members h =>
    obtain ⟨values, hvalues, -⟩ := Option.map_eq_some_iff.mp hcanonical
    obtain ⟨value, hvalue⟩ := exists_field? (Fields.ofMembers?_eq_some.mp hvalues) hfield
    rcases field?_eq_some.mp hvalue with ⟨-, habsent⟩ | ⟨tree, hone, -⟩
    · rw [hcontent] at habsent
      cases habsent
    · have hmember : (name, tree) ∈ members.filter (·.1 = name) := by simp [hone]
      exact h (List.mem_map_of_mem (List.mem_of_mem_filter hmember))
  | @inMember fields name content hfield members tree hmember _ ih =>
    obtain ⟨hnames, hfields⟩ := wellNamed_record.mp hschema
    obtain ⟨values, hvalues, -⟩ := Option.map_eq_some_iff.mp hcanonical
    obtain ⟨value, hvalue⟩ := exists_field? (Fields.ofMembers?_eq_some.mp hvalues) hfield
    exact ih (hfields _ hfield) (normalize?_of_mem hmember hvalue)
  | @inListed fields name content index hfield items tree hitem _ ih =>
    obtain ⟨hnames, hfields⟩ := wellNamed_record.mp hschema
    obtain ⟨members, values, heq | ⟨hmembers, heq⟩, -, hvalues⟩ :=
      normalize?_record_cases hnames hcanonical
    · cases heq
    · cases heq
      rw [List.getElem?_map, Option.map_eq_some_iff] at hitem
      obtain ⟨⟨other, _⟩, hmember, rfl⟩ := hitem
      -- The array is the object of its items, and there the item at this place has the field's name.
      have hother : other = name := by
        have hindex := congrArg (fun names => names[index]?) hmembers
        simpa [Fields.names, hmember, hfield] using hindex
      subst hother
      have hmem := List.mem_of_getElem? hfield
      obtain ⟨value, hvalue⟩ := exists_field? hvalues hmem
      exact ih (hfields _ hmem) (normalize?_of_mem (List.mem_of_getElem? hmember) hvalue)
  | @inContent alternatives name content hcontent tree _ ih =>
    obtain ⟨hnames, hcontents⟩ := wellNamed_choice.mp hschema
    rw [Schema.normalize?, Alternatives.ofContent?_content hnames hcontent] at hcanonical
    obtain ⟨value, hvalue, -⟩ := Option.map_eq_some_iff.mp hcanonical
    exact ih (hcontents _ hcontent) hvalue
  | inItem hitem _ ih =>
    obtain _ | _ | _ | hschema := hschema
    obtain ⟨items, values, heq, -, hvalues⟩ := normalize?_sequence_cases hcanonical
    cases heq
    obtain ⟨value, -, hvalue⟩ := exists_of_mem_right hvalues.flip hitem
    exact ih hschema hvalue
  | inNullable htree _ ih =>
    obtain _ | _ | hschema := hschema
    rw [normalize?_nullable htree] at hcanonical
    exact ih hschema hcanonical

end Refused

end Schema

namespace LawfulInterchange

variable {α : Type} [Interchange α] [LawfulInterchange α]

theorem decode?_iff_reflTransGen {tree : Json} {value : α} :
    decode? tree = some value ↔ ReflTransGen (schema α).Respells (encode value) tree := by
  rw [decode?_eq_some]
  constructor
  · exact (wellNamed α).reflTransGen
  · intro h
    induction h with
    | refl => exact normalize?_encode value
    | tail _ hstep ih => exact hstep.normalize? (wellNamed α) ih

theorem decode?_of_refuses {tree : Json} (h : (schema α).Refuses tree) :
    decode? tree = (none : Option α) := by
  rw [Option.eq_none_iff_forall_ne_some]
  intro value hvalue
  exact h.normalize?_ne (wellNamed α) (decode?_eq_some.mp hvalue)

/-- A word is read from its integer only. -/
theorem decode?_word {low high : Int} (hschema : schema α = .integer low high) {tree : Json}
    {value : α} : decode? tree = some value ↔ tree = encode value := by
  constructor
  · intro h
    rw [decode?_eq_some, hschema] at h
    obtain ⟨number, rfl, -, heq⟩ := Schema.normalize?_integer_cases h
    exact heq.symm
  · rintro rfl
    exact decode?_encode value

end LawfulInterchange

namespace Interchange

/-- A tree is read as a value if and only if respellings of the value's own tree lead to it, and never if
it does not fit somewhere. A word is read from the integer it stands for and no other. -/
theorem reads_respellings_only :
    (OnEveryType fun α _ =>
      (∀ (tree : Json) (value : α),
        decode? tree = some value ↔ ReflTransGen (schema α).Respells (encode value) tree) ∧
      ∀ tree : Json, (schema α).Refuses tree → decode? tree = (none : Option α)) ∧
    (∀ (tree : Json) (number : UInt32), decode? tree = some number ↔ tree = .integer number.toNat) ∧
    (∀ (tree : Json) (number : UInt64), decode? tree = some number ↔ tree = .integer number.toNat) ∧
    ∀ (tree : Json) (number : Int32), decode? tree = some number ↔ tree = .integer number.toInt := by
  refine ⟨OnEveryType.of_lawful fun α _ _ => ⟨fun tree value => ?_, fun tree h => ?_⟩,
    fun tree number => ?_, fun tree number => ?_, fun tree number => ?_⟩
  · exact LawfulInterchange.decode?_iff_reflTransGen
  · exact LawfulInterchange.decode?_of_refuses h
  · exact LawfulInterchange.decode?_word rfl
  · exact LawfulInterchange.decode?_word rfl
  · exact LawfulInterchange.decode?_word rfl

/-- Members in another order, one that is not a field, a record as an array, a null left out and a unit as
an object at once; and an instruction without its kind. -/
theorem reads_respellings_of_increment :
    ReflTransGen (schema Instruction).Respells
      (encode (⟨.unary .inc, .direct (.register (.lettered .a .dword)), none, some .dword⟩ : Instruction))
      (.object [("note", .decimal "1.5"), ("size", .string "Dword"),
        ("destination", .array [.object [("Register", .string "Eax")], .object [("Direct", .null)]]),
        ("kind", .object [("Inc", .null)])]) ∧
    decode? (.object [("destination", .null), ("source", .null), ("size", .null)]) =
      (none : Option Instruction) := by
  constructor
  · exact (reads_respellings_only.1.instruction.1 _ _).mp (by decide +kernel)
  · apply reads_respellings_only.1.instruction.2
    exact .missing (.head _) rfl (by decide)

end Interchange
end X86Listing
