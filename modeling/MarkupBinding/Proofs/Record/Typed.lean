import MarkupBinding.Proofs.Record.Fields
import MarkupBinding.Proofs.Schema.Keys

/-!
# Components read as records

`Component.fits` tells whether a value has exactly the shape of a component: a text or whole number
for each property, an object or a list of objects for each nested component, and nothing else.
`Typed` relates a value to what it becomes when it is read as a record: whole numbers become texts,
objects become records with the same properties under the names that are asked for.

An object of the shape of a component is read as a record of its type that it is related to
(`readsTyped`), if the names are separate, none is empty and each is declared once. What an object
has for a list of fields (`HasTyped`) is read field by field (`checkFields_of_hasTyped`); the fields
of a component are those of the nested components and of the properties (`exists_fields_typeOf`).
-/

set_option autoImplicit false
set_option relaxedAutoImplicit false

namespace MarkupBinding

namespace Value

/-- Whether the value is a text or a whole number. -/
def isTextOrInt : Value → Bool
  | string _ => true
  | int _ => true
  | _ => false

/-- Whether the value is a truth value or nothing. -/
def isFlag : Value → Bool
  | bool _ => true
  | null => true
  | _ => false

/-- Whether the value has no parts. -/
def isScalar : Value → Bool
  | list _ => false
  | object _ => false
  | record _ _ => false
  | _ => true

/-- Whether the value is an object with no other keys than those given and passes a test. -/
def isExactly (keys : List String) (test : List (String × Value) → Bool) : Value → Bool
  | object entries => (entries.all fun entry ↦ keys.contains entry.1) && test entries
  | _ => false

end Value

namespace Component

/-- The names that a component declares. -/
def declared (c : Component) : List String :=
  Keyed.keys c.components ++ Keyed.keys c.properties

mutual

/-- Whether entries have a text or whole number for each property of a component, and what fits for
each nested component. -/
def holds : Component → List (String × Value) → Bool
  | ⟨properties, components, _, _⟩, entries =>
    (properties.all fun property ↦ (entries.lookup property.1).any Value.isTextOrInt) &&
      holdsAll components entries

/-- Whether entries have an object for each nested component that holds exactly what it declares, or
a list of such objects for a list. -/
def holdsAll : List (String × Component) → List (String × Value) → Bool
  | [], _ => true
  | (name, c) :: rest, entries =>
    ((entries.lookup name).any fun value ↦
      if c.array then
        match value with
        | .list items => items.all fun item ↦
          item.isExactly c.declared fun entries ↦ holds c entries
        | _ => false
      else value.isExactly c.declared fun entries ↦ holds c entries) &&
      holdsAll rest entries

end

/-- Whether a value is an object of exactly the shape of a component. -/
def fits (c : Component) (value : Value) : Bool :=
  value.isExactly c.declared fun entries ↦ c.holds entries

/-- A component declares no name twice, at any depth. -/
def DeclaresOnce (c : Component) : Prop :=
  ∀ node ∈ c.nodes, node.declared.Nodup

/-- No name that a component declares is empty, at any depth. -/
def Named (c : Component) : Prop :=
  ∀ node ∈ c.nodes, "" ∉ node.declared

instance (c : Component) : Decidable c.Named :=
  inferInstanceAs (Decidable (∀ node ∈ c.nodes, "" ∉ node.declared))

theorem Named.below {c : Component} (h : c.Named) {pair : String × Component}
    (hpair : pair ∈ c.components) : pair.2.Named :=
  fun node hnode ↦ h node (nodes_subset_of_mem hpair hnode)

/-- A component has no property and nested component of one name, at any depth. -/
def PartsApart (c : Component) : Prop :=
  ∀ node ∈ c.nodes, ∀ name ∈ Keyed.keys node.properties, name ∉ Keyed.keys node.components

instance (c : Component) : Decidable c.PartsApart :=
  inferInstanceAs (Decidable (∀ node ∈ c.nodes, ∀ name ∈ Keyed.keys node.properties,
    name ∉ Keyed.keys node.components))

/-- Distinct names of properties and of nested components, none of them both, are declared once. -/
theorem PartsApart.declaresOnce {c : Component} (h : c.PartsApart) (hkeyed : c.WellKeyed) :
    c.DeclaresOnce := by
  intro node hnode
  obtain ⟨hproperties, hcomponents⟩ := hkeyed node hnode
  refine List.nodup_append.2 ⟨hcomponents, hproperties, ?_⟩
  rintro name hcomponent other hproperty rfl
  exact h node hnode name hproperty hcomponent

end Component

/-- The second value is the first one read as a record: whole numbers may have become texts, and
objects have become records that have the same properties under the names that are asked for. -/
inductive Typed (asked : String → Prop) : Value → Value → Prop
  | scalar {value : Value} (h : value.isScalar = true) : Typed asked value value
  | number (n : Int) : Typed asked (.int n) (.string (intText n))
  | list {items others : List Value} (h : List.Forall₂ (Typed asked) items others) :
      Typed asked (.list items) (.list others)
  | record {entries : List (String × Value)} {type : String} {fields : List (FieldName × Value)}
      (h : ∀ name, asked name → Option.Rel (Typed asked) ((Value.object entries).property? name)
        ((Value.record type fields).property? name)) :
      Typed asked (.object entries) (.record type fields)

namespace Typed

variable {asked : String → Prop} {value result : Value}

theorem property? (h : Typed asked value result) {name : String} (hname : asked name) :
    Option.Rel (Typed asked) (value.property? name) (result.property? name) := by
  cases h with
  | scalar hscalar =>
    cases value with
    | null | bool | int | float | string => exact .none
    | list | object | record => cases hscalar
  | number | list => exact .none
  | record h => exact h name hname

/-- Lists are read as lists, and nothing else is. -/
theorem items (h : Typed asked value result) :
    (∃ items others, value = .list items ∧ result = .list others ∧
      List.Forall₂ (Typed asked) items others) ∨
      (∀ items, value ≠ .list items) ∧ ∀ items, result ≠ .list items := by
  cases h with
  | scalar hscalar =>
    have hne : ∀ items, value ≠ .list items := by
      rintro items rfl
      cases hscalar
    exact Or.inr ⟨hne, hne⟩
  | list h => exact Or.inl ⟨_, _, rfl, rfl, h⟩
  | number | record => exact Or.inr ⟨fun _ h ↦ Value.noConfusion h, fun _ h ↦ Value.noConfusion h⟩

theorem eq_false_iff (h : Typed asked value result) :
    value = .bool false ↔ result = .bool false := by
  cases h with
  | scalar => exact Iff.rfl
  | number | list | record => simp

/-- A scalar shows as what it is read as. -/
theorem display_eq (h : Typed asked value result) (hscalar : value.isScalar = true) :
    value.display = result.display := by
  cases h with
  | scalar | number => rfl
  | list | record => cases hscalar

end Typed

namespace RecordLayout

open RecordName

variable {all : List String}

/-- The names that are asked for: those of a list, and the empty one. -/
def askedOf (all : List String) (name : String) : Prop :=
  name ∈ all ∨ name = ""

/-- A value is null exactly where what it is read as is. -/
theorem rel_present {asked : String → Prop} {value result : Value} (h : Typed asked value result) :
    Option.Rel (Typed asked) (Value.present (some value)) (Value.present (some result)) := by
  cases h with
  | scalar hscalar =>
    cases value with
    | null => exact .none
    | bool | int | float | string => exact .some (.scalar rfl)
    | list | object | record => cases hscalar
  | number n => exact .some (.number n)
  | list h => exact .some (.list h)
  | record h => exact .some (.record h)

/-- What an object has for a field, as the field's value stands in the record. -/
def HasTyped (all : List String) (entries : List (String × Value)) (field : String × FieldKind)
    (result : String × Value) : Prop :=
  HasField entries field result ∧
    ∀ value, entries.lookup field.1 = some value → Typed (askedOf all) value result.2

/-- An object and the record of what it has have the same properties under names of fields. -/
theorem rel_lookup {entries : List (String × Value)} {fields : List (String × FieldKind)}
    {results : List (String × Value)} (h : List.Forall₂ (HasTyped all entries) fields results)
    {name : String} (hnone : name ∉ Keyed.keys fields → entries.lookup name = none) :
    Option.Rel (Typed (askedOf all)) (Value.present (entries.lookup name))
      (Value.present (results.lookup name)) := by
  induction h with
  | nil =>
    rw [hnone List.not_mem_nil]
    exact .none
  | @cons field result fields results hfirst _ ih =>
    obtain ⟨⟨hname, hcases⟩, htyped⟩ := hfirst
    rw [List.lookup_cons]
    by_cases hself : name = field.1
    · rw [hself, hname, beq_self_eq_true]
      rw [hname] at hcases htyped
      rcases hcases with ⟨value, hlookup, -⟩ | ⟨hlookup, -, hnull⟩
      · rw [hlookup]
        exact rel_present (htyped value hlookup)
      · rw [hlookup, hnull]
        exact .none
    · rw [beq_false_of_ne (hname ▸ hself)]
      exact ih fun hrest ↦ hnone fun hmem ↦ (List.mem_cons.1 hmem).elim hself hrest

/-- An object with no other keys than those of fields that it has is read as a record that it is
related to. -/
theorem checkFields_of_hasTyped (hsep : Separate all) {entries : List (String × Value)}
    {fields : List (String × FieldKind)} {results : List (String × Value)}
    (hall : Keyed.keys fields ⊆ all) (hkeys : Keyed.keys entries ⊆ Keyed.keys fields)
    (h : List.Forall₂ (HasTyped all entries) fields results) :
    RecordCheck.checkFields (fieldsOf fields) entries = .ok (fieldsOf results) ∧
      ∀ type, Typed (askedOf all) (.object entries) (.record type (fieldsOf results)) := by
  have hnone : ∀ {name}, name ∉ Keyed.keys fields → entries.lookup name = none := by
    intro name hname
    cases hlookup : entries.lookup name with
    | none => rfl
    | some value => exact absurd (hkeys (Keyed.mem_keys_of_lookup hlookup)) hname
  refine ⟨checkFields_fieldsOf (fun field hfield hne ↦ hnone fun hmem ↦ ?_)
    (h.imp fun _ _ hfield ↦ hfield.1), fun type ↦ .record fun name hasked ↦ ?_⟩
  · exact (hsep _ (hall (List.mem_map_of_mem hfield)) _ (hall hmem) (Ne.symm hne)).1 rfl
  · have hsame : Keyed.keys results = Keyed.keys fields := by
      clear hall hkeys hnone
      induction h with
      | nil => rfl
      | cons hfirst _ ih =>
        rw [Keyed.keys, List.map_cons, ← hfirst.1.1]
        exact congrArg _ ih
    rw [Value.property?, Value.property?, fieldValue?_fieldsOf fun key hkey hne ↦ ?_]
    · exact rel_lookup h hnone
    · rw [hsame] at hkey
      rcases hasked with hname | rfl
      · exact (hsep key (hall hkey) name hname hne).1
      · exact fieldName_ne_empty key

/-! ### The fields of a component -/

/-- The field for a nested component: its name, and a record of its type or a list of such. -/
def IsNested (pair : String × Component) (field : String × FieldKind) : Prop :=
  pair.1 = field.1 ∧ ∃ source taken, field.2 =
    .nested pair.2.array (typeOf source taken pair.2).1.name (typeOf source taken pair.2).1.fields

theorem exists_nestedFields (components : List (String × Component)) :
    ∀ taken, ∃ fields : List (String × FieldKind),
      (nestedFields taken components).1 = fieldsOf fields ∧
        List.Forall₂ IsNested components fields := by
  induction components with
  | nil => exact fun taken ↦ ⟨[], rfl, .nil⟩
  | cons pair rest ih =>
    intro taken
    obtain ⟨name, c⟩ := pair
    rw [nestedFields]
    obtain ⟨fields, hfields, hrest⟩ := ih (typeOf (typeSource name c) taken c).2
    refine ⟨(name, _) :: fields, ?_, .cons ⟨rfl, typeSource name c, taken, rfl⟩ hrest⟩
    simp only [hfields]
    rfl

/-- The fields of nested components have their names. -/
theorem keys_of_isNested {components : List (String × Component)}
    {fields : List (String × FieldKind)} (h : List.Forall₂ IsNested components fields) :
    Keyed.keys fields = Keyed.keys components := by
  induction h with
  | nil => rfl
  | cons hfirst _ ih =>
    rw [Keyed.keys, List.map_cons, ← hfirst.1]
    exact congrArg _ ih

/-- The fields for properties. -/
def textFields (properties : List (String × String)) : List (String × FieldKind) :=
  properties.map fun property ↦ (property.1, .text)

/-- The fields of a component's type: those of the nested components, then those of the properties.
-/
theorem exists_fields_typeOf (source : String) (taken : List String) (c : Component) :
    ∃ nested : List (String × FieldKind),
      (typeOf source taken c).1.fields =
        fieldsOf (nested ++ textFields c.properties) ∧
      List.Forall₂ IsNested c.components nested := by
  obtain ⟨properties, components, array, itemName⟩ := c
  obtain ⟨nested, hnested, hkinds⟩ :=
    exists_nestedFields components (freshName taken source :: taken)
  refine ⟨nested, ?_, hkinds⟩
  rw [typeOf]
  simp only [hnested, fieldsOf_append]
  congr 1
  rw [fieldsOf, textFields, List.map_map]
  rfl

/-- The names of a component's fields are those that it declares. -/
theorem keys_append_textFields {c : Component} {nested : List (String × FieldKind)}
    (h : List.Forall₂ IsNested c.components nested) :
    Keyed.keys (nested ++ textFields c.properties) = c.declared := by
  have htexts : Keyed.keys (textFields c.properties) = Keyed.keys c.properties := by
    rw [Keyed.keys, textFields, List.map_map]
    rfl
  rw [Component.declared, Keyed.keys_append, keys_of_isNested h, htexts]

/-- Names with distinct field names keep the fields of a component's parts apart. -/
theorem exists_settled_typeOf {c : Component} (h : (c.declared.map fieldName).Nodup)
    (source : String) (taken : List String) :
    ∃ nested, settledFields [] (typeOf source taken c).1.fields =
        fieldsOf (settledPairs (nested ++ textFields c.properties)) ∧
      List.Forall₂ IsNested c.components nested := by
  obtain ⟨nested, hfields, hnested⟩ := exists_fields_typeOf source taken c
  refine ⟨nested, ?_, hnested⟩
  rw [hfields, settledFields_fieldsOf (by rwa [keys_append_textFields hnested])]

/-- The fields as they are settled keep their names, if none is empty. -/
theorem keys_settledPairs {fields : List (String × FieldKind)} (h : "" ∉ Keyed.keys fields) :
    Keyed.keys (settledPairs fields) = Keyed.keys fields := by
  rw [Keyed.keys, settledPairs, List.map_map]
  exact List.map_congr_left fun field hfield ↦ entryName_of_mem h hfield

/-! ### Reading a component -/

/-- If all items of a list are read, wherever they stand, so is the list. -/
theorem exists_all_mapIdx {rel : Value → Value → Prop} {items : List Value} :
    ∀ {read : Nat → Value → Checked Value},
      (∀ item ∈ items, ∃ result, (∀ i, read i item = .ok result) ∧ rel item result) →
        ∃ results, (Checked.all (items.mapIdx read)).map Value.list = .ok (.list results) ∧
          List.Forall₂ rel items results := by
  induction items with
  | nil => exact fun _ ↦ ⟨[], rfl, .nil⟩
  | cons item rest ih =>
    intro read h
    obtain ⟨result, hresult, hrel⟩ := h item List.mem_cons_self
    have hrest : ∀ other ∈ rest, ∃ result, (∀ i, read (i + 1) other = .ok result) ∧
        rel other result := by
      intro other hother
      obtain ⟨found, hfound, hother⟩ := h other (List.mem_cons_of_mem item hother)
      exact ⟨found, fun i ↦ hfound (i + 1), hother⟩
    obtain ⟨results, hresults, hrels⟩ := ih hrest
    refine ⟨result :: results, ?_, .cons hrel hrels⟩
    rw [List.mapIdx_cons, Checked.all, hresult]
    cases hall : Checked.all (rest.mapIdx fun i ↦ read (i + 1)) with
    | error issues =>
      rw [hall] at hresults
      cases hresults
    | ok found =>
      rw [hall] at hresults
      obtain rfl := Value.list.inj (Except.ok.inj hresults)
      rfl

/-- An object of exactly the shape of a component is read as a record that it is related to, under
whatever type name. -/
def ReadsAs (rel : Value → Value → Prop) (c : Component) : Prop :=
  ∀ source taken type entries, Keyed.keys entries ⊆ c.declared → c.holds entries = true →
    ∃ fields, RecordCheck.checkFields (settledFields [] (typeOf source taken c).1.fields) entries =
        .ok fields ∧ rel (.object entries) (.record type fields)

theorem exists_entries_of_isExactly {keys : List String} {test : List (String × Value) → Bool}
    {value : Value} (h : value.isExactly keys test = true) :
    ∃ entries, value = .object entries ∧ Keyed.keys entries ⊆ keys ∧ test entries = true := by
  cases value with
  | object entries =>
    rw [Value.isExactly, Bool.and_eq_true, List.all_eq_true] at h
    refine ⟨entries, rfl, fun key hkey ↦ ?_, h.2⟩
    obtain ⟨entry, hentry, rfl⟩ := List.mem_map.1 hkey
    simpa using h.1 entry hentry
  | null | bool | int | float | string | list | record => cases h

/-- What fits a component is read as a record of its type. -/
theorem exists_checkKind_single {rel : Value → Value → Prop} {c : Component}
    (hreads : ReadsAs rel c) {value : Value} (h : c.fits value = true) (source : String)
    (taken : List String) (type : String) :
    ∃ result, RecordCheck.checkKind
        (.nested false type (settledFields [] (typeOf source taken c).1.fields)) value =
          .ok result ∧ rel value result := by
  obtain ⟨entries, rfl, hkeys, hholds⟩ := exists_entries_of_isExactly h
  obtain ⟨fields, hfields, hrel⟩ := hreads source taken type entries hkeys hholds
  refine ⟨.record type fields, ?_, hrel⟩
  rw [RecordCheck.checkKind, hfields]
  rfl

/-- What is there for a nested component fits it, or is a list of what does. -/
theorem exists_lookup_of_holdsAll {components : List (String × Component)}
    {entries : List (String × Value)} (h : Component.holdsAll components entries = true)
    {pair : String × Component} (hpair : pair ∈ components) :
    ∃ value, entries.lookup pair.1 = some value ∧
      (pair.2.array = false ∧ pair.2.fits value = true ∨
        pair.2.array = true ∧ ∃ items, value = .list items ∧
          ∀ item ∈ items, pair.2.fits item = true) := by
  induction components with
  | nil => exact absurd hpair List.not_mem_nil
  | cons first rest ih =>
    obtain ⟨name, c⟩ := first
    rw [Component.holdsAll, Bool.and_eq_true] at h
    rcases List.mem_cons.1 hpair with rfl | hrest
    · obtain ⟨value, hvalue, hfits⟩ := Option.any_eq_true _ _ |>.1 h.1
      refine ⟨value, hvalue, ?_⟩
      cases harray : c.array with
      | false =>
        rw [harray, if_neg (by decide)] at hfits
        exact Or.inl ⟨rfl, hfits⟩
      | true =>
        rw [harray, if_pos rfl] at hfits
        cases value with
        | list items => exact Or.inr ⟨rfl, items, rfl, List.all_eq_true.1 hfits⟩
        | null | bool | int | float | string | object | record => cases hfits
    · exact ih h.2 hrest

/-- A list of what fits a component is read as a list of records of its type. -/
theorem exists_checkKind_list {rel : Value → Value → Prop} {c : Component}
    (hreads : ReadsAs rel c) {items : List Value} (h : ∀ item ∈ items, c.fits item = true)
    (source : String) (taken : List String) (type : String) :
    ∃ results, RecordCheck.checkKind
        (.nested true type (settledFields [] (typeOf source taken c).1.fields)) (.list items) =
          .ok (.list results) ∧ List.Forall₂ rel items results := by
  simp only [RecordCheck.checkKind]
  refine exists_all_mapIdx fun item hitem ↦ ?_
  obtain ⟨entries, rfl, hkeys, hholds⟩ := exists_entries_of_isExactly (h item hitem)
  obtain ⟨fields, hfields, hrel⟩ := hreads source taken type entries hkeys hholds
  refine ⟨_, fun i ↦ ?_, hrel⟩
  simp only [hfields]
  rfl

/-- Reading the entry for a nested component as its settled field. -/
theorem exists_checkKind_nested {name : String} {c : Component}
    (hreads : ReadsAs (Typed (askedOf all)) c) {field : String × FieldKind}
    (hfield : IsNested (name, c) field) {value : Value}
    (h : c.array = false ∧ c.fits value = true ∨
      c.array = true ∧ ∃ items, value = .list items ∧ ∀ item ∈ items, c.fits item = true) :
    ∃ result, RecordCheck.checkKind (settledKind field.2) value = .ok result ∧
      Typed (askedOf all) value result := by
  obtain ⟨-, source, taken, hkind⟩ := hfield
  rw [hkind, settledKind]
  rcases h with ⟨harray, hfits⟩ | ⟨harray, items, rfl, hitems⟩
  · rw [harray]
    exact exists_checkKind_single hreads hfits source taken _
  · rw [harray]
    obtain ⟨results, hresults, htyped⟩ := exists_checkKind_list hreads hitems source taken _
    exact ⟨_, hresults, .list htyped⟩

/-- Entries with something for each of some fields have them. -/
theorem exists_hasTyped {entries : List (String × Value)} {fields : List (String × FieldKind)}
    (h : ∀ field ∈ fields, ∃ value result, entries.lookup field.1 = some value ∧
      RecordCheck.checkKind field.2 value = .ok result ∧ Typed (askedOf all) value result) :
    ∃ results, List.Forall₂ (HasTyped all entries) fields results := by
  refine exists_forall₂ fun field hfield ↦ ?_
  obtain ⟨value, result, hlookup, hcheck, htyped⟩ := h field hfield
  refine ⟨(field.1, result), ⟨rfl, Or.inl ⟨value, hlookup, hcheck⟩⟩, ?_⟩
  intro found hfound
  obtain rfl := Option.some.inj (hlookup.symm.trans hfound)
  exact htyped

/-- Entries that hold what a component takes have all its fields. -/
theorem exists_hasTyped_of_holds {c : Component}
    (hreads : ∀ pair ∈ c.components, ReadsAs (Typed (askedOf all)) pair.2)
    {entries : List (String × Value)}
    (h : c.holds entries = true) {nested : List (String × FieldKind)}
    (hnested : List.Forall₂ IsNested c.components nested) (hnamed : "" ∉ c.declared) :
    ∃ results, List.Forall₂ (HasTyped all entries)
      (settledPairs (nested ++ textFields c.properties)) results := by
  rw [← keys_append_textFields hnested] at hnamed
  obtain ⟨properties, components, array, itemName⟩ := c
  rw [Component.holds, Bool.and_eq_true, List.all_eq_true] at h
  refine exists_hasTyped fun settled hsettled ↦ ?_
  obtain ⟨field, hfield, rfl⟩ := List.mem_map.1 hsettled
  simp only [entryName_of_mem hnamed hfield]
  rcases List.mem_append.1 hfield with hin | hin
  · obtain ⟨pair, hpair, hkind⟩ := exists_of_mem_forall₂ hnested hin
    obtain ⟨value, hlookup, hvalue⟩ := exists_lookup_of_holdsAll h.2 hpair
    obtain ⟨result, hresult, htyped⟩ := exists_checkKind_nested (hreads pair hpair) hkind hvalue
    exact ⟨value, result, hkind.1 ▸ hlookup, hresult, htyped⟩
  · obtain ⟨property, hproperty, rfl⟩ := List.mem_map.1 hin
    obtain ⟨value, hlookup, htext⟩ := Option.any_eq_true _ _ |>.1 (h.1 property hproperty)
    cases value with
    | string s => exact ⟨_, _, hlookup, rfl, .scalar rfl⟩
    | int n => exact ⟨_, _, hlookup, rfl, .number n⟩
    | null | bool | float | list | object | record => cases htext

/-- A component whose names are separate, declared once and not empty reads typed. -/
theorem readsTyped (hsep : Separate all) (c : Component) :
    c.DeclaresOnce → c.Named → (∀ node ∈ c.nodes, node.declared ⊆ all) →
      ReadsAs (Typed (askedOf all)) c := by
  induction c using Component.induction_on_components with
  | step properties components array itemName ih =>
    intro honce hnamed hall source taken type entries hkeys hholds
    have hbelow : ∀ pair ∈ components, ReadsAs (Typed (askedOf all)) pair.2 := by
      intro pair hpair
      have hnodes := Component.nodes_subset_of_mem
        (show pair ∈ Component.components ⟨properties, components, array, itemName⟩ from hpair)
      exact ih pair hpair (fun node hnode ↦ honce node (hnodes hnode)) (hnamed.below hpair)
        fun node hnode ↦ hall node (hnodes hnode)
    have hself := Component.mem_nodes_self ⟨properties, components, array, itemName⟩
    obtain ⟨nested, hsettled, hnested⟩ := exists_settled_typeOf
      (nodup_map_fieldName hsep (hall _ hself) (honce _ hself)) source taken
    obtain ⟨results, hresults⟩ :=
      exists_hasTyped_of_holds hbelow hholds hnested (hnamed _ hself)
    have hnames := keys_append_textFields hnested
    have hsettledNames := keys_settledPairs (hnames ▸ hnamed _ hself)
    obtain ⟨hcheck, htyped⟩ := checkFields_of_hasTyped hsep
      (by rw [hsettledNames, hnames]; exact hall _ hself)
      (by rw [hsettledNames, hnames]; exact hkeys) hresults
    rw [hsettled]
    exact ⟨_, hcheck, htyped type⟩

end RecordLayout

end MarkupBinding
