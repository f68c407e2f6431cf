import MarkupBinding.Proofs.Record.Toggles

/-!
# Which input is read as a record

`Component.admits` tells whether a value has what a component takes: an object with a text or number
for every property, what a nested component admits for that component, and a list of it for a list.
Other keys do not matter. `Schema.admits` is the same of a whole input. How an object has something
under a name is left open there: under the name itself and, failing that, under its field name
(`entryFor`), or the same with nothing under the empty name (`builtEntryFor`), which is what a
record reads.

If at every component the names have distinct field names, no field stands for another one, and an
object is read as a record of a component's type exactly where the component admits it
(`readsAdmitted`, by induction on the component from `takes_record_iff` and `takes_list_iff`). So an
input is read as a record exactly where the schema admits it
(`Schema.exists_checkInput_iff_admits`), provided that what stands for toggle flags are truth values
or nulls (`Schema.setsFlags`): nothing is asked of how flags are called, since no input needs to
have a flag. Without empty names the two ways to look a name up agree (`Component.admits_congr`);
with one, an input is refused for what it has under that name
(`not_exists_checkInput_iff_admits_blankSchema`).
-/

set_option autoImplicit false
set_option relaxedAutoImplicit false

namespace MarkupBinding

open RecordName RecordLayout

/-- Whether the value is a text or a number. -/
def Value.isTextOrNumber : Value → Bool
  | string _ => true
  | int _ => true
  | float _ => true
  | _ => false

namespace RecordName

/-- What entries have under a name or, failing that, under its field name. -/
def entryFor (entries : List (String × Value)) (name : String) : Option Value :=
  (entries.lookup name).or (entries.lookup (fieldName name))

/-- What entries have for the field that is built for a name: nothing counts as being there under
the empty name. -/
def builtEntryFor (entries : List (String × Value)) (name : String) : Option Value :=
  entryFor entries (entryName name)

theorem builtEntryFor_of_ne {name : String} (h : name ≠ "") (entries : List (String × Value)) :
    builtEntryFor entries name = entryFor entries name := by
  rw [builtEntryFor, entryName_of_ne h]

end RecordName

namespace Component

section Admits

variable (find : List (String × Value) → String → Option Value)

mutual

/-- Whether a value is an object that has what a component takes, as `find` finds it. -/
def admits : Component → Value → Bool
  | ⟨properties, components, _, _⟩, value =>
    match value with
    | .object entries =>
      (properties.all fun property ↦ (find entries property.1).any Value.isTextOrNumber) &&
        admitsAll components entries
    | _ => false

/-- Whether entries have for each nested component what it admits, or a list of it for a list. -/
def admitsAll : List (String × Component) → List (String × Value) → Bool
  | [], _ => true
  | (name, c) :: rest, entries =>
    ((find entries name).any fun value ↦
      if c.array then
        match value with
        | .list items => items.all fun item ↦ admits c item
        | _ => false
      else admits c value) &&
      admitsAll rest entries

end

/-- Whether a value is what a component admits, or a list of it for a list. -/
def admitsNested (c : Component) (value : Value) : Bool :=
  if c.array then
    match value with
    | .list items => items.all (admits find c)
    | _ => false
  else admits find c value

variable {find}

theorem admitsAll_eq_true_iff {components : List (String × Component)}
    {entries : List (String × Value)} :
    admitsAll find components entries = true ↔
      ∀ pair ∈ components, (find entries pair.1).any (admitsNested find pair.2) = true := by
  induction components with
  | nil => simp [admitsAll]
  | cons pair rest ih =>
    obtain ⟨name, c⟩ := pair
    rw [admitsAll, Bool.and_eq_true, ih, List.forall_mem_cons]
    rfl

/-- A component admits the objects with a text or number for each property and with what is taken
for each nested component, and nothing else. -/
theorem admits_eq_true_iff {c : Component} {value : Value} :
    c.admits find value = true ↔ ∃ entries, value = .object entries ∧
      (∀ property ∈ c.properties, (find entries property.1).any Value.isTextOrNumber = true) ∧
      ∀ pair ∈ c.components, (find entries pair.1).any (pair.2.admitsNested find) = true := by
  obtain ⟨properties, components, array, itemName⟩ := c
  cases value with
  | object entries =>
    rw [admits, Bool.and_eq_true, List.all_eq_true, admitsAll_eq_true_iff]
    simp
  | null | bool | int | float | string | list | record => simp [admits]

/-- What a component admits hangs on what is found under the names that are declared. -/
theorem admits_congr {other : List (String × Value) → String → Option Value} (c : Component) :
    (∀ node ∈ c.nodes, ∀ name ∈ node.declared, ∀ entries, find entries name = other entries name) →
      ∀ value, c.admits find value = c.admits other value := by
  induction c using Component.induction_on_components with
  | step properties components array itemName ih =>
    intro hsame value
    have hself := hsame _ (mem_nodes_self ⟨properties, components, array, itemName⟩)
    have hnested : ∀ pair ∈ components,
        pair.2.admitsNested find = pair.2.admitsNested other := by
      intro pair hpair
      have hbelow : admits find pair.2 = admits other pair.2 := funext <|
        ih pair hpair fun node hnode ↦ hsame node (nodes_subset_of_mem
          (show pair ∈ Component.components ⟨properties, components, array, itemName⟩ from hpair)
          hnode)
      unfold admitsNested
      rw [hbelow]
    rw [Bool.eq_iff_iff, admits_eq_true_iff, admits_eq_true_iff]
    refine exists_congr fun entries ↦ and_congr_right fun _ ↦ and_congr ?_ ?_
    · refine forall₂_congr fun property hproperty ↦ ?_
      rw [hself _ (List.mem_append_right _ (List.mem_map_of_mem hproperty))]
    · refine forall₂_congr fun pair hpair ↦ ?_
      rw [hself _ (List.mem_append_left _ (List.mem_map_of_mem hpair)),
        hnested pair hpair]

end Admits

end Component

namespace Schema

/-- Whether an input has what the outermost component takes, in itself if that is called like the
root scope, else for its name. -/
def admits (find : List (String × Value) → String → Option Value) (s : Schema) : Value → Bool
  | .object entries =>
    if s.name == rootScope then s.root.admits find (.object entries)
    else (find entries s.name).any (s.root.admits find)
  | _ => false

/-- Whether what an input has for toggle flags, under their own names and under their field names,
are truth values or nulls. -/
def setsFlags (s : Schema) : Value → Bool
  | .object entries => s.toggles.all fun flag ↦
      (entries.lookup flag).all Value.isFlag && (entries.lookup (fieldName flag)).all Value.isFlag
  | _ => true

end Schema

namespace Checked

variable {α β : Type}

theorem exists_map_eq_ok_iff {f : α → β} {result : Checked α} :
    (∃ y, result.map f = .ok y) ↔ ∃ x, result = .ok x := by
  cases result <;> simp [Except.map]

/-- Results of a list are put together where each of them is one. -/
theorem exists_all_eq_ok_iff {results : List (Checked α)} :
    (∃ xs, all results = .ok xs) ↔ ∀ result ∈ results, ∃ x, result = .ok x := by
  induction results with
  | nil => simp [all]
  | cons result rest ih =>
    rw [List.forall_mem_cons, ← ih, all]
    cases result <;> cases all rest <;> simp [both]

end Checked

namespace RecordLayout

variable {entries : List (String × Value)}

/-- Whether a value is read as what a field of a kind holds. -/
def Takes (kind : FieldKind) (value : Value) : Prop :=
  ∃ result, RecordCheck.checkKind kind value = .ok result

theorem takes_text_iff {value : Value} : Takes .text value ↔ value.isTextOrNumber = true := by
  rw [Takes]
  cases value <;> simp [RecordCheck.checkKind, RecordCheck.checkTextOrNumber, Checked.issue,
    Value.isTextOrNumber]

theorem takes_flag_of_isFlag {value : Value} (h : value.isFlag = true) : Takes .flag value := by
  cases value with
  | null | bool => exact ⟨_, rfl⟩
  | int | float | string | list | object | record => cases h

/-- An object has a field that is needed exactly where it has an entry that the field takes. -/
theorem exists_readsField_iff {field : String × FieldKind} (h : field.2.isRequired = true) :
    (∃ result, ReadsField entries field result) ↔
      ∃ value, entryFor entries field.1 = some value ∧ Takes field.2 value := by
  rw [entryFor, ← map_entry?_fieldOf]
  constructor
  · rintro ⟨result, -, ⟨key, value, hentry, hcheck⟩ | ⟨-, hoptional, -⟩⟩
    · exact ⟨value, by rw [hentry]; rfl, result.2, hcheck⟩
    · rw [h] at hoptional
      cases hoptional
  · rintro ⟨value, hvalue, result, hcheck⟩
    obtain ⟨⟨key, found⟩, hentry, rfl⟩ := Option.map_eq_some_iff.1 hvalue
    exact ⟨(field.1, result), rfl, Or.inl ⟨key, found, hentry, hcheck⟩⟩

/-- A field for a flag is read where its entry is a truth value or null, or is not there. -/
theorem exists_readsField_of_isFlag {flag : String}
    (h : (entryFor entries flag).all Value.isFlag = true) :
    ∃ result, ReadsField entries (flag, .flag) result := by
  rw [entryFor, ← map_entry?_fieldOf] at h
  cases hentry : RecordCheck.entry? (fieldOf flag) entries with
  | none => exact ⟨(flag, .null), rfl, Or.inr ⟨hentry, rfl, rfl⟩⟩
  | some entry =>
    rw [hentry] at h
    obtain ⟨result, hresult⟩ := takes_flag_of_isFlag h
    exact ⟨(flag, result), rfl, Or.inl ⟨entry.1, entry.2, hentry, hresult⟩⟩

/-- Every field of some is read exactly where all together are. -/
theorem exists_forall₂_readsField_iff {pairs : List (String × FieldKind)} :
    (∃ results, List.Forall₂ (ReadsField entries) pairs results) ↔
      ∀ pair ∈ pairs, ∃ result, ReadsField entries pair result := by
  refine ⟨?_, exists_forall₂⟩
  rintro ⟨results, hresults⟩ pair hpair
  induction hresults with
  | nil => exact absurd hpair List.not_mem_nil
  | cons hfirst _ ih =>
    rcases List.mem_cons.1 hpair with rfl | hrest
    · exact ⟨_, hfirst⟩
    · exact ih hrest

theorem exists_checkFields_iff {pairs : List (String × FieldKind)} :
    (∃ fields, RecordCheck.checkFields (fieldsOf pairs) entries = .ok fields) ↔
      ∀ pair ∈ pairs, ∃ result, ReadsField entries pair result := by
  rw [← exists_forall₂_readsField_iff]
  simp only [checkFields_fieldsOf_eq_ok_iff]
  exact ⟨fun ⟨_, results, _, h⟩ ↦ ⟨results, h⟩, fun ⟨results, h⟩ ↦ ⟨_, results, rfl, h⟩⟩

/-- A list of records is read item by item. -/
theorem takes_list_iff {type : String} {fields : List (FieldName × FieldKind)} {value : Value} :
    Takes (.nested true type fields) value ↔
      ∃ items, value = .list items ∧ ∀ item ∈ items, Takes (.nested false type fields) item := by
  unfold Takes
  cases value with
  | list items =>
    -- where an item stands is seen in the issues only
    simp only [RecordCheck.checkKind, Checked.exists_map_eq_ok_iff, Checked.exists_all_eq_ok_iff]
    constructor
    · intro h
      refine ⟨items, rfl, fun item hmem ↦ ?_⟩
      obtain ⟨i, hi, rfl⟩ := List.mem_iff_getElem.1 hmem
      obtain ⟨result, hresult⟩ := h _ (List.mem_mapIdx.2 ⟨i, hi, rfl⟩)
      exact ⟨result, Checked.below_eq_ok_iff.1 hresult⟩
    · rintro ⟨_, ⟨⟩, h⟩ checked hchecked
      obtain ⟨i, hi, rfl⟩ := List.mem_mapIdx.1 hchecked
      obtain ⟨result, hresult⟩ := h _ (List.getElem_mem hi)
      exact ⟨result, Checked.below_eq_ok_iff.2 hresult⟩
  | null | bool | int | float | string | object | record =>
    simp [RecordCheck.checkKind, Checked.issue]

/-! ### Components -/

/-- Whether the objects that are read as records of a component's type are those that it admits. -/
def ReadsAdmitted (c : Component) : Prop :=
  ∀ source taken entries,
    (∃ fields, RecordCheck.checkFields (settledFields [] (typeOf source taken c).1.fields) entries =
      .ok fields) ↔ c.admits builtEntryFor (.object entries) = true

/-- A record of a component's type is read from what the component admits. -/
theorem takes_record_iff {c : Component} (hreads : ReadsAdmitted c) (source : String)
    (taken : List String) (type : String) {value : Value} :
    Takes (.nested false type (settledFields [] (typeOf source taken c).1.fields)) value ↔
      c.admits builtEntryFor value = true := by
  rw [Takes]
  cases value with
  | object entries =>
    simp only [RecordCheck.checkKind]
    rw [Checked.exists_map_eq_ok_iff, hreads]
  | null | bool | int | float | string | list | record =>
    simp [RecordCheck.checkKind, Checked.issue, Component.admits_eq_true_iff]

/-- An object has the field for a nested component where it has what is admitted there. -/
theorem exists_readsField_nested_iff {pair : String × Component} (hreads : ReadsAdmitted pair.2)
    {field : String × FieldKind} (hfield : IsNested pair field) :
    (∃ result, ReadsField entries (entryName field.1, settledKind field.2) result) ↔
      (builtEntryFor entries pair.1).any (pair.2.admitsNested builtEntryFor) = true := by
  obtain ⟨hname, source, taken, hkind⟩ := hfield
  have htakes : ∀ value, Takes (settledKind field.2) value ↔
      pair.2.admitsNested builtEntryFor value = true := by
    intro value
    unfold Component.admitsNested
    rw [hkind, settledKind]
    cases pair.2.array with
    | false => exact takes_record_iff hreads source taken _
    | true =>
      simp only [takes_list_iff, takes_record_iff hreads source taken]
      cases value <;> simp
  have hrequired : (settledKind field.2).isRequired = true := by
    rw [hkind, settledKind]
    rfl
  rw [exists_readsField_iff hrequired, Option.any_eq_true, builtEntryFor, hname]
  simp only [htakes]

/-- The fields for nested components are read where the object has what is admitted for each. -/
theorem forall_readsField_nested_iff {components : List (String × Component)}
    {nested : List (String × FieldKind)} (hnested : List.Forall₂ IsNested components nested)
    (hreads : ∀ pair ∈ components, ReadsAdmitted pair.2) :
    (∀ field ∈ settledPairs nested, ∃ result, ReadsField entries field result) ↔
      ∀ pair ∈ components,
        (builtEntryFor entries pair.1).any (pair.2.admitsNested builtEntryFor) = true := by
  induction hnested with
  | nil => simp [settledPairs]
  | cons hfirst _ ih =>
    obtain ⟨hhead, htail⟩ := List.forall_mem_cons.1 hreads
    rw [settledPairs, List.map_cons, List.forall_mem_cons, List.forall_mem_cons,
      exists_readsField_nested_iff hhead hfirst, ← ih htail]
    rfl

/-- The fields for properties are read where the object has a text or number for each. -/
theorem forall_readsField_textFields_iff {properties : List (String × String)} :
    (∀ field ∈ settledPairs (textFields properties), ∃ result, ReadsField entries field result) ↔
      ∀ property ∈ properties,
        (builtEntryFor entries property.1).any Value.isTextOrNumber = true := by
  have hfield : ∀ name, (∃ result, ReadsField entries (entryName name, .text) result) ↔
      (builtEntryFor entries name).any Value.isTextOrNumber = true := by
    intro name
    rw [exists_readsField_iff rfl, Option.any_eq_true, builtEntryFor]
    simp only [takes_text_iff]
  rw [settledPairs, textFields, List.map_map, List.forall_mem_map]
  exact forall₂_congr fun property _ ↦ hfield property.1

/-- The fields for a component's parts are read where the component admits the object. -/
theorem forall_readsField_iff_admits {c : Component}
    (hreads : ∀ pair ∈ c.components, ReadsAdmitted pair.2) {nested : List (String × FieldKind)}
    (hnested : List.Forall₂ IsNested c.components nested) :
    (∀ field ∈ settledPairs (nested ++ textFields c.properties),
        ∃ result, ReadsField entries field result) ↔
      c.admits builtEntryFor (.object entries) = true := by
  rw [settledPairs, List.map_append, List.forall_mem_append, Component.admits_eq_true_iff]
  rw [← settledPairs, ← settledPairs, forall_readsField_nested_iff hnested hreads,
    forall_readsField_textFields_iff, and_comm]
  simp

/-- Where the names of every component have distinct field names, records are read from what is
admitted. -/
theorem readsAdmitted (c : Component) :
    (∀ node ∈ c.nodes, (node.declared.map fieldName).Nodup) → ReadsAdmitted c := by
  induction c using Component.induction_on_components with
  | step properties components array itemName ih =>
    intro hfields source taken entries
    have hself := Component.mem_nodes_self ⟨properties, components, array, itemName⟩
    obtain ⟨nested, hsettled, hnested⟩ := exists_settled_typeOf (hfields _ hself) source taken
    have hreads : ∀ pair ∈ components, ReadsAdmitted pair.2 := by
      intro pair hpair
      have hnodes := Component.nodes_subset_of_mem
        (show pair ∈ Component.components ⟨properties, components, array, itemName⟩ from hpair)
      exact ih pair hpair fun node hnode ↦ hfields node (hnodes hnode)
    rw [hsettled, exists_checkFields_iff, forall_readsField_iff_admits hreads hnested]

/-! ### Inputs -/

variable {s : Schema}

/-- The fields of an input beside the flags are read where the schema admits it. -/
theorem exists_isOwn_readsField_iff (entries : List (String × Value))
    (hfields : ∀ node ∈ s.root.nodes, (node.declared.map fieldName).Nodup) :
    ∃ own, IsOwn s own ∧ ((∀ field ∈ own, ∃ result, ReadsField entries field result) ↔
      s.admits builtEntryFor (.object entries) = true) := by
  have hself := hfields _ (Component.mem_nodes_self s.root)
  rw [Schema.admits]
  by_cases hroot : (s.name == rootScope) = true
  · obtain ⟨nested, hsettled, hnested⟩ := exists_settled_typeOf hself s.name [inputName]
    have hreads : ∀ pair ∈ s.root.components, ReadsAdmitted pair.2 := fun pair hpair ↦
      readsAdmitted pair.2 fun node hnode ↦
        hfields node (Component.nodes_subset_of_mem hpair hnode)
    refine ⟨_, ?_, by rw [if_pos hroot]; exact forall_readsField_iff_admits hreads hnested⟩
    rw [IsOwn, if_pos hroot, Schema.rootType, hsettled]
  · refine ⟨_, by rw [IsOwn, if_neg hroot], ?_⟩
    rw [if_neg hroot, List.forall_mem_singleton, exists_readsField_iff rfl, Option.any_eq_true,
      builtEntryFor]
    simp only [Schema.rootType, takes_record_iff (readsAdmitted s.root hfields)]

/-- An object whose toggle flags are truth values or nulls is read as a record where the schema
admits it. -/
theorem exists_checkInput_object_iff {entries : List (String × Value)}
    (hfields : ∀ node ∈ s.root.nodes, (node.declared.map fieldName).Nodup)
    (hflags : s.setsFlags (.object entries) = true) :
    (∃ record, s.checkInput (.object entries) = .ok record) ↔
      s.admits builtEntryFor (.object entries) = true := by
  obtain ⟨own, hown, hadmits⟩ := exists_isOwn_readsField_iff entries hfields
  rw [Schema.setsFlags, List.all_eq_true] at hflags
  -- a flag that is kept has a field of its own, which is read whatever else is there
  have hkept : ∀ field ∈ flagFields s.keptFlags, ∃ result, ReadsField entries field result := by
    intro field hfield
    obtain ⟨flag, hflag, rfl⟩ := List.mem_map.1 hfield
    obtain ⟨hname, hfield⟩ := Bool.and_eq_true_iff.1 (hflags flag (mem_of_mem_newFlags hflag).1)
    refine exists_readsField_of_isFlag ?_
    rw [entryFor]
    cases hlookup : entries.lookup flag with
    | none => exact hfield
    | some value => rwa [hlookup] at hname
  rw [← hadmits]
  simp only [checkInput_object_eq_ok_iff hown]
  constructor
  · rintro ⟨record, results, -, hresults⟩ field hfield
    exact exists_forall₂_readsField_iff.1 ⟨results, hresults⟩ field
      (List.mem_append_left _ hfield)
  · intro hread
    obtain ⟨results, hresults⟩ := exists_forall₂_readsField_iff.2
      (List.forall_mem_append.2 ⟨hread, hkept⟩)
    exact ⟨_, results, rfl, hresults⟩

/-- Where no name is empty, everything declared is found under its own name too. -/
theorem admits_builtEntryFor (hnamed : s.Named) (input : Value) :
    s.admits builtEntryFor input = s.admits entryFor input := by
  have hroot : s.root.admits builtEntryFor = s.root.admits entryFor := by
    refine funext (Component.admits_congr s.root fun node hnode name hname entries ↦ ?_)
    exact builtEntryFor_of_ne (fun hempty ↦ hnamed.2 node hnode (hempty ▸ hname)) entries
  cases input with
  | object entries => rw [Schema.admits, Schema.admits, hroot, builtEntryFor_of_ne hnamed.1]
  | null | bool | int | float | string | list | record => rfl

end RecordLayout

/-- Where the names of every component have distinct field names, an input whose toggle flags are
truth values or nulls is read as a record exactly where the schema admits it, with nothing found
under the empty name; if no name is empty, that is where it has what is declared. -/
theorem Schema.exists_checkInput_iff_admits {s : Schema} {input : Value}
    (hfields : ∀ node ∈ s.root.nodes, (node.declared.map fieldName).Nodup)
    (hflags : s.setsFlags input = true) :
    ((∃ record, s.checkInput input = .ok record) ↔ s.admits builtEntryFor input = true) ∧
      (s.Named → ((∃ record, s.checkInput input = .ok record) ↔
        s.admits entryFor input = true)) := by
  have hbuilt : (∃ record, s.checkInput input = .ok record) ↔
      s.admits builtEntryFor input = true := by
    cases input with
    | object entries => exact exists_checkInput_object_iff hfields hflags
    | null | bool | int | float | string | list | record =>
      simp [admits, checkInput, RecordType.check, Checked.issue]
  refine ⟨hbuilt, fun hnamed ↦ ?_⟩
  rw [hbuilt, admits_builtEntryFor hnamed]

/-- A schema of orders, each with its number and a list of lines. -/
def orderSchema : Schema :=
  ⟨"order", ⟨[("order-no", textType)],
    [("lines", ⟨[("unit price", textType)], [], true, some "line"⟩)], false, none⟩, ["is-new"]⟩

/-- An order with one line, whose number stands under its field name. -/
def orderInput (price : Value) : Value :=
  .object [("order", .object [("order_no", .int 7),
    ("lines", .list [.object [("unit price", price), ("note", .null)]])]), ("is-new", .null)]

theorem exists_checkInput_iff_admits_orderSchema :
    (∀ node ∈ orderSchema.root.nodes, (node.declared.map fieldName).Nodup) ∧
      (∀ price, orderSchema.setsFlags (orderInput price) = true) ∧ orderSchema.Named ∧
      (∃ record, orderSchema.checkInput (orderInput (.string "1.50")) = .ok record) ∧
      ¬ ∃ record, orderSchema.checkInput (orderInput (.bool true)) = .ok record := by
  have hfields : ∀ node ∈ orderSchema.root.nodes, (node.declared.map fieldName).Nodup := by
    decide +kernel
  have hflags : ∀ price, orderSchema.setsFlags (orderInput price) = true := by
    intro price
    have hfieldName : fieldName "is-new" = "is_new" := by decide +kernel
    simp [Schema.setsFlags, orderSchema, orderInput, hfieldName, Value.isFlag, List.lookup_cons]
  have hnamed : orderSchema.Named := by decide +kernel
  refine ⟨hfields, hflags, hnamed, ?_, ?_⟩
  · rw [(Schema.exists_checkInput_iff_admits hfields (hflags _)).2 hnamed]
    decide +kernel
  · rw [(Schema.exists_checkInput_iff_admits hfields (hflags _)).2 hnamed]
    decide +kernel

/-- A schema with a property that has no name. -/
def blankSchema : Schema :=
  ⟨rootScope, ⟨[("", textType)], [], false, none⟩, []⟩

/-- With an empty name declared, an input that has what is declared is refused: the built field has
no other name than its own. No two names of the schema have anything to do with each other. -/
theorem not_exists_checkInput_iff_admits_blankSchema :
    ¬ ∀ (s : Schema) (input : Value), s.root.DeclaresOnce → Separate s.names → s.toggles.Nodup →
      s.FlagsApart → s.setsFlags input = true →
        ((∃ record, s.checkInput input = .ok record) ↔ s.admits entryFor input = true) := by
  intro hclaim
  let input := Value.object [("", .string "x")]
  have hadmits : blankSchema.admits entryFor input = true := by decide +kernel
  obtain ⟨record, hcheck⟩ := (hclaim blankSchema input (by unfold Component.DeclaresOnce; decide)
    (by decide +kernel) List.nodup_nil (by decide) rfl).2 hadmits
  have hrefused : (blankSchema.checkInput input).toOption.isNone = true := by decide +kernel
  rw [hcheck] at hrefused
  cases hrefused

end MarkupBinding
